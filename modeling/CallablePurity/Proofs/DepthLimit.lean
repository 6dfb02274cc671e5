import CallablePurity.Proofs.CallGraph

set_option autoImplicit false

/-! # The depth limit

Where nothing is wrong with any callable that can be reached, the analysis can still fail to see it:
it follows calls to a limited depth only. The verdict then depends on the chains of calls from the
root (`BoundCallable.Chain`). A chain counts if the keys along it are new one after the other; one
that comes back to a key is cut where it does. The root is found to be pure exactly when no chain
that counts is longer than the limit, and otherwise the one violation spells out such a chain, up to
the call at which the limit was reached (`Analyzer.analyze_pure_iff_chain`).

The key of the root counts as the first one, unless it is empty: a function whose name is all
backslashes is not waited for, so that a chain may come back to it once. -/

namespace CallablePurity

/-! ## Chains of calls -/

namespace BoundCallable

/-- The references along calls that lead on from a callable. -/
inductive Chain (config : Config) (lookup : Lookup) : BoundCallable → List Reference → Prop
  | nil (p : BoundCallable) : Chain config lookup p []
  | cons {p q : BoundCallable} {r : Reference} {refs : List Reference}
      (hedge : p.Edge config lookup r q) (hrest : Chain config lookup q refs) :
      Chain config lookup p (r :: refs)

end BoundCallable

/-- The keys of the references are distinct, and none of them is among the given ones. -/
structure Reference.Fresh (keys : List String) (refs : List Reference) : Prop where
  nodup : (refs.map Reference.key).Nodup
  notMem : ∀ r ∈ refs, r.key ∉ keys

theorem Reference.fresh_cons_iff (keys : List String) (r : Reference) (refs : List Reference) :
    Fresh keys (r :: refs) ↔ r.key ∉ keys ∧ Fresh (r.key :: keys) refs := by
  constructor
  · rintro ⟨hnodup, hnotMem⟩
    rw [List.map_cons, List.nodup_cons] at hnodup
    refine ⟨hnotMem r List.mem_cons_self, hnodup.2, ?_⟩
    intro s hs hmem
    rcases List.mem_cons.1 hmem with heq | hmem
    · rw [← heq] at hnodup
      exact hnodup.1 (List.mem_map_of_mem hs)
    · exact hnotMem s (List.mem_cons_of_mem r hs) hmem
  · rintro ⟨hr, hnodup, hnotMem⟩
    refine ⟨?_, ?_⟩
    · rw [List.map_cons, List.nodup_cons]
      refine ⟨?_, hnodup⟩
      intro hmem
      obtain ⟨s, hs, heq⟩ := List.mem_map.1 hmem
      refine hnotMem s hs ?_
      rw [heq]
      exact List.mem_cons_self
    · intro s hs hmem
      rcases List.mem_cons.1 hs with rfl | hs
      · exact hr hmem
      · exact hnotMem s hs (List.mem_cons_of_mem _ hmem)

/-! ## The offence of a chain that is too long -/

/-- The offence of calls one inside the other, of which the innermost ends in the given offence. -/
def Offence.through (refs : List Reference) (base : Offence) : Offence :=
  refs.foldr .impureCall base

/-- The violation names the calls from the outermost to the innermost. -/
theorem Offence.violation_through (refs : List Reference) (base : Offence) :
    (through refs base).violation
      = String.join (refs.map fun r => "calls impure " ++ r.name ++ ": ") ++ base.violation := by
  induction refs with
  | nil => exact (String.empty_append).symm
  | cons r refs ih =>
    have hcons : (through (r :: refs) base).violation
        = "calls impure " ++ r.name ++ ": " ++ (through refs base).violation := rfl
    rw [hcons, ih, List.map_cons, String.join_cons, ← String.append_assoc]

/-- The offence of a chain of calls, all followed but the last one. -/
def Offence.tooDeep (limit : Int) (followed : List Reference) (last : Reference) : Offence :=
  followed.foldr .impureCall (.depthLimit limit last)

namespace Offence

variable (limit : Int) (followed : List Reference) (last : Reference)

theorem violation_tooDeep :
    (tooDeep limit followed last).violation
      = String.join (followed.map fun r => "calls impure " ++ r.name ++ ": ")
        ++ ("call depth limit " ++ toString limit ++ " reached at " ++ last.name) :=
  violation_through followed (.depthLimit limit last)

theorem report_tooDeep :
    (tooDeep limit followed last).flags = { impureCall := true }
    ∧ (tooDeep limit followed last).violations = [(tooDeep limit followed last).violation] := by
  cases followed with
  | nil => exact ⟨rfl, rfl⟩
  | cons r followed => exact ⟨rfl, rfl⟩

end Offence

/-! ## The verdict at some depth -/

namespace Analyzer

section Verdict

variable {config : Config} {lookup : Lookup} {p : BoundCallable}

/-- Where nothing is found, the chains that count are no longer than the calls that may be
    followed. -/
theorem length_le_of_chain {refs : List Reference} (hchain : p.Chain config lookup refs)
    {budget : Nat} {visit : Visit} (hfresh : Reference.Fresh visit.inProgress refs)
    (hnone : ((following config lookup).judge budget visit p.callable p.thisType).outcome
      = .ok none) : refs.length ≤ budget := by
  -- each call of the chain must have been followed: it is pending, and its key is new
  induction hchain generalizing budget visit with
  | nil p => exact Nat.zero_le budget
  | cons hedge hrest ih =>
    obtain ⟨hkey, hfresh⟩ := (Reference.fresh_cons_iff _ _ _).1 hfresh
    obtain ⟨-, hpending⟩ := (outcome_judge_eq_none_iff visit budget).1 hnone
    rcases hpending _ hedge.pending with hwaiting | ⟨below, q', rfl, hedge', hbelow⟩
    · exact absurd hwaiting hkey
    · rw [← hedge.unique hedge'] at hbelow
      exact Nat.succ_le_succ (ih hfresh hbelow)

/-- Where nothing is wrong below a callable, but something is found nevertheless, it is a chain that
    counts and is one call longer than may be followed. -/
theorem outcome_judge_of_cleanBelow (budget : Nat) (visit : Visit)
    (h : p.CleanBelow config lookup) :
    ((following config lookup).judge budget visit p.callable p.thisType).outcome = .ok none
    ∨ ∃ followed last, p.Chain config lookup (followed ++ [last])
        ∧ Reference.Fresh visit.inProgress (followed ++ [last]) ∧ followed.length = budget
        ∧ ((following config lookup).judge budget visit p.callable p.thisType).outcome
          = .ok (some (.tooDeep config.maxCallDepth followed last)) := by
  -- the keys in progress grow with every call, so the induction is over all visits
  induction budget generalizing visit p with
  | zero =>
    obtain ⟨hclean, hfound⟩ := h.self
    obtain ⟨o?, ho, hoffence⟩ :=
      outcome_judgeWith_of_locallyClean none visit hfound nofun hclean
    cases o? with
    | none => exact Or.inl ho
    | some o =>
      cases hoffence o rfl with
      | depthLimit hlimit hpending hfresh =>
        obtain ⟨callee, hcallee⟩ := hfound _ hpending
        refine Or.inr ⟨[], _, ?_, ?_, rfl, ho⟩
        · exact .cons (hpending.edge hcallee) (.nil _)
        · exact (Reference.fresh_cons_iff _ _ []).2 ⟨hfresh, List.nodup_nil, nofun⟩
      | impureCall hjudge hedge hfresh hcause => cases hjudge
  | succ budget ih =>
    obtain ⟨hclean, hfound⟩ := h.self
    have hjudge : ∀ judge, some ((following config lookup).judge budget) = some judge →
        ∀ r q, p.Edge config lookup r q →
        ∃ o?, (judge (visit.descend r) q.callable q.thisType).outcome = .ok o? := by
      intro judge hjudge r q hedge
      cases hjudge
      rcases ih (visit.descend r) (h.of_edge hedge) with hnone | ⟨followed, last, -, -, -, hsome⟩
      · exact ⟨none, hnone⟩
      · exact ⟨_, hsome⟩
    obtain ⟨o?, ho, hoffence⟩ :=
      outcome_judgeWith_of_locallyClean _ visit hfound hjudge hclean
    cases o? with
    | none => exact Or.inl ho
    | some o =>
      cases hoffence o rfl with
      | depthLimit hlimit hpending hfresh => cases hlimit
      | @impureCall r q judge cause hjudge hedge hfresh hcause =>
        cases hjudge
        rcases ih (visit.descend r) (h.of_edge hedge) with
          hnone | ⟨followed, last, hchain, hfreshBelow, hlength, hsome⟩
        · rw [hnone] at hcause
          cases hcause
        · rw [hsome] at hcause
          cases hcause
          refine Or.inr ⟨r :: followed, last, .cons hedge hchain, ?_, ?_, ho⟩
          · exact (Reference.fresh_cons_iff _ _ _).2 ⟨hfresh, hfreshBelow⟩
          · rw [List.length_cons, hlength]

/-! ## The verdict on a root -/

/-- The keys that are not waited for when an analysis starts. -/
theorem notMem_startVisit_iff (key? : Option String) (key : String) :
    key ∉ (startVisit key?).inProgress ↔ (key? = some key → key = "") := by
  unfold startVisit
  rw [Option.mem_toList, Option.filter_eq_some_iff]
  simp

theorem fresh_startVisit_iff (key? : Option String) (refs : List Reference) :
    Reference.Fresh (startVisit key?).inProgress refs
      ↔ (refs.map Reference.key).Nodup ∧ ∀ r ∈ refs, key? = some r.key → r.key = "" := by
  constructor
  · rintro ⟨hnodup, hnotMem⟩
    exact ⟨hnodup, fun r hr => (notMem_startVisit_iff key? r.key).1 (hnotMem r hr)⟩
  · rintro ⟨hnodup, hroot⟩
    exact ⟨hnodup, fun r hr => (notMem_startVisit_iff key? r.key).2 (hroot r hr)⟩

/-- A root below which nothing is wrong is pure, or is reported for a chain that is one call too
    long. -/
theorem outcome_analyze_of_cleanBelow {root : BoundCallable} {key? : Option String}
    (hkey : rootKey? root.callable root.thisType = .ok key?)
    (hclean : root.CleanBelow config lookup) :
    (((following config lookup).analyze root.callable root.thisType).outcome = .ok .pure
      ∧ ∀ refs, root.Chain config lookup refs →
          Reference.Fresh (startVisit key?).inProgress refs →
          (refs.length : Int) ≤ config.maxCallDepth)
    ∨ ∃ followed last, root.Chain config lookup (followed ++ [last])
        ∧ Reference.Fresh (startVisit key?).inProgress (followed ++ [last])
        ∧ (followed.length : Int) = config.maxCallDepth
        ∧ ((following config lookup).analyze root.callable root.thisType).outcome
          = .ok (Offence.tooDeep config.maxCallDepth followed last).report := by
  have hbudget := config.coe_callBudget
  rw [outcome_analyze (z := following config lookup) hkey]
  rcases outcome_judge_of_cleanBelow config.callBudget (startVisit key?) hclean with
    hnone | ⟨followed, last, hchain, hfresh, hlength, hsome⟩
  · refine Or.inl ⟨?_, ?_⟩
    · rw [hnone]
      rfl
    · intro refs hchain hfresh
      have hle := length_le_of_chain hchain hfresh hnone
      omega
  · refine Or.inr ⟨followed, last, hchain, hfresh, ?_, ?_⟩
    · rw [hlength, hbudget]
    · rw [hsome]
      rfl

theorem outcome_analyze_eq_pure_iff {root : BoundCallable} {key? : Option String}
    (hkey : rootKey? root.callable root.thisType = .ok key?)
    (hclean : root.CleanBelow config lookup) :
    ((following config lookup).analyze root.callable root.thisType).outcome = .ok .pure
      ↔ ∀ refs, root.Chain config lookup refs → (refs.map Reference.key).Nodup →
          (∀ r ∈ refs, key? = some r.key → r.key = "") →
          (refs.length : Int) ≤ config.maxCallDepth := by
  rcases outcome_analyze_of_cleanBelow hkey hclean with
    ⟨hpure, hall⟩ | ⟨followed, last, hchain, hfresh, hlength, himpure⟩
  · refine iff_of_true hpure ?_
    intro refs hchain hnodup hroot
    exact hall refs hchain ((fresh_startVisit_iff key? refs).2 ⟨hnodup, hroot⟩)
  · refine iff_of_false ?_ ?_
    · intro hpure
      cases himpure.symm.trans hpure
    · -- the chain that is reported is itself too long
      intro hall
      obtain ⟨hnodup, hroot⟩ := (fresh_startVisit_iff key? _).1 hfresh
      have hle := hall _ hchain hnodup hroot
      rw [List.length_append, List.length_singleton] at hle
      omega

end Verdict

/-- **The depth limit.** Where nothing is wrong with any callable that can be reached, the root is
    pure exactly when no chain of calls is longer than the limit, of those whose keys are distinct
    and different from the key of the root; an empty key of the root does not count as one.
    Otherwise the one violation spells out a chain that is one call too long. -/
theorem analyze_pure_iff_chain (config : Config) (lookup : Lookup) (root : BoundCallable)
    (key? : Option String) (hkey : rootKey? root.callable root.thisType = .ok key?)
    (hclean : root.CleanBelow config lookup) :
    let outcome := (analyze { config := config, lookup := some lookup } root.callable
      root.thisType).outcome
    (outcome = .ok .pure
      ↔ ∀ refs, root.Chain config lookup refs → (refs.map Reference.key).Nodup →
          (∀ r ∈ refs, key? = some r.key → r.key = "") → (refs.length : Int) ≤ config.maxCallDepth)
    ∧ (key? ≠ some "" →
        (outcome = .ok .pure
          ↔ ∀ refs, root.Chain config lookup refs → (refs.map Reference.key).Nodup →
              (∀ r ∈ refs, key? ≠ some r.key) → (refs.length : Int) ≤ config.maxCallDepth))
    ∧ (outcome ≠ .ok .pure → ∃ report followed last, outcome = .ok report
        ∧ report.isPure = false ∧ report.flags = { impureCall := true }
        ∧ report.violations
          = [String.join (followed.map fun r => "calls impure " ++ r.name ++ ": ")
              ++ ("call depth limit " ++ toString config.maxCallDepth ++ " reached at "
                ++ last.name)]
        ∧ root.Chain config lookup (followed ++ [last])
        ∧ ((followed ++ [last]).map Reference.key).Nodup
        ∧ (followed.length : Int) = config.maxCallDepth) := by
  intro outcome
  have hpure : outcome = .ok .pure ↔ _ := outcome_analyze_eq_pure_iff hkey hclean
  refine ⟨hpure, ?_, ?_⟩
  · intro hne
    have hroot (r : Reference) : (key? = some r.key → r.key = "") ↔ key? ≠ some r.key := by
      constructor
      · intro himp heq
        rw [himp heq] at heq
        exact hne heq
      · intro hneq heq
        exact absurd heq hneq
    rw [hpure]
    simp only [hroot]
  · intro hne
    rcases outcome_analyze_of_cleanBelow hkey hclean with
      ⟨hpure, -⟩ | ⟨followed, last, hchain, hfresh, hlength, himpure⟩
    · exact absurd hpure hne
    · obtain ⟨hflags, hviolations⟩ := Offence.report_tooDeep config.maxCallDepth followed last
      refine ⟨_, followed, last, himpure, rfl, hflags, ?_, hchain, hfresh.nodup, hlength⟩
      rw [← Offence.violation_tooDeep]
      exact hviolations

/-! ### A function with an empty key

A function with the name `\` calls itself and then `g`. Its key is empty, so the analysis does not
wait for it: it goes through the call of itself and calls `g` one level deeper than from the root.
-/

namespace Backslash

open BoundCallable

def config : Config :=
  { Config.standard with
    maxCallDepth := 1
    overlap_eq_nil := Config.standard.overlap_eq_nil
    one_le_maxCallDepth := by decide }

def backslash : Ident := ⟨"\\", by decide⟩

def g : Ident := ⟨"g", by decide⟩

def root : Callable := .calling backslash [backslash, g]

def leaf : Callable := .calling g []

def lookup : Lookup := .exact [(⟨backslash, none⟩, some root), (⟨g, none⟩, some leaf)]

theorem lookup_backslash : lookup ⟨backslash, none⟩ = some root := rfl

theorem lookup_g : lookup ⟨g, none⟩ = some leaf := rfl

theorem key_backslash : Reference.key ⟨backslash, none⟩ = "" := by
  decide +kernel

theorem rootKey?_root : rootKey? root none = .ok (some "") := by
  show Except.ok (some (Reference.key ⟨backslash, none⟩)) = _
  rw [key_backslash]

theorem not_pending_leaf (r : Reference) : ¬ Pending config ⟨leaf, none⟩ r := by
  intro h
  obtain ⟨f, hf, -⟩ := (pending_calling_iff _ _ _ _ r).1 h
  exact absurd hf List.not_mem_nil

theorem edge_root {r : Reference} {q : BoundCallable} (h : Edge config lookup ⟨root, none⟩ r q) :
    r = ⟨backslash, none⟩ ∧ q = ⟨root, none⟩ ∨ r = ⟨g, none⟩ ∧ q = ⟨leaf, none⟩ := by
  obtain ⟨f, hf, rfl, -⟩ := (pending_calling_iff _ _ _ _ r).1 h.pending
  rcases List.mem_cons.1 hf with rfl | hf
  · exact Or.inl ⟨rfl, h.eq_of_found lookup_backslash⟩
  · obtain rfl := List.mem_singleton.1 hf
    exact Or.inr ⟨rfl, h.eq_of_found lookup_g⟩

theorem edges : Edge config lookup ⟨root, none⟩ ⟨backslash, none⟩ ⟨root, none⟩
    ∧ Edge config lookup ⟨root, none⟩ ⟨g, none⟩ ⟨leaf, none⟩ := by
  have hlist : ∀ f ∈ [backslash, g], config.isKnownPure f.text = false := by decide +kernel
  have hpending : ∀ f ∈ [backslash, g], Pending config ⟨root, none⟩ ⟨f, none⟩ :=
    fun f hf => (pending_calling_iff _ _ _ _ _).2 ⟨f, hf, rfl, hlist f hf⟩
  exact ⟨(hpending _ List.mem_cons_self).edge lookup_backslash,
    (hpending _ (List.mem_of_mem_getLast? rfl)).edge lookup_g⟩

theorem cleanBelow : CleanBelow config lookup ⟨root, none⟩ := by
  intro q hq
  have hcases : q = ⟨root, none⟩ ∨ q = ⟨leaf, none⟩ := by
    induction hq with
    | refl => exact Or.inl rfl
    | tail _ hedge ih =>
      obtain ⟨r, hedge⟩ := hedge
      rcases ih with rfl | rfl
      · rcases edge_root hedge with ⟨-, rfl⟩ | ⟨-, rfl⟩
        · exact Or.inl rfl
        · exact Or.inr rfl
      · exact absurd hedge.pending (not_pending_leaf r)
  rcases hcases with rfl | rfl
  · refine ⟨locallyClean_calling _ _ _ _, ?_⟩
    intro r hr
    obtain ⟨f, hf, rfl, -⟩ := (pending_calling_iff _ _ _ _ r).1 hr
    rcases List.mem_cons.1 hf with rfl | hf
    · exact ⟨root, lookup_backslash⟩
    · obtain rfl := List.mem_singleton.1 hf
      exact ⟨leaf, lookup_g⟩
  · exact ⟨locallyClean_calling _ _ _ _, fun r hr => absurd hr (not_pending_leaf r)⟩

/-- A chain that does not come back to the root is one call long at most. -/
theorem length_le_one {refs : List Reference} (h : Chain config lookup ⟨root, none⟩ refs)
    (hroot : ∀ r ∈ refs, some "" ≠ some r.key) : refs.length ≤ 1 := by
  cases h with
  | nil => exact Nat.zero_le 1
  | cons hedge hrest =>
    rcases edge_root hedge with ⟨rfl, -⟩ | ⟨-, rfl⟩
    · exact absurd (congrArg some key_backslash.symm) (hroot _ List.mem_cons_self)
    · cases hrest with
      | nil => exact Nat.le_refl 1
      | cons hedge' _ => exact absurd hedge'.pending (not_pending_leaf _)

/-- A chain that comes back to the root once has distinct keys and is too long. -/
theorem chain_backslash_g : Chain config lookup ⟨root, none⟩ [⟨backslash, none⟩, ⟨g, none⟩] :=
  .cons edges.1 (.cons edges.2 (.nil _))

theorem nodup_backslash_g :
    ([⟨backslash, none⟩, ⟨g, none⟩].map Reference.key).Nodup := by
  decide +kernel

end Backslash

/-- The chain through the call of the root itself counts, and is too long. -/
theorem analyze_pure_iff_chain_backslash :
    rootKey? Backslash.root none = .ok (some "")
    ∧ BoundCallable.CleanBelow Backslash.config Backslash.lookup ⟨Backslash.root, none⟩
    ∧ ∃ report,
        (analyze { config := Backslash.config, lookup := some Backslash.lookup } Backslash.root
          none).outcome = .ok report
        ∧ report.isPure = false ∧ report.flags = { impureCall := true } := by
  obtain ⟨hpure, -, himpure⟩ := analyze_pure_iff_chain Backslash.config Backslash.lookup
    ⟨Backslash.root, none⟩ (some "") Backslash.rootKey?_root Backslash.cleanBelow
  have hne : (analyze { config := Backslash.config, lookup := some Backslash.lookup }
      Backslash.root none).outcome ≠ .ok .pure := by
    intro heq
    have hle := hpure.1 heq _ Backslash.chain_backslash_g Backslash.nodup_backslash_g
      fun r _ hr => (Option.some.inj hr).symm
    exact absurd hle (by decide)
  obtain ⟨report, _, _, houtcome, hisPure, hflags, -⟩ := himpure hne
  exact ⟨Backslash.rootKey?_root, Backslash.cleanBelow, report, houtcome, hisPure, hflags⟩

/-- No chain of distinct keys that avoids the key of the root is longer than the limit, and yet the
    root is not found to be pure. -/
theorem not_pure_of_empty_rootKey :
    rootKey? Backslash.root none = .ok (some "")
    ∧ BoundCallable.CleanBelow Backslash.config Backslash.lookup ⟨Backslash.root, none⟩
    ∧ (∀ refs, BoundCallable.Chain Backslash.config Backslash.lookup ⟨Backslash.root, none⟩ refs →
        (refs.map Reference.key).Nodup → (∀ r ∈ refs, some "" ≠ some r.key) →
        (refs.length : Int) ≤ Backslash.config.maxCallDepth)
    ∧ (analyze { config := Backslash.config, lookup := some Backslash.lookup } Backslash.root
        none).outcome ≠ .ok .pure := by
  refine ⟨Backslash.rootKey?_root, Backslash.cleanBelow, ?_, ?_⟩
  · intro refs hchain _ hroot
    exact Int.ofNat_le.2 (Backslash.length_le_one hchain hroot)
  · intro hpure
    have hall := (outcome_analyze_eq_pure_iff Backslash.rootKey?_root Backslash.cleanBelow).1 hpure
    have hle := hall _ Backslash.chain_backslash_g Backslash.nodup_backslash_g
      fun r _ hr => (Option.some.inj hr).symm
    exact absurd hle (by decide)

end Analyzer

end CallablePurity
