import CallablePurity.Proofs.CallGraph
import CallablePurity.Proofs.TypeMembers

set_option autoImplicit false

/-! # More knowledge never loses purity

An analysis knows more than another one if its configuration takes more for granted
(`Config.Extends`) and its lookup finds more (`Lookup.Extends`). Some of that pulls in opposite
directions. A type that becomes plain is no longer the class of a receiver, so that fewer calls are
resolved; a function that is taken to be pure is no longer looked at, so that other callables are
under analysis; and calls are followed deeper.

For a callable in which nothing is found all of this is harmless. Its accesses have no side effect,
and have none under types that are plain more often (`Access.hasSideEffect_mono`); then the targets
of its calls do not depend on types at all, and each target that must still be looked at had to be
looked at before. By induction on the calls that may be followed nothing is found by the analysis
that knows more (`Analyzer.outcome_judge_mono`). -/

namespace CallablePurity

/-! ## Knowing more -/

/-- The first configuration takes for granted all that the second one does, and follows calls at
    least as deep. -/
structure Config.Extends (c' c : Config) : Prop where
  scalarTypes : c.scalarTypes ⊆ c'.scalarTypes
  /-- A collection may become a scalar, but nothing that is plain becomes anything else. -/
  plainTypes : c.scalarTypes ++ c.collectionTypes ⊆ c'.scalarTypes ++ c'.collectionTypes
  superglobals : c'.superglobals ⊆ c.superglobals
  knownPureFunctions : c.knownPureFunctions ⊆ c'.knownPureFunctions
  maxCallDepth : c.maxCallDepth ≤ c'.maxCallDepth

/-- The first lookup finds every definition that the second one finds. -/
def Lookup.Extends (lookup' lookup : Lookup) : Prop :=
  ∀ r callee, lookup r = some callee → lookup' r = some callee

namespace Config.Extends

variable {c c' : Config} (h : c'.Extends c)

include h

theorem scalarNames : c.scalarNames ⊆ c'.scalarNames :=
  List.map_subset Text.lowercase h.scalarTypes

theorem plainNames :
    c.scalarNames ++ c.collectionNames ⊆ c'.scalarNames ++ c'.collectionNames := by
  have hmap := List.map_subset Text.lowercase h.plainTypes
  rwa [List.map_append, List.map_append] at hmap

theorem callBudget : c.callBudget ≤ c'.callBudget := by
  have hdepth := h.maxCallDepth
  unfold Config.callBudget
  omega

theorem isWhitelisted {r : Reference} (hr : r.isWhitelisted c = true) :
    r.isWhitelisted c' = true := by
  simp only [Reference.isWhitelisted, Config.isKnownPure, Bool.and_eq_true,
    List.contains_iff_mem] at hr ⊢
  exact ⟨hr.1, List.map_subset Text.lowercase h.knownPureFunctions hr.2⟩

/-- A callable without an offence by itself has none for an analysis that takes more for granted. -/
theorem ownOffence?_eq_none {f : Callable} {thisType : Option String}
    (hown : f.ownOffence? c thisType = .ok none) : f.ownOffence? c' thisType = .ok none := by
  rw [Callable.ownOffence?_eq_none_iff] at hown ⊢
  obtain ⟨hbindings, accesses, hlocate, heffect⟩ := hown
  refine ⟨hbindings, accesses, hlocate, ?_⟩
  intro a ha
  have hfalse := heffect a ha
  rw [Bool.eq_false_iff] at hfalse ⊢
  intro htrue
  refine hfalse (a.hasSideEffect_mono h.scalarNames h.plainNames h.superglobals ?_ htrue)
  intro name
  exact (DeclaredType.SameMembers.refl _).refines

variable {p : BoundCallable}

theorem locallyClean (hp : p.LocallyClean c) : p.LocallyClean c' := by
  obtain ⟨hbindings, haccesses⟩ :=
    (Callable.ownOffence?_eq_none_iff _ _ _).1 (h.ownOffence?_eq_none hp.ownOffence?_eq_none)
  refine ⟨(Callable.byRefBindings_eq_nil_iff _).1 hbindings, haccesses, ?_⟩
  intro call hcall
  rw [← hp.target?_eq hcall c' p.types]
  exact hp.calls call hcall

/-- What must be looked at even if more is taken for granted had to be looked at before. -/
theorem pending (hp : p.LocallyClean c) {r : Reference} (hr : p.Pending c' r) : p.Pending c r := by
  obtain ⟨⟨call, hcall, htarget⟩, hlist⟩ := hr
  refine ⟨⟨call, hcall, ?_⟩, ?_⟩
  · rw [hp.target?_eq hcall c' p.types]
    exact htarget
  · rw [Bool.eq_false_iff] at hlist ⊢
    intro hr
    exact hlist (h.isWhitelisted hr)

end Config.Extends

/-! ## Judgements -/

namespace Analyzer

section Knowledge

variable {config config' : Config} (hconfig : config'.Extends config)

include hconfig

/-- One judgement: if nothing is found in a callable, then nothing is found at the same place of an
    analysis that knows more, provided that this holds for the callables that it calls. -/
theorem outcome_judge_mono_step {lookup lookup' : Lookup} (hlookup : lookup'.Extends lookup)
    {budget budget' : Nat} (hbudget : budget ≤ budget') {visit : Visit} {p : BoundCallable}
    (hcallees : ∀ below below' r (q : BoundCallable), budget = below + 1 → budget' = below' + 1 →
      ((following config lookup).judge below (visit.descend r) q.callable q.thisType).outcome
        = .ok none →
      ((following config' lookup').judge below' (visit.descend r) q.callable q.thisType).outcome
        = .ok none)
    (h : ((following config lookup).judge budget visit p.callable p.thisType).outcome = .ok none) :
    ((following config' lookup').judge budget' visit p.callable p.thisType).outcome
      = .ok none := by
  rw [outcome_judge_eq_none_iff] at h ⊢
  obtain ⟨hclean, hpending⟩ := h
  refine ⟨hconfig.locallyClean hclean, ?_⟩
  intro r hr
  rcases hpending r (hconfig.pending hclean hr) with hkey | ⟨below, q, hbelow, hedge, hq⟩
  · exact Or.inl hkey
  · -- the same definition is found, and the larger budget allows for the call too
    obtain ⟨below', hbelow'⟩ : ∃ below', budget' = below' + 1 := ⟨budget' - 1, by omega⟩
    refine Or.inr ⟨below', q, hbelow', ⟨hr, hlookup r _ hedge.found, hedge.bound⟩, ?_⟩
    exact hcallees below below' r q hbelow hbelow' hq

/-- The same for judgements that may follow any number of calls. -/
theorem outcome_judge_mono {lookup lookup' : Lookup} (hlookup : lookup'.Extends lookup)
    {budget budget' : Nat} (hbudget : budget ≤ budget') {visit : Visit} {p : BoundCallable}
    (h : ((following config lookup).judge budget visit p.callable p.thisType).outcome = .ok none) :
    ((following config' lookup').judge budget' visit p.callable p.thisType).outcome
      = .ok none := by
  induction budget generalizing budget' visit p with
  | zero => exact outcome_judge_mono_step hconfig hlookup hbudget nofun h
  | succ budget ih =>
    refine outcome_judge_mono_step hconfig hlookup hbudget ?_ h
    rintro _ below' r q ⟨⟩ rfl hq
    exact ih (by omega) hq

/-- Without a lookup no calls are followed. -/
theorem outcome_judge_mono_of_no_lookup {budget budget' : Nat} {visit : Visit} {c : Callable}
    {thisType : Option String}
    (h : (judge { config := config } budget visit c thisType).outcome = .ok none) :
    (judge { config := config' } budget' visit c thisType).outcome = .ok none := by
  obtain ⟨judge?, hjudge⟩ := judge_eq_judgeWith (z := { config := config }) budget
  obtain ⟨judge'?, hjudge'⟩ := judge_eq_judgeWith (z := { config := config' }) budget'
  rw [hjudge] at h
  rw [hjudge']
  have hown := ownOffence?_of_outcome_judgeWith judge? visit h
  exact outcome_judgeWith_of_no_lookup (z := { config := config' }) judge'? visit
    (hconfig.ownOffence?_eq_none hown) rfl

/-- **More knowledge never loses purity.** What is found to be pure is found to be pure by every
    analysis whose configuration takes at least as much for granted and whose lookup, if there is
    one, finds at least as much. -/
theorem analyze_pure_mono {lookup? lookup'? : Option Lookup}
    (hlookup : Option.Rel Lookup.Extends lookup'? lookup?) (c : Callable)
    (thisType : Option String)
    (h : (analyze { config := config, lookup := lookup? } c thisType).outcome = .ok .pure) :
    (analyze { config := config', lookup := lookup'? } c thisType).outcome = .ok .pure := by
  obtain ⟨key?, hkey, hroot⟩ := outcome_judge_of_pure h
  have hroot' : (judge { config := config', lookup := lookup'? } config'.callBudget
      (startVisit key?) c thisType).outcome = .ok none := by
    cases hlookup with
    | none => exact outcome_judge_mono_of_no_lookup hconfig hroot
    | some hextends =>
      exact outcome_judge_mono hconfig hextends hconfig.callBudget (p := ⟨c, thisType⟩) hroot
  exact outcome_analyze_of_judge hkey hroot'

end Knowledge

/-! ### A collection that becomes a scalar -/

namespace Printed

open BoundCallable

def listing : Ident := ⟨"listing", by decide⟩

def newline : Ident := ⟨"newline", by decide⟩

def items : Ident := ⟨"items", by decide⟩

/-- `function listing(array $items) { (string) $items; newline(); }` -/
def root : Callable :=
  .function ⟨listing, [⟨items, some ⟨"array", by decide⟩, false, .required⟩],
    [.expression (.cast .string (.var (.named items))), .expression (.call (.named newline) [])],
    false, none⟩

def lookup : Lookup := .exact [(⟨newline, none⟩, some (.calling newline []))]

/-- It finds something for every reference. -/
def wider : Lookup := fun r => (lookup r).or (some root)

/-- Arrays count as scalars, `newline` is taken to be pure, and one variable only is global. -/
def relaxed : Config where
  scalarTypes := "array" :: Config.standard.scalarTypes
  collectionTypes := []
  superglobals := ["GLOBALS"]
  knownPureFunctions := "newline" :: Config.standard.knownPureFunctions
  maxCallDepth := 9
  scalarTypes_ne_nil := by decide
  globals_mem := by decide
  overlap_eq_nil := by decide +kernel
  one_le_maxCallDepth := by decide

theorem relaxed_extends : relaxed.Extends .standard where
  scalarTypes := by decide
  plainTypes := by decide
  superglobals := by decide
  knownPureFunctions := by decide
  maxCallDepth := by decide

theorem wider_extends : wider.Extends lookup := by
  intro r callee hfound
  rw [wider, hfound]
  rfl

theorem locateCalls_root : locateCalls root.body = [.expr (.call (.named newline) [])] := by
  rw [locateCalls, locate_eq]
  cbv

theorem accesses_root : root.body.flatMap (Node.accesses [])
    = [⟨.var (.named items), [.expr (.cast .string (.var (.named items)))]⟩] := by
  cbv

theorem locallyClean_root : LocallyClean .standard ⟨root, none⟩ := by
  refine ⟨(Callable.byRefBindings_eq_nil_iff _).1 rfl, ⟨_, locateAccesses_eq _, ?_⟩, ?_⟩
  · show ∀ a ∈ root.body.flatMap (Node.accesses []), _
    rw [accesses_root]
    decide +kernel
  · show ∀ call ∈ locateCalls root.body, _
    rw [locateCalls_root]
    simp [Resolve.target?]

theorem pending_root {r : Reference} (h : Pending .standard ⟨root, none⟩ r) :
    r = ⟨newline, none⟩ := by
  obtain ⟨⟨call, hcall, htarget⟩, -⟩ := h
  have hcall : call ∈ locateCalls root.body := hcall
  rw [locateCalls_root, List.mem_singleton] at hcall
  subst hcall
  cases htarget
  rfl

theorem analyze_root : (analyze { lookup := some lookup } root none).outcome = .ok .pure := by
  have hkey : rootKey? root none = .ok (some "listing") := by decide +kernel
  have hroot : ((following .standard lookup).judge 8 (startVisit (some "listing")) root
      none).outcome = .ok none := by
    refine (outcome_judge_eq_none_iff (p := ⟨root, none⟩) _ 8).2 ⟨locallyClean_root, ?_⟩
    intro r hr
    obtain rfl := pending_root hr
    refine Or.inr ⟨7, ⟨.calling newline [], none⟩, rfl, hr.edge rfl, ?_⟩
    rw [judge, judgeWith_calling]
    rfl
  exact outcome_analyze_of_judge hkey hroot

end Printed

/-- The array counts as a scalar, the callee is not looked at, and the verdict is the same. -/
theorem analyze_pure_mono_relaxed :
    Printed.relaxed.Extends .standard
    ∧ Printed.wider.Extends Printed.lookup
    ∧ (analyze { lookup := some Printed.lookup } Printed.root none).outcome = .ok .pure
    ∧ (analyze { config := Printed.relaxed, lookup := some Printed.wider } Printed.root
        none).outcome = .ok .pure := by
  refine ⟨Printed.relaxed_extends, Printed.wider_extends, Printed.analyze_root, ?_⟩
  exact analyze_pure_mono Printed.relaxed_extends (.some Printed.wider_extends) Printed.root none
    Printed.analyze_root

end Analyzer

end CallablePurity
