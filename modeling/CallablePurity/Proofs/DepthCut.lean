import CallablePurity.Proofs.DepthLimit
import CallablePurity.Proofs.TypeMembers

set_option autoImplicit false

/-! # A lower depth limit only cuts

The depth limit decides how many calls the analysis may follow in a row, and nothing else. This file
compares two analyses that differ in the limit only. They go the same way, step by step, until the
one with the lower limit meets a call that it may not follow. If that never happens the two runs are
the same, with the same report, the same log and the same questions to the lookup. If it happens the
run with the lower limit ends there: the limit is the offence of that call, and every call around it
hands it on (`Analyzer.analyze_eq_or_cut`).

So runs are compared by `Run.AgreesUpTo`: the first one is the second one, or it is cut. Each step
of the analysis keeps the relation, and by induction on the calls that may be followed it holds of
all judgements. Nothing is asked of the run with the higher limit, which may be cut itself or end in
a fault. -/

namespace CallablePurity

/-! ## Configurations with another limit -/

namespace Config

/-- The same configuration with another depth limit. -/
def withCallDepth (c : Config) (depth : Int) (h : 1 ≤ depth) : Config :=
  { c with
    maxCallDepth := depth
    overlap_eq_nil := c.overlap_eq_nil
    one_le_maxCallDepth := h }

variable (config : Config) (depth : Int) (h : 1 ≤ depth)

@[simp] theorem callBudget_withCallDepth :
    (config.withCallDepth depth h).callBudget = depth.toNat := rfl

@[simp] theorem isWhitelisted_withCallDepth (r : Reference) :
    r.isWhitelisted (config.withCallDepth depth h) = r.isWhitelisted config := rfl

@[simp] theorem target?_withCallDepth (types : TypeMap) (values : OrderedMap String String)
    (call : Node) :
    Resolve.target? (config.withCallDepth depth h) types values call
      = Resolve.target? config types values call := rfl

@[simp] theorem hasSideEffect_withCallDepth (a : Access) (types : TypeMap) :
    a.hasSideEffect types (config.withCallDepth depth h) = a.hasSideEffect types config := by
  have hsame (name : String) : DeclaredType.Refines (types.typeOf name) (types.typeOf name) :=
    (DeclaredType.SameMembers.refl _).refines
  rw [Bool.eq_iff_iff]
  constructor
  all_goals
    refine a.hasSideEffect_mono ?_ ?_ ?_ hsame
    all_goals exact List.Subset.refl _

@[simp] theorem ownOffence?_withCallDepth (c : Callable) (thisType : Option String) :
    c.ownOffence? (config.withCallDepth depth h) thisType = c.ownOffence? config thisType := by
  unfold Callable.ownOffence?
  simp only [hasSideEffect_withCallDepth]
  rfl

end Config

/-! ## Runs that agree unless one is cut -/

namespace Run

variable {limit : Int}

/-- The run ends where the depth limit is reached, below calls that it has followed. -/
def IsCut (limit : Int) (run : Run (Option Offence)) : Prop :=
  ∃ followed last, run.outcome = .ok (some (.tooDeep limit followed last))

/-- The first run is the second one, or the depth limit ends it. -/
def AgreesUpTo (limit : Int) (run run' : Run (Option Offence)) : Prop :=
  run = run' ∨ run.IsCut limit

theorem AgreesUpTo.refl (run : Run (Option Offence)) : run.AgreesUpTo limit run :=
  Or.inl rfl

/-- Searches agree if the checks of their items do. -/
theorem agreesUpTo_firstOffence {α : Type} {check check' : α → Run (Option Offence)}
    {items : List α} (h : ∀ a ∈ items, (check a).AgreesUpTo limit (check' a)) :
    (firstOffence check items).AgreesUpTo limit (firstOffence check' items) := by
  induction items with
  | nil => exact AgreesUpTo.refl _
  | cons a rest ih =>
    rw [List.forall_mem_cons] at h
    obtain ⟨heq | ⟨followed, last, hcut⟩, hrest⟩ := h
    · rcases ih hrest with hsame | ⟨followed, last, hcut⟩
      · exact Or.inl (by rw [firstOffence, firstOffence, heq, hsame])
      · -- the rest counts only if the search gets there
        cases hcheck : (check a).outcome with
        | error fault =>
          refine Or.inl ?_
          rw [firstOffence, firstOffence, ← heq, bind_of_error hcheck, bind_of_error hcheck]
        | ok o? =>
          cases o? with
          | none =>
            refine Or.inr ⟨followed, last, ?_⟩
            rw [outcome_firstOffence_cons_of_clean hcheck, hcut]
          | some o =>
            refine Or.inl ?_
            rw [firstOffence, firstOffence, ← heq, bind_of_ok hcheck, bind_of_ok hcheck]
    · exact Or.inr ⟨followed, last, outcome_firstOffence_cons_of_offence hcut rest⟩

end Run

/-- Judges for callees: where the first may follow calls the second may too, and they agree. -/
def Judge.AgreesUpTo (limit : Int) (judge? judge'? : Option Judge) : Prop :=
  ∀ judge, judge? = some judge → ∃ judge', judge'? = some judge' ∧ ∀ visit c thisType,
    (judge visit c thisType).AgreesUpTo limit (judge' visit c thisType)

/-- Where no calls are followed at all there is nothing to agree on. -/
theorem Judge.agreesUpTo_none (limit : Int) (judge'? : Option Judge) :
    AgreesUpTo limit none judge'? :=
  nofun

/-! ## Judgements -/

namespace Analyzer

section Limits

variable (config : Config) (lookup? : Option Lookup)

/-- The analysis with another depth limit. -/
abbrev limited (depth : Int) (h : 1 ≤ depth) : Analyzer :=
  { config := config.withCallDepth depth h, lookup := lookup? }

variable {n m : Int} (hn : 1 ≤ n) (hm : 1 ≤ m)

section Step

variable {judge? judge'? : Option Judge} (hjudge : Judge.AgreesUpTo n judge? judge'?)
  (lookup : Lookup) (visit : Visit)

include hjudge

/-- The limit is reached at a target that must be looked at, if calls are not followed any more.
    Otherwise both runs look at it. -/
theorem agreesUpTo_checkTarget (target : Reference) :
    ((limited config lookup? n hn).checkTarget lookup judge? visit target).AgreesUpTo n
      ((limited config lookup? m hm).checkTarget lookup judge'? visit target) := by
  let z := limited config lookup? n hn
  let z' := limited config lookup? m hm
  by_cases hlist : target.isWhitelisted config = true
  · rw [checkTarget_of_whitelisted z lookup judge? visit hlist,
      checkTarget_of_whitelisted z' lookup judge'? visit hlist]
    exact Run.AgreesUpTo.refl _
  by_cases hkey : target.key ∈ visit.inProgress
  · rw [checkTarget_of_inProgress z lookup judge? visit hkey,
      checkTarget_of_inProgress z' lookup judge'? visit hkey]
    exact Run.AgreesUpTo.refl _
  have hpending : target.isWhitelisted config = false := Bool.eq_false_iff.2 hlist
  cases judge? with
  | none => exact Or.inr ⟨[], target, outcome_checkTarget_none z lookup visit hpending hkey⟩
  | some judge =>
    obtain ⟨judge', rfl, hagree⟩ := hjudge judge rfl
    cases hlookup : lookup target with
    | none =>
      rw [checkTarget_of_unknown z lookup visit hpending hkey judge hlookup,
        checkTarget_of_unknown z' lookup visit hpending hkey judge' hlookup]
      exact Run.AgreesUpTo.refl _
    | some callee =>
      rcases hagree (visit.descend target) callee (target.cls.map Ident.text) with
        heq | ⟨followed, last, hcut⟩
      · rw [checkTarget_of_found z lookup visit hpending hkey judge hlookup,
          checkTarget_of_found z' lookup visit hpending hkey judge' hlookup, heq]
        exact Run.AgreesUpTo.refl _
      · -- the call hands on what its target ends in
        refine Or.inr ⟨target :: followed, last, ?_⟩
        rw [outcome_checkTarget_some z lookup visit hpending hkey judge, hlookup]
        dsimp only
        rw [hcut]
        rfl

theorem agreesUpTo_checkCall (types : TypeMap) (texts : OrderedMap String String) (call : Node) :
    ((limited config lookup? n hn).checkCall lookup judge? visit types texts call).AgreesUpTo n
      ((limited config lookup? m hm).checkCall lookup judge'? visit types texts call) := by
  rw [checkCall_eq, checkCall_eq, Config.target?_withCallDepth, Config.target?_withCallDepth]
  cases Resolve.target? config types texts call with
  | error fault => exact Run.AgreesUpTo.refl _
  | ok target? =>
    cases target? with
    | none => exact Run.AgreesUpTo.refl _
    | some target => exact agreesUpTo_checkTarget config lookup? hn hm hjudge lookup visit target

/-- One judgement: it agrees if the judgements of the callees do. -/
theorem agreesUpTo_judgeWith (c : Callable) (thisType : Option String) :
    ((limited config lookup? n hn).judgeWith judge? visit c thisType).AgreesUpTo n
      ((limited config lookup? m hm).judgeWith judge'? visit c thisType) := by
  rw [judgeWith_eq, judgeWith_eq, Config.ownOffence?_withCallDepth,
    Config.ownOffence?_withCallDepth]
  cases c.ownOffence? config thisType with
  | error fault => exact Run.AgreesUpTo.refl _
  | ok o? =>
    cases o? with
    | some o => exact Run.AgreesUpTo.refl _
    | none =>
      cases lookup? with
      | none => exact Run.AgreesUpTo.refl _
      | some lookup =>
        exact Run.agreesUpTo_firstOffence fun call _ =>
          agreesUpTo_checkCall config (some lookup) hn hm hjudge lookup visit _ _ call

end Step

/-- All judgements agree in which the second analysis may follow at least as many calls. -/
theorem agreesUpTo_judge {budget budget' : Nat} (hbudget : budget ≤ budget') (visit : Visit)
    (c : Callable) (thisType : Option String) :
    ((limited config lookup? n hn).judge budget visit c thisType).AgreesUpTo n
      ((limited config lookup? m hm).judge budget' visit c thisType) := by
  induction budget generalizing budget' visit c thisType with
  | zero =>
    obtain ⟨judge'?, hjudge'⟩ := judge_eq_judgeWith (z := limited config lookup? m hm) budget'
    rw [judge, hjudge']
    exact agreesUpTo_judgeWith config lookup? hn hm (Judge.agreesUpTo_none n judge'?) visit c
      thisType
  | succ budget ih =>
    obtain ⟨below', rfl⟩ : ∃ below', budget' = below' + 1 := ⟨budget' - 1, by omega⟩
    refine agreesUpTo_judgeWith config lookup? hn hm ?_ visit c thisType
    rintro _ ⟨⟩
    exact ⟨_, rfl, ih (by omega)⟩

end Limits

/-- **A lower depth limit only cuts.** Of two analyses that differ in the limit only, the one with
    the lower limit runs exactly as the other one, with the same outcome, log and questions to the
    lookup; or it reports an impure call, with a violation that ends in the limit. -/
theorem analyze_eq_or_cut (config : Config) (lookup? : Option Lookup) (c : Callable)
    (thisType : Option String) {n m : Int} (hn : 1 ≤ n) (hm : 1 ≤ m) (hnm : n ≤ m) :
    let run := analyze { config := config.withCallDepth n hn, lookup := lookup? } c thisType
    let run' := analyze { config := config.withCallDepth m hm, lookup := lookup? } c thisType
    run = run'
    ∨ ∃ (report : Report) (followed : List Reference) (last : Reference), run.outcome = .ok report
        ∧ report.isPure = false ∧ report.flags = { impureCall := true }
        ∧ report.violations
          = [String.join (followed.map fun r => "calls impure " ++ r.name ++ ": ")
              ++ ("call depth limit " ++ toString n ++ " reached at " ++ last.name)] := by
  intro run run'
  cases hkey : rootKey? c thisType with
  | error fault => exact Or.inl ((analyze_of_error hkey).trans (analyze_of_error hkey).symm)
  | ok key? =>
    have hbudget : n.toNat ≤ m.toNat := by omega
    rcases agreesUpTo_judge config lookup? hn hm hbudget (startVisit key?) c thisType with
      heq | ⟨followed, last, hcut⟩
    · refine Or.inl ?_
      show analyze (limited config lookup? n hn) c thisType
        = analyze (limited config lookup? m hm) c thisType
      rw [analyze_eq_judge hkey, analyze_eq_judge hkey, Config.callBudget_withCallDepth,
        Config.callBudget_withCallDepth, heq]
    · obtain ⟨hflags, hviolations⟩ := Offence.report_tooDeep n followed last
      refine Or.inr ⟨_, followed, last, outcome_analyze_of_judge hkey hcut, rfl, hflags, ?_⟩
      rw [← Offence.violation_tooDeep]
      exact hviolations

/-! ### A chain of two calls -/

namespace TwoCalls

def outer : Ident := ⟨"outer", by decide⟩

def middle : Ident := ⟨"middle", by decide⟩

def inner : Ident := ⟨"inner", by decide⟩

/-- It calls `middle`, which calls `inner`. -/
def root : Callable := .calling outer [middle]

def lookup : Lookup :=
  .exact [(⟨middle, none⟩, some (.calling middle [inner])),
    (⟨inner, none⟩, some (.calling inner []))]

def start : Visit := startVisit (some "outer")

/-- Calls are followed to the given depth. -/
abbrev upTo (depth : Int) (h : 1 ≤ depth) : Analyzer :=
  following (Config.standard.withCallDepth depth h) lookup

theorem rootKey?_root : rootKey? root none = .ok (some "outer") := by
  decide +kernel

theorem isWhitelisted_eq_false {depth : Int} (h : 1 ≤ depth) :
    Reference.isWhitelisted (Config.standard.withCallDepth depth h) ⟨middle, none⟩ = false
    ∧ Reference.isWhitelisted (Config.standard.withCallDepth depth h) ⟨inner, none⟩ = false := by
  simp only [Config.isWhitelisted_withCallDepth]
  decide +kernel

theorem key_notMem :
    Reference.key ⟨middle, none⟩ ∉ start.inProgress
    ∧ Reference.key ⟨inner, none⟩ ∉ (start.descend ⟨middle, none⟩).inProgress := by
  decide +kernel

/-- A function that calls one other function is judged by what that one does. -/
theorem outcome_judge_calling {config : Config} {budget : Nat} {visit : Visit} {f g : Ident}
    {callee : Callable} {o? : Option Offence}
    (hlist : Reference.isWhitelisted config ⟨g, none⟩ = false)
    (hkey : Reference.key ⟨g, none⟩ ∉ visit.inProgress) (hfound : lookup ⟨g, none⟩ = some callee)
    (hcallee : ((following config lookup).judge budget (visit.descend ⟨g, none⟩) callee
      none).outcome = .ok o?) :
    ((following config lookup).judge (budget + 1) visit (.calling f [g]) none).outcome
      = .ok (o?.map (.impureCall ⟨g, none⟩)) := by
  rw [judge, judgeWith_calling, List.map_singleton, Run.firstOffence_singleton,
    outcome_checkTarget_some _ lookup visit hlist hkey, hfound]
  dsimp only
  rw [Option.map_none, hcallee]
  rfl

theorem analyze_upTo_one :
    (analyze (upTo 1 (by decide)) root none).outcome
      = .ok (Offence.tooDeep 1 [⟨middle, none⟩] ⟨inner, none⟩).report := by
  have hmiddle : ((upTo 1 (by decide)).judge 0 (start.descend ⟨middle, none⟩)
      (.calling middle [inner]) none).outcome = .ok (some (.depthLimit 1 ⟨inner, none⟩)) := by
    rw [judge, judgeWith_calling, List.map_singleton, Run.firstOffence_singleton]
    exact outcome_checkTarget_none _ lookup _ (isWhitelisted_eq_false _).2 key_notMem.2
  have hroot := outcome_judge_calling (f := outer) (isWhitelisted_eq_false _).1 key_notMem.1 rfl
    hmiddle
  exact outcome_analyze_of_judge rootKey?_root hroot

theorem analyze_upTo_two : (analyze (upTo 2 (by decide)) root none).outcome = .ok .pure := by
  have hinner (visit : Visit) :
      ((upTo 2 (by decide)).judge 0 visit (.calling inner []) none).outcome = .ok none := by
    rw [judge, judgeWith_calling]
    rfl
  have hmiddle := outcome_judge_calling (f := middle) (isWhitelisted_eq_false _).2 key_notMem.2 rfl
    (hinner _)
  have hroot := outcome_judge_calling (f := outer) (isWhitelisted_eq_false _).1 key_notMem.1 rfl
    hmiddle
  exact outcome_analyze_of_judge rootKey?_root hroot

end TwoCalls

/-- The second call is one too many for the lower limit, so that the runs are not the same. -/
theorem analyze_eq_or_cut_two_calls :
    (1 : Int) ≤ 1 ∧ (1 : Int) ≤ 2
    ∧ (analyze (TwoCalls.upTo 2 (by decide)) TwoCalls.root none).outcome = .ok .pure
    ∧ ∃ (report : Report) (followed : List Reference) (last : Reference),
        (analyze (TwoCalls.upTo 1 (by decide)) TwoCalls.root none).outcome = .ok report
        ∧ report.violations
          = [String.join (followed.map fun r => "calls impure " ++ r.name ++ ": ")
              ++ ("call depth limit 1 reached at " ++ last.name)] := by
  refine ⟨by decide, by decide, TwoCalls.analyze_upTo_two, ?_⟩
  rcases analyze_eq_or_cut .standard (some TwoCalls.lookup) TwoCalls.root none (n := 1) (m := 2)
    (by decide) (by decide) (by decide) with
      hsame | ⟨report, followed, last, houtcome, -, -, hviolations⟩
  · have hcut := TwoCalls.analyze_upTo_one
    rw [hsame, TwoCalls.analyze_upTo_two] at hcut
    cases hcut
  · exact ⟨report, followed, last, houtcome, hviolations⟩

end Analyzer

end CallablePurity
