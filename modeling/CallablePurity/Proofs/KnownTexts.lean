import CallablePurity.LiteralBinding
import CallablePurity.Proofs.CallGraph
import Mathlib

set_option autoImplicit false

/-! # What is known of variables has no part in the verdict

To resolve a call, the analysis may use the texts that variables are known to hold, for `$f()`, and
their declared classes, for `$o->m()`. Neither makes a difference. Calls are looked at only after
all accesses have turned out to have no side effect, and then no call has a variable as its callee
or its receiver (`Resolve.target?_eq_of_no_sideEffect`). Hence an analysis that knows texts runs
exactly as one that knows none: with the same report, the same log and the same questions to the
lookup (`Analyzer.analyze_withTexts`). Besides, a method call never has a target that is certain, so
that a callable with one in its scope is not pure if calls count at all. -/

namespace CallablePurity

namespace Analyzer

/-- The analysis with other knowledge of the texts of variables. -/
def withTexts (z : Analyzer) (texts : Callable → TypeMap → OrderedMap String String) : Analyzer :=
  { z with texts := texts }

section Texts

variable (z : Analyzer) (texts : Callable → TypeMap → OrderedMap String String)

@[simp] theorem withTexts_config : (z.withTexts texts).config = z.config := rfl

@[simp] theorem withTexts_lookup : (z.withTexts texts).lookup = z.lookup := rfl

/-- A call of a callable without an offence by itself is checked in the same way whatever texts are
    known. -/
theorem checkCall_withTexts (lookup : Lookup) (judge? : Option Judge) (visit : Visit)
    {c : Callable} {thisType : Option String} (hown : c.ownOffence? z.config thisType = .ok none)
    {call : Node} (hcall : call ∈ locateCalls c.body) (values₁ values₂ : OrderedMap String String) :
    (z.withTexts texts).checkCall lookup judge? visit (.ofCallable c thisType) values₁ call
      = z.checkCall lookup judge? visit (.ofCallable c thisType) values₂ call := by
  have htarget := Resolve.target?_eq_of_no_sideEffect (Callable.hasSideEffect_eq_false hown) hcall
    z.config z.config (.ofCallable c thisType) (.ofCallable c thisType) values₁ values₂
  rw [checkCall_eq, checkCall_eq, withTexts_config, htarget]
  rfl

theorem judgeWith_withTexts (judge? : Option Judge) :
    (z.withTexts texts).judgeWith judge? = z.judgeWith judge? := by
  funext visit c thisType
  rw [judgeWith_eq, judgeWith_eq, withTexts_config, withTexts_lookup]
  cases hown : c.ownOffence? z.config thisType with
  | error fault => rfl
  | ok o? =>
    cases o? with
    | some o => rfl
    | none =>
      -- only now are calls looked at, and no access has a side effect
      cases z.lookup with
      | none => rfl
      | some lookup =>
        refine Run.firstOffence_congr ?_
        intro call hcall
        exact checkCall_withTexts z texts lookup judge? visit hown hcall _ _

theorem judge_withTexts (budget : Nat) : (z.withTexts texts).judge budget = z.judge budget := by
  induction budget with
  | zero => rw [judge, judge, judgeWith_withTexts]
  | succ budget ih => rw [judge, judge, ih, judgeWith_withTexts]

/-- The whole run of the analysis is the same whatever texts are known. -/
theorem analyze_withTexts (c : Callable) (thisType : Option String) :
    (z.withTexts texts).analyze c thisType = z.analyze c thisType := by
  unfold analyze offence?
  rw [withTexts_config, judge_withTexts]

end Texts

/-- A call without a certain target makes a callable impure, if calls count. -/
theorem isPure_eq_false_of_target? {config : Config} {lookup : Lookup} {c : Callable}
    {thisType : Option String} {call : Node} (hcall : call ∈ locateCalls c.body)
    (htarget : c.ownOffence? config thisType = .ok none →
      Resolve.target? config (.ofCallable c thisType) .empty call = .ok none) {report : Report}
    (h : (analyze (following config lookup) c thisType).outcome = .ok report) :
    report.isPure = false := by
  obtain ⟨key?, o?, -, hjudge, rfl⟩ := exists_judgement h
  cases o? with
  | some o => rfl
  | none =>
    obtain ⟨hclean, -⟩ :=
      (outcome_judge_eq_none_iff (p := ⟨c, thisType⟩) (startVisit key?) config.callBudget).1 hjudge
    obtain ⟨r, hr⟩ := hclean.calls call hcall
    cases hr.symm.trans (htarget hclean.ownOffence?_eq_none)

/-- **What is known of variables has no part in the verdict.** The targets of the calls of a
    callable that has no offence by itself are the same for all types and all known texts of
    variables, and those of method calls are not certain. So the analysis runs in the same way
    whatever texts are known, and if calls count then no callable with a method call is pure. -/
theorem analyze_independent_of_bindings (config : Config) (c : Callable)
    (thisType : Option String) :
    (c.ownOffence? config thisType = .ok none → ∀ call ∈ locateCalls c.body,
      (∀ types₁ types₂ values₁ values₂,
        Resolve.target? config types₁ values₁ call = Resolve.target? config types₂ values₂ call)
      ∧ ∀ receiver member args, call = .expr (.methodCall receiver member args) →
          ∀ types values, Resolve.target? config types values call = .ok none)
    ∧ (∀ lookup? texts,
        analyze { config := config, lookup := lookup?, texts := texts } c thisType
          = analyze { config := config, lookup := lookup? } c thisType)
    ∧ ∀ receiver member args,
        .expr (.methodCall receiver member args) ∈ c.body.flatMap Node.scope →
        ∀ lookup report,
          (analyze { config := config, lookup := some lookup } c thisType).outcome = .ok report →
            report.isPure = false := by
  refine ⟨?_, ?_, ?_⟩
  · intro hown call hcall
    have heffect := Callable.hasSideEffect_eq_false hown
    refine ⟨Resolve.target?_eq_of_no_sideEffect heffect hcall config config, ?_⟩
    rintro receiver member args rfl
    exact Resolve.target?_methodCall heffect hcall config
  · intro lookup? texts
    exact analyze_withTexts { config := config, lookup := lookup? } texts c thisType
  · intro receiver member args hscope lookup report h
    have hcall : .expr (.methodCall receiver member args) ∈ locateCalls c.body :=
      mem_locateCalls_iff.2 ⟨hscope, rfl⟩
    refine isPure_eq_false_of_target? hcall ?_ h
    intro hown
    exact Resolve.target?_methodCall (Callable.hasSideEffect_eq_false hown) hcall config _ _

/-! ### A method call on a new object -/

namespace Fresh

def f : Ident := ⟨"f", by decide⟩

/-- `$f = 'strlen'` -/
def note : Expr := .assign (.var (.named f)) (.literal (.text "strlen"))

/-- `(new Foo)->run()` -/
def run : Expr := .methodCall (.new (.named ⟨"Foo", by decide⟩) []) (.named "run") []

def main : Callable :=
  .function ⟨⟨"fresh", by decide⟩, [], [.expression note, .expression run], false, none⟩

theorem accesses_main :
    main.body.flatMap (Node.accesses []) = [⟨.var (.named f), [.expr note]⟩] := by
  cbv

theorem locateCalls_main : locateCalls main.body = [.expr run] := by
  rw [locateCalls, locate_eq]
  cbv

theorem ownOffence?_main : main.ownOffence? .standard none = .ok none := by
  rw [Callable.ownOffence?_eq_none_iff]
  refine ⟨rfl, _, locateAccesses_eq _, ?_⟩
  rw [accesses_main]
  decide +kernel

theorem outcome_analyze_main (lookup : Lookup) :
    (analyze { lookup := some lookup } main none).outcome
      = .ok (Offence.unresolvable 0).report := by
  have hkey : rootKey? main none = .ok (some "fresh") := by decide +kernel
  have hroot : ((following .standard lookup).judge 8 (startVisit (some "fresh")) main none).outcome
      = .ok (some (.unresolvable 0)) := by
    rw [judge, judgeWith_eq, ownOffence?_main]
    dsimp only
    rw [locateCalls_main]
    rfl
  exact outcome_analyze_of_judge hkey hroot

end Fresh

/-- A text is known, and has no part in the verdict; the method call has. -/
theorem analyze_independent_of_bindings_fresh :
    (literalBindings Fresh.main.body []).get? "f" = some "strlen"
    ∧ Fresh.main.ownOffence? .standard none = .ok none
    ∧ (∀ types values, Resolve.target? .standard types values (.expr Fresh.run) = .ok none)
    ∧ (analyze { lookup := some (.exact []), texts := fun c t => literalBindings c.body t.keys }
        Fresh.main none).outcome = .ok (Offence.unresolvable 0).report
    ∧ (Offence.unresolvable 0).report.isPure = false := by
  have hcall : .expr Fresh.run ∈ locateCalls Fresh.main.body := by
    rw [Fresh.locateCalls_main]
    exact List.mem_singleton_self _
  have houtcome := Fresh.outcome_analyze_main (.exact [])
  obtain ⟨htargets, htexts, hmethod⟩ := analyze_independent_of_bindings .standard Fresh.main none
  refine ⟨by cbv, Fresh.ownOffence?_main, ?_, ?_, ?_⟩
  · exact (htargets Fresh.ownOffence?_main _ hcall).2 _ _ _ rfl
  · rw [htexts]
    exact houtcome
  · exact hmethod _ _ _ (mem_locateCalls_iff.1 hcall).1 _ _ houtcome

end Analyzer

end CallablePurity
