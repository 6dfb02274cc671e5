import CallablePurity.Proofs.CallGraph

set_option autoImplicit false

/-! # The verdict on a body is that on its statements

Nothing that the analysis finds in one statement of a body has a part in what it finds in another.
Each statement starts with an empty stack of operations and with no scope to wait for; each call is
checked against the callables that are under analysis when the body is entered, and leaves no trace
there. So a callable is found to be pure exactly when nothing is found in its header and nothing in
each of its statements, taken by itself (`Analyzer.exists_passes`). The verdict on two bodies one
after the other follows from the verdicts on both, and the order of the statements does not count:
only the offence that is found first depends on it. -/

namespace CallablePurity

/-! ## Callables with the same header -/

namespace Callable

/-- The same callable with another body. -/
def withBody (body : List Stmt) : Callable → Callable
  | function f => function { f with body := body }
  | method m => method { m with body := body }
  | closure c => closure { c with body := body }

variable (c : Callable) (stmts : List Stmt) (thisType : Option String)

@[simp] theorem body_withBody : (c.withBody stmts).body = stmts.map .stmt := by
  cases c <;> rfl

@[simp] theorem byRefBindings_withBody : (c.withBody stmts).byRefBindings = c.byRefBindings := by
  cases c <;> rfl

@[simp] theorem ofCallable_withBody :
    TypeMap.ofCallable (c.withBody stmts) thisType = TypeMap.ofCallable c thisType := by
  cases c <;> rfl

@[simp] theorem rootKey?_withBody :
    Analyzer.rootKey? (c.withBody stmts) thisType = Analyzer.rootKey? c thisType := by
  cases c <;> cases thisType <;> rfl

end Callable

/-! ## One statement -/

namespace Analyzer

section Statements

variable (config : Config) (lookup? : Option Lookup) (judge? : Option Judge) (visit : Visit)
  (types : TypeMap)

/-- Nothing is found in a statement: no access in its scope has a side effect and, where definitions
    can be looked up, nothing is found in any call in its scope. -/
structure Passes (s : Stmt) : Prop where
  accesses : ∀ a ∈ (Node.stmt s).accesses [], a.hasSideEffect types config = false
  calls : ∀ lookup, lookup? = some lookup → ∀ call ∈ (Node.stmt s).scope, call.isCall = true →
    (checkCall { config := config, lookup := lookup? } lookup judge? visit types .empty
      call).outcome = .ok none

variable {config lookup? judge? visit} {header : Callable} {thisType : Option String}
  (body : List Stmt)

theorem ownOffence?_withBody_eq_none_iff :
    (header.withBody body).ownOffence? config thisType = .ok none
      ↔ header.byRefBindings = [] ∧ ∀ s ∈ body, ∀ a ∈ (Node.stmt s).accesses [],
          a.hasSideEffect (.ofCallable header thisType) config = false := by
  rw [Callable.ownOffence?_eq_none_iff, locateAccesses_eq, Callable.byRefBindings_withBody,
    Callable.ofCallable_withBody, Callable.body_withBody]
  simp only [Except.ok.injEq, exists_eq_left', List.flatMap_map, List.mem_flatMap]
  grind

theorem mem_locateCalls_withBody_iff (call : Node) :
    call ∈ locateCalls (header.withBody body).body
      ↔ ∃ s ∈ body, call ∈ (Node.stmt s).scope ∧ call.isCall = true := by
  rw [mem_locateCalls_iff, Callable.body_withBody, List.flatMap_map, List.mem_flatMap]
  grind

/-- One judgement: nothing is found in a callable exactly when nothing is shared with its caller and
    nothing is found in any of its statements. -/
theorem outcome_judgeWith_withBody_eq_none_iff :
    (judgeWith { config := config, lookup := lookup? } judge? visit (header.withBody body)
        thisType).outcome = .ok none
      ↔ header.byRefBindings = []
        ∧ ∀ s ∈ body, Passes config lookup? judge? visit (.ofCallable header thisType) s := by
  rw [outcome_judgeWith_eq_none_iff_calls, ownOffence?_withBody_eq_none_iff,
    Callable.ofCallable_withBody]
  simp only [mem_locateCalls_withBody_iff]
  constructor
  · rintro ⟨⟨hbindings, haccesses⟩, hcalls⟩
    refine ⟨hbindings, fun s hs => ⟨haccesses s hs, ?_⟩⟩
    intro lookup hlookup call hscope hcall
    exact hcalls lookup hlookup call ⟨s, hs, hscope, hcall⟩
  · rintro ⟨hbindings, hstatements⟩
    refine ⟨⟨hbindings, fun s hs => (hstatements s hs).accesses⟩, ?_⟩
    rintro lookup hlookup call ⟨s, hs, hscope, hcall⟩
    exact (hstatements s hs).calls lookup hlookup call hscope hcall

end Statements

/-! ## The verdict -/

section Verdict

variable (config : Config) (lookup? : Option Lookup) (header : Callable) (thisType : Option String)

/-- A callable is pure exactly when its header and each of its statements are in order, and what
    this means for a statement does not depend on the rest of the body. -/
theorem exists_passes :
    ∃ (headerPasses : Prop) (passes : Stmt → Prop), ∀ body,
      (analyze { config := config, lookup := lookup? } (header.withBody body) thisType).outcome
          = .ok .pure
        ↔ headerPasses ∧ ∀ s ∈ body, passes s := by
  cases hkey : rootKey? header thisType with
  | error fault =>
    -- without a key for the root there is no verdict at all
    refine ⟨False, fun _ => True, fun body => iff_of_false ?_ (fun h => h.1)⟩
    have hkey' := (header.rootKey?_withBody body thisType).trans hkey
    rw [analyze_of_error hkey']
    nofun
  | ok key? =>
    obtain ⟨judge?, hjudge⟩ :=
      judge_eq_judgeWith (z := { config := config, lookup := lookup? }) config.callBudget
    refine ⟨header.byRefBindings = [],
      Passes config lookup? judge? (startVisit key?) (.ofCallable header thisType), fun body => ?_⟩
    have hkey' := (header.rootKey?_withBody body thisType).trans hkey
    rw [← outcome_judgeWith_withBody_eq_none_iff, ← hjudge]
    constructor
    · intro hpure
      obtain ⟨key'?, hkey'', hnone⟩ := outcome_judge_of_pure hpure
      rw [hkey'] at hkey''
      cases hkey''
      exact hnone
    · exact outcome_analyze_of_judge hkey'

theorem analyze_append_eq_pure_iff (a b : List Stmt) :
    (analyze { config := config, lookup := lookup? } (header.withBody (a ++ b)) thisType).outcome
        = .ok .pure
      ↔ (analyze { config := config, lookup := lookup? } (header.withBody a) thisType).outcome
          = .ok .pure
        ∧ (analyze { config := config, lookup := lookup? } (header.withBody b) thisType).outcome
          = .ok .pure := by
  obtain ⟨headerPasses, passes, hiff⟩ := exists_passes config lookup? header thisType
  rw [hiff, hiff, hiff, List.forall_mem_append]
  constructor
  · rintro ⟨hheader, ha, hb⟩
    exact ⟨⟨hheader, ha⟩, hheader, hb⟩
  · rintro ⟨⟨hheader, ha⟩, -, hb⟩
    exact ⟨hheader, ha, hb⟩

theorem analyze_perm_eq_pure_iff {body body' : List Stmt} (h : body.Perm body') :
    (analyze { config := config, lookup := lookup? } (header.withBody body) thisType).outcome
        = .ok .pure
      ↔ (analyze { config := config, lookup := lookup? } (header.withBody body') thisType).outcome
        = .ok .pure := by
  obtain ⟨headerPasses, passes, hiff⟩ := exists_passes config lookup? header thisType
  simp only [hiff, h.mem_iff]

end Verdict

/-- A report says that the callable is pure exactly when the analysis ends in the pure report. -/
theorem isPure_iff_of_outcome {z : Analyzer} {c : Callable} {thisType : Option String}
    {report : Report} (h : (z.analyze c thisType).outcome = .ok report) :
    report.isPure = true ↔ (z.analyze c thisType).outcome = .ok .pure := by
  rw [h, Except.ok.injEq]
  cases report <;> simp [Report.isPure]

/-- **The verdict is composed of those on parts of the body.** For every header, two bodies one
    after the other make a pure callable exactly when each of them does; and all orders of the
    statements of a body get the same verdict. Where an analysis ends in a fault instead, the
    callable counts as not found to be pure. -/
theorem analyze_pure_compositional (config : Config) (lookup? : Option Lookup) (header : Callable)
    (thisType : Option String) :
    let outcome := fun body : List Stmt =>
      (analyze { config := config, lookup := lookup? } (header.withBody body) thisType).outcome
    (∀ a b, outcome (a ++ b) = .ok .pure ↔ outcome a = .ok .pure ∧ outcome b = .ok .pure)
    ∧ (∀ a b reportA reportB report, outcome a = .ok reportA → outcome b = .ok reportB →
        outcome (a ++ b) = .ok report →
        (report.isPure = true ↔ reportA.isPure = true ∧ reportB.isPure = true))
    ∧ ∀ body body', body.Perm body' →
        (outcome body = .ok .pure ↔ outcome body' = .ok .pure)
        ∧ ∀ report report', outcome body = .ok report → outcome body' = .ok report' →
            report.isPure = report'.isPure := by
  intro outcome
  have happend := analyze_append_eq_pure_iff config lookup? header thisType
  refine ⟨happend, ?_, ?_⟩
  · intro a b reportA reportB report ha hb hab
    rw [isPure_iff_of_outcome ha, isPure_iff_of_outcome hb, isPure_iff_of_outcome hab]
    exact happend a b
  · intro body body' hperm
    have hiff := analyze_perm_eq_pure_iff config lookup? header thisType hperm
    refine ⟨hiff, ?_⟩
    intro report report' hreport hreport'
    rw [Bool.eq_iff_iff, isPure_iff_of_outcome hreport, isPure_iff_of_outcome hreport']
    exact hiff

/-! ### Two statements in both orders -/

namespace TwoWays

def x : Ident := ⟨"x", by decide⟩

def converted : Expr := .cast .string (.var (.named x))

def indexed : Expr := .index (.var (.named x)) (some (.literal (.int 0)))

/-- `function mixed($x) { }` -/
def main : Callable :=
  .function ⟨⟨"mixed", by decide⟩, [⟨x, none, false, .required⟩], [], false, none⟩

/-- The access of `$x` directly below an operation. -/
def accessIn (operation : Expr) : Access := ⟨.var (.named x), [.expr operation]⟩

/-- The first access of `$x` decides. -/
theorem outcome_analyze_main {body : List Stmt} {operation : Expr} {rest : List Access}
    (haccesses : (body.map Node.stmt).flatMap (Node.accesses []) = accessIn operation :: rest)
    (heffect : (accessIn operation).hasSideEffect (.ofCallable main none) .standard = true) :
    (analyze {} (main.withBody body) none).outcome
      = .ok ((accessIn operation).offence .standard).report := by
  have hkey : rootKey? (main.withBody body) none = .ok (some "mixed") := by
    rw [Callable.rootKey?_withBody]
    decide +kernel
  have hown : (main.withBody body).ownOffence? .standard none
      = .ok (some ((accessIn operation).offence .standard)) := by
    unfold Callable.ownOffence?
    rw [Callable.byRefBindings_withBody, Callable.body_withBody, Callable.ofCallable_withBody,
      locateAccesses_eq, haccesses]
    show Except.ok (Option.map _ (List.find? _ (accessIn operation :: rest))) = _
    rw [List.find?_cons, heffect]
    rfl
  have hroot : (judge {} 8 (startVisit (some "mixed")) (main.withBody body) none).outcome
      = .ok (some ((accessIn operation).offence .standard)) :=
    outcome_judgeWith_of_own _ _ hown
  exact outcome_analyze_of_judge hkey hroot

theorem analyze_converted_first :
    (analyze {} (main.withBody [.expression converted, .expression indexed]) none).outcome
      = .ok ((accessIn converted).offence .standard).report := by
  have haccesses : ([.expression converted, .expression indexed].map Node.stmt).flatMap
      (Node.accesses []) = [accessIn converted, accessIn indexed] := by
    cbv
  exact outcome_analyze_main haccesses (by decide +kernel)

theorem analyze_indexed_first :
    (analyze {} (main.withBody [.expression indexed, .expression converted]) none).outcome
      = .ok ((accessIn indexed).offence .standard).report := by
  have haccesses : ([.expression indexed, .expression converted].map Node.stmt).flatMap
      (Node.accesses []) = [accessIn indexed, accessIn converted] := by
    cbv
  exact outcome_analyze_main haccesses (by decide +kernel)

end TwoWays

/-- The order decides which of the two offences is reported, but not that one is. -/
theorem analyze_pure_compositional_swapped :
    let outcome := fun body => (analyze {} (TwoWays.main.withBody body) none).outcome
    ∃ report report',
      outcome [.expression TwoWays.converted, .expression TwoWays.indexed] = .ok report
      ∧ outcome [.expression TwoWays.indexed, .expression TwoWays.converted] = .ok report'
      ∧ report.violations = ["side-effecting access: $x in Cast"]
      ∧ report'.violations = ["side-effecting access: $x in ArrayDimFetch"]
      ∧ report.isPure = report'.isPure := by
  refine ⟨_, _, TwoWays.analyze_converted_first, TwoWays.analyze_indexed_first, ?_, ?_, ?_⟩
  · decide +kernel
  · decide +kernel
  · obtain ⟨-, -, hperm⟩ := analyze_pure_compositional .standard none TwoWays.main none
    exact (hperm _ _ (.swap _ _ _)).2 _ _ TwoWays.analyze_converted_first
      TwoWays.analyze_indexed_first

end Analyzer

end CallablePurity
