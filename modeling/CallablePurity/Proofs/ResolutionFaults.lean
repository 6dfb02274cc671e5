import CallablePurity.Proofs.CallGraph
import CallablePurity.Proofs.OwnVerdict

set_option autoImplicit false

/-! # Where resolution breaks off

A call whose target is not certain has none, and the analysis goes on. Resolution breaks off,
instead of finding no target, in one situation only: all that a target takes is written down, but a
name in it is empty (`Resolve.Unnamed`). A member may be written as an empty text, and nothing may
be left of a declared type such as `?` when it is read as a class.

In an analysis no receiver is a variable by the time that calls are looked at, so that of these
calls only a static one with an empty member remains. An analysis that breaks off has reached a
callable with such a call (`Analyzer.analyze_reports_or_unnamed`). -/

namespace CallablePurity

/-! ## Resolving one call -/

/-- Nothing is left of a declared type that is blank, or the mark of a nullable type alone. -/
theorem DeclaredType.core_eq_nil_iff (declared : String) :
    core declared = [] ↔ Text.trim declared = "" ∨ Text.trim declared = "?" := by
  unfold core Text.trim
  generalize Text.trimChars declared.toList = cs
  have hchars (s : String) : String.ofList cs = s ↔ cs = s.toList := by
    constructor <;> rintro rfl <;> simp
  rw [hchars, hchars]
  unfold withoutNullMark
  split
  · simp
  · next hmark =>
    refine (or_iff_left ?_).symm
    rintro rfl
    exact hmark [] rfl

theorem DeclaredType.members_eq_nil_of_core {declared : String} (h : core declared = []) :
    members declared = [] := by
  unfold members
  rw [h]
  rfl

theorem Reference.ofNames_eq_error_iff (function cls : String) (fault : ReferenceFault) :
    ofNames function (some cls) = .error fault
      ↔ function = "" ∧ fault = .emptyFunction
        ∨ function ≠ "" ∧ cls = "" ∧ fault = .emptyClass := by
  unfold ofNames Ident.ofText?
  by_cases hfunction : function = "" <;> by_cases hcls : cls = "" <;>
    simp [hfunction, hcls, eq_comm]

namespace Resolve

/-- The class of a declared type of which nothing is left has an empty name. -/
theorem classOf?_eq_some_empty_iff (config : Config) (declared : Option String) :
    classOf? config declared = some ""
      ↔ ∃ t, declared = some t ∧ (Text.trim t = "" ∨ Text.trim t = "?") := by
  cases declared with
  | none => simp [classOf?]
  | some t =>
    simp only [classOf?, Option.some.injEq, exists_eq_left', ← DeclaredType.core_eq_nil_iff]
    constructor
    · intro h
      split at h
      · cases h
      · split at h
        · cases h
        · simpa using h
    · -- such a type has no members, so that it does not count as plain
      intro h
      have hplain : config.isScalarLike (some t) = false := by
        refine Bool.eq_false_iff.2 fun hplain => ?_
        obtain ⟨hmembers, -⟩ := (DeclaredType.consistsOf_some_iff _ t).1 hplain
        exact hmembers (DeclaredType.members_eq_nil_of_core h)
      rw [hplain, h]
      decide

/-- All that the target of the call takes is written down, but a name in it is empty. The fault says
    which. -/
inductive Unnamed (config : Config) (types : TypeMap) : Node → ReferenceFault → Prop
  /-- A static call of an empty member. -/
  | static {cls : Ident} {args : List Expr}
      (hcls : relativeClasses.contains (Text.lowercase cls.text) = false) :
      Unnamed config types (.expr (.staticCall (.named cls) (.named "") args)) .emptyFunction
  /-- A call of an empty member of an object whose class is known. -/
  | member {receiver : Ident} {cls : String} {args : List Expr}
      (hcls : classOf? config (types.typeOf receiver.text) = some cls) :
      Unnamed config types (.expr (.methodCall (.var (.named receiver)) (.named "") args))
        .emptyFunction
  /-- A call of a member of an object whose declared type names nothing. -/
  | cls {receiver : Ident} {declared member : String} {args : List Expr} (hmember : member ≠ "")
      (hdeclared : types.typeOf receiver.text = some declared)
      (hempty : Text.trim declared = "" ∨ Text.trim declared = "?") :
      Unnamed config types (.expr (.methodCall (.var (.named receiver)) (.named member) args))
        .emptyClass

theorem map_some_eq_error_iff {x : Except ReferenceFault Reference} {fault : ReferenceFault} :
    x.map some = .error fault ↔ x = .error fault := by
  cases x <;> simp [Except.map]

/-- Resolution breaks off exactly at calls with an empty name. -/
theorem target?_eq_error_iff (config : Config) (types : TypeMap)
    (values : OrderedMap String String) (call : Node) (fault : ReferenceFault) :
    target? config types values call = .error fault ↔ Unnamed config types call fault := by
  constructor
  · intro h
    unfold target? at h
    split at h
    · cases h
    · cases h
    · next cls member args =>
      split at h
      · cases h
      · next hcls =>
        rw [map_some_eq_error_iff, Reference.ofNames_eq_error_iff] at h
        rcases h with ⟨rfl, rfl⟩ | ⟨-, hempty, -⟩
        · exact .static (Bool.eq_false_iff.2 hcls)
        · exact absurd hempty cls.nonempty
    · next receiver member args =>
      split at h
      · cases h
      · next cls hcls =>
        rw [map_some_eq_error_iff, Reference.ofNames_eq_error_iff] at h
        rcases h with ⟨rfl, rfl⟩ | ⟨hmember, rfl, rfl⟩
        · exact .member hcls
        · obtain ⟨t, ht, hempty⟩ := (classOf?_eq_some_empty_iff config _).1 hcls
          exact .cls hmember ht hempty
    · cases h
  · rintro (hcls | hcls | ⟨hmember, hdeclared, hempty⟩)
    · simp only [target?, hcls]
      rfl
    · simp only [target?, hcls]
      rfl
    · have hcls := (classOf?_eq_some_empty_iff config _).2 ⟨_, hdeclared, hempty⟩
      simp only [target?, hcls]
      rw [map_some_eq_error_iff, Reference.ofNames_eq_error_iff]
      exact Or.inr ⟨hmember, rfl, rfl⟩

end Resolve

/-! ## Analyses -/

/-- The callable calls an empty member of a class that is given by name. -/
def Callable.CallsUnnamed (c : Callable) : Prop :=
  ∃ (cls : Ident) (args : List Expr),
    Resolve.relativeClasses.contains (Text.lowercase cls.text) = false
    ∧ .expr (.staticCall (.named cls) (.named "") args) ∈ locateCalls c.body

namespace Analyzer

variable {config : Config} {lookup : Lookup} {visit : Visit} {p : BoundCallable}
  {fault : AnalysisFault}

/-- A call that cannot be resolved, in a callable without an offence by itself. -/
theorem callsUnnamed_of_target? (hown : p.callable.ownOffence? config p.thisType = .ok none)
    {call : Node} (hcall : call ∈ locateCalls p.callable.body) {fault : ReferenceFault}
    (h : Resolve.target? config p.types .empty call = .error fault) :
    fault = .emptyFunction ∧ p.callable.CallsUnnamed := by
  -- a variable as the receiver would be an access with a side effect, so no method call is left
  have hmethod {receiver : Expr} {member : Member} {args : List Expr}
      (heq : call = .expr (.methodCall receiver member args)) : False := by
    rw [heq] at hcall h
    rw [Resolve.target?_methodCall (Callable.hasSideEffect_eq_false hown) hcall] at h
    cases h
  cases (Resolve.target?_eq_error_iff _ _ _ _ _).1 h with
  | static hcls => exact ⟨rfl, _, _, hcls, hcall⟩
  | member _ => exact (hmethod rfl).elim
  | cls _ _ _ => exact (hmethod rfl).elim

/-- The check of a resolved call breaks off only with the judgement of the target. -/
theorem outcome_checkTarget_eq_error {judge? : Option Judge} {r : Reference}
    (h : ((following config lookup).checkTarget lookup judge? visit r).outcome = .error fault) :
    r.isWhitelisted config = false ∧ ∃ judge callee, judge? = some judge
      ∧ lookup r = some callee
      ∧ (judge (visit.descend r) callee r.className).outcome = .error fault := by
  by_cases hlist : r.isWhitelisted config = true
  · rw [outcome_checkTarget_of_whitelisted _ lookup judge? visit hlist] at h
    cases h
  · have hpending := Bool.eq_false_iff.2 hlist
    by_cases hkey : r.key ∈ visit.inProgress
    · rw [outcome_checkTarget_of_inProgress _ lookup judge? visit hkey] at h
      cases h
    · cases judge? with
      | none =>
        rw [outcome_checkTarget_none _ lookup visit hpending hkey] at h
        cases h
      | some judge =>
        rw [outcome_checkTarget_some _ lookup visit hpending hkey] at h
        cases hfound : lookup r with
        | none =>
          rw [hfound] at h
          cases h
        | some callee =>
          rw [hfound] at h
          refine ⟨hpending, judge, callee, rfl, rfl, ?_⟩
          unfold Reference.className
          cases hjudge : (judge (visit.descend r) callee (r.cls.map Ident.text)).outcome with
          | error fault' =>
            simp only [hjudge] at h
            cases h
            rfl
          | ok o? =>
            simp only [hjudge] at h
            cases h

/-- One judgement breaks off at a call with an empty name, or with the judgement of a callable that
    is called. -/
theorem outcome_judgeWith_eq_error {judge? : Option Judge}
    (h : ((following config lookup).judgeWith judge? visit p.callable p.thisType).outcome
      = .error fault) :
    fault = .reference .emptyFunction ∧ p.callable.CallsUnnamed
    ∨ ∃ judge r q, judge? = some judge ∧ p.Edge config lookup r q
        ∧ (judge (visit.descend r) q.callable q.thisType).outcome = .error fault := by
  obtain ⟨o?, hown, -⟩ := p.callable.exists_ownOffence? config p.thisType
  cases o? with
  | some o =>
    rw [outcome_judgeWith_of_own (z := following config lookup) judge? visit hown] at h
    cases h
  | none =>
    rw [outcome_judgeWith_following judge? visit hown] at h
    obtain ⟨call, hcall, hcheck⟩ := Run.exists_of_outcome_firstOffence_eq_error h
    rw [outcome_checkCall] at hcheck
    split at hcheck
    · next htarget =>
      cases hcheck
      obtain ⟨rfl, hunnamed⟩ := callsUnnamed_of_target? hown hcall htarget
      exact Or.inl ⟨rfl, hunnamed⟩
    · cases hcheck
    · next r htarget =>
      obtain ⟨hpending, judge, callee, hjudge, hfound, hfault⟩ :=
        outcome_checkTarget_eq_error hcheck
      have hr : p.Pending config r := ⟨⟨call, hcall, htarget⟩, hpending⟩
      exact Or.inr ⟨judge, r, _, hjudge, hr.edge hfound, hfault⟩

/-- A judgement that breaks off has reached a callable that calls an empty member. -/
theorem outcome_judge_eq_error (budget : Nat)
    (h : ((following config lookup).judge budget visit p.callable p.thisType).outcome
      = .error fault) :
    fault = .reference .emptyFunction
    ∧ ∃ q, p.Reachable config lookup q ∧ q.callable.CallsUnnamed := by
  induction budget generalizing visit p with
  | zero =>
    rw [Analyzer.judge] at h
    rcases outcome_judgeWith_eq_error h with ⟨hfault, hunnamed⟩ | ⟨_, _, _, ⟨⟩, _⟩
    exact ⟨hfault, p, .refl, hunnamed⟩
  | succ budget ih =>
    rw [Analyzer.judge] at h
    rcases outcome_judgeWith_eq_error h with ⟨hfault, hunnamed⟩ | ⟨_, r, q, ⟨⟩, hedge, hbelow⟩
    · exact ⟨hfault, p, .refl, hunnamed⟩
    · obtain ⟨hfault, q', hreach, hunnamed⟩ := ih hbelow
      exact ⟨hfault, q', hreach.head ⟨r, hedge⟩, hunnamed⟩

/-- Without definitions an analysis always ends with a report. -/
theorem exists_report_of_no_lookup (config : Config) (c : Callable) {thisType : Option String}
    (h : thisType ≠ some "") :
    ∃ report, (analyze { config := config } c thisType).outcome = .ok report := by
  obtain ⟨key?, hkey⟩ := exists_rootKey? c h
  obtain ⟨o?, hown, -⟩ := c.exists_ownOffence? config thisType
  obtain ⟨judge?, hjudge⟩ := judge_eq_judgeWith (z := { config := config }) config.callBudget
  refine ⟨.ofOffence? o?, outcome_analyze_of_judge hkey ?_⟩
  rw [hjudge]
  cases o? with
  | none => exact outcome_judgeWith_of_no_lookup judge? (startVisit key?) hown rfl
  | some o => exact outcome_judgeWith_of_own judge? (startVisit key?) hown

/-- With definitions an analysis ends with a report unless it breaks off at an empty member. -/
theorem exists_report_or_unnamed (config : Config) (lookup : Lookup) (c : Callable)
    {thisType : Option String} (h : thisType ≠ some "") :
    (∃ report, (analyze (following config lookup) c thisType).outcome = .ok report)
    ∨ (analyze (following config lookup) c thisType).outcome = .error (.reference .emptyFunction)
      ∧ ∃ q, BoundCallable.Reachable config lookup ⟨c, thisType⟩ q ∧ q.callable.CallsUnnamed := by
  obtain ⟨key?, hkey⟩ := exists_rootKey? c h
  have houtcome := outcome_analyze (z := following config lookup) hkey
  cases hjudge : ((following config lookup).judge config.callBudget (startVisit key?) c
      thisType).outcome with
  | ok o? => exact Or.inl ⟨_, outcome_analyze_of_judge hkey hjudge⟩
  | error fault =>
    obtain ⟨rfl, hreach⟩ := outcome_judge_eq_error (p := ⟨c, thisType⟩) config.callBudget hjudge
    rw [hjudge] at houtcome
    exact Or.inr ⟨houtcome, hreach⟩

/-- **Resolution breaks off at empty names only.** Whatever is known of types and texts, a call has
    a target or none, unless a name in it is empty in one of three ways. So the analysis of a
    callable whose class is not given ends with a report, or else it looks up definitions, has
    reached a callable that calls an empty member of a named class, and says so. -/
theorem analyze_reports_or_unnamed (config : Config) :
    (∀ types values call fault,
      Resolve.target? config types values call = .error fault
        ↔ Resolve.Unnamed config types call fault)
    ∧ ∀ (lookup? : Option Lookup) (c : Callable),
        (∃ report, (analyze { config := config, lookup := lookup? } c none).outcome = .ok report)
        ∨ (analyze { config := config, lookup := lookup? } c none).outcome
            = .error (.reference .emptyFunction)
          ∧ ∃ lookup q, lookup? = some lookup
            ∧ BoundCallable.Reachable config lookup ⟨c, none⟩ q ∧ q.callable.CallsUnnamed := by
  refine ⟨Resolve.target?_eq_error_iff config, ?_⟩
  intro lookup? c
  have hclass : (none : Option String) ≠ some "" := nofun
  cases lookup? with
  | none => exact Or.inl (exists_report_of_no_lookup config c hclass)
  | some lookup =>
    refine (exists_report_or_unnamed config lookup c hclass).imp_right ?_
    rintro ⟨hfault, q, hreach, hunnamed⟩
    exact ⟨hfault, lookup, q, rfl, hreach, hunnamed⟩

/-! ### Calls with an empty name -/

namespace Nameless

/-- `Account::()` -/
def static : Expr := .staticCall (.named ⟨"Account", by decide⟩) (.named "") []

/-- `$owner->rename()` -/
def member : Expr := .methodCall (.var (.named ⟨"owner", by decide⟩)) (.named "rename") []

def main : Callable :=
  .function ⟨⟨"rename", by decide⟩, [], [.expression static], false, none⟩

theorem locateCalls_main : locateCalls main.body = [.expr static] := by
  rw [locateCalls, locate_eq]
  cbv

theorem ownOffence?_main : main.ownOffence? .standard none = .ok none := by
  rw [Callable.ownOffence?_eq_none_iff]
  refine ⟨rfl, _, locateAccesses_eq _, ?_⟩
  have haccesses : main.body.flatMap (Node.accesses []) = [] := by cbv
  intro a ha
  rw [haccesses] at ha
  cases ha

theorem target?_static (types : TypeMap) :
    Resolve.target? .standard types .empty (.expr static) = .error .emptyFunction := by
  rw [Resolve.target?_eq_error_iff]
  exact .static (by decide +kernel)

end Nameless

/-- Resolution does break off: at a static call with an empty member, at `$owner->rename()` where
    `$owner` is declared as `?`, and in the analysis of a function that holds the first of these. -/
theorem unnamed_calls_break_off :
    Resolve.target? .standard .empty .empty (.expr Nameless.static) = .error .emptyFunction
    ∧ Resolve.target? .standard (.ofList [("owner", some "?")] (by decide)) .empty
        (.expr Nameless.member) = .error .emptyClass
    ∧ (analyze { lookup := some (.exact []) } Nameless.main none).outcome
        = .error (.reference .emptyFunction) := by
  refine ⟨Nameless.target?_static .empty, ?_, ?_⟩
  · have htype : (TypeMap.ofList [("owner", some "?")] (by decide)).typeOf "owner" = some "?" := by
      decide
    rw [Resolve.target?_eq_error_iff]
    exact .cls (by decide) htype (by decide +kernel)
  · have hkey : rootKey? Nameless.main none = .ok (some "rename") := by decide +kernel
    have hroot : ((following .standard (.exact [])).judge 8 (startVisit (some "rename"))
        Nameless.main none).outcome = .error (.reference .emptyFunction) := by
      rw [judge, judgeWith_eq, Nameless.ownOffence?_main]
      dsimp only
      rw [Nameless.locateCalls_main, Run.firstOffence_singleton, outcome_checkCall,
        Nameless.target?_static]
    rw [outcome_analyze hkey]
    exact congrArg (Except.map Report.ofOffence?) hroot

end Analyzer

end CallablePurity
