import CallablePurity.Access
import CallablePurity.Callable
import CallablePurity.Reference
import CallablePurity.Report.Basic

set_option autoImplicit false

/-! # Offences

An offence is the reason why a callable is impure: something it does by itself, or a call, in which
case the offence of the callee is part of the reason. Each has a wording, of which reports and the
analysis log are made. -/

namespace CallablePurity

inductive Offence where
  /-- The callable shares storage with its caller. -/
  | byRef (first : ByRefBinding) (rest : List ByRefBinding)
  /-- An access touches state of the whole process. -/
  | globalState (access : Access)
  /-- An access may run foreign code. -/
  | sideEffect (access : Access)
  /-- The target of a call made at this depth is not known. -/
  | unresolvable (depth : Nat)
  /-- A call goes deeper than calls are followed. -/
  | depthLimit (limit : Int) (target : Reference)
  /-- There is no definition of the target. -/
  | unknown (target : Reference)
  /-- The target has an offence of its own. -/
  | impureCall (target : Reference) (cause : Offence)

namespace Offence

/-- The first or only reason, in words. -/
def violation : Offence → String
  | byRef first _ => first.text
  | globalState access => "global state access: " ++ access.describe
  | sideEffect access => "side-effecting access: " ++ access.describe
  | unresolvable depth => "unresolvable call target (at depth " ++ toString depth ++ ")"
  | depthLimit limit target => "call depth limit " ++ toString limit ++ " reached at " ++ target.name
  | unknown target => "unknown callable " ++ target.name
  | impureCall target cause => "calls impure " ++ target.name ++ ": " ++ cause.violation

/-- All reasons in words; only bindings by reference give more than one. -/
def violations : Offence → List String
  | byRef first rest => (first :: rest).map ByRefBinding.text
  | o => [o.violation]

/-- The line that the analysis log gets when the offence is found. -/
def logLine : Offence → String
  | byRef first rest =>
    "impure: by-reference bindings " ++ ", ".intercalate ((first :: rest).map ByRefBinding.text)
  | globalState access => "impure: side-effecting access " ++ access.describe
  | sideEffect access => "impure: side-effecting access " ++ access.describe
  | o => "impure: " ++ o.violation

def flags : Offence → Flags
  | byRef _ _ => { byRefBinding := true }
  | globalState _ => { globalState := true }
  | sideEffect _ => { sideEffectingAccess := true }
  | _ => { impureCall := true }

theorem any_flags (o : Offence) : o.flags.any = true := by
  cases o <;> rfl

theorem violations_ne_nil (o : Offence) : o.violations ≠ [] := by
  cases o <;> simp [violations]

/-- The report on a callable with this offence. -/
def report (o : Offence) : Report :=
  .impure o.flags o.violations o.any_flags o.violations_ne_nil

end Offence

/-- The report on a callable with the offence found in it, or with none. -/
def Report.ofOffence? : Option Offence → Report
  | none => .pure
  | some o => o.report

end CallablePurity
