set_option autoImplicit false

/-! # Purity reports

The verdict on a callable: it is pure, or it is impure in one or more ways and for one or more
reasons given in words. An analysis gives its reasons as strings; a report that is made from parts
may have texts of any other type. -/

namespace CallablePurity

/-- The ways in which a callable is impure. -/
structure Flags where
  /-- It shares storage with its caller. -/
  byRefBinding : Bool := false
  /-- It touches state of the whole process, or state kept from call to call. -/
  globalState : Bool := false
  /-- An access to a variable may run foreign code. -/
  sideEffectingAccess : Bool := false
  /-- It calls something that is impure or cannot be told to be pure. -/
  impureCall : Bool := false
deriving DecidableEq

def Flags.any (f : Flags) : Bool :=
  f.byRefBinding || f.globalState || f.sideEffectingAccess || f.impureCall

inductive Report (τ : Type := String) where
  | pure
  | impure (flags : Flags) (violations : List τ) (flagged : flags.any = true)
      (explained : violations ≠ [])
deriving DecidableEq

namespace Report

variable {τ : Type}

def isPure : Report τ → Bool
  | pure => true
  | impure _ _ _ _ => false

def flags : Report τ → Flags
  | pure => {}
  | impure flags _ _ _ => flags

/-- The reasons, in words. -/
def violations : Report τ → List τ
  | pure => []
  | impure _ violations _ _ => violations

end Report

/-! ## Reports from parts -/

/-- Why parts make no report. -/
inductive ReportFault where
  /-- A pure verdict with flags or violations. -/
  | contradiction (flags : Flags) (violations : Nat)
  | noFlag
  | noViolation

def ReportFault.message : ReportFault → String
  | contradiction flags violations =>
    "is_pure=True contradicts impurity flags: by_ref=" ++ truth flags.byRefBinding
      ++ ", global=" ++ truth flags.globalState
      ++ ", access=" ++ truth flags.sideEffectingAccess
      ++ ", call=" ++ truth flags.impureCall
      ++ ", violations=" ++ toString violations
  | noFlag => "is_pure=False requires at least one impurity flag"
  | noViolation => "is_pure=False requires at least one violation"
where
  /-- A truth value as messages write it. -/
  truth (b : Bool) : String := if b then "True" else "False"

/-- Accepts a pure verdict without reasons and an impure one with both flags and reasons. -/
def Report.ofParts {τ : Type} (isPure : Bool) (flags : Flags) (violations : List τ) :
    Except ReportFault (Report τ) :=
  if isPure then
    if flags.any || !violations.isEmpty then .error (.contradiction flags violations.length)
    else .ok .pure
  else if hf : flags.any = true then
    if hv : violations ≠ [] then .ok (.impure flags violations hf hv) else .error .noViolation
  else .error .noFlag

theorem Report.ofParts_parts {τ : Type} (r : Report τ) :
    ofParts r.isPure r.flags r.violations = .ok r := by
  cases r with
  | pure => rfl
  | impure flags violations hf hv =>
    simp [ofParts, isPure, Report.flags, Report.violations, hf, hv]

end CallablePurity
