import CallablePurity.Json.Printer
import CallablePurity.OrderedMap
import CallablePurity.Report.Basic

set_option autoImplicit false

/-! # Reports as documents

The reports on several callables as one JSON document for other tools: a summary with counts, then
every callable under its label, in order. -/

namespace CallablePurity

/-- Reports by the label of the callable, in order of first arrival. -/
abbrev Reports (τ : Type := String) := OrderedMap String (Report τ)

variable {τ : Type}

namespace Reports

def pureCount (rs : Reports τ) : Nat :=
  rs.entries.countP fun e => e.2.isPure

def impureCount (rs : Reports τ) : Nat :=
  rs.size - rs.pureCount

theorem pureCount_add_impureCount (rs : Reports τ) : rs.pureCount + rs.impureCount = rs.size := by
  have h : rs.pureCount ≤ rs.size := List.countP_le_length
  unfold impureCount
  omega

end Reports

variable [Wording τ]

/-- One report, with a field for each flag. -/
def Report.json (r : Report τ) : Json :=
  .object
    [("is_pure", .bool r.isPure),
     ("has_by_ref_binding", .bool r.flags.byRefBinding),
     ("has_global_state", .bool r.flags.globalState),
     ("has_side_effecting_access", .bool r.flags.sideEffectingAccess),
     ("has_impure_call", .bool r.flags.impureCall),
     ("violations", .array (r.violations.map fun v => .text (Wording.codePoints v)))]

namespace Reports

def json (rs : Reports τ) : Json :=
  .object
    [("summary", .object
      [("total", .nat rs.size), ("pure", .nat rs.pureCount), ("impure", .nat rs.impureCount)]),
     ("callables", .object (rs.entries.map fun e => (e.1, e.2.json)))]

/-- The document with the given indentation, or on one line. -/
def document (rs : Reports τ) (indent : Option Int) : String :=
  rs.json.render (.ofIndent indent)

end Reports

end CallablePurity
