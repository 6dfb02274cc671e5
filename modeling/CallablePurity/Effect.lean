import CallablePurity.Access
import CallablePurity.Config
import CallablePurity.TypeMap

set_option autoImplicit false

/-! # Side effects of accesses

An access has a side effect when it may be noticed outside the callable: it touches state that
outlives the call, or its value reaches an operation that may run foreign code. Converting an object
to a string and indexing one both do; converting or indexing a plain value does not. -/

namespace CallablePurity

/-- What an operation does with the value of a variable directly below it. -/
inductive Handling where
  /-- The value is used in a way that runs no foreign code. -/
  | harmless
  /-- The value is converted to a string, which runs foreign code for an object. -/
  | stringified
  /-- An element of the value is taken, which runs foreign code for an object. -/
  | element
  /-- Nothing is known of what happens to the value, or it is known to be foreign code. -/
  | foreign
deriving DecidableEq

def BinaryOperator.handling : BinaryOperator → Handling
  | concat => .stringified
  | _ => .harmless

/-- What is not known to be harmless counts as foreign: fetches, calls, other constructs. -/
def Node.handling : Node → Handling
  | .expr (.cast .string _) => .stringified
  | .expr (.cast _ _) => .harmless
  | .expr (.index _ _) => .element
  | .expr (.binary op _ _) => op.handling
  | .expr (.assignOp op _ _) => op.operator.handling
  | .expr (.unary _ _) => .harmless
  | .expr (.assign _ _) => .harmless
  | .stmt (.ret _) => .harmless
  | .stmt (.branch _ _ _) => .harmless
  | _ => .foreign

namespace Config

/-- The type of an element: an element of a plain value is a plain value of the same type, and
    nothing is known of an element of a collection. -/
def elementType (c : Config) (declared : Option String) : Option String :=
  if c.isScalar declared then declared else none

/-- A value of the declared type that flows outwards through the operations, nearest first, may
    run foreign code. -/
def runsForeignCode (c : Config) (declared : Option String) : List Node → Bool
  | [] => false
  | operation :: outer =>
    match operation.handling with
    | .harmless => false
    | .foreign => true
    | .stringified => !c.isScalarLike declared
    | .element => !c.isScalarLike declared || c.runsForeignCode (c.elementType declared) outer

end Config

namespace Access

/-- The access touches state of the whole process: through a computed name, a superglobal, or a
    declaration of a global or static variable. -/
def touchesGlobalState (a : Access) (c : Config) : Bool :=
  match a.name? with
  | none => true
  | some name => c.isSuperglobal name.text || a.declaresPersistentState

/-- The access may be noticed outside the callable. -/
def hasSideEffect (a : Access) (types : TypeMap) (c : Config) : Bool :=
  match a.name? with
  | none => true
  | some name =>
    c.isSuperglobal name.text || a.declaresPersistentState
      || c.runsForeignCode (types.typeOf name.text) a.operations.reverse

theorem hasSideEffect_of_touchesGlobalState {a : Access} {c : Config} (types : TypeMap)
    (h : a.touchesGlobalState c = true) : a.hasSideEffect types c = true := by
  unfold touchesGlobalState at h
  unfold hasSideEffect
  split at h <;> simp_all

end Access

end CallablePurity
