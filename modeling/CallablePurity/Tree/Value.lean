import CallablePurity.Tree.Equality

set_option autoImplicit false

/-! # Values

What may be offered for a field of a node: a scalar, an operator, a node, or a sequence of values.
A `tuple` is the sequence that fields accept; a `list` is one that they refuse. -/

namespace CallablePurity

inductive Value where
  | atom (atom : Atom)
  | node (node : Node)
  | tuple (items : List Value)
  | list (items : List Value)

def Scalar.typeName : Scalar → String
  | null => "NoneType"
  | bool _ => "bool"
  | int _ => "int"
  | float _ => "float"
  | text _ => "str"

def Atom.typeName : Atom → String
  | scalar s => s.typeName
  | binary _ => "BinaryOperator"
  | unary _ => "UnaryOperator"
  | cast _ => "CastKind"

namespace Value

/-- The type of a value as messages name it. -/
def typeName : Value → String
  | atom a => a.typeName
  | node n => n.kind.text
  | tuple _ => "tuple"
  | list _ => "list"

def null : Value :=
  atom (.scalar .null)

mutual

/-- Two values are equal; a tuple never equals a list. -/
def same : Value → Value → Bool
  | atom a, atom b => a.same b
  | node m, node n => m.same n
  | tuple xs, tuple ys => sameAll xs ys
  | list xs, list ys => sameAll xs ys
  | _, _ => false

/-- Two sequences are equal item by item. -/
def sameAll : List Value → List Value → Bool
  | [], [] => true
  | x :: xs, y :: ys => x.same y && sameAll xs ys
  | _, _ => false

end

end Value

end CallablePurity
