import CallablePurity.Tree.Fields

set_option autoImplicit false

/-! # Building nodes from drafts

A front end hands over drafts: kinds with named fields, unchecked. `Draft.build` makes values of
them from the inside out and from left to right. The first node that breaks a rule of its kind
stops the building, and the first of its rules that is broken is the fault. -/

namespace CallablePurity

/-- An unchecked value. -/
inductive Draft where
  | scalar (value : Scalar)
  | word (vocabulary : Vocabulary) (text : String)
  | tuple (items : List Draft)
  | list (items : List Draft)
  | node (kind : Kind) (fields : List (String × Draft))

/-- The word of a vocabulary that is written with a text. -/
def Vocabulary.word (vocabulary : Vocabulary) (text : String) : Except NodeFault Atom :=
  let atom? := match vocabulary with
    | binaryOperator => (BinaryOperator.ofText? text).map Atom.binary
    | unaryOperator => (UnaryOperator.ofText? text).map Atom.unary
    | castKind => (CastKind.ofText? text).map Atom.cast
  match atom? with
  | some atom => .ok atom
  | none => .error (.unknownWord vocabulary text)

/-! ## Building -/

namespace Draft

mutual

/-- Builds a value from a draft, parts before the whole. -/
def build : Draft → Except NodeFault Value
  | scalar s => .ok (.atom (.scalar s))
  | word vocabulary text => (vocabulary.word text).map .atom
  | tuple items => (buildAll items).map .tuple
  | list items => (buildAll items).map .list
  | node kind fields => do
    let values ← buildFields fields
    return .node (← Fields.node ⟨kind, values⟩)

def buildAll : List Draft → Except NodeFault (List Value)
  | [] => .ok []
  | d :: rest => do
    let v ← d.build
    return v :: (← buildAll rest)

/-- Builds the values of fields in the order in which they are given. -/
def buildFields : List (String × Draft) → Except NodeFault (List (String × Value))
  | [] => .ok []
  | (field, d) :: rest => do
    let v ← d.build
    return (field, v) :: (← buildFields rest)

end

end Draft

end CallablePurity
