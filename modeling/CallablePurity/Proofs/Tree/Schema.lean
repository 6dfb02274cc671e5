import CallablePurity.Tree.Draft

set_option autoImplicit false

/-! # The schema of trees

What is asked of a draft, said of the draft alone: each kind has rules about its fields, in an order
(`Kind.rules`), and a rule sees of a value that is offered for a field no more than its `Shape`. The
first rule is that fields without a default are given at all. A draft is well made if all its parts
conform (`Draft.Conforms`); a part that does not conform fails with the fault of the first of its
rules that is broken (`Draft.FailsWith`).

Some fields have no rule: a front end is trusted to offer there what is declared for them, and names
that are perhaps missing (`Draft.Raw`). -/

namespace CallablePurity

/-! ## Shapes -/

/-- What a rule can see of a value. -/
inductive Shape where
  | scalar (value : Scalar)
  | word (vocabulary : Vocabulary) (text : String)
  | node (kind : Kind)
  | tuple (items : List Shape)
  | list

namespace Shape

def typeName : Shape → String
  | scalar s => s.typeName
  | word vocabulary _ => vocabulary.text
  | node kind => kind.text
  | tuple _ => "tuple"
  | list => "list"

def isNull : Shape → Bool
  | scalar .null => true
  | _ => false

def isTrue : Shape → Bool
  | scalar (.bool b) => b
  | _ => false

/-- A text, or what may stand for one that is missing. -/
def isName : Shape → Bool
  | scalar .null | scalar (.text _) => true
  | scalar (.bool b) => !b
  | scalar (.int i) => i = 0
  | _ => false

/-- A name that is empty or missing. -/
def isEmptyName : Shape → Bool
  | scalar (.text s) => s = ""
  | s => s.isName

end Shape

/-- Nodes of the kind may stand where the slot is. -/
def Slot.admitsKind : Slot → Kind → Bool
  | expr, kind | exprOrNone, kind | textOrExpr, kind => kind.isExpr
  | stmt, kind => kind.isStmt
  | node, _ => true
  | param, kind => kind = .param
  | capture, kind => kind = .capture
  | var, kind => kind = .var
  | staticVar, kind => kind = .staticVar
  | nameOrExpr, kind => kind = .name || kind.isExpr
  | nameExprOrClass, kind => kind = .name || kind = .classDecl || kind.isExpr
  | _, _ => false

/-- Values of the shape may stand where the slot is. -/
def Slot.admits : Slot → Shape → Bool
  | slot, .node kind => slot.admitsKind kind
  | exprOrNone, .scalar .null | textOrNone, .scalar .null => true
  | textOrExpr, .scalar (.text _) | text, .scalar (.text _) | textOrNone, .scalar (.text _) => true
  | flag, .scalar (.bool _) => true
  | scalar, .scalar _ => true
  | binaryOperator, .word .binaryOperator _ => true
  | unaryOperator, .word .unaryOperator _ => true
  | castKind, .word .castKind _ => true
  | tuple, .tuple _ => true
  | _, _ => false

/-! ## Rules -/

theorem BinaryOperator.ofText?_eq_some_iff (s : String) (op : BinaryOperator) :
    ofText? s = some op ↔ op.text = s := by
  constructor
  · intro h
    simpa using List.find?_some h
  · rintro rfl
    exact ofText?_text op

/-- A rule about the fields of a node. -/
inductive Rule where
  /-- The fields are given. -/
  | given (fields : List String)
  /-- The field holds what the slot admits. -/
  | holds (field : String) (slot : Slot)
  /-- The field holds a tuple, and the slot admits each of its items. -/
  | each (field : String) (slot : Slot)
  /-- The field holds a name that is not empty. -/
  | named (field : String) (role : NameRole)
  /-- The field holds nothing or a name that is not empty. -/
  | namedOrNone (field : String) (role : NameRole)
  /-- A text in the field is not empty. -/
  | nonempty (field : String) (role : NameRole)
  /-- An operator in the field has a compound form. -/
  | compound (field : String)
  /-- What stands for any number of arguments has no default. -/
  | noVariadicDefault

/-- The shapes of the values that are offered, by field. -/
abbrev Offer := String → Option Shape

/-- The shape that a rule sees of a field; what is left out counts as null. That is the default of
    the field, or else the first rule of the kind is broken already. -/
def Offer.get (offer : Offer) (field : String) : Shape :=
  (offer field).getD (.scalar .null)

namespace Rule

def Holds (offer : Offer) : Rule → Prop
  | given fields => ∀ field ∈ fields, (offer field).isSome = true
  | holds field slot => slot.admits (offer.get field) = true
  | each field slot =>
    ∃ items, (offer field).getD (.tuple []) = .tuple items ∧ ∀ item ∈ items, slot.admits item = true
  | named field _ => (offer.get field).isEmptyName = false
  | namedOrNone field _ =>
    (offer.get field).isNull = true ∨ (offer.get field).isEmptyName = false
  | nonempty field _ => offer.get field ≠ .scalar (.text "")
  | compound field =>
    ∀ op, offer.get field = .word .binaryOperator (BinaryOperator.text op) → op.isCompound = true
  | noVariadicDefault =>
    (offer.get "variadic").isTrue = true → (offer.get "default").isNull = true

/-- The fault of a node of some kind that breaks the rule. -/
def fault? (kind : Kind) (offer : Offer) : Rule → Option NodeFault
  | given fields =>
    match fields.filter fun field => (offer field).isNone with
    | [] => none
    | missing => some (.missing kind missing)
  | holds field slot =>
    if slot.admits (offer.get field) then none
    else some (.wrongType kind field slot (offer.get field).typeName)
  | each field slot =>
    match (offer field).getD (.tuple []) with
    | .tuple items =>
      (items.find? fun item => !slot.admits item).map fun item =>
        .wrongType kind field slot item.typeName
    | shape => some (.wrongType kind field .tuple shape.typeName)
  | named field role =>
    if (offer.get field).isEmptyName then some (.emptyName role) else none
  | namedOrNone field role =>
    if (offer.get field).isNull || !(offer.get field).isEmptyName then none
    else some (.emptyName role)
  | nonempty field role =>
    match offer.get field with
    | .scalar (.text s) => if s = "" then some (.emptyName role) else none
    | _ => none
  | compound field =>
    match offer.get field with
    | .word .binaryOperator text =>
      (BinaryOperator.ofText? text).bind fun op =>
        if op.isCompound then none else some (.notCompound op)
    | _ => none
  | noVariadicDefault =>
    if (offer.get "variadic").isTrue && !(offer.get "default").isNull then some .variadicDefault
    else none

/-- A rule that holds is a rule that finds no fault. -/
theorem fault?_eq_none_iff (kind : Kind) (offer : Offer) (rule : Rule) :
    rule.fault? kind offer = none ↔ rule.Holds offer := by
  cases rule with
  | given fields =>
    simp only [fault?, Holds]
    split
    · next hnone => simpa [List.filter_eq_nil_iff, Option.isSome_iff_ne_none] using hnone
    · next hsome => simpa [List.filter_eq_nil_iff, Option.isSome_iff_ne_none] using hsome
  | holds field slot => simp [fault?, Holds]
  | each field slot =>
    simp only [fault?, Holds]
    split
    · next items hitems => simp [hitems]
    · next shape hshape => simpa using fun items heq => absurd heq (hshape items)
  | named field role => simp [fault?, Holds]
  | namedOrNone field role =>
    cases hnull : (offer.get field).isNull <;> simp [fault?, Holds, hnull]
  | nonempty field role =>
    simp only [fault?, Holds]
    split
    · next s hs => simp [hs]
    · next hother => simpa using hother ""
  | compound field =>
    simp only [fault?, Holds]
    split
    · next text htext =>
      simp only [htext, Option.bind_eq_none_iff, BinaryOperator.ofText?_eq_some_iff,
        Shape.word.injEq, true_and, ite_eq_left_iff, reduceCtorEq, imp_false, Decidable.not_not]
      exact forall_congr' fun op => imp_congr_left eq_comm
    · next hother => simpa using fun op heq => absurd heq (hother _)
  | noVariadicDefault => simp [fault?, Holds]

end Rule

/-- The rules about what the fields of a kind hold, in the order in which they are checked. -/
def Kind.checks : Kind → List Rule
  | node | expr | stmt | literal => []
  | name => [.named "value" .name]
  | param =>
    [.named "name" .param, .namedOrNone "declared_type" .declaredType, .noVariadicDefault]
  | capture => [.named "name" .capture]
  | staticVar => [.named "name" .staticVar]
  | var => [.holds "name" .textOrExpr, .nonempty "name" .var]
  | array => [.each "items" .expr]
  | assign => [.holds "var" .expr, .holds "expr" .expr]
  | assignOp =>
    [.holds "op" .binaryOperator, .compound "op", .holds "var" .expr, .holds "expr" .expr]
  | binary => [.holds "op" .binaryOperator, .holds "left" .expr, .holds "right" .expr]
  | unary => [.holds "op" .unaryOperator, .holds "expr" .expr]
  | cast => [.holds "kind" .castKind, .holds "expr" .expr]
  | index => [.holds "var" .expr, .holds "dim" .exprOrNone]
  | property => [.holds "var" .expr, .holds "name" .textOrExpr]
  | call => [.holds "name" .nameOrExpr, .each "args" .expr]
  | methodCall => [.holds "var" .expr, .holds "name" .textOrExpr, .each "args" .expr]
  | staticCall => [.holds "class_" .nameOrExpr, .holds "name" .textOrExpr, .each "args" .expr]
  | closure => [.each "params" .param, .each "uses" .capture, .each "stmts" .stmt]
  | new => [.holds "class_" .nameExprOrClass, .each "args" .expr]
  | otherExpr => [.named "kind" .exprKind, .each "children" .node]
  | expression => [.holds "expr" .expr]
  | ret => [.holds "expr" .exprOrNone]
  | global => [.each "vars" .var]
  | static => [.each "vars" .staticVar]
  | branch => [.holds "cond" .expr, .each "stmts" .stmt, .each "else_stmts" .stmt]
  | otherStmt => [.named "kind" .stmtKind, .each "children" .node]
  | function => [.named "name" .function, .each "params" .param, .each "stmts" .stmt]
  | method => [.named "name" .method, .each "params" .param, .each "stmts" .stmt]
  | classDecl => [.namedOrNone "name" .classDecl, .each "stmts" .stmt]

/-- The rules of a kind, in the order in which they are checked. -/
def Kind.rules (kind : Kind) : List Rule :=
  .given kind.required :: kind.checks

/-- What is declared for the fields of a kind that no rule looks at, or only to see whether a name
    is empty. -/
def Kind.declared : Kind → List (String × (Shape → Bool))
  | name => [("value", Shape.isName)]
  | param =>
    [("name", Shape.isName), ("declared_type", Shape.isName), ("by_ref", Slot.admits .flag),
     ("variadic", Slot.admits .flag), ("default", Slot.admits .exprOrNone)]
  | capture => [("name", Shape.isName), ("by_ref", Slot.admits .flag)]
  | staticVar => [("name", Shape.isName), ("default", Slot.admits .exprOrNone)]
  | literal => [("value", Slot.admits .scalar)]
  | closure =>
    [("by_ref", Slot.admits .flag), ("is_static", Slot.admits .flag),
     ("return_type", Slot.admits .textOrNone)]
  | otherExpr | otherStmt => [("kind", Shape.isName)]
  | function =>
    [("name", Shape.isName), ("by_ref", Slot.admits .flag),
     ("return_type", Slot.admits .textOrNone)]
  | method =>
    [("name", Shape.isName), ("by_ref", Slot.admits .flag), ("is_static", Slot.admits .flag),
     ("return_type", Slot.admits .textOrNone)]
  | classDecl => [("name", Shape.isName)]
  | _ => []

/-! ## Drafts -/

/-- The text is a word of the vocabulary. -/
def Vocabulary.Has (text : String) : Vocabulary → Prop
  | binaryOperator => ∃ op, BinaryOperator.text op = text
  | unaryOperator => ∃ op, UnaryOperator.text op = text
  | castKind => ∃ kind, CastKind.text kind = text

namespace Draft

mutual

def shape : Draft → Shape
  | scalar s => .scalar s
  | word vocabulary text => .word vocabulary text
  | tuple items => .tuple (shapes items)
  | list _ => .list
  | node kind _ => .node kind

def shapes : List Draft → List Shape
  | [] => []
  | d :: rest => d.shape :: shapes rest

end

/-- What some fields offer. -/
def offer (fields : List (String × Draft)) : Offer := fun field =>
  (fields.map fun f => (f.1, f.2.shape)).lookup field

mutual

/-- All parts of a draft, in the order in which they are built: those of the first field first, and
    the whole last. -/
def parts : Draft → List Draft
  | scalar s => [scalar s]
  | word vocabulary text => [word vocabulary text]
  | tuple items => itemParts items ++ [tuple items]
  | list items => itemParts items ++ [list items]
  | node kind fields => fieldParts fields ++ [node kind fields]

def itemParts : List Draft → List Draft
  | [] => []
  | d :: rest => d.parts ++ itemParts rest

def fieldParts : List (String × Draft) → List Draft
  | [] => []
  | (_, d) :: rest => d.parts ++ fieldParts rest

end

def isNode : Draft → Bool
  | node _ _ => true
  | _ => false

/-- The draft itself, apart from its parts, is well made. -/
def Conforms : Draft → Prop
  | word vocabulary text => vocabulary.Has text
  | node kind fields => ∀ rule ∈ kind.rules, rule.Holds (offer fields)
  | _ => True

/-- The draft itself, apart from its parts, is not well made, and this is what is said about it. -/
inductive FailsWith : Draft → NodeFault → Prop
  | word {vocabulary : Vocabulary} {text : String} (h : ¬ vocabulary.Has text) :
      FailsWith (.word vocabulary text) (.unknownWord vocabulary text)
  | node {kind : Kind} {fields : List (String × Draft)} {before after : List Rule} {rule : Rule}
      {fault : NodeFault} (hrules : kind.rules = before ++ rule :: after)
      (hbefore : ∀ r ∈ before, r.Holds (offer fields))
      (hfault : rule.fault? kind (offer fields) = some fault) :
      FailsWith (.node kind fields) fault

/-- The fields offered for a node are fields of its kind, each once, and those that are not checked
    hold what is declared for them. -/
structure Proper (kind : Kind) (fields : List (String × Draft)) : Prop where
  known : ∀ f ∈ fields, f.1 ∈ kind.fields
  once : (fields.map Prod.fst).Nodup
  declared : ∀ p ∈ kind.declared, ∀ f ∈ fields, f.1 = p.1 → p.2 f.2.shape = true

instance (kind : Kind) (fields : List (String × Draft)) : Decidable (Proper kind fields) :=
  decidable_of_iff
    ((∀ f ∈ fields, f.1 ∈ kind.fields) ∧ (fields.map Prod.fst).Nodup
      ∧ ∀ p ∈ kind.declared, ∀ f ∈ fields, f.1 = p.1 → p.2 f.2.shape = true)
    ⟨fun ⟨known, once, declared⟩ => ⟨known, once, declared⟩,
      fun h => ⟨h.known, h.once, h.declared⟩⟩

/-- A draft as front ends make them. -/
def Raw (d : Draft) : Prop :=
  ∀ kind fields, .node kind fields ∈ d.parts → Proper kind fields

/-- The kind and the fields of a draft of a node. -/
def asNode? : Draft → Option (Kind × List (String × Draft))
  | node kind fields => some (kind, fields)
  | _ => none

instance (d : Draft) : Decidable d.Raw :=
  decidable_of_iff (∀ p ∈ d.parts.filterMap asNode?, Proper p.1 p.2) <| by
    simp only [List.mem_filterMap]
    constructor
    · intro h kind fields hpart
      exact h (kind, fields) ⟨_, hpart, rfl⟩
    · rintro h ⟨kind, fields⟩ ⟨part, hpart, hnode⟩
      cases part <;> cases hnode
      exact h kind fields hpart

end Draft

end CallablePurity
