import CallablePurity.Proofs.Tree.Schema
import Mathlib.Data.List.Forall2

set_option autoImplicit false

/-! # Every kind checks its rules

A node that is built from values fails with the first of its kind's rules that is broken. If none
is, the node is of the kind and holds all nodes that are offered, field by field
(`Fields.checks_node`).

Both are said at once of each step of a construction (`Fields.Checks`): which rules it checks, and
what is known of what it makes. The steps are put together in the order of the rules; a field
without a rule is a step without rules, which cannot fail where the field holds what is declared for
it. -/

namespace CallablePurity

/-! ## Values -/

def Atom.shape : Atom → Shape
  | scalar s => .scalar s
  | binary op => .word .binaryOperator op.text
  | unary op => .word .unaryOperator op.text
  | cast kind => .word .castKind kind.text

namespace Value

mutual

def shape : Value → Shape
  | atom a => a.shape
  | node n => .node n.kind
  | tuple items => .tuple (shapes items)
  | list _ => .list

def shapes : List Value → List Shape
  | [] => []
  | v :: rest => v.shape :: shapes rest

end

mutual

/-- The nodes in a value, in order. -/
def nodes : Value → List Node
  | atom _ => []
  | node n => [n]
  | tuple items => itemNodes items
  | list items => itemNodes items

def itemNodes : List Value → List Node
  | [] => []
  | v :: rest => v.nodes ++ itemNodes rest

end

theorem shapes_eq_map (items : List Value) : shapes items = items.map shape := by
  induction items with
  | nil => rfl
  | cons v rest ih => rw [shapes, ih, List.map_cons]

theorem itemNodes_eq_flatMap (items : List Value) : itemNodes items = items.flatMap nodes := by
  induction items with
  | nil => rfl
  | cons v rest ih => rw [itemNodes, ih, List.flatMap_cons]

theorem typeName_shape (v : Value) : v.shape.typeName = v.typeName := by
  cases v with
  | atom a => cases a <;> rfl
  | _ => rfl

theorem exists_tuple_of_shape {v : Value} {items : List Shape} (h : v.shape = .tuple items) :
    ∃ values, v = .tuple values := by
  cases v with
  | tuple values => exact ⟨values, rfl⟩
  | atom a => cases a <;> cases h
  | _ => cases h

/-- The sorts of values that readers tell apart. -/
@[elab_as_elim]
theorem sorts {P : Value → Prop} (scalar : ∀ s, P (.atom (.scalar s)))
    (binary : ∀ op, P (.atom (.binary op))) (unary : ∀ op, P (.atom (.unary op)))
    (cast : ∀ kind, P (.atom (.cast kind))) (bare : P (.node .bare))
    (name : ∀ n, P (.node (.name n))) (param : ∀ p, P (.node (.param p)))
    (capture : ∀ c, P (.node (.capture c))) (staticVar : ∀ v, P (.node (.staticVar v)))
    (expr : ∀ e, P (.node (.expr e))) (stmt : ∀ s, P (.node (.stmt s)))
    (tuple : ∀ items, P (.tuple items)) (list : ∀ items, P (.list items)) (v : Value) : P v := by
  cases v with
  | atom a => cases a <;> solve_by_elim
  | node n => cases n <;> solve_by_elim
  | tuple items => exact tuple items
  | list items => exact list items

end Value

/-! ## Reading -/

theorem nodeList_text? (s : Option String) : (Content.text? s).nodeList = [] := by
  cases s <;> rfl

/-- The reader accepts what the slot admits, and the nodes in what it reads are known. -/
structure ReadsSlot {α : Type} (slot : Slot) (read : Value → Option α) (nodes : α → List Node) :
    Prop where
  isSome_read : ∀ v, (read v).isSome = slot.admits v.shape
  nodes_eq : ∀ v a, read v = some a → v.nodes = nodes a

namespace ReadsSlot

-- All readers look at the sort of a value and at the head of what is in it, no further.

theorem expr : ReadsSlot .expr Value.expr? fun e => [.expr e] where
  isSome_read v := by
    cases v using Value.sorts <;> first | rfl | (rename_i x; cases x <;> rfl)
  nodes_eq v a h := by
    cases v using Value.sorts <;> cases h
    rfl

theorem stmt : ReadsSlot .stmt Value.stmt? fun s => [.stmt s] where
  isSome_read v := by
    cases v using Value.sorts <;> first | rfl | (rename_i x; cases x <;> rfl)
  nodes_eq v a h := by
    cases v using Value.sorts <;> cases h
    rfl

theorem node : ReadsSlot .node Value.node? fun n => [n] where
  isSome_read v := by
    cases v using Value.sorts <;> first | rfl | (rename_i x; cases x <;> rfl)
  nodes_eq v a h := by
    cases v <;> cases h
    rfl

theorem param : ReadsSlot .param Value.param? fun p => [.param p] where
  isSome_read v := by
    cases v using Value.sorts <;> first | rfl | (rename_i x; cases x <;> rfl)
  nodes_eq v a h := by
    cases v using Value.sorts <;> cases h
    rfl

theorem capture : ReadsSlot .capture Value.capture? fun c => [.capture c] where
  isSome_read v := by
    cases v using Value.sorts <;> first | rfl | (rename_i x; cases x <;> rfl)
  nodes_eq v a h := by
    cases v using Value.sorts <;> cases h
    rfl

theorem staticVar : ReadsSlot .staticVar Value.staticVar? fun v => [.staticVar v] where
  isSome_read v := by
    cases v using Value.sorts <;> first | rfl | (rename_i x; cases x <;> rfl)
  nodes_eq v a h := by
    cases v using Value.sorts <;> cases h
    rfl

theorem varName : ReadsSlot .var Value.varName? fun v => [.expr (.var v)] where
  isSome_read v := by
    cases v using Value.sorts <;> first | rfl | (rename_i x; cases x <;> rfl)
  nodes_eq v a h := by
    cases v using Value.sorts with
    | expr e => cases e <;> cases h; rfl
    | _ => cases h

theorem optionalExpr :
    ReadsSlot .exprOrNone Value.optionalExpr? fun e => (Content.expr? e).nodeList where
  isSome_read v := by
    cases v using Value.sorts <;> first | rfl | (rename_i x; cases x <;> rfl)
  nodes_eq v a h := by
    cases v using Value.sorts with
    | scalar s => cases s <;> cases h; rfl
    | expr e => cases h; rfl
    | _ => cases h

theorem member : ReadsSlot .textOrExpr Value.member? fun m => m.content.nodeList where
  isSome_read v := by
    cases v using Value.sorts <;> first | rfl | (rename_i x; cases x <;> rfl)
  nodes_eq v a h := by
    cases v using Value.sorts with
    | scalar s => cases s <;> cases h; rfl
    | expr e => cases h; rfl
    | _ => cases h

theorem target : ReadsSlot .nameOrExpr Value.target? fun t => t.content.nodeList where
  isSome_read v := by
    cases v using Value.sorts <;> first | rfl | (rename_i x; cases x <;> rfl)
  nodes_eq v a h := by
    cases v using Value.sorts <;> cases h <;> rfl

theorem instantiated :
    ReadsSlot .nameExprOrClass Value.instantiated? fun i => i.content.nodeList where
  isSome_read v := by
    cases v using Value.sorts <;> first | rfl | (rename_i x; cases x <;> rfl)
  nodes_eq v a h := by
    cases v using Value.sorts with
    | stmt s => cases s <;> cases h; rfl
    | name n => cases h; rfl
    | expr e => cases h; rfl
    | _ => cases h

theorem binaryOperator : ReadsSlot .binaryOperator Value.binaryOperator? fun _ => [] where
  isSome_read v := by
    cases v using Value.sorts <;> first | rfl | (rename_i x; cases x <;> rfl)
  nodes_eq v a h := by
    cases v using Value.sorts <;> cases h
    rfl

theorem unaryOperator : ReadsSlot .unaryOperator Value.unaryOperator? fun _ => [] where
  isSome_read v := by
    cases v using Value.sorts <;> first | rfl | (rename_i x; cases x <;> rfl)
  nodes_eq v a h := by
    cases v using Value.sorts <;> cases h
    rfl

theorem castKind : ReadsSlot .castKind Value.castKind? fun _ => [] where
  isSome_read v := by
    cases v using Value.sorts <;> first | rfl | (rename_i x; cases x <;> rfl)
  nodes_eq v a h := by
    cases v using Value.sorts <;> cases h
    rfl

theorem flag : ReadsSlot .flag Value.flag? fun _ => [] where
  isSome_read v := by
    cases v using Value.sorts <;> first | rfl | (rename_i x; cases x <;> rfl)
  nodes_eq v a h := by
    cases v using Value.sorts with
    | scalar s => cases s <;> cases h; rfl
    | _ => cases h

theorem scalar : ReadsSlot .scalar Value.scalar? fun _ => [] where
  isSome_read v := by
    cases v using Value.sorts <;> first | rfl | (rename_i x; cases x <;> rfl)
  nodes_eq v a h := by
    cases v using Value.sorts <;> cases h
    rfl

theorem optionalText :
    ReadsSlot .textOrNone Value.optionalText? fun s => (Content.text? s).nodeList where
  isSome_read v := by
    cases v using Value.sorts <;> first | rfl | (rename_i x; cases x <;> rfl)
  nodes_eq v a h := by
    cases v using Value.sorts with
    | scalar s => cases s <;> cases h <;> rfl
    | _ => cases h

end ReadsSlot

/-! ## Checking -/

/-- The fault that a construction ends with. -/
def faultOf {α : Type} : Except NodeFault α → Option NodeFault
  | .ok _ => none
  | .error fault => some fault

theorem faultOf_eq_none_iff {α : Type} (x : Except NodeFault α) :
    faultOf x = none ↔ ∃ a, x = .ok a := by
  cases x <;> simp [faultOf]

theorem faultOf_eq_some_iff {α : Type} (x : Except NodeFault α) (fault : NodeFault) :
    faultOf x = some fault ↔ x = .error fault := by
  cases x <;> simp [faultOf]

theorem faultOf_map {α β : Type} (g : α → β) (x : Except NodeFault α) :
    faultOf (x.map g) = faultOf x := by
  cases x <;> rfl

theorem lookup_map_snd {α β : Type} (g : α → β) (entries : List (String × α)) (key : String) :
    (entries.map fun e => (e.1, g e.2)).lookup key = (entries.lookup key).map g := by
  induction entries with
  | nil => rfl
  | cons e rest ih =>
    obtain ⟨k, a⟩ := e
    rw [List.map_cons]
    cases hk : key == k <;> simp [List.lookup_cons, hk, ih]

namespace Fields

def offer (f : Fields) : Offer := fun field =>
  (f.values.map fun v => (v.1, v.2.shape)).lookup field

/-- The nodes that are offered for a field. -/
def nodesAt (f : Fields) (field : String) : List Node :=
  ((f.values.lookup field).map Value.nodes).getD []

theorem getD_offer (f : Fields) (field : String) (default : Value) :
    (f.offer field).getD default.shape = (f.value field default).shape := by
  rw [offer, lookup_map_snd, value]
  cases f.values.lookup field <;> rfl

theorem get_offer (f : Fields) (field : String) :
    f.offer.get field = (f.value field .null).shape :=
  f.getD_offer field .null

theorem nodes_value (f : Fields) (field : String) (default : Value) (h : default.nodes = []) :
    (f.value field default).nodes = f.nodesAt field := by
  rw [value, nodesAt]
  cases f.values.lookup field with
  | none => exact h
  | some v => rfl

/-- Fields without rules hold what is declared for them. -/
def Declared (f : Fields) : Prop :=
  ∀ p ∈ f.kind.declared, ∀ shape, f.offer p.1 = some shape → p.2 shape = true

/-- The value of a field is what is declared for it, if its default is. -/
theorem declared_value (f : Fields) (h : f.Declared) {field : String} {admits : Shape → Bool}
    (hmem : (field, admits) ∈ f.kind.declared) (default : Value)
    (hdefault : admits default.shape = true) : admits (f.value field default).shape = true := by
  rw [← getD_offer]
  cases hoffer : f.offer field with
  | none => exact hdefault
  | some shape => exact h (field, admits) hmem shape hoffer

/-- The construction checks the rules in order, and `P` holds of what it makes. -/
structure Checks {α : Type} (f : Fields) (rules : List Rule) (x : Except NodeFault α)
    (P : α → Prop) : Prop where
  faultOf_eq : faultOf x = rules.findSome? (Rule.fault? f.kind f.offer)
  result : ∀ a, x = .ok a → P a

namespace Checks

variable {α β : Type} {f : Fields} {x : Except NodeFault α} {k : α → Except NodeFault β}
  {P : α → Prop} {Q : β → Prop} {rules rules' : List Rule} {rule : Rule}

theorem imp {P' : α → Prop} (h : f.Checks rules x P) (himp : ∀ a, P a → P' a) :
    f.Checks rules x P' :=
  ⟨h.faultOf_eq, fun a ha => himp a (h.result a ha)⟩

/-- A construction fails with the first rule that is broken. -/
theorem error {fault : NodeFault}
    (h : rules.findSome? (Rule.fault? f.kind f.offer) = some fault) :
    f.Checks rules (.error fault) P :=
  ⟨h.symm, nofun⟩

/-- A construction succeeds if no rule is broken. -/
theorem ok {a : α} (h : rules.findSome? (Rule.fault? f.kind f.offer) = none) (ha : P a) :
    f.Checks rules (.ok a) P :=
  ⟨h.symm, fun _ heq => Except.ok.inj heq ▸ ha⟩

theorem pure {a : α} (h : P a) : f.Checks [] (Pure.pure a : Except NodeFault α) P :=
  ok rfl h

/-- What comes after a construction is checked after it. -/
theorem append (hx : f.Checks rules x P) (hk : ∀ a, P a → f.Checks rules' (k a) Q) :
    f.Checks (rules ++ rules') (x >>= k) Q := by
  have hfault := hx.faultOf_eq
  cases x with
  | error fault =>
    show f.Checks _ (.error fault) Q
    refine .error ?_
    rw [List.findSome?_append, ← hfault]
    rfl
  | ok a =>
    have ha := hk a (hx.result a rfl)
    refine ⟨?_, ha.result⟩
    rw [List.findSome?_append, ← hfault]
    exact ha.faultOf_eq

theorem bind (hx : f.Checks [rule] x P) (hk : ∀ a, P a → f.Checks rules (k a) Q) :
    f.Checks (rule :: rules) (x >>= k) Q :=
  hx.append hk

/-- A construction without rules may stand anywhere. -/
theorem bind_free (hx : f.Checks [] x P) (hk : ∀ a, P a → f.Checks rules (k a) Q) :
    f.Checks rules (x >>= k) Q :=
  hx.append hk

theorem map {g : α → β} (hx : f.Checks rules x P) (hg : ∀ a, P a → Q (g a)) :
    f.Checks rules (x >>= fun a => Pure.pure (g a)) Q := by
  have hmap := hx.append (k := fun a => Pure.pure (g a)) fun a ha => .pure (hg a ha)
  rwa [List.append_nil] at hmap

end Checks

/-! ## Fields -/

section

variable {α : Type} {slot : Slot} {read : Value → Option α} {nodes : α → List Node} (f : Fields)

theorem faultOf_accept (h : ReadsSlot slot read nodes) (field : String) (v : Value) :
    faultOf (f.accept field slot read v)
      = if slot.admits v.shape then none else some (.wrongType f.kind field slot v.typeName) := by
  rw [← h.isSome_read, accept]
  cases read v <;> rfl

theorem read_of_accept {field : String} {v : Value} {a : α}
    (h : f.accept field slot read v = .ok a) : read v = some a := by
  rw [accept] at h
  split at h
  · next b hb => rw [hb, Except.ok.inj h]
  · cases h

/-- A field that holds one value is checked for its slot. -/
theorem checks_read (h : ReadsSlot slot read nodes) (field : String) :
    f.Checks [.holds field slot] (f.one field slot read)
      fun a => read (f.value field .null) = some a where
  faultOf_eq := by
    rw [one, f.faultOf_accept h, List.findSome?_singleton, Rule.fault?, get_offer,
      Value.typeName_shape]
  result _ ha := f.read_of_accept ha

theorem checks_one (h : ReadsSlot slot read nodes) (field : String) :
    f.Checks [.holds field slot] (f.one field slot read) fun a => f.nodesAt field = nodes a :=
  (f.checks_read h field).imp fun a ha =>
    (f.nodes_value field .null rfl).symm.trans (h.nodes_eq _ a ha)

/-- A field without a rule is read if it holds what is declared for it, as what it is by default
    must be. -/
theorem checks_declared {f : Fields} (h : ReadsSlot slot read nodes) (hdeclared : f.Declared)
    (field : String) (hmem : (field, slot.admits) ∈ f.kind.declared) {default : Value}
    (hdefault : slot.admits default.shape = true ∧ default.nodes = []) :
    f.Checks [] (f.accept field slot read (f.value field default)) fun a =>
      f.nodesAt field = nodes a ∧ read (f.value field default) = some a where
  faultOf_eq := by
    have hadmits := f.declared_value hdeclared hmem default hdefault.1
    rw [f.faultOf_accept h, if_pos hadmits]
    rfl
  result a ha := by
    have hread := f.read_of_accept ha
    exact ⟨(f.nodes_value field default hdefault.2).symm.trans (h.nodes_eq _ a hread), hread⟩

/-- The items of a tuple are checked one after the other. -/
theorem faultOf_mapM_accept (h : ReadsSlot slot read nodes) (field : String)
    (items : List Value) :
    faultOf (items.mapM (f.accept field slot read))
      = ((items.map Value.shape).find? fun item => !slot.admits item).map fun item =>
          .wrongType f.kind field slot item.typeName := by
  induction items with
  | nil => rfl
  | cons v rest ih =>
    have hv := f.faultOf_accept h field v
    rw [List.mapM_cons, List.map_cons]
    cases hadmits : slot.admits v.shape with
    | true =>
      rw [hadmits, if_pos rfl, faultOf_eq_none_iff] at hv
      obtain ⟨a, ha⟩ := hv
      rw [ha, List.find?_cons_of_neg (by simp [hadmits]), ← ih]
      cases rest.mapM (f.accept field slot read) <;> rfl
    | false =>
      rw [hadmits, if_neg Bool.false_ne_true, faultOf_eq_some_iff] at hv
      rw [hv, List.find?_cons_of_pos (by simp [hadmits]), Option.map_some, Value.typeName_shape]
      rfl

theorem map_of_mapM_accept {g : α → Node} (h : ReadsSlot slot read fun a => [g a])
    (field : String) {items : List Value} {as : List α}
    (has : items.mapM (f.accept field slot read) = .ok as) :
    items.flatMap Value.nodes = as.map g := by
  induction items generalizing as with
  | nil =>
    cases has
    rfl
  | cons v rest ih =>
    rw [List.mapM_cons] at has
    cases ha : f.accept field slot read v with
    | error fault =>
      rw [ha] at has
      cases has
    | ok a =>
      cases hrest : rest.mapM (f.accept field slot read) with
      | error fault =>
        rw [ha, hrest] at has
        cases has
      | ok more =>
        rw [ha, hrest] at has
        cases has
        rw [List.flatMap_cons, h.nodes_eq v a (f.read_of_accept ha), ih hrest, List.map_cons]
        rfl

/-- A field that holds a tuple is checked for being one, and its items for their slot. -/
theorem checks_many {g : α → Node} (h : ReadsSlot slot read fun a => [g a]) (field : String) :
    f.Checks [.each field slot] (f.many field slot read)
      fun as => f.nodesAt field = as.map g := by
  have hoffer : (f.offer field).getD (.tuple []) = (f.value field (.tuple [])).shape :=
    f.getD_offer field (.tuple [])
  have hnodes := f.nodes_value field (.tuple []) rfl
  -- The slot of the items counts only for a tuple; anything else fails as a whole.
  by_cases htuple : ∃ items, f.value field (.tuple []) = .tuple items
  · obtain ⟨items, hvalue⟩ := htuple
    rw [hvalue, Value.shape, Value.shapes_eq_map] at hoffer
    rw [hvalue, Value.nodes, Value.itemNodes_eq_flatMap] at hnodes
    have hmany : f.many field slot read = items.mapM (f.accept field slot read) := by
      rw [many, hvalue]
    rw [hmany]
    refine ⟨?_, fun as has => hnodes.symm.trans (f.map_of_mapM_accept h field has)⟩
    rw [List.findSome?_singleton, Rule.fault?, hoffer]
    exact f.faultOf_mapM_accept h field items
  · have hmany : f.many field slot read
        = .error (.wrongType f.kind field .tuple (f.value field (.tuple [])).typeName) := by
      unfold many
      split
      · next items hvalue => exact absurd ⟨items, hvalue⟩ htuple
      · rfl
    rw [hmany]
    refine .error ?_
    rw [List.findSome?_singleton, Rule.fault?, hoffer]
    split
    · next items hshape => exact absurd (Value.exists_tuple_of_shape hshape) htuple
    · rw [Value.typeName_shape]

/-! ## Names -/

theorem nodesAt_of_isName {field : String} (hname : (f.value field .null).shape.isName = true) :
    f.nodesAt field = [] := by
  rw [← f.nodes_value field .null rfl]
  cases hv : f.value field .null using Value.sorts <;> rw [hv] at hname
  case scalar => rfl
  all_goals cases hname

theorem faultOf_name {field : String} (role : NameRole)
    (hname : (f.value field .null).shape.isName = true) :
    faultOf (f.name field role)
      = if (f.value field .null).shape.isEmptyName then some (.emptyName role) else none := by
  unfold name
  generalize f.value field .null = v at hname ⊢
  cases v using Value.sorts with
  | scalar s =>
    cases s with
    | null => rfl
    | text s =>
      by_cases hs : s = ""
      · subst hs
        rfl
      · simp [Ident.ofText?, Value.shape, Atom.shape, Shape.isEmptyName, hs, faultOf]
    | bool b =>
      cases b with
      | true => cases hname
      | false => rfl
    | int i =>
      obtain rfl : i = 0 := of_decide_eq_true hname
      rfl
    | float x => cases hname
  | _ => cases hname

/-- A name is checked for being empty, if it is a name at all. -/
theorem checks_name {f : Fields} (h : f.Declared) (field : String) (role : NameRole)
    (hmem : (field, Shape.isName) ∈ f.kind.declared) :
    f.Checks [.named field role] (f.name field role) fun _ => f.nodesAt field = [] := by
  have hname := f.declared_value h hmem .null rfl
  refine ⟨?_, fun _ _ => f.nodesAt_of_isName hname⟩
  rw [f.faultOf_name role hname, List.findSome?_singleton, Rule.fault?, get_offer]

theorem checks_optionalName {f : Fields} (h : f.Declared) (field : String) (role : NameRole)
    (hmem : (field, Shape.isName) ∈ f.kind.declared) :
    f.Checks [.namedOrNone field role] (f.optionalName field role)
      fun n => f.nodesAt field = (Content.text? (n.map Ident.text)).nodeList := by
  have hname := f.declared_value h hmem .null rfl
  refine ⟨?_, fun _ _ => (f.nodesAt_of_isName hname).trans (nodeList_text? _).symm⟩
  have hfault := f.faultOf_name role hname
  rw [List.findSome?_singleton, Rule.fault?, get_offer, optionalName]
  split
  · next hv =>
    rw [hv]
    rfl
  · next hv =>
    have hnull : (f.value field .null).shape.isNull = false := by
      cases hv' : f.value field .null using Value.sorts with
      | scalar s => cases s with
        | null => exact absurd hv' hv
        | _ => rfl
      | _ => rfl
    rw [hnull, Bool.false_or]
    rw [← faultOf_map some] at hfault
    cases hempty : (f.value field .null).shape.isEmptyName with
    | true =>
      rw [hempty] at hfault
      exact hfault
    | false =>
      rw [hempty] at hfault
      exact hfault

end

/-! ## Fields without rules -/

section

variable {f : Fields} (h : f.Declared) (field : String)

include h

theorem checks_flag (hmem : (field, Slot.admits .flag) ∈ f.kind.declared) :
    f.Checks [] (f.flag field)
      fun b => f.nodesAt field = [] ∧ (f.offer.get field).isTrue = b := by
  refine (checks_declared .flag h field hmem ⟨rfl, rfl⟩).imp fun b ⟨hnodes, hb⟩ => ⟨hnodes, ?_⟩
  rw [Offer.get, offer, lookup_map_snd]
  rw [value] at hb
  cases hv : f.values.lookup field with
  | none =>
    rw [hv] at hb
    exact Option.some.inj hb
  | some v =>
    rw [hv] at hb
    cases v using Value.sorts with
    | scalar s => cases s <;> cases hb; rfl
    | _ => cases hb

theorem checks_optionalText (hmem : (field, Slot.admits .textOrNone) ∈ f.kind.declared) :
    f.Checks [] (f.optionalText field) fun s => f.nodesAt field = (Content.text? s).nodeList :=
  (checks_declared .optionalText h field hmem ⟨rfl, rfl⟩).imp fun _ hs => hs.1

theorem checks_optionalExpr (hmem : (field, Slot.admits .exprOrNone) ∈ f.kind.declared) :
    f.Checks [] (f.optionalExpr field) fun e =>
      f.nodesAt field = (Content.expr? e).nodeList ∧ (f.offer.get field).isNull = e.isNone := by
  refine (checks_declared .optionalExpr h field hmem ⟨rfl, rfl⟩).imp
    fun e ⟨hnodes, he⟩ => ⟨hnodes, ?_⟩
  rw [get_offer]
  cases hv : f.value field .null using Value.sorts with
  | scalar s => cases s <;> rw [hv] at he <;> cases he; rfl
  | _ => rw [hv] at he; cases he <;> rfl

end

/-! ## The rules of each kind -/

/-- A member that is read is a text, or no text at all. -/
theorem shape_of_member {v : Value} {m : Member} (h : v.member? = some m) :
    (∃ s, m = .named s ∧ v.shape = .scalar (.text s))
      ∨ ∃ e, m = .computed e ∧ v.shape = .node e.kind := by
  cases v using Value.sorts with
  | scalar s =>
    cases s <;> cases h
    exact Or.inl ⟨_, rfl, rfl⟩
  | expr e =>
    cases h
    exact Or.inr ⟨e, rfl, rfl⟩
  | _ => cases h

theorem checks_varName (f : Fields) :
    f.Checks [.holds "name" .textOrExpr, .nonempty "name" .var] f.varName
      fun name => f.nodesAt "name" = name.content.nodeList := by
  unfold varName
  refine (f.checks_read .member "name").bind fun m hm => ?_
  have hnodes := (f.nodes_value "name" .null rfl).symm.trans (ReadsSlot.member.nodes_eq _ m hm)
  have hshape := shape_of_member hm
  rw [← get_offer] at hshape
  rcases hshape with ⟨s, rfl, hshape⟩ | ⟨e, rfl, hshape⟩
  · by_cases hs : s = ""
    · subst hs
      refine .error ?_
      rw [List.findSome?_singleton, Rule.fault?, hshape]
      rfl
    · have hident : Ident.ofText? s = some ⟨s, hs⟩ := dif_neg hs
      dsimp only
      rw [hident]
      refine .ok ?_ hnodes
      rw [List.findSome?_singleton, Rule.fault?, hshape]
      exact if_neg hs
  · refine .ok ?_ hnodes
    rw [List.findSome?_singleton, Rule.fault?, hshape]

theorem checks_compoundOperator (f : Fields) :
    f.Checks [.holds "op" .binaryOperator, .compound "op"] f.compoundOperator
      fun _ => f.nodesAt "op" = [] := by
  unfold compoundOperator
  refine (f.checks_read .binaryOperator "op").bind fun op hop => ?_
  have hnodes := (f.nodes_value "op" .null rfl).symm.trans
    (ReadsSlot.binaryOperator.nodes_eq _ op hop)
  have hshape : f.offer.get "op" = .word .binaryOperator op.text := by
    rw [get_offer]
    cases hv : f.value "op" .null using Value.sorts <;> rw [hv] at hop <;> cases hop
    rfl
  have hrule : [Rule.compound "op"].findSome? (Rule.fault? f.kind f.offer)
      = if op.isCompound then none else some (.notCompound op) := by
    rw [List.findSome?_singleton, Rule.fault?, hshape]
    simp only [BinaryOperator.ofText?_text, Option.bind_some]
  split
  · next hcompound => exact .ok (hrule.trans (if_pos hcompound)) hnodes
  · next hcompound => exact .error (hrule.trans (if_neg hcompound))

theorem checks_arity {f : Fields} (h : f.Declared)
    (hvariadic : ("variadic", Slot.admits .flag) ∈ f.kind.declared)
    (hdefault : ("default", Slot.admits .exprOrNone) ∈ f.kind.declared) :
    f.Checks [.noVariadicDefault] f.arity fun arity =>
      f.nodesAt "variadic" = []
      ∧ f.nodesAt "default" = (Content.expr? arity.default?).nodeList := by
  unfold arity
  refine (checks_flag h _ hvariadic).bind_free fun isVariadic ⟨hflag, htrue⟩ => ?_
  refine (checks_optionalExpr h _ hdefault).bind_free fun default ⟨hexpr, hnull⟩ => ?_
  -- Both fields are read before the rule is checked, which cannot fail on the way.
  have hrule : [Rule.noVariadicDefault].findSome? (Rule.fault? f.kind f.offer)
      = if isVariadic && !default.isNone then some .variadicDefault else none := by
    rw [List.findSome?_singleton, Rule.fault?, htrue, hnull]
  cases isVariadic with
  | true =>
    cases default with
    | none => exact .ok hrule ⟨hflag, hexpr⟩
    | some e => exact .error hrule
  | false =>
    cases default with
    | none => exact .ok hrule ⟨hflag, hexpr⟩
    | some e => exact .ok hrule ⟨hflag, hexpr⟩

/-- The node is of the kind, and its contents hold the nodes that are offered for the fields. -/
structure Makes (f : Fields) (n : Node) : Prop where
  kind_eq : n.kind = f.kind
  contents : List.Forall₂ (fun field content => f.nodesAt field = content.nodeList) f.kind.fields
    n.contents

/-- The children of the node are the nodes that are offered, field by field. -/
theorem Makes.children_eq {f : Fields} {n : Node} (h : f.Makes n) :
    n.children = f.kind.fields.flatMap f.nodesAt := by
  have hcontents := h.contents
  unfold Node.children
  generalize n.contents = contents at hcontents ⊢
  generalize f.kind.fields = fields at hcontents ⊢
  induction hcontents with
  | nil => rfl
  | cons hfield _ ih => rw [List.flatMap_cons, List.flatMap_cons, hfield, ih]

theorem checks_param {values : List (String × Value)} (h : Declared ⟨.param, values⟩) :
    Checks ⟨.param, values⟩ (Kind.checks .param) (param ⟨.param, values⟩)
      fun p => Makes ⟨.param, values⟩ (.param p) := by
  refine (checks_name h "name" .param (by simp [Kind.declared])).bind fun name hname => ?_
  refine (checks_optionalName h "declared_type" .declaredType (by simp [Kind.declared])).bind
    fun type htype => ?_
  refine (checks_arity h (by simp [Kind.declared]) (by simp [Kind.declared])).bind
    fun arity harity => ?_
  refine (checks_flag h "by_ref" (by simp [Kind.declared])).bind_free fun byRef hbyRef => ?_
  exact .pure ⟨rfl, .cons hname (.cons htype (.cons hbyRef.1 (.cons harity.1 (.cons harity.2
    .nil))))⟩

theorem checks_closure {values : List (String × Value)} (h : Declared ⟨.closure, values⟩) :
    Checks ⟨.closure, values⟩ (Kind.checks .closure) (closure ⟨.closure, values⟩)
      fun c => Makes ⟨.closure, values⟩ (.expr (.closure c)) := by
  refine (checks_many _ .param "params").bind fun params hparams => ?_
  refine (checks_many _ .capture "uses").bind fun captures hcaptures => ?_
  refine (checks_many _ .stmt "stmts").bind fun body hbody => ?_
  refine (checks_flag h "by_ref" (by simp [Kind.declared])).bind_free fun byRef hbyRef => ?_
  refine (checks_flag h "is_static" (by simp [Kind.declared])).bind_free
    fun isStatic hisStatic => ?_
  refine (checks_optionalText h "return_type" (by simp [Kind.declared])).bind_free
    fun returnType hreturnType => ?_
  exact .pure ⟨rfl, .cons hparams (.cons hcaptures (.cons hbody (.cons hbyRef.1 (.cons hisStatic.1
    (.cons hreturnType .nil)))))⟩

theorem checks_function {values : List (String × Value)} (h : Declared ⟨.function, values⟩) :
    Checks ⟨.function, values⟩ (Kind.checks .function) (function ⟨.function, values⟩)
      fun d => Makes ⟨.function, values⟩ (.stmt (.function d)) := by
  refine (checks_name h "name" .function (by simp [Kind.declared])).bind fun name hname => ?_
  refine (checks_many _ .param "params").bind fun params hparams => ?_
  refine (checks_many _ .stmt "stmts").bind fun body hbody => ?_
  refine (checks_flag h "by_ref" (by simp [Kind.declared])).bind_free fun byRef hbyRef => ?_
  refine (checks_optionalText h "return_type" (by simp [Kind.declared])).bind_free
    fun returnType hreturnType => ?_
  exact .pure ⟨rfl, .cons hname (.cons hparams (.cons hbody (.cons hbyRef.1 (.cons hreturnType
    .nil))))⟩

theorem checks_method {values : List (String × Value)} (h : Declared ⟨.method, values⟩) :
    Checks ⟨.method, values⟩ (Kind.checks .method) (method ⟨.method, values⟩)
      fun d => Makes ⟨.method, values⟩ (.stmt (.method d)) := by
  refine (checks_name h "name" .method (by simp [Kind.declared])).bind fun name hname => ?_
  refine (checks_many _ .param "params").bind fun params hparams => ?_
  refine (checks_many _ .stmt "stmts").bind fun body hbody => ?_
  refine (checks_flag h "by_ref" (by simp [Kind.declared])).bind_free fun byRef hbyRef => ?_
  refine (checks_flag h "is_static" (by simp [Kind.declared])).bind_free
    fun isStatic hisStatic => ?_
  refine (checks_optionalText h "return_type" (by simp [Kind.declared])).bind_free
    fun returnType hreturnType => ?_
  exact .pure ⟨rfl, .cons hname (.cons hparams (.cons hbody (.cons hbyRef.1 (.cons hisStatic.1
    (.cons hreturnType .nil)))))⟩

theorem checks_classDecl {values : List (String × Value)} (h : Declared ⟨.classDecl, values⟩) :
    Checks ⟨.classDecl, values⟩ (Kind.checks .classDecl) (classDecl ⟨.classDecl, values⟩)
      fun d => Makes ⟨.classDecl, values⟩ (.stmt (.classDecl d)) := by
  refine (checks_optionalName h "name" .classDecl (by simp [Kind.declared])).bind
    fun name hname => ?_
  refine (checks_many _ .stmt "stmts").bind fun body hbody => ?_
  exact .pure ⟨rfl, .cons hname (.cons hbody .nil)⟩

/-- Every kind makes its checks in order and loses no node. -/
theorem checks_checked (f : Fields) (h : f.Declared) :
    f.Checks f.kind.checks f.checked f.Makes := by
  obtain ⟨kind, values⟩ := f
  -- The steps of each kind are those of its rules, then those of the fields without rules; the
  -- contents of the node are put together in the order of the fields.
  cases kind with
  | node => exact .pure ⟨rfl, .nil⟩
  | expr => exact .pure ⟨rfl, .nil⟩
  | stmt => exact .pure ⟨rfl, .nil⟩
  | name =>
    exact (checks_name h "value" .name (by simp [Kind.declared])).map
      fun _ hname => ⟨rfl, .cons hname .nil⟩
  | param => exact (checks_param h).map fun _ hparam => hparam
  | capture =>
    refine (checks_name h "name" .capture (by simp [Kind.declared])).bind fun name hname => ?_
    refine (checks_flag h "by_ref" (by simp [Kind.declared])).bind_free fun byRef hbyRef => ?_
    exact .pure ⟨rfl, .cons hname (.cons hbyRef.1 .nil)⟩
  | staticVar =>
    refine (checks_name h "name" .staticVar (by simp [Kind.declared])).bind fun name hname => ?_
    refine (checks_optionalExpr h "default" (by simp [Kind.declared])).bind_free
      fun default hdefault => ?_
    exact .pure ⟨rfl, .cons hname (.cons hdefault.1 .nil)⟩
  | var => exact (checks_varName _).map fun name hname => ⟨rfl, .cons hname .nil⟩
  | literal =>
    exact (checks_declared .scalar h "value" (by simp [Kind.declared]) ⟨rfl, rfl⟩).map
      fun _ hvalue => ⟨rfl, .cons hvalue.1 .nil⟩
  | array => exact (checks_many _ .expr "items").map fun items hitems => ⟨rfl, .cons hitems .nil⟩
  | assign =>
    refine (checks_one _ .expr "var").bind fun target htarget => ?_
    refine (checks_one _ .expr "expr").bind fun value hvalue => ?_
    exact .pure ⟨rfl, .cons htarget (.cons hvalue .nil)⟩
  | assignOp =>
    refine (checks_compoundOperator _).append fun op hop => ?_
    refine (checks_one _ .expr "var").bind fun target htarget => ?_
    refine (checks_one _ .expr "expr").bind fun value hvalue => ?_
    exact .pure ⟨rfl, .cons hop (.cons htarget (.cons hvalue .nil))⟩
  | binary =>
    refine (checks_one _ .binaryOperator "op").bind fun op hop => ?_
    refine (checks_one _ .expr "left").bind fun left hleft => ?_
    refine (checks_one _ .expr "right").bind fun right hright => ?_
    exact .pure ⟨rfl, .cons hop (.cons hleft (.cons hright .nil))⟩
  | unary =>
    refine (checks_one _ .unaryOperator "op").bind fun op hop => ?_
    refine (checks_one _ .expr "expr").bind fun operand hoperand => ?_
    exact .pure ⟨rfl, .cons hop (.cons hoperand .nil)⟩
  | cast =>
    refine (checks_one _ .castKind "kind").bind fun kind hkind => ?_
    refine (checks_one _ .expr "expr").bind fun operand hoperand => ?_
    exact .pure ⟨rfl, .cons hkind (.cons hoperand .nil)⟩
  | index =>
    refine (checks_one _ .expr "var").bind fun base hbase => ?_
    refine (checks_one _ .optionalExpr "dim").bind fun offset hoffset => ?_
    exact .pure ⟨rfl, .cons hbase (.cons hoffset .nil)⟩
  | property =>
    refine (checks_one _ .expr "var").bind fun object hobject => ?_
    refine (checks_one _ .member "name").bind fun member hmember => ?_
    exact .pure ⟨rfl, .cons hobject (.cons hmember .nil)⟩
  | call =>
    refine (checks_one _ .target "name").bind fun function hfunction => ?_
    refine (checks_many _ .expr "args").bind fun args hargs => ?_
    exact .pure ⟨rfl, .cons hfunction (.cons hargs .nil)⟩
  | methodCall =>
    refine (checks_one _ .expr "var").bind fun receiver hreceiver => ?_
    refine (checks_one _ .member "name").bind fun member hmember => ?_
    refine (checks_many _ .expr "args").bind fun args hargs => ?_
    exact .pure ⟨rfl, .cons hreceiver (.cons hmember (.cons hargs .nil))⟩
  | staticCall =>
    refine (checks_one _ .target "class_").bind fun cls hcls => ?_
    refine (checks_one _ .member "name").bind fun member hmember => ?_
    refine (checks_many _ .expr "args").bind fun args hargs => ?_
    exact .pure ⟨rfl, .cons hcls (.cons hmember (.cons hargs .nil))⟩
  | closure => exact (checks_closure h).map fun _ hclosure => hclosure
  | new =>
    refine (checks_one _ .instantiated "class_").bind fun cls hcls => ?_
    refine (checks_many _ .expr "args").bind fun args hargs => ?_
    exact .pure ⟨rfl, .cons hcls (.cons hargs .nil)⟩
  | otherExpr =>
    refine (checks_name h "kind" .exprKind (by simp [Kind.declared])).bind fun kind hkind => ?_
    refine (checks_many (g := id) _ .node "children").bind fun parts hparts => ?_
    exact .pure ⟨rfl, .cons hkind (.cons (hparts.trans (List.map_id parts)) .nil)⟩
  | expression => exact (checks_one _ .expr "expr").map fun e he => ⟨rfl, .cons he .nil⟩
  | ret => exact (checks_one _ .optionalExpr "expr").map fun e he => ⟨rfl, .cons he .nil⟩
  | global =>
    refine (checks_many _ .varName "vars").map fun vars hvars => ⟨rfl, .cons ?_ .nil⟩
    rw [hvars, Content.exprs, Content.nodeList, List.map_map]
    rfl
  | static => exact (checks_many _ .staticVar "vars").map fun vars hvars => ⟨rfl, .cons hvars .nil⟩
  | branch =>
    refine (checks_one _ .expr "cond").bind fun condition hcondition => ?_
    refine (checks_many _ .stmt "stmts").bind fun body hbody => ?_
    refine (checks_many _ .stmt "else_stmts").bind fun alternative halternative => ?_
    exact .pure ⟨rfl, .cons hcondition (.cons hbody (.cons halternative .nil))⟩
  | otherStmt =>
    refine (checks_name h "kind" .stmtKind (by simp [Kind.declared])).bind fun kind hkind => ?_
    refine (checks_many (g := id) _ .node "children").bind fun parts hparts => ?_
    exact .pure ⟨rfl, .cons hkind (.cons (hparts.trans (List.map_id parts)) .nil)⟩
  | function => exact (checks_function h).map fun _ hfunction => hfunction
  | method => exact (checks_method h).map fun _ hmethod => hmethod
  | classDecl => exact (checks_classDecl h).map fun _ hclass => hclass

theorem missing_eq (f : Fields) :
    f.missing = f.kind.required.filter fun field => (f.offer field).isNone := by
  unfold missing
  refine List.filter_congr fun field _ => ?_
  rw [offer, lookup_map_snd, Option.isNone_map]

/-- A node is made by the rules of its kind, and none of the nodes that are offered is lost. -/
theorem checks_node (f : Fields) (h : f.Declared) : f.Checks f.kind.rules f.node f.Makes := by
  have hchecked := f.checks_checked h
  unfold Kind.rules node
  rw [missing_eq]
  cases hmissing : f.kind.required.filter fun field => (f.offer field).isNone with
  | nil =>
    have hgiven : (Rule.given f.kind.required).fault? f.kind f.offer = none := by
      rw [Rule.fault?, hmissing]
    refine ⟨?_, hchecked.result⟩
    rw [List.findSome?_cons, hgiven]
    exact hchecked.faultOf_eq
  | cons field fields =>
    have hgiven : (Rule.given f.kind.required).fault? f.kind f.offer
        = some (.missing f.kind (field :: fields)) := by
      rw [Rule.fault?, hmissing]
    refine .error ?_
    rw [List.findSome?_cons, hgiven]

end Fields

end CallablePurity
