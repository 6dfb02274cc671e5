import CallablePurity.Proofs.Walk.Exactness
import Mathlib.Data.List.Forall2

set_option autoImplicit false

/-! # Trees that differ inside nested scopes only

Two trees are the same outside nested scopes (`Node.SameOutside`) when they have nodes of the same
kinds with the same fields at all places that are not below a node that opens a scope. Such trees
need not be of one size, and every node around a nested scope differs between them. What stays the
same of a node is its `Face`: its kind and the atoms of its fields, with nothing of the nodes below
it. The locators go through two such trees step by step: they enter nodes that are the same outside
nested scopes (`Node.SameOutside.scope`) and find accesses whose subjects and operations are
(`Node.SameOutside.accesses`). -/

namespace CallablePurity

/-! ## The relation -/

/-- What a field holds, apart from what its nodes are. -/
inductive Content.Shape where
  | atom (value : Atom)
  | node
  | nodes (count : Nat)

def Content.shape : Content → Shape
  | atom a => .atom a
  | node _ => .node
  | nodes ns => .nodes ns.length

/-- Two trees that differ at most below nodes that open a scope. -/
inductive Node.SameOutside : Node → Node → Prop
  /-- Scopes of one kind, whatever is in them. -/
  | nested {m n : Node} (hkind : m.kind = n.kind) (hboundary : m.isBoundary = true) :
      SameOutside m n
  /-- Nodes with the same fields, and children that are the same outside scopes. -/
  | fields {m n : Node} (hkind : m.kind = n.kind)
      (hshapes : m.contents.map Content.shape = n.contents.map Content.shape)
      (hchildren : List.Forall₂ SameOutside m.children n.children) :
      SameOutside m n

/-- What is seen of a node without looking at the nodes below it, or into the scope that it
    opens. -/
structure Face where
  kind : Kind
  shapes : List Content.Shape

def Node.face (n : Node) : Face :=
  ⟨n.kind, if n.isBoundary then [] else n.contents.map Content.shape⟩

namespace Node.SameOutside

variable {m n : Node}

theorem refl (n : Node) : SameOutside n n := by
  induction n using Node.induction_children with
  | step n ih => exact .fields rfl rfl (List.forall₂_same.2 ih)

theorem kind (h : SameOutside m n) : m.kind = n.kind := by
  cases h <;> assumption

theorem isBoundary (h : SameOutside m n) : m.isBoundary = n.isBoundary := by
  rw [Node.isBoundary, Node.isBoundary, h.kind]

theorem face (h : SameOutside m n) : m.face = n.face := by
  rw [Node.face, Node.face, h.kind, h.isBoundary]
  cases h with
  | nested hkind hboundary =>
    have hboundary' : n.isBoundary = true := by
      rw [← hboundary, Node.isBoundary, Node.isBoundary, hkind]
    simp [hboundary']
  | fields _ hshapes _ => rw [hshapes]

theorem children (h : SameOutside m n) (hopen : m.isBoundary = false) :
    List.Forall₂ SameOutside m.children n.children := by
  cases h with
  | nested _ hboundary => simp [hopen] at hboundary
  | fields _ _ hchildren => exact hchildren

/-! ## What the locators meet -/

theorem isOperation (h : SameOutside m n) :
    AccessLocator.isOperation m = AccessLocator.isOperation n := by
  rw [Bool.eq_iff_iff, AccessLocator.isOperation_iff_kind, AccessLocator.isOperation_iff_kind,
    h.kind]

theorem isCall (h : SameOutside m n) : m.isCall = n.isCall := by
  rw [Bool.eq_iff_iff, Node.isCall_iff_kind, Node.isCall_iff_kind, h.kind]

/-- The children of two nodes give related results where each pair of them does. -/
theorem flatMap_children {α : Type} {R : α → α → Prop} {f g : Node → List α}
    (h : SameOutside m n)
    (hchild : ∀ c ∈ m.children, ∀ d, SameOutside c d → List.Forall₂ R (f c) (g d)) :
    List.Forall₂ R (if m.isBoundary then [] else m.children.flatMap f)
      (if n.isBoundary then [] else n.children.flatMap g) := by
  rw [← h.isBoundary]
  split
  · exact .nil
  · next hopen =>
    have hpairs : List.Forall₂
        (fun c d => (∀ d, SameOutside c d → List.Forall₂ R (f c) (g d)) ∧ SameOutside c d)
        m.children n.children :=
      (List.forall₂_and_left _ _).2 ⟨hchild, h.children (Bool.eq_false_iff.2 hopen)⟩
    exact List.rel_flatMap hpairs fun c d hcd => hcd.1 d hcd.2

/-- The nodes in the outermost scope correspond to each other. -/
theorem scope (h : SameOutside m n) : List.Forall₂ SameOutside m.scope n.scope := by
  induction m using Node.induction_children generalizing n with
  | step m ih =>
    rw [Node.scope_eq, Node.scope_eq]
    exact .cons h (h.flatMap_children fun c hc d hcd => ih c hc hcd)

end Node.SameOutside

/-! ## Accesses -/

theorem Subject.node_of_ofNode? {n : Node} {s : Subject} (h : ofNode? n = some s) :
    s.node = n := by
  unfold ofNode? at h
  split at h
  · cases h
    rfl
  · cases h
    rfl
  · cases h

/-- Whether a node is a subject can be told from its kind. -/
theorem Subject.isSome_ofNode?_iff (n : Node) :
    (ofNode? n).isSome = true ↔ n.kind = .var ∨ n.kind = .staticVar := by
  cases n with
  | expr e => cases e <;> simp [ofNode?, Node.kind, Expr.kind]
  | stmt s => cases s <;> simp [ofNode?, Node.kind, Stmt.kind]
  | _ => simp [ofNode?, Node.kind]

/-- Two accesses with subjects and operations that differ inside nested scopes only. -/
structure Access.SameOutside (a b : Access) : Prop where
  subject : a.subject.node.SameOutside b.subject.node
  operations : List.Forall₂ Node.SameOutside a.operations b.operations

namespace Node.SameOutside

variable {m n : Node} {around around' : List Node}

/-- The access to the node itself, where it is a variable. -/
theorem ownAccess (h : SameOutside m n) (haround : List.Forall₂ SameOutside around around') :
    List.Forall₂ Access.SameOutside ((Subject.ofNode? m).toList.map (⟨·, around⟩))
      ((Subject.ofNode? n).toList.map (⟨·, around'⟩)) := by
  have hsome : (Subject.ofNode? m).isSome = (Subject.ofNode? n).isSome := by
    rw [Bool.eq_iff_iff, Subject.isSome_ofNode?_iff, Subject.isSome_ofNode?_iff, h.kind]
  cases hm : Subject.ofNode? m with
  | none =>
    have hn : Subject.ofNode? n = none := by simpa [hm] using hsome.symm
    rw [hn]
    exact .nil
  | some s =>
    obtain ⟨t, hn⟩ : ∃ t, Subject.ofNode? n = some t := by
      simpa [hm, Option.isSome_iff_exists] using hsome.symm
    have hsubject : s.node.SameOutside t.node := by
      rw [Subject.node_of_ofNode? hm, Subject.node_of_ofNode? hn]
      exact h
    rw [hn]
    exact .cons ⟨hsubject, haround⟩ .nil

theorem operationsBelow (h : SameOutside m n)
    (haround : List.Forall₂ SameOutside around around') :
    List.Forall₂ SameOutside (m.operationsBelow around) (n.operationsBelow around') := by
  rw [Node.operationsBelow, Node.operationsBelow, ← h.isOperation]
  split
  · exact List.rel_append haround (.cons h .nil)
  · exact haround

/-- The accesses in the outermost scope correspond to each other, in order. -/
theorem accesses (h : SameOutside m n) (haround : List.Forall₂ SameOutside around around') :
    List.Forall₂ Access.SameOutside (m.accesses around) (n.accesses around') := by
  -- the operations around the children of both nodes correspond as those around the nodes do
  induction m using Node.induction_children generalizing n around around' with
  | step m ih =>
    rw [Node.accesses_eq, Node.accesses_eq]
    exact List.rel_append (h.ownAccess haround)
      (h.flatMap_children fun c hc d hcd => ih c hc hcd (h.operationsBelow haround))

end Node.SameOutside

section Bodies

variable {body body' : List Node} (h : List.Forall₂ Node.SameOutside body body')

include h

theorem forall₂_accesses_of_sameOutside :
    List.Forall₂ Access.SameOutside (body.flatMap (Node.accesses []))
      (body'.flatMap (Node.accesses [])) :=
  List.rel_flatMap h fun _ _ hmn => hmn.accesses .nil

theorem forall₂_locateCalls_of_sameOutside :
    List.Forall₂ Node.SameOutside (locateCalls body) (locateCalls body') := by
  rw [locateCalls, locateCalls, locate_eq, locate_eq]
  refine List.rel_filter ?_ (List.rel_flatMap h fun _ _ hmn => hmn.scope)
  intro m n hmn
  simp [hmn.isCall]

end Bodies

end CallablePurity
