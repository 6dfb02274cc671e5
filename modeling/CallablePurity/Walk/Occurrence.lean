import CallablePurity.Tree.Size

set_option autoImplicit false

/-! # Occurrences of nodes

A walk meets nodes at places. An `Occurrence` is a node together with its identity and the
occurrences of its children. Equal nodes with different identities are different objects, and one
object may occur at several places; which of these is the case matters to whoever waits for the
very node it has seen before.

`Occurrence.ofNode` gives every place of a tree an identity of its own, the path to it. -/

namespace CallablePurity

/-- The identity of a node: for a tree made from scratch, the path to it, innermost step first. -/
abbrev NodeId := List Nat

/-- A node at a place, with the occurrences of its children. -/
structure Occurrence where
  id : NodeId
  node : Node
  parts : List Occurrence

namespace Occurrence

/-- All places of a tree, as different objects. -/
def ofNode (id : NodeId) (n : Node) : Occurrence :=
  { id := id,
    node := n,
    parts := n.children.attach.zipIdx.map fun p => ofNode (p.2 :: id) p.1.1 }
termination_by n
decreasing_by exact Node.sizeOf_lt_of_mem_children p.1.2

@[simp] theorem id_ofNode (id : NodeId) (n : Node) : (ofNode id n).id = id := by
  rw [ofNode]

@[simp] theorem node_ofNode (id : NodeId) (n : Node) : (ofNode id n).node = n := by
  rw [ofNode]

theorem parts_ofNode (id : NodeId) (n : Node) :
    (ofNode id n).parts = n.children.zipIdx.map fun p => ofNode (p.2 :: id) p.1 := by
  rw [ofNode]
  suffices h : ∀ (cs : List Node) (H : ∀ c ∈ cs, c ∈ n.children) (k : Nat),
      ((cs.attachWith (· ∈ n.children) H).zipIdx k).map (fun p => ofNode (p.2 :: id) p.1.1)
        = (cs.zipIdx k).map fun p => ofNode (p.2 :: id) p.1 from
    h n.children (fun _ hc => hc) 0
  intro cs
  induction cs with
  | nil => simp
  | cons c cs ih =>
    intro H k
    simp [List.attachWith_cons, List.zipIdx_cons, ih]

/-- The places of a sequence of trees, as different objects. -/
def forest (nodes : List Node) : List Occurrence :=
  nodes.zipIdx.map fun p => ofNode [p.2] p.1

end Occurrence

end CallablePurity
