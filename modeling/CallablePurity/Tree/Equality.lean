import CallablePurity.Tree.Size

set_option autoImplicit false

/-! # Equality of nodes

Two nodes are equal when they are of one kind, their atoms are equal as values, and their children
are equal in order. Literals are compared as the values they denote, so equal nodes need not be
written alike; where a node stands plays no part. -/

namespace CallablePurity

/-- Scalars are compared as values, operators and casts as themselves. -/
def Atom.same : Atom → Atom → Bool
  | scalar a, scalar b => a.same b
  | binary a, binary b => a = b
  | unary a, unary b => a = b
  | cast a, cast b => a = b
  | _, _ => false

/-- Two fields agree apart from what their nodes are. -/
def Content.sameShape : Content → Content → Bool
  | atom a, atom b => a.same b
  | node _, node _ => true
  | nodes ns, nodes ms => ns.length = ms.length
  | _, _ => false

namespace Node

/-- Two nodes agree apart from what their children are. -/
def sameShell (a b : Node) : Bool :=
  a.kind = b.kind && (a.contents.zip b.contents).all fun p => p.1.sameShape p.2

/-- Two nodes are equal. -/
def same (a b : Node) : Bool :=
  a.sameShell b && a.children.length = b.children.length
    && (a.children.attach.zip b.children).all fun p => p.1.1.same p.2
termination_by a
decreasing_by exact sizeOf_lt_of_mem_children p.1.2

end Node

end CallablePurity
