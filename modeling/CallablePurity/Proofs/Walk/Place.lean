import CallablePurity.Walk.Occurrence
import Mathlib.Data.List.Basic

set_option autoImplicit false

/-! # Places of a tree and its outermost scope

A sequence of trees, as a walk meets it, is a list of occurrences. Two things are asked of them: no
object lies below itself (`Occurrence.Acyclic`), and the parts of a place are the children of its
node, in order (`Occurrence.Placed`). How often an object occurs is left open. Trees made from
scratch, where the identity of a place is its path, have both. The first follows where an identity
belongs to one object (`Occurrence.Identified`), since trees are finite.

The *outermost scope* of a tree is the tree without what lies below the nodes that open a scope of
their own. Its places are `Occurrence.inScope`; they hold the nodes `Node.scope`, which depend on
the tree alone. -/

namespace CallablePurity

/-! ## Induction -/

/-- A property of a node that follows from the same property of its children holds of all nodes. -/
@[elab_as_elim]
theorem Node.induction_children {motive : Node → Prop}
    (step : ∀ n, (∀ child ∈ n.children, motive child) → motive n) (n : Node) : motive n :=
  step n fun child _ => induction_children step child
termination_by sizeOf n
decreasing_by exact Node.sizeOf_lt_of_mem_children ‹child ∈ n.children›

namespace Occurrence

/-- A property of a place that follows from the same property of its parts holds of all places. -/
@[elab_as_elim]
theorem induction_parts {motive : Occurrence → Prop}
    (step : ∀ o, (∀ part ∈ o.parts, motive part) → motive o) (o : Occurrence) : motive o :=
  step o fun part _ => induction_parts step part
termination_by sizeOf o
decreasing_by
  have hlt := List.sizeOf_lt_of_mem ‹part ∈ o.parts›
  cases o
  simp only [Occurrence.mk.sizeOf_spec] at hlt ⊢
  omega

/-! ## Well-formed places -/

/-- The place is one of the given ones or lies below one of them. -/
inductive Within (place : Occurrence) : List Occurrence → Prop
  | here {roots : List Occurrence} : place ∈ roots → Within place roots
  | under {roots : List Occurrence} {o : Occurrence} :
      o ∈ roots → Within place o.parts → Within place roots

theorem Within.of_mem {place o : Occurrence} {roots : List Occurrence} (h : Within place [o])
    (ho : o ∈ roots) : Within place roots := by
  cases h with
  | here hmem => exact .here (List.mem_singleton.1 hmem ▸ ho)
  | under hmem hunder => exact .under (List.mem_singleton.1 hmem ▸ ho) hunder

/-- No object lies below itself. -/
def Acyclic (roots : List Occurrence) : Prop :=
  ∀ place, Within place roots → ∀ inner, Within inner place.parts → inner.id ≠ place.id

theorem Acyclic.of_mem {roots : List Occurrence} {o : Occurrence} (h : Acyclic roots)
    (ho : o ∈ roots) : Acyclic [o] :=
  fun place hplace => h place (hplace.of_mem ho)

theorem Acyclic.parts {roots : List Occurrence} {o : Occurrence} (h : Acyclic roots)
    (ho : o ∈ roots) : Acyclic o.parts :=
  fun place hplace => h place (.under ho hplace)

/-- The parts of each place are the children of its node, in order. -/
def Placed (roots : List Occurrence) : Prop :=
  ∀ place, Within place roots → place.parts.map node = place.node.children

theorem Placed.of_mem {roots : List Occurrence} {o : Occurrence} (h : Placed roots)
    (ho : o ∈ roots) : Placed [o] :=
  fun place hplace => h place (hplace.of_mem ho)

theorem Placed.parts {roots : List Occurrence} {o : Occurrence} (h : Placed roots)
    (ho : o ∈ roots) : Placed o.parts :=
  fun place hplace => h place (.under ho hplace)

theorem Within.trans {place inner : Occurrence} {roots : List Occurrence}
    (h : Within place roots) (hinner : Within inner place.parts) : Within inner roots := by
  induction h with
  | here hmem => exact .under hmem hinner
  | under hmem _ ih => exact .under hmem ih

theorem Placed.of_within {roots : List Occurrence} {o : Occurrence} (h : Placed roots)
    (ho : Within o roots) : Placed [o] := by
  intro place hplace
  cases hplace with
  | here hmem => exact h place (List.mem_singleton.1 hmem ▸ ho)
  | under hmem hbelow =>
    rw [List.mem_singleton.1 hmem] at hbelow
    exact h place (ho.trans hbelow)

theorem Within.sizeOf_lt {place : Occurrence} {roots : List Occurrence} (h : Within place roots) :
    sizeOf place < sizeOf roots := by
  induction h with
  | here hmem => exact List.sizeOf_lt_of_mem hmem
  | @under roots o hmem _ ih =>
    have hlt := List.sizeOf_lt_of_mem hmem
    cases o
    simp only [Occurrence.mk.sizeOf_spec] at hlt ih
    omega

/-- An identity belongs to one object: places with the same identity are the same, with all that
    lies below them. -/
def Identified (roots : List Occurrence) : Prop :=
  ∀ place place', Within place roots → Within place' roots → place.id = place'.id → place = place'

theorem Identified.acyclic {roots : List Occurrence} (h : Identified roots) : Acyclic roots := by
  intro place hplace inner hinner heq
  have hsame : inner = place := h inner place (hplace.trans hinner) hplace heq
  have hlt := hinner.sizeOf_lt
  rw [hsame] at hlt
  cases place
  simp only [Occurrence.mk.sizeOf_spec] at hlt
  omega

/-! ## Trees made from scratch -/

theorem map_node_ofNode (ns : List Node) (f : Node × Nat → NodeId) (k : Nat) :
    ((ns.zipIdx k).map fun p => ofNode (f p) p.1).map node = ns := by
  rw [List.map_map]
  have hcomp : node ∘ (fun p : Node × Nat => ofNode (f p) p.1) = Prod.fst := by
    funext p
    exact node_ofNode (f p) p.1
  rw [hcomp, List.zipIdx_map_fst]

/-- All places of trees whose identities are paths have paths as identities, and none is shorter
    than those of the roots. -/
theorem Within.exists_ofNode {place : Occurrence} {roots : List Occurrence} {k : Nat}
    (h : Within place roots) (hroots : ∀ o ∈ roots, ∃ id n, o = ofNode id n ∧ k ≤ id.length) :
    ∃ id n, place = ofNode id n ∧ k ≤ id.length := by
  induction h with
  | here hmem => exact hroots _ hmem
  | under hmem _ ih =>
    obtain ⟨id, n, rfl, hk⟩ := hroots _ hmem
    refine ih fun part hpart => ?_
    rw [parts_ofNode, List.mem_map] at hpart
    obtain ⟨p, -, rfl⟩ := hpart
    exact ⟨p.2 :: id, p.1, rfl, Nat.le_succ_of_le hk⟩

section Scratch

variable {roots : List Occurrence} (h : ∀ o ∈ roots, ∃ id n, o = ofNode id n)

include h

theorem exists_ofNode_of_within {place : Occurrence} (hplace : Within place roots) :
    ∃ id n, place = ofNode id n := by
  have hroots : ∀ o ∈ roots, ∃ id n, o = ofNode id n ∧ 0 ≤ id.length := fun o ho =>
    let ⟨id, n, ho⟩ := h o ho
    ⟨id, n, ho, Nat.zero_le _⟩
  obtain ⟨id, n, hplace, -⟩ := hplace.exists_ofNode hroots
  exact ⟨id, n, hplace⟩

/-- A place has a shorter path than the places below it. -/
theorem acyclic_of_ofNode : Acyclic roots := by
  intro place hplace inner hinner heq
  obtain ⟨id, n, rfl⟩ := exists_ofNode_of_within h hplace
  have hparts : ∀ part ∈ (ofNode id n).parts,
      ∃ id' n', part = ofNode id' n' ∧ id.length + 1 ≤ id'.length := by
    intro part hpart
    rw [parts_ofNode, List.mem_map] at hpart
    obtain ⟨p, -, rfl⟩ := hpart
    exact ⟨p.2 :: id, p.1, rfl, Nat.le_refl _⟩
  obtain ⟨id', n', rfl, hlt⟩ := hinner.exists_ofNode hparts
  rw [id_ofNode, id_ofNode] at heq
  rw [heq] at hlt
  exact Nat.not_succ_le_self _ hlt

theorem placed_of_ofNode : Placed roots := by
  intro place hplace
  obtain ⟨id, n, rfl⟩ := exists_ofNode_of_within h hplace
  rw [parts_ofNode, map_node_ofNode, node_ofNode]

end Scratch

/-- The place that is reached by going down to the parts with the given numbers. -/
def at? (o : Occurrence) : List Nat → Option Occurrence
  | [] => some o
  | i :: rest => o.parts[i]?.bind fun part => part.at? rest

/-- The identity of a place says how to get to it from its root. -/
theorem Within.exists_at? {place : Occurrence} {roots : List Occurrence}
    (hplace : Within place roots) (h : ∀ o ∈ roots, ∃ id n, o = ofNode id n) :
    ∃ o ∈ roots, ∃ way, place.id = way.reverse ++ o.id ∧ o.at? way = some place := by
  induction hplace with
  | here hmem => exact ⟨place, hmem, [], rfl, rfl⟩
  | @under roots o hmem _ ih =>
    obtain ⟨id, n, rfl⟩ := h o hmem
    have hparts : ∀ part ∈ (ofNode id n).parts, ∃ id' n', part = ofNode id' n' := by
      intro part hpart
      rw [parts_ofNode, List.mem_map] at hpart
      obtain ⟨p, -, rfl⟩ := hpart
      exact ⟨_, _, rfl⟩
    obtain ⟨part, hpart, way, hid, hway⟩ := ih hparts
    rw [parts_ofNode, List.mem_map] at hpart
    obtain ⟨p, hp, rfl⟩ := hpart
    have hchild : n.children[p.2]? = some p.1 := List.mem_zipIdx_iff_getElem?.1 hp
    refine ⟨ofNode id n, hmem, p.2 :: way, ?_, ?_⟩
    · rw [hid, id_ofNode, id_ofNode, List.reverse_cons, List.append_assoc]
      rfl
    · have hpart : (ofNode id n).parts[p.2]? = some (ofNode (p.2 :: id) p.1) := by
        rw [parts_ofNode, List.getElem?_map, List.getElem?_zipIdx, hchild]
        simp
      rw [at?, hpart]
      exact hway

/-- Trees made from scratch are identified if their roots are; an identity of a root is one
    number. -/
theorem identified_of_ofNode {roots : List Occurrence}
    (h : ∀ o ∈ roots, ∃ i n, o = ofNode [i] n)
    (hroots : ∀ o ∈ roots, ∀ o' ∈ roots, o.id = o'.id → o = o') : Identified roots := by
  have hscratch : ∀ o ∈ roots, ∃ id n, o = ofNode id n := fun o ho =>
    let ⟨i, n, ho⟩ := h o ho
    ⟨[i], n, ho⟩
  have hlength : ∀ o ∈ roots, o.id.length = 1 := by
    intro o ho
    obtain ⟨i, n, rfl⟩ := h o ho
    rw [id_ofNode, List.length_singleton]
  intro place place' hplace hplace' heq
  obtain ⟨o, ho, way, hid, hway⟩ := hplace.exists_at? hscratch
  obtain ⟨o', ho', way', hid', hway'⟩ := hplace'.exists_at? hscratch
  have hsplit : way.reverse ++ o.id = way'.reverse ++ o'.id := by
    rw [← hid, ← hid', heq]
  obtain ⟨hreverse, hrootId⟩ := List.append_inj' hsplit (by rw [hlength o ho, hlength o' ho'])
  rw [List.reverse_inj.1 hreverse, hroots o ho o' ho' hrootId, hway'] at hway
  exact (Option.some.inj hway).symm

theorem forest_eq_ofNode (nodes : List Node) : ∀ o ∈ forest nodes, ∃ id n, o = ofNode id n := by
  intro o ho
  obtain ⟨p, -, rfl⟩ := List.mem_map.1 ho
  exact ⟨[p.2], p.1, rfl⟩

theorem acyclic_forest (nodes : List Node) : Acyclic (forest nodes) :=
  acyclic_of_ofNode (forest_eq_ofNode nodes)

theorem placed_forest (nodes : List Node) : Placed (forest nodes) :=
  placed_of_ofNode (forest_eq_ofNode nodes)

theorem identified_forest (nodes : List Node) : Identified (forest nodes) := by
  refine identified_of_ofNode ?_ ?_
  · intro o ho
    obtain ⟨p, -, rfl⟩ := List.mem_map.1 ho
    exact ⟨p.2, p.1, rfl⟩
  · intro o ho o' ho' hid
    obtain ⟨⟨n, i⟩, hp, rfl⟩ := List.mem_map.1 ho
    obtain ⟨⟨n', i'⟩, hp', rfl⟩ := List.mem_map.1 ho'
    have hn : nodes[i]? = some n := List.mem_zipIdx_iff_getElem?.1 hp
    have hn' : nodes[i']? = some n' := List.mem_zipIdx_iff_getElem?.1 hp'
    obtain rfl : i = i' := by simpa using hid
    obtain rfl : n = n' := Option.some.inj (hn.symm.trans hn')
    rfl

theorem map_node_forest (nodes : List Node) : (forest nodes).map node = nodes :=
  map_node_ofNode nodes _ 0

end Occurrence

/-! ## The outermost scope -/

mutual

/-- The places in the outermost scope of a tree, each before those below it. -/
def Occurrence.inScope : Occurrence → List Occurrence
  | ⟨id, node, parts⟩ =>
    ⟨id, node, parts⟩ :: (if node.isBoundary then [] else Occurrence.inScopes parts)

/-- The places in the outermost scopes of trees, one tree after the other. -/
def Occurrence.inScopes : List Occurrence → List Occurrence
  | [] => []
  | o :: rest => o.inScope ++ Occurrence.inScopes rest

end

/-- The nodes in the outermost scope of a tree, each before those below it. -/
def Node.scope (n : Node) : List Node :=
  n :: (if n.isBoundary then [] else n.children.attach.flatMap fun child => child.1.scope)
termination_by n
decreasing_by exact Node.sizeOf_lt_of_mem_children child.2

theorem Node.scope_eq (n : Node) :
    n.scope = n :: (if n.isBoundary then [] else n.children.flatMap Node.scope) := by
  rw [Node.scope, List.flatMap_subtype (g := Node.scope) fun _ _ => rfl, List.unattach_attach]

namespace Occurrence

theorem inScope_eq (o : Occurrence) :
    o.inScope = o :: (if o.node.isBoundary then [] else inScopes o.parts) := by
  cases o
  rw [inScope]

theorem inScopes_eq_flatMap (roots : List Occurrence) :
    inScopes roots = roots.flatMap inScope := by
  induction roots with
  | nil => rw [inScopes, List.flatMap_nil]
  | cons o rest ih => rw [inScopes, ih, List.flatMap_cons]

theorem map_node_inScope (o : Occurrence) (h : Placed [o]) : o.inScope.map node = o.node.scope := by
  induction o using induction_parts with
  | step o ih =>
    rw [inScope_eq, Node.scope_eq, inScopes_eq_flatMap, List.map_cons]
    split
    · rfl
    · have hchildren : o.parts.map node = o.node.children := h o (.here List.mem_cons_self)
      rw [List.map_flatMap, ← hchildren, List.flatMap_map]
      have hparts : ∀ part ∈ o.parts, part.inScope.map node = part.node.scope :=
        fun part hpart => ih part hpart ((h.parts List.mem_cons_self).of_mem hpart)
      rw [List.flatMap_congr hparts]

/-- The nodes in the outermost scope do not depend on which places share an object. -/
theorem map_node_inScopes {roots : List Occurrence} (h : Placed roots) :
    (inScopes roots).map node = (roots.map node).flatMap Node.scope := by
  rw [inScopes_eq_flatMap, List.map_flatMap, List.flatMap_map]
  exact List.flatMap_congr fun o ho => o.map_node_inScope (h.of_mem ho)

end Occurrence

end CallablePurity
