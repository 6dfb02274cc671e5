import CallablePurity.Proofs.Walk.Place
import Mathlib.Data.List.Lex

set_option autoImplicit false

/-! # Addresses of places

A place in a sequence of trees has an address: the number of its root, then for each step down the
number of a child. An address says which nodes lie on the way (`Node.trailIn?`), so that the node at
the place and its ancestors can be spoken of without a walk; no way leads on from a node that opens
a scope of its own.

Lexicographic order of addresses is pre-order: a place comes before the places below it, and these
come before the places below its later siblings. `Node.Preorder` says of a list that it holds all
addresses of the outermost scope in this order, which leaves no choice; `Node.placesIn` is that
list. -/

namespace CallablePurity

namespace Node

/-! ## Trails -/

/-- The nodes on the way down from a node to a place in its outermost scope, both ends included. -/
def trail? (n : Node) : List Nat → Option (List Node)
  | [] => some [n]
  | i :: rest =>
    if n.isBoundary then none
    else n.children[i]?.bind fun child => (child.trail? rest).map (n :: ·)

/-- The nodes on the way down from a root to the place with an address, both ends included. -/
def trailIn? (nodes : List Node) : List Nat → Option (List Node)
  | [] => none
  | i :: rest => nodes[i]?.bind fun n => n.trail? rest

theorem trail?_cons {n : Node} (h : n.isBoundary = false) (i : Nat) (rest : List Nat) :
    n.trail? (i :: rest) = (trailIn? n.children (i :: rest)).map (n :: ·) := by
  rw [trail?, h, trailIn?, Option.map_bind]
  rfl

/-- The list holds the addresses of the outermost scopes of the trees: each of them, in
    pre-order. -/
structure Preorder (nodes : List Node) (places : List (List Nat)) : Prop where
  sorted : places.Pairwise (· < ·)
  mem_iff : ∀ address, address ∈ places ↔ (trailIn? nodes address).isSome = true

/-! ## Lists of addresses -/

/-- Puts in front of each address the number of the list it is from. -/
def numbered (lists : List (List (List Nat))) : List (List Nat) :=
  lists.zipIdx.flatMap fun p => p.1.map (p.2 :: ·)

/-- The addresses of the outermost scope of a tree, seen from its root. -/
def places (n : Node) : List (List Nat) :=
  [] :: (if n.isBoundary then [] else numbered (n.children.attach.map fun child => child.1.places))
termination_by n
decreasing_by exact Node.sizeOf_lt_of_mem_children child.2

/-- The addresses of the outermost scopes of trees. -/
def placesIn (nodes : List Node) : List (List Nat) :=
  numbered (nodes.map places)

theorem places_eq (n : Node) :
    n.places = [] :: (if n.isBoundary then [] else placesIn n.children) := by
  rw [places, placesIn, List.attach_map_val (f := places)]

theorem mem_numbered_iff (lists : List (List (List Nat))) (address : List Nat) :
    address ∈ numbered lists
      ↔ ∃ i rest, address = i :: rest ∧ ∃ list, lists[i]? = some list ∧ rest ∈ list := by
  constructor
  · intro h
    obtain ⟨p, hp, hmem⟩ := List.mem_flatMap.1 h
    obtain ⟨rest, hrest, rfl⟩ := List.mem_map.1 hmem
    exact ⟨p.2, rest, rfl, p.1, List.mem_zipIdx_iff_getElem?.1 hp, hrest⟩
  · rintro ⟨i, rest, rfl, list, hlist, hrest⟩
    refine List.mem_flatMap.2 ⟨(list, i), List.mem_zipIdx_iff_getElem?.2 hlist, ?_⟩
    exact List.mem_map_of_mem hrest

/-- Sorted lists stay sorted, and the lists keep their order. -/
theorem sorted_numbered {lists : List (List (List Nat))}
    (h : ∀ list ∈ lists, list.Pairwise (· < ·)) : (numbered lists).Pairwise (· < ·) := by
  have hindices : lists.zipIdx.Pairwise fun p q => p.2 < q.2 := by
    have hrange : (lists.zipIdx.map Prod.snd).Pairwise (· < ·) := by
      rw [List.zipIdx_map_snd]
      exact List.pairwise_lt_range'
    exact List.pairwise_map.1 hrange
  refine List.pairwise_flatMap.2 ⟨?_, ?_⟩
  · intro p hp
    refine List.pairwise_map.2 ((h p.1 (List.fst_mem_of_mem_zipIdx hp)).imp ?_)
    intro a b hab
    exact List.cons_lt_cons_iff.2 (Or.inr ⟨rfl, hab⟩)
  · refine hindices.imp ?_
    intro p q hpq a ha b hb
    obtain ⟨_, -, rfl⟩ := List.mem_map.1 ha
    obtain ⟨_, -, rfl⟩ := List.mem_map.1 hb
    exact List.cons_lt_cons_iff.2 (Or.inl hpq)

theorem mem_placesIn_iff {nodes : List Node}
    (h : ∀ n ∈ nodes, ∀ address, address ∈ n.places ↔ (n.trail? address).isSome = true)
    (address : List Nat) :
    address ∈ placesIn nodes ↔ (trailIn? nodes address).isSome = true := by
  rw [placesIn, mem_numbered_iff]
  cases address with
  | nil => simp [trailIn?]
  | cons i rest =>
    cases hi : nodes[i]? with
    | none => simp [trailIn?, hi]
    | some n => simp [trailIn?, hi, h n (List.mem_of_getElem? hi)]

theorem mem_places_iff (n : Node) (address : List Nat) :
    address ∈ n.places ↔ (n.trail? address).isSome = true := by
  induction n using Node.induction_children generalizing address with
  | step n ih =>
    rw [places_eq]
    cases address with
    | nil => simp [trail?]
    | cons i rest =>
      cases hb : n.isBoundary with
      | true => simp [trail?, hb]
      | false =>
        rw [trail?_cons hb, Option.isSome_map, ← mem_placesIn_iff ih]
        simp

theorem sorted_places (n : Node) : n.places.Pairwise (· < ·) := by
  induction n using Node.induction_children with
  | step n ih =>
    rw [places_eq]
    split
    · exact List.pairwise_singleton _ _
    · refine List.pairwise_cons.2 ⟨?_, ?_⟩
      · intro address haddress
        obtain ⟨i, rest, rfl, -⟩ := (mem_numbered_iff _ _).1 haddress
        exact List.nil_lt_cons i rest
      · refine sorted_numbered ?_
        intro list hlist
        obtain ⟨child, hchild, rfl⟩ := List.mem_map.1 hlist
        exact ih child hchild

theorem preorder_placesIn (nodes : List Node) : Preorder nodes (placesIn nodes) where
  sorted := by
    refine sorted_numbered ?_
    intro list hlist
    obtain ⟨n, -, rfl⟩ := List.mem_map.1 hlist
    exact n.sorted_places
  mem_iff := mem_placesIn_iff fun n _ => n.mem_places_iff

/-! ## Trails, in pre-order -/

/-- The trails to the places of a tree, in pre-order. -/
def trails (n : Node) : List (List Node) :=
  n.places.filterMap n.trail?

/-- The trails to the places of trees, in pre-order. -/
def trailsIn (nodes : List Node) : List (List Node) :=
  (placesIn nodes).filterMap (trailIn? nodes)

theorem trailsIn_eq_flatMap (nodes : List Node) : trailsIn nodes = nodes.flatMap trails := by
  have hlist (p : Node × Nat) (hp : p ∈ nodes.zipIdx) :
      (p.1.places.map (p.2 :: ·)).filterMap (trailIn? nodes) = p.1.trails := by
    have hnode : nodes[p.2]? = some p.1 := List.mem_zipIdx_iff_getElem?.1 hp
    rw [List.filterMap_map]
    refine List.filterMap_congr fun rest _ => ?_
    simp [trailIn?, hnode]
  rw [trailsIn, placesIn, numbered, List.zipIdx_map, List.flatMap_map, List.filterMap_flatMap]
  calc nodes.zipIdx.flatMap (fun p => (p.1.places.map (p.2 :: ·)).filterMap (trailIn? nodes))
      = nodes.zipIdx.flatMap (fun p => p.1.trails) := List.flatMap_congr hlist
    _ = (nodes.zipIdx.map Prod.fst).flatMap trails := (List.flatMap_map ..).symm
    _ = nodes.flatMap trails := by rw [List.zipIdx_map_fst]

/-- The trails of a node go on to its children. -/
theorem trails_eq (n : Node) :
    n.trails = [n] :: (if n.isBoundary then [] else (n.children.flatMap trails).map (n :: ·)) := by
  have hself : n.trail? [] = some [n] := rfl
  rw [trails, places_eq, List.filterMap_cons_some hself]
  cases hb : n.isBoundary with
  | true => rfl
  | false =>
    have hbelow : (placesIn n.children).filterMap n.trail?
        = (placesIn n.children).filterMap fun address =>
            (trailIn? n.children address).map (n :: ·) := by
      refine List.filterMap_congr fun address haddress => ?_
      obtain ⟨i, rest, rfl, -⟩ := (mem_numbered_iff _ _).1 haddress
      exact trail?_cons hb i rest
    show [n] :: (placesIn n.children).filterMap n.trail? = _
    rw [hbelow, ← List.map_filterMap, ← trailsIn, trailsIn_eq_flatMap]
    rfl

/-- What is read off the trails of a node is read off the node itself and off the trails of its
    children. -/
theorem filterMap_trails {α : Type} (f : List Node → Option α) (n : Node) :
    n.trails.filterMap f
      = (f [n]).toList
        ++ (if n.isBoundary then []
            else n.children.flatMap fun child =>
              child.trails.filterMap fun trail => f (n :: trail)) := by
  have hself (trails : List (List Node)) :
      ([n] :: trails).filterMap f = (f [n]).toList ++ trails.filterMap f := by
    cases hf : f [n] with
    | none => rw [List.filterMap_cons_none hf, Option.toList_none, List.nil_append]
    | some a =>
      rw [List.filterMap_cons_some hf, Option.toList_some, List.cons_append, List.nil_append]
  rw [trails_eq, hself]
  split
  · rfl
  · rw [List.filterMap_map, List.filterMap_flatMap]
    rfl

/-- Every place of the list has a trail. -/
theorem Preorder.map_trailIn? {nodes : List Node} {places : List (List Nat)}
    (h : Preorder nodes places) :
    places.map (trailIn? nodes) = (places.filterMap (trailIn? nodes)).map some := by
  rw [List.map_filterMap, ← List.filterMap_eq_map]
  refine List.filterMap_congr fun address haddress => ?_
  obtain ⟨trail, htrail⟩ := Option.isSome_iff_exists.1 ((h.mem_iff address).1 haddress)
  rw [Function.comp_apply, htrail]
  rfl

end Node

end CallablePurity
