import CallablePurity.Proofs.Walk.Place
import CallablePurity.Walk.Watch
import Mathlib.Data.List.Perm.Basic

set_option autoImplicit false

/-! # Hiding nested scopes is pruning

A gate sees every event of a walk and hides some of them, with nothing to go by but the identity of
the node it waits for. This file says what is left: the events of the *pruned* trees, in which
nothing lies below a node that opens a nested scope (`Gate.shows_walk`). The gate may be in any
state before the walk; it is open afterwards.

The one assumption is that no object lies below itself. An object may occur at many places
otherwise: while the gate waits for an object, the walk is below it, so the next time that object is
left it is left for good. -/

namespace CallablePurity

namespace Occurrence

/-! ## Pruned trees -/

mutual

/-- The events of a walk through the outermost scope of a tree: a node that opens a nested scope is
    entered and left, and nothing below it is. -/
def scopeTour : Occurrence → List Event
  | ⟨id, node, parts⟩ =>
    .enter ⟨id, node, parts⟩
      :: ((if node.isBoundary then [] else scopeTours parts) ++ [.leave ⟨id, node, parts⟩])

/-- The events of walking through the outermost scopes of trees one after the other. -/
def scopeTours : List Occurrence → List Event
  | [] => []
  | o :: rest => o.scopeTour ++ scopeTours rest

end

theorem scopeTour_eq (o : Occurrence) :
    o.scopeTour
      = .enter o :: ((if o.node.isBoundary then [] else scopeTours o.parts) ++ [.leave o]) := by
  cases o
  rw [scopeTour]

theorem scopeTours_eq_flatMap (roots : List Occurrence) :
    scopeTours roots = roots.flatMap scopeTour := by
  induction roots with
  | nil => rw [scopeTours, List.flatMap_nil]
  | cons o rest ih => rw [scopeTours, ih, List.flatMap_cons]

end Occurrence

/-- All events of a walk over the outermost scopes of a sequence of trees. -/
def prunedWalk (roots : List Occurrence) : List Event :=
  .before roots :: (Occurrence.scopeTours roots ++ [.after roots])

/-! ## What a gate shows -/

namespace Gate

/-- Of the events the gate shows exactly `shown`, and it is `g'` after them. -/
structure Shows (g : Gate) (events shown : List Event) (g' : Gate) : Prop where
  pass_eq : g.pass events = shown
  stepAll_eq : g.stepAll events = g'

theorem Shows.nil (g : Gate) : Shows g [] [] g :=
  ⟨rfl, rfl⟩

theorem Shows.append {g₁ g₂ g₃ : Gate} {es es' shown shown' : List Event}
    (h : Shows g₁ es shown g₂) (h' : Shows g₂ es' shown' g₃) :
    Shows g₁ (es ++ es') (shown ++ shown') g₃ := by
  refine ⟨?_, ?_⟩
  · rw [pass_append, h.stepAll_eq, h.pass_eq, h'.pass_eq]
  · have hfold : g₁.stepAll (es ++ es') = (g₁.stepAll es).stepAll es' := List.foldl_append
    rw [hfold, h.stepAll_eq, h'.stepAll_eq]

theorem Shows.cons {g₁ g₂ g₃ : Gate} {e : Event} {shown? : Option Event} {es shown : List Event}
    (hstep : g₁.step e = (g₂, shown?)) (h : Shows g₂ es shown g₃) :
    Shows g₁ (e :: es) (shown?.toList ++ shown) g₃ := by
  refine ⟨?_, ?_⟩
  · rw [pass_cons, hstep, h.pass_eq]
  · have hfold : g₁.stepAll (e :: es) = (g₁.step e).1.stepAll es := rfl
    rw [hfold, hstep, h.stepAll_eq]

/-- A gate that treats each of several trees in some way and is the same after it treats them all
    that way, one after the other. -/
theorem shows_tours {g : Gate} {f : Occurrence → List Event} {parts : List Occurrence}
    (h : ∀ o ∈ parts, Shows g o.tour (f o) g) :
    Shows g (Occurrence.tours parts) (parts.flatMap f) g := by
  induction parts with
  | nil => exact Shows.nil g
  | cons o rest ih =>
    rw [Occurrence.tours, List.flatMap_cons]
    have hrest : ∀ o' ∈ rest, Shows g o'.tour (f o') g :=
      fun o' ho' => h o' (List.mem_cons_of_mem o ho')
    exact (h o List.mem_cons_self).append (ih hrest)

/-- A gate that shows nothing of each of several trees shows nothing of all of them. -/
theorem shows_tours_nil {g : Gate} {parts : List Occurrence}
    (h : ∀ o ∈ parts, Shows g o.tour [] g) : Shows g (Occurrence.tours parts) [] g := by
  have hnil : parts.flatMap (fun _ => ([] : List Event)) = [] :=
    List.flatMap_eq_nil_iff.2 fun _ _ => rfl
  rw [← hnil]
  exact shows_tours h

/-- A closed gate shows nothing of a tree in which the object it waits for does not occur. -/
theorem shows_tour_closed {id : NodeId} (o : Occurrence)
    (h : ∀ place, Occurrence.Within place [o] → place.id ≠ id) :
    Shows ⟨some id⟩ o.tour [] ⟨some id⟩ := by
  induction o using Occurrence.induction_parts with
  | step o ih =>
    have hinner : Shows ⟨some id⟩ (Occurrence.tours o.parts) [] ⟨some id⟩ :=
      shows_tours_nil fun part hpart => ih part hpart fun place hplace =>
        h place (.under List.mem_cons_self (hplace.of_mem hpart))
    have hid : o.id ≠ id := h o (.here List.mem_cons_self)
    have hleave : (Gate.mk (some id)).step (.leave o) = (⟨some id⟩, none) := if_neg hid
    rw [Occurrence.tour_eq]
    exact Shows.cons rfl (hinner.append (Shows.cons hleave (Shows.nil _)))

/-- An open gate shows the pruned tree and is open again after it. -/
theorem shows_tour_opened (o : Occurrence) (h : Occurrence.Acyclic [o]) :
    Shows opened o.tour o.scopeTour opened := by
  induction o using Occurrence.induction_parts with
  | step o ih =>
    rw [Occurrence.tour_eq, Occurrence.scopeTour_eq]
    by_cases hb : o.node.isBoundary = true
    · -- the gate closes here; the object it waits for does not occur below, so it opens at the end
      have hinner : Shows ⟨some o.id⟩ (Occurrence.tours o.parts) [] ⟨some o.id⟩ :=
        shows_tours_nil fun part hpart => shows_tour_closed part fun place hplace =>
          h o (.here List.mem_cons_self) place (hplace.of_mem hpart)
      have henter : opened.step (.enter o) = (⟨some o.id⟩, some (.enter o)) := by
        simp only [step, opened, hb, if_true]
      have hleave : (Gate.mk (some o.id)).step (.leave o) = (opened, some (.leave o)) := by
        simp only [step, if_true]
      rw [if_pos hb]
      exact Shows.cons henter (hinner.append (Shows.cons hleave (Shows.nil _)))
    · have hinner : Shows opened (Occurrence.tours o.parts) (Occurrence.scopeTours o.parts)
          opened := by
        rw [Occurrence.scopeTours_eq_flatMap]
        exact shows_tours fun part hpart =>
          ih part hpart ((h.parts List.mem_cons_self).of_mem hpart)
      have henter : opened.step (.enter o) = (opened, some (.enter o)) := by
        simp only [step, opened, hb, if_false, Bool.false_eq_true]
      have hleave : opened.step (.leave o) = (opened, some (.leave o)) := rfl
      rw [if_neg hb]
      exact Shows.cons henter (hinner.append (Shows.cons hleave (Shows.nil _)))

/-- Whatever its state, a gate shows the pruned walk and is open after it. -/
theorem shows_walk {roots : List Occurrence} (h : Occurrence.Acyclic roots) (g : Gate) :
    Shows g (walk roots) (prunedWalk roots) opened := by
  have htours : Shows opened (Occurrence.tours roots) (Occurrence.scopeTours roots) opened := by
    rw [Occurrence.scopeTours_eq_flatMap]
    exact shows_tours fun o ho => shows_tour_opened o (h.of_mem ho)
  exact Shows.cons rfl (htours.append (Shows.cons rfl (Shows.nil _)))

end Gate

/-! ## What a watcher behind a gate gets -/

/-- A watcher behind a gate fares as it would if it were fed what the gate shows, with no gate in
    between; unless it fails, the gate has seen all events. -/
theorem Watch.feed_gate {σ ε : Type} (react : σ → Event → Except ε σ) (g : Gate) (s : σ)
    (events : List Event) :
    (Watch.feed react ⟨[g], s⟩ events).1.state = (Watch.feed react ⟨[], s⟩ (g.pass events)).1.state
    ∧ (Watch.feed react ⟨[g], s⟩ events).2 = (Watch.feed react ⟨[], s⟩ (g.pass events)).2
    ∧ ((Watch.feed react ⟨[g], s⟩ events).2 = none →
        (Watch.feed react ⟨[g], s⟩ events).1.gates = [g.stepAll events]) := by
  induction events generalizing g s with
  | nil => exact ⟨rfl, rfl, fun _ => rfl⟩
  | cons e rest ih =>
    have hfold : g.stepAll (e :: rest) = (g.step e).1.stepAll rest := rfl
    rw [Gate.pass_cons, hfold]
    cases hstep : g.step e with
    | mk g' shown? =>
      cases shown? with
      | none =>
        simp only [Watch.feed, Gate.stepThrough, hstep, Option.toList_none, List.nil_append]
        exact ih g' s
      | some shown =>
        simp only [Watch.feed, Gate.stepThrough, hstep, Option.toList_some, List.cons_append,
          List.nil_append]
        cases react s shown with
        | ok s' => exact ih g' s'
        | error fault => exact ⟨rfl, rfl, fun hnone => nomatch hnone⟩

/-! ## Nesting -/

/-- Events that pair up: what is entered is left, after all that is entered meanwhile is left. -/
inductive Event.Nested : List Event → Prop
  | nil : Nested []
  | visit {o : Occurrence} {inner rest : List Event} :
      Nested inner → Nested rest → Nested (.enter o :: (inner ++ .leave o :: rest))

/-- The place that an event enters. -/
def Event.entered? : Event → Option Occurrence
  | enter o => some o
  | _ => none

/-- The place that an event leaves. -/
def Event.left? : Event → Option Occurrence
  | leave o => some o
  | _ => none

namespace Occurrence

/-- If the tours of trees can stand before nested events, so can the tours of all of them. -/
theorem nested_scopeTours_append {roots : List Occurrence}
    (h : ∀ o ∈ roots, ∀ {rest}, Event.Nested rest → Event.Nested (o.scopeTour ++ rest))
    {rest : List Event} (hrest : Event.Nested rest) :
    Event.Nested (scopeTours roots ++ rest) := by
  induction roots with
  | nil => exact hrest
  | cons o others ih =>
    rw [scopeTours, List.append_assoc]
    exact h o List.mem_cons_self (ih fun o' ho' => h o' (List.mem_cons_of_mem o ho'))

theorem nested_scopeTour_append (o : Occurrence) {rest : List Event}
    (hrest : Event.Nested rest) : Event.Nested (o.scopeTour ++ rest) := by
  induction o using induction_parts generalizing rest with
  | step o ih =>
    have hinner : Event.Nested (if o.node.isBoundary then [] else scopeTours o.parts) := by
      split
      · exact .nil
      · rw [← List.append_nil (scopeTours o.parts)]
        exact nested_scopeTours_append (fun part hpart => ih part hpart) .nil
    rw [scopeTour_eq, List.cons_append, List.append_assoc]
    exact .visit hinner hrest

theorem nested_scopeTours (roots : List Occurrence) : Event.Nested (scopeTours roots) := by
  rw [← List.append_nil (scopeTours roots)]
  exact nested_scopeTours_append (fun o _ => o.nested_scopeTour_append) .nil

/-- A pruned tour enters the places of the outermost scope, in order. -/
theorem entered_scopeTour (o : Occurrence) :
    o.scopeTour.filterMap Event.entered? = o.inScope := by
  induction o using induction_parts with
  | step o ih =>
    rw [scopeTour_eq, inScope_eq, scopeTours_eq_flatMap, inScopes_eq_flatMap]
    split
    · rfl
    · have hparts : (o.parts.flatMap scopeTour).filterMap Event.entered?
          = o.parts.flatMap inScope := by
        rw [List.filterMap_flatMap]
        exact List.flatMap_congr fun part hpart => ih part hpart
      simp [Event.entered?, hparts]

theorem entered_scopeTours (roots : List Occurrence) :
    (scopeTours roots).filterMap Event.entered? = inScopes roots := by
  rw [scopeTours_eq_flatMap, inScopes_eq_flatMap, List.filterMap_flatMap]
  exact List.flatMap_congr fun o _ => o.entered_scopeTour

/-- A pruned tour leaves each place of the outermost scope once, parts before the whole. -/
theorem left_scopeTour_perm (o : Occurrence) :
    (o.scopeTour.filterMap Event.left?).Perm o.inScope := by
  induction o using induction_parts with
  | step o ih =>
    rw [scopeTour_eq, inScope_eq, scopeTours_eq_flatMap, inScopes_eq_flatMap]
    split
    · exact List.Perm.refl _
    · have hparts : ((o.parts.flatMap scopeTour).filterMap Event.left?).Perm
          (o.parts.flatMap inScope) := by
        rw [List.filterMap_flatMap]
        exact List.Perm.flatMap_left _ fun part hpart => ih part hpart
      simp only [List.filterMap_cons, List.filterMap_append, Event.left?, List.filterMap_nil]
      exact (List.perm_append_singleton _ _).trans (hparts.cons o)

theorem left_scopeTours_perm (roots : List Occurrence) :
    ((scopeTours roots).filterMap Event.left?).Perm (inScopes roots) := by
  rw [scopeTours_eq_flatMap, inScopes_eq_flatMap, List.filterMap_flatMap]
  exact List.Perm.flatMap_left _ fun o _ => o.left_scopeTour_perm

end Occurrence

/-! ## Isolation -/

/-- **Isolating the outermost scope is pruning.** Whatever state an earlier walk left the gate in, a
    walk over trees in which no object lies below itself is shown as the walk over the pruned trees,
    to every watcher; the gate is open at the end. The trees are pruned below closures, functions
    and classes, and nowhere else. What is shown is properly nested, and each place of the outermost
    scope is entered once and left once; where the parts of places are the children of nodes, these
    are the nodes that a recursion over children meets, in its order. -/
theorem Gate.isolated_walk_eq_pruned {roots : List Occurrence} (h : Occurrence.Acyclic roots)
    (g : Gate) :
    g.pass (walk roots) = prunedWalk roots
    ∧ g.stepAll (walk roots) = opened
    ∧ (∀ {σ ε : Type} (react : σ → Event → Except ε σ) (s : σ),
        (Watch.feed react ⟨[g], s⟩ (walk roots)).1.state
            = (Watch.feed react ⟨[], s⟩ (prunedWalk roots)).1.state
        ∧ (Watch.feed react ⟨[g], s⟩ (walk roots)).2
            = (Watch.feed react ⟨[], s⟩ (prunedWalk roots)).2
        ∧ ((Watch.feed react ⟨[g], s⟩ (walk roots)).2 = none →
            (Watch.feed react ⟨[g], s⟩ (walk roots)).1.gates = [opened]))
    ∧ (∀ n : Node,
        n.isBoundary = true ↔ n.kind = .closure ∨ n.kind = .function ∨ n.kind = .classDecl)
    ∧ Event.Nested (Occurrence.scopeTours roots)
    ∧ (prunedWalk roots).filterMap Event.entered? = Occurrence.inScopes roots
    ∧ ((prunedWalk roots).filterMap Event.left?).Perm (Occurrence.inScopes roots)
    ∧ (Occurrence.Placed roots →
        (Occurrence.inScopes roots).map Occurrence.node
          = (roots.map Occurrence.node).flatMap Node.scope) := by
  have hshows := shows_walk h g
  refine ⟨hshows.pass_eq, hshows.stepAll_eq, ?_, Node.isBoundary_iff,
    Occurrence.nested_scopeTours roots, ?_, ?_, Occurrence.map_node_inScopes⟩
  · intro σ ε react s
    have hfeed := Watch.feed_gate react g s (walk roots)
    rwa [hshows.pass_eq, hshows.stepAll_eq] at hfeed
  · simp only [prunedWalk, List.filterMap_cons, List.filterMap_append, Event.entered?,
      List.filterMap_nil, List.append_nil]
    exact Occurrence.entered_scopeTours roots
  · simp only [prunedWalk, List.filterMap_cons, List.filterMap_append, Event.left?,
      List.filterMap_nil, List.append_nil]
    exact Occurrence.left_scopeTours_perm roots

/-- A closure with another one in it, one object at two places, seen through a gate that an earlier
    walk left waiting for that very object. -/
theorem Gate.isolated_walk_of_shared_closure :
    let inner : Closure := ⟨[], [], [], false, false, none⟩
    let outer : Closure := ⟨[], [], [.expression (.closure inner)], false, false, none⟩
    let place := Occurrence.ofNode [0] (.expr (.closure outer))
    Occurrence.Acyclic [place, place]
    ∧ (Gate.mk (some [0])).pass (walk [place, place])
        = [.before [place, place], .enter place, .leave place, .enter place, .leave place,
            .after [place, place]] := by
  intro inner outer place
  have hacyclic : Occurrence.Acyclic [place, place] := by
    refine Occurrence.acyclic_of_ofNode fun o ho => ⟨[0], .expr (.closure outer), ?_⟩
    simpa using ho
  have htour : place.scopeTour = [.enter place, .leave place] := by
    rw [Occurrence.scopeTour_eq, Occurrence.node_ofNode]
    rfl
  refine ⟨hacyclic, ?_⟩
  rw [(isolated_walk_eq_pruned hacyclic ⟨some [0]⟩).1, prunedWalk,
    Occurrence.scopeTours_eq_flatMap]
  simp only [List.flatMap_cons, List.flatMap_nil, htour, List.cons_append, List.nil_append]

end CallablePurity
