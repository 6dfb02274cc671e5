import CallablePurity.Walk.Event

set_option autoImplicit false

/-! # Hiding nested scopes

A closure, a nested function and a class have variables of their own. A `Gate` stands between a
walk and whoever watches it and lets through what happens in the outermost scope only: the node
that opens a nested scope is shown, all that lies below it is not. The gate closes when such a node
is entered and opens again when that very node is left. -/

namespace CallablePurity

/-- The node whose nested scope the walk is in, if any. -/
structure Gate where
  inside : Option NodeId
deriving DecidableEq

namespace Gate

/-- A gate that lets through what comes next. -/
def opened : Gate := ⟨none⟩

/-- The gate after an event, and the event itself if it is let through. -/
def step (g : Gate) : Event → Gate × Option Event
  | .before roots => (opened, some (.before roots))
  | .enter o =>
    match g.inside with
    | some _ => (g, none)
    | none => (if o.node.isBoundary then ⟨some o.id⟩ else g, some (.enter o))
  | .leave o =>
    match g.inside with
    | some id => if o.id = id then (opened, some (.leave o)) else (g, none)
    | none => (g, some (.leave o))
  | .after roots => (g, some (.after roots))

/-- The events that a gate lets through. -/
def pass (g : Gate) : List Event → List Event
  | [] => []
  | e :: rest =>
    match g.step e with
    | (g', none) => pass g' rest
    | (g', some shown) => shown :: pass g' rest

/-- The gate after several events. -/
def stepAll (g : Gate) (events : List Event) : Gate :=
  events.foldl (fun g e => (g.step e).1) g

theorem pass_cons (g : Gate) (e : Event) (rest : List Event) :
    g.pass (e :: rest) = (g.step e).2.toList ++ (g.step e).1.pass rest := by
  rw [pass]
  split <;> simp_all

/-- What a gate lets through of a longer walk: first of one part, then of the other. -/
theorem pass_append (g : Gate) (as bs : List Event) :
    g.pass (as ++ bs) = g.pass as ++ (g.stepAll as).pass bs := by
  induction as generalizing g with
  | nil => simp [pass, stepAll]
  | cons e as ih =>
    have h : g.stepAll (e :: as) = (g.step e).1.stepAll as := rfl
    rw [List.cons_append, pass_cons, pass_cons, ih, h, List.append_assoc]

/-- A gate shows an event as it is or not at all. -/
theorem eq_of_step_eq_some {g : Gate} {e shown : Event} (h : (g.step e).2 = some shown) :
    shown = e := by
  cases e with
  | before roots => simpa [step] using h.symm
  | after roots => simpa [step] using h.symm
  | enter o =>
    simp only [step] at h
    split at h
    · exact absurd h (by simp)
    · simpa using h.symm
  | leave o =>
    simp only [step] at h
    split at h
    · split at h
      · simpa using h.symm
      · exact absurd h (by simp)
    · simpa using h.symm

/-- An event passes gates one behind the other, the first of the list first. -/
def stepThrough : List Gate → Event → List Gate × Option Event
  | [], e => ([], some e)
  | g :: rest, e =>
    match g.step e with
    | (g', none) => (g' :: rest, none)
    | (g', some e') =>
      let (rest', shown) := stepThrough rest e'
      (g' :: rest', shown)

end Gate

/-- The events of a walk over the outermost scope of a sequence of trees. -/
def scopeWalk (roots : List Occurrence) : List Event :=
  Gate.opened.pass (walk roots)

end CallablePurity
