import CallablePurity.Tree.Label
import CallablePurity.Walk.Occurrence

set_option autoImplicit false

/-! # Events of a walk

A walk over a sequence of trees is the list of its events: it begins, enters every node before and
leaves it after all nodes below it, and ends. -/

namespace CallablePurity

inductive Event where
  | before (roots : List Occurrence)
  | enter (place : Occurrence)
  | leave (place : Occurrence)
  | after (roots : List Occurrence)

mutual

/-- The events of walking through one tree. -/
def Occurrence.tour : Occurrence → List Event
  | ⟨id, node, parts⟩ =>
    .enter ⟨id, node, parts⟩ :: (Occurrence.tours parts ++ [.leave ⟨id, node, parts⟩])

/-- The events of walking through trees one after the other. -/
def Occurrence.tours : List Occurrence → List Event
  | [] => []
  | o :: rest => o.tour ++ Occurrence.tours rest

end

theorem Occurrence.tour_eq (o : Occurrence) :
    o.tour = .enter o :: (Occurrence.tours o.parts ++ [.leave o]) := by
  cases o
  rw [Occurrence.tour]

/-- All events of a walk over a sequence of trees. -/
def walk (roots : List Occurrence) : List Event :=
  .before roots :: (Occurrence.tours roots ++ [.after roots])

/-- An event in a trace. -/
def Event.text : Event → String
  | before roots => "before " ++ toString roots.length
  | enter o => "enter " ++ o.node.label
  | leave o => "leave " ++ o.node.label
  | after roots => "after " ++ toString roots.length

end CallablePurity
