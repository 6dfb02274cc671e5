import CallablePurity.Walk.Gate

set_option autoImplicit false

/-! # Watching a walk

A watcher has a state that every event shown to it changes, or that it fails to change. `Watch` is
a watcher behind a row of gates: each event passes the gates first, and a failure of the watcher
ends the walk there, with the gates already moved. -/

namespace CallablePurity

variable {σ ε : Type}

/-- The state of a watcher and of the gates in front of it. -/
structure Watch (σ : Type) where
  gates : List Gate
  state : σ

/-- Shows events to a watcher behind gates, until it fails. -/
def Watch.feed (react : σ → Event → Except ε σ) (w : Watch σ) : List Event → Watch σ × Option ε
  | [] => (w, none)
  | e :: rest =>
    match Gate.stepThrough w.gates e with
    | (gates, none) => feed react ⟨gates, w.state⟩ rest
    | (gates, some shown) =>
      match react w.state shown with
      | .ok state => feed react ⟨gates, state⟩ rest
      | .error fault => (⟨gates, w.state⟩, some fault)

/-- A watcher that writes down every event it is shown. -/
def record (seen : List Event) (e : Event) : List Event :=
  seen ++ [e]

end CallablePurity
