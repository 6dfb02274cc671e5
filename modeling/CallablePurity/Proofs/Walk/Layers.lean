import CallablePurity.Walk.Watch

set_option autoImplicit false

/-! # Several gates one behind the other

A watcher behind several gates is shown what it is shown behind one. The gates may be called in any
order, and not only by walks: a node may be left that was never entered, an entered one may never be
left, and the watcher may fail meanwhile. So there is no tree to go by. What holds at every moment
is that all gates of the row are in the same state: an event that the first gate hides leaves it as
it was (`Gate.step_of_hidden`), and one that it shows reaches the next gate, which moves in the same
way (`Gate.stepThrough_replicate`). -/

namespace CallablePurity

namespace Gate

/-- A gate that hides an event stays as it is. -/
theorem step_of_hidden {g : Gate} {e : Event} (h : (g.step e).2 = none) : (g.step e).1 = g := by
  cases e with
  | before roots => cases h
  | after roots => cases h
  | enter o =>
    simp only [step] at h ⊢
    split at h
    · rfl
    · cases h
  | leave o =>
    simp only [step] at h ⊢
    split at h
    · split at h
      · cases h
      · next hne => rw [if_neg hne]
    · cases h

/-- Gates in the same state move together, and show what one of them shows. -/
theorem stepThrough_replicate (g : Gate) (n : Nat) (e : Event) :
    stepThrough (List.replicate (n + 1) g) e
      = (List.replicate (n + 1) (g.step e).1, (g.step e).2) := by
  induction n with
  | zero =>
    rw [List.replicate_one, stepThrough]
    split
    · next g' hstep => simp [hstep]
    · next g' shown hstep => simp [hstep, stepThrough]
  | succ n ih =>
    rw [List.replicate_succ, stepThrough]
    split
    · -- the gates behind do not get the event, so the first one must not have moved either
      next g' hstep =>
      have hstays : g' = g := by
        have hhidden := step_of_hidden (congrArg Prod.snd hstep)
        rwa [hstep] at hhidden
      rw [hstep, hstays, ← List.replicate_succ]
    · next g' shown hstep =>
      have hsame : shown = e := eq_of_step_eq_some (congrArg Prod.snd hstep)
      rw [hsame, ih, hstep, hsame]
      rfl

end Gate

namespace Watch

variable {σ ε : Type}

/-! ## Calls that are made whatever happens -/

/-- Calls a watcher behind gates with events one after the other, also after failures. `hook` gives
    the next state of the watcher, and its failure if it fails. The log has the events that reach
    the watcher, each with the failure that it leads to. -/
def session (hook : σ → Event → σ × Option ε) (w : Watch σ) :
    List Event → Watch σ × List (Event × Option ε)
  | [] => (w, [])
  | e :: rest =>
    match Gate.stepThrough w.gates e with
    | (gates, none) => session hook ⟨gates, w.state⟩ rest
    | (gates, some shown) =>
      let (state, fault?) := hook w.state shown
      let (final, log) := session hook ⟨gates, state⟩ rest
      (final, (shown, fault?) :: log)

/-- A session behind gates in the same state goes as behind one of them. The gates are in the same
    state after it, and the events that reach the watcher are those that one gate shows. -/
theorem session_replicate (hook : σ → Event → σ × Option ε) (g : Gate) (s : σ)
    (calls : List Event) :
    ∃ s' log, log.map Prod.fst = g.pass calls ∧ ∀ n,
      session hook ⟨List.replicate (n + 1) g, s⟩ calls
        = (⟨List.replicate (n + 1) (g.stepAll calls), s'⟩, log) := by
  induction calls generalizing g s with
  | nil => exact ⟨s, [], rfl, fun _ => rfl⟩
  | cons e rest ih =>
    have hfold : g.stepAll (e :: rest) = (g.step e).1.stepAll rest := rfl
    simp only [session, Gate.stepThrough_replicate, Gate.pass_cons, hfold]
    cases (g.step e).2 with
    | none => exact ih (g.step e).1 s
    | some shown =>
      obtain ⟨s', log, hlog, hrest⟩ := ih (g.step e).1 (hook s shown).1
      refine ⟨s', (shown, (hook s shown).2) :: log, ?_, ?_⟩
      · rw [List.map_cons, hlog]
        rfl
      · intro n
        simp only [hrest n]

/-! ## Calls up to the first failure -/

/-- A watcher that is fed until it fails fares the same behind any number of gates. -/
theorem feed_replicate (react : σ → Event → Except ε σ) (g : Gate) (s : σ) (events : List Event) :
    ∃ g' s' fault?, ∀ n,
      Watch.feed react ⟨List.replicate (n + 1) g, s⟩ events
        = (⟨List.replicate (n + 1) g', s'⟩, fault?) := by
  induction events generalizing g s with
  | nil => exact ⟨g, s, none, fun _ => rfl⟩
  | cons e rest ih =>
    simp only [feed, Gate.stepThrough_replicate]
    cases (g.step e).2 with
    | none => exact ih (g.step e).1 s
    | some shown =>
      dsimp only
      cases react s shown with
      | ok s' => exact ih (g.step e).1 s'
      | error fault => exact ⟨(g.step e).1, s, some fault, fun _ => rfl⟩

/-- **Isolation is idempotent.** Whatever sequence of events comes, balanced or not, and whether the
    watcher fails meanwhile or not: behind any number of fresh gates it is shown the same events in
    the same order as behind one, it fails at the same of them and ends in the same state. So it
    does when the sequence is broken off at its first failure. -/
theorem session_layers_eq_single (n : Nat) (s : σ) (calls : List Event) :
    let layers := List.replicate (n + 1) Gate.opened
    (∀ hook : σ → Event → σ × Option ε,
      (session hook ⟨layers, s⟩ calls).2 = (session hook ⟨[.opened], s⟩ calls).2
      ∧ (session hook ⟨layers, s⟩ calls).2.map Prod.fst = Gate.opened.pass calls
      ∧ (session hook ⟨layers, s⟩ calls).1.state = (session hook ⟨[.opened], s⟩ calls).1.state
      ∧ (session hook ⟨layers, s⟩ calls).1.gates
          = List.replicate (n + 1) (Gate.opened.stepAll calls))
    ∧ ∀ react : σ → Event → Except ε σ,
        (Watch.feed react ⟨layers, s⟩ calls).2 = (Watch.feed react ⟨[.opened], s⟩ calls).2
        ∧ (Watch.feed react ⟨layers, s⟩ calls).1.state
            = (Watch.feed react ⟨[.opened], s⟩ calls).1.state := by
  intro layers
  constructor
  · intro hook
    obtain ⟨s', log, hlog, hsession⟩ := session_replicate hook .opened s calls
    have hlayers := hsession n
    have hsingle : session hook ⟨[.opened], s⟩ calls = _ := hsession 0
    rw [hlayers, hsingle]
    exact ⟨rfl, hlog, rfl, rfl⟩
  · intro react
    obtain ⟨g', s', fault?, hfeed⟩ := feed_replicate react .opened s calls
    have hlayers := hfeed n
    have hsingle : Watch.feed react ⟨[.opened], s⟩ calls = _ := hfeed 0
    rw [hlayers, hsingle]
    exact ⟨rfl, rfl⟩

end Watch

end CallablePurity
