import CallablePurity.Proofs.DepthLimit

set_option autoImplicit false

/-! # How judgements nest

A lookup may answer with a definition that calls ever new functions, so nothing about the bodies
bounds how deep an analysis goes. What bounds it is a counter in the visit, next to the keys of the
callables under analysis. This file says that the two agree with what is really going on, whatever
the lookup answers: at every judgement of a run the counter is the number of lookups that are open,
the keys are those of the open lookups and of the root, no key is there twice, and the counter stays
within the limit (`Analyzer.visits_reflect_open_lookups`).

To speak of what goes on at some moment, a run is written down step by step: `Traced` runs are runs
with the list of their steps beside them, and forgetting the steps gives back the analysis
(`Analyzer.run_tracedAnalysis`). What is open at a moment is read off the steps before it
(`Step.running`), not off the visit. -/

namespace CallablePurity

/-! ## Steps -/

/-- Something begins or ends in an analysis. -/
inductive Step where
  /-- The judgement of a callable begins. -/
  | enter (visit : Visit) (subject : BoundCallable)
  /-- The lookup is asked for a definition; this ends when the call is judged. -/
  | ask (target : Reference)
  /-- What has begun last, of all that has not ended, ends. -/
  | done

namespace Step

def asked? : Step → Option Reference
  | ask target => some target
  | _ => none

/-- What is going on after a step, the innermost first. -/
def push (stack : List Step) : Step → List Step
  | done => stack.tail
  | s => s :: stack

/-- What is going on after several steps, the innermost first. -/
def running (stack steps : List Step) : List Step :=
  steps.foldl push stack

/-- The lookups among what is going on. -/
def openLookups (stack : List Step) : List Reference :=
  stack.filterMap asked?

@[simp] theorem running_nil (stack : List Step) : running stack [] = stack := rfl

@[simp] theorem running_cons (stack : List Step) (s : Step) (steps : List Step) :
    running stack (s :: steps) = running (push stack s) steps := rfl

theorem running_append (stack as bs : List Step) :
    running stack (as ++ bs) = running (running stack as) bs :=
  List.foldl_append

/-- Each step has the property on top of what is going on when it is made. -/
def Follow (P : List Step → Step → Prop) : List Step → List Step → Prop
  | _, [] => True
  | stack, s :: rest => P stack s ∧ Follow P (push stack s) rest

variable {P : List Step → Step → Prop}

theorem follow_append_iff (stack as bs : List Step) :
    Follow P stack (as ++ bs) ↔ Follow P stack as ∧ Follow P (running stack as) bs := by
  induction as generalizing stack with
  | nil => simp [Follow]
  | cons s as ih => simp [Follow, ih, and_assoc]

/-- The same, of one step in the middle. -/
theorem Follow.at_step {stack before after : List Step} {s : Step}
    (h : Follow P stack (before ++ s :: after)) : P (running stack before) s := by
  rw [follow_append_iff] at h
  exact h.2.1

end Step

/-! ## Runs with their steps -/

/-- A run with the steps made in it. -/
structure Traced (α : Type) where
  steps : List Step
  run : Run α

namespace Traced

variable {α β : Type}

/-- A run without steps. -/
def lift (r : Run α) : Traced α :=
  ⟨[], r⟩

/-- Goes on with the result; after a fault there are no more steps. -/
def andThen (t : Traced α) (next : α → Traced β) : Traced β where
  steps := t.steps ++ match t.run.outcome with
    | .ok a => (next a).steps
    | .error _ => []
  run := t.run >>= fun a => (next a).run

instance : Monad Traced where
  pure a := lift (pure a)
  bind := andThen

/-- The run is what happens between a step and the end of what it begins. A fault leaves it
    open. -/
def within (s : Step) (t : Traced α) : Traced α where
  steps := s :: (t.steps ++ match t.run.outcome with
    | .ok _ => [.done]
    | .error _ => [])
  run := t.run

/-- Asks the lookup, and goes on while the question is open. -/
def asking (target : Reference) (t : Traced α) : Traced α :=
  within (.ask target) ⟨t.steps, do Run.ask target; t.run⟩

/-- What is only computed from a result takes no steps. -/
theorem steps_map (f : α → β) (t : Traced α) : (do return f (← t)).steps = t.steps := by
  show (t.andThen fun a => lift (pure (f a))).steps = t.steps
  unfold andThen
  cases t.run.outcome <;> exact List.append_nil _

/-- Checks items until one has an offence. -/
def firstOffence (check : α → Traced (Option Offence)) : List α → Traced (Option Offence)
  | [] => lift .clean
  | a :: rest => do
    match ← check a with
    | some o => return some o
    | none => firstOffence check rest

theorem run_firstOffence (check : α → Traced (Option Offence)) (items : List α) :
    (firstOffence check items).run = Run.firstOffence (fun a => (check a).run) items := by
  induction items with
  | nil => rfl
  | cons a rest ih =>
    rw [firstOffence, Run.firstOffence, ← ih]
    show ((check a).run >>= fun o? => _) = _
    congr 1
    funext o?
    cases o? <;> rfl

end Traced

/-! ## The analysis with its steps -/

/-- A judgement with its steps. -/
abbrev TracedJudge := Visit → Callable → Option String → Traced (Option Offence)

/-- The judgement without its steps. -/
def TracedJudge.plain (judge : TracedJudge) : Judge :=
  fun visit c thisType => (judge visit c thisType).run

namespace Analyzer

open Traced

section Definitions

variable (z : Analyzer) (lookup : Lookup) (judge : Option TracedJudge)

def tracedTarget (visit : Visit) (target : Reference) : Traced (Option Offence) :=
  if target.isWhitelisted z.config then lift .clean
  else if visit.inProgress.contains target.key then lift .clean
  else
    match judge with
    | none => lift (.offend (.depthLimit z.config.maxCallDepth target))
    | some judge =>
      asking target
        (match lookup target with
        | none => lift (.offend (.unknown target))
        | some callee => do
          match ← judge (visit.descend target) callee target.className with
          | none => lift .clean
          | some cause => lift (.offend (.impureCall target cause)))

def tracedCall (visit : Visit) (types : TypeMap) (texts : OrderedMap String String)
    (call : Node) : Traced (Option Offence) := do
  match ← lift (Run.ofExcept ((Resolve.target? z.config types texts call).mapError .reference)) with
  | none => lift (.offend (.unresolvable visit.depth))
  | some target => z.tracedTarget lookup judge visit target

def tracedJudgeWith : TracedJudge := fun visit c thisType =>
  within (.enter visit ⟨c, thisType⟩) do
    match ← lift (Run.ofExcept ((c.ownOffence? z.config thisType).mapError .walk)) with
    | some o => lift (.offend o)
    | none =>
      match z.lookup with
      | none => lift .clean
      | some lookup =>
        let types := TypeMap.ofCallable c thisType
        Traced.firstOffence (z.tracedCall lookup judge visit types (z.texts c types))
          (locateCalls c.body)

def tracedJudge : (budget : Nat) → TracedJudge
  | 0 => z.tracedJudgeWith none
  | budget + 1 => z.tracedJudgeWith (some (tracedJudge budget))

/-- The analysis of a callable with its steps. -/
def tracedAnalysis (c : Callable) (thisType : Option String) : Traced Report := do
  let key? ← lift (Run.ofExcept ((rootKey? c thisType).mapError .reference))
  return .ofOffence? (← z.tracedJudge z.config.callBudget (startVisit key?) c thisType)

end Definitions

section Forget

variable (z : Analyzer) (lookup : Lookup) (judge : Option TracedJudge) (visit : Visit)

theorem run_tracedTarget (target : Reference) :
    (z.tracedTarget lookup judge visit target).run
      = z.checkTarget lookup (judge.map TracedJudge.plain) visit target := by
  unfold tracedTarget checkTarget Reference.isWhitelisted
  split
  · rfl
  split
  · rfl
  cases judge with
  | none => rfl
  | some judge =>
    cases lookup target with
    | none => rfl
    | some callee =>
      show (Run.ask target >>= fun _ => _) = _
      congr 1
      funext _
      show ((judge (visit.descend target) callee target.className).run >>= fun o? => _) = _
      congr 1
      funext o?
      cases o? <;> rfl

theorem run_tracedCall (types : TypeMap) (texts : OrderedMap String String) (call : Node) :
    (z.tracedCall lookup judge visit types texts call).run
      = z.checkCall lookup (judge.map TracedJudge.plain) visit types texts call := by
  unfold tracedCall checkCall
  show (Run.ofExcept _ >>= fun target? => _) = _
  congr 1
  funext target?
  cases target? with
  | none => rfl
  | some target => exact run_tracedTarget z lookup judge visit target

theorem run_tracedJudgeWith (c : Callable) (thisType : Option String) :
    (z.tracedJudgeWith judge visit c thisType).run
      = z.judgeWith (judge.map TracedJudge.plain) visit c thisType := by
  unfold tracedJudgeWith judgeWith
  show (Run.ofExcept _ >>= fun o? => _) = _
  congr 1
  funext o?
  cases o? with
  | some o => rfl
  | none =>
    cases z.lookup with
    | none => rfl
    | some lookup =>
      refine (run_firstOffence _ _).trans (Run.firstOffence_congr fun call _ => ?_)
      exact run_tracedCall z lookup judge visit _ _ call

theorem plain_tracedJudge (budget : Nat) : (z.tracedJudge budget).plain = z.judge budget := by
  induction budget with
  | zero =>
    funext visit c thisType
    exact run_tracedJudgeWith z none visit c thisType
  | succ budget ih =>
    funext visit c thisType
    rw [judge, ← ih]
    exact run_tracedJudgeWith z (some (z.tracedJudge budget)) visit c thisType

/-- Without its steps a traced analysis is the analysis. -/
theorem run_tracedAnalysis (c : Callable) (thisType : Option String) :
    (z.tracedAnalysis c thisType).run = z.analyze c thisType := by
  unfold tracedAnalysis analyze offence?
  rw [LawfulMonad.bind_assoc]
  show (Run.ofExcept _ >>= fun key? => _) = _
  congr 1
  funext key?
  rw [← plain_tracedJudge]
  rfl

end Forget

end Analyzer

/-! ## Steps that keep a property -/

namespace Traced

variable {α β : Type} {P : List Step → Step → Prop} {stack : List Step}

/-- Each step has the property on top of what is going on when it is made. What begins in the run
    ends in it, unless there is a fault. The questions to the lookup are the steps that ask. -/
structure Sound (P : List Step → Step → Prop) (stack : List Step) (t : Traced α) : Prop where
  follow : Step.Follow P stack t.steps
  balanced : ∀ a, t.run.outcome = .ok a → Step.running stack t.steps = stack
  asked_eq : t.run.asked = t.steps.filterMap Step.asked?

theorem sound_lift {r : Run α} (h : r.asked = []) : (lift r).Sound P stack :=
  ⟨trivial, fun _ _ => rfl, h⟩

theorem Sound.andThen {t : Traced α} {next : α → Traced β} (h : t.Sound P stack)
    (hnext : ∀ a, (next a).Sound P stack) : (t >>= next).Sound P stack := by
  show (Traced.andThen t next).Sound P stack
  unfold Traced.andThen
  cases houtcome : t.run.outcome with
  | error fault =>
    rw [Run.bind_of_error houtcome]
    refine ⟨?_, nofun, ?_⟩
    · simpa using h.follow
    · simpa using h.asked_eq
  | ok a =>
    have hstack : Step.running stack t.steps = stack := h.balanced a houtcome
    rw [Run.bind_of_ok houtcome]
    refine ⟨?_, ?_, ?_⟩
    · rw [Step.follow_append_iff, hstack]
      exact ⟨h.follow, (hnext a).follow⟩
    · intro b hb
      rw [Step.running_append, hstack]
      exact (hnext a).balanced b hb
    · rw [List.filterMap_append, ← h.asked_eq, ← (hnext a).asked_eq]

/-- What a step begins, then the run, then the end of what was begun. -/
theorem follow_within {s : Step} {t : Traced α} (hs : Step.push stack s = s :: stack)
    (hP : P stack s) (hdone : ∀ stack, P stack .done)
    (hfollow : Step.Follow P (s :: stack) t.steps)
    (hbalanced : ∀ a, t.run.outcome = .ok a →
      Step.running (s :: stack) t.steps = s :: stack) :
    Step.Follow P stack (within s t).steps
    ∧ ∀ a, t.run.outcome = .ok a → Step.running stack (within s t).steps = stack := by
  simp only [within, Step.Follow, Step.running_cons, hs]
  cases houtcome : t.run.outcome with
  | error fault => exact ⟨⟨hP, by simpa using hfollow⟩, nofun⟩
  | ok a =>
    refine ⟨⟨hP, ?_⟩, fun _ _ => ?_⟩
    · rw [Step.follow_append_iff]
      exact ⟨hfollow, hdone _, trivial⟩
    · rw [Step.running_append, hbalanced a houtcome]
      rfl

theorem asks_within (s : Step) (t : Traced α) :
    (within s t).steps.filterMap Step.asked?
      = s.asked?.toList ++ t.steps.filterMap Step.asked? := by
  have hsteps :
      (within s t).steps.filterMap Step.asked? = (s :: t.steps).filterMap Step.asked? := by
    unfold within
    cases t.run.outcome with
    | error fault => rw [List.append_nil]
    | ok a =>
      rw [← List.cons_append, List.filterMap_append]
      exact List.append_nil _
  rw [hsteps]
  cases s <;> rfl

theorem Sound.entering {t : Traced α} {visit : Visit} {subject : BoundCallable}
    (hP : P stack (.enter visit subject)) (hdone : ∀ stack, P stack .done)
    (h : t.Sound P (.enter visit subject :: stack)) :
    (within (.enter visit subject) t).Sound P stack := by
  obtain ⟨hfollow, hbalanced⟩ := follow_within rfl hP hdone h.follow h.balanced
  refine ⟨hfollow, hbalanced, ?_⟩
  rw [asks_within]
  exact h.asked_eq

theorem Sound.asking {t : Traced α} {target : Reference} (hP : P stack (.ask target))
    (hdone : ∀ stack, P stack .done) (h : t.Sound P (.ask target :: stack)) :
    (asking target t).Sound P stack := by
  have hrun : (do Run.ask target; t.run)
      = ⟨t.run.logged, target :: t.run.asked, t.run.outcome⟩ :=
    Run.bind_of_ok (r := Run.ask target) (a := ()) rfl _
  obtain ⟨hfollow, hbalanced⟩ :=
    follow_within (t := ⟨t.steps, do Run.ask target; t.run⟩) rfl hP hdone h.follow
      (by rw [hrun]; exact h.balanced)
  refine ⟨hfollow, hbalanced, ?_⟩
  show (do Run.ask target; t.run).asked = _
  rw [hrun, Traced.asking, asks_within, h.asked_eq]
  rfl

theorem sound_firstOffence {check : α → Traced (Option Offence)}
    (h : ∀ a, (check a).Sound P stack) (items : List α) :
    (firstOffence check items).Sound P stack := by
  induction items with
  | nil => exact sound_lift rfl
  | cons a rest ih =>
    refine (h a).andThen fun o? => ?_
    cases o? with
    | none => exact ih
    | some o => exact sound_lift rfl

end Traced

/-! ## Visits and what is going on -/

/-- The visit tells which lookups are open: how many there are and, before the keys that were waited
    for at the start, their keys. No key is there twice, and the limit is kept. -/
structure Visit.Reflects (limit : Int) (waited : List String) (visit : Visit)
    (opened : List Reference) : Prop where
  depth_eq : visit.depth = opened.length
  depth_le : (visit.depth : Int) ≤ limit
  inProgress_eq : visit.inProgress = opened.map Reference.key ++ waited
  nodup : visit.inProgress.Nodup

/-- One more lookup is open below a call that is followed. -/
theorem Visit.Reflects.descend {limit : Int} {waited : List String} {visit : Visit}
    {opened : List Reference} {r : Reference} (h : visit.Reflects limit waited opened)
    (hfresh : r.key ∉ visit.inProgress) (hdepth : (visit.depth : Int) < limit) :
    (visit.descend r).Reflects limit waited (r :: opened) where
  depth_eq := by simp [Visit.descend, h.depth_eq]
  depth_le := by simp only [Visit.descend]; omega
  inProgress_eq := by simp [Visit.descend, h.inProgress_eq]
  nodup := List.nodup_cons.2 ⟨hfresh, h.nodup⟩

/-- What may begin on top of what is going on. -/
inductive Step.Admissible (z : Analyzer) (waited : List String) : List Step → Step → Prop
  | root {visit : Visit} {subject : BoundCallable}
      (hreflects : visit.Reflects z.config.maxCallDepth waited []) :
      Admissible z waited [] (.enter visit subject)
  /-- The definition that the innermost open lookup gave is judged. -/
  | nested {outer : Visit} {caller : BoundCallable} {rest : List Step} {r : Reference}
      {lookup : Lookup} {callee : Callable} (hlookup : z.lookup = some lookup)
      (hfound : lookup r = some callee)
      (hreflects : (outer.descend r).Reflects z.config.maxCallDepth waited
        (r :: Step.openLookups rest)) :
      Admissible z waited (.ask r :: .enter outer caller :: rest)
        (.enter (outer.descend r) ⟨callee, r.className⟩)
  /-- The innermost judgement asks for a target that must be looked at. -/
  | ask {visit : Visit} {caller : BoundCallable} {rest : List Step} {r : Reference}
      (hreflects : visit.Reflects z.config.maxCallDepth waited (Step.openLookups rest))
      (hfresh : r.key ∉ visit.inProgress) (hpending : r.isWhitelisted z.config = false) :
      Admissible z waited (.enter visit caller :: rest) (.ask r)
  | done (stack : List Step) : Admissible z waited stack .done

namespace Analyzer

open Step Traced

variable {z : Analyzer} {waited : List String}

section Judgement

variable {lookup : Lookup} {judge? : Option TracedJudge} {visit : Visit} {caller : BoundCallable}
  {rest : List Step} (hlookup : z.lookup = some lookup)
  (hreflects : visit.Reflects z.config.maxCallDepth waited (openLookups rest))
  (hjudge : ∀ judge, judge? = some judge → (visit.depth : Int) < z.config.maxCallDepth
    ∧ ∀ stack r callee, Admissible z waited stack (.enter (visit.descend r) ⟨callee, r.className⟩) →
      (judge (visit.descend r) callee r.className).Sound (Admissible z waited) stack)

include hlookup hreflects hjudge

theorem sound_tracedTarget (target : Reference) :
    (z.tracedTarget lookup judge? visit target).Sound (Admissible z waited)
      (.enter visit caller :: rest) := by
  unfold tracedTarget
  split
  · exact sound_lift rfl
  next hlist =>
  split
  · exact sound_lift rfl
  next hkey =>
  have hfresh : target.key ∉ visit.inProgress := mt List.contains_iff_mem.2 hkey
  cases judge? with
  | none => exact sound_lift rfl
  | some judge =>
    obtain ⟨hdepth, hsound⟩ := hjudge judge rfl
    refine Sound.asking (.ask hreflects hfresh (Bool.eq_false_iff.2 hlist)) Admissible.done ?_
    cases hfound : lookup target with
    | none => exact sound_lift rfl
    | some callee =>
      have hnested := hreflects.descend hfresh hdepth
      refine (hsound _ target callee (.nested hlookup hfound hnested)).andThen fun o? => ?_
      cases o? <;> exact sound_lift rfl

theorem sound_tracedCall (types : TypeMap) (texts : OrderedMap String String) (call : Node) :
    (z.tracedCall lookup judge? visit types texts call).Sound (Admissible z waited)
      (.enter visit caller :: rest) := by
  refine (sound_lift rfl).andThen fun target? => ?_
  cases target? with
  | none => exact sound_lift rfl
  | some target => exact sound_tracedTarget hlookup hreflects hjudge target

end Judgement

theorem reflects_of_admissible {stack : List Step} {visit : Visit} {subject : BoundCallable}
    (h : Admissible z waited stack (.enter visit subject)) :
    visit.Reflects z.config.maxCallDepth waited (openLookups stack) := by
  cases h with
  | root hreflects => exact hreflects
  | nested _ _ hreflects => exact hreflects

/-- A judgement that is entered while a lookup is open is that of what the innermost one found, one
    level deeper than the judgement that asked. -/
theorem nested_of_admissible {stack : List Step} {visit : Visit} {subject : BoundCallable}
    (h : Admissible z waited stack (.enter visit subject)) (hopened : openLookups stack ≠ []) :
    ∃ lookup r outer caller rest, stack = .ask r :: .enter outer caller :: rest
      ∧ z.lookup = some lookup ∧ lookup r = some subject.callable
      ∧ subject.thisType = r.className ∧ visit = outer.descend r
      ∧ (z.config.maxCallDepth - visit.depth).toNat
          < (z.config.maxCallDepth - outer.depth).toNat := by
  cases h with
  | root _ => exact absurd rfl hopened
  | @nested outer caller rest r lookup callee hlookup hfound hreflects =>
    have hle := hreflects.depth_le
    have hdepth : (outer.descend r).depth = outer.depth + 1 := rfl
    refine ⟨lookup, r, outer, caller, rest, rfl, hlookup, hfound, rfl, rfl, ?_⟩
    omega

/-- What is asked for is neither in progress nor taken to be pure. -/
theorem fresh_of_admissible {stack : List Step} {r : Reference}
    (h : Admissible z waited stack (.ask r)) :
    r.key ∉ (openLookups stack).map Reference.key ++ waited
    ∧ (r.isMethod = false → z.config.isKnownPure r.function.text = false) := by
  cases h with
  | @ask visit caller _ _ hreflects hfresh hpending =>
    rw [hreflects.inProgress_eq] at hfresh
    refine ⟨hfresh, fun hfunction => ?_⟩
    simpa [Reference.isWhitelisted, hfunction] using hpending

/-- One judgement makes admissible steps only, if those of the callables that it calls do. -/
theorem sound_tracedJudgeWith {judge? : Option TracedJudge} {visit : Visit} {c : Callable}
    {thisType : Option String} {stack : List Step}
    (henter : Admissible z waited stack (.enter visit ⟨c, thisType⟩))
    (hjudge : ∀ judge, judge? = some judge → (visit.depth : Int) < z.config.maxCallDepth
      ∧ ∀ stack r callee,
        Admissible z waited stack (.enter (visit.descend r) ⟨callee, r.className⟩) →
        (judge (visit.descend r) callee r.className).Sound (Admissible z waited) stack) :
    (z.tracedJudgeWith judge? visit c thisType).Sound (Admissible z waited) stack := by
  have hreflects := reflects_of_admissible henter
  refine Sound.entering henter Admissible.done ((sound_lift rfl).andThen fun o? => ?_)
  cases o? with
  | some o => exact sound_lift rfl
  | none =>
    cases hlookup : z.lookup with
    | none => exact sound_lift rfl
    | some lookup =>
      exact sound_firstOffence
        (fun call => sound_tracedCall hlookup hreflects hjudge _ _ call) _

/-- All judgements make admissible steps only: the calls that may still be followed are as many as
    the limit allows below the current depth. -/
theorem sound_tracedJudge (budget : Nat) {visit : Visit} {c : Callable} {thisType : Option String}
    {stack : List Step} (hbudget : (visit.depth + budget : Int) = z.config.maxCallDepth)
    (henter : Admissible z waited stack (.enter visit ⟨c, thisType⟩)) :
    (z.tracedJudge budget visit c thisType).Sound (Admissible z waited) stack := by
  induction budget generalizing visit c thisType stack with
  | zero => exact sound_tracedJudgeWith henter nofun
  | succ budget ih =>
    refine sound_tracedJudgeWith henter ?_
    rintro _ ⟨⟩
    refine ⟨by omega, ?_⟩
    intro stack r callee hnested
    refine ih ?_ hnested
    simp only [Visit.descend]
    omega

/-! ## Whole runs -/

theorem steps_tracedAnalysis {c : Callable} {thisType key? : Option String}
    (h : rootKey? c thisType = .ok key?) :
    (z.tracedAnalysis c thisType).steps
      = (z.tracedJudge z.config.callBudget (startVisit key?) c thisType).steps := by
  unfold tracedAnalysis
  rw [h]
  exact steps_map Report.ofOffence? _

/-- An analysis that does not even get a key for its root makes no steps. -/
theorem steps_tracedAnalysis_of_error {c : Callable} {thisType : Option String}
    {fault : ReferenceFault} (h : rootKey? c thisType = .error fault) :
    (z.tracedAnalysis c thisType).steps = [] := by
  unfold tracedAnalysis
  rw [h]
  rfl

theorem reflects_startVisit (z : Analyzer) (key? : Option String) :
    (startVisit key?).Reflects z.config.maxCallDepth (startVisit key?).inProgress [] where
  depth_eq := rfl
  depth_le := by
    have hone := z.config.one_le_maxCallDepth
    show (0 : Int) ≤ _
    omega
  inProgress_eq := rfl
  nodup := by
    unfold startVisit
    cases key?.filter (· ≠ "") <;> simp

theorem sound_root (z : Analyzer) (c : Callable) (thisType key? : Option String) :
    (z.tracedJudge z.config.callBudget (startVisit key?) c thisType).Sound
      (Admissible z (startVisit key?).inProgress) [] := by
  refine sound_tracedJudge z.config.callBudget ?_ (.root (reflects_startVisit z key?))
  rw [z.config.coe_callBudget]
  exact Int.zero_add _

/-- All steps of an analysis are admissible. -/
theorem follow_tracedAnalysis {c : Callable} {thisType key? : Option String}
    (h : rootKey? c thisType = .ok key?) :
    Follow (Admissible z (startVisit key?).inProgress) [] (z.tracedAnalysis c thisType).steps := by
  rw [steps_tracedAnalysis h]
  exact (sound_root z c thisType key?).follow

/-- The lookup is asked where the steps say so. -/
theorem asked_tracedAnalysis {c : Callable} {thisType key? : Option String}
    (h : rootKey? c thisType = .ok key?) :
    (z.tracedAnalysis c thisType).steps.filterMap asked? = (z.analyze c thisType).asked := by
  rw [steps_tracedAnalysis h, ← (sound_root z c thisType key?).asked_eq, analyze_eq_judge h,
    ← plain_tracedJudge]
  rfl

theorem tracedJudge_eq_tracedJudgeWith (z : Analyzer) (budget : Nat) :
    ∃ judge?, z.tracedJudge budget = z.tracedJudgeWith judge? := by
  cases budget with
  | zero => exact ⟨none, rfl⟩
  | succ budget => exact ⟨some (z.tracedJudge budget), rfl⟩

/-- Only an empty key of the root is not waited for. -/
theorem inProgress_startVisit {key? : Option String} (h : key? ≠ some "") :
    (startVisit key?).inProgress = key?.toList := by
  cases key? with
  | none => rfl
  | some key =>
    have hkey : key ≠ "" := fun heq => h (congrArg some heq)
    simp [startVisit, hkey]

/-- **Visits tell what is going on.** A run of an analysis, written down step by step, is the
    analysis, and the lookup is asked where the steps say so. Whatever it answers, each judgement is
    entered with a depth that is the number of open lookups and within the limit, and with the keys
    of those lookups and of the root, all of them distinct; an empty key of the root is left out.
    A judgement below another one is that of the definition found by the innermost open lookup, one
    level deeper than the judgement that asked, so that less is left of the limit. The lookup is
    asked neither for a key that is in progress nor for a function that is taken to be pure. -/
theorem visits_reflect_open_lookups (z : Analyzer) (c : Callable) (thisType : Option String) :
    let steps := (z.tracedAnalysis c thisType).steps
    let limit := z.config.maxCallDepth
    (z.tracedAnalysis c thisType).run = z.analyze c thisType
    ∧ steps.filterMap Step.asked? = (z.analyze c thisType).asked
    ∧ ((∃ fault, rootKey? c thisType = .error fault) ∧ steps = []
      ∨ ∃ key? waited, rootKey? c thisType = .ok key? ∧ waited = (key?.filter (· ≠ "")).toList
        ∧ (key? ≠ some "" → waited = key?.toList)
        ∧ (∃ rest, steps = .enter ⟨waited, 0⟩ ⟨c, thisType⟩ :: rest)
        ∧ (∀ before visit subject after, steps = before ++ .enter visit subject :: after →
            let opened := openLookups (running [] before)
            visit.depth = opened.length ∧ (visit.depth : Int) ≤ limit
            ∧ visit.inProgress = opened.map Reference.key ++ waited ∧ visit.inProgress.Nodup
            ∧ (opened ≠ [] → ∃ lookup r outer caller rest,
                running [] before = .ask r :: .enter outer caller :: rest
                ∧ z.lookup = some lookup ∧ lookup r = some subject.callable
                ∧ subject.thisType = r.className ∧ visit = outer.descend r
                ∧ (limit - visit.depth).toNat < (limit - outer.depth).toNat))
        ∧ (∀ before r after, steps = before ++ .ask r :: after →
            r.key ∉ (openLookups (running [] before)).map Reference.key ++ waited
            ∧ (r.isMethod = false → z.config.isKnownPure r.function.text = false))) := by
  intro steps limit
  have hrun := run_tracedAnalysis z c thisType
  cases hkey : rootKey? c thisType with
  | error fault =>
    have hsteps : steps = [] := steps_tracedAnalysis_of_error hkey
    refine ⟨hrun, ?_, Or.inl ⟨⟨fault, rfl⟩, hsteps⟩⟩
    rw [hsteps, analyze_of_error hkey]
    rfl
  | ok key? =>
    have hsteps : steps
        = (z.tracedJudge z.config.callBudget (startVisit key?) c thisType).steps :=
      steps_tracedAnalysis hkey
    have hfollow : Follow (Admissible z (startVisit key?).inProgress) [] steps :=
      follow_tracedAnalysis hkey
    refine ⟨hrun, asked_tracedAnalysis hkey, Or.inr ⟨key?, (startVisit key?).inProgress, rfl, rfl,
      inProgress_startVisit, ?_, ?_, ?_⟩⟩
    · obtain ⟨judge?, hjudge⟩ := tracedJudge_eq_tracedJudgeWith z z.config.callBudget
      rw [hsteps, hjudge]
      exact ⟨_, rfl⟩
    · intro before visit subject after hsplit
      rw [hsplit] at hfollow
      have hadmissible := hfollow.at_step
      have hreflects := reflects_of_admissible hadmissible
      exact ⟨hreflects.depth_eq, hreflects.depth_le, hreflects.inProgress_eq, hreflects.nodup,
        nested_of_admissible hadmissible⟩
    · intro before r after hsplit
      rw [hsplit] at hfollow
      exact fresh_of_admissible hfollow.at_step

/-- A function that calls another one first asks for it, unless it is taken to be pure or its key is
    in progress. -/
theorem steps_tracedJudge_calling (config : Config) (lookup : Lookup) (budget : Nat) (visit : Visit)
    (name f : Ident) (others : List Ident) (thisType : Option String)
    (hpending : Reference.isWhitelisted config ⟨f, none⟩ = false)
    (hfresh : Reference.key ⟨f, none⟩ ∉ visit.inProgress) :
    ∃ rest, ((following config lookup).tracedJudge (budget + 1) visit
        (.calling name (f :: others)) thisType).steps
      = .enter visit ⟨.calling name (f :: others), thisType⟩ :: .ask ⟨f, none⟩ :: rest := by
  have hown := (BoundCallable.locallyClean_calling config name (f :: others)
    thisType).ownOffence?_eq_none
  have hkey : visit.inProgress.contains (Reference.key ⟨f, none⟩) = false :=
    Bool.eq_false_iff.2 (mt List.contains_iff_mem.1 hfresh)
  have htarget (judge : TracedJudge) :
      ∃ rest, ((following config lookup).tracedTarget lookup (some judge) visit ⟨f, none⟩).steps
        = .ask ⟨f, none⟩ :: rest := by
    unfold tracedTarget
    rw [hpending, hkey]
    exact ⟨_, rfl⟩
  obtain ⟨rest, hrest⟩ := htarget ((following config lookup).tracedJudge budget)
  unfold tracedJudge tracedJudgeWith
  rw [hown]
  dsimp only
  rw [BoundCallable.locateCalls_calling]
  show ∃ rest', Step.enter _ _
    :: ((((following config lookup).tracedTarget lookup _ visit ⟨f, none⟩).steps ++ _) ++ _) = _
  rw [hrest]
  exact ⟨_, rfl⟩

/-- The function with the name `\` has an empty key. Its judgement is entered without any key in
    progress, and the lookup is asked for that very function. -/
theorem asked_for_root_of_empty_rootKey :
    let z : Analyzer := { config := Backslash.config, lookup := some Backslash.lookup }
    let own : Reference := ⟨Backslash.backslash, none⟩
    rootKey? Backslash.root none = .ok (some own.key)
    ∧ ∃ rest, (z.tracedAnalysis Backslash.root none).steps
        = .enter ⟨[], 0⟩ ⟨Backslash.root, none⟩ :: .ask own :: rest := by
  intro z own
  have hkey : rootKey? Backslash.root none = .ok (some own.key) := rfl
  refine ⟨hkey, ?_⟩
  have hpending : own.isWhitelisted Backslash.config = false := by decide +kernel
  have hstart : startVisit (some own.key) = ⟨[], 0⟩ := by
    rw [Backslash.key_backslash]
    rfl
  rw [steps_tracedAnalysis hkey, hstart]
  exact steps_tracedJudge_calling Backslash.config Backslash.lookup 0 ⟨[], 0⟩ Backslash.backslash
    Backslash.backslash [Backslash.g] none hpending List.not_mem_nil

end Analyzer

end CallablePurity
