import CallablePurity.Proofs.CallTargets
import CallablePurity.Proofs.Outcome
import Mathlib.Logic.Relation

set_option autoImplicit false

/-! # The call graph

An analysis that looks up definitions goes through a graph. Its vertices are definitions together
with the class of the object they work on (`BoundCallable`); an edge is a call whose target must be
looked at and has a definition (`BoundCallable.Edge`). The graph may be infinite and have cycles.

One judgement is described here by the vertex and its edges alone: when it finds nothing
(`Analyzer.outcome_judgeWith_eq_none_iff`), and how it ends where nothing is wrong with the vertex
by itself (`Analyzer.outcome_judgeWith_of_locallyClean`). -/

namespace CallablePurity

/-! ## Vertices and edges -/

/-- The callable shares no storage with its caller: neither its result nor a parameter nor a capture
    is bound by reference. -/
structure Callable.BindsByValue (c : Callable) : Prop where
  result : c.byRef = false
  params : ∀ p ∈ c.params, p.byRef = false
  captures : ∀ u ∈ c.captures, u.byRef = false

theorem Callable.byRefBindings_eq_nil_iff (c : Callable) :
    c.byRefBindings = [] ↔ c.BindsByValue := by
  simp only [byRefBindings, List.append_eq_nil_iff, List.map_eq_nil_iff, List.filter_eq_nil_iff,
    Bool.not_eq_true, ite_eq_right_iff, reduceCtorEq, imp_false]
  exact ⟨fun ⟨⟨hresult, hparams⟩, hcaptures⟩ => ⟨hresult, hparams, hcaptures⟩,
    fun h => ⟨⟨h.result, h.params⟩, h.captures⟩⟩

/-- A callable with the class of the object that it works on. -/
structure BoundCallable where
  callable : Callable
  thisType : Option String

/-- The class of the object that the target of a call works on. -/
def Reference.className (r : Reference) : Option String :=
  r.cls.map Ident.text

namespace BoundCallable

/-- The types of the variables that are bound when the body starts to run. -/
def types (p : BoundCallable) : TypeMap :=
  .ofCallable p.callable p.thisType

section Graph

variable (config : Config) (lookup : Lookup)

/-- The callable has no offence by itself: it shares no storage with its caller, none of its
    accesses has a side effect, and all its calls have a known target. -/
structure LocallyClean (p : BoundCallable) : Prop where
  byValue : p.callable.BindsByValue
  accesses : ∃ accesses, locateAccesses p.callable.body = .ok accesses
    ∧ ∀ a ∈ accesses, a.hasSideEffect p.types config = false
  calls : ∀ call ∈ locateCalls p.callable.body,
    ∃ r, Resolve.target? config p.types .empty call = .ok (some r)

/-- The reference is the target of a call of the body, and not a function that is taken to be
    pure. -/
structure Pending (p : BoundCallable) (r : Reference) : Prop where
  called : ∃ call ∈ locateCalls p.callable.body,
    Resolve.target? config p.types .empty call = .ok (some r)
  notWhitelisted : r.isWhitelisted config = false

/-- The first callable calls the second one by the reference. -/
structure Edge (p : BoundCallable) (r : Reference) (q : BoundCallable) : Prop where
  pending : p.Pending config r
  found : lookup r = some q.callable
  bound : q.thisType = r.className

/-- The second callable is called from the first one, in any number of steps. -/
def Reachable : BoundCallable → BoundCallable → Prop :=
  Relation.ReflTransGen fun p q => ∃ r, p.Edge config lookup r q

/-- Nothing is wrong with any callable that can be reached, and all targets of its calls have a
    definition. -/
def CleanBelow (p : BoundCallable) : Prop :=
  ∀ q, p.Reachable config lookup q →
    q.LocallyClean config ∧ ∀ r, q.Pending config r → ∃ callee, lookup r = some callee

end Graph

variable {config : Config} {lookup : Lookup} {p q q' : BoundCallable} {r : Reference}

theorem Edge.eq_of_found {callee : Callable} (h : p.Edge config lookup r q)
    (hfound : lookup r = some callee) : q = ⟨callee, r.className⟩ := by
  obtain ⟨c, t⟩ := q
  have hcallable : c = callee := Option.some.inj (h.found.symm.trans hfound)
  have htype : t = r.className := h.bound
  rw [hcallable, htype]

/-- A reference leads to one callable only. -/
theorem Edge.unique (h : p.Edge config lookup r q) (h' : p.Edge config lookup r q') : q = q' :=
  (h.eq_of_found h'.found).trans (h'.eq_of_found h'.found).symm

/-- A pending reference with a definition is an edge. -/
theorem Pending.edge {callee : Callable} (h : p.Pending config r)
    (hfound : lookup r = some callee) : p.Edge config lookup r ⟨callee, r.className⟩ :=
  ⟨h, hfound, rfl⟩

theorem CleanBelow.self (h : p.CleanBelow config lookup) :
    p.LocallyClean config ∧ ∀ r, p.Pending config r → ∃ callee, lookup r = some callee :=
  h p Relation.ReflTransGen.refl

theorem CleanBelow.of_edge (h : p.CleanBelow config lookup) (hedge : p.Edge config lookup r q) :
    q.CleanBelow config lookup :=
  fun q' hq' => h q' (hq'.head ⟨r, hedge⟩)

end BoundCallable

/-! ## One judgement -/

theorem Callable.ownOffence?_eq_none_iff (config : Config) (c : Callable)
    (thisType : Option String) :
    c.ownOffence? config thisType = .ok none
      ↔ c.byRefBindings = [] ∧ ∃ accesses, locateAccesses c.body = .ok accesses
        ∧ ∀ a ∈ accesses, a.hasSideEffect (.ofCallable c thisType) config = false := by
  unfold ownOffence?
  cases c.byRefBindings with
  | cons first rest => simp
  | nil =>
    cases locateAccesses c.body with
    | error fault => simp [bind, Except.bind]
    | ok accesses => simp [bind, Except.bind, pure, Except.pure]

theorem BoundCallable.LocallyClean.ownOffence?_eq_none {config : Config} {p : BoundCallable}
    (h : p.LocallyClean config) : p.callable.ownOffence? config p.thisType = .ok none :=
  (Callable.ownOffence?_eq_none_iff _ _ _).2
    ⟨(Callable.byRefBindings_eq_nil_iff _).2 h.byValue, h.accesses⟩

/-- The accesses of a callable without an offence by itself have no side effect. -/
theorem Callable.hasSideEffect_eq_false {config : Config} {c : Callable} {thisType : Option String}
    (h : c.ownOffence? config thisType = .ok none) :
    ∀ a ∈ c.body.flatMap (Node.accesses []),
      a.hasSideEffect (.ofCallable c thisType) config = false := by
  obtain ⟨-, accesses, hlocate, heffect⟩ := (ownOffence?_eq_none_iff config c thisType).1 h
  rw [locateAccesses_eq] at hlocate
  cases hlocate
  exact heffect

/-- Neither types nor the configuration have a part in the targets of calls where no access has a
    side effect. -/
theorem BoundCallable.LocallyClean.target?_eq {config : Config} {p : BoundCallable}
    (h : p.LocallyClean config) {call : Node} (hcall : call ∈ locateCalls p.callable.body)
    (config' : Config) (types : TypeMap) :
    Resolve.target? config p.types .empty call = Resolve.target? config' types .empty call :=
  Resolve.target?_eq_of_no_sideEffect (Callable.hasSideEffect_eq_false h.ownOffence?_eq_none) hcall
    config config' p.types types .empty .empty

namespace Analyzer

/-- An analysis that looks up definitions. -/
abbrev following (config : Config) (lookup : Lookup) : Analyzer :=
  { config := config, lookup := some lookup }

variable {config : Config} {lookup : Lookup} (judge? : Option Judge) (visit : Visit)
  {p : BoundCallable} {r : Reference}

/-- A pending target is found to be pure when it is under analysis already, or when it has a
    definition which in turn is found to be pure. -/
theorem outcome_checkTarget_eq_none_iff (h : p.Pending config r) :
    ((following config lookup).checkTarget lookup judge? visit r).outcome = .ok none
      ↔ r.key ∈ visit.inProgress ∨ ∃ judge q, judge? = some judge ∧ p.Edge config lookup r q
        ∧ (judge (visit.descend r) q.callable q.thisType).outcome = .ok none := by
  by_cases hkey : r.key ∈ visit.inProgress
  · rw [outcome_checkTarget_of_inProgress _ lookup judge? visit hkey]
    exact iff_of_true rfl (Or.inl hkey)
  · rw [or_iff_right hkey]
    cases judge? with
    | none =>
      rw [outcome_checkTarget_none _ lookup visit h.notWhitelisted hkey]
      simp
    | some judge =>
      rw [outcome_checkTarget_some _ lookup visit h.notWhitelisted hkey]
      constructor
      · intro hnone
        cases hfound : lookup r with
        | none => simp [hfound] at hnone
        | some callee =>
          refine ⟨judge, _, rfl, h.edge hfound, ?_⟩
          rw [hfound] at hnone
          show (judge (visit.descend r) callee r.className).outcome = _
          unfold Reference.className
          cases hcallee : (judge (visit.descend r) callee (r.cls.map Ident.text)).outcome with
          | error fault => simp [hcallee, Except.map] at hnone
          | ok o? =>
            cases o? with
            | none => rfl
            | some o => simp [hcallee, Except.map] at hnone
      · rintro ⟨_, q, ⟨⟩, hedge, hnone⟩
        have hbound : r.cls.map Ident.text = q.thisType := hedge.bound.symm
        rw [hedge.found, hbound]
        dsimp only
        rw [hnone]
        rfl

theorem outcome_checkCall_of_target {call : Node}
    (h : Resolve.target? config p.types .empty call = .ok (some r)) :
    ((following config lookup).checkCall lookup judge? visit p.types .empty call).outcome
      = ((following config lookup).checkTarget lookup judge? visit r).outcome := by
  rw [outcome_checkCall, h]

/-- A callable without an offence by itself is judged by its calls. -/
theorem outcome_judgeWith_following (h : p.callable.ownOffence? config p.thisType = .ok none) :
    ((following config lookup).judgeWith judge? visit p.callable p.thisType).outcome
      = (Run.firstOffence ((following config lookup).checkCall lookup judge? visit p.types .empty)
          (locateCalls p.callable.body)).outcome :=
  outcome_judgeWith_of_lookup (z := following config lookup) judge? visit h rfl

/-- Nothing is found in a callable exactly when nothing is wrong with it by itself and every target
    that it calls is under analysis already, or has a definition in which nothing is found. -/
theorem outcome_judgeWith_eq_none_iff :
    ((following config lookup).judgeWith judge? visit p.callable p.thisType).outcome = .ok none
      ↔ p.LocallyClean config ∧ ∀ r, p.Pending config r →
        r.key ∈ visit.inProgress ∨ ∃ judge q, judge? = some judge ∧ p.Edge config lookup r q
          ∧ (judge (visit.descend r) q.callable q.thisType).outcome = .ok none := by
  constructor
  · intro h
    have hown := ownOffence?_of_outcome_judgeWith judge? visit h
    rw [outcome_judgeWith_following judge? visit hown,
      Run.outcome_firstOffence_eq_none_iff] at h
    obtain ⟨hbyRef, haccesses⟩ := (Callable.ownOffence?_eq_none_iff _ _ _).1 hown
    refine ⟨⟨(Callable.byRefBindings_eq_nil_iff _).1 hbyRef, haccesses, ?_⟩, ?_⟩
    · intro call hcall
      have hcheck := h call hcall
      rw [outcome_checkCall] at hcheck
      split at hcheck
      · cases hcheck
      · cases hcheck
      · next r htarget => exact ⟨r, htarget⟩
    · intro r hr
      obtain ⟨call, hcall, htarget⟩ := hr.called
      rw [← outcome_checkTarget_eq_none_iff judge? visit hr,
        ← outcome_checkCall_of_target judge? visit htarget]
      exact h call hcall
  · rintro ⟨hclean, hpending⟩
    rw [outcome_judgeWith_following judge? visit hclean.ownOffence?_eq_none,
      Run.outcome_firstOffence_eq_none_iff]
    intro call hcall
    obtain ⟨r, htarget⟩ := hclean.calls call hcall
    rw [outcome_checkCall_of_target judge? visit htarget]
    by_cases hlist : r.isWhitelisted config = true
    · exact outcome_checkTarget_of_whitelisted _ lookup judge? visit hlist
    · have hr : p.Pending config r := ⟨⟨call, hcall, htarget⟩, Bool.eq_false_iff.2 hlist⟩
      exact (outcome_checkTarget_eq_none_iff judge? visit hr).2 (hpending r hr)

/-- The same for a judgement that may follow `budget` calls in a row: one of them is used up. -/
theorem outcome_judge_eq_none_iff (budget : Nat) :
    ((following config lookup).judge budget visit p.callable p.thisType).outcome = .ok none
      ↔ p.LocallyClean config ∧ ∀ r, p.Pending config r →
        r.key ∈ visit.inProgress ∨ ∃ below q, budget = below + 1 ∧ p.Edge config lookup r q
          ∧ ((following config lookup).judge below (visit.descend r) q.callable q.thisType).outcome
            = .ok none := by
  cases budget with
  | zero =>
    rw [Analyzer.judge, outcome_judgeWith_eq_none_iff]
    simp
  | succ below =>
    rw [Analyzer.judge, outcome_judgeWith_eq_none_iff]
    simp

/-- The offences of calls whose targets all have definitions: the call goes too deep, or the target
    has an offence. -/
inductive CallOffence (config : Config) (lookup : Lookup) (judge? : Option Judge) (visit : Visit)
    (p : BoundCallable) : Offence → Prop
  | depthLimit {r : Reference} (hlimit : judge? = none) (hpending : p.Pending config r)
      (hfresh : r.key ∉ visit.inProgress) :
      CallOffence config lookup judge? visit p (.depthLimit config.maxCallDepth r)
  | impureCall {r : Reference} {q : BoundCallable} {judge : Judge} {cause : Offence}
      (hjudge : judge? = some judge) (hedge : p.Edge config lookup r q)
      (hfresh : r.key ∉ visit.inProgress)
      (hcause : (judge (visit.descend r) q.callable q.thisType).outcome = .ok (some cause)) :
      CallOffence config lookup judge? visit p (.impureCall r cause)

section Found

variable (hfound : ∀ r, p.Pending config r → ∃ callee, lookup r = some callee)
  (hjudge : ∀ judge, judge? = some judge → ∀ r q, p.Edge config lookup r q →
    ∃ o?, (judge (visit.descend r) q.callable q.thisType).outcome = .ok o?)

include hfound hjudge

theorem outcome_checkTarget_cases (hr : p.Pending config r) :
    ∃ o?, ((following config lookup).checkTarget lookup judge? visit r).outcome = .ok o?
      ∧ ∀ o, o? = some o → CallOffence config lookup judge? visit p o := by
  by_cases hkey : r.key ∈ visit.inProgress
  · exact ⟨none, outcome_checkTarget_of_inProgress _ lookup judge? visit hkey, nofun⟩
  · cases judge? with
    | none =>
      refine ⟨_, outcome_checkTarget_none _ lookup visit hr.notWhitelisted hkey, ?_⟩
      rintro _ ⟨⟩
      exact .depthLimit rfl hr hkey
    | some judge =>
      obtain ⟨callee, hcallee⟩ := hfound r hr
      obtain ⟨o?, ho⟩ := hjudge judge rfl r _ (hr.edge hcallee)
      refine ⟨o?.map (.impureCall r), ?_, ?_⟩
      · rw [outcome_checkTarget_some _ lookup visit hr.notWhitelisted hkey, hcallee]
        show Except.map _ (judge (visit.descend r) callee r.className).outcome = _
        rw [ho]
        rfl
      · intro o hmap
        obtain ⟨cause, rfl, rfl⟩ := Option.map_eq_some_iff.1 hmap
        exact .impureCall rfl (hr.edge hcallee) hkey ho

/-- Where nothing is wrong with a callable by itself and all its targets have definitions, the only
    offences are those of calls. -/
theorem outcome_judgeWith_of_locallyClean (hclean : p.LocallyClean config) :
    ∃ o?, ((following config lookup).judgeWith judge? visit p.callable p.thisType).outcome = .ok o?
      ∧ ∀ o, o? = some o → CallOffence config lookup judge? visit p o := by
  let check := (following config lookup).checkCall lookup judge? visit p.types .empty
  have hcheck : ∀ call ∈ locateCalls p.callable.body, ∃ o?, (check call).outcome = .ok o?
      ∧ ∀ o, o? = some o → CallOffence config lookup judge? visit p o := by
    intro call hcall
    obtain ⟨r, htarget⟩ := hclean.calls call hcall
    rw [outcome_checkCall_of_target judge? visit htarget]
    by_cases hlist : r.isWhitelisted config = true
    · exact ⟨none, outcome_checkTarget_of_whitelisted _ lookup judge? visit hlist, nofun⟩
    · exact outcome_checkTarget_cases judge? visit hfound hjudge
        ⟨⟨call, hcall, htarget⟩, Bool.eq_false_iff.2 hlist⟩
  rw [outcome_judgeWith_following judge? visit hclean.ownOffence?_eq_none]
  have hends : ∀ call ∈ locateCalls p.callable.body, ∃ o?, (check call).outcome = .ok o? :=
    fun call hcall => (hcheck call hcall).imp fun _ h => h.1
  rcases Run.outcome_firstOffence_cases check hends with hnone | ⟨call, hcall, o, ho, hfirst⟩
  · exact ⟨none, hnone, nofun⟩
  · obtain ⟨o?, ho', hoffence⟩ := hcheck call hcall
    rw [ho] at ho'
    cases ho'
    exact ⟨some o, hfirst, hoffence⟩

end Found

end Analyzer

/-! ## Functions that only call

Every graph of named functions is the call graph of functions of this sort. -/

/-- A function that calls other functions by name, one after the other, and does nothing else. -/
def Callable.calling (name : Ident) (targets : List Ident) : Callable :=
  .function ⟨name, [], targets.map fun f => .expression (.call (.named f) []), false, none⟩

namespace BoundCallable

theorem locateCalls_calling (name : Ident) (targets : List Ident) :
    locateCalls (Callable.calling name targets).body
      = targets.map fun f => .expr (.call (.named f) []) := by
  have hscope (f : Ident) :
      (Node.stmt (.expression (.call (.named f) []))).scope.filter Node.isCall
        = [.expr (.call (.named f) [])] := by
    cbv
  show locateCalls ((targets.map fun f => Stmt.expression (.call (.named f) [])).map Node.stmt) = _
  rw [locateCalls, locate_eq, List.filter_flatMap, List.map_map, List.flatMap_map]
  simp only [Function.comp_apply, hscope]
  exact List.map_eq_flatMap.symm

variable (config : Config) (name : Ident) (targets : List Ident) (thisType : Option String)

theorem locallyClean_calling : LocallyClean config ⟨.calling name targets, thisType⟩ := by
  have haccesses (f : Ident) :
      (Node.stmt (.expression (.call (.named f) []))).accesses [] = [] := by
    cbv
  refine ⟨(Callable.byRefBindings_eq_nil_iff _).1 rfl, ⟨_, locateAccesses_eq _, ?_⟩, ?_⟩
  · intro a ha
    simp [Callable.calling, Callable.body, haccesses] at ha
  · intro call hcall
    rw [locateCalls_calling, List.mem_map] at hcall
    obtain ⟨f, -, rfl⟩ := hcall
    exact ⟨⟨f, none⟩, rfl⟩

/-- The targets are the functions it names, apart from those that are taken to be pure. -/
theorem pending_calling_iff (r : Reference) :
    Pending config ⟨.calling name targets, thisType⟩ r
      ↔ ∃ f ∈ targets, r = ⟨f, none⟩ ∧ config.isKnownPure f.text = false := by
  constructor
  · rintro ⟨⟨call, hcall, htarget⟩, hlist⟩
    rw [locateCalls_calling, List.mem_map] at hcall
    obtain ⟨f, hf, rfl⟩ := hcall
    cases htarget
    exact ⟨f, hf, rfl, hlist⟩
  · rintro ⟨f, hf, rfl, hlist⟩
    refine ⟨⟨.expr (.call (.named f) []), ?_, rfl⟩, hlist⟩
    rw [locateCalls_calling]
    exact List.mem_map_of_mem hf

end BoundCallable

/-- Such a function is judged by looking at its targets one after the other. -/
theorem Analyzer.judgeWith_calling (config : Config) (lookup : Lookup) (judge? : Option Judge)
    (visit : Visit) (name : Ident) (targets : List Ident) (thisType : Option String) :
    (following config lookup).judgeWith judge? visit (.calling name targets) thisType
      = Run.firstOffence ((following config lookup).checkTarget lookup judge? visit)
          (targets.map fun f => ⟨f, none⟩) := by
  have hown := (BoundCallable.locallyClean_calling config name targets
    thisType).ownOffence?_eq_none
  rw [judgeWith_eq, hown]
  dsimp only
  rw [BoundCallable.locateCalls_calling, Run.firstOffence_map, Run.firstOffence_map]
  refine Run.firstOffence_congr fun f _ => ?_
  rw [checkCall_eq]
  rfl

end CallablePurity
