import CallablePurity.Proofs.DepthLimit

set_option autoImplicit false

/-! # Explanations

An impure verdict comes with a violation in words and with a log. Both are put together while the
analysis comes back from the calls it followed. This file says that they are true: the violation
spells out calls that lead from the root to a callable, and ends in the first thing that is wrong
with that callable by itself (`BoundCallable.Flaw`); the log has a line for that flaw and one for
each of the calls, innermost first. Calls that were followed before and turned out to be pure leave
nothing behind (`Analyzer.analyze_explained`).

What one judgement leaves behind is described by `Run.Explained`. It is kept by each step of the
analysis, from the check of a single call to the judgement of a callable
(`Analyzer.explained_judgeWith`), and so by induction on the calls that may be followed it holds of
every judgement. -/

namespace CallablePurity

/-! ## Places of the analysis -/

/-- The place of the analysis below several calls, one inside the other. -/
def Visit.after (visit : Visit) (refs : List Reference) : Visit :=
  ⟨(refs.map Reference.key).reverse ++ visit.inProgress, visit.depth + refs.length⟩

theorem Visit.after_cons (visit : Visit) (r : Reference) (refs : List Reference) :
    visit.after (r :: refs) = (visit.descend r).after refs := by
  have hdepth : visit.depth + (refs.length + 1) = visit.depth + 1 + refs.length := by omega
  simp [after, descend, hdepth]

/-! ## What is wrong with a callable by itself -/

namespace BoundCallable

section Flaws

variable (config : Config) (lookup : Lookup) (visit : Visit)

/-- The first offence that a callable has whatever it calls: all its bindings by reference, or the
    first access with a side effect. -/
inductive OwnFlaw (p : BoundCallable) : Offence → Prop
  | byRef {first : ByRefBinding} {rest : List ByRefBinding}
      (hbindings : p.callable.byRefBindings = first :: rest) : OwnFlaw p (.byRef first rest)
  | access {before after : List Access} {a : Access} (hbindings : p.callable.byRefBindings = [])
      (haccesses : locateAccesses p.callable.body = .ok (before ++ a :: after))
      (hbefore : ∀ b ∈ before, b.hasSideEffect p.types config = false)
      (heffect : a.hasSideEffect p.types config = true) : OwnFlaw p (a.offence config)

/-- What is wrong with a call whatever its target does: the target is not known, or it has no
    definition, or calls are not followed any deeper. A target that is taken to be pure or is under
    analysis already needs no definition. -/
inductive CallFlaw (types : TypeMap) (call : Node) : Offence → Prop
  | unresolvable (htarget : Resolve.target? config types .empty call = .ok none) :
      CallFlaw types call (.unresolvable visit.depth)
  | unknown {r : Reference} (htarget : Resolve.target? config types .empty call = .ok (some r))
      (hpending : r.isWhitelisted config = false) (hfresh : r.key ∉ visit.inProgress)
      (hdepth : (visit.depth : Int) < config.maxCallDepth) (hunknown : lookup r = none) :
      CallFlaw types call (.unknown r)
  | depthLimit {r : Reference}
      (htarget : Resolve.target? config types .empty call = .ok (some r))
      (hpending : r.isWhitelisted config = false) (hfresh : r.key ∉ visit.inProgress)
      (hdepth : (visit.depth : Int) = config.maxCallDepth) :
      CallFlaw types call (.depthLimit config.maxCallDepth r)

/-- The first thing that is wrong with a callable by itself: with its bindings or accesses, or, if
    nothing is, with its first call that has a flaw. -/
inductive Flaw (p : BoundCallable) : Offence → Prop
  | own {o : Offence} (hown : p.OwnFlaw config o) : Flaw p o
  | call {before after : List Node} {call : Node} {o : Offence}
      (hown : p.callable.ownOffence? config p.thisType = .ok none)
      (hcalls : locateCalls p.callable.body = before ++ call :: after)
      (hbefore : ∀ b ∈ before, ∀ o', ¬ CallFlaw config lookup visit p.types b o')
      (hcall : CallFlaw config lookup visit p.types call o) : Flaw p o

/-- The references by which calls lead from one callable to another, one inside the other. -/
inductive Path : BoundCallable → List Reference → BoundCallable → Prop
  | nil (p : BoundCallable) : Path p [] p
  | cons {p q q' : BoundCallable} {r : Reference} {refs : List Reference}
      (hedge : p.Edge config lookup r q) (hrest : Path q refs q') : Path p (r :: refs) q'

/-- The offence spells out calls from the callable to one with a flaw, not too deep, and then that
    flaw. -/
def Explains (p : BoundCallable) (o : Offence) : Prop :=
  ∃ refs q base, Path config lookup p refs q
    ∧ ((visit.after refs).depth : Int) ≤ config.maxCallDepth
    ∧ q.Flaw config lookup (visit.after refs) base ∧ o = .through refs base

end Flaws

variable {config : Config} {lookup : Lookup} {visit : Visit} {p : BoundCallable}

theorem ownFlaw_of_ownOffence? {o : Offence}
    (h : p.callable.ownOffence? config p.thisType = .ok (some o)) : p.OwnFlaw config o := by
  unfold Callable.ownOffence? at h
  split at h
  · next first rest hbindings =>
    cases h
    exact .byRef hbindings
  · next hbindings =>
    rw [locateAccesses_eq] at h
    obtain ⟨a, hfind, rfl⟩ := Option.map_eq_some_iff.1 (Except.ok.inj h)
    obtain ⟨heffect, before, after, hsplit, hbefore⟩ := List.find?_eq_some_iff_append.1 hfind
    have haccesses : locateAccesses p.callable.body = .ok (before ++ a :: after) := by
      rw [locateAccesses_eq, hsplit]
    refine .access hbindings haccesses ?_ heffect
    intro b hb
    have hharmless := hbefore b hb
    rwa [Bool.not_eq_true'] at hharmless

end BoundCallable

/-! ## The log of an offence -/

namespace Offence

/-- The offences that are logged on the way back from the innermost call: that of the innermost
    callable first, and then that of each call. -/
def unwinding : Offence → List Offence
  | impureCall target cause => cause.unwinding ++ [impureCall target cause]
  | o => [o]

/-- There is one more offence logged than there are calls. The calls from some level down are those
    that are left when the calls above that level are dropped. -/
theorem unwinding_through {base : Offence} (h : base.unwinding = [base])
    (refs : List Reference) :
    (through refs base).unwinding
      = base :: (List.range refs.length).reverse.map
          fun level => through (refs.drop level) base := by
  induction refs with
  | nil => exact h
  | cons r refs ih =>
    have hcons : (through (r :: refs) base).unwinding
        = (through refs base).unwinding ++ [through (r :: refs) base] := rfl
    have hlevels : (List.range (r :: refs).length).reverse
        = (List.range refs.length).reverse.map Nat.succ ++ [0] := by
      rw [List.length_cons, List.range_succ_eq_map, List.reverse_cons, List.map_reverse]
    rw [hcons, ih, hlevels, List.map_append, List.map_map, List.cons_append]
    rfl

end Offence

open BoundCallable

theorem BoundCallable.OwnFlaw.unwinding {config : Config} {p : BoundCallable} {o : Offence}
    (h : p.OwnFlaw config o) : o.unwinding = [o] := by
  cases h with
  | byRef _ => rfl
  | access _ _ _ _ =>
    unfold Access.offence
    split <;> rfl

theorem BoundCallable.Flaw.unwinding {config : Config} {lookup : Lookup} {visit : Visit}
    {p : BoundCallable} {o : Offence} (h : p.Flaw config lookup visit o) : o.unwinding = [o] := by
  cases h with
  | own hown => exact hown.unwinding
  | call _ _ _ hcall => cases hcall <;> rfl

/-! ## What a run leaves behind -/

namespace Run

/-- The log is that of the offence found, which has the property, and is empty where there is
    none. -/
structure Explained (P : Offence → Prop) (run : Run (Option Offence)) : Prop where
  ofNone : run.outcome = .ok none → run.logged = []
  ofSome : ∀ o, run.outcome = .ok (some o) → run.logged = o.unwinding ∧ P o

variable {P Q : Offence → Prop}

theorem Explained.mono {run : Run (Option Offence)} (h : run.Explained P)
    (hPQ : ∀ o, P o → Q o) : run.Explained Q := by
  refine ⟨h.ofNone, ?_⟩
  intro o ho
  obtain ⟨hlogged, hP⟩ := h.ofSome o ho
  exact ⟨hlogged, hPQ o hP⟩

theorem explained_clean : clean.Explained P :=
  ⟨fun _ => rfl, nofun⟩

theorem explained_error (logged : List Offence) (asked : List Reference) (fault : AnalysisFault) :
    Explained P ⟨logged, asked, .error fault⟩ :=
  ⟨nofun, nofun⟩

theorem explained_offend {o : Offence} (hlog : o.unwinding = [o]) (hP : P o)
    (asked : List Reference) : Explained P ⟨[o], asked, .ok (some o)⟩ := by
  refine ⟨nofun, ?_⟩
  rintro _ ⟨⟩
  exact ⟨hlog.symm, hP⟩

/-- If each check is explained, so is the search for the first offence: the checks before it leave
    nothing behind. -/
theorem explained_firstOffence {α : Type} {check : α → Run (Option Offence)} {items : List α}
    {R : α → Offence → Prop} (h : ∀ a ∈ items, (check a).Explained (R a)) :
    (firstOffence check items).Explained fun o =>
      ∃ before a after, items = before ++ a :: after
        ∧ (∀ b ∈ before, (check b).outcome = .ok none) ∧ R a o := by
  have hempty {before : List α} (hmem : ∀ b ∈ before, b ∈ items)
      (hnone : ∀ b ∈ before, (check b).outcome = .ok none) :
      (before.flatMap fun b => (check b).logged) = [] := by
    rw [List.flatMap_eq_nil_iff]
    intro b hb
    exact (h b (hmem b hb)).ofNone (hnone b hb)
  refine ⟨?_, ?_⟩
  · intro hnone
    have hall := (outcome_firstOffence_eq_none_iff check items).1 hnone
    rw [logged_firstOffence_of_none hnone, hempty (fun _ hb => hb) hall]
  · intro o ho
    obtain ⟨before, a, after, rfl, hbefore, ha, hlogged⟩ := firstOffence_eq_some ho
    have hmem : a ∈ before ++ a :: after := List.mem_append_right _ List.mem_cons_self
    obtain ⟨hunwinding, hR⟩ := (h a hmem).ofSome o ha
    refine ⟨?_, before, a, after, rfl, hbefore, hR⟩
    rw [hlogged, hempty (fun b hb => List.mem_append_left _ hb) hbefore, hunwinding,
      List.nil_append]

/-- The run of a call that is followed: the offence of its target is logged once more as that of
    the call. -/
theorem Explained.call {run : Run (Option Offence)} (h : run.Explained Q) (r : Reference) :
    Explained (fun o => ∃ cause, Q cause ∧ o = .impureCall r cause)
      (match run.outcome with
        | .error fault => ⟨run.logged, r :: run.asked, .error fault⟩
        | .ok none => ⟨run.logged, r :: run.asked, .ok none⟩
        | .ok (some cause) =>
          ⟨run.logged ++ [.impureCall r cause], r :: run.asked,
            .ok (some (.impureCall r cause))⟩) := by
  cases houtcome : run.outcome with
  | error fault => exact explained_error _ _ _
  | ok cause? =>
    cases cause? with
    | none => exact ⟨fun _ => h.ofNone houtcome, nofun⟩
    | some cause =>
      obtain ⟨hlogged, hQ⟩ := h.ofSome cause houtcome
      refine ⟨nofun, ?_⟩
      rintro _ ⟨⟩
      refine ⟨?_, cause, hQ, rfl⟩
      rw [hlogged]
      rfl

end Run

/-! ## One judgement -/

namespace Analyzer

section Judgement

variable {config : Config} {lookup : Lookup} {judge? : Option Judge} {visit : Visit}
  {p : BoundCallable}

section Step

variable (hnone : judge? = none → (visit.depth : Int) = config.maxCallDepth)
  (hsome : ∀ judge, judge? = some judge → (visit.depth : Int) < config.maxCallDepth
    ∧ ∀ r q, p.Edge config lookup r q →
      (judge (visit.descend r) q.callable q.thisType).Explained
        (q.Explains config lookup (visit.descend r)))

include hnone hsome

/-- A call with a flaw is found to have it. -/
theorem outcome_checkCall_of_callFlaw {call : Node} {o : Offence}
    (h : CallFlaw config lookup visit p.types call o) :
    ((following config lookup).checkCall lookup judge? visit p.types .empty call).outcome
      = .ok (some o) := by
  cases h with
  | unresolvable htarget => rw [outcome_checkCall, htarget]
  | unknown htarget hpending hfresh hdepth hunknown =>
    rw [outcome_checkCall_of_target judge? visit htarget]
    cases judge? with
    | none =>
      have heq := hnone rfl
      omega
    | some judge => rw [outcome_checkTarget_some _ lookup visit hpending hfresh judge, hunknown]
  | depthLimit htarget hpending hfresh hdepth =>
    rw [outcome_checkCall_of_target judge? visit htarget]
    cases judge? with
    | none => exact outcome_checkTarget_none _ lookup visit hpending hfresh
    | some judge =>
      have hlt := (hsome judge rfl).1
      omega

/-- A target that is found to offend is that of a call with a flaw, or has an offence that is
    explained. -/
theorem explained_checkTarget {call : Node} {r : Reference}
    (hcall : call ∈ locateCalls p.callable.body)
    (htarget : Resolve.target? config p.types .empty call = .ok (some r)) :
    ((following config lookup).checkTarget lookup judge? visit r).Explained
      fun o => CallFlaw config lookup visit p.types call o
        ∨ ∃ r q cause, p.Edge config lookup r q ∧ q.Explains config lookup (visit.descend r) cause
          ∧ o = .impureCall r cause := by
  let z := following config lookup
  by_cases hlist : r.isWhitelisted config = true
  · rw [checkTarget_of_whitelisted z lookup judge? visit hlist]
    exact Run.explained_clean
  by_cases hkey : r.key ∈ visit.inProgress
  · rw [checkTarget_of_inProgress z lookup judge? visit hkey]
    exact Run.explained_clean
  have hpending : r.isWhitelisted config = false := Bool.eq_false_iff.2 hlist
  cases judge? with
  | none =>
    rw [checkTarget_none z lookup visit hpending hkey]
    exact Run.explained_offend rfl (Or.inl (.depthLimit htarget hpending hkey (hnone rfl))) []
  | some judge =>
    obtain ⟨hdepth, hjudge⟩ := hsome judge rfl
    cases hlookup : lookup r with
    | none =>
      rw [checkTarget_of_unknown z lookup visit hpending hkey judge hlookup]
      exact Run.explained_offend rfl (Or.inl (.unknown htarget hpending hkey hdepth hlookup)) [r]
    | some callee =>
      have hedge : p.Edge config lookup r ⟨callee, r.className⟩ :=
        Pending.edge ⟨⟨call, hcall, htarget⟩, hpending⟩ hlookup
      rw [checkTarget_of_found z lookup visit hpending hkey judge hlookup]
      refine ((hjudge r _ hedge).call r).mono ?_
      rintro o ⟨cause, hcause, rfl⟩
      exact Or.inr ⟨r, _, cause, hedge, hcause, rfl⟩

/-- A call that is found to offend has a flaw, or its target has an offence that is explained. -/
theorem explained_checkCall {call : Node} (hcall : call ∈ locateCalls p.callable.body) :
    ((following config lookup).checkCall lookup judge? visit p.types .empty call).Explained
      fun o => CallFlaw config lookup visit p.types call o
        ∨ ∃ r q cause, p.Edge config lookup r q ∧ q.Explains config lookup (visit.descend r) cause
          ∧ o = .impureCall r cause := by
  rw [checkCall_eq]
  cases htarget : Resolve.target? config p.types .empty call with
  | error fault => exact Run.explained_error _ _ _
  | ok target? =>
    cases target? with
    | none => exact Run.explained_offend rfl (Or.inl (.unresolvable htarget)) []
    | some r => exact explained_checkTarget hnone hsome hcall htarget

/-- A judgement is explained if those of the callables below it are. -/
theorem explained_judgeWith (hdepth : (visit.depth : Int) ≤ config.maxCallDepth) :
    ((following config lookup).judgeWith judge? visit p.callable p.thisType).Explained
      (p.Explains config lookup visit) := by
  rw [judgeWith_eq]
  cases hown : p.callable.ownOffence? config p.thisType with
  | error fault => exact Run.explained_error _ _ _
  | ok o? =>
    cases o? with
    | some o =>
      have hflaw := ownFlaw_of_ownOffence? hown
      exact Run.explained_offend hflaw.unwinding ⟨[], p, o, .nil p, hdepth, .own hflaw, rfl⟩ []
    | none =>
      refine (Run.explained_firstOffence fun call hcall =>
        explained_checkCall hnone hsome hcall).mono ?_
      rintro o ⟨before, call, after, hcalls, hbefore, hcall | ⟨r, q, cause, hedge, hcause, rfl⟩⟩
      · -- the flaw is the callable's own: no call before has one, for it would have been found
        refine ⟨[], p, o, .nil p, hdepth, .call hown hcalls ?_ hcall, rfl⟩
        intro b hb o' hflaw
        have hfound := outcome_checkCall_of_callFlaw hnone hsome hflaw
        cases hfound.symm.trans (hbefore b hb)
      · -- the flaw is that of a callable further down
        obtain ⟨refs, q', base, hpath, hle, hflaw, rfl⟩ := hcause
        refine ⟨r :: refs, q', base, .cons hedge hpath, ?_, ?_, rfl⟩
        · rw [Visit.after_cons]
          exact hle
        · rw [Visit.after_cons]
          exact hflaw

end Step

/-- Every judgement is explained. -/
theorem explained_judge (budget : Nat) (visit : Visit) (p : BoundCallable)
    (hbudget : (visit.depth + budget : Int) = config.maxCallDepth) :
    ((following config lookup).judge budget visit p.callable p.thisType).Explained
      (p.Explains config lookup visit) := by
  induction budget generalizing visit p with
  | zero =>
    refine explained_judgeWith ?_ nofun ?_
    · intro _
      omega
    · omega
  | succ budget ih =>
    refine explained_judgeWith nofun ?_ ?_
    · rintro _ ⟨⟩
      refine ⟨by omega, ?_⟩
      intro r q _
      refine ih (visit.descend r) q ?_
      simp only [Visit.descend]
      omega
    · omega

end Judgement

/-! ## The explanation of a verdict -/

/-- The calls in words, from the outermost to the innermost, and then what the innermost ends in. -/
def callsImpure (refs : List Reference) (base : String) : String :=
  String.join (refs.map fun r => "calls impure " ++ r.name ++ ": ") ++ base

/-- The log of a flaw below some calls, line by line. -/
theorem logLines_unwinding {base : Offence} (h : base.unwinding = [base])
    (refs : List Reference) :
    (Offence.through refs base).unwinding.map Offence.logLine
      = base.logLine :: (List.range refs.length).reverse.map fun level =>
          "impure: " ++ callsImpure (refs.drop level) base.violation := by
  have hline (r : Reference) (rest : List Reference) :
      (Offence.through (r :: rest) base).logLine
        = "impure: " ++ callsImpure (r :: rest) base.violation := by
    have hlog : (Offence.through (r :: rest) base).logLine
        = "impure: " ++ (Offence.through (r :: rest) base).violation := rfl
    rw [hlog, Offence.violation_through]
    rfl
  rw [Offence.unwinding_through h, List.map_cons, List.map_map]
  congr 1
  refine List.map_congr_left fun level hlevel => ?_
  have hlt : level < refs.length := by
    simpa using hlevel
  rw [Function.comp_apply, List.drop_eq_getElem_cons hlt]
  exact hline _ _

/-- An offence of a callable by itself sets one flag, and only bindings by reference give more than
    one violation. -/
theorem report_of_ownFlaw {config : Config} {p : BoundCallable} {o : Offence}
    (h : p.OwnFlaw config o) :
    (o.flags = { byRefBinding := true }
      ∧ o.violations = p.callable.byRefBindings.map ByRefBinding.text)
    ∨ o.violations = [o.violation]
      ∧ (o.flags = { globalState := true } ∨ o.flags = { sideEffectingAccess := true }) := by
  cases h with
  | byRef hbindings =>
    left
    rw [hbindings]
    exact ⟨rfl, rfl⟩
  | access _ _ _ _ =>
    right
    unfold Access.offence
    split
    · exact ⟨rfl, Or.inl rfl⟩
    · exact ⟨rfl, Or.inr rfl⟩

/-- All other offences are those of calls. -/
theorem report_of_explains {config : Config} {lookup : Lookup} {visit : Visit} {p : BoundCallable}
    {o : Offence} (h : p.Explains config lookup visit o) :
    p.OwnFlaw config o ∨ o.flags = { impureCall := true } ∧ o.violations = [o.violation] := by
  obtain ⟨refs, q, base, hpath, -, hflaw, rfl⟩ := h
  cases hpath with
  | cons hedge hrest => exact Or.inr ⟨rfl, rfl⟩
  | nil =>
    cases hflaw with
    | own hown => exact Or.inl hown
    | call _ _ _ hcall =>
      right
      cases hcall <;> exact ⟨rfl, rfl⟩

/-- Whether or not definitions can be looked up, the judgement of a root is explained. -/
theorem explained_root (config : Config) (lookup? : Option Lookup) (c : Callable)
    (thisType key? : Option String) :
    (judge { config := config, lookup := lookup? } config.callBudget (startVisit key?) c
        thisType).Explained
      fun o => OwnFlaw config ⟨c, thisType⟩ o
        ∨ ∃ lookup, lookup? = some lookup
          ∧ Explains config lookup (startVisit key?) ⟨c, thisType⟩ o := by
  cases lookup? with
  | some lookup =>
    have hbudget : ((startVisit key?).depth + config.callBudget : Int) = config.maxCallDepth := by
      rw [config.coe_callBudget]
      exact Int.zero_add _
    refine (explained_judge config.callBudget (startVisit key?) ⟨c, thisType⟩ hbudget).mono ?_
    intro o ho
    exact Or.inr ⟨lookup, rfl, ho⟩
  | none =>
    obtain ⟨judge?, hjudge⟩ := judge_eq_judgeWith (z := { config := config }) config.callBudget
    rw [hjudge, judgeWith_eq]
    cases hown : c.ownOffence? config thisType with
    | error fault => exact Run.explained_error _ _ _
    | ok o? =>
      cases o? with
      | none => exact Run.explained_clean
      | some o =>
        have hflaw : OwnFlaw config ⟨c, thisType⟩ o := ownFlaw_of_ownOffence? hown
        exact Run.explained_offend hflaw.unwinding (Or.inl hflaw) []

/-- **Explanations are true.** A pure verdict leaves no log. An impure one sets one flag; it lists
    all bindings by reference, or gives one violation. The violation of an impure call spells out
    calls that lead from the root to a definition, no deeper than the limit, and then the first
    thing that is wrong with that definition by itself; the log has one line for that and one for
    each of the calls, from the innermost level to the root. -/
theorem analyze_explained (config : Config) (lookup? : Option Lookup) (c : Callable)
    (thisType : Option String) (report : Report)
    (h : (analyze { config := config, lookup := lookup? } c thisType).outcome = .ok report) :
    let log := (analyze { config := config, lookup := lookup? } c thisType).logged.map
      Offence.logLine
    (report.isPure = true → log = [])
    ∧ (report.isPure = false →
        (report.flags = { byRefBinding := true }
          ∧ report.violations = c.byRefBindings.map ByRefBinding.text)
        ∨ (∃ violation, report.violations = [violation])
          ∧ (report.flags = { globalState := true } ∨ report.flags = { sideEffectingAccess := true }
            ∨ report.flags = { impureCall := true }))
    ∧ (report.flags.impureCall = true →
        ∃ lookup key? refs q base, lookup? = some lookup ∧ rootKey? c thisType = .ok key?
          ∧ Path config lookup ⟨c, thisType⟩ refs q
          ∧ (refs.length : Int) ≤ config.maxCallDepth
          ∧ q.Flaw config lookup
              ⟨(refs.map Reference.key).reverse ++ (startVisit key?).inProgress, refs.length⟩ base
          ∧ report.violations = [callsImpure refs base.violation]
          ∧ log = base.logLine :: (List.range refs.length).reverse.map (fun level =>
              "impure: " ++ callsImpure (refs.drop level) base.violation)
          ∧ log.length = refs.length + 1) := by
  intro log
  obtain ⟨key?, o?, hkey, hjudge, rfl⟩ := exists_judgement h
  have hexplained := explained_root config lookup? c thisType key?
  have hlog : log = (judge { config := config, lookup := lookup? } config.callBudget
      (startVisit key?) c thisType).logged.map Offence.logLine :=
    congrArg (List.map Offence.logLine) (logged_analyze hkey)
  cases o? with
  | none =>
    refine ⟨?_, nofun, nofun⟩
    intro _
    rw [hlog, hexplained.ofNone hjudge]
    rfl
  | some o =>
    obtain ⟨hlogged, hreason⟩ := hexplained.ofSome o hjudge
    have hsort : OwnFlaw config ⟨c, thisType⟩ o
        ∨ (o.flags = { impureCall := true } ∧ o.violations = [o.violation])
          ∧ ∃ lookup, lookup? = some lookup
            ∧ Explains config lookup (startVisit key?) ⟨c, thisType⟩ o := by
      rcases hreason with hown | ⟨lookup, hlookup, hexplains⟩
      · exact Or.inl hown
      · rcases report_of_explains hexplains with hown | hcall
        · exact Or.inl hown
        · exact Or.inr ⟨hcall, lookup, hlookup, hexplains⟩
    refine ⟨nofun, ?_, ?_⟩
    · intro _
      rcases hsort with hown | ⟨⟨hflags, hviolations⟩, -⟩
      · rcases report_of_ownFlaw hown with hbyRef | ⟨hviolations, hglobal | heffect⟩
        · exact Or.inl hbyRef
        · exact Or.inr ⟨⟨_, hviolations⟩, Or.inl hglobal⟩
        · exact Or.inr ⟨⟨_, hviolations⟩, Or.inr (Or.inl heffect)⟩
      · exact Or.inr ⟨⟨_, hviolations⟩, Or.inr (Or.inr hflags)⟩
    · intro hflag
      have hflag : o.flags.impureCall = true := hflag
      rcases hsort with hown
        | ⟨⟨-, hviolations⟩, lookup, hlookup, refs, q, base, hpath, hdepth, hflaw, rfl⟩
      · rcases report_of_ownFlaw hown with ⟨hflags, -⟩ | ⟨-, hflags | hflags⟩
        all_goals
          rw [hflags] at hflag
          cases hflag
      · have hvisit : (startVisit key?).after refs
            = ⟨(refs.map Reference.key).reverse ++ (startVisit key?).inProgress, refs.length⟩ := by
          simp [Visit.after, startVisit]
        have hlines := logLines_unwinding hflaw.unwinding refs
        rw [hlogged, hlines] at hlog
        rw [hvisit] at hdepth hflaw
        rw [Offence.violation_through] at hviolations
        refine ⟨lookup, key?, refs, q, base, hlookup, hkey, hpath, hdepth, hflaw, hviolations,
          hlog, ?_⟩
        rw [hlog]
        simp

/-! ### A helper that calls what is not known -/

namespace Helper

def main : Ident := ⟨"main", by decide⟩

def leaf : Ident := ⟨"leaf", by decide⟩

def helper : Ident := ⟨"helper", by decide⟩

def missing : Ident := ⟨"missing", by decide⟩

/-- It calls `leaf`, which is pure, and then `helper`. -/
def root : Callable := .calling main [leaf, helper]

def lookup : Lookup :=
  .exact [(⟨leaf, none⟩, some (.calling leaf [])),
    (⟨helper, none⟩, some (.calling helper [missing]))]

def offence : Offence := .impureCall ⟨helper, none⟩ (.unknown ⟨missing, none⟩)

theorem isWhitelisted_eq_false : ∀ f ∈ [leaf, helper, missing],
    Reference.isWhitelisted (following .standard lookup).config ⟨f, none⟩ = false := by
  decide +kernel

theorem outcome_judge_leaf (visit : Visit) :
    ((following .standard lookup).judge 7 visit (.calling leaf []) none).outcome = .ok none := by
  rw [judge, judgeWith_calling]
  rfl

theorem outcome_judge_helper {visit : Visit}
    (h : Reference.key ⟨missing, none⟩ ∉ visit.inProgress) :
    ((following .standard lookup).judge 7 visit (.calling helper [missing]) none).outcome
      = .ok (some (.unknown ⟨missing, none⟩)) := by
  rw [judge, judgeWith_calling, List.map_singleton, Run.outcome_firstOffence_cons_of_offence]
  rw [outcome_checkTarget_some (following .standard lookup) lookup visit
    (isWhitelisted_eq_false missing (by simp)) h]
  rfl

theorem outcome_analyze_root :
    (analyze { lookup := some lookup } root none).outcome = .ok offence.report := by
  let z := following .standard lookup
  let start := startVisit (some "main")
  have hkey : rootKey? root none = .ok (some "main") := by decide +kernel
  have hleaf : Reference.key ⟨leaf, none⟩ ∉ start.inProgress := by decide +kernel
  have hhelper : Reference.key ⟨helper, none⟩ ∉ start.inProgress := by decide +kernel
  have hmissing : Reference.key ⟨missing, none⟩ ∉ (start.descend ⟨helper, none⟩).inProgress := by
    decide +kernel
  have hclean : (z.checkTarget lookup (some (z.judge 7)) start ⟨leaf, none⟩).outcome
      = .ok none := by
    rw [outcome_checkTarget_some z lookup start (isWhitelisted_eq_false leaf (by simp)) hleaf]
    show Except.map _ (z.judge 7 (start.descend ⟨leaf, none⟩) (.calling leaf []) none).outcome = _
    rw [outcome_judge_leaf]
    rfl
  have hoffence : (z.checkTarget lookup (some (z.judge 7)) start ⟨helper, none⟩).outcome
      = .ok (some offence) := by
    rw [outcome_checkTarget_some z lookup start (isWhitelisted_eq_false helper (by simp)) hhelper]
    show Except.map _ (z.judge 7 (start.descend ⟨helper, none⟩) (.calling helper [missing])
      none).outcome = _
    rw [outcome_judge_helper hmissing]
    rfl
  have hroot : (z.judge 8 start root none).outcome = .ok (some offence) := by
    rw [judge, root, judgeWith_calling, List.map_cons, List.map_singleton,
      Run.outcome_firstOffence_cons_of_clean hclean,
      Run.outcome_firstOffence_cons_of_offence hoffence]
  exact outcome_analyze_of_judge hkey hroot

end Helper

/-- The violation leads through the helper, and the log has a line for each of the two levels. -/
theorem analyze_explained_helper :
    (analyze { lookup := some Helper.lookup } Helper.root none).outcome = .ok Helper.offence.report
    ∧ Helper.offence.report.violations = ["calls impure helper: unknown callable missing"]
    ∧ ∃ (refs : List Reference) (q : BoundCallable) (base : Offence),
      Path .standard Helper.lookup ⟨Helper.root, none⟩ refs q
      ∧ Helper.offence.report.violations = [callsImpure refs base.violation]
      ∧ (analyze { lookup := some Helper.lookup } Helper.root none).logged.length
        = refs.length + 1 := by
  obtain ⟨-, -, hcall⟩ := analyze_explained .standard (some Helper.lookup) Helper.root none
    Helper.offence.report Helper.outcome_analyze_root
  obtain ⟨lookup, key?, refs, q, base, hlookup, -, hpath, -, -, hviolations, -, hlength⟩ :=
    hcall rfl
  cases hlookup
  rw [List.length_map] at hlength
  exact ⟨Helper.outcome_analyze_root, by decide +kernel, refs, q, base, hpath, hviolations, hlength⟩

end Analyzer

end CallablePurity
