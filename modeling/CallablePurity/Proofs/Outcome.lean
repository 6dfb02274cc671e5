import CallablePurity.Analysis

set_option autoImplicit false

/-! # What an analysis does and how it ends

A run of the analysis leaves a trace, of the offences it logged and the definitions it asked for,
and has an outcome. Here each function of the analysis gets the equations of its runs, and from them
those of its outcomes. The outcome of a sequence of runs depends on the outcomes of its parts alone
(`Run.outcome_bind`), so questions about verdicts need not look at traces. -/

namespace CallablePurity

namespace Run

variable {α β : Type}

theorem outcome_bind (r : Run α) (f : α → Run β) :
    (r >>= f).outcome = r.outcome >>= fun a => (f a).outcome := by
  show (r.andThen f).outcome = _
  unfold andThen
  cases r.outcome <;> rfl

theorem outcome_bind_of_ok {r : Run α} {a : α} (h : r.outcome = .ok a) (f : α → Run β) :
    (r >>= f).outcome = (f a).outcome := by
  rw [outcome_bind, h]
  rfl

theorem outcome_bind_of_error {r : Run α} {fault : AnalysisFault} (h : r.outcome = .error fault)
    (f : α → Run β) : (r >>= f).outcome = .error fault := by
  rw [outcome_bind, h]
  rfl

/-- What goes on from a result keeps the trace that led to it. -/
theorem bind_of_ok {r : Run α} {a : α} (h : r.outcome = .ok a) (f : α → Run β) :
    r >>= f = ⟨r.logged ++ (f a).logged, r.asked ++ (f a).asked, (f a).outcome⟩ := by
  show r.andThen f = _
  rw [andThen, h]

theorem bind_of_error {r : Run α} {fault : AnalysisFault} (h : r.outcome = .error fault)
    (f : α → Run β) : r >>= f = ⟨r.logged, r.asked, .error fault⟩ := by
  show r.andThen f = _
  rw [andThen, h]

/-- What is only computed from a result leaves no trace. -/
theorem bind_pure_eq (r : Run α) (f : α → β) :
    (do return f (← r)) = (⟨r.logged, r.asked, r.outcome.map f⟩ : Run β) := by
  cases h : r.outcome with
  | error fault => exact bind_of_error h _
  | ok a =>
    rw [bind_of_ok h]
    simp [pure, done, Except.map]

theorem ofExcept_bind_of_ok {x : Except AnalysisFault α} {a : α} (h : x = .ok a)
    (f : α → Run β) : ofExcept x >>= f = f a := by
  rw [h]
  exact done_andThen a f

/-! ## The first offence of several items -/

section FirstOffence

variable {check : α → Run (Option Offence)} {a : α}

theorem firstOffence_congr {check' : α → Run (Option Offence)} {items : List α}
    (h : ∀ a ∈ items, check a = check' a) :
    firstOffence check items = firstOffence check' items := by
  induction items with
  | nil => rfl
  | cons a rest ih =>
    rw [List.forall_mem_cons] at h
    rw [firstOffence, firstOffence, h.1, ih h.2]

theorem outcome_firstOffence_cons_of_clean (h : (check a).outcome = .ok none) (rest : List α) :
    (firstOffence check (a :: rest)).outcome = (firstOffence check rest).outcome := by
  rw [firstOffence, outcome_bind_of_ok h]

theorem outcome_firstOffence_cons_of_offence {o : Offence} (h : (check a).outcome = .ok (some o))
    (rest : List α) : (firstOffence check (a :: rest)).outcome = .ok (some o) := by
  rw [firstOffence, outcome_bind_of_ok h]
  rfl

theorem outcome_firstOffence_cons_of_error {fault : AnalysisFault}
    (h : (check a).outcome = .error fault) (rest : List α) :
    (firstOffence check (a :: rest)).outcome = .error fault := by
  rw [firstOffence, outcome_bind_of_error h]

/-- There is no offence exactly when no item has one, and none faults. -/
theorem outcome_firstOffence_eq_none_iff (check : α → Run (Option Offence)) (items : List α) :
    (firstOffence check items).outcome = .ok none
      ↔ ∀ a ∈ items, (check a).outcome = .ok none := by
  induction items with
  | nil => exact ⟨fun _ a ha => absurd ha List.not_mem_nil, fun _ => rfl⟩
  | cons a rest ih =>
    rw [List.forall_mem_cons]
    cases hcheck : (check a).outcome with
    | error fault =>
      rw [outcome_firstOffence_cons_of_error hcheck]
      simp
    | ok o? =>
      cases o? with
      | none =>
        rw [outcome_firstOffence_cons_of_clean hcheck, ih]
        simp
      | some o =>
        rw [outcome_firstOffence_cons_of_offence hcheck]
        simp

/-- If no item faults, the offence found is that of some item. -/
theorem outcome_firstOffence_cases (check : α → Run (Option Offence)) {items : List α}
    (h : ∀ a ∈ items, ∃ o?, (check a).outcome = .ok o?) :
    (firstOffence check items).outcome = .ok none
    ∨ ∃ a ∈ items, ∃ o, (check a).outcome = .ok (some o)
        ∧ (firstOffence check items).outcome = .ok (some o) := by
  induction items with
  | nil => exact Or.inl rfl
  | cons a rest ih =>
    rw [List.forall_mem_cons] at h
    obtain ⟨⟨o?, hcheck⟩, hrest⟩ := h
    cases o? with
    | none =>
      rw [outcome_firstOffence_cons_of_clean hcheck]
      rcases ih hrest with hnone | ⟨b, hb, o, hbo, ho⟩
      · exact Or.inl hnone
      · exact Or.inr ⟨b, List.mem_cons_of_mem a hb, o, hbo, ho⟩
    | some o =>
      exact Or.inr ⟨a, List.mem_cons_self, o, hcheck,
        outcome_firstOffence_cons_of_offence hcheck rest⟩

/-- A fault is that of some item. -/
theorem exists_of_outcome_firstOffence_eq_error {items : List α} {fault : AnalysisFault}
    (h : (firstOffence check items).outcome = .error fault) :
    ∃ a ∈ items, (check a).outcome = .error fault := by
  induction items with
  | nil => cases h
  | cons a rest ih =>
    cases hcheck : (check a).outcome with
    | error fault' =>
      rw [outcome_firstOffence_cons_of_error hcheck] at h
      cases h
      exact ⟨a, List.mem_cons_self, hcheck⟩
    | ok o? =>
      cases o? with
      | some o =>
        rw [outcome_firstOffence_cons_of_offence hcheck] at h
        cases h
      | none =>
        rw [outcome_firstOffence_cons_of_clean hcheck] at h
        obtain ⟨b, hb, hfault⟩ := ih h
        exact ⟨b, List.mem_cons_of_mem a hb, hfault⟩

theorem firstOffence_map (f : β → α) (items : List β) :
    firstOffence check (items.map f) = firstOffence (fun b => check (f b)) items := by
  induction items with
  | nil => rfl
  | cons b rest ih => rw [List.map_cons, firstOffence, firstOffence, ih]

/-- Nothing happens in checks that are all clean. -/
theorem firstOffence_eq_clean {items : List α} (h : ∀ a ∈ items, check a = .clean) :
    firstOffence check items = .clean := by
  induction items with
  | nil => rfl
  | cons a rest ih =>
    rw [List.forall_mem_cons] at h
    rw [firstOffence, h.1]
    exact (done_andThen none _).trans (ih h.2)

theorem firstOffence_singleton (a : α) : firstOffence check [a] = check a := by
  rw [firstOffence]
  refine Eq.trans (congrArg (check a).andThen ?_) (andThen_done (check a))
  funext o?
  cases o? <;> rfl

/-- Without an offence the log is that of all the checks. -/
theorem logged_firstOffence_of_none {items : List α}
    (h : (firstOffence check items).outcome = .ok none) :
    (firstOffence check items).logged = items.flatMap fun a => (check a).logged := by
  induction items with
  | nil => rfl
  | cons a rest ih =>
    have hall := (outcome_firstOffence_eq_none_iff check (a :: rest)).1 h
    have hnone : (check a).outcome = .ok none := hall a List.mem_cons_self
    rw [outcome_firstOffence_cons_of_clean hnone] at h
    rw [firstOffence, bind_of_ok hnone, List.flatMap_cons, ← ih h]

/-- An offence is that of one item. No item before it has an offence, and the log is that of the
    checks up to it. -/
theorem firstOffence_eq_some {items : List α} {o : Offence}
    (h : (firstOffence check items).outcome = .ok (some o)) :
    ∃ before a after, items = before ++ a :: after
      ∧ (∀ b ∈ before, (check b).outcome = .ok none)
      ∧ (check a).outcome = .ok (some o)
      ∧ (firstOffence check items).logged
        = (before.flatMap fun b => (check b).logged) ++ (check a).logged := by
  induction items with
  | nil => cases h
  | cons a rest ih =>
    cases hcheck : (check a).outcome with
    | error fault =>
      rw [outcome_firstOffence_cons_of_error hcheck] at h
      cases h
    | ok o? =>
      cases o? with
      | none =>
        rw [outcome_firstOffence_cons_of_clean hcheck] at h
        obtain ⟨before, b, after, rfl, hbefore, hb, hlogged⟩ := ih h
        refine ⟨a :: before, b, after, rfl, ?_, hb, ?_⟩
        · rw [List.forall_mem_cons]
          exact ⟨hcheck, hbefore⟩
        · rw [firstOffence, bind_of_ok hcheck, List.flatMap_cons, List.append_assoc, ← hlogged]
      | some o' =>
        rw [outcome_firstOffence_cons_of_offence hcheck] at h
        cases h
        refine ⟨[], a, rest, rfl, nofun, hcheck, ?_⟩
        rw [firstOffence, bind_of_ok hcheck]
        exact List.append_nil _

end FirstOffence

end Run

/-! ## Checks of calls -/

/-- The call needs no look at the target: a function that is taken to be pure. -/
def Reference.isWhitelisted (config : Config) (r : Reference) : Bool :=
  !r.isMethod && config.isKnownPure r.function.text

namespace Analyzer

variable (z : Analyzer) (lookup : Lookup) (judge : Option Judge) (visit : Visit)

section Target

variable {target : Reference}

theorem checkTarget_of_whitelisted (h : target.isWhitelisted z.config = true) :
    z.checkTarget lookup judge visit target = .clean := by
  unfold Reference.isWhitelisted at h
  unfold checkTarget
  rw [if_pos h]

theorem outcome_checkTarget_of_whitelisted (h : target.isWhitelisted z.config = true) :
    (z.checkTarget lookup judge visit target).outcome = .ok none := by
  rw [checkTarget_of_whitelisted z lookup judge visit h]
  rfl

theorem checkTarget_of_inProgress (h : target.key ∈ visit.inProgress) :
    z.checkTarget lookup judge visit target = .clean := by
  unfold checkTarget
  rw [if_pos (List.contains_iff_mem.2 h)]
  split <;> rfl

theorem outcome_checkTarget_of_inProgress (h : target.key ∈ visit.inProgress) :
    (z.checkTarget lookup judge visit target).outcome = .ok none := by
  rw [checkTarget_of_inProgress z lookup judge visit h]
  rfl

variable (hpending : target.isWhitelisted z.config = false) (hfresh : target.key ∉ visit.inProgress)

include hpending hfresh

theorem checkTarget_none :
    z.checkTarget lookup none visit target
      = .offend (.depthLimit z.config.maxCallDepth target) := by
  unfold Reference.isWhitelisted at hpending
  unfold checkTarget
  rw [if_neg (Bool.eq_false_iff.1 hpending), if_neg (mt List.contains_iff_mem.1 hfresh)]

theorem outcome_checkTarget_none :
    (z.checkTarget lookup none visit target).outcome
      = .ok (some (.depthLimit z.config.maxCallDepth target)) := by
  rw [checkTarget_none z lookup visit hpending hfresh]
  rfl

theorem checkTarget_of_unknown (judge : Judge) (h : lookup target = none) :
    z.checkTarget lookup (some judge) visit target
      = ⟨[.unknown target], [target], .ok (some (.unknown target))⟩ := by
  unfold Reference.isWhitelisted at hpending
  unfold checkTarget
  rw [if_neg (Bool.eq_false_iff.1 hpending), if_neg (mt List.contains_iff_mem.1 hfresh), h]
  rfl

/-- A target with a definition is asked for and judged, and its offence is logged once more as that
    of the call. -/
theorem checkTarget_of_found (judge : Judge) {callee : Callable}
    (h : lookup target = some callee) :
    z.checkTarget lookup (some judge) visit target
      = let run := judge (visit.descend target) callee (target.cls.map Ident.text)
        match run.outcome with
        | .error fault => ⟨run.logged, target :: run.asked, .error fault⟩
        | .ok none => ⟨run.logged, target :: run.asked, .ok none⟩
        | .ok (some cause) =>
          ⟨run.logged ++ [.impureCall target cause], target :: run.asked,
            .ok (some (.impureCall target cause))⟩ := by
  unfold Reference.isWhitelisted at hpending
  unfold checkTarget
  rw [if_neg (Bool.eq_false_iff.1 hpending), if_neg (mt List.contains_iff_mem.1 hfresh), h]
  dsimp only
  rw [Run.bind_of_ok (r := Run.ask target) (a := ()) rfl]
  cases hrun : (judge (visit.descend target) callee (target.cls.map Ident.text)).outcome with
  | error fault =>
    rw [Run.bind_of_error hrun]
    rfl
  | ok cause? =>
    rw [Run.bind_of_ok hrun]
    cases cause? with
    | none => simp [Run.ask, Run.clean, Run.done]
    | some cause => simp [Run.ask, Run.offend]

theorem outcome_checkTarget_some (judge : Judge) :
    (z.checkTarget lookup (some judge) visit target).outcome
      = match lookup target with
        | none => .ok (some (.unknown target))
        | some callee =>
          (judge (visit.descend target) callee (target.cls.map Ident.text)).outcome.map
            (Option.map (.impureCall target)) := by
  cases hlookup : lookup target with
  | none => rw [checkTarget_of_unknown z lookup visit hpending hfresh judge hlookup]
  | some callee =>
    rw [checkTarget_of_found z lookup visit hpending hfresh judge hlookup]
    dsimp only
    cases (judge (visit.descend target) callee (target.cls.map Ident.text)).outcome with
    | error fault => rfl
    | ok cause? => cases cause? <;> rfl

end Target

theorem checkCall_eq (types : TypeMap) (texts : OrderedMap String String) (call : Node) :
    z.checkCall lookup judge visit types texts call
      = match Resolve.target? z.config types texts call with
        | .error fault => ⟨[], [], .error (.reference fault)⟩
        | .ok none => .offend (.unresolvable visit.depth)
        | .ok (some target) => z.checkTarget lookup judge visit target := by
  unfold checkCall
  cases Resolve.target? z.config types texts call with
  | error fault => rfl
  | ok target? =>
    have hok : (Except.ok target?).mapError AnalysisFault.reference = .ok target? := rfl
    rw [Run.ofExcept_bind_of_ok hok]
    cases target? <;> rfl

theorem outcome_checkCall (types : TypeMap) (texts : OrderedMap String String) (call : Node) :
    (z.checkCall lookup judge visit types texts call).outcome
      = match Resolve.target? z.config types texts call with
        | .error fault => .error (.reference fault)
        | .ok none => .ok (some (.unresolvable visit.depth))
        | .ok (some target) => (z.checkTarget lookup judge visit target).outcome := by
  rw [checkCall_eq]
  cases Resolve.target? z.config types texts call with
  | error fault => rfl
  | ok target? => cases target? <;> rfl

/-! ## Judgements -/

theorem judgeWith_eq (c : Callable) (thisType : Option String) :
    z.judgeWith judge visit c thisType
      = match c.ownOffence? z.config thisType with
        | .error fault => ⟨[], [], .error (.walk fault)⟩
        | .ok (some o) => .offend o
        | .ok none =>
          match z.lookup with
          | none => .clean
          | some lookup =>
            Run.firstOffence
              (z.checkCall lookup judge visit (.ofCallable c thisType)
                (z.texts c (.ofCallable c thisType)))
              (locateCalls c.body) := by
  unfold judgeWith
  cases c.ownOffence? z.config thisType with
  | error fault => rfl
  | ok o? =>
    have hok : (Except.ok o?).mapError AnalysisFault.walk = .ok o? := rfl
    rw [Run.ofExcept_bind_of_ok hok]
    cases o? <;> rfl

variable {z} {c : Callable} {thisType : Option String}

theorem outcome_judgeWith_of_own {o : Offence}
    (h : c.ownOffence? z.config thisType = .ok (some o)) :
    (z.judgeWith judge visit c thisType).outcome = .ok (some o) := by
  rw [judgeWith_eq, h]
  rfl

theorem outcome_judgeWith_of_no_lookup (h : c.ownOffence? z.config thisType = .ok none)
    (hlookup : z.lookup = none) : (z.judgeWith judge visit c thisType).outcome = .ok none := by
  rw [judgeWith_eq, h, hlookup]
  rfl

theorem ownOffence?_of_outcome_judgeWith
    (h : (z.judgeWith judge visit c thisType).outcome = .ok none) :
    c.ownOffence? z.config thisType = .ok none := by
  rw [judgeWith_eq] at h
  cases hown : c.ownOffence? z.config thisType with
  | error fault =>
    rw [hown] at h
    cases h
  | ok o? =>
    cases o? with
    | none => rfl
    | some o =>
      rw [hown] at h
      cases h

variable {lookup}

theorem outcome_judgeWith_of_lookup (h : c.ownOffence? z.config thisType = .ok none)
    (hlookup : z.lookup = some lookup) :
    (z.judgeWith judge visit c thisType).outcome
      = (Run.firstOffence
          (z.checkCall lookup judge visit (.ofCallable c thisType)
            (z.texts c (.ofCallable c thisType)))
          (locateCalls c.body)).outcome := by
  rw [judgeWith_eq, h, hlookup]

/-- Nothing is found in a callable exactly when it has no offence by itself and, where definitions
    can be looked up, nothing is found in any of its calls. -/
theorem outcome_judgeWith_eq_none_iff_calls :
    (z.judgeWith judge visit c thisType).outcome = .ok none
      ↔ c.ownOffence? z.config thisType = .ok none
        ∧ ∀ lookup, z.lookup = some lookup → ∀ call ∈ locateCalls c.body,
            (z.checkCall lookup judge visit (.ofCallable c thisType)
              (z.texts c (.ofCallable c thisType)) call).outcome = .ok none := by
  constructor
  · intro h
    have hown := ownOffence?_of_outcome_judgeWith judge visit h
    refine ⟨hown, ?_⟩
    intro lookup hlookup
    rw [outcome_judgeWith_of_lookup judge visit hown hlookup] at h
    exact (Run.outcome_firstOffence_eq_none_iff _ _).1 h
  · rintro ⟨hown, hcalls⟩
    cases hlookup : z.lookup with
    | none => exact outcome_judgeWith_of_no_lookup judge visit hown hlookup
    | some lookup =>
      rw [outcome_judgeWith_of_lookup judge visit hown hlookup]
      exact (Run.outcome_firstOffence_eq_none_iff _ _).2 (hcalls lookup hlookup)

theorem judge_eq_judgeWith (budget : Nat) :
    ∃ judge, z.judge budget = z.judgeWith judge := by
  cases budget with
  | zero => exact ⟨none, rfl⟩
  | succ budget => exact ⟨some (z.judge budget), rfl⟩

theorem rootKey?_function (f : FunctionDecl) (thisType : Option String) :
    rootKey? (.function f) thisType = .ok (some (Reference.key ⟨f.name, none⟩)) := by
  cases thisType <;> rfl

theorem rootKey?_method (m : MethodDecl) (cls : Ident) :
    rootKey? (.method m) (some cls.text) = .ok (some (Reference.key ⟨m.name, some cls⟩)) := by
  simp [rootKey?, Reference.ofNames, Except.map]

theorem offence?_eq_judge {key? : Option String} (h : rootKey? c thisType = .ok key?) :
    z.offence? c thisType = z.judge z.config.callBudget (startVisit key?) c thisType := by
  have hok : (rootKey? c thisType).mapError AnalysisFault.reference = .ok key? := by
    rw [h]
    rfl
  exact Run.ofExcept_bind_of_ok hok _

theorem analyze_of_error {fault : ReferenceFault} (h : rootKey? c thisType = .error fault) :
    z.analyze c thisType = ⟨[], [], .error (.reference fault)⟩ := by
  unfold analyze offence?
  rw [h]
  rfl

/-- The run of an analysis is that of the judgement of the root, with a report made of what was
    found. -/
theorem analyze_eq_judge {key? : Option String} (h : rootKey? c thisType = .ok key?) :
    z.analyze c thisType
      = let run := z.judge z.config.callBudget (startVisit key?) c thisType
        ⟨run.logged, run.asked, run.outcome.map .ofOffence?⟩ := by
  unfold analyze
  rw [offence?_eq_judge h, Run.bind_pure_eq]

/-- The log of an analysis is that of the judgement of the root. -/
theorem logged_analyze {key? : Option String} (h : rootKey? c thisType = .ok key?) :
    (z.analyze c thisType).logged
      = (z.judge z.config.callBudget (startVisit key?) c thisType).logged := by
  rw [analyze_eq_judge h]

/-- The report of an analysis is made of the judgement of the root. -/
theorem outcome_analyze {key? : Option String} (h : rootKey? c thisType = .ok key?) :
    (z.analyze c thisType).outcome
      = (z.judge z.config.callBudget (startVisit key?) c thisType).outcome.map
          Report.ofOffence? := by
  rw [analyze_eq_judge h]

theorem outcome_analyze_of_judge {key? : Option String} {o? : Option Offence}
    (hkey : rootKey? c thisType = .ok key?)
    (h : (z.judge z.config.callBudget (startVisit key?) c thisType).outcome = .ok o?) :
    (z.analyze c thisType).outcome = .ok (.ofOffence? o?) := by
  rw [outcome_analyze hkey, h]
  rfl

/-- An analysis that gives a report has a key for the root, and a judgement on it. -/
theorem exists_judgement {report : Report} (h : (z.analyze c thisType).outcome = .ok report) :
    ∃ key? o?, rootKey? c thisType = .ok key?
      ∧ (z.judge z.config.callBudget (startVisit key?) c thisType).outcome = .ok o?
      ∧ report = .ofOffence? o? := by
  cases hkey : rootKey? c thisType with
  | error fault =>
    unfold analyze offence? at h
    rw [Run.outcome_bind, Run.outcome_bind, hkey] at h
    cases h
  | ok key? =>
    rw [outcome_analyze hkey] at h
    cases hjudge : (z.judge z.config.callBudget (startVisit key?) c thisType).outcome with
    | error fault =>
      rw [hjudge] at h
      cases h
    | ok o? =>
      rw [hjudge] at h
      cases h
      exact ⟨key?, o?, rfl, hjudge, rfl⟩

/-- Nothing is found in a root that is reported to be pure. -/
theorem outcome_judge_of_pure (h : (z.analyze c thisType).outcome = .ok .pure) :
    ∃ key?, rootKey? c thisType = .ok key?
      ∧ (z.judge z.config.callBudget (startVisit key?) c thisType).outcome = .ok none := by
  obtain ⟨key?, o?, hkey, hjudge, hreport⟩ := exists_judgement h
  cases o? with
  | none => exact ⟨key?, hkey, hjudge⟩
  | some o => cases hreport

end Analyzer

end CallablePurity
