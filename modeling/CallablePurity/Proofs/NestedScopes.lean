import CallablePurity.Proofs.Composition
import CallablePurity.Proofs.Walk.SameOutside

set_option autoImplicit false

/-! # Nested scopes do not interfere

Two callables whose bodies differ inside nested scopes only cannot be told apart by an analysis: it
gives the same report, writes the same log and asks for the same definitions
(`Analyzer.analyze_eq_of_sameOutside`). The locators find corresponding accesses and calls in both
bodies, but not the same ones, as the nodes around a nested scope hold it. What the analysis goes on
to read of them is their faces: an operation has a handling and a name in descriptions, a subject
has a name, a call has a target by the faces of itself and of its callee. -/

namespace CallablePurity

/-! ## What can be read off a face

What the analysis reads of a node is stated for faces first. The lemmas after the definitions say
that it is the same for the node itself. -/

namespace Face

def handling : Face → Handling
  | ⟨.cast, .atom (.cast .string) :: _⟩ => .stringified
  | ⟨.binary, .atom (.binary op) :: _⟩ => op.handling
  | ⟨.assignOp, .atom (.binary op) :: _⟩ => op.handling
  | ⟨.index, _⟩ => .element
  | ⟨.cast, _⟩ | ⟨.unary, _⟩ | ⟨.assign, _⟩ | ⟨.ret, _⟩ | ⟨.branch, _⟩ => .harmless
  | _ => .foreign

/-- The name of an operation in a description. -/
def operationText : Face → String
  | ⟨.otherExpr, .atom (.scalar (.text kind)) :: _⟩ => kind
  | ⟨.otherStmt, .atom (.scalar (.text kind)) :: _⟩ => kind
  | ⟨kind, _⟩ => kind.text

/-- The text in the first field. -/
def text? : Face → Option String
  | ⟨_, .atom (.scalar (.text s)) :: _⟩ => some s
  | _ => none

/-- The target of a call, by its own face and those of its children. -/
def target? (config : Config) (types : TypeMap) (values : OrderedMap String String) :
    Face → List Face → Except ReferenceFault (Option Reference)
  | ⟨.call, _⟩, ⟨.name, [.atom (.scalar (.text f))]⟩ :: _ =>
    .ok ((Ident.ofText? f).map (⟨·, none⟩))
  | ⟨.call, _⟩, ⟨.var, [.atom (.scalar (.text v))]⟩ :: _ =>
    .ok (((values.get? v).bind Ident.ofText?).map (⟨·, none⟩))
  | ⟨.staticCall, [_, .atom (.scalar (.text method)), _]⟩,
      ⟨.name, [.atom (.scalar (.text c))]⟩ :: _ =>
    if Resolve.relativeClasses.contains (Text.lowercase c) then .ok none
    else (Reference.ofNames method (some c)).map some
  | ⟨.methodCall, [_, .atom (.scalar (.text method)), _]⟩,
      ⟨.var, [.atom (.scalar (.text receiver))]⟩ :: _ =>
    match Resolve.classOf? config (types.typeOf receiver) with
    | none => .ok none
    | some c => (Reference.ofNames method (some c)).map some
  | _, _ => .ok none

end Face

theorem Node.handling_eq_face (n : Node) : n.handling = n.face.handling := by
  cases n with
  | expr e =>
    cases e with
    | cast kind operand => cases kind <;> rfl
    | _ => rfl
  | stmt s => cases s <;> rfl
  | _ => rfl

theorem Access.operationText_eq_face (n : Node) : operationText n = n.face.operationText := by
  cases n with
  | expr e => cases e <;> rfl
  | stmt s => cases s <;> rfl
  | _ => rfl

theorem Subject.name?_eq_face (s : Subject) : s.name? = s.node.face.text?.bind Ident.ofText? := by
  cases s with
  | var name =>
    cases name with
    | named n => exact (Ident.ofText?_text n).symm
    | computed e => rfl
  | static v => exact (Ident.ofText?_text v.name).symm

/-- The resolver looks no further than at the children of a call. -/
theorem Resolve.target?_eq_face (config : Config) (types : TypeMap)
    (values : OrderedMap String String) (n : Node) :
    target? config types values n
      = n.face.target? config types values (n.children.map Node.face) := by
  -- what a call goes through counts if it is a name, or a variable with a name
  cases n with
  | expr e =>
    cases e with
    | call function args =>
      cases function with
      | named f =>
        have hident : (Ident.ofText? f.text).map (Reference.mk · none) = some ⟨f, none⟩ := by simp
        exact congrArg Except.ok hident.symm
      | computed value =>
        cases value with
        | var name => cases name <;> rfl
        | _ => rfl
    | methodCall receiver member args =>
      cases receiver with
      | var name => cases name <;> cases member <;> rfl
      | _ => cases member <;> rfl
    | staticCall cls member args =>
      cases cls with
      | named c => cases member <;> rfl
      | computed value => cases value <;> cases member <;> rfl
    | _ => rfl
  | stmt s => cases s <;> rfl
  | _ => rfl

theorem Resolve.target?_of_isBoundary (config : Config) (types : TypeMap)
    (values : OrderedMap String String) {n : Node} (h : n.isBoundary = true) :
    target? config types values n = .ok none := by
  unfold target?
  split
  · cases h
  · cases h
  · cases h
  · cases h
  · rfl

/-- The declaration of a lasting variable can be told from the kinds of the subject and of the
    nearest operation. -/
theorem Access.declaresPersistentState_iff (a : Access) :
    a.declaresPersistentState = true
      ↔ a.subject.node.kind = .staticVar
        ∨ a.nearest?.map Node.kind = some .global ∨ a.nearest?.map Node.kind = some .static := by
  unfold declaresPersistentState
  cases a.subject with
  | static v => simp [Subject.node, Node.kind]
  | var name =>
    simp only [Subject.node, Node.kind, Expr.kind]
    cases a.nearest? with
    | none => simp
    | some n =>
      cases n with
      | expr e => cases e <;> simp [Node.kind, Expr.kind]
      | stmt s => cases s <;> simp [Node.kind, Stmt.kind]
      | _ => simp [Node.kind]

/-! ## Accesses and calls that correspond to each other -/

/-- Items that correspond to each other under two functions have the same images. -/
theorem map_eq_map_of_forall₂ {α β γ : Type} {f : α → γ} {g : β → γ} {as : List α} {bs : List β}
    (h : List.Forall₂ (fun a b => f a = g b) as bs) : as.map f = bs.map g := by
  induction h with
  | nil => rfl
  | cons hab _ ih => rw [List.map_cons, List.map_cons, hab, ih]

namespace Node.SameOutside

variable {m n : Node} (h : SameOutside m n)

include h

theorem handling : m.handling = n.handling := by
  rw [Node.handling_eq_face, Node.handling_eq_face, h.face]

theorem target? (config : Config) (types : TypeMap) (values : OrderedMap String String) :
    Resolve.target? config types values m = Resolve.target? config types values n := by
  by_cases hboundary : m.isBoundary = true
  · have hboundary' : n.isBoundary = true := h.isBoundary ▸ hboundary
    rw [Resolve.target?_of_isBoundary _ _ _ hboundary,
      Resolve.target?_of_isBoundary _ _ _ hboundary']
  · have hchildren := h.children (Bool.eq_false_iff.2 hboundary)
    have hfaces : m.children.map Node.face = n.children.map Node.face :=
      map_eq_map_of_forall₂ (hchildren.imp fun _ _ hcd => hcd.face)
    rw [Resolve.target?_eq_face, Resolve.target?_eq_face, h.face, hfaces]

end Node.SameOutside

theorem Config.runsForeignCode_of_sameOutside (config : Config) {operations operations' : List Node}
    (h : List.Forall₂ Node.SameOutside operations operations') (declared : Option String) :
    config.runsForeignCode declared operations = config.runsForeignCode declared operations' := by
  induction h generalizing declared with
  | nil => rfl
  | cons hmn _ ih => simp only [Config.runsForeignCode, hmn.handling, ih]

namespace Access.SameOutside

variable {a b : Access} (h : a.SameOutside b)

include h

theorem name? : a.name? = b.name? := by
  rw [Access.name?, Access.name?, Subject.name?_eq_face, Subject.name?_eq_face, h.subject.face]

theorem nearest? : a.nearest?.map Node.face = b.nearest?.map Node.face := by
  rw [Access.nearest?, Access.nearest?, ← List.getLast?_map, ← List.getLast?_map,
    map_eq_map_of_forall₂ (h.operations.imp fun _ _ hmn => hmn.face)]

theorem declaresPersistentState : a.declaresPersistentState = b.declaresPersistentState := by
  have hnearest : a.nearest?.map Node.kind = b.nearest?.map Node.kind := by
    have hkinds := congrArg (Option.map Face.kind) h.nearest?
    rwa [Option.map_map, Option.map_map] at hkinds
  rw [Bool.eq_iff_iff, Access.declaresPersistentState_iff, Access.declaresPersistentState_iff,
    h.subject.kind, hnearest]

theorem describe : a.describe = b.describe := by
  have hnearest := h.nearest?
  unfold Access.describe
  rw [h.name?]
  cases ha : a.nearest? with
  | none =>
    have hb : b.nearest? = none := by simpa [ha] using hnearest.symm
    rw [hb]
  | some m =>
    obtain ⟨n, hb, hface⟩ : ∃ n, b.nearest? = some n ∧ n.face = m.face := by
      simpa [ha] using hnearest.symm
    simp only [hb, Access.operationText_eq_face, hface]

theorem touchesGlobalState (config : Config) :
    a.touchesGlobalState config = b.touchesGlobalState config := by
  rw [Access.touchesGlobalState, Access.touchesGlobalState, h.name?, h.declaresPersistentState]

theorem hasSideEffect (types : TypeMap) (config : Config) :
    a.hasSideEffect types config = b.hasSideEffect types config := by
  have hruns (declared : Option String) :=
    config.runsForeignCode_of_sameOutside (List.rel_reverse h.operations) declared
  simp only [Access.hasSideEffect, h.name?, h.declaresPersistentState, hruns]

end Access.SameOutside

/-! ## What is found in two bodies -/

/-- Two offences that are reported and logged alike. -/
structure Offence.SameWords (o o' : Offence) : Prop where
  flags : o.flags = o'.flags
  violations : o.violations = o'.violations
  logLine : o.logLine = o'.logLine

theorem Offence.SameWords.report {o o' : Offence} (h : o.SameWords o') : o.report = o'.report := by
  simp only [Offence.report, h.flags, h.violations]

theorem Access.SameOutside.offence {a b : Access} (h : a.SameOutside b) (config : Config) :
    (a.offence config).SameWords (b.offence config) := by
  have hlog := congrArg ("impure: side-effecting access " ++ ·) h.describe
  rw [Access.offence, Access.offence, h.touchesGlobalState]
  split
  · exact ⟨rfl, congrArg (fun text => ["global state access: " ++ text]) h.describe, hlog⟩
  · exact ⟨rfl, congrArg (fun text => ["side-effecting access: " ++ text]) h.describe, hlog⟩

/-- The first access with a side effect is at the same place in both, and reads alike. -/
theorem rel_firstSideEffect {accesses accesses' : List Access}
    (h : List.Forall₂ Access.SameOutside accesses accesses') (types : TypeMap) (config : Config) :
    Option.Rel Offence.SameWords
      ((accesses.find? (·.hasSideEffect types config)).map (·.offence config))
      ((accesses'.find? (·.hasSideEffect types config)).map (·.offence config)) := by
  induction h with
  | nil => exact .none
  | cons hab _ ih =>
    rw [List.find?_cons, List.find?_cons, hab.hasSideEffect]
    split
    · exact .some (hab.offence config)
    · exact ih

theorem Run.firstOffence_eq_of_forall₂ {α : Type} {check : α → Run (Option Offence)}
    {items items' : List α} (h : List.Forall₂ (fun a b => check a = check b) items items') :
    firstOffence check items = firstOffence check items' := by
  induction h with
  | nil => rfl
  | cons hab _ ih => rw [firstOffence, firstOffence, hab, ih]

/-- Two runs that read alike. -/
structure Run.SameWords (r r' : Run (Option Offence)) : Prop where
  logLines : r.logged.map Offence.logLine = r'.logged.map Offence.logLine
  asked : r.asked = r'.asked
  report : r.outcome.map Report.ofOffence? = r'.outcome.map Report.ofOffence?

theorem Run.SameWords.refl (r : Run (Option Offence)) : r.SameWords r :=
  ⟨rfl, rfl, rfl⟩

theorem Run.SameWords.offend {o o' : Offence} (h : o.SameWords o') :
    (Run.offend o).SameWords (.offend o') where
  logLines := congrArg (fun line => [line]) h.logLine
  asked := rfl
  report := congrArg Except.ok h.report

namespace Analyzer

section Judgement

variable (config : Config) (header : Callable) (thisType : Option String) {body body' : List Stmt}
  (h : List.Forall₂ Node.SameOutside (body.map .stmt) (body'.map .stmt))

include h

/-- What two callables with one header do by themselves reads alike. -/
theorem rel_ownOffence?_of_sameOutside :
    ∃ o? o'?, (header.withBody body).ownOffence? config thisType = .ok o?
      ∧ (header.withBody body').ownOffence? config thisType = .ok o'?
      ∧ Option.Rel Offence.SameWords o? o'? := by
  simp only [Callable.ownOffence?, Callable.byRefBindings_withBody, Callable.ofCallable_withBody,
    Callable.body_withBody, locateAccesses_eq]
  cases header.byRefBindings with
  | cons first rest => exact ⟨_, _, rfl, rfl, .some ⟨rfl, rfl, rfl⟩⟩
  | nil =>
    exact ⟨_, _, rfl, rfl, rel_firstSideEffect (forall₂_accesses_of_sameOutside h) _ config⟩

/-- One judgement of each: where neither has an offence by itself, the same targets are checked in
    the same order. -/
theorem judgeWith_of_sameOutside (lookup? : Option Lookup) (judge? : Option Judge)
    (visit : Visit) :
    Run.SameWords
      (judgeWith { config := config, lookup := lookup? } judge? visit (header.withBody body)
        thisType)
      (judgeWith { config := config, lookup := lookup? } judge? visit (header.withBody body')
        thisType) := by
  obtain ⟨o?, o'?, hown, hown', hwords⟩ := rel_ownOffence?_of_sameOutside config header thisType h
  rw [judgeWith_eq, judgeWith_eq, hown, hown']
  cases hwords with
  | some hwords => exact .offend hwords
  | none =>
    cases lookup? with
    | none => exact .refl _
    | some lookup =>
      simp only [Callable.ofCallable_withBody, Callable.body_withBody]
      -- the calls of both bodies may hold different closures, but they go to the same targets
      rw [Run.firstOffence_eq_of_forall₂ ((forall₂_locateCalls_of_sameOutside h).imp ?_)]
      · exact .refl _
      · intro call call' hcall
        rw [checkCall_eq, checkCall_eq, hcall.target?]

end Judgement

/-- **Nested scopes do not interfere.** For every configuration, lookup, header and class, two
    bodies that differ inside closures, functions and classes only get the same report, the same
    log, and the same requests for definitions in the same order. -/
theorem analyze_eq_of_sameOutside (config : Config) (lookup? : Option Lookup) (header : Callable)
    (thisType : Option String) {body body' : List Stmt}
    (h : List.Forall₂ Node.SameOutside (body.map .stmt) (body'.map .stmt)) :
    let run := fun body =>
      analyze { config := config, lookup := lookup? } (header.withBody body) thisType
    (run body).outcome = (run body').outcome
    ∧ (run body).logged.map Offence.logLine = (run body').logged.map Offence.logLine
    ∧ (run body).asked = (run body').asked := by
  intro run
  have hkey (body : List Stmt) := header.rootKey?_withBody body thisType
  cases hroot : rootKey? header thisType with
  | error fault =>
    have hrun (body : List Stmt) : run body = ⟨[], [], .error (.reference fault)⟩ :=
      analyze_of_error ((hkey body).trans hroot)
    rw [hrun body, hrun body']
    exact ⟨rfl, rfl, rfl⟩
  | ok key? =>
    obtain ⟨judge?, hjudge⟩ :=
      judge_eq_judgeWith (z := { config := config, lookup := lookup? }) config.callBudget
    have hrun (body : List Stmt) := analyze_eq_judge
      (z := { config := config, lookup := lookup? }) ((hkey body).trans hroot)
    have hwords :=
      judgeWith_of_sameOutside config header thisType h lookup? judge? (startVisit key?)
    rw [← hjudge] at hwords
    simp only [run, hrun]
    exact ⟨hwords.report, hwords.logLines, hwords.asked⟩

/-! ### A closure that is handed over -/

namespace Callback

def result : VarName := .named ⟨"result", by decide⟩

def apply : Ident := ⟨"apply", by decide⟩

/-- `$result = apply(closure);` -/
def body (closure : Closure) : List Stmt :=
  [.expression (.assign (.var result) (.call (.named apply) [.closure closure]))]

/-- `function () { }` -/
def quiet : Closure := ⟨[], [], [], false, false, none⟩

/-- `static function &(&$a) use (&$b) { global $c; apply(); }` -/
def loud : Closure :=
  ⟨[⟨⟨"a", by decide⟩, none, true, .required⟩], [⟨⟨"b", by decide⟩, true⟩],
    [.global [.named ⟨"c", by decide⟩], .expression (.call (.named apply) [])], true, true, none⟩

/-- `function delegate() { }` -/
def main : Callable :=
  .function ⟨⟨"delegate", by decide⟩, [], [], false, none⟩

theorem sameOutside (c c' : Closure) :
    List.Forall₂ Node.SameOutside ((body c).map .stmt) ((body c').map .stmt) := by
  have hclosure : Node.SameOutside (.expr (.closure c)) (.expr (.closure c')) := .nested rfl rfl
  have hcall : Node.SameOutside (.expr (.call (.named apply) [.closure c]))
      (.expr (.call (.named apply) [.closure c'])) :=
    .fields rfl rfl (.cons (.refl _) (.cons hclosure .nil))
  have hassign : Node.SameOutside
      (.expr (.assign (.var result) (.call (.named apply) [.closure c])))
      (.expr (.assign (.var result) (.call (.named apply) [.closure c']))) :=
    .fields rfl rfl (.cons (.refl _) (.cons hcall .nil))
  exact .cons (.fields rfl rfl (.cons hassign .nil)) .nil

theorem ownOffence?_quiet :
    (main.withBody (body quiet)).ownOffence? .standard none = .ok none := by
  let assign : Expr := .assign (.var result) (.call (.named apply) [.closure quiet])
  have haccesses : ((body quiet).map Node.stmt).flatMap (Node.accesses [])
      = [⟨.var result, [.expr assign]⟩] := by
    cbv
  rw [Callable.ownOffence?_eq_none_iff]
  refine ⟨rfl, _, locateAccesses_eq _, ?_⟩
  rw [Callable.body_withBody, haccesses]
  decide +kernel

theorem analyze_quiet :
    analyze { lookup := some (.exact []) } (main.withBody (body quiet)) none
      = ⟨[.unknown ⟨apply, none⟩], [⟨apply, none⟩],
          .ok (Offence.unknown ⟨apply, none⟩).report⟩ := by
  have hkey : rootKey? (main.withBody (body quiet)) none = .ok (some "delegate") := by
    decide +kernel
  have hcalls : locateCalls (main.withBody (body quiet)).body
      = [.expr (.call (.named apply) [.closure quiet])] := by
    rw [locateCalls, locate_eq]
    cbv
  have hlist : Reference.isWhitelisted .standard ⟨apply, none⟩ = false := by decide +kernel
  have hfresh : Reference.key ⟨apply, none⟩ ∉ (startVisit (some "delegate")).inProgress := by
    decide +kernel
  have hroot : judge { lookup := some (.exact []) } 8 (startVisit (some "delegate"))
      (main.withBody (body quiet)) none
        = ⟨[.unknown ⟨apply, none⟩], [⟨apply, none⟩], .ok (some (.unknown ⟨apply, none⟩))⟩ := by
    rw [judge, judgeWith_eq, ownOffence?_quiet]
    dsimp only
    rw [hcalls, Run.firstOffence_singleton, checkCall_eq, Resolve.target?]
    exact checkTarget_of_unknown { lookup := some (.exact []) } _ _ hlist hfresh _ rfl
  have hbudget : Config.standard.callBudget = 8 := by decide +kernel
  rw [analyze_eq_judge hkey, hbudget, hroot]
  rfl

end Callback

/-- A closure that does all sorts of things makes no difference to the function that hands it
    over. -/
theorem analyze_eq_of_sameOutside_callback :
    let run := fun c =>
      analyze { lookup := some (.exact []) } (Callback.main.withBody (Callback.body c)) none
    List.Forall₂ Node.SameOutside ((Callback.body Callback.loud).map .stmt)
        ((Callback.body Callback.quiet).map .stmt)
    ∧ (run Callback.loud).outcome = .ok (Offence.unknown ⟨Callback.apply, none⟩).report
    ∧ (run Callback.loud).logged.map Offence.logLine = ["impure: unknown callable apply"]
    ∧ (run Callback.loud).asked = [⟨Callback.apply, none⟩] := by
  intro run
  have hsame := Callback.sameOutside Callback.loud Callback.quiet
  obtain ⟨hreport, hlog, hasked⟩ := analyze_eq_of_sameOutside .standard (some (.exact []))
    Callback.main none hsame
  have hquiet : run Callback.quiet = _ := Callback.analyze_quiet
  refine ⟨hsame, ?_, ?_, ?_⟩
  · exact hreport.trans (congrArg Run.outcome hquiet)
  · have hwritten := congrArg (fun r => r.logged.map Offence.logLine) hquiet
    exact (hlog.trans hwritten).trans (by decide +kernel)
  · exact hasked.trans (congrArg Run.asked hquiet)

end Analyzer

end CallablePurity
