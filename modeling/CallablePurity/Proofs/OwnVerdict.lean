import CallablePurity.Proofs.Outcome
import CallablePurity.Proofs.Walk.Located

set_option autoImplicit false

/-! # The verdict on a callable by itself

Where no definitions can be looked up, the analysis judges a callable by its bindings and by the
variables in its scope. It walks through the body, hides nested scopes, keeps a stack of the nodes
it is in, writes down accesses and classifies them one by one. All of this comes to one recursion on
the tree, which is defined here and needs none of it: `Node.firstOffender?` goes through the body
from left to right, each node before its children, and carries along what the nodes around it do
with a value (`Surroundings`). `Callable.ownReport` is the report that it gives. -/

namespace CallablePurity

/-! ## The decision table -/

/-- What lies around a place of a body, apart from expressions used as statements. -/
structure Surroundings where
  /-- The nearest node around the place. -/
  nearest? : Option Node
  /-- A value of the declared type may run foreign code where it comes out of the place. -/
  exposes : Option String → Bool

/-- The rule for a value of the declared type directly below a node. A value converted to a string
    must be plain, and so must one of which an element is taken; the element then goes on outwards,
    with the same type if the value is a scalar and with an unknown one otherwise. -/
def Node.exposes (config : Config) (outer : Option String → Bool) (n : Node)
    (declared : Option String) : Bool :=
  match n with
  | .expr (.cast .string _) => !config.isScalarLike declared
  | .expr (.cast _ _) => false
  | .expr (.index _ _) =>
    !config.isScalarLike declared || outer (if config.isScalar declared then declared else none)
  | .expr (.binary .concat _ _) => !config.isScalarLike declared
  | .expr (.binary _ _ _) => false
  | .expr (.assignOp ⟨.concat, _⟩ _ _) => !config.isScalarLike declared
  | .expr (.assignOp _ _ _) => false
  | .expr (.unary _ _) | .expr (.assign _ _) | .stmt (.ret _) | .stmt (.branch _ _ _) => false
  | _ => true

namespace Surroundings

/-- Nothing lies around the statements of a body. -/
def body : Surroundings :=
  ⟨none, fun _ => false⟩

/-- What lies around the children of a node. -/
def inside (config : Config) (s : Surroundings) : Node → Surroundings
  | .stmt (.expression _) => s
  | n => ⟨some n, n.exposes config s.exposes⟩

/-- The place is in a declaration of global or static variables. -/
def declaresPersistentState (s : Surroundings) : Bool :=
  match s.nearest? with
  | some (.stmt (.global _)) | some (.stmt (.static _)) => true
  | _ => false

/-- A variable at the place, in words. -/
def describe (s : Surroundings) (subject : String) : String :=
  match s.nearest? with
  | none => subject ++ " (bare reference)"
  | some n => subject ++ " in " ++ Access.operationText n

end Surroundings

/-! ## One recursion over the body -/

/-- The report on a variable that is state of the whole process, or is kept from call to call. -/
def Report.globalState (description : String) : Report :=
  .impure { globalState := true } ["global state access: " ++ description] rfl
    (List.cons_ne_nil _ _)

/-- The report on a variable whose value may run foreign code. -/
def Report.sideEffect (description : String) : Report :=
  .impure { sideEffectingAccess := true } ["side-effecting access: " ++ description] rfl
    (List.cons_ne_nil _ _)

/-- The verdict on a single node: only variables offend. -/
def Node.offends? (config : Config) (types : TypeMap) (s : Surroundings) : Node → Option Report
  | .expr (.var (.named x)) =>
    if config.isSuperglobal x.text || s.declaresPersistentState then
      some (.globalState (s.describe ("$" ++ x.text)))
    else if s.exposes (types.typeOf x.text) then some (.sideEffect (s.describe ("$" ++ x.text)))
    else none
  | .expr (.var (.computed _)) => some (.globalState (s.describe "$<dynamic>"))
  | .staticVar v => some (.globalState (s.describe ("$" ++ v.name.text)))
  | _ => none

/-- The verdict on the first offender of a tree, not counting what lies in nested scopes. -/
def Node.firstOffender? (config : Config) (types : TypeMap) (s : Surroundings) (n : Node) :
    Option Report :=
  (n.offends? config types s).or
    (if n.isBoundary then none
     else n.children.attach.findSome? fun child =>
      child.1.firstOffender? config types (s.inside config n))
termination_by n
decreasing_by exact Node.sizeOf_lt_of_mem_children child.2

theorem Node.firstOffender?_eq (config : Config) (types : TypeMap) (s : Surroundings) (n : Node) :
    n.firstOffender? config types s
      = (n.offends? config types s).or
          (if n.isBoundary then none
           else n.children.findSome? (Node.firstOffender? config types (s.inside config n))) := by
  rw [Node.firstOffender?, List.findSome?_subtype
    (g := Node.firstOffender? config types (s.inside config n)) fun _ _ => rfl,
    List.unattach_attach]

/-- The bindings through which a callable shares storage with its caller, in words: the result, then
    parameters, then captures. -/
def Callable.byRefTexts (c : Callable) : List String :=
  (if c.byRef then ["returns by reference"] else [])
    ++ (c.params.filter Param.byRef).map (fun p => "by-reference parameter $" ++ p.name.text)
    ++ (c.captures.filter Capture.byRef).map (fun u => "by-reference capture $" ++ u.name.text)

/-- The report on a callable by itself. -/
def Callable.ownReport (config : Config) (c : Callable) (thisType : Option String) : Report :=
  match c.byRefTexts with
  | first :: rest => .impure { byRefBinding := true } (first :: rest) rfl (List.cons_ne_nil _ _)
  | [] =>
    (c.body.findSome? (Node.firstOffender? config (.ofCallable c thisType) .body)).getD .pure

/-! ## The surroundings of an access -/

/-- The surroundings that operations make, given from the outermost to the nearest. -/
def Surroundings.ofOperations (config : Config) (operations : List Node) : Surroundings :=
  ⟨operations.getLast?, fun declared => config.runsForeignCode declared operations.reverse⟩

/-- The table is what the handling of values amounts to. -/
theorem Config.runsForeignCode_cons (config : Config) (n : Node) (outer : List Node)
    (declared : Option String) :
    config.runsForeignCode declared (n :: outer)
      = n.exposes config (fun t => config.runsForeignCode t outer) declared := by
  rw [Config.runsForeignCode]
  -- the table has one row for each kind of node, and one for each operator where these differ
  cases n with
  | expr e =>
    cases e with
    | cast kind operand => cases kind <;> rfl
    | binary op left right => cases op <;> rfl
    | assignOp op target value =>
      obtain ⟨op, hop⟩ := op
      cases op <;> rfl
    | _ => rfl
  | stmt s => cases s <;> rfl
  | _ => rfl

theorem Surroundings.inside_ofOperations (config : Config) (operations : List Node) (n : Node) :
    (ofOperations config operations).inside config n
      = ofOperations config (n.operationsBelow operations) := by
  -- only an expression used as a statement changes nothing
  have hoperation (h : AccessLocator.isOperation n = true) :
      ofOperations config (n.operationsBelow operations)
        = ⟨some n, n.exposes config (ofOperations config operations).exposes⟩ := by
    unfold ofOperations Node.operationsBelow
    rw [if_pos h, List.getLast?_concat, List.reverse_concat]
    simp only [Config.runsForeignCode_cons]
  cases n with
  | stmt s =>
    cases s with
    | expression e => rfl
    | _ => exact (hoperation rfl).symm
  | _ => exact (hoperation rfl).symm

/-! ## The recursion finds the first access with a side effect -/

section Refinement

variable (config : Config) (types : TypeMap)

/-- The report on the first access with a side effect. -/
def Access.firstReport? (accesses : List Access) : Option Report :=
  (accesses.find? (·.hasSideEffect types config)).map fun a => (a.offence config).report

theorem Access.firstReport?_append (as bs : List Access) :
    firstReport? config types (as ++ bs)
      = (firstReport? config types as).or (firstReport? config types bs) := by
  unfold firstReport?
  rw [List.find?_append, Option.map_or]

/-- Accesses gathered from several trees are searched one tree after the other. -/
theorem Access.firstReport?_flatMap {ns : List Node} {f : Node → List Access}
    {g : Node → Option Report} (h : ∀ n ∈ ns, firstReport? config types (f n) = g n) :
    firstReport? config types (ns.flatMap f) = ns.findSome? g := by
  induction ns with
  | nil => rfl
  | cons n ns ih =>
    rw [List.forall_mem_cons] at h
    rw [List.flatMap_cons, firstReport?_append, h.1, ih h.2, List.findSome?_cons]
    cases g n <;> rfl

theorem Access.firstReport?_singleton (a : Access) :
    firstReport? config types [a]
      = if a.hasSideEffect types config then some (a.offence config).report else none := by
  unfold firstReport?
  rw [List.find?_cons, List.find?_nil]
  cases a.hasSideEffect types config <;> rfl

/-- An access that touches global state is reported as one. -/
theorem Access.firstReport?_of_touchesGlobalState {a : Access}
    (h : a.touchesGlobalState config = true) :
    firstReport? config types [a] = some (.globalState a.describe) := by
  rw [firstReport?_singleton, if_pos (hasSideEffect_of_touchesGlobalState types h), Access.offence,
    if_pos h]
  rfl

/-- What an access of a named variable does is read off the name and the surroundings. -/
theorem Node.offends?_named (operations : List Node) (x : Ident) :
    Access.firstReport? config types [⟨.var (.named x), operations⟩]
      = (Node.expr (.var (.named x))).offends? config types (.ofOperations config operations) := by
  let a : Access := ⟨.var (.named x), operations⟩
  let s := Surroundings.ofOperations config operations
  have htouches : a.touchesGlobalState config
      = (config.isSuperglobal x.text || s.declaresPersistentState) := rfl
  have heffect : a.hasSideEffect types config
      = (a.touchesGlobalState config || s.exposes (types.typeOf x.text)) := rfl
  show Access.firstReport? config types [a] = if _ then _ else _
  rw [← htouches]
  by_cases hglobal : a.touchesGlobalState config = true
  · rw [Access.firstReport?_of_touchesGlobalState config types hglobal, if_pos hglobal]
    rfl
  · rw [Access.firstReport?_singleton, heffect, Access.offence, if_neg hglobal, if_neg hglobal,
      Bool.eq_false_iff.2 hglobal, Bool.false_or]
    rfl

theorem Node.offends?_eq_firstReport? (operations : List Node) (n : Node) :
    Access.firstReport? config types ((Subject.ofNode? n).toList.map (⟨·, operations⟩))
      = n.offends? config types (.ofOperations config operations) := by
  cases n with
  | expr e =>
    cases e with
    | var name =>
      cases name with
      | named x => exact Node.offends?_named config types operations x
      | computed e => exact Access.firstReport?_of_touchesGlobalState config types rfl
    | _ => rfl
  | staticVar v =>
    have hstatic : Access.touchesGlobalState ⟨.static v, operations⟩ config = true :=
      Bool.or_true _
    exact Access.firstReport?_of_touchesGlobalState config types hstatic
  | _ => rfl

theorem Node.firstOffender?_eq_firstReport? (operations : List Node) (n : Node) :
    Access.firstReport? config types (n.accesses operations)
      = n.firstOffender? config types (.ofOperations config operations) := by
  -- the surroundings of the children are those of the operations around them
  induction n using Node.induction_children generalizing operations with
  | step n ih =>
    rw [Node.accesses_eq, Access.firstReport?_append, Node.offends?_eq_firstReport?,
      Node.firstOffender?_eq]
    congr 1
    split
    · rfl
    · rw [Surroundings.inside_ofOperations]
      exact Access.firstReport?_flatMap config types fun child hchild =>
        ih child hchild (n.operationsBelow operations)

end Refinement

/-! ## The verdict -/

theorem Callable.byRefTexts_eq (c : Callable) :
    c.byRefTexts = c.byRefBindings.map ByRefBinding.text := by
  unfold byRefTexts byRefBindings
  rw [List.map_append, List.map_append, List.map_map, List.map_map]
  congr 2
  split <;> rfl

/-- A callable always has a verdict by itself, and the recursion gives the report on it. -/
theorem Callable.exists_ownOffence? (config : Config) (c : Callable) (thisType : Option String) :
    ∃ o?, c.ownOffence? config thisType = .ok o?
      ∧ c.ownReport config thisType = Report.ofOffence? o? := by
  unfold ownOffence? ownReport
  rw [byRefTexts_eq]
  cases c.byRefBindings with
  | cons first rest => exact ⟨some (.byRef first rest), rfl, rfl⟩
  | nil =>
    let types := TypeMap.ofCallable c thisType
    let found := (c.body.flatMap (Node.accesses [])).find? (·.hasSideEffect types config)
    have hreport : c.body.findSome? (Node.firstOffender? config types .body)
        = found.map fun a => (a.offence config).report :=
      (Access.firstReport?_flatMap config types fun n _ =>
        n.firstOffender?_eq_firstReport? config types []).symm
    refine ⟨found.map fun a => a.offence config, ?_, ?_⟩
    · rw [locateAccesses_eq]
      rfl
    · show (c.body.findSome? (Node.firstOffender? config types .body)).getD .pure = _
      rw [hreport]
      cases found <;> rfl

theorem Analyzer.exists_rootKey? (c : Callable) {thisType : Option String}
    (h : thisType ≠ some "") : ∃ key?, rootKey? c thisType = .ok key? := by
  cases c with
  | function f => exact ⟨_, rfl⟩
  | closure f => cases thisType <;> exact ⟨_, rfl⟩
  | method m =>
    cases thisType with
    | none => exact ⟨_, rfl⟩
    | some t =>
      exact ⟨_, rootKey?_method m ⟨t, fun hempty => h (congrArg some hempty)⟩⟩

/-- **The verdict without definitions to look up.** The report of the analysis is that of the one
    recursion over the tree; and the accesses that the analysis goes by are the same for every way
    in which the places of the body can share objects. -/
theorem Analyzer.analyze_eq_ownReport (config : Config) (c : Callable) {thisType : Option String}
    (h : thisType ≠ some "") :
    (analyze { config := config } c thisType).outcome = .ok (c.ownReport config thisType)
    ∧ ∃ accesses, locateAccesses c.body = .ok accesses
      ∧ ∀ roots : List Occurrence, roots.map Occurrence.node = c.body →
          Occurrence.Placed roots → Occurrence.Acyclic roots →
          (scopeWalk roots).foldlM AccessLocator.react .start = .ok ⟨[], accesses⟩ := by
  refine ⟨?_, c.body.flatMap (Node.accesses []), locateAccesses_eq c.body, ?_⟩
  · let z : Analyzer := { config := config }
    obtain ⟨key?, hkey⟩ := exists_rootKey? c h
    obtain ⟨o?, hown, hreport⟩ := c.exists_ownOffence? config thisType
    obtain ⟨judge, hjudge⟩ := z.judge_eq_judgeWith config.callBudget
    have houtcome : (z.judge config.callBudget (startVisit key?) c thisType).outcome = .ok o? := by
      rw [hjudge]
      cases o? with
      | none => exact outcome_judgeWith_of_no_lookup judge (startVisit key?) hown rfl
      | some o => exact outcome_judgeWith_of_own judge (startVisit key?) hown
    rw [outcome_analyze hkey, houtcome, hreport]
    rfl
  · intro roots hnodes hplaced hacyclic
    rw [AccessLocator.foldlM_scopeWalk hacyclic hplaced, hnodes]

/-- A method that declares a static variable in a closure, which is not its own affair, and then
    converts its object to a string. -/
theorem Analyzer.analyze_stringified_object :
    let x : Ident := ⟨"x", by decide⟩
    let this : Expr := .var (.named ⟨"this", by decide⟩)
    let counter : Closure := ⟨[], [], [.static [⟨x, none⟩]], false, false, none⟩
    let m : MethodDecl :=
      ⟨x, [], [.expression (.closure counter), .ret (some (.binary .concat this (.literal .null)))],
        false, false, none⟩
    some "Foo" ≠ some ""
    ∧ (analyze {} (.method m) (some "Foo")).outcome
        = .ok (.sideEffect "$this in BinaryOp") := by
  intro x this counter m
  let types := TypeMap.ofCallable (.method m) (some "Foo")
  let joined : Expr := .binary .concat this (.literal .null)
  let around := (Surroundings.body.inside .standard (.stmt (.ret (some joined)))).inside .standard
    (.expr joined)
  have hclosure : (Node.stmt (.expression (.closure counter))).firstOffender? .standard types .body
      = none := by
    rw [Node.firstOffender?_eq]
    show List.findSome? _ [Node.expr (.closure counter)] = none
    rw [List.findSome?_singleton, Node.firstOffender?_eq]
    rfl
  have hthis : (Node.expr this).offends? .standard types around
      = some (.sideEffect "$this in BinaryOp") := by
    decide +kernel
  have hreturn : (Node.stmt (.ret (some joined))).firstOffender? .standard types .body
      = some (.sideEffect "$this in BinaryOp") := by
    rw [Node.firstOffender?_eq]
    show List.findSome? _ [Node.expr joined] = _
    rw [List.findSome?_singleton, Node.firstOffender?_eq]
    show List.findSome? (Node.firstOffender? .standard types around)
      [.expr this, .expr (.literal .null)] = _
    rw [List.findSome?_cons, Node.firstOffender?_eq, hthis]
    rfl
  have hreport : (Callable.method m).ownReport .standard (some "Foo")
      = .sideEffect "$this in BinaryOp" := by
    show (List.findSome? (Node.firstOffender? .standard types .body)
      [.stmt (.expression (.closure counter)), .stmt (.ret (some joined))]).getD .pure = _
    rw [List.findSome?_cons, hclosure, List.findSome?_singleton, hreturn]
    rfl
  have hne : some "Foo" ≠ some "" := by decide
  refine ⟨hne, ?_⟩
  rw [← hreport]
  exact (analyze_eq_ownReport .standard (.method m) hne).1

end CallablePurity
