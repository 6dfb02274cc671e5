import CallablePurity.Proofs.CallGraph
import CallablePurity.Proofs.ElementFetches

set_option autoImplicit false

/-! # Variables that are overwritten

The types of variables are those that a callable declares; an assignment in its body changes none of
them and is harmless whatever it assigns. So the declared type of a parameter is trusted also where
the parameter holds something else by then.

What this trust covers can be said exactly. Replace the type of a variable by an unknown one: then
the accesses of a pure callable that turn out to have a side effect are those whose nearest
operation converts the value to a string or takes an element of it
(`Access.hasSideEffect_withUnknown`). All others are harmless for a value of any type, and a
variable of unknown type occurs in no such place. `Analyzer.overwritten_type_stays_trusted` puts
this together for a variable that is overwritten with one of unknown type. -/

namespace CallablePurity

/-! ## Forgetting a type -/

namespace TypeMap

/-- The types where nothing is known of one variable. -/
def withUnknown (m : TypeMap) (x : Ident) : TypeMap where
  entries := m.entries.insert x.text none
  named := by
    intro name hname
    rcases (OrderedMap.mem_keys_insert _ _ _ _).1 hname with hname | rfl
    · exact m.named name hname
    · exact x.nonempty

theorem typeOf_withUnknown (m : TypeMap) (x : Ident) (name : String) :
    (m.withUnknown x).typeOf name = if name = x.text then none else m.typeOf name := by
  unfold typeOf get? withUnknown
  rw [OrderedMap.get?_insert]
  split <;> rfl

end TypeMap

/-! ## Operations that depend on the type of a value -/

/-- What the node does with the value below it depends on the type of the value. -/
def Node.asksForType (n : Node) : Bool :=
  n.makesText || n.isFetch

/-- The access rests on the type of its variable: its value is converted to a string, or an element
    of it is taken. -/
def Access.restsOnType (a : Access) : Bool :=
  a.nearest?.any Node.asksForType

namespace Config

variable {c : Config} {declared : Option String} {operations : List Node}

/-- Operations of which the nearest does not depend on the type decide for all types alike. -/
theorem runsForeignCode_congr (h : operations.head?.any Node.asksForType = false)
    (declared declared' : Option String) :
    c.runsForeignCode declared operations = c.runsForeignCode declared' operations := by
  cases operations with
  | nil => rfl
  | cons n outer =>
    have hasks : n.makesText = false ∧ n.isFetch = false := by
      simpa [Node.asksForType] using h
    rw [runsForeignCode_of_not_fetch hasks.2, runsForeignCode_of_not_fetch hasks.2]
    simp [exposedBelow, hasks.1]

/-- Below an operation that depends on its type a value is harmless only if it is plain. -/
theorem runsForeignCode_of_asksForType (h : operations.head?.any Node.asksForType = true)
    (hplain : c.isScalarLike declared = false) : c.runsForeignCode declared operations = true := by
  cases operations with
  | nil => cases h
  | cons n outer =>
    by_cases hfetch : n.isFetch = true
    · rw [runsForeignCode_of_fetch hfetch, hplain]
      rfl
    · have htext : n.makesText = true := by simpa [Node.asksForType, hfetch] using h
      rw [runsForeignCode_of_not_fetch (Bool.eq_false_iff.2 hfetch)]
      simp [exposedBelow, htext, hplain]

end Config

namespace Access

variable {a : Access} {config : Config} {types : TypeMap} {x : Ident}

theorem hasSideEffect_of_name? (hname : a.name? = some x) (types : TypeMap) :
    a.hasSideEffect types config
      = (config.isSuperglobal x.text || a.declaresPersistentState
        || config.runsForeignCode (types.typeOf x.text) a.operations.reverse) := by
  unfold hasSideEffect
  rw [hname]

theorem restsOnType_eq (a : Access) :
    a.restsOnType = a.operations.reverse.head?.any Node.asksForType := by
  unfold restsOnType nearest?
  rw [List.head?_reverse]

/-- An access that does not rest on the type of its variable is the same under all types. -/
theorem hasSideEffect_eq_of_not_restsOnType (hname : a.name? = some x)
    (h : a.restsOnType = false) (types types' : TypeMap) :
    a.hasSideEffect types config = a.hasSideEffect types' config := by
  rw [restsOnType_eq] at h
  rw [hasSideEffect_of_name? hname, hasSideEffect_of_name? hname,
    Config.runsForeignCode_congr h (types.typeOf x.text) (types'.typeOf x.text)]

/-- An access that rests on a type has a side effect unless the type is plain. -/
theorem hasSideEffect_of_restsOnType (hname : a.name? = some x) (h : a.restsOnType = true)
    (hplain : config.isScalarLike (types.typeOf x.text) = false) :
    a.hasSideEffect types config = true := by
  rw [restsOnType_eq] at h
  rw [hasSideEffect_of_name? hname, Config.runsForeignCode_of_asksForType h hplain, Bool.or_true]

/-- An access without a side effect would have one for a variable of unknown type exactly if it
    rests on the type. -/
theorem hasSideEffect_withUnknown (hname : a.name? = some x)
    (h : a.hasSideEffect types config = false) :
    a.hasSideEffect (types.withUnknown x) config = a.restsOnType := by
  by_cases hrests : a.restsOnType = true
  · rw [hrests]
    refine hasSideEffect_of_restsOnType hname hrests ?_
    rw [TypeMap.typeOf_withUnknown, if_pos rfl]
    rfl
  · have hrests := Bool.eq_false_iff.2 hrests
    rw [hrests, hasSideEffect_eq_of_not_restsOnType hname hrests _ types, h]

end Access

/-! ## Overwriting a variable -/

/-- `$target = $source` -/
def Expr.copy (target source : Ident) : Expr :=
  .assign (.var (.named target)) (.var (.named source))

/-- The variable that is overwritten is accessed, with the assignment nearest to it. -/
theorem exists_access_of_copy {body : List Node} {target source : Ident}
    (h : .expr (.copy target source) ∈ body.flatMap Node.scope) :
    ∃ operations, ⟨.var (.named target), operations ++ [.expr (.copy target source)]⟩
      ∈ body.flatMap (Node.accesses []) := by
  obtain ⟨n, hn, hcopy⟩ := List.mem_flatMap.1 h
  have hchild : Node.expr (.var (.named target))
      ∈ (Node.expr (.copy target source)).children := List.mem_cons_self
  obtain ⟨operations, hmem⟩ := Node.exists_mem_accesses [] hcopy rfl rfl hchild rfl
  exact ⟨operations, List.mem_flatMap.2 ⟨n, hn, hmem⟩⟩

namespace Analyzer

/-- The accesses of a pure callable have no side effect under the types that it declares. -/
theorem hasSideEffect_of_pure {z : Analyzer} {c : Callable} {thisType : Option String}
    (h : (z.analyze c thisType).outcome = .ok .pure) :
    ∀ a ∈ c.body.flatMap (Node.accesses []),
      a.hasSideEffect (.ofCallable c thisType) z.config = false := by
  obtain ⟨key?, -, hjudge⟩ := outcome_judge_of_pure h
  obtain ⟨judge?, heq⟩ := judge_eq_judgeWith (z := z) z.config.callBudget
  rw [heq] at hjudge
  exact Callable.hasSideEffect_eq_false (ownOffence?_of_outcome_judgeWith _ _ hjudge)

/-- **A declared type stays trusted after the variable is overwritten.** Let a callable be found to
    be pure, without definitions to look up, and let its body assign a variable of unknown type to
    another one. The assignment is harmless whatever the types are. With the type of the overwritten
    variable replaced by an unknown one, its accesses stay without a side effect except for those
    that rest on the type; and there are such accesses only if the type is plain. So the variable
    that is assigned, whose type is not plain, has none of them. -/
theorem overwritten_type_stays_trusted (config : Config) (c : Callable) (thisType : Option String)
    (hpure : (analyze { config := config } c thisType).outcome = .ok .pure) {target source : Ident}
    (hcopy : .expr (.copy target source) ∈ c.body.flatMap Node.scope)
    (hsource : config.isScalarLike ((TypeMap.ofCallable c thisType).typeOf source.text) = false) :
    let types := TypeMap.ofCallable c thisType
    ∃ accesses, locateAccesses c.body = .ok accesses
      ∧ (∃ a ∈ accesses, a.name? = some target
          ∧ a.nearest? = some (.expr (.copy target source))
          ∧ ∀ types', a.hasSideEffect types' config = false)
      ∧ (∀ a ∈ accesses, a.name? = some target →
          a.hasSideEffect (types.withUnknown target) config = a.restsOnType
          ∧ (a.restsOnType = true → config.isScalarLike (types.typeOf target.text) = true))
      ∧ ∀ a ∈ accesses, a.name? = some source → a.restsOnType = false := by
  intro types
  have heffect := hasSideEffect_of_pure hpure
  have hplain {a : Access} {x : Ident} (ha : a ∈ c.body.flatMap (Node.accesses []))
      (hname : a.name? = some x) (hrests : a.restsOnType = true) :
      config.isScalarLike (types.typeOf x.text) = true := by
    by_contra hnot
    have htrue := a.hasSideEffect_of_restsOnType hname hrests (Bool.eq_false_iff.2 hnot)
    rw [heffect a ha] at htrue
    cases htrue
  refine ⟨_, locateAccesses_eq c.body, ?_, ?_, ?_⟩
  · obtain ⟨operations, hmem⟩ := exists_access_of_copy hcopy
    refine ⟨_, hmem, rfl, List.getLast?_concat, ?_⟩
    intro types'
    have hrests : Access.restsOnType
        ⟨.var (.named target), operations ++ [.expr (.copy target source)]⟩ = false := by
      rw [Access.restsOnType, Access.nearest?, List.getLast?_concat]
      rfl
    rw [Access.hasSideEffect_eq_of_not_restsOnType rfl hrests types' types]
    exact heffect _ hmem
  · intro a ha hname
    exact ⟨a.hasSideEffect_withUnknown hname (heffect a ha), hplain ha hname⟩
  · intro a ha hname
    rw [Bool.eq_false_iff]
    intro hrests
    rw [hplain ha hname hrests] at hsource
    cases hsource

/-! ### A number that is overwritten and then converted to a string -/

namespace Labelled

def number : Ident := ⟨"number", by decide⟩

def value : Ident := ⟨"value", by decide⟩

def cast : Expr := .cast .string (.var (.named number))

/-- `function label(int $number, $value) { $number = $value; return (string) $number; }` -/
def main : Callable :=
  .function ⟨⟨"label", by decide⟩,
    [⟨number, some ⟨"int", by decide⟩, false, .required⟩, ⟨value, none, false, .required⟩],
    [.expression (.copy number value), .ret (some cast)], false, none⟩

/-- The access in the cast. -/
def converted : Access :=
  ⟨.var (.named number), [.stmt (.ret (some cast)), .expr cast]⟩

theorem accesses_main : main.body.flatMap (Node.accesses [])
    = [⟨.var (.named number), [.expr (.copy number value)]⟩,
      ⟨.var (.named value), [.expr (.copy number value)]⟩, converted] := by
  cbv

theorem converted_mem : converted ∈ main.body.flatMap (Node.accesses []) := by
  rw [accesses_main]
  simp

theorem copy_mem : .expr (.copy number value) ∈ main.body.flatMap Node.scope := by
  have hscope : main.body.flatMap Node.scope
      = [.stmt (.expression (.copy number value)), .expr (.copy number value),
        .expr (.var (.named number)), .expr (.var (.named value)), .stmt (.ret (some cast)),
        .expr cast, .expr (.var (.named number))] := by
    cbv
  rw [hscope]
  simp

theorem value_unknown :
    Config.standard.isScalarLike ((TypeMap.ofCallable main none).typeOf value.text) = false := by
  decide +kernel

theorem outcome_analyze_main : (analyze {} main none).outcome = .ok .pure := by
  have hkey : rootKey? main none = .ok (some "label") := by decide +kernel
  have hown : main.ownOffence? .standard none = .ok none := by
    rw [Callable.ownOffence?_eq_none_iff]
    refine ⟨rfl, _, locateAccesses_eq _, ?_⟩
    rw [accesses_main]
    decide +kernel
  obtain ⟨judge?, hjudge⟩ := judge_eq_judgeWith (z := {}) Config.standard.callBudget
  have hroot : (judge {} Config.standard.callBudget (startVisit (some "label")) main none).outcome
      = .ok none := by
    rw [hjudge]
    exact outcome_judgeWith_of_no_lookup judge? (startVisit (some "label")) hown rfl
  exact outcome_analyze_of_judge hkey hroot

end Labelled

/-- The cast rests on the type of `$number`, which is plain: with an unknown type in its place the
    access would have a side effect. -/
theorem overwritten_type_stays_trusted_labelled :
    let types := TypeMap.ofCallable Labelled.main none
    (analyze {} Labelled.main none).outcome = .ok .pure
    ∧ .expr (.copy Labelled.number Labelled.value) ∈ Labelled.main.body.flatMap Node.scope
    ∧ Config.standard.isScalarLike (types.typeOf Labelled.value.text) = false
    ∧ Labelled.converted.restsOnType = true
    ∧ Labelled.converted.hasSideEffect (types.withUnknown Labelled.number) .standard = true
    ∧ Config.standard.isScalarLike (types.typeOf Labelled.number.text) = true := by
  intro types
  obtain ⟨accesses, hlocate, -, htarget, -⟩ := overwritten_type_stays_trusted .standard
    Labelled.main none Labelled.outcome_analyze_main Labelled.copy_mem Labelled.value_unknown
  rw [locateAccesses_eq] at hlocate
  cases hlocate
  have hrests : Labelled.converted.restsOnType = true := rfl
  obtain ⟨heffect, hplain⟩ := htarget _ Labelled.converted_mem rfl
  exact ⟨Labelled.outcome_analyze_main, Labelled.copy_mem, Labelled.value_unknown, hrests,
    heffect.trans hrests, hplain hrests⟩

/-- A type is trusted that does not hold any more: the analysis finds `label` to be pure, although
    `$number` holds whatever `$value` did when it is converted, and the conversion of a value of
    unknown type has a side effect. -/
theorem overwritten_number_converted :
    let types := TypeMap.ofCallable Labelled.main none
    (analyze {} Labelled.main none).outcome = .ok .pure
    ∧ .expr (.copy Labelled.number Labelled.value) ∈ Labelled.main.body.flatMap Node.scope
    ∧ Config.standard.isScalarLike (types.typeOf Labelled.value.text) = false
    ∧ ∃ accesses, locateAccesses Labelled.main.body = .ok accesses
      ∧ ∃ a ∈ accesses, a.name? = some Labelled.number
        ∧ a.hasSideEffect (types.withUnknown Labelled.number) .standard = true := by
  intro types
  have hfalse := hasSideEffect_of_pure Labelled.outcome_analyze_main _ Labelled.converted_mem
  refine ⟨Labelled.outcome_analyze_main, Labelled.copy_mem, Labelled.value_unknown, _,
    locateAccesses_eq _, Labelled.converted, Labelled.converted_mem, rfl, ?_⟩
  rw [Access.hasSideEffect_withUnknown rfl hfalse]
  rfl

end Analyzer

end CallablePurity
