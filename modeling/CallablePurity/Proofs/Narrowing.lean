import CallablePurity.Proofs.CallGraph
import CallablePurity.Proofs.TypeMembers
import Mathlib.Data.List.Forall2

set_option autoImplicit false

/-! # Narrowing a declared type never loses purity

A parameter gets a narrower type: one instead of none, or one with some of the members that its type
had (`DeclaredType.Narrows`). What is known of variables can change then in more than one way. The
variable may be bound again by a later parameter of the same name, so that nothing changes; an
element of its value may become plain where nothing was known of it before, as when `array|string`
is narrowed to `string`; and a call of a method on the parameter may get a certain target.

For a callable in which nothing is found none of this does harm. Types are refined variable by
variable (`Callable.Narrows`), and an access that is harmless is harmless under types that say more
(`Access.hasSideEffect_mono`). Then no call has a variable as its receiver, the targets are the same
as before, and the callables behind them are judged as before, since they are not the ones that have
changed. -/

namespace CallablePurity

open DeclaredType (SameMembers Refines)

/-! ## Narrower types -/

/-- The type can be declared in the place of another one: nothing was declared before, or it has
    members, all of which are members of the other one. -/
inductive DeclaredType.Narrows (t : Ident) : Option Ident → Prop
  | untyped : Narrows t none
  | typed {declared : Ident} (hne : members t.text ≠ [])
      (hsub : members t.text ⊆ members declared.text) : Narrows t (some declared)

theorem DeclaredType.Narrows.refines {t : Ident} {declared? : Option Ident}
    (h : Narrows t declared?) : Refines (some t.text) (declared?.map Ident.text) := by
  cases h with
  | untyped => exact refines_none _
  | typed hne hsub => exact fun _ => ⟨List.exists_mem_of_ne_nil _ hne, hsub⟩

/-- The first parameter is the second one with a type that says at least as much. -/
structure Param.Narrows (p' p : Param) : Prop where
  name : p'.name = p.name
  byRef : p'.byRef = p.byRef
  types : Refines (TypeMap.paramType p') (TypeMap.paramType p)

theorem Param.Narrows.refl (p : Param) : p.Narrows p :=
  ⟨rfl, rfl, (SameMembers.refl _).refines⟩

/-- The same parameter with another declared type. -/
def Param.retype (p : Param) (t : Ident) : Param :=
  { p with declaredType := some t }

/-- A parameter that takes many arguments holds an array whatever is declared. -/
theorem Param.narrows_retype {p : Param} {t : Ident}
    (h : DeclaredType.Narrows t p.declaredType) : (p.retype t).Narrows p := by
  refine ⟨rfl, rfl, ?_⟩
  cases harity : p.arity with
  | variadic => simpa [TypeMap.paramType, retype, harity] using (SameMembers.refl _).refines
  | required => simpa [TypeMap.paramType, retype, harity] using h.refines
  | optional default => simpa [TypeMap.paramType, retype, harity] using h.refines

/-- A list with one item changed is related to the list if the item is. -/
theorem forall₂_modify {α : Type} {R : α → α → Prop} (hrefl : ∀ a, R a a) {f : α → α}
    {items : List α} {i : Nat} (h : ∀ a, items[i]? = some a → R (f a) a) :
    List.Forall₂ R (items.modify i f) items := by
  induction items generalizing i with
  | nil => simp
  | cons a rest ih =>
    cases i with
    | zero => exact .cons (h a rfl) (List.forall₂_same.2 fun b _ => hrefl b)
    | succ i => exact .cons (hrefl a) (ih h)

/-! ## Types of variables -/

/-- Entries of the same names, one by one related, give related values for every name. -/
theorem rel_lookup {R : Option String → Option String → Prop}
    {es es' : List (String × Option String)}
    (h : List.Forall₂ (fun e' e => e'.1 = e.1 ∧ R e'.2 e.2) es' es) (name : String) :
    Option.Rel R (es'.lookup name) (es.lookup name) := by
  induction h with
  | nil => exact .none
  | @cons e' e rest' rest he _ ih =>
    obtain ⟨key', value'⟩ := e'
    obtain ⟨key, value⟩ := e
    obtain ⟨rfl, hvalue⟩ := he
    by_cases hname : name = key'
    · simpa [hname] using Option.Rel.some hvalue
    · simpa [List.lookup_cons, beq_false_of_ne hname] using ih

namespace Callable

/-- The same callable with other parameters. -/
def withParams (params : List Param) : Callable → Callable
  | function f => function { f with params := params }
  | method m => method { m with params := params }
  | closure c => closure { c with params := params }

/-- The same callable with another declared type of the parameter at the given place. -/
def retype (c : Callable) (i : Nat) (t : Ident) : Callable :=
  c.withParams (c.params.modify i (·.retype t))

/-- The first callable does the same as the second one, and its parameters say at least as much of
    the variables that are bound when the body starts to run. -/
structure Narrows (c' c : Callable) : Prop where
  body : c'.body = c.body
  byRefBindings : c'.byRefBindings = c.byRefBindings
  types : ∀ thisType name, Refines ((TypeMap.ofCallable c' thisType).typeOf name)
    ((TypeMap.ofCallable c thisType).typeOf name)
  rootKey? : ∀ thisType, Analyzer.rootKey? c' thisType = Analyzer.rootKey? c thisType

section WithParams

variable (c : Callable) (params : List Param)

@[simp] theorem params_withParams : (c.withParams params).params = params := by
  cases c <;> rfl

@[simp] theorem captures_withParams : (c.withParams params).captures = c.captures := by
  cases c <;> rfl

@[simp] theorem body_withParams : (c.withParams params).body = c.body := by
  cases c <;> rfl

@[simp] theorem byRef_withParams : (c.withParams params).byRef = c.byRef := by
  cases c <;> rfl

@[simp] theorem rootKey?_withParams (thisType : Option String) :
    Analyzer.rootKey? (c.withParams params) thisType = Analyzer.rootKey? c thisType := by
  cases c <;> cases thisType <;> rfl

@[simp] theorem thisEntries_withParams (thisType : Option String) :
    TypeMap.thisEntries (c.withParams params) thisType = TypeMap.thisEntries c thisType := by
  cases c <;> rfl

end WithParams

section Narrower

variable {c : Callable} {params : List Param} (h : List.Forall₂ Param.Narrows params c.params)

include h

theorem byRefBindings_withParams : (c.withParams params).byRefBindings = c.byRefBindings := by
  have hparams : ∀ {ps' ps : List Param}, List.Forall₂ Param.Narrows ps' ps →
      (ps'.filter Param.byRef).map (fun p => ByRefBinding.param p.name)
        = (ps.filter Param.byRef).map fun p => .param p.name := by
    intro ps' ps hps
    induction hps with
    | nil => rfl
    | cons hp _ ih => simp [List.filter_cons, hp.byRef, apply_ite (List.map _), hp.name, ih]
  unfold byRefBindings
  rw [byRef_withParams, params_withParams, captures_withParams, hparams h]

/-- What is bound by a later parameter counts, for both callables. -/
theorem refines_withParams (thisType : Option String) (name : String) :
    Refines ((TypeMap.ofCallable (c.withParams params) thisType).typeOf name)
      ((TypeMap.ofCallable c thisType).typeOf name) := by
  have hentries : List.Forall₂ (fun e' e => e'.1 = e.1 ∧ Refines e'.2 e.2)
      (TypeMap.ownEntries (c.withParams params)) (TypeMap.ownEntries c) := by
    unfold TypeMap.ownEntries
    rw [captures_withParams, params_withParams]
    refine List.rel_append (List.forall₂_same.2 ?_) ?_
    · exact fun e _ => ⟨rfl, (SameMembers.refl _).refines⟩
    · rw [List.forall₂_map_left_iff, List.forall₂_map_right_iff]
      exact h.imp fun p' p hp => ⟨congrArg Ident.text hp.name, hp.types⟩
  rw [TypeMap.typeOf_ofCallable, TypeMap.typeOf_ofCallable, thisEntries_withParams]
  have hlookup := rel_lookup (List.forall₂_reverse_iff.2 hentries) name
  generalize (TypeMap.ownEntries (c.withParams params)).reverse.lookup name = found' at hlookup ⊢
  generalize (TypeMap.ownEntries c).reverse.lookup name = found at hlookup ⊢
  cases hlookup with
  | none => exact (SameMembers.refl _).refines
  | some hvalue => exact hvalue

theorem narrows_withParams : (c.withParams params).Narrows c where
  body := c.body_withParams params
  byRefBindings := byRefBindings_withParams h
  types := refines_withParams h
  rootKey? := c.rootKey?_withParams params

end Narrower

theorem narrows_retype {c : Callable} {i : Nat} {t : Ident} {p : Param}
    (hp : c.params[i]? = some p) (h : DeclaredType.Narrows t p.declaredType) :
    (c.retype i t).Narrows c := by
  refine narrows_withParams (forall₂_modify Param.Narrows.refl ?_)
  intro q hq
  rw [hp] at hq
  cases hq
  exact Param.narrows_retype h

end Callable

/-! ## Judgements -/

namespace Analyzer

section Narrower

variable {c c' : Callable} (hnarrow : c'.Narrows c) {config : Config} {thisType : Option String}

include hnarrow

theorem ownOffence?_of_narrows (h : c.ownOffence? config thisType = .ok none) :
    c'.ownOffence? config thisType = .ok none := by
  rw [Callable.ownOffence?_eq_none_iff] at h ⊢
  obtain ⟨hbindings, accesses, hlocate, heffect⟩ := h
  refine ⟨hnarrow.byRefBindings.trans hbindings, accesses, ?_, ?_⟩
  · rw [hnarrow.body]
    exact hlocate
  · intro a ha
    have hfalse := heffect a ha
    rw [Bool.eq_false_iff] at hfalse ⊢
    intro htrue
    refine hfalse (a.hasSideEffect_mono ?_ ?_ ?_ (hnarrow.types thisType) htrue)
    all_goals exact List.Subset.refl _

/-- Nothing is found in a callable if nothing is found in one whose types say less. -/
theorem outcome_judgeWith_of_narrows {lookup? : Option Lookup} {judge? : Option Judge}
    {visit : Visit}
    (h : (judgeWith { config := config, lookup := lookup? } judge? visit c thisType).outcome
      = .ok none) :
    (judgeWith { config := config, lookup := lookup? } judge? visit c' thisType).outcome
      = .ok none := by
  rw [outcome_judgeWith_eq_none_iff_calls] at h ⊢
  obtain ⟨hown, hcalls⟩ := h
  refine ⟨ownOffence?_of_narrows hnarrow hown, ?_⟩
  intro lookup hlookup call hcall
  rw [hnarrow.body] at hcall
  -- the target of the call is the same, so that the same callee is judged
  have htarget := Resolve.target?_eq_of_no_sideEffect (Callable.hasSideEffect_eq_false hown) hcall
    config config (.ofCallable c thisType) (.ofCallable c' thisType) .empty .empty
  have hcheck := hcalls lookup hlookup call hcall
  rw [outcome_checkCall] at hcheck ⊢
  rw [htarget] at hcheck
  exact hcheck

end Narrower

/-- **Narrowing a declared type never loses purity.** A callable that is found to be pure is found
    to be pure also with a narrower type of one of its parameters, by the same analysis. -/
theorem analyze_pure_of_narrowed (config : Config) (lookup? : Option Lookup) (c : Callable)
    (thisType : Option String) {i : Nat} {p : Param} (hp : c.params[i]? = some p) {t : Ident}
    (hnarrow : DeclaredType.Narrows t p.declaredType)
    (h : (analyze { config := config, lookup := lookup? } c thisType).outcome = .ok .pure) :
    (analyze { config := config, lookup := lookup? } (c.retype i t) thisType).outcome
      = .ok .pure := by
  have hretype := Callable.narrows_retype hp hnarrow
  obtain ⟨key?, hkey, hroot⟩ := outcome_judge_of_pure h
  obtain ⟨judge?, hjudge⟩ :=
    judge_eq_judgeWith (z := { config := config, lookup := lookup? }) config.callBudget
  rw [hjudge] at hroot
  have hroot' : (judge { config := config, lookup := lookup? } config.callBudget (startVisit key?)
      (c.retype i t) thisType).outcome = .ok none := by
    rw [hjudge]
    exact outcome_judgeWith_of_narrows hretype hroot
  exact outcome_analyze_of_judge ((hretype.rootKey? thisType).trans hkey) hroot'

/-! ### An array or a text that becomes a text -/

namespace FirstItem

def source : Ident := ⟨"source", by decide⟩

def wide : Ident := ⟨"array|string", by decide⟩

def narrow : Ident := ⟨"string", by decide⟩

def item : Expr := .index (.var (.named source)) (some (.literal (.int 0)))

/-- `function first(array|string $source) { return $source[0]; }` -/
def root : Callable :=
  .function ⟨⟨"first", by decide⟩, [⟨source, some wide, false, .required⟩], [.ret (some item)],
    false, none⟩

theorem accesses_root : root.body.flatMap (Node.accesses [])
    = [⟨.var (.named source), [.stmt (.ret (some item)), .expr item]⟩] := by
  cbv

theorem locateCalls_root : locateCalls root.body = [] := by
  rw [locateCalls, locate_eq]
  cbv

theorem narrows : DeclaredType.Narrows narrow (some wide) :=
  .typed (by decide +kernel) (by decide +kernel)

theorem analyze_root (lookup : Lookup) :
    (analyze { lookup := some lookup } root none).outcome = .ok .pure := by
  have hkey : rootKey? root none = .ok (some "first") := by decide +kernel
  have hown : root.ownOffence? .standard none = .ok none := by
    rw [Callable.ownOffence?_eq_none_iff]
    refine ⟨rfl, _, locateAccesses_eq _, ?_⟩
    rw [accesses_root]
    decide +kernel
  have hroot : ((following .standard lookup).judge 8 (startVisit (some "first")) root none).outcome
      = .ok none := by
    rw [judge, outcome_judgeWith_eq_none_iff_calls, locateCalls_root]
    exact ⟨hown, fun _ _ _ hcall => absurd hcall List.not_mem_nil⟩
  exact outcome_analyze_of_judge hkey hroot

end FirstItem

/-- What was an element of an unknown type becomes an element of a text. -/
theorem analyze_pure_of_narrowed_item :
    DeclaredType.Narrows FirstItem.narrow (some FirstItem.wide)
    ∧ Config.standard.elementType (some FirstItem.wide.text) = none
    ∧ Config.standard.elementType (some FirstItem.narrow.text) = some FirstItem.narrow.text
    ∧ (analyze { lookup := some (.exact []) } FirstItem.root none).outcome = .ok .pure
    ∧ (analyze { lookup := some (.exact []) } (FirstItem.root.retype 0 FirstItem.narrow)
        none).outcome = .ok .pure := by
  refine ⟨FirstItem.narrows, by decide +kernel, by decide +kernel, FirstItem.analyze_root _, ?_⟩
  exact analyze_pure_of_narrowed .standard (some (.exact [])) FirstItem.root none (i := 0) rfl
    FirstItem.narrows (FirstItem.analyze_root _)

end Analyzer

end CallablePurity
