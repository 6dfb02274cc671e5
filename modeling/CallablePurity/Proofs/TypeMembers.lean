import CallablePurity.Effect

set_option autoImplicit false

/-! # Types by their members

The classification of accesses reads a declared type as the set of its members, and the fewer there
are the less can happen to a value. A type says more than another one if it has members, all of
which are members of the other one (`DeclaredType.Refines`). An access that is harmless under some
types is harmless under types that say more, also if more types count as plain and fewer variables
as global (`Access.hasSideEffect_mono`).

In particular two types with the same members, such as the names `Foo` and `\foo` of one class, are
as good as each other: also as the class of the object that a callable works on. -/

namespace CallablePurity

namespace DeclaredType

/-- The members of a declared type; a missing type has none. -/
def membersOf : Option String → List String
  | none => []
  | some declared => members declared

/-- Both types have the same members. -/
def SameMembers (a b : Option String) : Prop :=
  ∀ m, m ∈ membersOf a ↔ m ∈ membersOf b

theorem SameMembers.refl (a : Option String) : SameMembers a a :=
  fun _ => Iff.rfl

theorem SameMembers.symm {a b : Option String} (h : SameMembers a b) : SameMembers b a :=
  fun m => (h m).symm

theorem consistsOf_iff (known : List String) (declared : Option String) :
    consistsOf known declared = true
      ↔ (∃ m, m ∈ membersOf declared) ∧ ∀ m ∈ membersOf declared, m ∈ known := by
  cases declared with
  | none => simp [consistsOf, membersOf]
  | some t =>
    have hne : members t ≠ [] ↔ ∃ m, m ∈ members t := by
      constructor
      · exact List.exists_mem_of_ne_nil _
      · rintro ⟨m, hm⟩
        exact List.ne_nil_of_mem hm
    rw [consistsOf_some_iff, membersOf, hne]

/-- The first type says at least as much as the second one. Of a type without members nothing is
    known, so that any type says as much. -/
def Refines (a b : Option String) : Prop :=
  (∃ m, m ∈ membersOf b) → (∃ m, m ∈ membersOf a) ∧ ∀ m ∈ membersOf a, m ∈ membersOf b

theorem SameMembers.refines {a b : Option String} (h : SameMembers a b) : Refines a b := by
  rintro ⟨m, hm⟩
  refine ⟨⟨m, (h m).2 hm⟩, ?_⟩
  intro m' hm'
  exact (h m').1 hm'

theorem refines_none (a : Option String) : Refines a none := by
  rintro ⟨m, hm⟩
  cases hm

/-- A type that says more consists of known members if the other one does. -/
theorem Refines.consistsOf {a b : Option String} (h : Refines a b) {known known' : List String}
    (hknown : known ⊆ known') (hb : consistsOf known b = true) : consistsOf known' a = true := by
  rw [consistsOf_iff] at hb ⊢
  obtain ⟨hmem, hall⟩ := hb
  obtain ⟨hmem', hsub⟩ := h hmem
  refine ⟨hmem', ?_⟩
  intro m hm
  exact hknown (hall m (hsub m hm))

end DeclaredType

open DeclaredType (SameMembers Refines)

/-! ## Accesses -/

section Mono

variable {c c' : Config} (hscalar : c.scalarNames ⊆ c'.scalarNames)
  (hplain : c.scalarNames ++ c.collectionNames ⊆ c'.scalarNames ++ c'.collectionNames)

include hscalar in
theorem Config.refines_elementType {a b : Option String} (h : Refines a b) :
    Refines (c'.elementType a) (c.elementType b) := by
  unfold elementType
  by_cases hb : c.isScalar b = true
  · have ha : c'.isScalar a = true := h.consistsOf hscalar hb
    rw [if_pos ha, if_pos hb]
    exact h
  · -- an element of a collection is of unknown type, which any type refines
    rw [if_neg hb]
    exact DeclaredType.refines_none _

include hscalar hplain

theorem Config.runsForeignCode_mono {a b : Option String} (h : Refines a b)
    (operations : List Node) (hruns : c'.runsForeignCode a operations = true) :
    c.runsForeignCode b operations = true := by
  induction operations generalizing a b with
  | nil => cases hruns
  | cons operation outer ih =>
    have hplainType : c'.isScalarLike a = false → c.isScalarLike b = false := by
      intro ha
      rw [Bool.eq_false_iff] at ha ⊢
      intro hb
      exact ha (h.consistsOf hplain hb)
    rw [runsForeignCode] at hruns ⊢
    generalize operation.handling = handling at hruns ⊢
    cases handling with
    | harmless => cases hruns
    | foreign => rfl
    | stringified =>
      simp only [Bool.not_eq_true'] at hruns ⊢
      exact hplainType hruns
    | element =>
      simp only [Bool.or_eq_true, Bool.not_eq_true'] at hruns ⊢
      exact hruns.imp hplainType (ih (refines_elementType hscalar h))

/-- An access with a side effect has one also under types that say less, if fewer types count as
    plain and more variables as global. -/
theorem Access.hasSideEffect_mono (hglobals : c'.superglobals ⊆ c.superglobals) (a : Access)
    {types types' : TypeMap} (h : ∀ name, Refines (types'.typeOf name) (types.typeOf name))
    (heffect : a.hasSideEffect types' c' = true) : a.hasSideEffect types c = true := by
  unfold hasSideEffect at heffect ⊢
  split
  · rfl
  · next name hname =>
    rw [hname] at heffect
    simp only [Bool.or_eq_true, Config.isSuperglobal, List.contains_iff_mem] at heffect ⊢
    rcases heffect with (hglobal | hpersistent) | hruns
    · exact Or.inl (Or.inl (hglobals hglobal))
    · exact Or.inl (Or.inr hpersistent)
    · exact Or.inr (Config.runsForeignCode_mono hscalar hplain (h name.text) _ hruns)

end Mono

/-- An access has the same effect under type maps that agree up to the members of types. -/
theorem Access.hasSideEffect_congr (a : Access) (c : Config) {types types' : TypeMap}
    (h : ∀ name, SameMembers (types.typeOf name) (types'.typeOf name)) :
    a.hasSideEffect types c = a.hasSideEffect types' c := by
  have hrefl (l : List String) : l ⊆ l := List.Subset.refl l
  rw [Bool.eq_iff_iff]
  constructor
  · exact a.hasSideEffect_mono (hrefl _) (hrefl _) (hrefl _) fun name => (h name).refines
  · exact a.hasSideEffect_mono (hrefl _) (hrefl _) (hrefl _) fun name => (h name).symm.refines

/-! ## Type maps of a callable -/

namespace TypeMap

/-- What a callable binds by itself, in order: its captures, then its parameters. -/
def ownEntries (c : Callable) : List (String × Option String) :=
  c.captures.map (fun u => (u.name.text, none))
    ++ c.params.map (fun p => (p.name.text, paramType p))

/-- What a callable binds by itself takes precedence over its object. -/
theorem get?_ofCallable (c : Callable) (thisType : Option String) (name : String) :
    (ofCallable c thisType).get? name
      = ((ownEntries c).reverse.lookup name).or ((thisEntries c thisType).lookup name) := by
  have hthis : (thisEntries c thisType).reverse = thisEntries c thisType := by
    unfold thisEntries
    split
    · split <;> rfl
    · rfl
  have hentries : callableEntries c thisType = thisEntries c thisType ++ ownEntries c :=
    List.append_assoc _ _ _
  show (OrderedMap.ofList (callableEntries c thisType)).get? name = _
  rw [OrderedMap.get?_ofList, hentries, List.reverse_append, List.lookup_append, hthis]

theorem typeOf_ofCallable (c : Callable) (thisType : Option String) (name : String) :
    (ofCallable c thisType).typeOf name
      = (((ownEntries c).reverse.lookup name).or ((thisEntries c thisType).lookup name)).join :=
  congrArg Option.join (get?_ofCallable c thisType name)

theorem lookup_thisEntries (c : Callable) (thisType : Option String) (name : String) :
    (thisEntries c thisType).lookup name
      = if c.bindsThis ∧ name = "this" then thisType.map some else none := by
  unfold thisEntries
  cases thisType with
  | none => simp
  | some t =>
    by_cases hbinds : c.bindsThis = true
    · by_cases hname : name = "this"
      · simp [hbinds, hname]
      · simp [hbinds, hname, List.lookup_cons, beq_false_of_ne hname]
    · simp [hbinds]

theorem join_lookup_thisEntries (c : Callable) (thisType : Option String) (name : String) :
    ((thisEntries c thisType).lookup name).join
      = if c.bindsThis ∧ name = "this" then thisType else none := by
  rw [lookup_thisEntries]
  split
  · cases thisType <;> rfl
  · rfl

/-- The types that a callable declares depend on the class of its object through the members of
    that class alone. -/
theorem sameMembers_ofCallable (c : Callable) {a b : Option String} (h : SameMembers a b)
    (name : String) :
    SameMembers ((ofCallable c a).typeOf name) ((ofCallable c b).typeOf name) := by
  rw [typeOf_ofCallable, typeOf_ofCallable]
  cases (ownEntries c).reverse.lookup name with
  | some declared => exact SameMembers.refl declared
  | none =>
    rw [Option.none_or, Option.none_or, join_lookup_thisEntries, join_lookup_thisEntries]
    split
    · exact h
    · exact SameMembers.refl none

end TypeMap

end CallablePurity
