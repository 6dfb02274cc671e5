import CallablePurity.Proofs.TypeMembers

set_option autoImplicit false

/-! # Which declaration counts

A callable may declare one name more than once: as a parameter, repeatedly, as a captured variable,
and `$this` besides. The type map holds one entry for it. The entry is that of the last parameter of
the name; else that of a capture, of which nothing is known; else that of the object. But its place
is where the name first comes up, with the object first and the captures before the parameters. So
the type and the place of an entry may stem from different declarations
(`TypeMap.ofCallable_by_precedence`). -/

namespace CallablePurity

/-- The class of the object that a callable works on, where it has one: methods and closures have,
    if they are not static. -/
def Callable.objectType? (thisType : Option String) : Callable → Option String
  | function _ => none
  | method m => if m.isStatic then none else thisType
  | closure k => if k.isStatic then none else thisType

namespace TypeMap

variable (c : Callable) (thisType : Option String)

/-! ## The rule -/

/-- The entry of a name: that of the last parameter of this name, which is an array if it is
    variadic and has its declared type otherwise; or else an unknown type if the name is captured;
    or else the class of the object if the name is `this`. -/
def entryByPrecedence (name : String) : Option (Option String) :=
  match c.params.findRev? (·.name.text = name) with
  | some p =>
    match p.arity with
    | .variadic => some (some "array")
    | .required | .optional _ => some (p.declaredType.map Ident.text)
  | none =>
    if ∃ u ∈ c.captures, u.name.text = name then some none
    else if name = "this" then (c.objectType? thisType).map some
    else none

/-- All names that a callable binds, repeated as they are. -/
def boundNames : List String :=
  (if (c.objectType? thisType).isSome then ["this"] else [])
    ++ c.captures.map (·.name.text) ++ c.params.map (·.name.text)

/-! ## Entries of each kind -/

/-- Of several items with one name the last one gives the value. -/
theorem lookup_reverse_map {α : Type} (name : α → String) (value : α → Option String)
    (items : List α) (k : String) :
    (items.map fun a => (name a, value a)).reverse.lookup k
      = (items.findRev? (name · = k)).map value := by
  rw [← List.map_reverse, List.findRev?_eq_find?_reverse]
  induction items.reverse with
  | nil => rfl
  | cons a rest ih =>
    by_cases hk : k = name a
    · simp [hk]
    · simp [List.lookup_cons, beq_false_of_ne hk, Ne.symm hk, ih]

theorem lookup_params (name : String) :
    (c.params.map fun p => (p.name.text, paramType p)).reverse.lookup name
      = (c.params.findRev? (·.name.text = name)).map paramType :=
  lookup_reverse_map (·.name.text) paramType c.params name

theorem lookup_captures (name : String) :
    (c.captures.map fun u => (u.name.text, (none : Option String))).reverse.lookup name
      = if ∃ u ∈ c.captures, u.name.text = name then some none else none := by
  rw [lookup_reverse_map (fun u : Capture => u.name.text) (fun _ => none),
    List.findRev?_eq_find?_reverse]
  cases hfind : c.captures.reverse.find? (·.name.text = name) with
  | none =>
    have hfree : ¬ ∃ u ∈ c.captures, u.name.text = name := by
      simpa using List.find?_eq_none.1 hfind
    rw [if_neg hfree, Option.map_none]
  | some u =>
    have hmem := List.mem_reverse.1 (List.mem_of_find?_eq_some hfind)
    have hname : u.name.text = name := by simpa using List.find?_some hfind
    rw [if_pos ⟨u, hmem, hname⟩, Option.map_some]

theorem objectType?_eq : c.objectType? thisType = if c.bindsThis then thisType else none := by
  cases c with
  | function f => rfl
  | method m =>
    cases hstatic : m.isStatic <;> simp [Callable.objectType?, Callable.bindsThis, hstatic]
  | closure k =>
    cases hstatic : k.isStatic <;> simp [Callable.objectType?, Callable.bindsThis, hstatic]

theorem lookup_object (name : String) :
    (thisEntries c thisType).lookup name
      = if name = "this" then (c.objectType? thisType).map some else none := by
  rw [lookup_thisEntries, objectType?_eq]
  by_cases hbinds : c.bindsThis = true <;> simp [hbinds]

theorem map_fst_thisEntries :
    (thisEntries c thisType).map Prod.fst
      = if (c.objectType? thisType).isSome then ["this"] else [] := by
  rw [objectType?_eq]
  unfold thisEntries
  cases thisType with
  | none => simp
  | some t => by_cases hbinds : c.bindsThis = true <;> simp [hbinds]

/-! ## The map follows the rule -/

theorem get?_eq_entryByPrecedence (name : String) :
    (ofCallable c thisType).get? name = entryByPrecedence c thisType name := by
  rw [get?_ofCallable, ownEntries, List.reverse_append, List.lookup_append, lookup_params,
    lookup_captures, lookup_object]
  unfold entryByPrecedence
  cases c.params.findRev? (·.name.text = name) with
  | some p => cases harity : p.arity <;> simp [paramType, harity]
  | none =>
    rw [Option.map_none, Option.none_or]
    split <;> rfl

theorem map_fst_callableEntries :
    (callableEntries c thisType).map Prod.fst = boundNames c thisType := by
  simp [callableEntries, boundNames, map_fst_thisEntries, Function.comp_def]

/-- **Which declaration counts.** The entries of a callable always make a type map. In it a name has
    the entry that takes precedence, and the names stand in the order in which they first come up:
    the object first, then the captures, then the parameters, each name once. -/
theorem ofCallable_by_precedence :
    ofList? (callableEntries c thisType) = .ok (ofCallable c thisType)
    ∧ (∀ name, (ofCallable c thisType).get? name = entryByPrecedence c thisType name)
    ∧ (ofCallable c thisType).keys.Nodup
    ∧ (ofCallable c thisType).keys = (boundNames c thisType).eraseDups := by
  refine ⟨?_, get?_eq_entryByPrecedence c thisType, (ofCallable c thisType).entries.nodup, ?_⟩
  · exact dif_pos (callableEntries_named c thisType)
  · show (OrderedMap.ofList (callableEntries c thisType)).keys = _
    rw [OrderedMap.keys_ofList, map_fst_callableEntries]

/-- `function (string $x, int $this, float ...$x) use ($y, $x)` on an object of the class `Cart` -/
example :
    let x : Ident := ⟨"x", by decide⟩
    let y : Ident := ⟨"y", by decide⟩
    let this : Ident := ⟨"this", by decide⟩
    let type (t : String) (h : t ≠ "") : Option Ident := some ⟨t, h⟩
    let c : Closure := {
      params := [⟨x, type "string" (by decide), false, .required⟩,
        ⟨this, type "int" (by decide), false, .required⟩,
        ⟨x, type "float" (by decide), false, .variadic⟩]
      captures := [⟨y, false⟩, ⟨x, false⟩]
      body := []
      byRef := false
      isStatic := false
      returnType := none }
    (ofCallable (.closure c) (some "Cart")).entries.entries
      = [("this", some "int"), ("y", none), ("x", some "array")] := by
  decide

end TypeMap

end CallablePurity
