import CallablePurity.Callable
import CallablePurity.OrderedMap
import CallablePurity.Text.Quoted

set_option autoImplicit false

/-! # Declared types of variables

A type map gives the declared types of the variables that are bound when a body starts to run. An
entry without a type, like a missing entry, means that nothing is known of the variable. -/

namespace CallablePurity

/-- Types by variable name, in order of first arrival; no name is empty. -/
structure TypeMap where
  entries : OrderedMap String (Option String)
  named : ∀ name ∈ entries.keys, name ≠ ""

/-- Why there is no type map, or no entry in it. -/
inductive TypeMapFault where
  | emptyName
  | missing (name : String)

def TypeMapFault.message : TypeMapFault → String
  | emptyName => "variable name must not be empty"
  | missing name => Text.quoted name

namespace TypeMap

/-- The entry of a name: a known or an unknown type. -/
def get? (m : TypeMap) (name : String) : Option (Option String) :=
  m.entries.get? name

/-- The entry of a name that must have one. -/
def entry (m : TypeMap) (name : String) : Except TypeMapFault (Option String) :=
  match m.get? name with
  | some t => .ok t
  | none => .error (.missing name)

/-- The declared type of a variable, if one is known. -/
def typeOf (m : TypeMap) (name : String) : Option String :=
  (m.get? name).join

def keys (m : TypeMap) : List String :=
  m.entries.keys

/-- A later entry of a name replaces the type of an earlier one. -/
def ofList (entries : List (String × Option String)) (h : ∀ e ∈ entries, e.1 ≠ "") : TypeMap where
  entries := .ofList entries
  named := by
    intro name hname
    rw [OrderedMap.mem_keys_ofList, List.mem_map] at hname
    obtain ⟨e, he, rfl⟩ := hname
    exact h e he

/-- Refuses entries with an empty name. -/
def ofList? (entries : List (String × Option String)) : Except TypeMapFault TypeMap :=
  if h : ∀ e ∈ entries, e.1 ≠ "" then .ok (ofList entries h) else .error .emptyName

def empty : TypeMap :=
  ofList [] (by simp)

/-! ## The types that a callable declares -/

/-- The declared type of a parameter; one that takes many arguments holds them in an array. -/
def paramType (p : Param) : Option String :=
  match p.arity with
  | .variadic => some "array"
  | _ => p.declaredType.map Ident.text

/-- The entry of the object that a callable works on, where it has one of a known class. -/
def thisEntries (c : Callable) (thisType : Option String) : List (String × Option String) :=
  match thisType with
  | some t => if c.bindsThis then [("this", some t)] else []
  | none => []

/-- What is bound when the body of a callable starts to run, in order: the object, the captures,
    the parameters. -/
def callableEntries (c : Callable) (thisType : Option String) : List (String × Option String) :=
  thisEntries c thisType
    ++ c.captures.map (fun u => (u.name.text, none))
    ++ c.params.map (fun p => (p.name.text, paramType p))

theorem callableEntries_named (c : Callable) (thisType : Option String) :
    ∀ e ∈ callableEntries c thisType, e.1 ≠ "" := by
  intro e he
  simp only [callableEntries, List.mem_append, List.mem_map] at he
  rcases he with (he | ⟨u, _, rfl⟩) | ⟨p, _, rfl⟩
  · unfold thisEntries at he
    split at he
    · split at he
      · rw [List.mem_singleton] at he
        simp [he]
      · simp at he
    · simp at he
  · exact u.name.nonempty
  · exact p.name.nonempty

/-- The types that a callable declares; parameters take precedence over captures. -/
def ofCallable (c : Callable) (thisType : Option String) : TypeMap :=
  ofList (callableEntries c thisType) (callableEntries_named c thisType)

end TypeMap

end CallablePurity
