import CallablePurity.DeclaredType
import CallablePurity.Text.Quoted

set_option autoImplicit false

/-! # Configuration

What the analysis takes for granted: which declared types are plain values and which are plain
collections, which variables belong to the whole process, which functions are pure, and how deep
calls are followed. `Settings` are what a user asks for; a `Config` is settings that make sense. -/

namespace CallablePurity

/-! ## Settings -/

/-- The knobs of the analysis; the names are used as sets. -/
structure Settings where
  /-- Types whose values run no foreign code when they are converted or indexed. -/
  scalarTypes : List String :=
    ["int", "float", "string", "bool", "integer", "double", "boolean"]
  collectionTypes : List String := ["array"]
  superglobals : List String :=
    ["GLOBALS", "_SERVER", "_GET", "_POST", "_FILES", "_COOKIE", "_SESSION", "_REQUEST", "_ENV"]
  /-- Functions taken to be pure without looking at them. -/
  knownPureFunctions : List String :=
    ["abs", "ceil", "floor", "round", "intdiv", "max", "min", "pow", "sqrt",
     "strlen", "strtolower", "strtoupper", "ucfirst", "lcfirst", "trim", "ltrim", "rtrim",
     "substr", "str_repeat", "str_pad", "sprintf", "implode", "explode",
     "count", "array_keys", "array_values", "array_merge", "array_slice", "array_key_exists",
     "in_array",
     "is_int", "is_float", "is_string", "is_bool", "is_array", "is_null",
     "intval", "floatval", "strval", "boolval"]
  /-- How many calls deep the analysis follows calls. -/
  maxCallDepth : Int := 8

/-- Names in lower case. -/
def lowered (names : List String) : List String :=
  names.map Text.lowercase

/-- The types that are both scalar and collection types, up to case. -/
def Settings.overlap (s : Settings) : List String :=
  (lowered s.scalarTypes).filter ((lowered s.collectionTypes).contains ·)

/-! ## Faults -/

/-- Why settings make no sense. -/
inductive ConfigFault where
  | noScalarTypes
  | noGlobals
  | overlap (types : List String)
  | callDepth (got : Int)

def ConfigFault.message : ConfigFault → String
  | noScalarTypes => "scalar_types must not be empty"
  | noGlobals => "superglobals must contain GLOBALS"
  | overlap types =>
    let sorted := types.eraseDups.mergeSort fun a b => a ≤ b
    "types cannot be both scalar and collection: " ++ Text.quotedList sorted
  | callDepth got => "max_call_depth must be >= 1, got " ++ toString got

/-! ## Valid configurations -/

structure Config extends Settings where
  scalarTypes_ne_nil : scalarTypes ≠ []
  globals_mem : "GLOBALS" ∈ superglobals
  overlap_eq_nil : toSettings.overlap = []
  one_le_maxCallDepth : 1 ≤ maxCallDepth

namespace Config

/-- Accepts settings that make sense; otherwise tells the first thing that is wrong. -/
def ofSettings (s : Settings) : Except ConfigFault Config :=
  if h₁ : s.scalarTypes = [] then .error .noScalarTypes
  else if h₂ : "GLOBALS" ∈ s.superglobals then
    if h₃ : s.overlap = [] then
      if h₄ : 1 ≤ s.maxCallDepth then .ok ⟨s, h₁, h₂, h₃, h₄⟩
      else .error (.callDepth s.maxCallDepth)
    else .error (.overlap s.overlap)
  else .error .noGlobals

/-- The configuration without any wishes of the user. -/
def standard : Config where
  scalarTypes_ne_nil := by decide
  globals_mem := by decide
  overlap_eq_nil := by decide +kernel
  one_le_maxCallDepth := by decide

/-- How many calls deep the analysis follows calls, as a count. -/
def callBudget (c : Config) : Nat :=
  c.maxCallDepth.toNat

theorem coe_callBudget (c : Config) : (c.callBudget : Int) = c.maxCallDepth := by
  have hone := c.one_le_maxCallDepth
  unfold callBudget
  omega

/-! ## Questions -/

def scalarNames (c : Config) : List String :=
  lowered c.scalarTypes

def collectionNames (c : Config) : List String :=
  lowered c.collectionTypes

/-- Every member of the type is a scalar type. -/
def isScalar (c : Config) (declared : Option String) : Bool :=
  DeclaredType.consistsOf c.scalarNames declared

/-- Every member of the type is a collection type. -/
def isCollection (c : Config) (declared : Option String) : Bool :=
  DeclaredType.consistsOf c.collectionNames declared

/-- Every member of the type is a scalar or a collection type. -/
def isScalarLike (c : Config) (declared : Option String) : Bool :=
  DeclaredType.consistsOf (c.scalarNames ++ c.collectionNames) declared

/-- The variable belongs to the whole process; case matters. -/
def isSuperglobal (c : Config) (name : String) : Bool :=
  c.superglobals.contains name

/-- The function is taken to be pure, whatever its case and however it is qualified. -/
def isKnownPure (c : Config) (function : String) : Bool :=
  (lowered c.knownPureFunctions).contains (Text.lowercase (Text.unqualify function))

end Config

end CallablePurity
