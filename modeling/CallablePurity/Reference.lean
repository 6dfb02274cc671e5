import CallablePurity.Tree.Node
import CallablePurity.Text.Blank
import CallablePurity.Text.Lowercase

set_option autoImplicit false

/-! # References to callables

A reference names the target of a call: a function, or a method of a class. Two spellings name the
same callable when their keys agree; PHP ignores case in these names, and a leading backslash only
marks a name as fully qualified. -/

namespace CallablePurity

structure Reference where
  function : Ident
  cls : Option Ident
deriving DecidableEq

/-- Why names make no reference. -/
inductive ReferenceFault where
  | emptyFunction
  | emptyClass
deriving DecidableEq

def ReferenceFault.message : ReferenceFault → String
  | emptyFunction => "function_name must not be empty"
  | emptyClass => "class_name must be non-empty string or None"

namespace Reference

/-- Refuses empty names, the function's first. -/
def ofNames (function : String) (cls : Option String) : Except ReferenceFault Reference :=
  match Ident.ofText? function with
  | none => .error .emptyFunction
  | some f =>
    match cls with
    | none => .ok ⟨f, none⟩
    | some c =>
      match Ident.ofText? c with
      | none => .error .emptyClass
      | some c => .ok ⟨f, some c⟩

def isMethod (r : Reference) : Bool :=
  r.cls.isSome

/-- The qualified name: `Class::method`, or the name of the function alone. -/
def name (r : Reference) : String :=
  match r.cls with
  | none => r.function.text
  | some c => c.text ++ "::" ++ r.function.text

/-- The key of a qualified name, the same for all its spellings. -/
def keyOf (qualifiedName : String) : String :=
  Text.lowercase (Text.unqualify qualifiedName)

def key (r : Reference) : String :=
  keyOf r.name

end Reference

end CallablePurity
