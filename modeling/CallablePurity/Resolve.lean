import CallablePurity.Config
import CallablePurity.Reference
import CallablePurity.TypeMap

set_option autoImplicit false

/-! # Resolving calls

The target of a call is resolved where it is certain without running anything: a function called by
name, a variable known to hold a function's name, a method of a class given by name, and a method of
a variable whose declared type is a single class. All other calls have no known target. -/

namespace CallablePurity.Resolve

/-- Class names that depend on the class they are written in. -/
def relativeClasses : List String :=
  ["self", "parent", "static"]

/-- Declared types that name no particular class. -/
def classlessTypes : List String :=
  ["mixed", "object", "callable", "iterable", "void", "null"] ++ relativeClasses

/-- The one class that a declared type names. -/
def classOf? (config : Config) (declared : Option String) : Option String :=
  match declared with
  | none => none
  | some t =>
    if config.isScalarLike (some t) then none
    else
      let name := DeclaredType.core t
      if name.contains '|' || classlessTypes.contains (Text.lowercase (String.ofList name)) then none
      else some (String.ofList name)

/-- The target of a call, if it is certain. -/
def target? (config : Config) (types : TypeMap) (values : OrderedMap String String) :
    Node → Except ReferenceFault (Option Reference)
  | .expr (.call (.named f) _) => .ok (some ⟨f, none⟩)
  | .expr (.call (.computed (.var (.named v))) _) =>
    .ok (((values.get? v.text).bind Ident.ofText?).map (⟨·, none⟩))
  | .expr (.staticCall (.named c) (.named method) _) =>
    if relativeClasses.contains (Text.lowercase c.text) then .ok none
    else (Reference.ofNames method (some c.text)).map some
  | .expr (.methodCall (.var (.named receiver)) (.named method) _) =>
    match classOf? config (types.typeOf receiver.text) with
    | none => .ok none
    | some c => (Reference.ofNames method (some c)).map some
  | _ => .ok none

end CallablePurity.Resolve
