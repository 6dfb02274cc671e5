import CallablePurity.OrderedMap
import CallablePurity.Walk.Gate

set_option autoImplicit false

/-! # Variables that hold a known text

A variable of a body holds a known text when a single top-level statement assigns a string literal
to it before anything reads it, and nothing else can write it. Whatever might write a variable
*spoils* it: another assignment, being an argument or a part of a construct of unknown meaning, a
capture by reference, a global or static declaration. A variable with a computed name might be any
variable, so that nothing is known where one occurs. -/

namespace CallablePurity

/-- What has been seen of a body so far. -/
structure LiteralWatch where
  /-- The literals assigned to each variable. -/
  assigned : OrderedMap String (List String)
  spoiled : List String
  hasComputedName : Bool
  /-- The expressions that are statements of the body itself. -/
  topLevel : List NodeId
  /-- The variable about to be entered as the target of its assignment. -/
  writeTarget : Option NodeId

/-- The variable that a write to the expression changes: an element belongs to its array. -/
def Expr.writtenName? : Expr → Option String
  | .var (.named n) => some n.text
  | .index base _ => base.writtenName?
  | _ => none

def Node.writtenName? : Node → Option String
  | .expr e => e.writtenName?
  | _ => none

namespace LiteralWatch

def start (bound : List String) : LiteralWatch :=
  { assigned := .empty, spoiled := bound, hasComputedName := false, topLevel := [],
    writeTarget := none }

def spoil (w : LiteralWatch) (names : List String) : LiteralWatch :=
  { w with spoiled := w.spoiled ++ names }

/-- Notes that a literal is assigned to a variable by the node at a place. -/
def assign (w : LiteralWatch) (place : Occurrence) (name value : String) : LiteralWatch :=
  { w with
    assigned := w.assigned.insert name ((w.assigned.get? name).getD [] ++ [value])
    spoiled := if w.topLevel.contains place.id then w.spoiled else w.spoiled ++ [name]
    writeTarget := place.parts.head?.map Occurrence.id }

/-- Notes that a variable is met: as the target of its assignment, or to be read. -/
def meet (w : LiteralWatch) (place : Occurrence) (name : String) : LiteralWatch :=
  if w.writeTarget = some place.id then { w with writeTarget := none }
  else if w.assigned.contains name then w
  else w.spoil [name]

/-- What entering a node means for the variables. -/
def enter (w : LiteralWatch) (place : Occurrence) : LiteralWatch :=
  match place.node with
  | .expr (.assign (.var (.named n)) (.literal (.text value))) => w.assign place n.text value
  | .expr (.assign target _) | .expr (.assignOp _ target _) => w.spoil target.writtenName?.toList
  | .expr (.call _ args) | .expr (.methodCall _ _ args) | .expr (.staticCall _ _ args)
  | .expr (.new _ args) => w.spoil (args.filterMap Expr.writtenName?)
  | .expr (.other _ parts) | .stmt (.other _ parts) => w.spoil (parts.filterMap Node.writtenName?)
  | .expr (.closure c) => w.spoil ((c.captures.filter Capture.byRef).map (·.name.text))
  | .stmt (.global vars) => w.spoil (vars.filterMap fun v => (Expr.var v).writtenName?)
  | .stmt (.static vars) => w.spoil (vars.map (·.name.text))
  | .expr (.var (.named n)) => w.meet place n.text
  | .expr (.var (.computed _)) => { w with hasComputedName := true }
  | _ => w

/-- The expressions of the statements that consist of one expression. -/
def topLevelOf (roots : List Occurrence) : List NodeId :=
  roots.flatMap fun o =>
    match o.node with
    | .stmt (.expression _) => o.parts.map Occurrence.id
    | _ => []

def react (bound : List String) (w : LiteralWatch) : Event → LiteralWatch
  | .before roots => { start bound with topLevel := topLevelOf roots }
  | .enter o => w.enter o
  | .leave _ => w
  | .after _ => w

/-- The variables with exactly one literal that nothing spoils. -/
def bindings (w : LiteralWatch) : OrderedMap String String :=
  if w.hasComputedName then .empty
  else
    w.assigned.filterMap fun name values =>
      match values with
      | [value] => if w.spoiled.contains name then none else some value
      | _ => none

end LiteralWatch

/-- The known texts of variables after a walk over places; `bound` variables hold a value that the
    caller supplies and are never known. -/
def literalBindingsAt (roots : List Occurrence) (bound : List String) : OrderedMap String String :=
  ((scopeWalk roots).foldl (LiteralWatch.react bound) (.start bound)).bindings

/-- The known texts of variables in a body, in order of their assignments. -/
def literalBindings (body : List Node) (bound : List String) : OrderedMap String String :=
  literalBindingsAt (Occurrence.forest body) bound

end CallablePurity
