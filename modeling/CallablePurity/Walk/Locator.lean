import CallablePurity.Access
import CallablePurity.Walk.Watch

set_option autoImplicit false

/-! # Locators

Watchers that find something in the outermost scope of a body: the accesses to variables, the
return statements, the calls. A locator starts afresh whenever a walk begins, so that one locator
serves many walks. -/

namespace CallablePurity

/-! ## Accesses -/

/-- Why a locator fails. -/
inductive WalkFault where
  /-- A node is left while none is entered. -/
  | nothingToLeave
deriving DecidableEq

def WalkFault.message : WalkFault → String
  | nothingToLeave => "pop from empty list"

/-- The nodes entered and not yet left, innermost first, and the accesses found so far. -/
structure AccessLocator where
  ancestors : List Node
  accesses : List Access

namespace AccessLocator

def start : AccessLocator := ⟨[], []⟩

/-- An expression used as a statement does nothing to the variables in it. -/
def isOperation : Node → Bool
  | .stmt (.expression _) => false
  | _ => true

/-- The operations around the current place, from the outermost to the nearest. -/
def operations (l : AccessLocator) : List Node :=
  (l.ancestors.filter isOperation).reverse

def react (l : AccessLocator) : Event → Except WalkFault AccessLocator
  | .before _ => .ok start
  | .enter o =>
    let found := (Subject.ofNode? o.node).toList.map fun subject => ⟨subject, l.operations⟩
    .ok ⟨o.node :: l.ancestors, l.accesses ++ found⟩
  | .leave _ =>
    match l.ancestors with
    | [] => .error .nothingToLeave
    | _ :: rest => .ok ⟨rest, l.accesses⟩
  | .after _ => .ok l

end AccessLocator

/-- All accesses to variables in the outermost scope of a body, in source order. -/
def locateAccesses (body : List Node) : Except WalkFault (List Access) := do
  let l ← (scopeWalk (Occurrence.forest body)).foldlM AccessLocator.react .start
  return l.accesses

/-! ## Nodes of some sort -/

/-- Collects the nodes of one sort as they are entered. -/
def collect (wanted : Node → Bool) (found : List Node) : Event → List Node
  | .before _ => []
  | .enter o => if wanted o.node then found ++ [o.node] else found
  | .leave _ => found
  | .after _ => found

/-- All nodes of one sort in the outermost scope of a body, in source order. -/
def locate (wanted : Node → Bool) (body : List Node) : List Node :=
  (scopeWalk (Occurrence.forest body)).foldl (collect wanted) []

def Node.isReturn : Node → Bool
  | .stmt (.ret _) => true
  | _ => false

/-- The node calls a function or a method; making an object does not count. -/
def Node.isCall : Node → Bool
  | .expr (.call _ _) | .expr (.methodCall _ _ _) | .expr (.staticCall _ _ _) => true
  | _ => false

def locateReturns (body : List Node) : List Node :=
  locate Node.isReturn body

def locateCalls (body : List Node) : List Node :=
  locate Node.isCall body

end CallablePurity
