import CallablePurity.Tree.Content

set_option autoImplicit false

/-! # Callables

The definitions whose purity is judged: functions, methods and closures. -/

namespace CallablePurity

inductive Callable where
  | function (decl : FunctionDecl)
  | method (decl : MethodDecl)
  | closure (decl : Closure)

namespace Callable

def ofNode? : Node → Option Callable
  | .stmt (.function f) => some (function f)
  | .stmt (.method m) => some (method m)
  | .expr (.closure c) => some (closure c)
  | _ => none

def params : Callable → List Param
  | function f => f.params
  | method m => m.params
  | closure c => c.params

/-- The variables that a closure takes along; the others take none. -/
def captures : Callable → List Capture
  | closure c => c.captures
  | _ => []

/-- The statements of the body, as nodes. -/
def body : Callable → List Node
  | function f => f.body.map .stmt
  | method m => m.body.map .stmt
  | closure c => c.body.map .stmt

/-- The callable returns by reference. -/
def byRef : Callable → Bool
  | function f => f.byRef
  | method m => m.byRef
  | closure c => c.byRef

/-- The callable has an object to work on: methods and closures that are not static. -/
def bindsThis : Callable → Bool
  | function _ => false
  | method m => !m.isStatic
  | closure c => !c.isStatic

end Callable

/-! ## Bindings by reference -/

/-- A binding through which a callable shares storage with its caller. -/
inductive ByRefBinding where
  | result
  | param (name : Ident)
  | capture (name : Ident)
deriving DecidableEq

def ByRefBinding.text : ByRefBinding → String
  | result => "returns by reference"
  | param name => "by-reference parameter $" ++ name.text
  | capture name => "by-reference capture $" ++ name.text

/-- All bindings by reference: the result, then parameters, then captures. -/
def Callable.byRefBindings (c : Callable) : List ByRefBinding :=
  (if c.byRef then [.result] else [])
    ++ (c.params.filter Param.byRef).map (fun p => .param p.name)
    ++ (c.captures.filter Capture.byRef).map (fun u => .capture u.name)

end CallablePurity
