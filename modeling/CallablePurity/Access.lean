import CallablePurity.Tree.Label
import CallablePurity.Tree.Value

set_option autoImplicit false

/-! # Accesses to variables

An access is a variable, or one variable of a `static` declaration, together with the operations
around it. What an access may do is decided by its name, the type of the variable and the nearest
operations. -/

namespace CallablePurity

/-- What is accessed. -/
inductive Subject where
  | var (name : VarName)
  | static (var : StaticVar)

namespace Subject

def node : Subject → Node
  | var name => .expr (.var name)
  | static v => .staticVar v

/-- The node as the subject of an access; only variables are. -/
def ofNode? : Node → Option Subject
  | .expr (.var name) => some (var name)
  | .staticVar v => some (static v)
  | _ => none

/-- The name of the variable, unless it is computed. -/
def name? : Subject → Option Ident
  | var (.named n) => some n
  | var (.computed _) => none
  | static v => some v.name

end Subject

/-- A variable with the operations around it, from the outermost to the nearest. -/
structure Access where
  subject : Subject
  operations : List Node

namespace Access

def name? (a : Access) : Option Ident :=
  a.subject.name?

/-- The operation closest to the variable. -/
def nearest? (a : Access) : Option Node :=
  a.operations.getLast?

/-- The access declares a variable that outlives the call: a global or a static one. -/
def declaresPersistentState (a : Access) : Bool :=
  match a.subject with
  | .static _ => true
  | .var _ =>
    match a.nearest? with
    | some (.stmt (.global _)) | some (.stmt (.static _)) => true
    | _ => false

/-- The name of an operation in a description. -/
def operationText : Node → String
  | .expr (.other kind _) => kind.text
  | .stmt (.other kind _) => kind.text
  | n => n.kind.text

def describe (a : Access) : String :=
  let subject := match a.name? with
    | some n => "$" ++ n.text
    | none => "$<dynamic>"
  match a.nearest? with
  | none => subject ++ " (bare reference)"
  | some operation => subject ++ " in " ++ operationText operation

end Access

/-! ## Accesses from unchecked values -/

/-- Why values do not make an access; each names the type that was offered. -/
inductive AccessFault where
  | subject (got : String)
  | notTuple (got : String)
  | notNode (got : String)
  | notVariable (got : String)
  | notStaticVariable (got : String)

def AccessFault.message : AccessFault → String
  | subject got => wording "subject must be Variable or StaticVar" got
  | notTuple got => wording "operations must be a tuple" got
  | notNode got => wording "operations must be nodes" got
  | notVariable got => wording "expected Variable" got
  | notStaticVariable got => wording "expected StaticVar" got
where
  wording (reason got : String) : String :=
    "invalid variable access: " ++ reason ++ ", got " ++ got

/-- The value as the subject of an access. -/
def Value.subject? : Value → Option Subject
  | node n => Subject.ofNode? n
  | _ => none

namespace Access

/-- The operations of an access must be nodes. -/
def operationsOf (values : List Value) : Except AccessFault (List Node) :=
  values.mapM fun
    | .node n => .ok n
    | v => .error (.notNode v.typeName)

/-- An access from a subject and a tuple of operations. -/
def ofValues (subject operations : Value) : Except AccessFault Access :=
  match subject.subject? with
  | none => .error (.subject subject.typeName)
  | some found =>
    match operations with
    | .tuple values => (operationsOf values).map (⟨found, ·⟩)
    | v => .error (.notTuple v.typeName)

/-- An access through a variable. -/
def ofVariable (subject : Value) (operations : List Value) : Except AccessFault Access :=
  match subject with
  | .node (.expr (.var name)) => (operationsOf operations).map (⟨.var name, ·⟩)
  | v => .error (.notVariable v.typeName)

/-- An access through one variable of a `static` declaration. -/
def ofStaticVariable (subject : Value) (operations : List Value) : Except AccessFault Access :=
  match subject with
  | .node (.staticVar v) => (operationsOf operations).map (⟨.static v, ·⟩)
  | v => .error (.notStaticVariable v.typeName)

end Access

end CallablePurity
