import CallablePurity.Tree.Fault
import CallablePurity.Tree.Value

set_option autoImplicit false

/-! # The rules of each kind

A node is built from the values offered for its fields. First of all, the fields without a default
must be given; then every kind checks its fields in a fixed order, and the first check that fails is
the fault (`Fields.node`). -/

namespace CallablePurity

/-! ## Reading values -/

namespace Value

def expr? : Value → Option Expr
  | node (.expr e) => some e
  | _ => none

def stmt? : Value → Option Stmt
  | node (.stmt s) => some s
  | _ => none

def node? : Value → Option Node
  | node n => some n
  | _ => none

def param? : Value → Option Param
  | node (.param p) => some p
  | _ => none

def capture? : Value → Option Capture
  | node (.capture c) => some c
  | _ => none

def varName? : Value → Option VarName
  | node (.expr (.var name)) => some name
  | _ => none

def staticVar? : Value → Option StaticVar
  | node (.staticVar v) => some v
  | _ => none

def optionalExpr? : Value → Option (Option Expr)
  | atom (.scalar .null) => some none
  | v => v.expr?.map some

def member? : Value → Option Member
  | atom (.scalar (.text s)) => some (.named s)
  | v => v.expr?.map .computed

def target? : Value → Option Target
  | node (.name n) => some (.named n)
  | v => v.expr?.map .computed

def instantiated? : Value → Option Instantiated
  | node (.name n) => some (.named n)
  | node (.stmt (.classDecl c)) => some (.declared c)
  | v => v.expr?.map .computed

def binaryOperator? : Value → Option BinaryOperator
  | atom (.binary op) => some op
  | _ => none

def unaryOperator? : Value → Option UnaryOperator
  | atom (.unary op) => some op
  | _ => none

def castKind? : Value → Option CastKind
  | atom (.cast kind) => some kind
  | _ => none

def flag? : Value → Option Bool
  | atom (.scalar (.bool b)) => some b
  | _ => none

def scalar? : Value → Option Scalar
  | atom (.scalar s) => some s
  | _ => none

def optionalText? : Value → Option (Option String)
  | atom (.scalar .null) => some none
  | atom (.scalar (.text s)) => some (some s)
  | _ => none

/-- The value counts as empty where a name is expected. -/
def isEmpty : Value → Bool
  | atom (.scalar .null) => true
  | atom (.scalar (.bool b)) => !b
  | atom (.scalar (.int i)) => i = 0
  | atom (.scalar (.float x)) => x == 0
  | atom (.scalar (.text s)) => s = ""
  | tuple items => items.isEmpty
  | list items => items.isEmpty
  | _ => false

end Value

/-! ## Reading fields -/

/-- The fields offered for a node of some kind. -/
structure Fields where
  kind : Kind
  values : List (String × Value)

namespace Fields

/-- The fields without a default that are left out. -/
def missing (f : Fields) : List String :=
  f.kind.required.filter fun field => (f.values.lookup field).isNone

/-- The value of a field, or the one it takes when it is left out. Fields without a default are read
    after it is known that they are given. -/
def value (f : Fields) (field : String) (default : Value) : Value :=
  (f.values.lookup field).getD default

/-- Reads a value that a field accepts. -/
def accept {α : Type} (f : Fields) (field : String) (slot : Slot) (read : Value → Option α)
    (v : Value) : Except NodeFault α :=
  match read v with
  | some a => .ok a
  | none => .error (.wrongType f.kind field slot v.typeName)

def one {α : Type} (f : Fields) (field : String) (slot : Slot) (read : Value → Option α) :
    Except NodeFault α :=
  f.accept field slot read (f.value field .null)

/-- Reads a field that holds a tuple; left out, it is the empty one. -/
def many {α : Type} (f : Fields) (field : String) (slot : Slot) (read : Value → Option α) :
    Except NodeFault (List α) :=
  match f.value field (.tuple []) with
  | .tuple items => items.mapM (f.accept field slot read)
  | v => .error (.wrongType f.kind field .tuple v.typeName)

def expr (f : Fields) (field : String) : Except NodeFault Expr :=
  f.one field .expr Value.expr?

def optionalExpr (f : Fields) (field : String) : Except NodeFault (Option Expr) :=
  f.one field .exprOrNone Value.optionalExpr?

def exprs (f : Fields) (field : String) : Except NodeFault (List Expr) :=
  f.many field .expr Value.expr?

def stmts (f : Fields) (field : String) : Except NodeFault (List Stmt) :=
  f.many field .stmt Value.stmt?

def params (f : Fields) : Except NodeFault (List Param) :=
  f.many "params" .param Value.param?

def member (f : Fields) : Except NodeFault Member :=
  f.one "name" .textOrExpr Value.member?

def parts (f : Fields) : Except NodeFault (List Node) :=
  f.many "children" .node Value.node?

/-- Reads a flag; left out, it is not set. -/
def flag (f : Fields) (field : String) : Except NodeFault Bool :=
  f.accept field .flag Value.flag? (f.value field (.atom (.scalar (.bool false))))

def optionalText (f : Fields) (field : String) : Except NodeFault (Option String) :=
  f.one field .textOrNone Value.optionalText?

/-- Reads a name that must not be empty. -/
def name (f : Fields) (field : String) (role : NameRole) : Except NodeFault Ident :=
  let v := f.value field .null
  match v with
  | .atom (.scalar (.text s)) =>
    match Ident.ofText? s with
    | some i => .ok i
    | none => .error (.emptyName role)
  | _ =>
    if v.isEmpty then .error (.emptyName role)
    else .error (.wrongType f.kind field .text v.typeName)

/-- Reads a name that may be left out but must not be empty. -/
def optionalName (f : Fields) (field : String) (role : NameRole) :
    Except NodeFault (Option Ident) :=
  match f.value field .null with
  | .atom (.scalar .null) => .ok none
  | _ => (f.name field role).map some

/-! ## The rules of each kind -/

def varName (f : Fields) : Except NodeFault VarName := do
  match ← f.one "name" .textOrExpr Value.member? with
  | .computed e => return .computed e
  | .named s =>
    match Ident.ofText? s with
    | some i => return .named i
    | none => throw (.emptyName .var)

def compoundOperator (f : Fields) : Except NodeFault CompoundOperator := do
  let op ← f.one "op" .binaryOperator Value.binaryOperator?
  if h : op.isCompound = true then return ⟨op, h⟩ else throw (.notCompound op)

def arity (f : Fields) : Except NodeFault Arity := do
  let isVariadic ← f.flag "variadic"
  match isVariadic, ← f.optionalExpr "default" with
  | true, some _ => throw .variadicDefault
  | true, none => return .variadic
  | false, some e => return .optional e
  | false, none => return .required

def param (f : Fields) : Except NodeFault Param := do
  let name ← f.name "name" .param
  let declaredType ← f.optionalName "declared_type" .declaredType
  let arity ← f.arity
  return { name, declaredType, byRef := ← f.flag "by_ref", arity }

def closure (f : Fields) : Except NodeFault Closure := do
  let params ← f.params
  let captures ← f.many "uses" .capture Value.capture?
  let body ← f.stmts "stmts"
  return { params, captures, body, byRef := ← f.flag "by_ref", isStatic := ← f.flag "is_static",
           returnType := ← f.optionalText "return_type" }

def function (f : Fields) : Except NodeFault FunctionDecl := do
  let name ← f.name "name" .function
  let params ← f.params
  let body ← f.stmts "stmts"
  return { name, params, body, byRef := ← f.flag "by_ref",
           returnType := ← f.optionalText "return_type" }

def method (f : Fields) : Except NodeFault MethodDecl := do
  let name ← f.name "name" .method
  let params ← f.params
  let body ← f.stmts "stmts"
  return { name, params, body, byRef := ← f.flag "by_ref", isStatic := ← f.flag "is_static",
           returnType := ← f.optionalText "return_type" }

def classDecl (f : Fields) : Except NodeFault ClassDecl := do
  let name ← f.optionalName "name" .classDecl
  return { name, body := ← f.stmts "stmts" }

/-- Checks the fields of a node in the order of its kind's checks. -/
def checked (f : Fields) : Except NodeFault Node :=
  match f.kind with
  | .node => return .bare
  | .expr => return .expr .bare
  | .stmt => return .stmt .bare
  | .name => return .name (← f.name "value" .name)
  | .param => return .param (← f.param)
  | .capture => return .capture ⟨← f.name "name" .capture, ← f.flag "by_ref"⟩
  | .staticVar => return .staticVar ⟨← f.name "name" .staticVar, ← f.optionalExpr "default"⟩
  | .var => return .expr (.var (← f.varName))
  | .literal => return .expr (.literal (← f.one "value" .scalar Value.scalar?))
  | .array => return .expr (.array (← f.exprs "items"))
  | .assign => return .expr (.assign (← f.expr "var") (← f.expr "expr"))
  | .assignOp => return .expr (.assignOp (← f.compoundOperator) (← f.expr "var") (← f.expr "expr"))
  | .binary =>
    return .expr (.binary (← f.one "op" .binaryOperator Value.binaryOperator?) (← f.expr "left")
      (← f.expr "right"))
  | .unary =>
    return .expr (.unary (← f.one "op" .unaryOperator Value.unaryOperator?) (← f.expr "expr"))
  | .cast => return .expr (.cast (← f.one "kind" .castKind Value.castKind?) (← f.expr "expr"))
  | .index => return .expr (.index (← f.expr "var") (← f.optionalExpr "dim"))
  | .property => return .expr (.property (← f.expr "var") (← f.member))
  | .call =>
    return .expr (.call (← f.one "name" .nameOrExpr Value.target?) (← f.exprs "args"))
  | .methodCall =>
    return .expr (.methodCall (← f.expr "var") (← f.member) (← f.exprs "args"))
  | .staticCall =>
    return .expr (.staticCall (← f.one "class_" .nameOrExpr Value.target?) (← f.member)
      (← f.exprs "args"))
  | .closure => return .expr (.closure (← f.closure))
  | .new =>
    return .expr (.new (← f.one "class_" .nameExprOrClass Value.instantiated?) (← f.exprs "args"))
  | .otherExpr => return .expr (.other (← f.name "kind" .exprKind) (← f.parts))
  | .expression => return .stmt (.expression (← f.expr "expr"))
  | .ret => return .stmt (.ret (← f.optionalExpr "expr"))
  | .global => return .stmt (.global (← f.many "vars" .var Value.varName?))
  | .static => return .stmt (.static (← f.many "vars" .staticVar Value.staticVar?))
  | .branch =>
    return .stmt (.branch (← f.expr "cond") (← f.stmts "stmts") (← f.stmts "else_stmts"))
  | .otherStmt => return .stmt (.other (← f.name "kind" .stmtKind) (← f.parts))
  | .function => return .stmt (.function (← f.function))
  | .method => return .stmt (.method (← f.method))
  | .classDecl => return .stmt (.classDecl (← f.classDecl))

/-- Makes a node of the fields, if none is missing and all checks are passed. -/
def node (f : Fields) : Except NodeFault Node :=
  match f.missing with
  | [] => f.checked
  | missing => .error (.missing f.kind missing)

end Fields

end CallablePurity
