import CallablePurity.Tree.Operator
import CallablePurity.Tree.Scalar

set_option autoImplicit false

/-! # Trees of PHP code

The part of PHP that a callable's body is made of. The types admit well-formed trees only: an
identifier is never empty, a compound assignment has an operator with a compound form, a variadic
parameter has no default, and each position holds what may stand there. Constructs without a form
of their own are `other` expressions or statements, of which only the direct parts are known. -/

namespace CallablePurity

/-- A non-empty text. -/
structure Ident where
  text : String
  nonempty : text ≠ ""
deriving DecidableEq

namespace Ident

def ofText? (s : String) : Option Ident :=
  if h : s = "" then none else some ⟨s, h⟩

@[simp] theorem ofText?_text (i : Ident) : ofText? i.text = some i := by
  simp [ofText?, i.nonempty]

end Ident

/-- A variable captured by a closure: `use ($name)` or `use (&$name)`. -/
structure Capture where
  name : Ident
  byRef : Bool
deriving DecidableEq

mutual

/-- What names a variable: `$name`, or `$$expr` when the name is computed. -/
inductive VarName where
  | named (name : Ident)
  | computed (name : Expr)

/-- The member after `->` or `::`; a written member name may be empty. -/
inductive Member where
  | named (name : String)
  | computed (name : Expr)

/-- A function or class, by name or as the value of an expression. -/
inductive Target where
  | named (name : Ident)
  | computed (value : Expr)

/-- The class after `new`. -/
inductive Instantiated where
  | named (name : Ident)
  | computed (value : Expr)
  | declared (decl : ClassDecl)

/-- How many arguments a parameter stands for. -/
inductive Arity where
  | required
  | optional (default : Expr)
  | variadic

structure Param where
  name : Ident
  declaredType : Option Ident
  byRef : Bool
  arity : Arity

/-- One variable of a `static` declaration. -/
structure StaticVar where
  name : Ident
  default : Option Expr

/-- `function (params) use (captures) { body }`. -/
structure Closure where
  params : List Param
  captures : List Capture
  body : List Stmt
  byRef : Bool
  isStatic : Bool
  returnType : Option String

/-- `function name(params) { body }`. -/
structure FunctionDecl where
  name : Ident
  params : List Param
  body : List Stmt
  byRef : Bool
  returnType : Option String

/-- A method in the body of a class. -/
structure MethodDecl where
  name : Ident
  params : List Param
  body : List Stmt
  byRef : Bool
  isStatic : Bool
  returnType : Option String

/-- A class; it has no name when it stands after `new`. -/
structure ClassDecl where
  name : Option Ident
  body : List Stmt

inductive Expr where
  /-- An expression of which nothing is known. -/
  | bare
  | var (name : VarName)
  | literal (value : Scalar)
  | array (items : List Expr)
  | assign (target value : Expr)
  | assignOp (op : CompoundOperator) (target value : Expr)
  | binary (op : BinaryOperator) (left right : Expr)
  | unary (op : UnaryOperator) (operand : Expr)
  | cast (kind : CastKind) (operand : Expr)
  /-- `base[offset]`, or `base[]`. -/
  | index (base : Expr) (offset : Option Expr)
  | property (object : Expr) (member : Member)
  | call (function : Target) (args : List Expr)
  | methodCall (receiver : Expr) (member : Member) (args : List Expr)
  | staticCall (cls : Target) (member : Member) (args : List Expr)
  | closure (closure : Closure)
  | new (cls : Instantiated) (args : List Expr)
  /-- A construct without a form of its own, such as a ternary or `$a++`. -/
  | other (kind : Ident) (parts : List Node)

inductive Stmt where
  /-- A statement of which nothing is known. -/
  | bare
  | expression (expr : Expr)
  | ret (value : Option Expr)
  | global (vars : List VarName)
  | static (vars : List StaticVar)
  /-- `if (condition) { body } else { alternative }`. -/
  | branch (condition : Expr) (body alternative : List Stmt)
  | function (decl : FunctionDecl)
  | method (decl : MethodDecl)
  | classDecl (decl : ClassDecl)
  /-- A construct without a form of its own, such as a loop or `echo`. -/
  | other (kind : Ident) (parts : List Node)

/-- A node of a tree, of whatever sort. -/
inductive Node where
  /-- A node of which nothing is known. -/
  | bare
  | name (name : Ident)
  | param (param : Param)
  | capture (capture : Capture)
  | staticVar (var : StaticVar)
  | expr (expr : Expr)
  | stmt (stmt : Stmt)

end

end CallablePurity
