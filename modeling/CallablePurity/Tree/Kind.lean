set_option autoImplicit false

/-! # Kinds of nodes

Every node is of one kind. A kind has the name that messages and front ends know it by, and a list
of named fields; it is an expression, a statement, or an auxiliary part of either. -/

namespace CallablePurity

inductive Kind where
  | node | expr | stmt
  | name | param | capture | staticVar
  | var | literal | array | assign | assignOp | binary | unary | cast | index | property
  | call | methodCall | staticCall | closure | new | otherExpr
  | expression | ret | global | static | branch | otherStmt | function | method | classDecl
deriving DecidableEq

namespace Kind

def all : List Kind :=
  [node, expr, stmt, name, param, capture, staticVar, var, literal, array, assign, assignOp, binary,
   unary, cast, index, property, call, methodCall, staticCall, closure, new, otherExpr, expression,
   ret, global, static, branch, otherStmt, function, method, classDecl]

/-- The name of a kind in messages and in what a front end hands over. -/
def text : Kind → String
  | node => "Node"
  | expr => "Expr"
  | stmt => "Stmt"
  | name => "Name"
  | param => "Param"
  | capture => "ClosureUse"
  | staticVar => "StaticVar"
  | var => "Variable"
  | literal => "Literal"
  | array => "ArrayLiteral"
  | assign => "Assign"
  | assignOp => "AssignOp"
  | binary => "BinaryOp"
  | unary => "UnaryOp"
  | cast => "Cast"
  | index => "ArrayDimFetch"
  | property => "PropertyFetch"
  | call => "FuncCall"
  | methodCall => "MethodCall"
  | staticCall => "StaticCall"
  | closure => "Closure"
  | new => "New"
  | otherExpr => "OtherExpr"
  | expression => "Expression"
  | ret => "Return"
  | global => "Global"
  | static => "Static"
  | branch => "If"
  | otherStmt => "OtherStmt"
  | function => "FunctionDef"
  | method => "ClassMethod"
  | classDecl => "ClassDef"

def ofText? (s : String) : Option Kind :=
  all.find? fun kind => kind.text = s

theorem ofText?_text (kind : Kind) : ofText? kind.text = some kind := by
  cases kind <;> decide

/-- The fields of a kind, in order of declaration. -/
def fields : Kind → List String
  | node | expr | stmt => []
  | name => ["value"]
  | param => ["name", "declared_type", "by_ref", "variadic", "default"]
  | capture => ["name", "by_ref"]
  | staticVar => ["name", "default"]
  | var => ["name"]
  | literal => ["value"]
  | array => ["items"]
  | assign => ["var", "expr"]
  | assignOp => ["op", "var", "expr"]
  | binary => ["op", "left", "right"]
  | unary => ["op", "expr"]
  | cast => ["kind", "expr"]
  | index => ["var", "dim"]
  | property => ["var", "name"]
  | call => ["name", "args"]
  | methodCall => ["var", "name", "args"]
  | staticCall => ["class_", "name", "args"]
  | closure => ["params", "uses", "stmts", "by_ref", "is_static", "return_type"]
  | new => ["class_", "args"]
  | otherExpr | otherStmt => ["kind", "children"]
  | expression | ret => ["expr"]
  | global | static => ["vars"]
  | branch => ["cond", "stmts", "else_stmts"]
  | function => ["name", "params", "stmts", "by_ref", "return_type"]
  | method => ["name", "params", "stmts", "by_ref", "is_static", "return_type"]
  | classDecl => ["name", "stmts"]

/-- The fields of a kind that have no default, in order of declaration: they must be given. -/
def required : Kind → List String
  | node | expr | stmt | array | closure | ret | classDecl => []
  | name | literal => ["value"]
  | param | capture | staticVar | var | function | method => ["name"]
  | assign => ["var", "expr"]
  | assignOp => ["op", "var", "expr"]
  | binary => ["op", "left", "right"]
  | unary => ["op", "expr"]
  | cast => ["kind", "expr"]
  | index => ["var"]
  | property | methodCall => ["var", "name"]
  | call => ["name"]
  | staticCall => ["class_", "name"]
  | new => ["class_"]
  | otherExpr | otherStmt => ["kind"]
  | expression => ["expr"]
  | global | static => ["vars"]
  | branch => ["cond"]

/-- Nodes of this kind are expressions. -/
def isExpr : Kind → Bool
  | expr | var | literal | array | assign | assignOp | binary | unary | cast | index | property
  | call | methodCall | staticCall | closure | new | otherExpr => true
  | _ => false

/-- Nodes of this kind are statements; so are declarations. -/
def isStmt : Kind → Bool
  | stmt | expression | ret | global | static | branch | otherStmt | function | method
  | classDecl => true
  | _ => false

/-- Nodes of this kind open a scope of their own: the variables inside them are not those of the
    code around them. A method stands in a class, which opens the scope already. -/
def isBoundary : Kind → Bool
  | closure | function | classDecl => true
  | _ => false

/-- Closures, functions and classes open a scope, and nothing else does. -/
theorem isBoundary_iff (kind : Kind) :
    kind.isBoundary = true ↔ kind = closure ∨ kind = function ∨ kind = classDecl := by
  cases kind <;> simp [isBoundary]

end Kind

end CallablePurity
