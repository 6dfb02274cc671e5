import CallablePurity.Tree.Kind
import CallablePurity.Tree.Node

set_option autoImplicit false

/-! # What a node holds

A node has a kind and, field by field in order of declaration, its contents: an atom, a node or a
sequence of nodes. Its children are the nodes among its contents. -/

namespace CallablePurity

/-- The content of a field that holds no nodes. -/
inductive Atom where
  | scalar (value : Scalar)
  | binary (op : BinaryOperator)
  | unary (op : UnaryOperator)
  | cast (kind : CastKind)

/-- The content of one field. -/
inductive Content where
  | atom (value : Atom)
  | node (node : Node)
  | nodes (nodes : List Node)

namespace Content

/-- The nodes that a field holds, in order. -/
def nodeList : Content → List Node
  | atom _ => []
  | node n => [n]
  | nodes ns => ns

def text (s : String) : Content :=
  atom (.scalar (.text s))

def flag (b : Bool) : Content :=
  atom (.scalar (.bool b))

def text? : Option String → Content
  | some s => text s
  | none => atom (.scalar .null)

def expr (e : Expr) : Content :=
  node (.expr e)

def expr? : Option Expr → Content
  | some e => expr e
  | none => atom (.scalar .null)

def exprs (es : List Expr) : Content :=
  nodes (es.map .expr)

def stmts (ss : List Stmt) : Content :=
  nodes (ss.map .stmt)

def params (ps : List Param) : Content :=
  nodes (ps.map .param)

end Content

/-! ## The contents of each sort of node -/

def VarName.content : VarName → Content
  | named n => .text n.text
  | computed e => .expr e

def Member.content : Member → Content
  | named s => .text s
  | computed e => .expr e

def Target.content : Target → Content
  | named n => .node (.name n)
  | computed e => .expr e

def Instantiated.content : Instantiated → Content
  | named n => .node (.name n)
  | computed e => .expr e
  | declared c => .node (.stmt (.classDecl c))

def Arity.isVariadic : Arity → Bool
  | variadic => true
  | _ => false

def Arity.default? : Arity → Option Expr
  | optional e => some e
  | _ => none

def Param.contents (p : Param) : List Content :=
  [.text p.name.text, .text? (p.declaredType.map Ident.text), .flag p.byRef,
   .flag p.arity.isVariadic, .expr? p.arity.default?]

def Capture.contents (c : Capture) : List Content :=
  [.text c.name.text, .flag c.byRef]

def StaticVar.contents (v : StaticVar) : List Content :=
  [.text v.name.text, .expr? v.default]

def Closure.contents (c : Closure) : List Content :=
  [.params c.params, .nodes (c.captures.map .capture), .stmts c.body, .flag c.byRef,
   .flag c.isStatic, .text? c.returnType]

def FunctionDecl.contents (f : FunctionDecl) : List Content :=
  [.text f.name.text, .params f.params, .stmts f.body, .flag f.byRef, .text? f.returnType]

def MethodDecl.contents (m : MethodDecl) : List Content :=
  [.text m.name.text, .params m.params, .stmts m.body, .flag m.byRef, .flag m.isStatic,
   .text? m.returnType]

def ClassDecl.contents (c : ClassDecl) : List Content :=
  [.text? (c.name.map Ident.text), .stmts c.body]

def Expr.contents : Expr → List Content
  | bare => []
  | var name => [name.content]
  | literal value => [.atom (.scalar value)]
  | array items => [.exprs items]
  | assign target value => [.expr target, .expr value]
  | assignOp op target value => [.atom (.binary op.operator), .expr target, .expr value]
  | binary op left right => [.atom (.binary op), .expr left, .expr right]
  | unary op operand => [.atom (.unary op), .expr operand]
  | cast kind operand => [.atom (.cast kind), .expr operand]
  | index base offset => [.expr base, .expr? offset]
  | property object member => [.expr object, member.content]
  | call function args => [function.content, .exprs args]
  | methodCall receiver member args => [.expr receiver, member.content, .exprs args]
  | staticCall cls member args => [cls.content, member.content, .exprs args]
  | closure c => c.contents
  | new cls args => [cls.content, .exprs args]
  | other kind parts => [.text kind.text, .nodes parts]

def Stmt.contents : Stmt → List Content
  | bare => []
  | expression e => [.expr e]
  | ret value => [.expr? value]
  | global vars => [.exprs (vars.map .var)]
  | static vars => [.nodes (vars.map .staticVar)]
  | branch condition body alternative => [.expr condition, .stmts body, .stmts alternative]
  | function f => f.contents
  | method m => m.contents
  | classDecl c => c.contents
  | other kind parts => [.text kind.text, .nodes parts]

namespace Node

/-- The contents of a node's fields, in order of declaration. -/
def contents : Node → List Content
  | bare => []
  | name n => [.text n.text]
  | param p => p.contents
  | capture c => c.contents
  | staticVar v => v.contents
  | expr e => e.contents
  | stmt s => s.contents

/-- The nodes directly below a node, field by field. -/
def children (n : Node) : List Node :=
  n.contents.flatMap Content.nodeList

end Node

/-! ## Kinds -/

def Expr.kind : Expr → Kind
  | bare => .expr
  | var _ => .var
  | literal _ => .literal
  | array _ => .array
  | assign _ _ => .assign
  | assignOp _ _ _ => .assignOp
  | binary _ _ _ => .binary
  | unary _ _ => .unary
  | cast _ _ => .cast
  | index _ _ => .index
  | property _ _ => .property
  | call _ _ => .call
  | methodCall _ _ _ => .methodCall
  | staticCall _ _ _ => .staticCall
  | closure _ => .closure
  | new _ _ => .new
  | other _ _ => .otherExpr

def Stmt.kind : Stmt → Kind
  | bare => .stmt
  | expression _ => .expression
  | ret _ => .ret
  | global _ => .global
  | static _ => .static
  | branch _ _ _ => .branch
  | function _ => .function
  | method _ => .method
  | classDecl _ => .classDecl
  | other _ _ => .otherStmt

namespace Node

def kind : Node → Kind
  | bare => .node
  | name _ => .name
  | param _ => .param
  | capture _ => .capture
  | staticVar _ => .staticVar
  | expr e => e.kind
  | stmt s => s.kind

def isExpr (n : Node) : Bool :=
  n.kind.isExpr

def isStmt (n : Node) : Bool :=
  n.kind.isStmt

/-- The node opens a variable scope of its own. -/
def isBoundary (n : Node) : Bool :=
  n.kind.isBoundary

theorem isBoundary_iff (n : Node) :
    n.isBoundary = true ↔ n.kind = .closure ∨ n.kind = .function ∨ n.kind = .classDecl :=
  n.kind.isBoundary_iff

end Node

end CallablePurity
