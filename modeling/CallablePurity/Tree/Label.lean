import CallablePurity.Tree.Content

set_option autoImplicit false

/-! # Labels

The short form of a node in listings and traces: its kind, followed in parentheses by the text that
tells it apart from its siblings, where it has one. -/

namespace CallablePurity

/-- The text of a literal in a label; all floats read alike. -/
def Scalar.label : Scalar → String
  | null => "null"
  | bool b => if b then "true" else "false"
  | int i => toString i
  | float _ => "float"
  | text s => s

def VarName.label? : VarName → Option String
  | named n => some n.text
  | computed _ => none

def Member.label? : Member → Option String
  | named s => some s
  | computed _ => none

def Expr.label? : Expr → Option String
  | var name => name.label?
  | literal value => some value.label
  | assignOp op _ _ => some op.operator.text
  | binary op _ _ => some op.text
  | unary op _ => some op.text
  | cast kind _ => some kind.text
  | property _ member => member.label?
  | methodCall _ member _ => member.label?
  | staticCall _ member _ => member.label?
  | other kind _ => some kind.text
  | _ => none

def Stmt.label? : Stmt → Option String
  | function f => some f.name.text
  | method m => some m.name.text
  | classDecl c => c.name.map Ident.text
  | other kind _ => some kind.text
  | _ => none

namespace Node

/-- The text that tells a node apart from others of its kind. -/
def label? : Node → Option String
  | bare => none
  | name n => some n.text
  | param p => some p.name.text
  | capture c => some c.name.text
  | staticVar v => some v.name.text
  | expr e => e.label?
  | stmt s => s.label?

def label (n : Node) : String :=
  match n.label? with
  | some s => n.kind.text ++ "(" ++ s ++ ")"
  | none => n.kind.text

end Node

end CallablePurity
