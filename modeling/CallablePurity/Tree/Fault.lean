import CallablePurity.Tree.Kind
import CallablePurity.Tree.Operator
import CallablePurity.Text.Quoted

set_option autoImplicit false

/-! # Faults in nodes

The reasons for which a node cannot be built, and how each is worded. -/

namespace CallablePurity

/-- What a field accepts. -/
inductive Slot where
  | expr | exprOrNone | stmt | node | param | capture | var | staticVar | tuple
  | textOrExpr | nameOrExpr | nameExprOrClass
  | binaryOperator | unaryOperator | castKind
  | text | textOrNone | flag | scalar
deriving DecidableEq

def Slot.describe : Slot → String
  | expr => "Expr"
  | exprOrNone => "Expr or None"
  | stmt => "Stmt"
  | node => "Node"
  | param => "Param"
  | capture => "ClosureUse"
  | var => "Variable"
  | staticVar => "StaticVar"
  | tuple => "tuple"
  | textOrExpr => "str or Expr"
  | nameOrExpr => "Name or Expr"
  | nameExprOrClass => "Name, Expr or ClassDef"
  | binaryOperator => "BinaryOperator"
  | unaryOperator => "UnaryOperator"
  | castKind => "CastKind"
  | text => "str"
  | textOrNone => "str or None"
  | flag => "bool"
  | scalar => "scalar"

/-- A vocabulary of fixed texts. -/
inductive Vocabulary where
  | binaryOperator | unaryOperator | castKind
deriving DecidableEq

def Vocabulary.text : Vocabulary → String
  | binaryOperator => "BinaryOperator"
  | unaryOperator => "UnaryOperator"
  | castKind => "CastKind"

/-- A name that must not be empty. -/
inductive NameRole where
  | name | param | declaredType | capture | staticVar | var | exprKind | stmtKind
  | function | method | classDecl
deriving DecidableEq

/-- What is wrong with an empty name. -/
def NameRole.complaint : NameRole → String
  | name => "name must not be empty"
  | param => "parameter name must not be empty"
  | declaredType => "declared_type must be non-empty string or None"
  | capture => "capture name must not be empty"
  | staticVar => "static variable name must not be empty"
  | var => "variable name must not be empty"
  | exprKind => "expression kind must not be empty"
  | stmtKind => "statement kind must not be empty"
  | function => "function name must not be empty"
  | method => "method name must not be empty"
  | classDecl => "class name must be non-empty string or None"

/-- Why a node cannot be built. -/
inductive NodeFault where
  /-- Fields without a default are left out. -/
  | missing (kind : Kind) (fields : List String)
  /-- A field holds a value of another type than it accepts. -/
  | wrongType (kind : Kind) (field : String) (expected : Slot) (got : String)
  /-- A text that is no word of its vocabulary. -/
  | unknownWord (vocabulary : Vocabulary) (text : String)
  | emptyName (role : NameRole)
  /-- The operator of a compound assignment has no compound form. -/
  | notCompound (op : BinaryOperator)
  /-- A variadic parameter has a default value. -/
  | variadicDefault

/-- Names in a row, with "and" before the last one. -/
def enumeration (names : List String) : String :=
  match names.reverse with
  | [] => ""
  | [name] => name
  | [second, first] => first ++ " and " ++ second
  | last :: others => ", ".intercalate others.reverse ++ ", and " ++ last

def NodeFault.message : NodeFault → String
  | missing kind fields =>
    kind.text ++ ".__init__() missing " ++ toString fields.length ++ " required positional argument"
      ++ (if fields.length = 1 then "" else "s") ++ ": "
      ++ enumeration (fields.map Text.quoted)
  | wrongType kind field expected got =>
    kind.text ++ "." ++ field ++ " must be " ++ expected.describe ++ ", got " ++ got
  | unknownWord vocabulary text => Text.quoted text ++ " is not a valid " ++ vocabulary.text
  | emptyName role => role.complaint
  | notCompound op => "operator '" ++ op.text ++ "' has no compound assignment form"
  | variadicDefault => "variadic parameter cannot have a default value"

end CallablePurity
