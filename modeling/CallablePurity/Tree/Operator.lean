set_option autoImplicit false

/-! # Operators and casts

The operators of a PHP expression, each with the text it is written with. Some binary operators
also have a compound assignment form, such as `.=`; those are the `CompoundOperator`s. -/

namespace CallablePurity

/-! ## Binary operators -/

inductive BinaryOperator where
  | concat | plus | minus | times | divide | modulo | power
  | bitAnd | bitOr | bitXor | shiftLeft | shiftRight | coalesce
  | equal | notEqual | identical | notIdentical
  | less | lessOrEqual | greater | greaterOrEqual | spaceship
  | booleanAnd | booleanOr | logicalAnd | logicalOr | logicalXor
deriving DecidableEq

namespace BinaryOperator

def all : List BinaryOperator :=
  [concat, plus, minus, times, divide, modulo, power, bitAnd, bitOr, bitXor, shiftLeft, shiftRight,
   coalesce, equal, notEqual, identical, notIdentical, less, lessOrEqual, greater, greaterOrEqual,
   spaceship, booleanAnd, booleanOr, logicalAnd, logicalOr, logicalXor]

/-- The operator as written in source. -/
def text : BinaryOperator → String
  | concat => "."
  | plus => "+"
  | minus => "-"
  | times => "*"
  | divide => "/"
  | modulo => "%"
  | power => "**"
  | bitAnd => "&"
  | bitOr => "|"
  | bitXor => "^"
  | shiftLeft => "<<"
  | shiftRight => ">>"
  | coalesce => "??"
  | equal => "=="
  | notEqual => "!="
  | identical => "==="
  | notIdentical => "!=="
  | less => "<"
  | lessOrEqual => "<="
  | greater => ">"
  | greaterOrEqual => ">="
  | spaceship => "<=>"
  | booleanAnd => "&&"
  | booleanOr => "||"
  | logicalAnd => "and"
  | logicalOr => "or"
  | logicalXor => "xor"

/-- The operator that is written with a text. -/
def ofText? (s : String) : Option BinaryOperator :=
  all.find? fun op => op.text = s

theorem ofText?_text (op : BinaryOperator) : ofText? op.text = some op := by
  cases op <;> decide

/-- The operator has a compound assignment form: arithmetic, bitwise, concatenation and null
    coalescing have one; comparisons and the boolean connectives have none. -/
def isCompound : BinaryOperator → Bool
  | concat | plus | minus | times | divide | modulo | power
  | bitAnd | bitOr | bitXor | shiftLeft | shiftRight | coalesce => true
  | _ => false

end BinaryOperator

/-- A binary operator with a compound assignment form. -/
structure CompoundOperator where
  operator : BinaryOperator
  isCompound : operator.isCompound = true
deriving DecidableEq

/-! ## Unary operators -/

inductive UnaryOperator where
  | minus | plus | booleanNot | bitNot
deriving DecidableEq

namespace UnaryOperator

def all : List UnaryOperator :=
  [minus, plus, booleanNot, bitNot]

def text : UnaryOperator → String
  | minus => "-"
  | plus => "+"
  | booleanNot => "!"
  | bitNot => "~"

def ofText? (s : String) : Option UnaryOperator :=
  all.find? fun op => op.text = s

theorem ofText?_text (op : UnaryOperator) : ofText? op.text = some op := by
  cases op <;> decide

end UnaryOperator

/-! ## Casts -/

/-- The target of a cast `(kind) expr`. -/
inductive CastKind where
  | string | int | float | bool | array | object | unset
deriving DecidableEq

namespace CastKind

def all : List CastKind :=
  [string, int, float, bool, array, object, unset]

def text : CastKind → String
  | string => "string"
  | int => "int"
  | float => "float"
  | bool => "bool"
  | array => "array"
  | object => "object"
  | unset => "unset"

def ofText? (s : String) : Option CastKind :=
  all.find? fun kind => kind.text = s

theorem ofText?_text (kind : CastKind) : ofText? kind.text = some kind := by
  cases kind <;> decide

end CastKind

end CallablePurity
