import CallablePurity.Text.CodePoint

set_option autoImplicit false

/-! # JSON documents

The documents that reports are written as: truth values, counts, texts, arrays, and objects whose
fields keep their order. Texts may have any code points. -/

namespace CallablePurity

inductive Json where
  | bool (b : Bool)
  | nat (n : Nat)
  | text (s : List CodePoint)
  | array (items : List Json)
  | object (fields : List (String × Json))

end CallablePurity
