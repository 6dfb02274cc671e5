set_option autoImplicit false

/-! # Hexadecimal digits -/

namespace CallablePurity.Text

/-- The `width` lowest hexadecimal digits of `n`, in lower case, the highest first. -/
def hexDigits : (width n : Nat) → List Char
  | 0, _ => []
  | width + 1, n => hexDigits width (n / 16) ++ [Nat.digitChar (n % 16)]

@[simp] theorem length_hexDigits (width n : Nat) : (hexDigits width n).length = width := by
  induction width generalizing n with
  | zero => rfl
  | succ width ih => simp [hexDigits, ih]

end CallablePurity.Text
