import CallablePurity.Text.CodeRange

set_option autoImplicit false

/-! # Blank characters and trimming

A declared type may be surrounded by blanks and a name may be marked as fully qualified by leading
backslashes; both are taken off before names are compared. -/

namespace CallablePurity.Text

/-! ## Blanks -/

/-- White space, including the four information separators and all wide and narrow spaces; the
    zero-width space and the byte order mark are not blank. -/
def blankRanges : CodeRanges := [
    (0x0009, 0x000D), (0x001C, 0x0020), (0x0085, 0x0085), (0x00A0, 0x00A0), (0x1680, 0x1680),
    (0x2000, 0x200A), (0x2028, 0x2029), (0x202F, 0x202F), (0x205F, 0x205F), (0x3000, 0x3000)]

def isBlank (c : Char) : Bool :=
  blankRanges.contains c

/-! ## Cutting off both ends -/

/-- The characters without their leading and trailing blanks. -/
def trimChars (cs : List Char) : List Char :=
  ((cs.dropWhile isBlank).reverse.dropWhile isBlank).reverse

/-- A text without its leading and trailing blanks. -/
def trim (s : String) : String :=
  String.ofList (trimChars s.toList)

@[simp] theorem toList_trim (s : String) : (trim s).toList = trimChars s.toList := by
  simp [trim]

/-! ## Leading backslashes -/

/-- The characters after all leading backslashes. -/
def unqualifyChars (cs : List Char) : List Char :=
  cs.dropWhile (· == '\\')

/-- A name without the backslashes that mark it as fully qualified. -/
def unqualify (s : String) : String :=
  String.ofList (unqualifyChars s.toList)

@[simp] theorem toList_unqualify (s : String) :
    (unqualify s).toList = unqualifyChars s.toList := by
  simp [unqualify]

end CallablePurity.Text
