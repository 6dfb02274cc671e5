import CallablePurity.Json.Basic

set_option autoImplicit false

/-! # Reading JSON

A reader for any JSON text, also for what reports never contain: null, numbers with a sign, a
fraction or an exponent, blanks in all places where they may stand, every way to escape a character.
It refuses what the format does not allow: a leading zero, a comma before a closing bracket, a
control character in a text, anything after the end. A text may have any code points: the escapes of
the two halves of a surrogate pair, one after the other, are the character, and the escape of a half
that stands alone is that half.

A reader of one construct takes the characters that are left and gives what it has read with the
characters that are left then. Loops are bounded by the number of characters. -/

namespace CallablePurity.Json

/-- A document as it is read. The fields of an object keep their order. -/
inductive Value where
  | null
  | bool (b : Bool)
  /-- The number `mantissa * 10 ^ exponent`. -/
  | number (mantissa exponent : Int)
  | text (s : List CodePoint)
  | array (items : List Value)
  | object (fields : List (List CodePoint × Value))

/-- Reads a construct at the beginning of some characters. -/
abbrev Reader (α : Type) := List Char → Option (α × List Char)

/-! ## Blanks -/

def isBlank (c : Char) : Bool :=
  c = ' ' || c = '\t' || c = '\n' || c = '\r'

/-- The next character that is no blank. -/
def next? : Reader Char := fun cs =>
  match cs.dropWhile isBlank with
  | [] => none
  | c :: rest => some (c, rest)

/-! ## Texts -/

def hexDigit? (c : Char) : Option Nat :=
  if '0' ≤ c ∧ c ≤ '9' then some (c.toNat - '0'.toNat)
  else if 'a' ≤ c ∧ c ≤ 'f' then some (10 + (c.toNat - 'a'.toNat))
  else if 'A' ≤ c ∧ c ≤ 'F' then some (10 + (c.toNat - 'A'.toNat))
  else none

/-- The number that hexadecimal digits stand for, the highest first. -/
def hexValue? (digits : List Char) : Option Nat :=
  digits.foldlM (fun n c => (hexDigit? c).map (16 * n + ·)) 0

/-- A code unit, as four hexadecimal digits. -/
def codeUnit? : Reader Nat := fun cs =>
  if cs.length < 4 then none
  else (hexValue? (cs.take 4)).map (·, cs.drop 4)

/-- The code point that a code unit is by itself. -/
def ofUnit (unit : Nat) : CodePoint :=
  if unit < 0xD800 ∨ 0xE000 ≤ unit then .char (Char.ofNat unit)
  else if unit < 0xDC00 then .high (Fin.ofNat 0x400 unit)
  else .low (Fin.ofNat 0x400 unit)

/-- The character that two halves make. -/
def joined (high low : Fin 0x400) : Char :=
  Char.ofNat (0x10000 + high * 0x400 + low)

/-- A code point by its code units, after the first `\u`: one unit, or a surrogate pair of which
    each half is escaped. -/
def codeUnits? : Reader CodePoint := fun cs => do
  let (unit, rest) ← codeUnit? cs
  match ofUnit unit, rest with
  | .high high, '\\' :: 'u' :: more => do
    let (next, after) ← codeUnit? more
    match ofUnit next with
    | .low low => some (.char (joined high low), after)
    | _ => some (.high high, rest)
  | p, _ => some (p, rest)

/-- The character that a letter after a backslash stands for. -/
def letterEscape? (c : Char) : Option Char :=
  if c = '"' then some '"'
  else if c = '\\' then some '\\'
  else if c = '/' then some '/'
  else if c = 'b' then some '\x08'
  else if c = 'f' then some '\x0c'
  else if c = 'n' then some '\n'
  else if c = 'r' then some '\r'
  else if c = 't' then some '\t'
  else none

/-- One code point of a text, escaped or as it is. -/
def codePoint? : Reader CodePoint
  | '\\' :: 'u' :: rest => codeUnits? rest
  | '\\' :: c :: rest => (letterEscape? c).map (.char ·, rest)
  | ['\\'] => none
  | c :: rest => if c.toNat < 0x20 then none else some (.char c, rest)
  | [] => none

/-- The code points of a text up to its closing quote. -/
def textBody? : (bound : Nat) → Reader (List CodePoint)
  | 0, _ => none
  | _, [] => none
  | _ + 1, '"' :: rest => some ([], rest)
  | bound + 1, cs => do
    let (p, rest) ← codePoint? cs
    let (body, rest) ← textBody? bound rest
    some (p :: body, rest)

/-- A text after its opening quote. -/
def text? : Reader (List CodePoint) := fun cs =>
  textBody? cs.length cs

/-! ## Numbers -/

/-- One or more decimal digits. -/
def digits? : Reader (List Char) := fun cs =>
  match cs.takeWhile Char.isDigit with
  | [] => none
  | digits => some (digits, cs.dropWhile Char.isDigit)

/-- The digits before the point: a zero stands alone. -/
def whole? : Reader (List Char) := fun cs => do
  let (digits, rest) ← digits? cs
  if digits.head? = some '0' ∧ digits ≠ ['0'] then none else some (digits, rest)

/-- The digits after the point, if there is one. -/
def fraction? : Reader (List Char)
  | '.' :: rest => digits? rest
  | cs => some ([], cs)

/-- A minus sign, if there is one, as a factor. -/
def minus : List Char → Int × List Char
  | '-' :: rest => (-1, rest)
  | cs => (1, cs)

/-- The exponent, if there is one. -/
def exponent? : Reader Int
  | c :: rest =>
    if c = 'e' ∨ c = 'E' then do
      let (factor, rest) := match rest with
        | '+' :: rest => (1, rest)
        | _ => minus rest
      let (digits, rest) ← digits? rest
      some (factor * Nat.ofDigitChars 10 digits 0, rest)
    else some (0, c :: rest)
  | [] => some (0, [])

def number? : Reader Value := fun cs => do
  let (factor, rest) := minus cs
  let (whole, rest) ← whole? rest
  let (fraction, rest) ← fraction? rest
  let (exponent, rest) ← exponent? rest
  some (.number (factor * Nat.ofDigitChars 10 (whole ++ fraction) 0) (exponent - fraction.length),
    rest)

/-! ## Containers -/

section

variable {α : Type}

/-- Items with commas between them, and the closing bracket. -/
def items? (item? : Reader α) (closing : Char) : (bound : Nat) → Reader (List α)
  | 0, _ => none
  | bound + 1, cs => do
    let (item, rest) ← item? cs
    let (c, rest) ← next? rest
    if c = ',' then do
      let (items, rest) ← items? item? closing bound rest
      some (item :: items, rest)
    else if c = closing then some ([item], rest)
    else none

/-- The content of a container after its opening bracket. -/
def content? (item? : Reader α) (closing : Char) : Reader (List α) := fun cs => do
  let (c, rest) ← next? cs
  if c = closing then some ([], rest) else items? item? closing cs.length cs

/-- A key, a colon and what belongs to the key. -/
def field? (item? : Reader α) : Reader (List CodePoint × α) := fun cs => do
  let (quote, rest) ← next? cs
  if quote ≠ '"' then none
  let (key, rest) ← text? rest
  let (colon, rest) ← next? rest
  if colon ≠ ':' then none
  let (item, rest) ← item? rest
  some ((key, item), rest)

end

/-! ## Documents -/

/-- A given word, which stands for a value. -/
def word? (word : List Char) (v : Value) : Reader Value := fun cs =>
  (word.isPrefixOf? cs).map (v, ·)

/-- A document that is nested less deeply than the bound. -/
def value? : (bound : Nat) → Reader Value
  | 0, _ => none
  | bound + 1, cs => do
    let (c, rest) ← next? cs
    if c = '"' then (text? rest).map fun (s, rest) => (.text s, rest)
    else if c = '[' then
      (content? (value? bound) ']' rest).map fun (items, rest) => (.array items, rest)
    else if c = '\x7b' then
      (content? (field? (value? bound)) '\x7d' rest).map fun (fields, rest) =>
        (.object fields, rest)
    else if c = 't' then word? "rue".toList (.bool true) rest
    else if c = 'f' then word? "alse".toList (.bool false) rest
    else if c = 'n' then word? "ull".toList .null rest
    else number? (c :: rest)

/-- The document that a text consists of. -/
def read? (text : String) : Option Value := do
  let (v, rest) ← value? (text.toList.length + 1) text.toList
  if (next? rest).isSome then none else some v

example : read? " [-1.50E1,\n\"\\ud83d\\uDE00/\" ] "
    = some (.array [.number (-150) (-1), .text "😀/"]) := by
  cbv

example : read? "\"\\uDE00\\ud83d\\ud83d\\n\""
    = some (.text [.low 0x200, .high 0x3d, .high 0x3d, .char '\n']) := by
  cbv

example : [read? "[1,]", read? "01", read? "\"\\ud83\"", read? "1 1"]
    = [none, none, none, none] := by
  cbv

end CallablePurity.Json
