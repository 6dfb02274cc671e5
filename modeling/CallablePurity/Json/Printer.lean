import CallablePurity.Json.Basic
import CallablePurity.Text.Hex

set_option autoImplicit false

/-! # Writing JSON

The written form is ASCII: every other code point is an escape, above the basic plane a pair of
them. Half of a surrogate pair is written like half of the escape of a character. A document is
written either on one line, or with one item to a line and each level indented by some number of
blanks; an empty container is always written as its two brackets. -/

namespace CallablePurity.Json

/-! ## Texts -/

/-- The code units of a code point in UTF-16. -/
def codeUnits : CodePoint → List Nat
  | .char c =>
    if c.toNat < 0x10000 then [c.toNat]
    else [0xD800 + (c.toNat - 0x10000) / 0x400, 0xDC00 + (c.toNat - 0x10000) % 0x400]
  | .high bits => [0xD800 + bits]
  | .low bits => [0xDC00 + bits]

/-- A code point as the numbers of its code units. -/
def unitEscapes (p : CodePoint) : List Char :=
  (codeUnits p).flatMap fun u => '\\' :: 'u' :: Text.hexDigits 4 u

/-- One code point inside a written text. -/
def escape : CodePoint → List Char
  | .char c =>
    if c = '"' then ['\\', '"']
    else if c = '\\' then ['\\', '\\']
    else if c = '\n' then ['\\', 'n']
    else if c = '\r' then ['\\', 'r']
    else if c = '\t' then ['\\', 't']
    else if c = '\x08' then ['\\', 'b']
    else if c = '\x0c' then ['\\', 'f']
    else if 0x20 ≤ c.toNat ∧ c.toNat < 0x7F then [c]
    else unitEscapes (.char c)
  | half => unitEscapes half

/-- A written text. -/
def textChars (s : List CodePoint) : List Char :=
  '"' :: (s.flatMap escape ++ ['"'])

/-! ## Containers -/

/-- How containers are laid out. -/
inductive Layout where
  /-- All on one line. -/
  | compact
  /-- One item to a line, each level indented by `step` more blanks. -/
  | lines (step : Nat)
deriving DecidableEq

namespace Layout

/-- No indentation asked for means one line, and a negative one counts as none at all. -/
def ofIndent : Option Int → Layout
  | none => compact
  | some n => lines n.toNat

/-- What comes before the first item of a container at a level, and before its closing bracket. -/
def lineBreak : Layout → (level : Nat) → List Char
  | compact, _ => []
  | lines step, level => '\n' :: List.replicate (step * level) ' '

/-- What comes between two items of a container at a level. -/
def separator : Layout → (level : Nat) → List Char
  | compact, _ => [',', ' ']
  | lines step, level => ',' :: (lines step).lineBreak level

end Layout

/-- Written items between brackets; they stand one level deeper than the container. -/
def enclose (layout : Layout) (level : Nat) (opening closing : Char) :
    (items : List (List Char)) → List Char
  | [] => [opening, closing]
  | items =>
    opening :: (layout.lineBreak (level + 1)
      ++ (layout.separator (level + 1)).intercalate items
      ++ layout.lineBreak level ++ [closing])

/-! ## Documents -/

mutual

/-- A document as written at some level. -/
def chars (layout : Layout) (level : Nat) : Json → List Char
  | bool b => (if b then "true" else "false").toList
  | nat n => Nat.toDigits 10 n
  | text s => textChars s
  | array items => enclose layout level '[' ']' (itemChars layout (level + 1) items)
  | object fields => enclose layout level '\x7b' '\x7d' (fieldChars layout (level + 1) fields)

def itemChars (layout : Layout) (level : Nat) : List Json → List (List Char)
  | [] => []
  | item :: rest => item.chars layout level :: itemChars layout level rest

def fieldChars (layout : Layout) (level : Nat) : List (String × Json) → List (List Char)
  | [] => []
  | (key, value) :: rest =>
    (textChars key ++ [':', ' '] ++ value.chars layout level) :: fieldChars layout level rest

end

/-- A written document. -/
def render (layout : Layout) (j : Json) : String :=
  String.ofList (j.chars layout 0)

end CallablePurity.Json
