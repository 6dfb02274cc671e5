import CallablePurity.Text.Blank
import CallablePurity.Text.Lowercase

set_option autoImplicit false

/-! # Declared types

A declared type such as `?Foo` or `int|string` is read as the set of its members: the alternatives
between the bars, in lower case and without blanks and leading backslashes around them. Nullness
says nothing about what a value can do, so the mark `?` in front and the member `null` are
dropped. -/

namespace CallablePurity.DeclaredType

/-- Cuts a text at every bar. -/
def alternatives : List Char → List (List Char)
  | [] => [[]]
  | c :: cs =>
    if c = '|' then [] :: alternatives cs
    else
      match alternatives cs with
      | [] => [[c]]
      | part :: parts => (c :: part) :: parts

theorem alternatives_ne_nil (cs : List Char) : alternatives cs ≠ [] := by
  cases cs with
  | nil => simp [alternatives]
  | cons c cs =>
    rw [alternatives]
    split
    · simp
    · split <;> simp

/-- A bar between two texts keeps their alternatives apart. -/
theorem alternatives_append_bar (as bs : List Char) :
    alternatives (as ++ '|' :: bs) = alternatives as ++ alternatives bs := by
  induction as with
  | nil => simp [alternatives]
  | cons c as ih =>
    rw [List.cons_append, alternatives, alternatives, ih]
    split
    · rw [List.cons_append]
    · cases h : alternatives as with
      | nil => exact absurd h (alternatives_ne_nil as)
      | cons part parts => simp

/-- Drops the mark of a nullable type. -/
def withoutNullMark : List Char → List Char
  | '?' :: cs => cs
  | cs => cs

/-- A declared type without blanks around it and without the mark of a nullable type. -/
def core (declared : String) : List Char :=
  withoutNullMark (Text.trimChars declared.toList)

/-- The name by which one alternative is known. -/
def memberName (part : List Char) : String :=
  String.ofList (Text.lowerChars [] (Text.unqualifyChars (Text.trimChars part)))

/-- The members of a declared type; a member may be repeated. -/
def members (declared : String) : List String :=
  ((alternatives (core declared)).map memberName).filter fun m => m ≠ "null" ∧ m ≠ ""

/-- All members of the type are among the known ones, and there is one. Nothing is known of a
    missing type. -/
def consistsOf (known : List String) : Option String → Bool
  | none => false
  | some declared => !(members declared).isEmpty && (members declared).all (known.contains ·)

theorem consistsOf_some_iff (known : List String) (declared : String) :
    consistsOf known (some declared) = true
      ↔ members declared ≠ [] ∧ ∀ m ∈ members declared, m ∈ known := by
  simp [consistsOf]

end CallablePurity.DeclaredType
