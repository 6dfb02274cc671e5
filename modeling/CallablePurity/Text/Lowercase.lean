import CallablePurity.Text.LowercaseTable

set_option autoImplicit false

/-! # Lower-casing

Names of functions, classes and types are compared without regard to case, by their lower-case
form. Lower-casing is the full mapping of Unicode: a capital I with a dot becomes two characters,
and a capital sigma has two lower-case forms, of which the final one stands at the end of a word. -/

namespace CallablePurity.Text

/-! ## One character -/

/-- Reads the table of runs; a character in no run is its own lower-case form. -/
def lowerByRuns (runs : List CaseRun) (c : Char) : Char :=
  match runs.find? fun r =>
      r.first ≤ c.toNat && c.toNat ≤ r.last && (c.toNat - r.first) % r.stride == 0 with
  | some r => Char.ofNat (r.image + (c.toNat - r.first))
  | none => c

/-- The single lower-case character of `c`. -/
def lowerChar (c : Char) : Char :=
  if c.toNat < 0x80 then c.toLower else lowerByRuns lowercaseRuns c

theorem lowerChar_of_ascii {c : Char} (h : c.toNat < 0x80) : lowerChar c = c.toLower := by
  simp [lowerChar, h]

/-- Lowering makes small letters only; every other ASCII character is lowered from itself alone. -/
theorem toLower_ne {c d : Char} (hd : d.isLower = false) (h : c ≠ d) : c.toLower ≠ d := by
  unfold Char.toLower
  split
  · next hupper =>
    rintro rfl
    unfold Char.isLower at hd
    simp [UInt32.le_iff_toNat_le, UInt32.toNat_add] at hd hupper
    omega
  · exact h

/-! ## The two forms of sigma -/

/-- The nearest character that has weight for casing is a cased letter. -/
def cased (side : List Char) : Bool :=
  match side.find? fun c => !caseIgnorableRanges.contains c with
  | some c => casedRanges.contains c
  | none => false

/-- A sigma with these characters before it (nearest first) and after it ends a word: a letter
    comes before it and none after it. -/
def endsWord (before after : List Char) : Bool :=
  cased before && !cased after

/-! ## Texts -/

/-- The lower-case form of `c` between the characters `before` it (nearest first) and `after` it. -/
def lowerAt (before : List Char) (c : Char) (after : List Char) : List Char :=
  if c = 'Σ' then [if endsWord before after then 'ς' else 'σ']
  else if c = 'İ' then ['i', '\u0307']
  else [lowerChar c]

theorem lowerAt_ne_nil (before : List Char) (c : Char) (after : List Char) :
    lowerAt before c after ≠ [] := by
  unfold lowerAt
  split
  · simp
  · split <;> simp

theorem lowerAt_of_ascii (before after : List Char) {c : Char} (h : c.toNat < 0x80) :
    lowerAt before c after = [c.toLower] := by
  have hs : c ≠ 'Σ' := by rintro rfl; revert h; decide
  have hi : c ≠ 'İ' := by rintro rfl; revert h; decide
  simp [lowerAt, hs, hi, lowerChar_of_ascii h]

/-- Lower-cases the characters that follow `before` (nearest first). -/
def lowerChars (before : List Char) : List Char → List Char
  | [] => []
  | c :: after => lowerAt before c after ++ lowerChars (c :: before) after

/-- On ASCII text lower-casing works character by character. -/
theorem lowerChars_of_ascii (cs before : List Char) (h : ∀ c ∈ cs, c.toNat < 0x80) :
    lowerChars before cs = cs.map Char.toLower := by
  induction cs generalizing before with
  | nil => rfl
  | cons c cs ih =>
    have hc := h c (List.mem_cons_self ..)
    have hcs := ih (c :: before) fun d hd => h d (List.mem_cons_of_mem _ hd)
    simp [lowerChars, lowerAt_of_ascii _ _ hc, hcs]

/-- The lower-case form of a text. -/
def lowercase (s : String) : String :=
  String.ofList (lowerChars [] s.toList)

@[simp] theorem toList_lowercase (s : String) :
    (lowercase s).toList = lowerChars [] s.toList := by
  simp [lowercase]

theorem lowercase_ne_empty {s : String} (h : s ≠ "") : lowercase s ≠ "" := by
  intro hempty
  have hchars : lowerChars [] s.toList = [] := by
    rw [← toList_lowercase, hempty]
    rfl
  cases hs : s.toList with
  | nil => exact h (String.toList_eq_nil_iff.1 hs)
  | cons c cs =>
    rw [hs, lowerChars, List.append_eq_nil_iff] at hchars
    exact lowerAt_ne_nil [] c cs hchars.1

end CallablePurity.Text
