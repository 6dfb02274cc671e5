import CallablePurity.Json.Printer
import CallablePurity.Proofs.Json.Reader
import Mathlib.Algebra.Order.Ring.Nat
import Mathlib.Tactic.SplitIfs

set_option autoImplicit false

/-! # Texts in JSON

A text is written one code point after the other. It is read back in the same way, with one
exception: both halves of a surrogate pair side by side are written as the character is that they
make, and read as that character (`text?_flatMap_escape`). Where a text has no such halves
(`Unsplit`), as is the case for every string, it is read as it was.

Whether a half is read as such depends on what comes next. What is written for a code point other
than a low half never completes a pair (`standsAlone_escape`), so a look at the next code point is
enough. -/

namespace CallablePurity.Json

open Wording (codePoints)

/-! ## Pairs -/

/-- The text with all halves that stand side by side joined to characters. -/
def joinPairs : List CodePoint → List CodePoint
  | .high high :: .low low :: rest => .char (joined high low) :: joinPairs rest
  | p :: rest => p :: joinPairs rest
  | [] => []

/-- Nowhere in the text do both halves of a surrogate pair stand side by side. -/
def Unsplit (s : List CodePoint) : Prop :=
  ∀ high low, ¬ [.high high, .low low] <:+: s

theorem unsplit_cons_iff {p : CodePoint} {s : List CodePoint} :
    Unsplit (p :: s) ↔ (∀ high low, ¬ [.high high, .low low] <+: p :: s) ∧ Unsplit s := by
  simp only [Unsplit, List.infix_cons_iff, not_or, forall_and]

/-- Joining changes exactly the texts with both halves of a pair side by side. -/
theorem joinPairs_eq_self_iff (s : List CodePoint) : joinPairs s = s ↔ Unsplit s := by
  induction s using joinPairs.induct with
  | case1 high low rest ih =>
    refine iff_of_false (fun heq => ?_) fun h => h high low ⟨[], rest, rfl⟩
    cases (List.cons.inj heq).1
  | case2 p rest hpair ih =>
    have hstart (high low) : ¬ [.high high, .low low] <+: p :: rest := by
      rintro ⟨more, heq⟩
      obtain ⟨hp, hrest⟩ := List.cons.inj heq
      exact hpair high low more hp.symm hrest.symm
    rw [joinPairs.eq_2 _ _ hpair, List.cons.injEq, ih, unsplit_cons_iff]
    simp only [hstart, not_false_eq_true, implies_true, true_and]
  | case3 => exact iff_of_true rfl fun _ _ hpair => by cases List.infix_nil.1 hpair

instance (s : List CodePoint) : Decidable (Unsplit s) :=
  decidable_of_iff _ (joinPairs_eq_self_iff s)

/-- A string has no halves of pairs. -/
theorem unsplit_codePoints (s : String) : Unsplit (codePoints s) := by
  intro high low hpair
  have hmem : CodePoint.high high ∈ s.toList.map CodePoint.char :=
    hpair.subset List.mem_cons_self
  simp at hmem

/-! ## Code units -/

theorem hexDigit?_digitChar {d : Nat} (h : d < 16) : hexDigit? d.digitChar = some d := by
  have hall : ∀ d : Fin 16, hexDigit? d.val.digitChar = some d.val := by decide
  exact hall ⟨d, h⟩

theorem hexValue?_concat (digits : List Char) (c : Char) :
    hexValue? (digits ++ [c])
      = (hexValue? digits).bind fun n => (hexDigit? c).map (16 * n + ·) := by
  simp only [hexValue?, List.foldlM_append, List.foldlM_cons, List.foldlM_nil, Option.bind_eq_bind]
  congr 1
  funext n
  cases hexDigit? c <;> rfl

theorem hexValue?_hexDigits (width n : Nat) :
    hexValue? (Text.hexDigits width n) = some (n % 16 ^ width) := by
  induction width generalizing n with
  | zero => rw [Nat.pow_zero, Nat.mod_one]; rfl
  | succ width ih =>
    have hdigit := hexDigit?_digitChar (Nat.mod_lt n (by decide : 16 > 0))
    have hvalue : 16 * (n / 16 % 16 ^ width) + n % 16 = n % 16 ^ (width + 1) := by
      rw [Nat.pow_succ', Nat.mod_mul]
      omega
    rw [Text.hexDigits, hexValue?_concat, ih, hdigit, ← hvalue]
    rfl

theorem codeUnit?_hexDigits {unit : Nat} (h : unit < 16 ^ 4) (rest : List Char) :
    codeUnit? (Text.hexDigits 4 unit ++ rest) = some (unit, rest) := by
  have hlength := Text.length_hexDigits 4 unit
  rw [codeUnit?, if_neg (by simp [hlength]), List.take_left' hlength, List.drop_left' hlength,
    hexValue?_hexDigits, Nat.mod_eq_of_lt h]
  rfl

/-- A character outside the surrogate range, below which and above which characters lie. -/
theorem toNat_lt_or_lt (c : Char) : c.toNat < 0xD800 ∨ 0xDFFF < c.toNat ∧ c.toNat < 0x110000 :=
  c.valid

theorem ofUnit_toNat (c : Char) : ofUnit c.toNat = .char c := by
  have hrange := toNat_lt_or_lt c
  rw [ofUnit, if_pos (by omega), Char.ofNat_toNat]

theorem ofUnit_high (bits : Fin 0x400) : ofUnit (0xD800 + bits) = .high bits := by
  have hbits := bits.isLt
  rw [ofUnit, if_neg (by omega), if_pos (by omega), CodePoint.high.injEq, Fin.ext_iff]
  show (0xD800 + bits.val) % 0x400 = bits
  omega

theorem ofUnit_low (bits : Fin 0x400) : ofUnit (0xDC00 + bits) = .low bits := by
  have hbits := bits.isLt
  rw [ofUnit, if_neg (by omega), if_neg (by omega), CodePoint.low.injEq, Fin.ext_iff]
  show (0xDC00 + bits.val) % 0x400 = bits
  omega

/-- A code point has one code unit, or is a character with two, which are those of two halves. -/
theorem codeUnits_cases (p : CodePoint) :
    (∃ unit, codeUnits p = [unit] ∧ unit < 0x10000 ∧ ofUnit unit = p)
      ∨ ∃ high low : Fin 0x400,
        codeUnits p = [0xD800 + high.val, 0xDC00 + low.val] ∧ p = .char (joined high low) := by
  cases p with
  | high bits => exact Or.inl ⟨_, rfl, by omega, ofUnit_high bits⟩
  | low bits => exact Or.inl ⟨_, rfl, by omega, ofUnit_low bits⟩
  | char c =>
    have hrange := toNat_lt_or_lt c
    by_cases hplane : c.toNat < 0x10000
    · exact Or.inl ⟨c.toNat, if_pos hplane, hplane, ofUnit_toNat c⟩
    · refine Or.inr ⟨⟨(c.toNat - 0x10000) / 0x400, by omega⟩,
        ⟨(c.toNat - 0x10000) % 0x400, by omega⟩, if_neg hplane, ?_⟩
      have hvalue : 0x10000 + (c.toNat - 0x10000) / 0x400 * 0x400 + (c.toNat - 0x10000) % 0x400
          = c.toNat := by
        omega
      rw [joined, hvalue, Char.ofNat_toNat]

theorem toNat_joined (high low : Fin 0x400) :
    (joined high low).toNat = 0x10000 + high * 0x400 + low := by
  have hvalid : (0x10000 + high.val * 0x400 + low.val).isValidChar := Or.inr (by omega)
  rw [joined, Char.ofNat, dif_pos hvalid]
  rfl

theorem codeUnits_joined (high low : Fin 0x400) :
    codeUnits (.char (joined high low)) = codeUnits (.high high) ++ codeUnits (.low low) := by
  have hvalue := toNat_joined high low
  have hhigh : (0x10000 + high.val * 0x400 + low - 0x10000) / 0x400 = high := by omega
  have hlow : (0x10000 + high.val * 0x400 + low - 0x10000) % 0x400 = low := by omega
  rw [codeUnits, if_neg (by omega), hvalue, hhigh, hlow]
  rfl

/-- What is left does not complete a pair that the half before it began. -/
def StandsAlone (rest : List Char) : Prop :=
  ∀ more, rest = '\\' :: 'u' :: more →
    ∃ unit after, codeUnit? more = some (unit, after) ∧ ∀ low, ofUnit unit ≠ .low low

/-- A single code unit is read as what it is by itself. -/
theorem codePoint?_unit {unit : Nat} (hunit : unit < 0x10000) {rest : List Char}
    (halone : ∀ high, ofUnit unit = .high high → StandsAlone rest) :
    codePoint? ('\\' :: 'u' :: (Text.hexDigits 4 unit ++ rest)) = some (ofUnit unit, rest) := by
  rw [codePoint?, codeUnits?, codeUnit?_hexDigits hunit]
  dsimp only [Option.bind_eq_bind, Option.bind_some]
  split
  · next high more hhigh =>
    obtain ⟨next, after, hnext, hlow⟩ := halone high hhigh more rfl
    rw [hnext]
    dsimp only [Option.bind_some]
    split
    · next low heq => exact absurd heq (hlow low)
    · rw [hhigh]
  · rfl

/-- Two halves are read as the character that they make. -/
theorem codePoint?_pair (high low : Fin 0x400) (rest : List Char) :
    codePoint? ('\\' :: 'u' :: (Text.hexDigits 4 (0xD800 + high)
        ++ '\\' :: 'u' :: (Text.hexDigits 4 (0xDC00 + low) ++ rest)))
      = some (.char (joined high low), rest) := by
  have hhigh : 0xD800 + high.val < 16 ^ 4 := by omega
  have hlow : 0xDC00 + low.val < 16 ^ 4 := by omega
  simp [codePoint?, codeUnits?, codeUnit?_hexDigits hhigh, codeUnit?_hexDigits hlow, ofUnit_high,
    ofUnit_low]

/-! ## Escapes -/

/-- A code point is written with a letter, as it is, or by its code units. -/
inductive Escaped (p : CodePoint) (written : List Char) : Prop
  | letter {c d : Char} (hp : p = .char c) (hwritten : written = ['\\', d])
      (hletter : letterEscape? d = some c) (hascii : d.toNat < 128)
  | plain {c : Char} (hp : p = .char c) (hwritten : written = [c]) (hquote : c ≠ '"')
      (hbackslash : c ≠ '\\') (hcontrol : 0x20 ≤ c.toNat) (hascii : c.toNat < 128)
  | units (hwritten : written = unitEscapes p)

theorem escaped_escape (p : CodePoint) : Escaped p (escape p) := by
  cases p with
  | char c =>
    unfold escape
    dsimp only
    split_ifs with hquote hbackslash hn hr ht hb hf hplain
    · subst hquote; exact .letter rfl rfl rfl (by decide)
    · subst hbackslash; exact .letter rfl rfl rfl (by decide)
    · subst hn; exact .letter rfl rfl rfl (by decide)
    · subst hr; exact .letter rfl rfl rfl (by decide)
    · subst ht; exact .letter rfl rfl rfl (by decide)
    · subst hb; exact .letter rfl rfl rfl (by decide)
    · subst hf; exact .letter rfl rfl rfl (by decide)
    · exact .plain rfl rfl hquote hbackslash hplain.1 (by omega)
    · exact .units rfl
  | high bits => exact .units rfl
  | low bits => exact .units rfl

/-- A character is written like its two halves. -/
theorem escape_joined (high low : Fin 0x400) :
    escape (.char (joined high low)) = escape (.high high) ++ escape (.low low) := by
  have hvalue := toNat_joined high low
  have hne (c : Char) (hc : c.toNat < 128) : joined high low ≠ c := by
    rintro rfl
    omega
  have hunits : escape (.char (joined high low)) = unitEscapes (.char (joined high low)) := by
    rw [escape, if_neg (hne _ (by decide)), if_neg (hne _ (by decide)), if_neg (hne _ (by decide)),
      if_neg (hne _ (by decide)), if_neg (hne _ (by decide)), if_neg (hne _ (by decide)),
      if_neg (hne _ (by decide)), if_neg (by omega)]
  rw [hunits, unitEscapes, codeUnits_joined, List.flatMap_append]
  rfl

theorem letterEscape?_ne_u {c d : Char} (h : letterEscape? d = some c) : d ≠ 'u' := by
  rintro rfl
  cases h

/-- A code point is read as it is written, if it is not a half that what follows completes. -/
theorem codePoint?_escape (p : CodePoint) {rest : List Char}
    (halone : ∀ high, p = .high high → StandsAlone rest) :
    codePoint? (escape p ++ rest) = some (p, rest) := by
  cases escaped_escape p with
  | letter hp hwritten hletter =>
    rw [hwritten, hp]
    simp [codePoint?, letterEscape?_ne_u hletter, hletter]
  | plain hp hwritten hquote hbackslash hcontrol =>
    rw [hwritten, hp]
    simp [codePoint?, hbackslash, Nat.not_lt.2 hcontrol]
  | units hwritten =>
    rw [hwritten, unitEscapes]
    rcases codeUnits_cases p with ⟨unit, hunits, hunit, rfl⟩ | ⟨high, low, hunits, rfl⟩
    · rw [hunits, List.flatMap_singleton]
      exact codePoint?_unit hunit halone
    · rw [hunits]
      simpa using codePoint?_pair high low rest

/-- What is written for a code point that is no low half does not complete a pair. -/
theorem standsAlone_escape {p : CodePoint} (hp : ∀ low, p ≠ .low low) (rest : List Char) :
    StandsAlone (escape p ++ rest) := by
  intro more heq
  cases escaped_escape p with
  | letter _ hwritten hletter =>
    rw [hwritten] at heq
    cases heq
    exact absurd rfl (letterEscape?_ne_u hletter)
  | plain _ hwritten _ hbackslash =>
    rw [hwritten] at heq
    cases heq
    exact absurd rfl hbackslash
  | units hwritten =>
    rw [hwritten, unitEscapes] at heq
    rcases codeUnits_cases p with ⟨unit, hunits, hunit, rfl⟩ | ⟨high, low, hunits, rfl⟩
    · rw [hunits, List.flatMap_singleton] at heq
      cases heq
      exact ⟨unit, rest, codeUnit?_hexDigits hunit rest, hp⟩
    · rw [hunits, List.flatMap_cons, List.append_assoc] at heq
      cases heq
      refine ⟨_, _, codeUnit?_hexDigits (by omega) _, ?_⟩
      rw [ofUnit_high]
      exact nofun

theorem standsAlone_quote (rest : List Char) : StandsAlone ('"' :: rest) := by
  intro more heq
  cases heq

/-- No written code point begins like the end of the text. -/
theorem exists_escape_eq_cons (p : CodePoint) : ∃ d more, escape p = d :: more ∧ d ≠ '"' := by
  cases escaped_escape p with
  | letter _ hwritten => exact ⟨_, _, hwritten, by decide⟩
  | plain _ hwritten hquote => exact ⟨_, _, hwritten, hquote⟩
  | units hwritten =>
    rw [unitEscapes] at hwritten
    rcases codeUnits_cases p with ⟨unit, hunits, -⟩ | ⟨high, low, hunits, -⟩
    · exact ⟨_, _, hwritten.trans (by rw [hunits]; rfl), by decide⟩
    · exact ⟨_, _, hwritten.trans (by rw [hunits]; rfl), by decide⟩

/-! ## Whole texts -/

/-- Joining the pairs of a text does not change how it is written. -/
theorem flatMap_escape_joinPairs (s : List CodePoint) :
    (joinPairs s).flatMap escape = s.flatMap escape := by
  induction s using joinPairs.induct with
  | case1 high low s ih =>
    rw [joinPairs, List.flatMap_cons, ih, escape_joined, List.flatMap_cons, List.flatMap_cons,
      List.append_assoc]
  | case2 p s hpair ih => rw [joinPairs.eq_2 _ _ hpair, List.flatMap_cons, ih, List.flatMap_cons]
  | case3 => rfl

theorem textBody?_quote (bound : Nat) (rest : List Char) :
    textBody? (bound + 1) ('"' :: rest) = some ([], rest) := by
  simp [textBody?]

/-- A body that begins with a code point that is read is read on behind it. -/
theorem textBody?_of_codePoint? {written more : List Char} {p q : CodePoint}
    (hread : codePoint? (escape p ++ written) = some (q, more)) (bound : Nat) :
    textBody? (bound + 1) (escape p ++ written)
      = (textBody? bound more).map fun (body, rest) => (q :: body, rest) := by
  obtain ⟨d, after, hescape, hd⟩ := exists_escape_eq_cons p
  rw [hescape, List.cons_append] at hread ⊢
  rw [textBody?, hread]
  · show ((textBody? bound more).bind fun (body, rest) => some (q :: body, rest)) = _
    cases textBody? bound more <;> rfl
  · exact List.cons_ne_nil d _
  · intro rest heq
    exact hd (List.cons.inj heq).1

theorem textBody?_flatMap_escape (s : List CodePoint) (rest : List Char) {bound : Nat}
    (hbound : s.length < bound) :
    textBody? bound (s.flatMap escape ++ '"' :: rest) = some (joinPairs s, rest) := by
  induction s using joinPairs.induct generalizing bound with
  | case1 high low s ih =>
    obtain _ | bound := bound
    · cases hbound
    have hread := codePoint?_pair high low (s.flatMap escape ++ '"' :: rest)
    have hbody := @ih bound (by simp only [List.length_cons] at hbound; omega)
    rw [joinPairs, List.flatMap_cons, List.append_assoc, textBody?_of_codePoint? _ bound, hbody]
    · rfl
    · simpa [escape, unitEscapes, codeUnits] using hread
  | case2 p s hpair ih =>
    obtain _ | bound := bound
    · cases hbound
    -- a half in front of the rest of the text is no part of a pair
    have halone : ∀ high, p = .high high → StandsAlone (s.flatMap escape ++ '"' :: rest) := by
      rintro high rfl
      cases s with
      | nil => exact standsAlone_quote rest
      | cons q s =>
        rw [List.flatMap_cons, List.append_assoc]
        refine standsAlone_escape ?_ _
        rintro low rfl
        exact hpair high low s rfl rfl
    rw [joinPairs.eq_2 _ _ hpair, List.flatMap_cons, List.append_assoc,
      textBody?_of_codePoint? (codePoint?_escape p halone), ih (Nat.lt_of_succ_lt_succ hbound)]
    rfl
  | case3 =>
    obtain _ | bound := bound
    · cases hbound
    · exact textBody?_quote bound rest

theorem length_le_length_flatMap_escape (s : List CodePoint) :
    s.length ≤ (s.flatMap escape).length := by
  induction s with
  | nil => exact Nat.le_refl _
  | cons p s ih =>
    obtain ⟨d, written, hescape, -⟩ := exists_escape_eq_cons p
    simp only [List.flatMap_cons, hescape, List.length_cons, List.length_append]
    omega

/-- A text is read as it is written, with its pairs joined. -/
theorem text?_flatMap_escape (s : List CodePoint) (rest : List Char) :
    text? (s.flatMap escape ++ '"' :: rest) = some (joinPairs s, rest) := by
  refine textBody?_flatMap_escape s rest ?_
  have hbound := length_le_length_flatMap_escape s
  rw [List.length_append, List.length_cons]
  omega

end CallablePurity.Json
