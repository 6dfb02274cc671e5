import CallablePurity.Proofs.TypeUnions
import CallablePurity.Reference

set_option autoImplicit false

/-! # Names in a configuration

A function or a type that is asked for loses the backslashes in front of it and is compared in lower
case: by its key. The names in a configuration are only lowered. Lowering keeps a backslash in front
of a name and makes none (`Text.qualified_lowercase_iff`), and a key has none. So a configured name
matches whatever has the same key, unless it is written with a backslash in front: then it matches
nothing, not even itself (`Config.names_matched_by_key`). -/

namespace CallablePurity

open Reference (keyOf)

/-! ## Backslashes in front of a name -/

namespace Text

/-- The name is marked as fully qualified. -/
def Qualified (s : String) : Prop :=
  s.toList.head? = some '\\'

instance (s : String) : Decidable (Qualified s) :=
  inferInstanceAs (Decidable (_ = _))

/-- No run of the table has a backslash for an image. -/
theorem backslash_lt_image : ∀ r ∈ lowercaseRuns, '\\'.toNat < r.image := by
  decide +kernel

theorem eq_of_ofNat_eq_backslash {n : Nat} (h : Char.ofNat n = '\\') : n = '\\'.toNat := by
  by_cases hvalid : n.isValidChar
  · have hchar : Char.ofNat n = Char.ofNatAux n hvalid := dif_pos hvalid
    rw [hchar] at h
    exact congrArg Char.toNat h
  · have hchar : Char.ofNat n = '\x00' := dif_neg hvalid
    rw [hchar] at h
    exact absurd h (by decide)

theorem lowerByRuns_ne_backslash {c : Char} (h : c ≠ '\\') :
    lowerByRuns lowercaseRuns c ≠ '\\' := by
  unfold lowerByRuns
  split
  · next r hr =>
    have himage := backslash_lt_image r (List.mem_of_find?_eq_some hr)
    intro heq
    have hcode := eq_of_ofNat_eq_backslash heq
    omega
  · exact h

theorem lowerChar_eq_backslash_iff (c : Char) : lowerChar c = '\\' ↔ c = '\\' := by
  constructor
  · intro hlower
    by_contra hc
    unfold lowerChar at hlower
    split at hlower
    · exact toLower_ne (by decide) hc hlower
    · exact lowerByRuns_ne_backslash hc hlower
  · rintro rfl
    decide

theorem head?_lowerChars_eq_backslash_iff (before cs : List Char) :
    (lowerChars before cs).head? = some '\\' ↔ cs.head? = some '\\' := by
  cases cs with
  | nil => simp [lowerChars]
  | cons c cs =>
    rw [lowerChars]
    unfold lowerAt
    by_cases hsigma : c = 'Σ'
    · have hforms : (if endsWord before cs then 'ς' else 'σ') ≠ '\\' := by split <;> decide
      simp [hsigma, hforms]
    · by_cases hdotted : c = 'İ'
      · simp [hdotted]
      · simp [hsigma, hdotted, lowerChar_eq_backslash_iff]

/-- Lowering keeps a backslash in front of a name and makes none. -/
theorem qualified_lowercase_iff (s : String) : Qualified (lowercase s) ↔ Qualified s := by
  unfold Qualified
  rw [toList_lowercase, head?_lowerChars_eq_backslash_iff]

theorem not_qualified_unqualify (s : String) : ¬ Qualified (unqualify s) := by
  unfold Qualified
  rw [toList_unqualify, unqualifyChars]
  intro hhead
  have hnot := List.head?_dropWhile_not (· == '\\') s.toList
  rw [hhead] at hnot
  simp at hnot

theorem unqualify_of_not_qualified {s : String} (h : ¬ Qualified s) : unqualify s = s := by
  simp [unqualify, unqualifyChars_of_head? h]

end Text

open Text (Qualified)

/-- A lowered name is the key of another one if it is not qualified and has the same key. -/
theorem lowercase_eq_keyOf_iff (entry asked : String) :
    Text.lowercase entry = keyOf asked ↔ ¬ Qualified entry ∧ keyOf entry = keyOf asked := by
  have hkey (h : ¬ Qualified entry) : keyOf entry = Text.lowercase entry := by
    unfold keyOf
    rw [Text.unqualify_of_not_qualified h]
  constructor
  · intro heq
    have hentry : ¬ Qualified entry := by
      rw [← Text.qualified_lowercase_iff, heq]
      unfold keyOf
      rw [Text.qualified_lowercase_iff]
      exact Text.not_qualified_unqualify asked
    exact ⟨hentry, (hkey hentry).trans heq⟩
  · rintro ⟨hentry, heq⟩
    exact (hkey hentry).symm.trans heq

theorem keyOf_mem_lowered_iff (entries : List String) (asked : String) :
    keyOf asked ∈ lowered entries
      ↔ ∃ entry ∈ entries, ¬ Qualified entry ∧ keyOf entry = keyOf asked := by
  simp only [lowered, List.mem_map, lowercase_eq_keyOf_iff]

/-! ## Declared types of a single name -/

namespace DeclaredType

/-- The declared type is a name and nothing else, and its name counts. -/
structure SingleName (declared : String) : Prop where
  no_bar : '|' ∉ declared.toList
  no_mark : '?' ∉ declared.toList
  no_blank : ∀ c ∈ declared.toList, Text.isBlank c = false
  not_null : keyOf declared ≠ "null"
  not_empty : keyOf declared ≠ ""

theorem SingleName.members_eq {declared : String} (h : SingleName declared) :
    members declared = [keyOf declared] := by
  have htrim : Text.trimChars declared.toList = declared.toList := by
    refine Text.trimChars_eq_self ?_ ?_
    · intro c hc
      exact h.no_blank c (List.mem_of_head? hc)
    · intro c hc
      exact h.no_blank c (List.mem_of_getLast? hc)
  have hcore : core declared = declared.toList := by
    unfold core
    rw [htrim]
    refine withoutNullMark_of_head? ?_
    intro hmark
    exact h.no_mark (List.mem_of_head? hmark)
  have hname : memberName declared.toList = keyOf declared := by
    simp [memberName, keyOf, Text.lowercase, htrim]
  rw [DeclaredType.members_eq, hcore, memberNames, alternatives_of_no_bar h.no_bar,
    List.map_singleton, hname]
  simp [h.not_null, h.not_empty]

theorem SingleName.consistsOf_iff {declared : String} (h : SingleName declared)
    (entries : List String) :
    consistsOf (lowered entries) (some declared) = true
      ↔ ∃ entry ∈ entries, ¬ Qualified entry ∧ keyOf entry = keyOf declared := by
  rw [consistsOf_some_iff, h.members_eq, ← keyOf_mem_lowered_iff]
  simp

end DeclaredType

/-! ## Configured names -/

namespace Config

open DeclaredType (SingleName)

/-- **Configured names are matched by their keys.** A function is known to be pure, and a type of a
    single name is a scalar or a collection, exactly if the configuration has a name with the same
    key in the list in question that is not written with a backslash in front. -/
theorem names_matched_by_key (c : Config) :
    (∀ function, c.isKnownPure function = true
      ↔ ∃ g ∈ c.knownPureFunctions, ¬ Qualified g ∧ keyOf g = keyOf function)
    ∧ ∀ declared, SingleName declared →
        (c.isScalar (some declared) = true
          ↔ ∃ s ∈ c.scalarTypes, ¬ Qualified s ∧ keyOf s = keyOf declared)
        ∧ (c.isCollection (some declared) = true
          ↔ ∃ s ∈ c.collectionTypes, ¬ Qualified s ∧ keyOf s = keyOf declared) := by
  constructor
  · intro function
    rw [← keyOf_mem_lowered_iff, isKnownPure, List.contains_iff_mem]
    rfl
  · intro declared hname
    exact ⟨hname.consistsOf_iff c.scalarTypes, hname.consistsOf_iff c.collectionTypes⟩

/-- A configuration that knows one function, scalar type and collection type each. -/
def knowing (function scalar collection : String)
    (h : Text.lowercase scalar ≠ Text.lowercase collection) : Config :=
  { standard with
    scalarTypes := [scalar]
    collectionTypes := [collection]
    knownPureFunctions := [function]
    scalarTypes_ne_nil := List.cons_ne_nil _ _
    overlap_eq_nil := by simp [Settings.overlap, lowered, h] }

/-- `\Money` is matched by a configured `MONEY`. -/
theorem names_matched_by_key_money :
    SingleName "\\Money"
    ∧ (knowing "Sum" "MONEY" "Bag" (by decide +kernel)).isScalar (some "\\Money") = true := by
  have hblank : "\\Money".toList.any Text.isBlank = false := by decide +kernel
  have hname : SingleName "\\Money" :=
    ⟨by decide, by decide, fun c hc => Bool.eq_false_iff.2 (List.any_eq_false.1 hblank c hc),
      by decide +kernel, by decide +kernel⟩
  refine ⟨hname, ((names_matched_by_key _).2 _ hname).1.2 ⟨"MONEY", ?_, ?_, ?_⟩⟩
  · exact List.mem_singleton_self _
  · decide
  · decide +kernel

/-- Names that are configured with a backslash in front are not recognised, in whatever way they are
    written where they are used. -/
theorem qualified_entries_unrecognised :
    let c := knowing "\\sum" "\\Money" "\\Bag" (by decide +kernel)
    c.isKnownPure "\\sum" = false ∧ c.isKnownPure "sum" = false
    ∧ c.isScalar (some "\\Money") = false ∧ c.isScalar (some "Money") = false
    ∧ c.isCollection (some "\\Bag") = false ∧ c.isCollection (some "Bag") = false := by
  decide +kernel

end Config

end CallablePurity
