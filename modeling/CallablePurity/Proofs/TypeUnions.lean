import CallablePurity.Proofs.ElementFetches
import CallablePurity.Proofs.TypeMembers
import Mathlib.Data.List.DropRight

set_option autoImplicit false

/-! # Unions of declared types

A declared type is trimmed, loses the mark `?` of a nullable type, is cut at its bars, and every
piece is trimmed once more. Trimming the whole takes nothing from a piece that trimming the piece
would have left, because a bar is not blank. So a bar between two types gives the members of both
(`DeclaredType.members_append_bar`), as long as the second one has no mark of its own: only the mark
in front of the whole is taken off.

The members of a union of alternatives are then their names, however these are written
(`DeclaredType.members_intercalate_text`), and a configuration answers by the set of members alone
(`Config.unions_read_by_members`). -/

namespace CallablePurity

/-! ## Trimming -/

namespace Text

variable {cs before after : List Char}

/-- Dropping from the front stops at a character that is kept. -/
theorem dropWhile_append_cons {p : Char → Bool} {c : Char} (hc : p c = false)
    (as bs : List Char) : (as ++ c :: bs).dropWhile p = as.dropWhile p ++ c :: bs := by
  rw [List.dropWhile_append]
  split
  · next hempty => simp [List.isEmpty_iff.1 hempty, hc]
  · rfl

/-- A character that is not blank keeps trimming to the two sides of it. -/
theorem trimChars_append_cons {c : Char} (hc : isBlank c = false) (as bs : List Char) :
    trimChars (as ++ c :: bs) = as.dropWhile isBlank ++ c :: bs.rdropWhile isBlank := by
  unfold trimChars
  rw [dropWhile_append_cons hc, List.reverse_append, List.reverse_cons, List.append_assoc,
    List.singleton_append, dropWhile_append_cons hc]
  simp [List.rdropWhile]

/-- Blanks at the end are all that trimming takes from a text without blanks in front. -/
theorem exists_dropWhile_eq (cs : List Char) :
    ∃ blanks, (∀ c ∈ blanks, isBlank c = true)
      ∧ cs.dropWhile isBlank = trimChars cs ++ blanks := by
  refine ⟨(cs.dropWhile isBlank).rtakeWhile isBlank, ?_, ?_⟩
  · intro c hc
    exact List.mem_rtakeWhile_imp hc
  · exact List.rdropWhile_append_rtakeWhile.symm

theorem trimChars_append_blanks (hafter : ∀ c ∈ after, isBlank c = true) :
    trimChars (cs ++ after) = trimChars cs := by
  have hdrop : after.dropWhile isBlank = [] := List.dropWhile_eq_nil_iff.2 hafter
  have hreverse : ∀ c ∈ after.reverse, isBlank c = true := by simpa using hafter
  unfold trimChars
  rw [List.dropWhile_append]
  split
  · next hempty => rw [hdrop, List.isEmpty_iff.1 hempty]
  · rw [List.reverse_append, List.dropWhile_append_of_pos hreverse]

theorem trimChars_blanks_append (hbefore : ∀ c ∈ before, isBlank c = true) :
    trimChars (before ++ cs) = trimChars cs := by
  unfold trimChars
  rw [List.dropWhile_append_of_pos hbefore]

theorem dropWhile_of_head? {p : Char → Bool} (h : ∀ c, cs.head? = some c → p c = false) :
    cs.dropWhile p = cs := by
  cases cs with
  | nil => rfl
  | cons c cs => simp [h c rfl]

/-- Nothing is cut off where there is no blank at either end. -/
theorem trimChars_eq_self (hhead : ∀ c, cs.head? = some c → isBlank c = false)
    (hlast : ∀ c, cs.getLast? = some c → isBlank c = false) : trimChars cs = cs := by
  unfold trimChars
  rw [dropWhile_of_head? hhead, dropWhile_of_head? (by simpa using hlast), List.reverse_reverse]

theorem unqualifyChars_of_head? (h : cs.head? ≠ some '\\') : unqualifyChars cs = cs := by
  refine dropWhile_of_head? ?_
  intro c hc
  rw [beq_eq_false_iff_ne]
  rintro rfl
  exact h hc

theorem notMem_of_blank {c : Char} (hc : isBlank c = false)
    (h : ∀ b ∈ after, isBlank b = true) : c ∉ after := by
  intro hmem
  rw [h c hmem] at hc
  cases hc

end Text

namespace DeclaredType

open Text (isBlank trimChars)

/-! ## Alternatives of a trimmed type -/

/-- The names of all alternatives of a text, those included that do not count as members. -/
def memberNames (cs : List Char) : List String :=
  (alternatives cs).map memberName

theorem members_eq (declared : String) :
    members declared
      = (memberNames (core declared)).filter fun m => m ≠ "null" ∧ m ≠ "" := rfl

theorem memberNames_append_bar (as bs : List Char) :
    memberNames (as ++ '|' :: bs) = memberNames as ++ memberNames bs := by
  simp [memberNames, alternatives_append_bar]

theorem alternatives_of_no_bar {cs : List Char} (h : '|' ∉ cs) : alternatives cs = [cs] := by
  induction cs with
  | nil => rfl
  | cons c cs ih =>
    rw [List.mem_cons, not_or] at h
    simp [alternatives, Ne.symm h.1, ih h.2]

/-- Text without a bar that is added at the end belongs to the last alternative. -/
theorem exists_alternatives_append (cs : List Char) {after : List Char} (h : '|' ∉ after) :
    ∃ init last, alternatives cs = init ++ [last]
      ∧ alternatives (cs ++ after) = init ++ [last ++ after] := by
  induction cs with
  | nil => exact ⟨[], [], rfl, alternatives_of_no_bar h⟩
  | cons c cs ih =>
    obtain ⟨init, last, hcs, happend⟩ := ih
    rw [List.cons_append, alternatives, alternatives, hcs, happend]
    by_cases hc : c = '|'
    · exact ⟨[] :: init, last, by simp [hc], by simp [hc]⟩
    · cases init with
      | nil => exact ⟨[], c :: last, by simp [hc], by simp [hc]⟩
      | cons first init => exact ⟨(c :: first) :: init, last, by simp [hc], by simp [hc]⟩

/-- Blanks at the end of a text change no name in it. -/
theorem memberNames_append_blanks (cs : List Char) {after : List Char}
    (h : ∀ c ∈ after, isBlank c = true) : memberNames (cs ++ after) = memberNames cs := by
  have hbar : '|' ∉ after := Text.notMem_of_blank (by decide) h
  obtain ⟨init, last, hcs, happend⟩ := exists_alternatives_append cs hbar
  have hlast : memberName (last ++ after) = memberName last := by
    unfold memberName
    rw [Text.trimChars_append_blanks h]
  simp [memberNames, hcs, happend, hlast]

/-- Blanks in front of a text change no name in it. -/
theorem memberNames_dropWhile (cs : List Char) :
    memberNames (cs.dropWhile isBlank) = memberNames cs := by
  induction cs with
  | nil => rfl
  | cons c cs ih =>
    rw [List.dropWhile_cons]
    split
    · next hc =>
      have hbar : c ≠ '|' := by
        rintro rfl
        revert hc
        decide
      have hname (part : List Char) : memberName (c :: part) = memberName part := by
        unfold memberName
        rw [← List.singleton_append, Text.trimChars_blanks_append (by simpa using hc)]
      rw [ih, memberNames, memberNames, alternatives, if_neg hbar]
      split
      · next hnil => exact absurd hnil (alternatives_ne_nil cs)
      · next part parts hparts => simp [hparts, hname]
    · rfl

theorem memberNames_trimChars (cs : List Char) : memberNames (trimChars cs) = memberNames cs := by
  obtain ⟨blanks, hblanks, hdrop⟩ := Text.exists_dropWhile_eq cs
  rw [← memberNames_append_blanks _ hblanks, ← hdrop, memberNames_dropWhile]

/-! ## The mark of a nullable type -/

/-- The type starts with the mark of a nullable type. -/
def Marked (declared : String) : Prop :=
  (trimChars declared.toList).head? = some '?'

instance (declared : String) : Decidable (Marked declared) :=
  inferInstanceAs (Decidable (_ = _))

theorem withoutNullMark_of_head? {cs : List Char} (h : cs.head? ≠ some '?') :
    withoutNullMark cs = cs := by
  unfold withoutNullMark
  split
  · exact absurd rfl h
  · rfl

/-- What comes later keeps its mark. -/
theorem withoutNullMark_append (as : List Char) {bs : List Char} (h : bs.head? ≠ some '?') :
    withoutNullMark (as ++ bs) = withoutNullMark as ++ bs := by
  cases as with
  | nil => exact withoutNullMark_of_head? h
  | cons c as =>
    by_cases hc : c = '?'
    · subst hc
      rfl
    · have hhead (cs : List Char) : (c :: cs).head? ≠ some '?' := by simpa using hc
      rw [List.cons_append, withoutNullMark_of_head? (hhead _), withoutNullMark_of_head? (hhead _),
        List.cons_append]

theorem head?_blanks_ne_mark {blanks : List Char} (h : ∀ c ∈ blanks, isBlank c = true) :
    blanks.head? ≠ some '?' := by
  intro hhead
  exact Text.notMem_of_blank (by decide) h (List.mem_of_head? hhead)

/-- The mark is the first character after the blanks. -/
theorem marked_iff (declared : String) :
    Marked declared ↔ (declared.toList.dropWhile isBlank).head? = some '?' := by
  obtain ⟨blanks, hblanks, hdrop⟩ := Text.exists_dropWhile_eq declared.toList
  unfold Marked
  rw [hdrop, List.head?_append]
  cases (trimChars declared.toList).head? with
  | some c => simp
  | none => simpa using head?_blanks_ne_mark hblanks

theorem memberNames_core_of_not_marked {declared : String} (h : ¬ Marked declared) :
    memberNames (core declared) = memberNames declared.toList := by
  unfold core
  rw [withoutNullMark_of_head? h, memberNames_trimChars]

/-! ## Unions -/

theorem toList_append_bar (a b : String) :
    (a ++ "|" ++ b).toList = a.toList ++ '|' :: b.toList := by
  simp [String.toList_append]

/-- A union has the members of both sides, if only the first one may be marked as nullable. -/
theorem members_append_bar (a : String) {b : String} (hb : ¬ Marked b) :
    members (a ++ "|" ++ b) = members a ++ members b := by
  have hbar : isBlank '|' = false := by decide
  obtain ⟨blanks, hblanks, hdrop⟩ := Text.exists_dropWhile_eq a.toList
  have hcore : core (a ++ "|" ++ b)
      = core a ++ blanks ++ '|' :: b.toList.rdropWhile isBlank := by
    unfold core
    rw [toList_append_bar, Text.trimChars_append_cons hbar, hdrop,
      withoutNullMark_append _ (by simp), withoutNullMark_append _ (head?_blanks_ne_mark hblanks)]
  have hright : memberNames (b.toList.rdropWhile isBlank) = memberNames b.toList := by
    have hafter : ∀ c ∈ b.toList.rtakeWhile isBlank, isBlank c = true :=
      fun c hc => List.mem_rtakeWhile_imp hc
    rw [← memberNames_append_blanks _ hafter, List.rdropWhile_append_rtakeWhile]
  rw [members_eq, members_eq, members_eq, hcore, memberNames_append_bar,
    memberNames_append_blanks _ hblanks, hright, memberNames_core_of_not_marked hb,
    List.filter_append]

theorem marked_append_bar_iff (a b : String) : Marked (a ++ "|" ++ b) ↔ Marked a := by
  rw [marked_iff, marked_iff, toList_append_bar, Text.dropWhile_append_cons (by decide),
    List.head?_append]
  cases (a.toList.dropWhile isBlank).head? <;> simp

theorem not_marked_intercalate {parts : List String} (h : ∀ p ∈ parts, ¬ Marked p) :
    ¬ Marked ("|".intercalate parts) := by
  match parts with
  | [] => decide
  | [p] => simpa using h
  | p :: q :: parts =>
    rw [String.intercalate_cons_cons, marked_append_bar_iff]
    exact h p List.mem_cons_self

theorem members_intercalate {parts : List String} (h : ∀ p ∈ parts, ¬ Marked p) :
    members ("|".intercalate parts) = parts.flatMap members := by
  match parts with
  | [] => decide +kernel
  | [p] => simp
  | p :: q :: parts =>
    have hrest : ∀ r ∈ q :: parts, ¬ Marked r := fun r hr => h r (List.mem_cons_of_mem p hr)
    rw [String.intercalate_cons_cons, members_append_bar p (not_marked_intercalate hrest),
      members_intercalate hrest]
    simp only [List.flatMap_cons]

/-! ## Ways to write an alternative -/

/-- One alternative as it is written: a name with any number of backslashes in front of it and
    blanks around it. -/
structure Alternative where
  before : List Char
  slashes : Nat
  name : List Char
  after : List Char
  blank_before : ∀ c ∈ before, isBlank c = true
  blank_after : ∀ c ∈ after, isBlank c = true
  /-- The name starts neither with what is taken off in front of it, nor with the mark. -/
  head_name : ∀ c, name.head? = some c → isBlank c = false ∧ c ≠ '\\' ∧ c ≠ '?'
  last_name : ∀ c, name.getLast? = some c → isBlank c = false
  one_name : '|' ∉ name

namespace Alternative

variable (p : Alternative)

/-- The name with its backslashes. -/
def qualified : List Char :=
  List.replicate p.slashes '\\' ++ p.name

def text : String :=
  String.ofList (p.before ++ p.qualified ++ p.after)

/-- The name of the member that the alternative stands for. -/
def member : String :=
  Text.lowercase (String.ofList p.name)

theorem toList_text : p.text.toList = p.before ++ p.qualified ++ p.after := by
  simp [text]

theorem trimChars_qualified : trimChars p.qualified = p.qualified := by
  have hslash : isBlank '\\' = false := by decide
  unfold qualified
  refine Text.trimChars_eq_self ?_ ?_
  · intro c hc
    rw [List.head?_append, List.head?_replicate] at hc
    split at hc
    · exact (p.head_name c hc).1
    · simp at hc
      exact hc ▸ hslash
  · intro c hc
    rw [List.getLast?_append, List.getLast?_replicate, Option.or_eq_some_iff] at hc
    rcases hc with hc | ⟨-, hc⟩
    · exact p.last_name c hc
    · simp at hc
      exact hc.2 ▸ hslash

theorem trimChars_text : trimChars p.text.toList = p.qualified := by
  rw [toList_text, Text.trimChars_append_blanks p.blank_after,
    Text.trimChars_blanks_append p.blank_before, trimChars_qualified]

theorem not_marked : ¬ Marked p.text := by
  unfold Marked
  rw [trimChars_text, qualified, List.head?_append, List.head?_replicate]
  split
  · intro hmark
    exact (p.head_name '?' hmark).2.2 rfl
  · simp

theorem unqualifyChars_qualified : Text.unqualifyChars p.qualified = p.name := by
  have hname : Text.unqualifyChars p.name = p.name := by
    refine Text.unqualifyChars_of_head? ?_
    intro hhead
    exact (p.head_name '\\' hhead).2.1 rfl
  unfold qualified
  rw [Text.unqualifyChars, List.dropWhile_append_of_pos (by simp)]
  exact hname

/-- An alternative has its name for a member, unless the name does not count. -/
theorem members_text : members p.text = [p.member].filter fun m => m ≠ "null" ∧ m ≠ "" := by
  have hbar : '|' ∉ p.qualified := by
    unfold qualified
    simp [p.one_name]
  have hcore : core p.text = p.qualified := by
    unfold core
    rw [withoutNullMark_of_head? p.not_marked, trimChars_text]
  have hname : memberName p.qualified = p.member := by
    unfold memberName
    rw [trimChars_qualified, unqualifyChars_qualified, member, Text.lowercase,
      String.toList_ofList]
  rw [members_eq, hcore, memberNames, alternatives_of_no_bar hbar, List.map_singleton, hname]

end Alternative

/-- The members of a union are the names of its alternatives, however they are written, without
    those that do not count. -/
theorem members_intercalate_text (parts : List Alternative) :
    members ("|".intercalate (parts.map Alternative.text))
      = (parts.map Alternative.member).filter fun m => m ≠ "null" ∧ m ≠ "" := by
  have hparts : ∀ t ∈ parts.map Alternative.text, ¬ Marked t := by
    simp only [List.mem_map]
    rintro t ⟨p, -, rfl⟩
    exact p.not_marked
  rw [members_intercalate hparts, List.flatMap_map, List.map_eq_flatMap, List.filter_flatMap]
  simp only [Alternative.members_text]

end DeclaredType

/-! ## Answers of a configuration -/

namespace Config

open DeclaredType (members Marked Alternative)

variable (c : Config)

/-- The configuration answers for the declared type by the given members alone. -/
def AnswersBy (declared : String) (names : List String) : Prop :=
  (c.isScalar (some declared) = true ↔ names ≠ [] ∧ ∀ m ∈ names, m ∈ c.scalarNames)
  ∧ (c.isCollection (some declared) = true ↔ names ≠ [] ∧ ∀ m ∈ names, m ∈ c.collectionNames)
  ∧ (c.isScalarLike (some declared) = true
      ↔ names ≠ [] ∧ ∀ m ∈ names, m ∈ c.scalarNames ∨ m ∈ c.collectionNames)

theorem answersBy_members (declared : String) : c.AnswersBy declared (members declared) := by
  refine ⟨DeclaredType.consistsOf_some_iff _ declared, DeclaredType.consistsOf_some_iff _ declared,
    ?_⟩
  simp only [← List.mem_append]
  exact DeclaredType.consistsOf_some_iff _ declared

/-- No name is that of a scalar type and of a collection type. -/
theorem not_mem_collectionNames {m : String} (h : m ∈ c.scalarNames) :
    m ∉ c.collectionNames := by
  intro hcollection
  have hoverlap : m ∈ c.toSettings.overlap := by
    simp [Settings.overlap, show m ∈ lowered c.scalarTypes from h,
      show m ∈ lowered c.collectionTypes from hcollection]
  rw [c.overlap_eq_nil] at hoverlap
  exact List.not_mem_nil hoverlap

theorem not_isScalar_and_isCollection (declared : Option String) :
    ¬ (c.isScalar declared = true ∧ c.isCollection declared = true) := by
  rintro ⟨hscalar, hcollection⟩
  obtain ⟨⟨m, hm⟩, hall⟩ := (DeclaredType.consistsOf_iff _ declared).1 hscalar
  have hm' := ((DeclaredType.consistsOf_iff _ declared).1 hcollection).2 m hm
  exact c.not_mem_collectionNames (hall m hm) hm'

theorem isScalarLike_of_isCollection {declared : Option String}
    (h : c.isCollection declared = true) : c.isScalarLike declared = true := by
  obtain ⟨hmember, hall⟩ := (DeclaredType.consistsOf_iff _ declared).1 h
  refine (DeclaredType.consistsOf_iff _ declared).2 ⟨hmember, ?_⟩
  intro m hm
  exact List.mem_append_right _ (hall m hm)

/-- **Declared types are read as sets of members.** A union has the members of both sides, if the
    second one has no mark of its own. So what a configuration answers for it depends on the members
    of both sides alone; and for alternatives written in any way, on the set of their names without
    case and without `null`. No type is scalar and a collection at once, and each of the two is
    plain. -/
theorem unions_read_by_members :
    (∀ a b : String, ¬ Marked b →
      members (a ++ "|" ++ b) = members a ++ members b
      ∧ c.AnswersBy (a ++ "|" ++ b) (members a ++ members b))
    ∧ (∀ parts : List Alternative,
        c.AnswersBy ("|".intercalate (parts.map Alternative.text))
          ((parts.map Alternative.member).filter fun m => m ≠ "null" ∧ m ≠ ""))
    ∧ ∀ declared : Option String,
        ¬ (c.isScalar declared = true ∧ c.isCollection declared = true)
        ∧ (c.isScalar declared = true → c.isScalarLike declared = true)
        ∧ (c.isCollection declared = true → c.isScalarLike declared = true) := by
  refine ⟨?_, ?_, ?_⟩
  · intro a b hb
    have hunion := DeclaredType.members_append_bar a hb
    exact ⟨hunion, hunion ▸ c.answersBy_members (a ++ "|" ++ b)⟩
  · intro parts
    rw [← DeclaredType.members_intercalate_text]
    exact c.answersBy_members _
  · intro declared
    exact ⟨c.not_isScalar_and_isCollection declared, isScalarLike_of_isScalar,
      c.isScalarLike_of_isCollection⟩

/-- `?\INT| null |String` is a union of a nullable type and of a union with a `null` in it. All of
    its members are scalar. -/
theorem unions_read_by_members_nullable :
    ¬ Marked " null |String"
    ∧ members ("?\\INT" ++ "|" ++ " null |String") = ["int", "string"]
    ∧ standard.isScalar (some ("?\\INT" ++ "|" ++ " null |String")) = true := by
  have hmark : ¬ Marked " null |String" := by decide +kernel
  have hleft : members "?\\INT" = ["int"] := by decide +kernel
  have hright : members " null |String" = ["string"] := by decide +kernel
  have hscalar : ∀ m ∈ ["int", "string"], m ∈ standard.scalarNames := by decide +kernel
  obtain ⟨hmembers, hanswer⟩ :=
    (unions_read_by_members standard).1 "?\\INT" " null |String" hmark
  rw [hleft, hright] at hmembers hanswer
  exact ⟨hmark, hmembers, hanswer.1.2 ⟨List.cons_ne_nil _ _, hscalar⟩⟩

end Config

end CallablePurity
