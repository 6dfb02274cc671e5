import CallablePurity.Proofs.TypeUnions
import CallablePurity.Resolve

set_option autoImplicit false

/-! # Classes of receivers

The declared type of a receiver is read twice. The classification of accesses reads it as a set of
members; the resolution of calls reads it as the name of one class. Where a method call is resolved,
both see the same name (`Resolve.resolved_class_is_only_member`): the type has no member other than
the class, written without blanks and backslashes in front of it and in lower case, and it is no
plain type.

The second reading does not take these blanks and backslashes off before it asks whether the type
names a particular class. So a type such as `? null` or `\mixed`, which has no member or one that is
no class, is taken for a class. Types in which neither a blank nor a backslash stands in front of
the name are read in the same way by both. -/

namespace CallablePurity

/-! ## Texts with something in front of them -/

namespace Text

/-- The text starts with a blank or with a backslash. -/
def Padded (s : String) : Prop :=
  ∃ c, s.toList.head? = some c ∧ (isBlank c = true ∨ c = '\\')

theorem getLast?_trimChars {cs : List Char} {c : Char} (h : (trimChars cs).getLast? = some c) :
    isBlank c = false := by
  obtain ⟨hne, rfl⟩ := List.mem_getLast?_eq_getLast h
  exact Bool.eq_false_iff.2 (List.rdropWhile_last_not isBlank (cs.dropWhile isBlank) hne)

end Text

namespace DeclaredType

open Text (isBlank trimChars)

theorem getLast?_core {declared : String} {c : Char} (h : (core declared).getLast? = some c) :
    isBlank c = false := by
  have hsuffix (cs : List Char) : withoutNullMark cs <:+ cs := by
    unfold withoutNullMark
    split
    · exact List.suffix_cons _ _
    · exact List.suffix_refl _
  obtain ⟨mark, hmark⟩ := hsuffix (trimChars declared.toList)
  have hlast : (trimChars declared.toList).getLast? = some c := by
    unfold core at h
    rw [← hmark, List.getLast?_append, h]
    rfl
  exact Text.getLast?_trimChars hlast

/-- A type without a bar has one alternative. -/
theorem members_of_no_bar {declared : String} (h : '|' ∉ core declared) :
    members declared = [memberName (core declared)].filter fun m => m ≠ "null" ∧ m ≠ "" := by
  rw [members_eq, memberNames, alternatives_of_no_bar h, List.map_singleton]

end DeclaredType

theorem Reference.ofNames_eq_ok_iff (function cls : String) (r : Reference) :
    ofNames function (some cls) = .ok r
      ↔ function = r.function.text ∧ ∃ c, r.cls = some c ∧ cls = c.text := by
  constructor
  · intro h
    unfold ofNames Ident.ofText? at h
    by_cases hfunction : function = ""
    · simp [hfunction] at h
    · by_cases hcls : cls = ""
      · simp [hfunction, hcls] at h
      · simp only [hfunction, hcls, dite_false, Except.ok.injEq] at h
        subst h
        exact ⟨rfl, _, rfl, rfl⟩
  · rintro ⟨rfl, c, hc, rfl⟩
    obtain ⟨function, cls⟩ := r
    subst hc
    simp [ofNames]

namespace Resolve

open DeclaredType (members core memberName)

/-! ## What is resolved -/

theorem classOf?_eq_some_iff (config : Config) (declared cls : String) :
    classOf? config (some declared) = some cls
      ↔ config.isScalarLike (some declared) = false ∧ '|' ∉ core declared
        ∧ Text.lowercase (String.ofList (core declared)) ∉ classlessTypes
        ∧ String.ofList (core declared) = cls := by
  unfold classOf?
  by_cases hplain : config.isScalarLike (some declared) = true
  · simp [hplain]
  · simp [hplain, and_assoc]

/-- A method call on a variable is resolved to the class of its declared type. -/
theorem target?_receiver_eq_some_iff (config : Config) (types : TypeMap)
    (values : OrderedMap String String) (receiver : Ident) (member : Member) (args : List Expr)
    (r : Reference) :
    target? config types values (.expr (.methodCall (.var (.named receiver)) member args))
        = .ok (some r)
      ↔ member = .named r.function.text
        ∧ ∃ c, r.cls = some c ∧ classOf? config (types.typeOf receiver.text) = some c.text := by
  cases member with
  | computed e => simp [target?]
  | named name =>
    simp only [target?, Member.named.injEq]
    cases hcls : classOf? config (types.typeOf receiver.text) with
    | none => simp
    | some cls =>
      have hmap (x : Except ReferenceFault Reference) : x.map some = .ok (some r) ↔ x = .ok r := by
        cases x <;> simp [Except.map]
      simp only [hmap, Reference.ofNames_eq_ok_iff, Option.some.injEq]

/-! ## Both readings of a declared type -/

/-- The name under which a class is known: without blanks around it and backslashes in front of it,
    in lower case. -/
def knownAs (cls : String) : String :=
  Text.lowercase (Text.unqualify (Text.trim cls))

theorem memberName_eq_knownAs (cls : String) : memberName cls.toList = knownAs cls := by
  simp [memberName, knownAs, Text.lowercase]

/-- Read as a set, the declared type has the class for its only member; and this is a particular
    class, and no plain type. -/
structure NamesClass (config : Config) (declared cls : String) : Prop where
  members_eq : members declared = [knownAs cls]
  particular : knownAs cls ∉ classlessTypes
  not_scalar : knownAs cls ∉ config.scalarNames
  not_collection : knownAs cls ∉ config.collectionNames

section Class

variable {config : Config} {declared cls : String}
  (h : classOf? config (some declared) = some cls)

include h

/-- A type that is read as a class has no other member. -/
theorem members_of_classOf? :
    members declared = [knownAs cls].filter fun m => m ≠ "null" ∧ m ≠ "" := by
  obtain ⟨-, hbar, -, rfl⟩ := (classOf?_eq_some_iff config declared cls).1 h
  rw [DeclaredType.members_of_no_bar hbar, ← memberName_eq_knownAs, String.toList_ofList]

/-- The two readings agree unless the only alternative of the type is no particular class. -/
theorem namesClass_iff :
    NamesClass config declared cls ↔ knownAs cls ≠ "" ∧ knownAs cls ∉ classlessTypes := by
  have hmembers := members_of_classOf? h
  constructor
  · intro hclass
    refine ⟨?_, hclass.particular⟩
    intro hempty
    rw [hclass.members_eq, hempty] at hmembers
    simp at hmembers
  · rintro ⟨hne, hparticular⟩
    have hnull : knownAs cls ≠ "null" := by
      intro hnull
      exact hparticular (hnull ▸ by decide)
    have hsingle : members declared = [knownAs cls] := by
      rw [hmembers]
      simp [hne, hnull]
    -- a type with a plain name for its only member would be plain
    have hplain : knownAs cls ∉ config.scalarNames ++ config.collectionNames := by
      intro hknown
      have hlike : config.isScalarLike (some declared) = true := by
        refine (DeclaredType.consistsOf_some_iff _ declared).2 ?_
        rw [hsingle]
        simpa using hknown
      rw [((classOf?_eq_some_iff config declared cls).1 h).1] at hlike
      cases hlike
    rw [List.mem_append, not_or] at hplain
    exact ⟨hsingle, hparticular, hplain.1, hplain.2⟩

/-- A class without a blank or a backslash in front of it is known by its lower-case form. -/
theorem knownAs_eq_lowercase (hpadded : ¬ Text.Padded cls) : knownAs cls = Text.lowercase cls := by
  obtain ⟨-, -, -, rfl⟩ := (classOf?_eq_some_iff config declared cls).1 h
  have hhead (c : Char) (hc : (core declared).head? = some c) :
      Text.isBlank c = false ∧ c ≠ '\\' := by
    constructor
    · refine Bool.eq_false_iff.2 ?_
      intro hblank
      exact hpadded ⟨c, by simpa using hc, Or.inl hblank⟩
    · intro hslash
      exact hpadded ⟨c, by simpa using hc, Or.inr hslash⟩
  have htrim : Text.trimChars (core declared) = core declared :=
    Text.trimChars_eq_self (fun c hc => (hhead c hc).1) fun c hc => DeclaredType.getLast?_core hc
  have hunqualify : Text.unqualifyChars (core declared) = core declared :=
    Text.unqualifyChars_of_head? fun hslash => (hhead '\\' hslash).2 rfl
  simp [knownAs, Text.lowercase, htrim, hunqualify]

theorem namesClass_of_not_padded (hpadded : ¬ Text.Padded cls) (hne : cls ≠ "") :
    NamesClass config declared cls := by
  obtain ⟨-, -, hclassless, hcls⟩ := (classOf?_eq_some_iff config declared cls).1 h
  rw [namesClass_iff h, knownAs_eq_lowercase h hpadded]
  exact ⟨Text.lowercase_ne_empty hne, hcls ▸ hclassless⟩

end Class

/-- **Both readings of a resolved receiver see one name.** Where a method call on a variable is
    resolved to a class, the declared type of the variable has no member but that class. The type
    does have it for its only member, and it is a particular class and no plain type, unless nothing
    is left of its name or the name is one of those that stand for no class; and that takes a blank
    or a backslash in front of the name. -/
theorem resolved_class_is_only_member {config : Config} {types : TypeMap}
    {values : OrderedMap String String} {receiver : Ident} {member : Member} {args : List Expr}
    {r : Reference}
    (h : target? config types values (.expr (.methodCall (.var (.named receiver)) member args))
      = .ok (some r)) :
    ∃ (declared : String) (cls : Ident), types.typeOf receiver.text = some declared
      ∧ r.cls = some cls
      ∧ members declared = [knownAs cls.text].filter (fun m => m ≠ "null" ∧ m ≠ "")
      ∧ (NamesClass config declared cls.text
          ↔ knownAs cls.text ≠ "" ∧ knownAs cls.text ∉ classlessTypes)
      ∧ (¬ Text.Padded cls.text → NamesClass config declared cls.text) := by
  obtain ⟨-, cls, hr, hcls⟩ := (target?_receiver_eq_some_iff ..).1 h
  cases hdeclared : types.typeOf receiver.text with
  | none =>
    rw [hdeclared] at hcls
    cases hcls
  | some declared =>
    rw [hdeclared] at hcls
    refine ⟨declared, cls, rfl, hr, members_of_classOf? hcls, namesClass_iff hcls, ?_⟩
    intro hpadded
    exact namesClass_of_not_padded hcls hpadded cls.nonempty

/-! ### Receivers of some declared types -/

namespace Archived

def invoice : Ident := ⟨"invoice", by decide⟩

def archive : Ident := ⟨"archive", by decide⟩

/-- `$invoice->archive()` -/
def call : Expr := .methodCall (.var (.named invoice)) (.named "archive") []

/-- The types where `$invoice` is declared with the given one. -/
def types (declared : String) : TypeMap :=
  .ofList [("invoice", some declared)] (by simp)

theorem typeOf_invoice (declared : String) :
    (types declared).typeOf invoice.text = some declared := by
  show ((OrderedMap.ofList [("invoice", some declared)]).get? "invoice").join = some declared
  rw [OrderedMap.get?_ofList]
  rfl

theorem target?_call {declared : String} (cls : Ident)
    (h : classOf? .standard (some declared) = some cls.text) :
    target? .standard (types declared) .empty (.expr call) = .ok (some ⟨archive, some cls⟩) := by
  refine (target?_receiver_eq_some_iff ..).2 ⟨rfl, cls, rfl, ?_⟩
  rw [typeOf_invoice]
  exact h

end Archived

/-- An `$invoice` of type `? \Account` is taken for an object of the class ` \Account`, which both
    readings know as `account`. -/
theorem resolved_class_is_only_member_qualified :
    target? .standard (Archived.types "? \\Account") .empty (.expr Archived.call)
        = .ok (some ⟨Archived.archive, some ⟨" \\Account", by decide⟩⟩)
    ∧ knownAs " \\Account" = "account"
    ∧ NamesClass .standard "? \\Account" " \\Account" := by
  have hclass : classOf? .standard (some "? \\Account") = some " \\Account" := by decide +kernel
  have htarget := Archived.target?_call ⟨" \\Account", by decide⟩ hclass
  have hknown : knownAs " \\Account" = "account" := by decide +kernel
  obtain ⟨declared, cls, hdeclared, hcls, -, hagree, -⟩ := resolved_class_is_only_member htarget
  rw [Archived.typeOf_invoice, Option.some.injEq] at hdeclared
  rw [Option.some.injEq] at hcls
  subst hdeclared hcls
  refine ⟨htarget, hknown, hagree.2 ?_⟩
  rw [hknown]
  decide

/-- The two readings do differ: `? null` has no member and `\mixed` has one that is no class, but
    calls on receivers of these types are resolved. -/
theorem padded_types_taken_for_classes :
    target? .standard (Archived.types "? null") .empty (.expr Archived.call)
        = .ok (some ⟨Archived.archive, some ⟨" null", by decide⟩⟩)
    ∧ members "? null" = []
    ∧ target? .standard (Archived.types "\\mixed") .empty (.expr Archived.call)
        = .ok (some ⟨Archived.archive, some ⟨"\\mixed", by decide⟩⟩)
    ∧ members "\\mixed" = ["mixed"] ∧ "mixed" ∈ classlessTypes := by
  have hnull : classOf? .standard (some "? null") = some " null" := by decide +kernel
  have hmixed : classOf? .standard (some "\\mixed") = some "\\mixed" := by decide +kernel
  exact ⟨Archived.target?_call ⟨" null", by decide⟩ hnull, by decide +kernel,
    Archived.target?_call ⟨"\\mixed", by decide⟩ hmixed, by decide +kernel, by decide⟩

end Resolve

end CallablePurity
