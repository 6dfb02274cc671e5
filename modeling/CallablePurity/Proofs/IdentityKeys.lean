import CallablePurity.Proofs.Nesting
import CallablePurity.Proofs.TypeUnions

set_option autoImplicit false

/-! # Keys of references

The analysis knows a callable again by the key of a reference to it, which is one text: the
qualified name `Class::method`, or the name of a function, without the backslashes in front of it
and in lower case. For ASCII names without a colon nothing is lost in it. Backslashes are dropped up
to the separator at most, lowering works character by character and makes no colon, and so the class
ends where the first colon stands (`Reference.toList_key_method`), while the key of a function has
none. Two keys agree exactly if the references name the same callable in the sense of PHP
(`Reference.key_eq_key_iff`).

Along an analysis, the keys in progress are those of the references in `Analyzer.active`. So a call
of a callable under analysis is known for a recursion in every spelling, and any other target is
looked up (`Analyzer.keys_identify_callables`). One root is not among them: a function whose name is
all backslashes has an empty key, which an analysis does not start with, and it is looked up like
any other function (`Analyzer.asked_for_backslash`). -/

namespace CallablePurity

/-! ## Names -/

namespace Text

/-- ASCII text without a colon. -/
def Ordinary (s : String) : Prop :=
  ∀ c ∈ s.toList, c.toNat < 0x80 ∧ c ≠ ':'

instance (s : String) : Decidable (Ordinary s) :=
  List.decidableBAll _ s.toList

/-- The texts agree but for the case of letters. -/
def SameIgnoringCase (s t : String) : Prop :=
  s.toList.map Char.toLower = t.toList.map Char.toLower

instance (s t : String) : Decidable (SameIgnoringCase s t) :=
  inferInstanceAs (Decidable (_ = _))

theorem Ordinary.unqualify {s : String} (h : Ordinary s) : Ordinary (unqualify s) := by
  intro c hc
  rw [toList_unqualify] at hc
  exact h c ((List.dropWhile_suffix _).subset hc)

theorem Ordinary.colon_notMem {s : String} (h : Ordinary s) :
    ':' ∉ s.toList.map Char.toLower := by
  intro hmem
  obtain ⟨c, hc, hlower⟩ := List.mem_map.1 hmem
  exact toLower_ne (by decide) (h c hc).2 hlower

/-- What stands before the first colon can be told from what follows it. -/
theorem append_colon_inj {as bs as' bs' : List Char} (h : ':' ∉ as) (h' : ':' ∉ as') :
    as ++ ':' :: bs = as' ++ ':' :: bs' ↔ as = as' ∧ bs = bs' := by
  have hfirst (as bs : List Char) (h : ':' ∉ as) :
      (as ++ ':' :: bs).takeWhile (· != ':') = as := by
    rw [List.takeWhile_append_of_pos]
    · simp
    · intro c hc
      rw [bne_iff_ne]
      rintro rfl
      exact h hc
  constructor
  · intro heq
    -- both parts are what the whole has before its first colon
    have has : as = as' := by
      rw [← hfirst as bs h, heq, hfirst as' bs' h']
    subst has
    simpa using heq
  · rintro ⟨rfl, rfl⟩
    rfl

end Text

/-! ## Keys -/

namespace Reference

open Text (Ordinary SameIgnoringCase unqualify unqualifyChars)

/-- Both names of the reference are ASCII text without a colon. -/
structure HasOrdinaryNames (r : Reference) : Prop where
  function : Ordinary r.function.text
  cls : ∀ c, r.cls = some c → Ordinary c.text

/-- The references name the same callable: two functions, or methods of the same class. Case does
    not count, and neither do backslashes in front of the name of a function or a class. -/
def SameCallable (r s : Reference) : Prop :=
  match r.cls, s.cls with
  | none, none => SameIgnoringCase (unqualify r.function.text) (unqualify s.function.text)
  | some c, some d =>
    SameIgnoringCase (unqualify c.text) (unqualify d.text)
      ∧ SameIgnoringCase r.function.text s.function.text
  | _, _ => False

instance : (r s : Reference) → Decidable (SameCallable r s)
  | ⟨_, none⟩, ⟨_, none⟩ => inferInstanceAs (Decidable (SameIgnoringCase _ _))
  | ⟨_, some _⟩, ⟨_, some _⟩ =>
    inferInstanceAs (Decidable (SameIgnoringCase _ _ ∧ SameIgnoringCase _ _))
  | ⟨_, none⟩, ⟨_, some _⟩ => inferInstanceAs (Decidable False)
  | ⟨_, some _⟩, ⟨_, none⟩ => inferInstanceAs (Decidable False)

/-- The key of an ASCII name is lowered character by character. -/
theorem toList_keyOf {qualifiedName : String} (h : ∀ c ∈ qualifiedName.toList, c.toNat < 0x80) :
    (keyOf qualifiedName).toList = (unqualifyChars qualifiedName.toList).map Char.toLower := by
  unfold keyOf
  rw [Text.toList_lowercase, Text.toList_unqualify]
  refine Text.lowerChars_of_ascii _ _ ?_
  intro c hc
  exact h c ((List.dropWhile_suffix _).subset hc)

theorem toList_key_function {f : Ident} (h : Ordinary f.text) :
    (key ⟨f, none⟩).toList = (unqualify f.text).toList.map Char.toLower := by
  rw [Text.toList_unqualify]
  exact toList_keyOf fun c hc => (h c hc).1

/-- No backslash is dropped beyond the separator, so those of the class are. -/
theorem toList_key_method {f c : Ident} (hf : Ordinary f.text) (hc : Ordinary c.text) :
    (key ⟨f, some c⟩).toList
      = (unqualify c.text).toList.map Char.toLower
        ++ ':' :: ':' :: f.text.toList.map Char.toLower := by
  have hname : (name ⟨f, some c⟩).toList = c.text.toList ++ ':' :: ':' :: f.text.toList := by
    simp [name]
  have hascii : ∀ x ∈ (name ⟨f, some c⟩).toList, x.toNat < 0x80 := by
    rw [hname]
    simp only [List.mem_append, List.mem_cons]
    rintro x (hx | rfl | rfl | hx)
    · exact (hc x hx).1
    · decide
    · decide
    · exact (hf x hx).1
  rw [key, toList_keyOf hascii, hname, unqualifyChars, Text.dropWhile_append_cons (by decide),
    Text.toList_unqualify, unqualifyChars, List.map_append]
  rfl

/-- The key of a function has no colon and that of a method has one. -/
theorem key_function_ne_key_method {f g d : Ident} (hf : Ordinary f.text) (hg : Ordinary g.text)
    (hd : Ordinary d.text) : key ⟨f, none⟩ ≠ key ⟨g, some d⟩ := by
  intro heq
  have hcolon : ':' ∈ (key ⟨f, none⟩).toList := by
    rw [heq, toList_key_method hg hd]
    simp
  rw [toList_key_function hf] at hcolon
  exact hf.unqualify.colon_notMem hcolon

/-- Keys agree exactly for the same callable. -/
theorem key_eq_key_iff {r s : Reference} (hr : r.HasOrdinaryNames) (hs : s.HasOrdinaryNames) :
    r.key = s.key ↔ SameCallable r s := by
  obtain ⟨f, cls⟩ := r
  obtain ⟨g, cls'⟩ := s
  have hf : Ordinary f.text := hr.function
  have hg : Ordinary g.text := hs.function
  cases cls with
  | none =>
    cases cls' with
    | none =>
      rw [← String.toList_inj, toList_key_function hf, toList_key_function hg]
      rfl
    | some d =>
      have hne := key_function_ne_key_method hf hg (hs.cls d rfl)
      simp [SameCallable, hne]
  | some c =>
    have hc := hr.cls c rfl
    cases cls' with
    | none =>
      have hne := key_function_ne_key_method hg hf hc
      simp [SameCallable, hne.symm]
    | some d =>
      have hd := hs.cls d rfl
      rw [← String.toList_inj, toList_key_method hf hc, toList_key_method hg hd,
        Text.append_colon_inj hc.unqualify.colon_notMem hd.unqualify.colon_notMem,
        List.cons_inj_right]
      rfl

/-- Only a name of backslashes alone leaves nothing for the key. -/
theorem key_eq_empty_iff (r : Reference) :
    r.key = "" ↔ r.cls = none ∧ ∀ letter ∈ r.function.text.toList, letter = '\\' := by
  have hempty : r.key = "" ↔ ∀ letter ∈ r.name.toList, letter = '\\' := by
    have hunqualified : r.key = "" ↔ unqualify r.name = "" := by
      refine ⟨fun h => Decidable.byContradiction fun hne => Text.lowercase_ne_empty hne h, ?_⟩
      intro h
      unfold key keyOf
      rw [h]
      rfl
    rw [hunqualified, ← String.toList_eq_nil_iff, Text.toList_unqualify, unqualifyChars,
      List.dropWhile_eq_nil_iff]
    simp
  obtain ⟨f, cls⟩ := r
  rw [hempty]
  cases cls with
  | none => simp [name]
  | some c =>
    -- the separator is no backslash
    refine iff_of_false ?_ fun h => Option.some_ne_none c h.1
    intro h
    have hcolon : ':' ∈ (name ⟨f, some c⟩).toList := by
      simp [name]
    exact absurd (h ':' hcolon) (by decide)

theorem key_mem_map_key_iff {r : Reference} {waiting : List Reference} (hr : r.HasOrdinaryNames)
    (hwaiting : ∀ s ∈ waiting, s.HasOrdinaryNames) :
    r.key ∈ waiting.map key ↔ ∃ s ∈ waiting, SameCallable r s := by
  rw [List.mem_map]
  constructor
  · rintro ⟨s, hs, heq⟩
    exact ⟨s, hs, (key_eq_key_iff hr (hwaiting s hs)).1 heq.symm⟩
  · rintro ⟨s, hs, hsame⟩
    exact ⟨s, hs, ((key_eq_key_iff hr (hwaiting s hs)).2 hsame).symm⟩

end Reference

namespace Analyzer

open Reference (SameCallable HasOrdinaryNames)
open Text (Ordinary)
open Step (openLookups running)

/-! ## Callables under analysis -/

/-- The definition of a target is asked for where neither the configuration nor the path to the call
    decides about it. -/
theorem head?_asked_checkTarget (z : Analyzer) (lookup : Lookup) (judge : Judge) (visit : Visit)
    {target : Reference} (hpending : target.isWhitelisted z.config = false)
    (hfresh : target.key ∉ visit.inProgress) :
    (z.checkTarget lookup (some judge) visit target).asked.head? = some target := by
  cases hlookup : lookup target with
  | none =>
    rw [checkTarget_of_unknown z lookup visit hpending hfresh judge hlookup]
    rfl
  | some callee =>
    rw [checkTarget_of_found z lookup visit hpending hfresh judge hlookup]
    dsimp only
    split <;> rfl

/-- What is checked where the keys in progress are those of some references: a call of one of them
    is taken for a recursion however it is spelled, and any other target is looked up, unless it is
    taken to be pure anyway. -/
theorem checkTarget_of_inProgress_eq (z : Analyzer) {visit : Visit} {waiting : List Reference}
    (hvisit : visit.inProgress = waiting.map Reference.key)
    (hwaiting : ∀ s ∈ waiting, s.HasOrdinaryNames) {r : Reference} (hr : r.HasOrdinaryNames) :
    ((∃ s ∈ waiting, SameCallable r s) →
      ∀ lookup judge, z.checkTarget lookup judge visit r = .clean)
    ∧ ((∀ s ∈ waiting, ¬ SameCallable r s) → r.isWhitelisted z.config = false →
      ∀ lookup judge, (z.checkTarget lookup (some judge) visit r).asked.head? = some r) := by
  have hmem := Reference.key_mem_map_key_iff hr hwaiting
  rw [← hvisit] at hmem
  constructor
  · intro hsame lookup judge
    exact checkTarget_of_inProgress z lookup judge _ (hmem.2 hsame)
  · intro hother hpending lookup judge
    refine head?_asked_checkTarget z lookup judge _ hpending ?_
    intro hkey
    obtain ⟨s, hs, hsame⟩ := hmem.1 hkey
    exact hother s hs hsame

/-! ## Analyses -/

/-- The references that the callables in progress are known by, where some steps of an analysis have
    been made: those of the open lookups and, unless its key is empty, the one of the root. -/
def active (root : Reference) (before : List Step) : List Reference :=
  openLookups (running [] before) ++ [root].filter fun r => r.key ≠ ""

theorem map_key_active (root : Reference) (before : List Step) :
    (active root before).map Reference.key
      = (openLookups (running [] before)).map Reference.key
        ++ (startVisit (some root.key)).inProgress := by
  unfold active startVisit
  by_cases hkey : root.key = "" <;> simp [hkey, Option.filter]

section Analysis

variable {z : Analyzer} {c : Callable} {thisType : Option String} {root : Reference}
  (hroot : rootKey? c thisType = .ok (some root.key)) {before after : List Step}

include hroot

/-- Each judgement is entered with the keys of the active references. -/
theorem inProgress_of_enter {visit : Visit} {subject : BoundCallable}
    (hsplit : (z.tracedAnalysis c thisType).steps = before ++ .enter visit subject :: after) :
    visit.inProgress = (active root before).map Reference.key := by
  have hfollow := follow_tracedAnalysis (z := z) hroot
  rw [hsplit] at hfollow
  rw [map_key_active]
  exact (reflects_of_admissible hfollow.at_step).inProgress_eq

/-- The lookup is not asked for what is active already. -/
theorem key_notMem_of_ask {r : Reference}
    (hsplit : (z.tracedAnalysis c thisType).steps = before ++ .ask r :: after) :
    r.key ∉ (active root before).map Reference.key := by
  have hfollow := follow_tracedAnalysis (z := z) hroot
  rw [hsplit] at hfollow
  rw [map_key_active]
  exact (fresh_of_admissible hfollow.at_step).1

/-- The lookup is never asked for the root, unless its key is empty. -/
theorem key_ne_of_mem_asked (hne : root.key ≠ "") {r : Reference}
    (hr : r ∈ (z.analyze c thisType).asked) : r.key ≠ root.key := by
  rw [← asked_tracedAnalysis hroot, List.mem_filterMap] at hr
  obtain ⟨step, hstep, hask⟩ := hr
  cases step with
  | ask target =>
    obtain rfl := Option.some.inj hask
    obtain ⟨before, after, hsplit⟩ := List.append_of_mem hstep
    have hnotMem := key_notMem_of_ask hroot hsplit
    intro hkey
    refine hnotMem (List.mem_map.2 ⟨root, List.mem_append_right _ ?_, hkey.symm⟩)
    simp [hne]
  | _ => cases hask

/-- A callable that has no offence by itself and calls nothing but itself is pure, and nothing is
    looked up. -/
theorem analyze_of_calls_itself (hne : root.key ≠ "")
    (hclean : BoundCallable.LocallyClean z.config ⟨c, thisType⟩)
    (hself : ∀ r, BoundCallable.Pending z.config ⟨c, thisType⟩ r → r.key = root.key) :
    z.analyze c thisType = .done .pure := by
  have hvisit : (startVisit (some root.key)).inProgress = [root.key] :=
    inProgress_startVisit fun heq => hne (Option.some.inj heq)
  obtain ⟨judge?, hjudge⟩ := judge_eq_judgeWith (z := z) z.config.callBudget
  have hrun : z.judge z.config.callBudget (startVisit (some root.key)) c thisType = .clean := by
    rw [hjudge, judgeWith_eq, hclean.ownOffence?_eq_none]
    dsimp only
    cases z.lookup with
    | none => rfl
    | some lookup =>
      refine Run.firstOffence_eq_clean fun call hcall => ?_
      obtain ⟨r, htarget⟩ := hclean.calls call hcall
      rw [checkCall_eq, ← Resolve.target?_eq_of_no_sideEffect
        (Callable.hasSideEffect_eq_false hclean.ownOffence?_eq_none) hcall z.config z.config
        (BoundCallable.types ⟨c, thisType⟩) _ .empty _, htarget]
      dsimp only
      by_cases hlist : r.isWhitelisted z.config = true
      · exact checkTarget_of_whitelisted z lookup judge? _ hlist
      · have hkey := hself r ⟨⟨call, hcall, htarget⟩, Bool.eq_false_iff.2 hlist⟩
        refine checkTarget_of_inProgress z lookup judge? _ ?_
        rw [hvisit, hkey]
        exact List.mem_singleton_self _
  rw [analyze_eq_judge hroot, hrun]
  rfl

end Analysis

/-- **Keys identify callables.** The keys of two references with ASCII names without a colon agree
    exactly if both name the same function or the same method of the same class. A function, and a
    method of a known class, is under analysis by the key of the reference that names it; the key is
    empty for a function whose name is all backslashes, and for nothing else.

    In the analysis of such a root, a call of an active callable is taken for a recursion however it
    is spelled, and any other target is looked up, unless it is taken to be pure anyway; so the
    lookup is never asked for an active callable in any spelling. The root is active all the time if
    its key is not empty. If it calls nothing but itself then, in whatever spellings, it is found to
    be pure without a question. -/
theorem keys_identify_callables (z : Analyzer) (c : Callable) (thisType : Option String) :
    (∀ r s : Reference, r.HasOrdinaryNames → s.HasOrdinaryNames →
      (r.key = s.key ↔ SameCallable r s))
    ∧ (∀ f, rootKey? (.function f) thisType = .ok (some (Reference.key ⟨f.name, none⟩)))
    ∧ (∀ m (cls : Ident),
      rootKey? (.method m) (some cls.text) = .ok (some (Reference.key ⟨m.name, some cls⟩)))
    ∧ (∀ r : Reference,
      r.key = "" ↔ r.cls = none ∧ ∀ letter ∈ r.function.text.toList, letter = '\\')
    ∧ ∀ root : Reference,
        rootKey? c thisType = .ok (some root.key) →
        let steps := (z.tracedAnalysis c thisType).steps
        steps.filterMap Step.asked? = (z.analyze c thisType).asked
        ∧ (∀ before visit subject after, steps = before ++ .enter visit subject :: after →
            (∀ s ∈ active root before, s.HasOrdinaryNames) → ∀ r : Reference, r.HasOrdinaryNames →
            ((∃ s ∈ active root before, SameCallable r s) →
              ∀ lookup judge, z.checkTarget lookup judge visit r = .clean)
            ∧ ((∀ s ∈ active root before, ¬ SameCallable r s) → r.isWhitelisted z.config = false →
              ∀ lookup judge, (z.checkTarget lookup (some judge) visit r).asked.head? = some r))
        ∧ (∀ before r after, steps = before ++ .ask r :: after → r.HasOrdinaryNames →
            ∀ s ∈ active root before, s.HasOrdinaryNames → ¬ SameCallable r s)
        ∧ (root.key ≠ "" → root.HasOrdinaryNames →
            (∀ before, root ∈ active root before)
            ∧ (∀ r ∈ (z.analyze c thisType).asked, r.HasOrdinaryNames → ¬ SameCallable r root)
            ∧ (BoundCallable.LocallyClean z.config ⟨c, thisType⟩ →
                (∀ r, BoundCallable.Pending z.config ⟨c, thisType⟩ r →
                  r.HasOrdinaryNames ∧ SameCallable r root) →
                z.analyze c thisType = .done .pure)) := by
  refine ⟨fun r s hr hs => Reference.key_eq_key_iff hr hs, fun f => rootKey?_function f thisType,
    rootKey?_method, Reference.key_eq_empty_iff, ?_⟩
  intro root hroot steps
  refine ⟨asked_tracedAnalysis hroot, ?_, ?_, ?_⟩
  · intro before visit subject after hsplit hactive r hr
    exact checkTarget_of_inProgress_eq z (inProgress_of_enter hroot hsplit) hactive hr
  · intro before r after hsplit hr s hs hnames hsame
    refine key_notMem_of_ask hroot hsplit (List.mem_map.2 ⟨s, hs, ?_⟩)
    exact ((Reference.key_eq_key_iff hr hnames).2 hsame).symm
  · intro hne hnames
    refine ⟨fun before => List.mem_append_right _ (by simp [hne]), ?_, ?_⟩
    · intro r hr hrnames hsame
      exact key_ne_of_mem_asked hroot hne hr ((Reference.key_eq_key_iff hrnames hnames).2 hsame)
    · intro hclean hself
      refine analyze_of_calls_itself hroot hne hclean fun r hr => ?_
      obtain ⟨hrnames, hsame⟩ := hself r hr
      exact (Reference.key_eq_key_iff hrnames hnames).2 hsame

/-! ### Spellings of a method -/

namespace Spelled

/-- `\Shop\Cart::add()` -/
def written : Reference := ⟨⟨"add", by decide⟩, some ⟨"\\Shop\\Cart", by decide⟩⟩

/-- `shop\cart::ADD()` -/
def shouted : Reference := ⟨⟨"ADD", by decide⟩, some ⟨"shop\\cart", by decide⟩⟩

/-- `add()` -/
def function : Reference := ⟨⟨"add", by decide⟩, none⟩

theorem hasOrdinaryNames : ∀ r ∈ [written, shouted, function], r.HasOrdinaryNames := by
  have hnames : ∀ r ∈ [written, shouted, function],
      Text.Ordinary r.function.text ∧ ∀ c ∈ r.cls.toList, Text.Ordinary c.text := by
    decide +kernel
  intro r hr
  refine ⟨(hnames r hr).1, ?_⟩
  intro c hc
  exact (hnames r hr).2 c (Option.mem_toList.2 hc)

end Spelled

/-- A method is the same in both spellings, and the function of that name is not. A function that
    calls itself in two other spellings is pure, whatever the lookup would answer, and it is not
    asked. -/
theorem keys_identify_callables_spelled :
    (∀ r ∈ [Spelled.written, Spelled.shouted, Spelled.function], r.HasOrdinaryNames)
    ∧ Spelled.written.key = Spelled.shouted.key
    ∧ Spelled.function.key ≠ Spelled.written.key
    ∧ ∀ lookup, (following .standard lookup).analyze
        (.calling Spelled.function.function [⟨"ADD", by decide⟩, ⟨"\\Add", by decide⟩]) none
          = .done .pure := by
  have hidentify (lookup) := keys_identify_callables (following .standard lookup)
    (.calling Spelled.function.function [⟨"ADD", by decide⟩, ⟨"\\Add", by decide⟩]) none
  obtain ⟨hkey, -⟩ := hidentify fun _ => none
  have hnames := Spelled.hasOrdinaryNames
  obtain ⟨hwritten, hshouted, hfunction, -⟩ := by
    simpa only [List.forall_mem_cons] using hnames
  have hsame : SameCallable Spelled.shouted Spelled.written := by
    constructor <;> decide +kernel
  refine ⟨hnames, ((hkey _ _ hshouted hwritten).2 hsame).symm, ?_, ?_⟩
  · intro heq
    exact (hkey _ _ hfunction hwritten).1 heq
  · intro lookup
    obtain ⟨-, hfunctionKey, -, -, hanalysis⟩ := hidentify lookup
    obtain ⟨-, -, -, hrecursion⟩ := hanalysis Spelled.function (hfunctionKey _)
    refine (hrecursion (by decide +kernel) hfunction).2.2
      (BoundCallable.locallyClean_calling _ _ _ _) ?_
    intro r hr
    obtain ⟨f, hf, rfl, -⟩ := (BoundCallable.pending_calling_iff _ _ _ _ r).1 hr
    have hspelled : ∀ f ∈ [(⟨"ADD", by decide⟩ : Ident), ⟨"\\Add", by decide⟩],
        Ordinary f.text ∧ SameCallable ⟨f, none⟩ Spelled.function := by
      decide +kernel
    exact ⟨⟨(hspelled f hf).1, nofun⟩, (hspelled f hf).2⟩

/-- The function with the name `\` is ordinary, and it calls itself by its own name; the lookup is
    asked for it all the same. -/
theorem asked_for_backslash :
    let z : Analyzer := { config := Backslash.config, lookup := some Backslash.lookup }
    let own : Reference := ⟨Backslash.backslash, none⟩
    own.HasOrdinaryNames ∧ SameCallable own own
    ∧ rootKey? Backslash.root none = .ok (some own.key)
    ∧ own ∈ (z.analyze Backslash.root none).asked := by
  intro z own
  have hkey : rootKey? Backslash.root none = .ok (some own.key) := rfl
  refine ⟨⟨by decide, nofun⟩, rfl, hkey, ?_⟩
  have hstart : startVisit (some own.key) = ⟨[], 0⟩ := by
    rw [Backslash.key_backslash]
    rfl
  obtain ⟨rest, hrest⟩ := steps_tracedJudge_calling Backslash.config Backslash.lookup 0 ⟨[], 0⟩
    Backslash.backslash Backslash.backslash [Backslash.g] none (by decide +kernel) List.not_mem_nil
  have hsteps : (z.tracedAnalysis Backslash.root none).steps
      = .enter ⟨[], 0⟩ ⟨Backslash.root, none⟩ :: .ask own :: rest := by
    rw [steps_tracedAnalysis hkey, hstart]
    exact hrest
  rw [← asked_tracedAnalysis hkey, hsteps]
  exact List.mem_cons_self

end Analyzer

end CallablePurity
