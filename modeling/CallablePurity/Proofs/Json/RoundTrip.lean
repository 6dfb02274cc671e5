import CallablePurity.Proofs.Json.Text
import Mathlib.Algebra.Order.BigOperators.Group.List
import Mathlib.Algebra.Order.Ring.Canonical
import Mathlib.Algebra.Order.Ring.Nat
import Mathlib.Data.List.Forall2

set_option autoImplicit false

/-! # What is written can be read

A document that is written in any layout is ASCII, and it reads back as the same document, but for
texts in which both halves of a surrogate pair stand side by side (`read?_render`). Each reader of
one construct takes what the printer writes for it, after any blanks and before anything that does
not continue it (`Reads`); the containers of the format, with their four ways to be laid out, need
one statement for all of them (`content?_enclose`). -/

namespace CallablePurity.Json

open Wording (codePoints)

mutual

/-- A document of a report, as it is read. -/
def value : Json → Value
  | bool b => .bool b
  | nat n => .number n 0
  | text s => .text (joinPairs s)
  | array items => .array (itemValues items)
  | object fields => .object (fieldValues fields)

def itemValues : List Json → List Value
  | [] => []
  | item :: rest => item.value :: itemValues rest

def fieldValues : List (String × Json) → List (List CodePoint × Value)
  | [] => []
  | (key, item) :: rest => (codePoints key, item.value) :: fieldValues rest

end

theorem itemValues_eq_map (items : List Json) : itemValues items = items.map value := by
  induction items with
  | nil => rfl
  | cons item rest ih => rw [itemValues, ih, List.map_cons]

theorem fieldValues_eq_map (fields : List (String × Json)) :
    fieldValues fields = fields.map fun field => (codePoints field.1, field.2.value) := by
  induction fields with
  | nil => rfl
  | cons field rest ih => rw [fieldValues, ih, List.map_cons]

/-! ## Blanks -/

/-- Only blanks. -/
def Blank (cs : List Char) : Prop :=
  ∀ c ∈ cs, isBlank c = true

theorem blank_nil : Blank [] := by
  simp [Blank]

theorem blank_space : Blank [' '] := by
  simp [Blank, isBlank]

theorem blank_lineBreak (layout : Layout) (level : Nat) : Blank (layout.lineBreak level) := by
  intro c hc
  cases layout with
  | compact => cases hc
  | lines step =>
    rcases List.mem_cons.1 hc with rfl | hc
    · rfl
    · rw [List.eq_of_mem_replicate hc]
      rfl

/-- The characters between two items are a comma and blanks. -/
theorem separator_eq (layout : Layout) (level : Nat) :
    ∃ blanks, layout.separator level = ',' :: blanks ∧ Blank blanks := by
  cases layout with
  | compact => exact ⟨[' '], rfl, blank_space⟩
  | lines step => exact ⟨_, rfl, blank_lineBreak (.lines step) level⟩

theorem next?_append {blanks : List Char} (hblanks : Blank blanks) {c : Char}
    (hc : isBlank c = false) (rest : List Char) :
    next? (blanks ++ c :: rest) = some (c, rest) := by
  have hdrop : (blanks ++ c :: rest).dropWhile isBlank = c :: rest := by
    rw [List.dropWhile_append_of_pos hblanks, List.dropWhile_cons_of_neg (by simp [hc])]
  rw [next?, hdrop]

/-! ## Numbers -/

/-- What follows a number and does not continue it. -/
def EndsNumber (rest : List Char) : Prop :=
  ∀ c more, rest = c :: more → c.isDigit = false ∧ c ≠ '.' ∧ c ≠ 'e' ∧ c ≠ 'E'

theorem eq_zero_of_head?_toDigits (n : Nat) (h : (Nat.toDigits 10 n).head? = some '0') : n = 0 := by
  induction n using Nat.strongRecOn with
  | ind n ih =>
    rw [Nat.toDigits_eq_if (by decide)] at h
    split at h
    · next hlt =>
      have hall : ∀ d : Fin 10, d.val.digitChar = '0' → d.val = 0 := by decide
      exact hall ⟨n, hlt⟩ (Option.some.inj h)
    · next hge =>
      rw [List.head?_append_of_ne_nil _ Nat.toDigits_ne_nil] at h
      have hzero := ih (n / 10) (by omega) h
      omega

theorem exists_toDigits_eq_cons (n : Nat) :
    ∃ d more, Nat.toDigits 10 n = d :: more ∧ d.isDigit = true := by
  obtain ⟨d, more, hcons⟩ := List.exists_cons_of_ne_nil (Nat.toDigits_ne_nil (b := 10) (n := n))
  refine ⟨d, more, hcons, Nat.isDigit_of_mem_toDigits (b := 10) (n := n) (by decide) (by decide) ?_⟩
  rw [hcons]
  exact List.mem_cons_self

theorem digits?_append {digits rest : List Char} (hne : digits ≠ [])
    (hdigits : ∀ c ∈ digits, c.isDigit = true) (hrest : EndsNumber rest) :
    digits? (digits ++ rest) = some (digits, rest) := by
  have htake : rest.takeWhile Char.isDigit = [] := by
    cases rest with
    | nil => rfl
    | cons c more => rw [List.takeWhile_cons_of_neg (by simp [(hrest c more rfl).1])]
  have hdrop : rest.dropWhile Char.isDigit = rest := by
    cases rest with
    | nil => rfl
    | cons c more => rw [List.dropWhile_cons_of_neg (by simp [(hrest c more rfl).1])]
  obtain ⟨d, more, rfl⟩ := List.exists_cons_of_ne_nil hne
  rw [digits?, List.takeWhile_append_of_pos hdigits, htake, List.append_nil,
    List.dropWhile_append_of_pos hdigits, hdrop]

/-- A count is read as it is written: it has no leading zero, no fraction and no exponent. -/
theorem number?_toDigits (n : Nat) {rest : List Char} (hrest : EndsNumber rest) :
    number? (Nat.toDigits 10 n ++ rest) = some (.number n 0, rest) := by
  have hdigits : ∀ c ∈ Nat.toDigits 10 n, c.isDigit = true := fun c hc =>
    Nat.isDigit_of_mem_toDigits (by decide) (by decide) hc
  have hminus : minus (Nat.toDigits 10 n ++ rest) = (1, Nat.toDigits 10 n ++ rest) := by
    obtain ⟨d, more, hcons, hd⟩ := exists_toDigits_eq_cons n
    rw [hcons, List.cons_append, minus]
    intro more' heq
    rw [(List.cons.inj heq).1] at hd
    cases hd
  have hwhole : whole? (Nat.toDigits 10 n ++ rest) = some (Nat.toDigits 10 n, rest) := by
    have hzero : ¬ ((Nat.toDigits 10 n).head? = some '0' ∧ Nat.toDigits 10 n ≠ ['0']) := by
      rintro ⟨hhead, hne⟩
      rw [eq_zero_of_head?_toDigits n hhead] at hne
      exact hne rfl
    rw [whole?, digits?_append Nat.toDigits_ne_nil hdigits hrest]
    exact if_neg hzero
  have hfraction : fraction? rest = some ([], rest) := by
    unfold fraction?
    split
    · next more => exact absurd rfl (hrest '.' more rfl).2.1
    · rfl
  have hexponent : exponent? rest = some (0, rest) := by
    unfold exponent?
    split
    · next c more =>
      rw [if_neg]
      rintro (rfl | rfl)
      · exact (hrest _ _ rfl).2.2.1 rfl
      · exact (hrest _ _ rfl).2.2.2 rfl
    · rfl
  simp [number?, hminus, hwhole, hfraction, hexponent, Nat.ofDigitChars_toDigits]

/-! ## Containers -/

section

variable {α : Type}

/-- The reader takes what is written as `x`, after any blanks and before anything that does not
    continue it. -/
structure Reads (reader : Reader α) (written : List Char) (x : α) : Prop where
  starts : ∃ c more, written = c :: more ∧ isBlank c = false ∧ c ≠ ']' ∧ c ≠ '\x7d'
  reads : ∀ {blanks rest : List Char}, Blank blanks → EndsNumber rest →
    reader (blanks ++ (written ++ rest)) = some (x, rest)

/-- The character ends a container. -/
def Closes (c : Char) : Prop :=
  c = ']' ∨ c = '\x7d'

theorem Closes.isBlank {c : Char} (h : Closes c) : isBlank c = false := by
  rcases h with rfl | rfl <;> rfl

theorem Closes.ne_comma {c : Char} (h : Closes c) : c ≠ ',' := by
  rcases h with rfl | rfl <;> decide

theorem endsNumber_comma (rest : List Char) : EndsNumber (',' :: rest) := by
  rintro c more ⟨⟩
  decide

theorem endsNumber_blank {blanks : List Char} (hblanks : Blank blanks) {c : Char} (hc : Closes c)
    (rest : List Char) : EndsNumber (blanks ++ c :: rest) := by
  cases blanks with
  | nil =>
    rintro d more ⟨⟩
    rcases hc with rfl | rfl <;> decide
  | cons b blanks =>
    rintro d more ⟨⟩
    have hb := hblanks b List.mem_cons_self
    simp only [isBlank, Bool.or_eq_true, decide_eq_true_eq] at hb
    rcases hb with ((rfl | rfl) | rfl) | rfl <;> decide

theorem items?_intercalate {item? : Reader α} {closing : Char} (hclosing : Closes closing)
    {separator : List Char} (hseparator : ∃ blanks, separator = ',' :: blanks ∧ Blank blanks)
    {trail : List Char} (htrail : Blank trail) (rest : List Char) {written : List (List Char)}
    {items : List α} (h : List.Forall₂ (Reads item?) written items) (hne : written ≠ [])
    {bound : Nat} (hbound : written.length ≤ bound) {lead : List Char} (hlead : Blank lead) :
    items? item? closing bound
        (lead ++ (separator.intercalate written ++ (trail ++ closing :: rest)))
      = some (items, rest) := by
  obtain ⟨blanks, rfl, hblanks⟩ := hseparator
  induction h generalizing bound lead with
  | nil => exact absurd rfl hne
  | @cons w x written items hx htail ih =>
    obtain _ | bound := bound
    · cases hbound
    cases htail with
    | nil =>
      have hread := hx.reads hlead (endsNumber_blank htrail hclosing rest)
      have hnext := next?_append htrail hclosing.isBlank rest
      simp [items?, hread, hnext, hclosing.ne_comma]
    | @cons w' x' written items hx' htail =>
      have hrest := ih (List.cons_ne_nil w' written) (Nat.le_of_succ_le_succ hbound) hblanks
      have hread := hx.reads hlead (endsNumber_comma (blanks
        ++ ((',' :: blanks).intercalate (w' :: written) ++ (trail ++ closing :: rest))))
      have hnext := next?_append blank_nil (c := ',') rfl (blanks
        ++ ((',' :: blanks).intercalate (w' :: written) ++ (trail ++ closing :: rest)))
      rw [List.intercalate_cons_cons, items?]
      simp only [List.append_assoc, List.cons_append, List.nil_append] at hread hnext hrest ⊢
      simp [hread, hnext, hrest]

theorem sum_length_le_length_intercalate (separator : List Char) (written : List (List Char)) :
    (written.map List.length).sum ≤ (separator.intercalate written).length := by
  induction written with
  | nil => exact Nat.le_refl _
  | cons w written ih =>
    cases written with
    | nil => simp
    | cons w' written =>
      rw [List.intercalate_cons_cons, List.map_cons, List.sum_cons, List.length_append,
        List.length_append]
      omega

theorem length_le_length_intercalate (separator : List Char) {written : List (List Char)}
    (h : ∀ w ∈ written, w ≠ []) : written.length ≤ (separator.intercalate written).length := by
  refine Nat.le_trans ?_ (sum_length_le_length_intercalate separator written)
  rw [← List.length_map List.length]
  refine List.length_le_sum_of_one_le _ fun i hi => ?_
  obtain ⟨w, hw, rfl⟩ := List.mem_map.1 hi
  exact List.length_pos_iff.2 (h w hw)

theorem ne_nil_of_reads {item? : Reader α} {written : List (List Char)} {items : List α}
    (h : List.Forall₂ (Reads item?) written items) : ∀ w ∈ written, w ≠ [] := by
  induction h with
  | nil => exact fun w hw => absurd hw List.not_mem_nil
  | cons hx _ ih =>
    obtain ⟨c, more, rfl, -⟩ := hx.starts
    exact List.forall_mem_cons.2 ⟨List.cons_ne_nil c more, ih⟩

/-- A container is longer than each of its items. -/
theorem length_lt_length_enclose (layout : Layout) (level : Nat) (opening closing : Char)
    {written : List (List Char)} {w : List Char} (hw : w ∈ written) :
    w.length < (enclose layout level opening closing written).length := by
  have hsum := sum_length_le_length_intercalate (layout.separator (level + 1)) written
  have hmem := List.le_sum_of_mem (List.mem_map_of_mem (f := List.length) hw)
  cases written with
  | nil => cases hw
  | cons w' written =>
    simp only [enclose, List.length_cons, List.length_append]
    omega

/-- The content of a container is read as it is written, in any layout. -/
theorem content?_enclose {item? : Reader α} (layout : Layout) (level : Nat) (opening : Char)
    {closing : Char} (hclosing : Closes closing) {written : List (List Char)} {items : List α}
    (h : List.Forall₂ (Reads item?) written items) :
    ∃ content, enclose layout level opening closing written = opening :: content
      ∧ ∀ rest, content? item? closing (content ++ rest) = some (items, rest) := by
  cases h with
  | nil =>
    refine ⟨[closing], rfl, fun rest => ?_⟩
    have hnext := next?_append blank_nil hclosing.isBlank rest
    rw [List.nil_append] at hnext
    simp [content?, hnext]
  | @cons w x written items hx htail =>
    refine ⟨_, rfl, fun rest => ?_⟩
    have hlength := length_le_length_intercalate (layout.separator (level + 1))
      (ne_nil_of_reads (.cons hx htail))
    obtain ⟨c, more, rfl, hblank, hbracket, hbrace⟩ := hx.starts
    have hc : c ≠ closing := by
      rintro rfl
      exact hclosing.elim hbracket hbrace
    have hread {bound : Nat} (hbound : ((c :: more) :: written).length ≤ bound) :=
      items?_intercalate hclosing (separator_eq layout (level + 1)) (blank_lineBreak layout level)
        rest (.cons hx htail) (List.cons_ne_nil _ _) hbound (blank_lineBreak layout (level + 1))
    have hnext := next?_append (blank_lineBreak layout (level + 1)) hblank
      ((layout.separator (level + 1)).intercalate (more :: written)
        ++ (layout.lineBreak level ++ closing :: rest))
    simp only [List.intercalate_cons_cons_left, List.append_assoc, List.cons_append,
      List.nil_append] at hread hnext ⊢
    rw [content?, hnext]
    simp only [Option.bind_eq_bind, Option.bind_some, if_neg hc]
    refine hread ?_
    simp only [List.intercalate_cons_cons_left, List.length_append, List.length_cons] at hlength ⊢
    omega

theorem reads_field {item? : Reader α} {w : List Char} {x : α} (h : Reads item? w x)
    (key : String) :
    Reads (field? item?) (textChars key ++ [':', ' '] ++ w) (codePoints key, x) where
  starts := ⟨'"', _, rfl, by decide⟩
  reads := by
    intro blanks rest hblanks hrest
    have hquote := next?_append hblanks (c := '"') rfl
      ((codePoints key).flatMap escape ++ '"' :: ':' :: ' ' :: (w ++ rest))
    have hkey := text?_flatMap_escape (codePoints key) (':' :: ' ' :: (w ++ rest))
    have hcolon := next?_append blank_nil (c := ':') rfl (' ' :: (w ++ rest))
    have hitem := h.reads blank_space hrest
    simp only [List.nil_append, List.cons_append] at hcolon hitem
    rw [(joinPairs_eq_self_iff _).2 (unsplit_codePoints key)] at hkey
    simp [textChars, field?, hquote, hkey, hcolon, hitem]

end

/-! ## Documents -/

/-- A container of items that can be read is read as a whole. -/
theorem reads_array {bound : Nat} (layout : Layout) (level : Nat) {written : List (List Char)}
    {items : List Value} (h : List.Forall₂ (Reads (value? bound)) written items) :
    Reads (value? (bound + 1)) (enclose layout level '[' ']' written) (.array items) := by
  obtain ⟨content, hwritten, hcontent⟩ := content?_enclose layout level '[' (Or.inl rfl) h
  rw [hwritten]
  refine ⟨⟨'[', content, rfl, by decide⟩, fun {blanks rest} hblanks _ => ?_⟩
  rw [List.cons_append, value?, next?_append hblanks rfl]
  simp [hcontent]

theorem reads_object {bound : Nat} (layout : Layout) (level : Nat) {written : List (List Char)}
    {fields : List (List CodePoint × Value)}
    (h : List.Forall₂ (Reads (field? (value? bound))) written fields) :
    Reads (value? (bound + 1)) (enclose layout level '\x7b' '\x7d' written) (.object fields) := by
  obtain ⟨content, hwritten, hcontent⟩ := content?_enclose layout level '\x7b' (Or.inr rfl) h
  rw [hwritten]
  refine ⟨⟨'\x7b', content, rfl, by decide⟩, fun {blanks rest} hblanks _ => ?_⟩
  rw [List.cons_append, value?, next?_append hblanks rfl]
  simp [hcontent]

theorem reads_bool (bound : Nat) (b : Bool) :
    Reads (value? (bound + 1)) (if b then "true" else "false").toList (.bool b) := by
  cases b with
  | true =>
    refine ⟨⟨'t', _, rfl, by decide⟩, fun {blanks rest} hblanks _ => ?_⟩
    show value? _ (blanks ++ 't' :: ("rue".toList ++ rest)) = _
    rw [value?, next?_append hblanks rfl]
    simp [word?]
  | false =>
    refine ⟨⟨'f', _, rfl, by decide⟩, fun {blanks rest} hblanks _ => ?_⟩
    show value? _ (blanks ++ 'f' :: ("alse".toList ++ rest)) = _
    rw [value?, next?_append hblanks rfl]
    simp [word?]

theorem reads_nat (bound n : Nat) :
    Reads (value? (bound + 1)) (Nat.toDigits 10 n) (.number n 0) := by
  obtain ⟨d, more, hcons, hd⟩ := exists_toDigits_eq_cons n
  have hne (c : Char) (hc : c.isDigit = false) : d ≠ c := by
    rintro rfl
    cases hc.symm.trans hd
  have hblank : isBlank d = false := by
    simp [isBlank, hne]
  refine ⟨⟨d, more, hcons, hblank, hne _ rfl, hne _ rfl⟩, fun {blanks rest} hblanks hrest => ?_⟩
  have hnumber := number?_toDigits n hrest
  rw [hcons, List.cons_append] at hnumber ⊢
  rw [value?, next?_append hblanks hblank]
  simp [hne, hnumber]

theorem reads_text (bound : Nat) (s : List CodePoint) :
    Reads (value? (bound + 1)) (textChars s) (.text (joinPairs s)) := by
  refine ⟨⟨'"', _, rfl, by decide⟩, fun {blanks rest} hblanks _ => ?_⟩
  have htext := text?_flatMap_escape s rest
  have hquote := next?_append hblanks (c := '"') rfl (s.flatMap escape ++ '"' :: rest)
  simp [textChars, value?, hquote, htext]

mutual

/-- Every document is read as it is written, at any level of any layout. -/
theorem reads_chars (layout : Layout) (level : Nat) : (j : Json) → {bound : Nat} →
    (j.chars layout level).length < bound → Reads (value? bound) (j.chars layout level) j.value
  | bool b, bound + 1, _ => reads_bool bound b
  | nat n, bound + 1, _ => reads_nat bound n
  | text s, bound + 1, _ => reads_text bound s
  | array items, bound + 1, hbound => by
    refine reads_array layout level (forall₂_items layout (level + 1) items fun w hw => ?_)
    have hlt := length_lt_length_enclose layout level '[' ']' hw
    rw [chars] at hbound
    omega
  | object fields, bound + 1, hbound => by
    refine reads_object layout level (forall₂_fields layout (level + 1) fields fun w hw => ?_)
    have hlt := length_lt_length_enclose layout level '\x7b' '\x7d' hw
    rw [chars] at hbound
    omega

theorem forall₂_items (layout : Layout) (level : Nat) : (items : List Json) → {bound : Nat} →
    (∀ w ∈ itemChars layout level items, w.length < bound) →
    List.Forall₂ (Reads (value? bound)) (itemChars layout level items) (itemValues items)
  | [], _, _ => .nil
  | item :: rest, _, h =>
    .cons (reads_chars layout level item (h _ List.mem_cons_self))
      (forall₂_items layout level rest fun w hw => h w (List.mem_cons_of_mem _ hw))

theorem forall₂_fields (layout : Layout) (level : Nat) : (fields : List (String × Json)) →
    {bound : Nat} → (∀ w ∈ fieldChars layout level fields, w.length < bound) →
    List.Forall₂ (Reads (field? (value? bound))) (fieldChars layout level fields)
      (fieldValues fields)
  | [], _, _ => .nil
  | (key, item) :: rest, bound, h => by
    have hitem : (item.chars layout level).length < bound := by
      have hfield := h _ List.mem_cons_self
      simp only [List.length_append] at hfield
      omega
    exact .cons (reads_field (reads_chars layout level item hitem) key)
      (forall₂_fields layout level rest fun w hw => h w (List.mem_cons_of_mem _ hw))

end

/-- **Written documents are read back**, in every layout. -/
theorem read?_render (layout : Layout) (j : Json) : read? (j.render layout) = some j.value := by
  have hends : EndsNumber [] := nofun
  have hreads := (reads_chars layout 0 j (Nat.lt_succ_self _)).reads blank_nil hends
  rw [List.nil_append, List.append_nil] at hreads
  rw [read?, render, String.toList_ofList, hreads]
  rfl

/-! ## What decides how a document is written -/

theorem textChars_eq_of_joinPairs_eq {s s' : List CodePoint} (h : joinPairs s = joinPairs s') :
    textChars s = textChars s' := by
  rw [textChars, textChars, ← flatMap_escape_joinPairs s, h, flatMap_escape_joinPairs]

mutual

/-- Documents that are read as the same are written in the same way. -/
theorem chars_eq_of_value_eq (layout : Layout) (level : Nat) : (j j' : Json) →
    j.value = j'.value → j.chars layout level = j'.chars layout level
  | bool b, bool b', h => by rw [Value.bool.inj h]
  | nat n, nat n', h => by rw [Int.ofNat.inj (Value.number.inj h).1]
  | text s, text s', h => textChars_eq_of_joinPairs_eq (Value.text.inj h)
  | array items, array items', h => by
    rw [chars, chars, itemChars_eq_of_value_eq layout (level + 1) items items' (Value.array.inj h)]
  | object fields, object fields', h => by
    rw [chars, chars,
      fieldChars_eq_of_value_eq layout (level + 1) fields fields' (Value.object.inj h)]

theorem itemChars_eq_of_value_eq (layout : Layout) (level : Nat) : (items items' : List Json) →
    itemValues items = itemValues items' →
    itemChars layout level items = itemChars layout level items'
  | [], [], _ => rfl
  | item :: rest, item' :: rest', h => by
    obtain ⟨hitem, hrest⟩ := List.cons.inj h
    rw [itemChars, itemChars, chars_eq_of_value_eq layout level item item' hitem,
      itemChars_eq_of_value_eq layout level rest rest' hrest]

theorem fieldChars_eq_of_value_eq (layout : Layout) (level : Nat) :
    (fields fields' : List (String × Json)) → fieldValues fields = fieldValues fields' →
    fieldChars layout level fields = fieldChars layout level fields'
  | [], [], _ => rfl
  | (key, item) :: rest, (key', item') :: rest', h => by
    obtain ⟨hfield, hrest⟩ := List.cons.inj h
    obtain ⟨hkey, hitem⟩ := Prod.mk.inj hfield
    rw [fieldChars, fieldChars, hkey, chars_eq_of_value_eq layout level item item' hitem,
      fieldChars_eq_of_value_eq layout level rest rest' hrest]

end

/-- Two documents are written the same, in some layout, exactly if they are read as the same. -/
theorem render_eq_render_iff (layout : Layout) (j j' : Json) :
    j.render layout = j'.render layout ↔ j.value = j'.value := by
  constructor
  · intro h
    have hread := read?_render layout j
    rw [h, read?_render] at hread
    exact (Option.some.inj hread).symm
  · intro h
    rw [render, render, chars_eq_of_value_eq layout 0 j j' h]

/-! ## Plain characters -/

/-- Only ASCII characters. -/
def Ascii (cs : List Char) : Prop :=
  ∀ c ∈ cs, c.toNat < 128

-- The characters of a list are looked at, not all characters there are.
instance (cs : List Char) : Decidable (Ascii cs) :=
  decidable_of_iff (cs.all fun c => c.toNat < 128) (by simp [Ascii])

theorem Ascii.append {cs ds : List Char} (hcs : Ascii cs) (hds : Ascii ds) : Ascii (cs ++ ds) :=
  List.forall_mem_append.2 ⟨hcs, hds⟩

theorem Ascii.cons {c : Char} {cs : List Char} (hc : c.toNat < 128) (hcs : Ascii cs) :
    Ascii (c :: cs) :=
  List.forall_mem_cons.2 ⟨hc, hcs⟩

theorem ascii_flatMap {α : Type} {f : α → List Char} {xs : List α} (h : ∀ x ∈ xs, Ascii (f x)) :
    Ascii (xs.flatMap f) := by
  intro c hc
  obtain ⟨x, hx, hc⟩ := List.mem_flatMap.1 hc
  exact h x hx c hc

theorem Blank.ascii {cs : List Char} (h : Blank cs) : Ascii cs := by
  intro c hc
  have hblank := h c hc
  simp only [isBlank, Bool.or_eq_true, decide_eq_true_eq] at hblank
  rcases hblank with ((rfl | rfl) | rfl) | rfl <;> decide

theorem ascii_hexDigits (width n : Nat) : Ascii (Text.hexDigits width n) := by
  have hall : ∀ d : Fin 16, d.val.digitChar.toNat < 128 := by decide
  induction width generalizing n with
  | zero => exact nofun
  | succ width ih =>
    exact (ih (n / 16)).append (.cons (hall ⟨n % 16, Nat.mod_lt n (by decide)⟩) nofun)

theorem ascii_escape (p : CodePoint) : Ascii (escape p) := by
  cases escaped_escape p with
  | letter _ hwritten _ hascii =>
    rw [hwritten]
    exact .cons (by decide) (.cons hascii nofun)
  | plain _ hwritten _ _ _ hascii =>
    rw [hwritten]
    exact .cons hascii nofun
  | units hwritten =>
    rw [hwritten]
    exact ascii_flatMap fun u _ => .cons (by decide) (.cons (by decide) (ascii_hexDigits 4 u))

theorem ascii_textChars (s : List CodePoint) : Ascii (textChars s) :=
  .cons (by decide) ((ascii_flatMap fun p _ => ascii_escape p).append (.cons (by decide) nofun))

theorem ascii_intercalate {separator : List Char} (hseparator : Ascii separator)
    {written : List (List Char)} (h : ∀ w ∈ written, Ascii w) :
    Ascii (separator.intercalate written) := by
  induction written with
  | nil => exact nofun
  | cons w written ih =>
    rw [List.forall_mem_cons] at h
    cases written with
    | nil =>
      rw [List.intercalate_singleton]
      exact h.1
    | cons w' written =>
      rw [List.intercalate_cons_cons]
      exact (h.1.append hseparator).append (ih h.2)

theorem ascii_enclose (layout : Layout) (level : Nat) {opening closing : Char}
    (hopening : opening.toNat < 128) (hclosing : closing.toNat < 128)
    {written : List (List Char)} (h : ∀ w ∈ written, Ascii w) :
    Ascii (enclose layout level opening closing written) := by
  have hseparator : Ascii (layout.separator (level + 1)) := by
    obtain ⟨blanks, heq, hblanks⟩ := separator_eq layout (level + 1)
    rw [heq]
    exact .cons (by decide) hblanks.ascii
  have hlineBreak (level : Nat) : Ascii (layout.lineBreak level) :=
    (blank_lineBreak layout level).ascii
  cases written with
  | nil => exact .cons hopening (.cons hclosing nofun)
  | cons w written =>
    exact .cons hopening ((((hlineBreak _).append (ascii_intercalate hseparator h)).append
      (hlineBreak _)).append (.cons hclosing nofun))

mutual

theorem ascii_chars (layout : Layout) (level : Nat) : (j : Json) → Ascii (j.chars layout level)
  | bool true => (by decide : Ascii "true".toList)
  | bool false => (by decide : Ascii "false".toList)
  | nat n => by
    intro c hc
    have hdigit := Nat.isDigit_of_mem_toDigits (by decide) (by decide) hc
    exact Nat.lt_of_le_of_lt (Char.isDigit_iff_toNat.1 hdigit).2 (by decide)
  | text s => ascii_textChars s
  | array items =>
    ascii_enclose layout level (by decide) (by decide) (ascii_itemChars layout (level + 1) items)
  | object fields =>
    ascii_enclose layout level (by decide) (by decide) (ascii_fieldChars layout (level + 1) fields)

theorem ascii_itemChars (layout : Layout) (level : Nat) :
    (items : List Json) → ∀ w ∈ itemChars layout level items, Ascii w
  | [] => nofun
  | item :: rest =>
    List.forall_mem_cons.2 ⟨ascii_chars layout level item, ascii_itemChars layout level rest⟩

theorem ascii_fieldChars (layout : Layout) (level : Nat) :
    (fields : List (String × Json)) → ∀ w ∈ fieldChars layout level fields, Ascii w
  | [] => nofun
  | (key, item) :: rest =>
    List.forall_mem_cons.2 ⟨((ascii_textChars key).append (by decide)).append
      (ascii_chars layout level item), ascii_fieldChars layout level rest⟩

end

theorem ascii_render (layout : Layout) (j : Json) : Ascii (j.render layout).toList := by
  rw [render, String.toList_ofList]
  exact ascii_chars layout 0 j

end CallablePurity.Json
