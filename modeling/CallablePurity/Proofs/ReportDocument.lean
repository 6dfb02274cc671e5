import CallablePurity.Proofs.Json.RoundTrip
import CallablePurity.Report.Document

set_option autoImplicit false

/-! # Reports can be read from their document

The document of some reports is ASCII text, and whoever reads it finds the counts and, under each
label, the six fields of the report, in order (`Reports.read?_document`). The layout adds nothing to
the reports.

One thing is lost. A violation may be any text, also one in which both halves of a surrogate pair
stand side by side, and it is then read with the character in their place. A document is therefore
that of the joined reports (`Reports.joined`), and these it determines. Different reports share
their document if they differ in such pairs only (`Reports.document_split_eq_document_joined`); the
reports of an analysis have strings as violations, where there are no halves, and never do
(`Reports.eq_of_document_eq`). -/

namespace CallablePurity

open Wording (codePoints)

/-! ## One report -/

namespace Report

section

variable {τ σ : Type}

/-- The report with its reasons in other words. -/
def map (f : τ → σ) : Report τ → Report σ
  | pure => pure
  | impure flags violations hflagged hexplained =>
    impure flags (violations.map f) hflagged (mt List.map_eq_nil_iff.1 hexplained)

@[simp] theorem isPure_map (f : τ → σ) (r : Report τ) : (r.map f).isPure = r.isPure := by
  cases r <;> rfl

@[simp] theorem flags_map (f : τ → σ) (r : Report τ) : (r.map f).flags = r.flags := by
  cases r <;> rfl

@[simp] theorem violations_map (f : τ → σ) (r : Report τ) :
    (r.map f).violations = r.violations.map f := by
  cases r <;> rfl

/-- A report is made up of its parts. -/
theorem eq_of_parts_eq {r r' : Report τ} (hpure : r.isPure = r'.isPure)
    (hflags : r.flags = r'.flags) (hviolations : r.violations = r'.violations) : r = r' := by
  have hparts := r.ofParts_parts
  rw [hpure, hflags, hviolations, r'.ofParts_parts] at hparts
  exact (Except.ok.inj hparts).symm

/-- Different reports stay different in words that keep their reasons apart. -/
theorem map_injective {f : τ → σ} (hf : Function.Injective f) :
    Function.Injective (map f) := by
  intro r r' h
  refine eq_of_parts_eq ?_ ?_ (List.map_injective_iff.2 hf ?_)
  · rw [← isPure_map f r, h, isPure_map]
  · rw [← flags_map f r, h, flags_map]
  · rw [← violations_map f r, h, violations_map]

end

/-- The six fields under which a report is found in a document. -/
def found (r : Report (List CodePoint)) : Json.Value :=
  .object
    [("is_pure", .bool r.isPure),
     ("has_by_ref_binding", .bool r.flags.byRefBinding),
     ("has_global_state", .bool r.flags.globalState),
     ("has_side_effecting_access", .bool r.flags.sideEffectingAccess),
     ("has_impure_call", .bool r.flags.impureCall),
     ("violations", .array (r.violations.map .text))]

theorem found_injective {r r' : Report (List CodePoint)} (h : r.found = r'.found) : r = r' := by
  simp only [found, Json.Value.object.injEq, List.cons.injEq, Prod.mk.injEq, true_and,
    Json.Value.bool.injEq, Json.Value.array.injEq, and_true] at h
  obtain ⟨hpure, hbyRef, hglobal, haccess, hcall, htexts⟩ := h
  refine eq_of_parts_eq hpure ?_ ?_
  · rw [Flags.mk.injEq]
    exact ⟨hbyRef, hglobal, haccess, hcall⟩
  · exact List.map_injective_iff.2 (fun _ _ => Json.Value.text.inj) htexts

variable {τ : Type} [Wording τ]

/-- The report with all pairs in its violations joined. -/
def joined (r : Report τ) : Report (List CodePoint) :=
  r.map fun v => Json.joinPairs (codePoints v)

theorem value_json (r : Report τ) : r.json.value = r.joined.found := by
  have htexts : Json.itemValues (r.violations.map fun v => .text (codePoints v))
      = r.violations.map fun v => .text (Json.joinPairs (codePoints v)) := by
    rw [Json.itemValues_eq_map, List.map_map]
    rfl
  simp only [json, Json.value, Json.fieldValues, htexts, found, joined, isPure_map, flags_map,
    violations_map, List.map_map, Function.comp_def]

/-- In no violation do both halves of a surrogate pair stand side by side. -/
def Unsplit (r : Report τ) : Prop :=
  ∀ v ∈ r.violations, Json.Unsplit (codePoints v)

/-- A report without pairs to join stays as it is. -/
theorem Unsplit.joined_eq {r : Report τ} (h : r.Unsplit) : r.joined = r.map codePoints := by
  refine eq_of_parts_eq ?_ ?_ ?_
  · rw [joined, isPure_map, isPure_map]
  · rw [joined, flags_map, flags_map]
  · rw [joined, violations_map, violations_map]
    exact List.map_congr_left fun v hv => (Json.joinPairs_eq_self_iff _).2 (h v hv)

end Report

/-! ## Reports under labels -/

namespace Reports

/-- Those reports are impure that are not pure. -/
theorem impureCount_eq {τ : Type} (rs : Reports τ) :
    rs.impureCount = rs.entries.countP fun e => !e.2.isPure := by
  have hsplit := rs.entries.length_eq_countP_add_countP (fun e => e.2.isPure)
  have hsum := rs.pureCount_add_impureCount
  simp only [Bool.not_eq_true, Bool.decide_eq_false] at hsplit
  unfold pureCount OrderedMap.size at hsum
  omega

variable {τ : Type} [Wording τ]

/-- The reports with all pairs in their violations joined. -/
def joined (rs : Reports τ) : Reports (List CodePoint) :=
  rs.filterMap fun _ r => some r.joined

theorem entries_joined (rs : Reports τ) :
    rs.joined.entries = rs.entries.map fun e => (e.1, e.2.joined) :=
  congrFun List.filterMap_eq_map' rs.entries

@[simp] theorem size_joined (rs : Reports τ) : rs.joined.size = rs.size := by
  rw [OrderedMap.size, entries_joined, List.length_map]
  rfl

@[simp] theorem pureCount_joined (rs : Reports τ) : rs.joined.pureCount = rs.pureCount := by
  simp only [pureCount, entries_joined, List.countP_map, Function.comp_def, Report.joined,
    Report.isPure_map]

@[simp] theorem impureCount_joined (rs : Reports τ) : rs.joined.impureCount = rs.impureCount := by
  simp only [impureCount, size_joined, pureCount_joined]

/-- What is found in the document of some reports. -/
def found (rs : Reports (List CodePoint)) : Json.Value :=
  .object
    [("summary", .object
      [("total", .number rs.size 0), ("pure", .number rs.pureCount 0),
       ("impure", .number rs.impureCount 0)]),
     ("callables", .object (rs.entries.map fun e => (codePoints e.1, e.2.found)))]

theorem found_injective {rs rs' : Reports (List CodePoint)} (h : rs.found = rs'.found) :
    rs = rs' := by
  simp only [found, Json.Value.object.injEq, List.cons.injEq, Prod.mk.injEq, true_and,
    and_true] at h
  rw [OrderedMap.mk.injEq]
  refine List.map_injective_iff.2 (fun e e' heq => ?_) h.2
  obtain ⟨hlabel, hfound⟩ := Prod.mk.inj heq
  exact Prod.ext (Wording.eq_of_codePoints hlabel) (Report.found_injective hfound)

theorem value_json (rs : Reports τ) : rs.json.value = rs.joined.found := by
  have hreports : Json.fieldValues (rs.entries.map fun e => (e.1, e.2.json))
      = rs.joined.entries.map fun e => (codePoints e.1, e.2.found) := by
    rw [Json.fieldValues_eq_map, entries_joined, List.map_map, List.map_map]
    refine List.map_congr_left fun e _ => ?_
    exact Prod.ext rfl e.2.value_json
  simp only [json, Json.value, Json.fieldValues, hreports, found, size_joined, pureCount_joined,
    impureCount_joined]

theorem read?_document_eq (rs : Reports τ) (indent : Option Int) :
    Json.read? (rs.document indent) = some rs.joined.found := by
  rw [document, Json.read?_render, value_json]

/-- Whatever their layouts are, documents that are the same are of the same joined reports. -/
theorem joined_eq_of_document_eq {rs rs' : Reports τ} {indent indent' : Option Int}
    (h : rs'.document indent' = rs.document indent) : rs'.joined = rs.joined := by
  have hread := rs'.read?_document_eq indent'
  rw [h, read?_document_eq] at hread
  exact (found_injective (Option.some.inj hread)).symm

theorem document_eq_of_joined_eq {rs rs' : Reports τ} (h : rs'.joined = rs.joined)
    (indent : Option Int) : rs'.document indent = rs.document indent := by
  rw [document, document, Json.render_eq_render_iff, value_json, value_json, h]

/-- In no violation of any report do both halves of a surrogate pair stand side by side. -/
def Unsplit (rs : Reports τ) : Prop :=
  ∀ e ∈ rs.entries, e.2.Unsplit

theorem Unsplit.entries_joined {rs : Reports τ} (h : rs.Unsplit) :
    rs.joined.entries = rs.entries.map fun e => (e.1, e.2.map codePoints) := by
  rw [Reports.entries_joined]
  exact List.map_congr_left fun e he => Prod.ext rfl (h e he).joined_eq

theorem eq_of_joined_eq {rs rs' : Reports τ} (hrs : rs.Unsplit) (hrs' : rs'.Unsplit)
    (h : rs'.joined = rs.joined) : rs' = rs := by
  have hentries := congrArg OrderedMap.entries h
  rw [hrs.entries_joined, hrs'.entries_joined] at hentries
  rw [OrderedMap.mk.injEq]
  refine List.map_injective_iff.2 (fun e e' heq => ?_) hentries
  obtain ⟨hlabel, hreport⟩ := Prod.mk.inj heq
  exact Prod.ext hlabel (Report.map_injective (fun _ _ => Wording.eq_of_codePoints) hreport)

/-- The document of some reports is ASCII and is read as the reports, in any layout; only the pairs
    in violations are joined. Reports without such pairs are not changed and have a document of
    their own. -/
theorem read?_document (rs : Reports τ) (indent : Option Int) :
    let pures := rs.entries.countP fun e => e.2.isPure
    let impures := rs.entries.countP fun e => !e.2.isPure
    Json.Ascii (rs.document indent).toList
      ∧ Json.read? (rs.document indent) = some (.object
          [("summary", .object
            [("total", .number rs.size 0), ("pure", .number pures 0),
             ("impure", .number impures 0)]),
           ("callables", .object
            (rs.entries.map fun e => (codePoints e.1, e.2.joined.found)))])
      ∧ rs.size = pures + impures
      ∧ (∀ indent', Json.read? (rs.document indent') = Json.read? (rs.document indent))
      ∧ (∀ (rs' : Reports τ) (indent' : Option Int),
          rs'.document indent' = rs.document indent → rs'.joined = rs.joined)
      ∧ (∀ rs' : Reports τ, rs'.joined = rs.joined → rs'.document indent = rs.document indent)
      ∧ (rs.Unsplit →
          (∀ e ∈ rs.entries, e.2.joined = e.2.map codePoints)
            ∧ ∀ (rs' : Reports τ) (indent' : Option Int), rs'.Unsplit →
                rs'.document indent' = rs.document indent → rs' = rs) := by
  intro pures impures
  have hread : Json.read? (rs.document indent) = some rs.joined.found :=
    rs.read?_document_eq indent
  refine ⟨Json.ascii_render _ _, ?_, ?_, fun indent' => ?_, fun rs' indent' => ?_,
    fun rs' h => ?_, fun hrs => ⟨fun e he => (hrs e he).joined_eq, fun rs' indent' hrs' h => ?_⟩⟩
  · rw [hread, found, size_joined, pureCount_joined, impureCount_joined, impureCount_eq,
      entries_joined, List.map_map]
    rfl
  · rw [← rs.pureCount_add_impureCount, impureCount_eq]
    rfl
  · rw [hread, read?_document_eq]
  · exact joined_eq_of_document_eq
  · exact document_eq_of_joined_eq h indent
  · exact eq_of_joined_eq hrs hrs' (joined_eq_of_document_eq h)

/-- One callable that is impure for one reason. -/
def single (label : String) (reason : List CodePoint) : Reports (List CodePoint) where
  entries := [(label, .impure { impureCall := true } [reason] rfl (List.cons_ne_nil _ _))]
  nodup := List.pairwise_singleton _ _

/-- Halves in the wrong order are read as they are; in order, they are written like a character. -/
theorem read?_document_of_halves :
    let swapped := single "" [.low 0x200, .high 0x3d, .char '"']
    Json.read? (swapped.document (some (-1))) = some (.object
        [("summary", .object
          [("total", .number 1 0), ("pure", .number 0 0), ("impure", .number 1 0)]),
         ("callables", .object
          [([], .object
            [("is_pure", .bool false), ("has_by_ref_binding", .bool false),
             ("has_global_state", .bool false), ("has_side_effecting_access", .bool false),
             ("has_impure_call", .bool true),
             ("violations", .array [.text [.low 0x200, .high 0x3d, .char '"']])])])])
      ∧ (single "" "\"").document none ≠ swapped.document (some (-1))
      ∧ (single "f" [.high 0x3d, .low 0x200]).document (some 2)
          = (single "f" [.char '😀']).document (some 2) := by
  intro swapped
  have hunsplit {reason : List CodePoint} (h : Json.Unsplit reason) :
      (single "" reason).Unsplit := by
    intro e he v hv
    cases List.mem_singleton.1 he
    cases List.mem_singleton.1 hv
    exact h
  obtain ⟨-, hread, -, -, -, -, hown⟩ := read?_document swapped (some (-1))
  obtain ⟨-, -, -, -, -, hsame, -⟩ := read?_document (single "f" [.char '😀']) (some 2)
  refine ⟨hread, fun h => ?_, hsame (single "f" [.high 0x3d, .low 0x200]) rfl⟩
  have heq : single "" "\"" = single "" [.low 0x200, .high 0x3d, .char '"'] :=
    (hown (hunsplit (by decide))).2 _ none (hunsplit (by decide)) h
  cases heq

/-- Both halves of a pair and the character that they make are different reasons, written alike. -/
theorem document_split_eq_document_joined :
    single "f" [.high 0x3d, .low 0x200] ≠ single "f" [.char '😀']
      ∧ ∀ indent, (single "f" [.high 0x3d, .low 0x200]).document indent
          = (single "f" [.char '😀']).document indent := by
  exact ⟨nofun, fun indent => document_eq_of_joined_eq rfl indent⟩

/-- Strings have no halves of pairs. -/
theorem unsplit (rs : Reports) : rs.Unsplit :=
  fun _ _ v _ => Json.unsplit_codePoints v

/-- Different reports of analyses are written differently, whatever their layouts are. -/
theorem eq_of_document_eq {rs rs' : Reports} {indent indent' : Option Int}
    (h : rs'.document indent' = rs.document indent) : rs' = rs :=
  eq_of_joined_eq rs.unsplit rs'.unsplit (joined_eq_of_document_eq h)

end Reports

end CallablePurity
