set_option autoImplicit false

/-! # Maps in order of first arrival

Type maps, literal bindings and tables of reports are read out in the order in which their keys
first arrived: a repeated key keeps its place and takes the new value. The view of a map is its
list of `entries`, in which no key occurs twice; each operation is described by what it does to
`keys` and to `get?`. -/

namespace CallablePurity

variable {κ ν : Type}

/-- Entries in order of first arrival, one for each key. -/
structure OrderedMap (κ ν : Type) where
  entries : List (κ × ν)
  nodup : (entries.map Prod.fst).Nodup

namespace OrderedMap

def empty : OrderedMap κ ν :=
  ⟨[], List.nodup_nil⟩

/-- The keys in order of first arrival. -/
def keys (m : OrderedMap κ ν) : List κ :=
  m.entries.map Prod.fst

def size (m : OrderedMap κ ν) : Nat :=
  m.entries.length

@[simp] theorem keys_empty : (empty : OrderedMap κ ν).keys = [] := rfl

/-- Keeps the entries for which there is a new value. -/
def filterMap {μ : Type} (f : κ → ν → Option μ) (m : OrderedMap κ ν) : OrderedMap κ μ where
  entries := m.entries.filterMap fun e => (f e.1 e.2).map (e.1, ·)
  nodup := by
    have h : ((m.entries.filterMap fun e => (f e.1 e.2).map (e.1, ·)).map Prod.fst).Sublist
        (m.entries.map Prod.fst) := by
      generalize m.entries = es
      induction es with
      | nil => simp
      | cons e rest ih =>
        cases hf : f e.1 e.2 with
        | none => simpa [hf] using ih.cons e.1
        | some v => simpa [hf] using ih
    exact h.nodup m.nodup

/-- Entries that are kept stay in order. -/
theorem entries_filterMap_sublist {μ : Type} {f : κ → ν → Option μ} {g : ν → μ}
    (h : ∀ k v u, f k v = some u → u = g v) (m : OrderedMap κ ν) :
    (m.filterMap f).entries.Sublist (m.entries.map fun e => (e.1, g e.2)) := by
  show (m.entries.filterMap fun e => (f e.1 e.2).map (e.1, ·)).Sublist _
  induction m.entries with
  | nil => exact .slnil
  | cons e rest ih =>
    cases hf : f e.1 e.2 with
    | none => simpa [hf] using ih.cons (e.1, g e.2)
    | some u => simpa [hf, h e.1 e.2 u hf] using ih

variable [DecidableEq κ]

/-- The value stored under a key. -/
def get? (m : OrderedMap κ ν) (k : κ) : Option ν :=
  m.entries.lookup k

def contains (m : OrderedMap κ ν) (k : κ) : Bool :=
  (m.get? k).isSome

@[simp] theorem get?_empty (k : κ) : (empty : OrderedMap κ ν).get? k = none := rfl

/-- A key that is stored once has the new value of its old one. -/
theorem get?_filterMap {μ : Type} (f : κ → ν → Option μ) (m : OrderedMap κ ν) (k : κ) :
    (m.filterMap f).get? k = (m.get? k).bind (f k) := by
  obtain ⟨es, hnodup⟩ := m
  show (es.filterMap fun e => (f e.1 e.2).map (e.1, ·)).lookup k = (es.lookup k).bind (f k)
  induction es with
  | nil => rfl
  | cons e rest ih =>
    obtain ⟨j, v⟩ := e
    rw [List.map_cons, List.nodup_cons] at hnodup
    have hrest := ih hnodup.2
    by_cases hk : k = j
    · subst hk
      have hnone : rest.lookup k = none := by
        rw [List.lookup_eq_none_iff]
        intro p hp
        have hne : k ≠ p.1 := fun heq => hnodup.1 (List.mem_map.2 ⟨p, hp, heq.symm⟩)
        simpa using hne
      cases hf : f k v with
      | none => simp [hf, hrest, hnone]
      | some w => simp [hf]
    · cases hf : f j v <;> simp [hf, List.lookup_cons, beq_false_of_ne hk, hrest]

/-! ## Insertion -/

/-- Replaces the value of a key in place, or adds a new entry at the end. -/
def putEntry (k : κ) (v : ν) : List (κ × ν) → List (κ × ν)
  | [] => [(k, v)]
  | e :: rest => if e.1 = k then (k, v) :: rest else e :: putEntry k v rest

theorem keys_putEntry (k : κ) (v : ν) (es : List (κ × ν)) :
    (putEntry k v es).map Prod.fst
      = if k ∈ es.map Prod.fst then es.map Prod.fst else es.map Prod.fst ++ [k] := by
  induction es with
  | nil => simp [putEntry]
  | cons e rest ih =>
    by_cases he : e.1 = k
    · simp [putEntry, he]
    · have hk : ¬ k = e.1 := fun h => he h.symm
      simp only [putEntry, he, if_false, List.map_cons, ih, List.mem_cons, hk, false_or]
      split <;> simp

theorem lookup_putEntry (k : κ) (v : ν) (es : List (κ × ν)) (j : κ) :
    (putEntry k v es).lookup j = if j = k then some v else es.lookup j := by
  induction es with
  | nil =>
    by_cases hj : j = k
    · simp [putEntry, hj]
    · simp [putEntry, List.lookup_cons, hj, beq_false_of_ne hj]
  | cons e rest ih =>
    obtain ⟨i, w⟩ := e
    by_cases hi : i = k
    · subst hi
      by_cases hj : j = i
      · simp [putEntry, hj]
      · simp [putEntry, List.lookup_cons, hj, beq_false_of_ne hj]
    · by_cases hj : j = i
      · subst hj
        simp [putEntry, hi]
      · simp [putEntry, hi, List.lookup_cons, beq_false_of_ne hj, ih]

/-- Stores a value under a key. -/
def insert (m : OrderedMap κ ν) (k : κ) (v : ν) : OrderedMap κ ν where
  entries := putEntry k v m.entries
  nodup := by
    rw [keys_putEntry]
    split
    · exact m.nodup
    · next h =>
      refine List.nodup_append.2 ⟨m.nodup, by simp, ?_⟩
      intro a ha b hb hab
      rw [List.mem_singleton] at hb
      exact h (hb ▸ hab ▸ ha)

theorem keys_insert (m : OrderedMap κ ν) (k : κ) (v : ν) :
    (m.insert k v).keys = if k ∈ m.keys then m.keys else m.keys ++ [k] :=
  keys_putEntry k v m.entries

theorem mem_keys_insert (m : OrderedMap κ ν) (k : κ) (v : ν) (j : κ) :
    j ∈ (m.insert k v).keys ↔ j ∈ m.keys ∨ j = k := by
  rw [keys_insert]
  split
  · next h => exact ⟨Or.inl, fun hj => hj.elim id fun hjk => hjk ▸ h⟩
  · simp

theorem get?_insert (m : OrderedMap κ ν) (k : κ) (v : ν) (j : κ) :
    (m.insert k v).get? j = if j = k then some v else m.get? j :=
  lookup_putEntry k v m.entries j

/-- A new key comes last. -/
theorem entries_insert_of_none {m : OrderedMap κ ν} {k : κ} (v : ν) (h : m.get? k = none) :
    (m.insert k v).entries = m.entries ++ [(k, v)] := by
  have hput (es : List (κ × ν)) (h : es.lookup k = none) :
      putEntry k v es = es ++ [(k, v)] := by
    induction es with
    | nil => rfl
    | cons e rest ih =>
      obtain ⟨i, w⟩ := e
      rw [List.lookup_cons] at h
      split at h
      · cases h
      · next hk =>
        have hi : ¬ i = k := fun heq => beq_eq_false_iff_ne.1 hk heq.symm
        simp [putEntry, hi, ih h]
  exact hput m.entries h

/-- Whoever cannot tell a new value from the old one sees no change. -/
theorem map_entries_insert_of_some {μ : Type} (g : ν → μ) {m : OrderedMap κ ν} {k : κ} {v old : ν}
    (h : m.get? k = some old) (hg : g v = g old) :
    (m.insert k v).entries.map (fun e => (e.1, g e.2))
      = m.entries.map fun e => (e.1, g e.2) := by
  have hput (es : List (κ × ν)) (h : es.lookup k = some old) :
      (putEntry k v es).map (fun e => (e.1, g e.2)) = es.map fun e => (e.1, g e.2) := by
    induction es with
    | nil => cases h
    | cons e rest ih =>
      obtain ⟨i, w⟩ := e
      by_cases hi : i = k
      · subst hi
        rw [List.lookup_cons_self, Option.some.injEq] at h
        simp [putEntry, hg, h]
      · rw [List.lookup_cons, beq_false_of_ne fun heq => hi heq.symm] at h
        simp [putEntry, hi, ih h]
  exact hput m.entries h

/-! ## From a list of entries -/

/-- Stores the entries one after the other: a key stands where it first occurs and has the value
    that it has last. -/
def ofList (entries : List (κ × ν)) : OrderedMap κ ν :=
  entries.foldl (fun m e => m.insert e.1 e.2) empty

/-- A key that was there before keeps its place; the others follow, each where it first occurs. -/
theorem keys_foldl_insert (es : List (κ × ν)) (m : OrderedMap κ ν) :
    (es.foldl (fun m e => m.insert e.1 e.2) m).keys
      = m.keys ++ ((es.map Prod.fst).removeAll m.keys).eraseDups := by
  induction es generalizing m with
  | nil => simp
  | cons e rest ih =>
    rw [List.foldl_cons, ih, keys_insert, List.map_cons, List.cons_removeAll]
    by_cases hk : e.1 ∈ m.keys
    · simp [hk]
    · -- a new key is struck out from what is left to come
      have hnew (ks : List κ) :
          ks.removeAll (m.keys ++ [e.1]) = (ks.removeAll m.keys).filter fun k => !k == e.1 := by
        rw [List.removeAll, List.removeAll, List.filter_filter]
        refine List.filter_congr ?_
        intro k _
        by_cases hke : k = e.1 <;> simp [hke]
      simp [hk, List.eraseDups_cons, hnew]

/-- Each key stands where it first occurs. -/
theorem keys_ofList (es : List (κ × ν)) : (ofList es).keys = (es.map Prod.fst).eraseDups := by
  rw [ofList, keys_foldl_insert, keys_empty, List.removeAll_nil, List.nil_append]

theorem mem_keys_ofList (es : List (κ × ν)) (k : κ) :
    k ∈ (ofList es).keys ↔ k ∈ es.map Prod.fst := by
  rw [keys_ofList, List.mem_eraseDups]

theorem get?_foldl_insert (es : List (κ × ν)) (m : OrderedMap κ ν) (k : κ) :
    (es.foldl (fun m e => m.insert e.1 e.2) m).get? k = (es.reverse.lookup k).or (m.get? k) := by
  induction es generalizing m with
  | nil => simp
  | cons e rest ih =>
    obtain ⟨i, v⟩ := e
    rw [List.foldl_cons, ih, get?_insert, List.reverse_cons, List.lookup_append, Option.or_assoc]
    by_cases hk : k = i
    · simp [hk]
    · simp [hk, List.lookup_cons, beq_false_of_ne hk]

/-- The value of a key is the last one stored under it. -/
theorem get?_ofList (es : List (κ × ν)) (k : κ) : (ofList es).get? k = es.reverse.lookup k := by
  simp [ofList, get?_foldl_insert]

end OrderedMap

end CallablePurity
