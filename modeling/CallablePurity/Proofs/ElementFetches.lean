import CallablePurity.Effect
import Mathlib.Data.List.DropRight

set_option autoImplicit false

/-! # Values that pass a row of element fetches

A value flows outwards through the operations around a variable until one of them decides whether it
may run foreign code. All operations decide at once, except that a fetch of an element passes the
element on. So the verdict depends on how many fetches stand nearest to the variable and on the
operation around them, whatever lies further out (`Config.runsForeignCode_eq_table`).

The decision of a single operation is a table (`Config.exposedBelow`). A scalar passes any number of
fetches with its type; a collection passes one, and nothing is known of what comes out; any other
value runs foreign code at the first of them. -/

namespace CallablePurity

/-! ## The table -/

/-- The node takes an element of the value below it. -/
def Node.isFetch (n : Node) : Bool :=
  n.kind = .index

/-- The node converts the value below it to a string: a cast to string or a concatenation. -/
def Node.makesText : Node → Bool
  | .expr (.cast kind _) => kind = .string
  | .expr (.binary op _ _) => op = .concat
  | .expr (.assignOp op _ _) => op.operator = .concat
  | _ => false

/-- Values run no foreign code directly below nodes of this kind, unless they are converted to a
    string there. -/
def Kind.isHarmless : Kind → Bool
  | cast | binary | assignOp | unary | ret | assign | branch => true
  | _ => false

namespace Config

/-- A value of the declared type may run foreign code directly below the node; it runs none where
    there is no node. -/
def exposedBelow (c : Config) (declared : Option String) : Option Node → Bool
  | none => false
  | some n => if n.makesText then !c.isScalarLike declared else !n.kind.isHarmless

variable {c : Config} {n : Node}

/-- Whatever is no fetch decides by the table. -/
theorem runsForeignCode_of_not_fetch (h : n.isFetch = false) (declared : Option String)
    (outer : List Node) :
    c.runsForeignCode declared (n :: outer) = c.exposedBelow declared (some n) := by
  rw [runsForeignCode]
  cases n with
  | expr e =>
    cases e with
    | index base offset => cases h
    | cast kind operand => cases kind <;> rfl
    | binary op left right => cases op <;> rfl
    | assignOp op target value =>
      obtain ⟨op, hop⟩ := op
      cases op <;> rfl
    | _ => rfl
  | stmt s => cases s <;> rfl
  | _ => rfl

/-- A fetch of a plain value passes the element on. -/
theorem runsForeignCode_of_fetch (h : n.isFetch = true) (declared : Option String)
    (outer : List Node) :
    c.runsForeignCode declared (n :: outer)
      = (!c.isScalarLike declared || c.runsForeignCode (c.elementType declared) outer) := by
  have hhandling : n.handling = .element := by
    cases n with
    | expr e =>
      cases e with
      | index base offset => rfl
      | _ => cases h
    | stmt s => cases s <;> cases h
    | _ => cases h
  rw [runsForeignCode, hhandling]

theorem isScalarLike_of_isScalar {declared : Option String} (h : c.isScalar declared = true) :
    c.isScalarLike declared = true := by
  cases declared with
  | none => cases h
  | some t =>
    obtain ⟨hmembers, hscalar⟩ := (DeclaredType.consistsOf_some_iff c.scalarNames t).1 h
    refine (DeclaredType.consistsOf_some_iff _ t).2 ⟨hmembers, ?_⟩
    intro m hm
    exact List.mem_append_left _ (hscalar m hm)

/-! ## Rows of fetches -/

section Row

variable {declared : Option String} {fetches outer : List Node}

/-- Operations that do not start with a fetch decide by the first of them. -/
theorem runsForeignCode_of_head (houter : ∀ n, outer.head? = some n → n.isFetch = false) :
    c.runsForeignCode declared outer = c.exposedBelow declared outer.head? := by
  cases outer with
  | nil => rfl
  | cons n outer => exact runsForeignCode_of_not_fetch (houter n rfl) declared outer

variable (hfetches : ∀ n ∈ fetches, n.isFetch = true)

include hfetches

/-- A value that is not plain runs foreign code at the first fetch. -/
theorem runsForeignCode_fetches_of_not_plain (hne : fetches ≠ [])
    (h : c.isScalarLike declared = false) :
    c.runsForeignCode declared (fetches ++ outer) = true := by
  obtain ⟨n, rest, rfl⟩ := List.exists_cons_of_ne_nil hne
  rw [List.cons_append, runsForeignCode_of_fetch (hfetches n List.mem_cons_self), h]
  rfl

/-- A scalar passes all fetches and keeps its type. -/
theorem runsForeignCode_fetches_of_scalar (h : c.isScalar declared = true) :
    c.runsForeignCode declared (fetches ++ outer) = c.runsForeignCode declared outer := by
  induction fetches with
  | nil => rfl
  | cons n rest ih =>
    rw [List.forall_mem_cons] at hfetches
    have helement : c.elementType declared = declared := if_pos h
    rw [List.cons_append, runsForeignCode_of_fetch hfetches.1, isScalarLike_of_isScalar h, helement,
      ih hfetches.2]
    rfl

/-- Nothing is known of an element of a collection, so that it passes no second fetch. -/
theorem runsForeignCode_fetches_of_collection (hplain : c.isScalarLike declared = true)
    (hscalar : c.isScalar declared = false) (hne : fetches ≠ []) :
    c.runsForeignCode declared (fetches ++ outer)
      = if fetches.length = 1 then c.runsForeignCode none outer else true := by
  obtain ⟨n, rest, rfl⟩ := List.exists_cons_of_ne_nil hne
  rw [List.forall_mem_cons] at hfetches
  have helement : c.elementType declared = none := by
    unfold elementType
    rw [hscalar]
    rfl
  rw [List.cons_append, runsForeignCode_of_fetch hfetches.1, hplain, helement, Bool.not_true,
    Bool.false_or]
  cases rest with
  | nil => rfl
  | cons m rest =>
    rw [runsForeignCode_fetches_of_not_plain hfetches.2 (List.cons_ne_nil m rest) rfl]
    simp

end Row

/-- **The verdict in closed form.** Of the operations around a variable, given from the outermost to
    the nearest, let `count` be the number of fetches in the row nearest to it and `last?` the
    operation around that row. Without fetches the table decides for the declared type. With some, a
    value that is not plain runs foreign code. A scalar is decided by the table for its type after
    any number of fetches, and an element of a collection by the table for an unknown type after one
    fetch; after more it runs foreign code. -/
theorem runsForeignCode_eq_table (c : Config) (declared : Option String)
    (operations : List Node) :
    let last? := (operations.rdropWhile Node.isFetch).getLast?
    let count := (operations.rtakeWhile Node.isFetch).length
    let runs := c.runsForeignCode declared operations.reverse
    (count = 0 → runs = c.exposedBelow declared last?)
    ∧ (1 ≤ count → c.isScalarLike declared = false → runs = true)
    ∧ (c.isScalar declared = true → runs = c.exposedBelow declared last?)
    ∧ (c.isScalarLike declared = true → c.isScalar declared = false →
        (count = 1 → runs = c.exposedBelow none last?) ∧ (2 ≤ count → runs = true)) := by
  intro last? count runs
  -- nearest first: the row of fetches, and then what lies around it
  let outer := (operations.rdropWhile Node.isFetch).reverse
  let fetches := (operations.rtakeWhile Node.isFetch).reverse
  have hruns : runs = c.runsForeignCode declared (fetches ++ outer) := by
    rw [← List.reverse_append, List.rdropWhile_append_rtakeWhile]
  have hcount : fetches.length = count := List.length_reverse
  have hne : 1 ≤ count → fetches ≠ [] := by
    intro hone hnil
    rw [← hcount, hnil] at hone
    cases hone
  have hfetches : ∀ n ∈ fetches, n.isFetch = true :=
    fun n hn => List.mem_rtakeWhile_imp (List.mem_reverse.1 hn)
  have hhead : outer.head? = last? := List.head?_reverse
  have houter (declared : Option String) :
      c.runsForeignCode declared outer = c.exposedBelow declared last? := by
    rw [← hhead]
    refine runsForeignCode_of_head fun n hn => ?_
    obtain ⟨hlast, rfl⟩ := List.mem_getLast?_eq_getLast (hhead ▸ hn)
    exact Bool.eq_false_iff.2 (List.rdropWhile_last_not _ _ hlast)
  rw [hruns]
  refine ⟨?_, ?_, ?_, ?_⟩
  · intro hzero
    rw [List.length_eq_zero_iff.1 (hcount.trans hzero), List.nil_append, houter]
  · intro hone hplain
    exact runsForeignCode_fetches_of_not_plain hfetches (hne hone) hplain
  · intro hscalar
    rw [runsForeignCode_fetches_of_scalar hfetches hscalar, houter]
  · intro hplain hscalar
    constructor
    · intro hone
      rw [runsForeignCode_fetches_of_collection hfetches hplain hscalar (hne hone.ge), hcount,
        if_pos hone, houter]
    · intro htwo
      rw [runsForeignCode_fetches_of_collection hfetches hplain hscalar (hne (by omega)), hcount,
        if_neg (by omega)]

/-- In `return (string) $x[0][1];` the row of fetches is two long. An `int|string` passes it, an
    `array` and an object do not. An element of an `array` passes one fetch, but not the cast around
    it. -/
theorem runsForeignCode_eq_table_nested :
    let cast : Node := .expr (.cast .string .bare)
    let fetch : Node := .expr (.index .bare none)
    let ret : Node := .stmt (.ret none)
    let runs (t : String) (operations : List Node) : Bool :=
      standard.runsForeignCode (some t) operations.reverse
    standard.isScalar (some "?int|string") = true
    ∧ standard.isScalarLike (some "array") = true ∧ standard.isScalar (some "array") = false
    ∧ standard.isScalarLike (some "Foo") = false
    ∧ runs "?int|string" [ret, cast, fetch, fetch] = false
    ∧ runs "array" [ret, fetch, fetch] = true ∧ runs "Foo" [ret, fetch] = true
    ∧ runs "array" [ret, fetch] = false ∧ runs "array" [ret, cast, fetch] = true := by
  intro cast fetch ret runs
  have hscalar : standard.isScalar (some "?int|string") = true := by decide +kernel
  have hplain : standard.isScalarLike (some "array") = true := by decide +kernel
  have hcollection : standard.isScalar (some "array") = false := by decide +kernel
  have hobject : standard.isScalarLike (some "Foo") = false := by decide +kernel
  have htext : standard.isScalarLike (some "?int|string") = true := isScalarLike_of_isScalar hscalar
  refine ⟨hscalar, hplain, hcollection, hobject, ?_, ?_, ?_, ?_, ?_⟩
  · have hverdict := (runsForeignCode_eq_table standard (some "?int|string")
      [ret, cast, fetch, fetch]).2.2.1 hscalar
    refine hverdict.trans ?_
    show (!standard.isScalarLike (some "?int|string")) = false
    rw [htext]
    rfl
  · exact ((runsForeignCode_eq_table standard (some "array") [ret, fetch, fetch]).2.2.2 hplain
      hcollection).2 (by decide)
  · exact (runsForeignCode_eq_table standard (some "Foo") [ret, fetch]).2.1 (by decide) hobject
  · exact ((runsForeignCode_eq_table standard (some "array") [ret, fetch]).2.2.2 hplain
      hcollection).1 (by decide)
  · exact ((runsForeignCode_eq_table standard (some "array") [ret, cast, fetch]).2.2.2 hplain
      hcollection).1 (by decide)

end Config

end CallablePurity
