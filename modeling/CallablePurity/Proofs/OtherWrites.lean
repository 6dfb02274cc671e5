import CallablePurity.Proofs.LiteralRule

set_option autoImplicit false

/-! # Other writes to a variable with a known text

A variable with a known text must not be written by anything but the assignment that defines it. An
assignment writes the variable it is made to, or whose element it is made to; one to an array
literal, as in `[$a, [$b]] = $c`, writes the variables of all items (`Expr.Writes`). This file says
how far the rule for known texts keeps that: no other assignment writes the variable before the
defining one, and only a destructuring one does after it (`literalBindingsAt_other_writes`).

The second part is as far as it goes: a later destructuring assignment goes unnoticed
(`destructuring_unnoticed`). An earlier one is noticed, although not as a write: the variable in its
target is met before it is assigned. -/

namespace CallablePurity

/-! ## What an assignment writes -/

/-- An assignment to the expression writes the variable. -/
inductive Expr.Writes (name : String) : Expr → Prop
  | var {i : Ident} (h : i.text = name) : Writes name (.var (.named i))
  | index {base : Expr} {offset : Option Expr} (h : Writes name base) :
      Writes name (.index base offset)
  | item {items : List Expr} {item : Expr} (hitem : item ∈ items) (h : Writes name item) :
      Writes name (.array items)

/-- The node is an assignment to the expression, plain or compound. -/
inductive Node.AssignsTo (target : Expr) : Node → Prop
  | assign {value : Expr} : AssignsTo target (.expr (.assign target value))
  | assignOp {op : CompoundOperator} {value : Expr} :
      AssignsTo target (.expr (.assignOp op target value))

/-- An assignment to the expression takes its value apart. -/
def Expr.destructures : Expr → Bool
  | .array _ => true
  | .index base _ => base.destructures
  | _ => false

/-- Without destructuring, only the variable that is the target is written. -/
theorem Expr.Writes.targets {name : String} {e : Expr} (h : e.Writes name)
    (hwhole : e.destructures = false) : e.Targets name := by
  induction h with
  | var hname => exact .var hname
  | index _ ih => exact .index (ih hwhole)
  | item _ _ _ => cases hwhole

theorem Node.AssignsTo.spoils {name : String} {target : Expr} {n : Node} (h : n.AssignsTo target)
    (htarget : target.Targets name) : n.Spoils name := by
  cases h with
  | assign => exact .assign htarget
  | assignOp => exact .assignOp htarget

theorem Node.AssignsTo.target_mem_children {target : Expr} {n : Node} (h : n.AssignsTo target) :
    n.isBoundary = false ∧ .expr target ∈ n.children := by
  cases h <;> exact ⟨rfl, List.mem_cons_self⟩

/-! ## Variables below an assignment -/

namespace Occurrence

variable {o part place root : Occurrence}

theorem mem_inScope_of_part (hopen : o.node.isBoundary = false) (hpart : part ∈ o.parts)
    (h : place ∈ part.inScope) : place ∈ o.inScope := by
  rw [inScope_eq, hopen, inScopes_eq_flatMap]
  exact List.mem_cons_of_mem o (List.mem_flatMap.2 ⟨part, hpart, h⟩)

/-- What is found below every place of a child is found below the node, if it opens no scope. -/
theorem exists_mem_inScope_of_child {P : Node → Prop} {child : Node} (hplaced : Placed [o])
    (hopen : o.node.isBoundary = false) (hchild : child ∈ o.node.children)
    (h : ∀ part, Placed [part] → part.node = child → ∃ place ∈ part.inScope, P place.node) :
    ∃ place ∈ o.inScope, P place.node := by
  rw [← hplaced o (.here List.mem_cons_self), List.mem_map] at hchild
  obtain ⟨part, hpart, hnode⟩ := hchild
  have hplacedPart := (hplaced.parts List.mem_cons_self).of_mem hpart
  obtain ⟨place, hplace, hP⟩ := h part hplacedPart hnode
  exact ⟨place, mem_inScope_of_part hopen hpart hplace, hP⟩

/-- The scope of a place in the scope of a root is part of the scope of the root. -/
theorem mem_inScope_trans (ho : o ∈ root.inScope) (h : place ∈ o.inScope) :
    place ∈ root.inScope := by
  induction root using induction_parts with
  | step root ih =>
    have hmem := ho
    rw [inScope_eq, List.mem_cons] at hmem
    rcases hmem with rfl | hmem
    · exact h
    · split at hmem
      · cases hmem
      · next hopen =>
        rw [inScopes_eq_flatMap] at hmem
        obtain ⟨part, hpart, hmem⟩ := List.mem_flatMap.1 hmem
        exact mem_inScope_of_part (Bool.eq_false_iff.2 hopen) hpart (ih part hpart hmem)

/-- A variable that is written by an assignment to an expression stands in the expression. -/
theorem exists_var_of_writes {name : String} {e : Expr} (h : e.Writes name) (hplaced : Placed [o])
    (hnode : o.node = .expr e) : ∃ place ∈ o.inScope, place.node.IsVar name := by
  induction h generalizing o with
  | @var i hname =>
    refine ⟨o, ?_, i, hname, hnode⟩
    rw [inScope_eq]
    exact List.mem_cons_self
  | @index base offset _ ih =>
    have hchild : .expr base ∈ o.node.children := by
      rw [hnode]
      exact List.mem_cons_self
    exact exists_mem_inScope_of_child hplaced (by rw [hnode]; rfl) hchild fun _ => ih
  | @item items item hitem _ ih =>
    have hchild : .expr item ∈ o.node.children := by
      have hchildren : (Node.expr (.array items)).children = items.map .expr := List.append_nil _
      rw [hnode, hchildren]
      exact List.mem_map_of_mem hitem
    exact exists_mem_inScope_of_child hplaced (by rw [hnode]; rfl) hchild fun _ => ih

/-- The same for the assignment. -/
theorem exists_var_of_assignsTo {name : String} {target : Expr} (hplaced : Placed [o])
    (hassigns : o.node.AssignsTo target) (h : target.Writes name) :
    ∃ place ∈ o.inScope, place.node.IsVar name := by
  obtain ⟨hopen, hchild⟩ := hassigns.target_mem_children
  exact exists_mem_inScope_of_child hplaced hopen hchild fun _ => exists_var_of_writes h

/-- Before the expression of a statement of the body come the scopes of earlier statements, and the
    statement itself. -/
theorem TopLevel.exists_inScopes_eq {roots : List Occurrence} (h : place.TopLevel roots)
    (hplaced : Placed roots) :
    ∃ (earlier : List Occurrence) (root : Occurrence) (rest : List Occurrence),
      (∃ e, root.node = .stmt (.expression e))
      ∧ inScopes roots = (inScopes earlier ++ [root]) ++ place :: rest := by
  obtain ⟨root, hroot, ⟨e, hnode⟩, hpart⟩ := h
  obtain ⟨earlier, later, rfl⟩ := List.append_of_mem hroot
  have hparts : root.parts = [place] := by
    have hnodes := hplaced root (.here hroot)
    rw [hnode] at hnodes
    have hlength := congrArg List.length hnodes
    rw [List.length_map] at hlength
    obtain ⟨only, honly⟩ := List.length_eq_one_iff.1 hlength
    rw [honly, List.mem_singleton] at hpart
    rw [honly, hpart]
  have hroot : root.inScope = root :: place.inScope := by
    rw [inScope_eq, hnode, hparts, inScopes_eq_flatMap]
    exact congrArg (root :: ·) (List.append_nil _)
  refine ⟨earlier, root, (if place.node.isBoundary then [] else inScopes place.parts)
    ++ inScopes later, ⟨e, hnode⟩, ?_⟩
  rw [inScopes_eq_flatMap, List.flatMap_append, List.flatMap_cons, hroot, inScope_eq place,
    ← inScopes_eq_flatMap, ← inScopes_eq_flatMap]
  simp only [List.cons_append, List.append_assoc, List.nil_append]

end Occurrence

/-! ## Beside the defining assignment -/

namespace DefinedAt

open Occurrence

variable {roots before after : List Occurrence} {name value : String} {place : Occurrence}

/-- What comes before the defining assignment. -/
theorem before_eq (h : DefinedAt roots name value before place after) (hplaced : Placed roots) :
    ∃ (earlier : List Occurrence) (root : Occurrence), (∃ e, root.node = .stmt (.expression e))
      ∧ before = inScopes earlier ++ [root] := by
  obtain ⟨earlier, root, rest, hroot, hscope⟩ := h.topLevel.exists_inScopes_eq hplaced
  -- the place stands in the scope once, so both ways to split the scope at it are the same
  have hother {others : List Occurrence} (hothers : ∀ o ∈ others, o ∈ before ++ after) :
      place ∉ others := fun hmem => h.once place (hothers place hmem) value h.assigns
  have hbefore : place ∉ before := hother fun o ho => List.mem_append_left _ ho
  have hafter : place ∉ after := hother fun o ho => List.mem_append_right _ ho
  have hsplit := h.scope_eq.symm.trans hscope
  rw [List.append_cons_inj_of_notMem hbefore hafter] at hsplit
  exact ⟨earlier, root, hroot, hsplit.1⟩

/-- No assignment before the defining one writes the variable: it would meet it. -/
theorem not_writes_before (h : DefinedAt roots name value before place after)
    (hplaced : Placed roots) {o : Occurrence} (ho : o ∈ before) {target : Expr}
    (hassigns : o.node.AssignsTo target) : ¬ target.Writes name := by
  intro hwrites
  obtain ⟨earlier, root, ⟨e, hnode⟩, hbefore⟩ := h.before_eq hplaced
  -- the assignment stands in an earlier statement as a whole, and with it the variable it writes
  have hmem : o ∈ inScopes earlier := by
    rw [hbefore, List.mem_append, List.mem_singleton] at ho
    refine ho.resolve_right ?_
    rintro rfl
    rw [hnode] at hassigns
    cases hassigns
  have hwithin : Within o roots := by
    refine within_of_mem_inScopes ?_
    rw [h.scope_eq]
    exact List.mem_append_left _ ho
  obtain ⟨read, hread, hvar⟩ :=
    exists_var_of_assignsTo (hplaced.of_within hwithin) hassigns hwrites
  refine h.unread read ?_ hvar
  rw [inScopes_eq_flatMap] at hmem
  obtain ⟨r, hr, hmem⟩ := List.mem_flatMap.1 hmem
  rw [hbefore, inScopes_eq_flatMap]
  exact List.mem_append_left _ (List.mem_flatMap.2 ⟨r, hr, mem_inScope_trans hmem hread⟩)

/-- Only a destructuring assignment after the defining one writes the variable. -/
theorem destructures_after (h : DefinedAt roots name value before place after) {o : Occurrence}
    (ho : o ∈ after) {target : Expr} (hassigns : o.node.AssignsTo target)
    (hwrites : target.Writes name) : target.destructures = true := by
  by_contra hnot
  have htarget := hwrites.targets (Bool.eq_false_iff.2 hnot)
  exact h.unspoiled o (List.mem_append_right _ ho) (hassigns.spoils htarget)

end DefinedAt

/-- **Other writes to a variable with a known text.** If a variable is found to hold a text, one
    statement of the body assigns that text to it, no assignment before that one writes the
    variable, and those after it that do are destructuring ones. -/
theorem literalBindingsAt_other_writes {roots : List Occurrence}
    (hplaced : Occurrence.Placed roots) (hidentified : Occurrence.Identified roots)
    (bound : List String) {name value : String}
    (h : (literalBindingsAt roots bound).get? name = some value) :
    ∃ (before : List Occurrence) (place : Occurrence) (after : List Occurrence),
      Occurrence.inScopes roots = before ++ place :: after
      ∧ place.TopLevel roots ∧ place.node.AssignsText name value
      ∧ (∀ o ∈ before, ∀ target : Expr, o.node.AssignsTo target → ¬ target.Writes name)
      ∧ ∀ o ∈ after, ∀ target : Expr, o.node.AssignsTo target → target.Writes name →
          target.destructures = true := by
  have hseen := LiteralWatch.seen_scopeWalk hplaced hidentified bound
  obtain ⟨before, place, after, hdefined⟩ := ((hseen.get?_bindings name value).1 h).defined
  refine ⟨before, place, after, hdefined.scope_eq, hdefined.topLevel, hdefined.assigns, ?_, ?_⟩
  · intro o ho target hassigns
    exact hdefined.not_writes_before hplaced ho hassigns
  · intro o ho target hassigns hwrites
    exact hdefined.destructures_after ho hassigns hwrites

/-! ### A destructuring assignment after the defining one -/

namespace Destructured

def handler : Expr := .var (.named ⟨"handler", by decide⟩)

/-- `[$handler] = $pair` -/
def overwrite : Expr := .assign (.array [handler]) (.var (.named ⟨"pair", by decide⟩))

/-- `$handler = 'strlen'; [$handler] = $pair;` -/
def body : List Node :=
  [.stmt (.expression (.assign handler (.literal (.text "strlen")))), .stmt (.expression overwrite)]

theorem get?_bindings : (literalBindings body []).get? "handler" = some "strlen" := by
  cbv

end Destructured

open Destructured in
/-- In `$handler = 'strlen'; [$handler] = $pair;` the variable is found to hold a text. The first
    statement defines it. -/
theorem literalBindingsAt_other_writes_destructured :
    Occurrence.Placed (Occurrence.forest body) ∧ Occurrence.Identified (Occurrence.forest body)
    ∧ (literalBindings body []).get? "handler" = some "strlen"
    ∧ ∃ (before : List Occurrence) (place : Occurrence) (after : List Occurrence),
        Occurrence.inScopes (Occurrence.forest body) = before ++ place :: after
        ∧ place.TopLevel (Occurrence.forest body) ∧ place.node.AssignsText "handler" "strlen"
        ∧ (∀ o ∈ before, ∀ target : Expr, o.node.AssignsTo target → ¬ target.Writes "handler")
        ∧ ∀ o ∈ after, ∀ target : Expr, o.node.AssignsTo target → target.Writes "handler" →
            target.destructures = true := by
  have hplaced := Occurrence.placed_forest body
  have hidentified := Occurrence.identified_forest body
  exact ⟨hplaced, hidentified, get?_bindings,
    literalBindingsAt_other_writes hplaced hidentified [] get?_bindings⟩

open Destructured in
/-- There the second assignment writes the variable as well, and the text is outdated. -/
theorem destructuring_unnoticed :
    (literalBindings body []).get? "handler" = some "strlen"
    ∧ ¬ ∀ n ∈ body.flatMap Node.scope, ∀ target : Expr,
        n.AssignsTo target → target.Writes "handler" → n.AssignsText "handler" "strlen" := by
  refine ⟨get?_bindings, ?_⟩
  intro honly
  have hscope : .expr overwrite ∈ body.flatMap Node.scope := by
    refine List.mem_flatMap.2 ⟨.stmt (.expression overwrite), by simp [body], ?_⟩
    rw [Node.scope_eq]
    refine List.mem_cons_of_mem _ (List.mem_flatMap.2 ⟨.expr overwrite, List.mem_cons_self, ?_⟩)
    rw [Node.scope_eq]
    exact List.mem_cons_self
  have hwrites : (Expr.array [handler]).Writes "handler" := .item List.mem_cons_self (.var rfl)
  obtain ⟨i, -, hnode⟩ := honly _ hscope (.array [handler]) .assign hwrites
  cases hnode

end CallablePurity
