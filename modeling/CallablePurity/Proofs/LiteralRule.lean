import CallablePurity.LiteralBinding
import CallablePurity.Proofs.Walk.Pruning
import Mathlib

set_option autoImplicit false

/-! # The rule for known texts

Which variables of a body hold a known text is found out in one pass, which keeps lists of what it
has seen and decides at the end. The rule itself is about the body as a whole (`HoldsText`): the
variable is assigned a literal by one statement of the body, all its other occurrences come later,
and nothing in the scope may write it otherwise, before or after. This file says that the pass finds
exactly what the rule says, for trees that share objects in whatever way
(`literalBindingsAt_eq_rule`).

What the pass knows after some places is `LiteralWatch.Seen`: each of its lists is described by the
places entered so far. One more place keeps that (`LiteralWatch.Seen.enter`), and so it holds of the
whole scope. -/

namespace CallablePurity

/-! ## The rule -/

/-- A write to the expression changes the variable: it is the variable, or an element of something
    for which this holds. -/
inductive Expr.Targets (name : String) : Expr → Prop
  | var {i : Ident} (h : i.text = name) : Targets name (.var (.named i))
  | index {base : Expr} {offset : Option Expr} (h : Targets name base) :
      Targets name (.index base offset)

/-- The node may write the variable: it assigns to it, hands it over, or declares it to be shared
    with others. -/
@[mk_iff]
inductive Node.Spoils (name : String) : Node → Prop
  | assign {target value : Expr} (h : target.Targets name) :
      Spoils name (.expr (.assign target value))
  | assignOp {op : CompoundOperator} {target value : Expr} (h : target.Targets name) :
      Spoils name (.expr (.assignOp op target value))
  | call {function : Target} {args : List Expr} {arg : Expr} (harg : arg ∈ args)
      (h : arg.Targets name) : Spoils name (.expr (.call function args))
  | methodCall {receiver : Expr} {member : Member} {args : List Expr} {arg : Expr}
      (harg : arg ∈ args) (h : arg.Targets name) :
      Spoils name (.expr (.methodCall receiver member args))
  | staticCall {cls : Target} {member : Member} {args : List Expr} {arg : Expr}
      (harg : arg ∈ args) (h : arg.Targets name) :
      Spoils name (.expr (.staticCall cls member args))
  | new {cls : Instantiated} {args : List Expr} {arg : Expr} (harg : arg ∈ args)
      (h : arg.Targets name) : Spoils name (.expr (.new cls args))
  | otherExpr {kind : Ident} {parts : List Node} {part : Expr} (hpart : .expr part ∈ parts)
      (h : part.Targets name) : Spoils name (.expr (.other kind parts))
  | otherStmt {kind : Ident} {parts : List Node} {part : Expr} (hpart : .expr part ∈ parts)
      (h : part.Targets name) : Spoils name (.stmt (.other kind parts))
  | closure {c : Closure} {capture : Capture} (hcapture : capture ∈ c.captures)
      (hbyRef : capture.byRef = true) (h : capture.name.text = name) :
      Spoils name (.expr (.closure c))
  | global {vars : List VarName} {v : VarName} (hv : v ∈ vars) (h : (Expr.var v).Targets name) :
      Spoils name (.stmt (.global vars))
  | static {vars : List StaticVar} {v : StaticVar} (hv : v ∈ vars) (h : v.name.text = name) :
      Spoils name (.stmt (.static vars))

/-- The node is an assignment of a text literal to the variable. -/
def Node.AssignsText (name value : String) (n : Node) : Prop :=
  ∃ i : Ident, i.text = name ∧ n = .expr (.assign (.var (.named i)) (.literal (.text value)))

/-- The node is the variable. -/
def Node.IsVar (name : String) (n : Node) : Prop :=
  ∃ i : Ident, i.text = name ∧ n = .expr (.var (.named i))

/-- The place is the expression of a statement of the body itself. -/
def Occurrence.TopLevel (roots : List Occurrence) (o : Occurrence) : Prop :=
  ∃ root ∈ roots, (∃ e, root.node = .stmt (.expression e)) ∧ o ∈ root.parts

/-- The variable holds the text from the assignment at `place` on. -/
structure DefinedAt (roots : List Occurrence) (name value : String) (before : List Occurrence)
    (place : Occurrence) (after : List Occurrence) : Prop where
  scope_eq : Occurrence.inScopes roots = before ++ place :: after
  assigns : place.node.AssignsText name value
  topLevel : place.TopLevel roots
  /-- No other assignment gives it a text. -/
  once : ∀ o ∈ before ++ after, ∀ value', ¬ o.node.AssignsText name value'
  unspoiled : ∀ o ∈ before ++ after, ¬ o.node.Spoils name
  /-- All its other occurrences come later. -/
  unread : ∀ o ∈ before, ¬ o.node.IsVar name

/-- The variable is known to hold the text. -/
structure HoldsText (roots : List Occurrence) (bound : List String) (name value : String) :
    Prop where
  noComputedName : ∀ o ∈ Occurrence.inScopes roots, ∀ e, o.node ≠ .expr (.var (.computed e))
  notBound : name ∉ bound
  defined : ∃ before place after, DefinedAt roots name value before place after

/-! ## What a node does to the watch -/

theorem Expr.writtenName?_eq_some_iff (e : Expr) (name : String) :
    e.writtenName? = some name ↔ e.Targets name := by
  constructor
  · intro h
    fun_induction Expr.writtenName? e with
    | case1 i => exact .var (Option.some.inj h)
    | case2 base offset ih => exact .index (ih h)
    | case3 => cases h
  · intro h
    induction h with
    | var h => exact congrArg some h
    | index _ ih => exact ih

theorem Node.mem_filterMap_writtenName?_iff (parts : List Node) (name : String) :
    name ∈ parts.filterMap Node.writtenName?
      ↔ ∃ part, .expr part ∈ parts ∧ part.Targets name := by
  rw [List.mem_filterMap]
  constructor
  · rintro ⟨part, hpart, hname⟩
    cases part with
    | expr e => exact ⟨e, hpart, (e.writtenName?_eq_some_iff name).1 hname⟩
    | _ => cases hname
  · rintro ⟨e, he, htargets⟩
    exact ⟨.expr e, he, (e.writtenName?_eq_some_iff name).2 htargets⟩

theorem Expr.mem_filterMap_writtenName?_iff (args : List Expr) (name : String) :
    name ∈ args.filterMap Expr.writtenName? ↔ ∃ arg ∈ args, arg.Targets name := by
  simp [List.mem_filterMap, writtenName?_eq_some_iff]

/-- The node is neither an assignment nor a variable. -/
def Node.isPlain : Node → Bool
  | .expr (.assign _ _) | .expr (.var _) => false
  | _ => true

namespace LiteralWatch

/-- What entering a place does to the watch `w`, by the sort of its node. -/
inductive Entering (w : LiteralWatch) (o : Occurrence) : Prop
  | assign {i : Ident} {value : String}
      (hnode : o.node = .expr (.assign (.var (.named i)) (.literal (.text value))))
      (henter : w.enter o = w.assign o i.text value)
  | meet {i : Ident} (hnode : o.node = .expr (.var (.named i)))
      (henter : w.enter o = w.meet o i.text)
  | computed {e : Expr} (hnode : o.node = .expr (.var (.computed e)))
      (henter : w.enter o = { w with hasComputedName := true })
  | spoil (names : List String) (hassign : ∀ name value, ¬ o.node.AssignsText name value)
      (hvar : ∀ name, o.node ≠ .expr (.var name))
      (hnames : ∀ name, name ∈ names ↔ o.node.Spoils name) (henter : w.enter o = w.spoil names)

/-- A node that is neither an assignment nor a variable. -/
theorem Entering.of_plain {w : LiteralWatch} {o : Occurrence} (names : List String)
    (hplain : o.node.isPlain = true) (hnames : ∀ name, name ∈ names ↔ o.node.Spoils name)
    (henter : w.enter o = w.spoil names) : Entering w o := by
  refine .spoil names ?_ ?_ hnames henter
  · rintro name value ⟨i, -, hnode⟩
    rw [hnode] at hplain
    cases hplain
  · intro name hnode
    rw [hnode] at hplain
    cases hplain

/-- A node that has no part in any variable. -/
theorem Entering.nothing {w : LiteralWatch} {o : Occurrence} (henter : w.enter o = w)
    (hplain : o.node.isPlain = true) (hspoils : ∀ name, ¬ o.node.Spoils name) : Entering w o := by
  refine .of_plain [] hplain (fun name => iff_of_false List.not_mem_nil (hspoils name)) ?_
  rw [henter]
  simp [LiteralWatch.spoil]

/-- An assignment of a literal is noted, any other one spoils its target. -/
theorem entering_assign (w : LiteralWatch) (id : NodeId) (parts : List Occurrence)
    (target value : Expr) : Entering w ⟨id, .expr (.assign target value), parts⟩ := by
  by_cases hliteral : ∃ i text, target = .var (.named i) ∧ value = .literal (.text text)
  · obtain ⟨i, text, rfl, rfl⟩ := hliteral
    exact .assign rfl rfl
  · refine .spoil target.writtenName?.toList ?_ ?_ ?_ ?_
    · rintro _ text ⟨i, -, hnode⟩
      cases hnode
      exact hliteral ⟨i, text, rfl, rfl⟩
    · simp
    · intro name
      simp [Node.spoils_iff, target.writtenName?_eq_some_iff]
    · cases target with
      | var v =>
        cases v with
        | computed e => rfl
        | named i =>
          cases value with
          | literal s =>
            cases s with
            | text text => exact absurd ⟨i, text, rfl, rfl⟩ hliteral
            | _ => rfl
          | _ => rfl
      | _ => rfl

theorem entering (w : LiteralWatch) (o : Occurrence) : Entering w o := by
  obtain ⟨id, n, places⟩ := o
  cases n with
  | bare | name _ | param _ | capture _ | staticVar _ =>
    exact .nothing rfl rfl (by rintro name ⟨⟩)
  | expr e =>
    cases e with
    | var v =>
      cases v with
      | named i => exact .meet rfl rfl
      | computed e => exact .computed rfl rfl
    | assign target value => exact entering_assign w id places target value
    | assignOp op target value =>
      refine .of_plain _ rfl (fun name => ?_) rfl
      simp [Node.spoils_iff, target.writtenName?_eq_some_iff]
    | call function args | methodCall receiver member args | staticCall cls member args
    | new cls args =>
      refine .of_plain _ rfl (fun name => ?_) rfl
      rw [Expr.mem_filterMap_writtenName?_iff]
      simp [Node.spoils_iff]
    | other kind parts =>
      refine .of_plain _ rfl (fun name => ?_) rfl
      rw [Node.mem_filterMap_writtenName?_iff]
      simp [Node.spoils_iff]
    | closure c =>
      refine .of_plain _ rfl (fun name => ?_) rfl
      simp [Node.spoils_iff, and_assoc]
    | _ => exact .nothing rfl rfl (by rintro name ⟨⟩)
  | stmt s =>
    cases s with
    | global vars =>
      refine .of_plain _ rfl (fun name => ?_) rfl
      simp [Node.spoils_iff, Expr.writtenName?_eq_some_iff]
    | static vars =>
      refine .of_plain _ rfl (fun name => ?_) rfl
      simp [Node.spoils_iff]
    | other kind parts =>
      refine .of_plain _ rfl (fun name => ?_) rfl
      rw [Node.mem_filterMap_writtenName?_iff]
      simp [Node.spoils_iff]
    | _ => exact .nothing rfl rfl (by rintro name ⟨⟩)

end LiteralWatch

/-! ## The literals assigned at some places -/

/-- The variable and the text, where a node assigns a literal to a variable. -/
def Node.assignedText? : Node → Option (String × String)
  | .expr (.assign (.var (.named i)) (.literal (.text value))) => some (i.text, value)
  | _ => none

theorem Node.assignedText?_eq_some_iff (n : Node) (name value : String) :
    n.assignedText? = some (name, value) ↔ n.AssignsText name value := by
  constructor
  · intro h
    unfold assignedText? at h
    split at h
    · next i value' =>
      cases h
      exact ⟨i, rfl, rfl⟩
    · cases h
  · rintro ⟨i, rfl, rfl⟩
    rfl

theorem Node.assignedText?_eq_none_iff (n : Node) :
    n.assignedText? = none ↔ ∀ name value, ¬ n.AssignsText name value := by
  simp only [Option.eq_none_iff_forall_ne_some, ne_eq, Prod.forall, assignedText?_eq_some_iff]

/-- The text that a node assigns to a variable as a literal. -/
def Node.textFor? (name : String) (n : Node) : Option String :=
  n.assignedText?.bind fun e => if e.1 = name then some e.2 else none

theorem Node.textFor?_eq_some_iff (name value : String) (n : Node) :
    n.textFor? name = some value ↔ n.AssignsText name value := by
  rw [← n.assignedText?_eq_some_iff, textFor?, Option.bind_eq_some_iff]
  constructor
  · rintro ⟨⟨name', value'⟩, he, hvalue⟩
    split at hvalue
    · next hname =>
      cases hvalue
      obtain rfl : name' = name := hname
      exact he
    · cases hvalue
  · intro he
    exact ⟨(name, value), he, if_pos rfl⟩

theorem Node.textFor?_eq_none_iff (name : String) (n : Node) :
    n.textFor? name = none ↔ ∀ value, ¬ n.AssignsText name value := by
  simp only [Option.eq_none_iff_forall_ne_some, ne_eq, textFor?_eq_some_iff]

namespace Occurrence

/-- The assignments of literals at some places, in order. -/
def assignments (places : List Occurrence) : List (String × String) :=
  places.filterMap fun o => o.node.assignedText?

/-- The literals assigned to a variable at some places, in order. -/
def textsOf (name : String) (places : List Occurrence) : List String :=
  places.filterMap fun o => o.node.textFor? name

theorem assignments_concat (places : List Occurrence) (o : Occurrence) :
    assignments (places ++ [o]) = assignments places ++ o.node.assignedText?.toList := by
  unfold assignments
  rw [List.filterMap_append]
  cases h : o.node.assignedText? <;> simp [h]

theorem textsOf_concat (name : String) (places : List Occurrence) (o : Occurrence) :
    textsOf name (places ++ [o]) = textsOf name places ++ (o.node.textFor? name).toList := by
  unfold textsOf
  rw [List.filterMap_append]
  cases h : o.node.textFor? name <;> simp [h]

theorem textsOf_eq_nil_iff (name : String) (places : List Occurrence) :
    textsOf name places = [] ↔ ∀ o ∈ places, ∀ value, ¬ o.node.AssignsText name value := by
  simp only [textsOf, List.filterMap_eq_nil_iff, Node.textFor?_eq_none_iff]

/-- One literal is assigned to a variable exactly when one place assigns it and no other place
    assigns any. -/
theorem textsOf_eq_singleton_iff (name value : String) (places : List Occurrence) :
    textsOf name places = [value]
      ↔ ∃ before o after, places = before ++ o :: after ∧ o.node.AssignsText name value
        ∧ ∀ o' ∈ before ++ after, ∀ value', ¬ o'.node.AssignsText name value' := by
  simp only [textsOf, List.filterMap_eq_cons_iff, List.filterMap_eq_nil_iff,
    Node.textFor?_eq_some_iff, Node.textFor?_eq_none_iff, List.forall_mem_append]
  constructor
  · rintro ⟨before, o, after, rfl, hbefore, ho, hafter⟩
    exact ⟨before, o, after, rfl, ho, hbefore, hafter⟩
  · rintro ⟨before, o, after, rfl, ho, hbefore, hafter⟩
    exact ⟨before, o, after, rfl, hbefore, ho, hafter⟩

theorem within_of_mem_inScope (o : Occurrence) : ∀ place ∈ o.inScope, Within place [o] := by
  induction o using induction_parts with
  | step o ih =>
    intro place hplace
    rw [inScope_eq, List.mem_cons] at hplace
    rcases hplace with rfl | hplace
    · exact .here List.mem_cons_self
    · split at hplace
      · cases hplace
      · rw [inScopes_eq_flatMap] at hplace
        obtain ⟨part, hpart, hplace⟩ := List.mem_flatMap.1 hplace
        exact .under List.mem_cons_self ((ih part hpart place hplace).of_mem hpart)

theorem within_of_mem_inScopes {roots : List Occurrence} {place : Occurrence}
    (h : place ∈ inScopes roots) : Within place roots := by
  rw [inScopes_eq_flatMap] at h
  obtain ⟨o, ho, hplace⟩ := List.mem_flatMap.1 h
  exact (o.within_of_mem_inScope place hplace).of_mem ho

end Occurrence

/-! ## What the watch knows -/

namespace LiteralWatch

open Occurrence

/-- Objects that are expressions of statements are recognised by their identity. -/
theorem contains_topLevelOf_iff {roots : List Occurrence} (hidentified : Identified roots)
    {o : Occurrence} (ho : Within o roots) :
    (topLevelOf roots).contains o.id = true ↔ o.TopLevel roots := by
  rw [List.contains_iff_mem, topLevelOf, List.mem_flatMap]
  constructor
  · rintro ⟨root, hroot, hid⟩
    split at hid
    · next e hnode =>
      obtain ⟨part, hpart, hid⟩ := List.mem_map.1 hid
      have hsame : part = o := hidentified part o (.under hroot (.here hpart)) ho hid
      exact ⟨root, hroot, ⟨e, hnode⟩, hsame ▸ hpart⟩
    · cases hid
  · rintro ⟨root, hroot, ⟨e, hnode⟩, hpart⟩
    refine ⟨root, hroot, ?_⟩
    rw [hnode]
    exact List.mem_map_of_mem hpart

/-- The place makes the variable unfit, after the places before it: it assigns a literal, but not as
    a statement of the body; it may write the variable otherwise; or it meets the variable before
    any literal is assigned to it. -/
inductive SpoiledAt (roots before : List Occurrence) (o : Occurrence) (name : String) : Prop
  | nested {value : String} (hassigns : o.node.AssignsText name value) (hnot : ¬ o.TopLevel roots)
  | written (hassigns : ∀ value, ¬ o.node.AssignsText name value) (hspoils : o.node.Spoils name)
  | read (hvar : o.node.IsVar name) (hunassigned : textsOf name before = [])

/-- What the watch knows after the given places of the scope. -/
structure Seen (roots : List Occurrence) (bound : List String) (places : List Occurrence)
    (w : LiteralWatch) : Prop where
  topLevel_eq : w.topLevel = topLevelOf roots
  hasComputedName_iff :
    w.hasComputedName = true ↔ ∃ o ∈ places, ∃ e, o.node = .expr (.var (.computed e))
  get?_assigned : ∀ name, w.assigned.get? name
    = if textsOf name places = [] then none else some (textsOf name places)
  /-- Variables stand in the order of their first literals. -/
  firsts : (w.assigned.entries.map fun e => (e.1, e.2.headD "")).Sublist (assignments places)
  mem_spoiled_iff : ∀ name, name ∈ w.spoiled
    ↔ name ∈ bound ∨ ∃ before o after, places = before ++ o :: after ∧ SpoiledAt roots before o name
  /-- The variable that is waited for has been assigned a literal. -/
  writeTarget : ∀ id, w.writeTarget = some id → ∃ o i, Within o roots ∧ o.id = id
    ∧ o.node = .expr (.var (.named i)) ∧ textsOf i.text places ≠ []

theorem seen_start (roots : List Occurrence) (bound : List String) :
    Seen roots bound [] { start bound with topLevel := topLevelOf roots } where
  topLevel_eq := rfl
  hasComputedName_iff := by simp [start]
  get?_assigned := by simp [start, textsOf]
  firsts := by simp [start, OrderedMap.empty]
  mem_spoiled_iff := by simp [start]
  writeTarget := by simp [start]

/-! ### One more place -/

/-- A split of a list with one more item is a split of the list, or the new item is the one in the
    middle. -/
theorem exists_split_concat_iff {α : Type} {P : List α → α → Prop} (l : List α) (y : α) :
    (∃ before x after, l ++ [y] = before ++ x :: after ∧ P before x)
      ↔ (∃ before x after, l = before ++ x :: after ∧ P before x) ∨ P l y := by
  constructor
  · rintro ⟨before, x, after, hsplit, hP⟩
    rcases List.eq_nil_or_concat' after with rfl | ⟨after, z, rfl⟩
    · obtain ⟨rfl, heq⟩ := List.append_inj' hsplit rfl
      cases heq
      exact Or.inr hP
    · rw [← List.cons_append, ← List.append_assoc] at hsplit
      obtain ⟨rfl, -⟩ := List.append_inj' hsplit rfl
      exact Or.inl ⟨before, x, after, rfl, hP⟩
  · rintro (⟨before, x, after, rfl, hP⟩ | hP)
    · exact ⟨before, x, after ++ [y], by simp, hP⟩
    · exact ⟨l, y, [], rfl, hP⟩

namespace Seen

variable {roots places : List Occurrence} {bound : List String} {w : LiteralWatch} {o : Occurrence}

theorem getD_assigned (h : Seen roots bound places w) (name : String) :
    (w.assigned.get? name).getD [] = textsOf name places := by
  rw [h.get?_assigned]
  split <;> simp [*]

theorem contains_assigned_iff (h : Seen roots bound places w) (name : String) :
    w.assigned.contains name = true ↔ textsOf name places ≠ [] := by
  rw [OrderedMap.contains, h.get?_assigned]
  split <;> simp [*]

/-- The spoiled variables after one more place. -/
theorem mem_spoiled_concat_iff (h : Seen roots bound places w) {spoiled : List String}
    (hspoiled : ∀ name, name ∈ spoiled ↔ name ∈ w.spoiled ∨ SpoiledAt roots places o name)
    (name : String) :
    name ∈ spoiled ↔ name ∈ bound ∨ ∃ before x after,
      places ++ [o] = before ++ x :: after ∧ SpoiledAt roots before x name := by
  rw [hspoiled, h.mem_spoiled_iff, exists_split_concat_iff (P := fun before x =>
    SpoiledAt roots before x name), or_assoc]

theorem hasComputedName_concat_iff (h : Seen roots bound places w)
    (hnode : ∀ e, o.node ≠ .expr (.var (.computed e))) :
    w.hasComputedName = true
      ↔ ∃ o' ∈ places ++ [o], ∃ e, o'.node = .expr (.var (.computed e)) := by
  rw [h.hasComputedName_iff]
  simp [or_and_right, exists_or, hnode]

/-- A place that assigns no literal leaves the literals as they are. -/
theorem textsOf_concat_eq (hnone : o.node.assignedText? = none) (name : String) :
    textsOf name (places ++ [o]) = textsOf name places := by
  rw [textsOf_concat, Node.textFor?, hnone, Option.bind_none, Option.toList_none, List.append_nil]

/-- What is known of a place that assigns no literal. -/
theorem of_no_literal (h : Seen roots bound places w) {w' : LiteralWatch}
    (hnone : o.node.assignedText? = none) (hassigned : w'.assigned = w.assigned)
    (htopLevel : w'.topLevel = w.topLevel)
    (hcomputed : w'.hasComputedName = true
      ↔ ∃ o' ∈ places ++ [o], ∃ e, o'.node = .expr (.var (.computed e)))
    (hspoiled : ∀ name, name ∈ w'.spoiled ↔ name ∈ w.spoiled ∨ SpoiledAt roots places o name)
    (htarget : ∀ id, w'.writeTarget = some id → w.writeTarget = some id) :
    Seen roots bound (places ++ [o]) w' where
  topLevel_eq := htopLevel.trans h.topLevel_eq
  hasComputedName_iff := hcomputed
  get?_assigned := by
    intro name
    rw [textsOf_concat_eq hnone, hassigned, h.get?_assigned]
  firsts := by
    rw [assignments_concat, hnone, Option.toList_none, List.append_nil, hassigned]
    exact h.firsts
  mem_spoiled_iff := h.mem_spoiled_concat_iff hspoiled
  writeTarget := by
    intro id hid
    obtain ⟨target, i, hwithin, htargetId, hnode, htexts⟩ := h.writeTarget id (htarget id hid)
    rw [← textsOf_concat_eq hnone] at htexts
    exact ⟨target, i, hwithin, htargetId, hnode, htexts⟩

theorem spoil (h : Seen roots bound places w) {names : List String}
    (hassign : ∀ name value, ¬ o.node.AssignsText name value)
    (hvar : ∀ name, o.node ≠ .expr (.var name))
    (hnames : ∀ name, name ∈ names ↔ o.node.Spoils name) :
    Seen roots bound (places ++ [o]) (w.spoil names) := by
  refine h.of_no_literal (o.node.assignedText?_eq_none_iff.2 hassign) rfl rfl
    (h.hasComputedName_concat_iff fun e => hvar (.computed e)) ?_ fun _ hid => hid
  intro name
  show name ∈ w.spoiled ++ names ↔ _
  rw [List.mem_append, hnames]
  refine or_congr_right ⟨.written (hassign name), ?_⟩
  rintro (⟨hassigns, -⟩ | ⟨-, hspoils⟩ | ⟨⟨i, -, hnode⟩, -⟩)
  · exact absurd hassigns (hassign name _)
  · exact hspoils
  · exact absurd hnode (hvar (.named i))

theorem computed (h : Seen roots bound places w) {e : Expr}
    (hnode : o.node = .expr (.var (.computed e))) :
    Seen roots bound (places ++ [o]) { w with hasComputedName := true } := by
  refine h.of_no_literal (by rw [hnode]; rfl) rfl rfl ?_ ?_ fun _ hid => hid
  · exact iff_of_true rfl ⟨o, List.mem_append_right _ List.mem_cons_self, e, hnode⟩
  · intro name
    refine (or_iff_left ?_).symm
    rintro (⟨⟨i, -, hassign⟩, -⟩ | ⟨-, hspoils⟩ | ⟨⟨i, -, hvar⟩, -⟩)
    · cases hnode.symm.trans hassign
    · rw [hnode] at hspoils
      cases hspoils
    · cases hnode.symm.trans hvar

/-- A variable that is met spoils itself if no literal has been assigned to it yet. -/
theorem spoiledAt_var_iff {i : Ident} (hnode : o.node = .expr (.var (.named i))) (name : String) :
    SpoiledAt roots places o name ↔ i.text = name ∧ textsOf name places = [] := by
  constructor
  · rintro (⟨⟨j, -, hassign⟩, -⟩ | ⟨-, hspoils⟩ | ⟨⟨j, hj, hvar⟩, hunassigned⟩)
    · cases hnode.symm.trans hassign
    · rw [hnode] at hspoils
      cases hspoils
    · cases hnode.symm.trans hvar
      exact ⟨hj, hunassigned⟩
  · rintro ⟨hname, hunassigned⟩
    exact .read ⟨i, hname, hnode⟩ hunassigned

theorem meet (h : Seen roots bound places w) (hidentified : Identified roots)
    (ho : Within o roots) {i : Ident} (hnode : o.node = .expr (.var (.named i))) :
    Seen roots bound (places ++ [o]) (w.meet o i.text) := by
  have hnone : o.node.assignedText? = none := by
    rw [hnode]
    rfl
  have hcomputed := h.hasComputedName_concat_iff (o := o) (by rw [hnode]; nofun)
  have hassigned (htexts : textsOf i.text places ≠ []) (name : String) :
      ¬ SpoiledAt roots places o name := by
    rw [spoiledAt_var_iff hnode]
    rintro ⟨rfl, hnil⟩
    exact htexts hnil
  unfold LiteralWatch.meet
  split
  · -- the object waited for is this one, and it has been assigned a literal
    next htarget =>
    obtain ⟨target, j, hwithin, hid, hvar, htexts⟩ := h.writeTarget o.id htarget
    have hsame : target = o := hidentified target o hwithin ho hid
    rw [hsame] at hvar
    cases hnode.symm.trans hvar
    exact h.of_no_literal hnone rfl rfl hcomputed (fun name => (or_iff_left (hassigned htexts
      name)).symm) nofun
  split
  · next hcontains =>
    have htexts := (h.contains_assigned_iff i.text).1 hcontains
    exact h.of_no_literal hnone rfl rfl hcomputed (fun name => (or_iff_left (hassigned htexts
      name)).symm) fun _ hid => hid
  · next hcontains =>
    have htexts : textsOf i.text places = [] :=
      Decidable.of_not_not (mt (h.contains_assigned_iff i.text).2 hcontains)
    refine h.of_no_literal hnone rfl rfl hcomputed ?_ fun _ hid => hid
    intro name
    show name ∈ w.spoiled ++ [i.text] ↔ _
    rw [List.mem_append, List.mem_singleton, spoiledAt_var_iff hnode]
    refine or_congr_right ⟨?_, fun hspoiled => hspoiled.1.symm⟩
    rintro rfl
    exact ⟨rfl, htexts⟩

/-- An assignment of a literal spoils its variable unless it is a statement of the body. -/
theorem spoiledAt_assign_iff {i : Ident} {value : String}
    (hnode : o.node = .expr (.assign (.var (.named i)) (.literal (.text value)))) (name : String) :
    SpoiledAt roots places o name ↔ i.text = name ∧ ¬ o.TopLevel roots := by
  constructor
  · rintro (⟨⟨j, hj, hassign⟩, hnot⟩ | ⟨hassigns, hspoils⟩ | ⟨⟨j, -, hvar⟩, -⟩)
    · cases hnode.symm.trans hassign
      exact ⟨hj, hnot⟩
    · rw [hnode] at hspoils
      obtain ⟨⟨hname⟩⟩ := hspoils
      exact absurd ⟨i, hname, hnode⟩ (hassigns value)
    · cases hnode.symm.trans hvar
  · rintro ⟨hname, hnot⟩
    exact .nested ⟨i, hname, hnode⟩ hnot

theorem assign (h : Seen roots bound places w) (hidentified : Identified roots)
    (hplaced : Placed roots) (ho : Within o roots) {i : Ident} {value : String}
    (hnode : o.node = .expr (.assign (.var (.named i)) (.literal (.text value)))) :
    Seen roots bound (places ++ [o]) (w.assign o i.text value) := by
  have hassigned : o.node.assignedText? = some (i.text, value) := by
    rw [hnode]
    rfl
  have htexts (name : String) : textsOf name (places ++ [o])
      = textsOf name places ++ if i.text = name then [value] else [] := by
    rw [textsOf_concat, Node.textFor?, hassigned, Option.bind_some]
    split <;> rfl
  refine ⟨h.topLevel_eq, ?_, ?_, ?_, ?_, ?_⟩
  · exact h.hasComputedName_concat_iff (by rw [hnode]; nofun)
  · intro name
    show (w.assigned.insert i.text _).get? name = _
    rw [OrderedMap.get?_insert, h.getD_assigned, htexts]
    by_cases hname : name = i.text
    · subst hname
      simp
    · have hother : (if i.text = name then [value] else []) = [] :=
        if_neg fun heq => hname heq.symm
      rw [if_neg hname, hother, List.append_nil, h.get?_assigned]
  · rw [assignments_concat, hassigned, Option.toList_some]
    show ((w.assigned.insert i.text _).entries.map _).Sublist _
    rw [h.getD_assigned]
    cases hold : w.assigned.get? i.text with
    | none =>
      have hnil : textsOf i.text places = [] := by
        rw [← h.getD_assigned, hold]
        rfl
      rw [OrderedMap.entries_insert_of_none _ hold, List.map_append, hnil]
      exact h.firsts.append_right _
    | some texts =>
      obtain ⟨first, rest, hcons⟩ : ∃ first rest, textsOf i.text places = first :: rest := by
        refine List.exists_cons_of_ne_nil ((h.contains_assigned_iff i.text).1 ?_)
        rw [OrderedMap.contains, hold]
        rfl
      have htexts : texts = textsOf i.text places := by
        rw [← h.getD_assigned, hold]
        rfl
      rw [OrderedMap.map_entries_insert_of_some (fun texts => texts.headD "") hold
        (by rw [htexts, hcons]; rfl)]
      exact h.firsts.trans (List.sublist_append_left _ _)
  · refine h.mem_spoiled_concat_iff fun name => ?_
    show name ∈ (if w.topLevel.contains o.id then w.spoiled else w.spoiled ++ [i.text]) ↔ _
    rw [spoiledAt_assign_iff hnode, ← contains_topLevelOf_iff hidentified ho, h.topLevel_eq]
    split
    · next htop => simp only [htop, not_true, and_false, or_false]
    · next htop =>
      rw [List.mem_append, List.mem_singleton]
      exact or_congr_right ⟨fun heq => ⟨heq.symm, htop⟩, fun hspoiled => hspoiled.1.symm⟩
  · intro id hid
    have hchildren : o.parts.map Occurrence.node
        = [.expr (.var (.named i)), .expr (.literal (.text value))] := by
      rw [hplaced o ho, hnode]
      rfl
    obtain ⟨target, rest, hparts, htarget, -⟩ := List.map_eq_cons_iff.1 hchildren
    have hid : some target.id = some id := by
      rw [← hid]
      show _ = o.parts.head?.map Occurrence.id
      rw [hparts]
      rfl
    have hwithin : Within target roots := ho.trans (.here (hparts ▸ List.mem_cons_self))
    refine ⟨target, i, hwithin, Option.some.inj hid, htarget, ?_⟩
    rw [htexts, if_pos rfl]
    exact List.append_ne_nil_of_right_ne_nil _ (by simp)

/-- Entering one more place keeps what is known. -/
theorem enter (h : Seen roots bound places w) (hidentified : Identified roots)
    (hplaced : Placed roots) (ho : Within o roots) :
    Seen roots bound (places ++ [o]) (w.enter o) := by
  cases w.entering o with
  | assign hnode henter =>
    rw [henter]
    exact h.assign hidentified hplaced ho hnode
  | meet hnode henter =>
    rw [henter]
    exact h.meet hidentified ho hnode
  | computed hnode henter =>
    rw [henter]
    exact h.computed hnode
  | spoil names hassign hvar hnames henter =>
    rw [henter]
    exact h.spoil hassign hvar hnames

/-- Entering several places one after the other keeps what is known. -/
theorem foldl_enter (h : Seen roots bound places w) (hidentified : Identified roots)
    (hplaced : Placed roots) {more : List Occurrence} (hmore : ∀ o ∈ more, Within o roots) :
    Seen roots bound (places ++ more) (more.foldl LiteralWatch.enter w) := by
  induction more generalizing places w with
  | nil =>
    rw [List.append_nil]
    exact h
  | cons o more ih =>
    rw [List.forall_mem_cons] at hmore
    have hrest := ih (h.enter hidentified hplaced hmore.1) hmore.2
    rw [List.append_assoc] at hrest
    exact hrest

end Seen

/-! ## Whole walks -/

/-- Of nested events only those count that enter a place. -/
theorem foldl_react_nested (bound : List String) {events : List Event} (h : Event.Nested events)
    (w : LiteralWatch) :
    events.foldl (react bound) w = (events.filterMap Event.entered?).foldl enter w := by
  induction h generalizing w with
  | nil => rfl
  | @visit o inner rest _ _ ihInner ihRest =>
    have hentered : (Event.enter o :: (inner ++ .leave o :: rest)).filterMap Event.entered?
        = o :: (inner.filterMap Event.entered? ++ rest.filterMap Event.entered?) := by
      simp only [List.filterMap_cons, List.filterMap_append, Event.entered?]
    rw [hentered, List.foldl_cons, List.foldl_append, List.foldl_cons, List.foldl_cons,
      List.foldl_append, ihInner, ihRest]
    rfl

/-- After a walk the watch knows the whole scope. -/
theorem seen_scopeWalk {roots : List Occurrence} (hplaced : Placed roots)
    (hidentified : Identified roots) (bound : List String) :
    Seen roots bound (inScopes roots) ((scopeWalk roots).foldl (react bound) (start bound)) := by
  have hwalk : (scopeWalk roots).foldl (react bound) (start bound)
      = (inScopes roots).foldl enter { start bound with topLevel := topLevelOf roots } := by
    rw [scopeWalk, (Gate.shows_walk hidentified.acyclic .opened).pass_eq, prunedWalk,
      List.foldl_cons, List.foldl_append, foldl_react_nested bound (nested_scopeTours roots),
      entered_scopeTours]
    rfl
  rw [hwalk]
  exact (seen_start roots bound).foldl_enter hidentified hplaced
    fun o ho => within_of_mem_inScopes ho

/-! ## What is found -/

/-- The decision that is made of each variable in the end. -/
theorem get?_bindings_eq_some_iff (w : LiteralWatch) (name value : String) :
    w.bindings.get? name = some value
      ↔ w.hasComputedName = false ∧ w.assigned.get? name = some [value] ∧ name ∉ w.spoiled := by
  unfold bindings
  cases w.hasComputedName with
  | true => simp
  | false =>
    rw [if_neg Bool.false_ne_true, OrderedMap.get?_filterMap, Option.bind_eq_some_iff]
    constructor
    · rintro ⟨values, hvalues, hvalue⟩
      split at hvalue
      · split at hvalue
        · cases hvalue
        · next hspoiled =>
          cases hvalue
          exact ⟨rfl, hvalues, fun hmem => hspoiled (List.contains_iff_mem.2 hmem)⟩
      · cases hvalue
    · rintro ⟨-, hvalues, hspoiled⟩
      exact ⟨[value], hvalues, if_neg fun hmem => hspoiled (List.contains_iff_mem.1 hmem)⟩

/-- What is found stands in the order in which it was noted. -/
theorem entries_bindings_sublist (w : LiteralWatch) :
    w.bindings.entries.Sublist (w.assigned.entries.map fun e => (e.1, e.2.headD "")) := by
  unfold bindings
  split
  · exact List.nil_sublist _
  · refine OrderedMap.entries_filterMap_sublist (g := fun texts => texts.headD "") ?_ w.assigned
    intro name values value hvalue
    split at hvalue
    · split at hvalue
      · cases hvalue
      · exact (Option.some.inj hvalue).symm
    · cases hvalue

/-- Of two places of a list one comes before the other. -/
theorem mem_before_or_mem_earlier {α : Type} {before after earlier later : List α} {x y : α}
    (h : before ++ x :: after = earlier ++ y :: later) (hne : y ≠ x) :
    y ∈ before ∨ x ∈ earlier := by
  rcases List.append_eq_append_iff.1 h with ⟨mid, rfl, hmid⟩ | ⟨mid, rfl, hmid⟩
  · cases mid with
    | nil => exact absurd (List.cons.inj hmid).1.symm hne
    | cons z mid =>
      obtain rfl := (List.cons.inj hmid).1
      exact Or.inr (by simp)
  · cases mid with
    | nil => exact absurd (List.cons.inj hmid).1 hne
    | cons z mid =>
      obtain rfl := (List.cons.inj hmid).1
      exact Or.inl (by simp)

namespace Seen

variable {roots : List Occurrence} {bound : List String} {w : LiteralWatch}

/-- Where one place alone assigns a variable a literal, it defines the variable exactly when no
    place makes it unfit. -/
theorem not_exists_spoiledAt_iff {name value : String} {before after : List Occurrence}
    {place : Occurrence} (hscope : inScopes roots = before ++ place :: after)
    (hassigns : place.node.AssignsText name value)
    (honce : ∀ o ∈ before ++ after, ∀ value', ¬ o.node.AssignsText name value') :
    (¬ ∃ earlier o later, inScopes roots = earlier ++ o :: later ∧ SpoiledAt roots earlier o name)
      ↔ DefinedAt roots name value before place after := by
  have hsplit {o : Occurrence} (ho : o ∈ inScopes roots) :
      ∃ earlier later, inScopes roots = earlier ++ o :: later := List.append_of_mem ho
  have hothers {o : Occurrence} (ho : o ∈ before ++ after) : o ∈ inScopes roots := by
    rw [hscope]
    grind
  constructor
  · intro hclean
    refine ⟨hscope, hassigns, ?_, honce, ?_, ?_⟩
    · by_contra hnot
      exact hclean ⟨before, place, after, hscope, .nested hassigns hnot⟩
    · intro o ho hspoils
      obtain ⟨earlier, later, heq⟩ := hsplit (hothers ho)
      exact hclean ⟨earlier, o, later, heq, .written (honce o ho) hspoils⟩
    · intro o ho hvar
      obtain ⟨earlier, later, rfl⟩ := List.append_of_mem ho
      refine hclean ⟨earlier, o, later ++ place :: after, by simp [hscope], .read hvar ?_⟩
      rw [textsOf_eq_nil_iff]
      intro o' ho'
      exact honce o' (by simp [ho'])
  · rintro hdefined ⟨earlier, o, later, hscope', hspoiled⟩
    have ho : o = place ∨ o ∈ before ++ after := by
      have hmem : o ∈ inScopes roots := hscope' ▸ List.mem_append_right _ List.mem_cons_self
      rw [hscope] at hmem
      grind
    cases hspoiled with
    | nested hassigns' hnot =>
      rcases ho with rfl | ho
      · exact hnot hdefined.topLevel
      · exact honce o ho _ hassigns'
    | written hassigns' hspoils =>
      rcases ho with rfl | ho
      · exact hassigns' _ hassigns
      · exact hdefined.unspoiled o ho hspoils
    | read hvar hunassigned =>
      have hne : o ≠ place := by
        rintro rfl
        obtain ⟨i, -, hnode⟩ := hassigns
        obtain ⟨j, -, hnode'⟩ := hvar
        cases hnode.symm.trans hnode'
      rw [textsOf_eq_nil_iff] at hunassigned
      rcases mem_before_or_mem_earlier (hscope.symm.trans hscope') hne with ho | hplace
      · exact hdefined.unread o ho hvar
      · exact hunassigned place hplace value hassigns

/-- What has been noted after the whole scope is what the rule is about. -/
theorem get?_bindings (h : Seen roots bound (inScopes roots) w) (name value : String) :
    w.bindings.get? name = some value ↔ HoldsText roots bound name value := by
  have hcomputed : w.hasComputedName = false
      ↔ ∀ o ∈ inScopes roots, ∀ e, o.node ≠ .expr (.var (.computed e)) := by
    rw [← Bool.not_eq_true, h.hasComputedName_iff]
    simp only [not_exists, not_and, ne_eq]
  have hassigned : w.assigned.get? name = some [value]
      ↔ ∃ before o after, inScopes roots = before ++ o :: after
        ∧ o.node.AssignsText name value
        ∧ ∀ o' ∈ before ++ after, ∀ value', ¬ o'.node.AssignsText name value' := by
    rw [← textsOf_eq_singleton_iff, h.get?_assigned]
    split <;> simp [*]
  rw [get?_bindings_eq_some_iff, hcomputed, hassigned, h.mem_spoiled_iff, not_or]
  constructor
  · rintro ⟨hnames, ⟨before, place, after, hscope, hassigns, honce⟩, hbound, hclean⟩
    have hdefined := (not_exists_spoiledAt_iff hscope hassigns honce).1 hclean
    exact ⟨hnames, hbound, before, place, after, hdefined⟩
  · rintro ⟨hnames, hbound, before, place, after, hdefined⟩
    have hclean := (not_exists_spoiledAt_iff hdefined.scope_eq hdefined.assigns hdefined.once).2
      hdefined
    exact ⟨hnames, ⟨before, place, after, hdefined.scope_eq, hdefined.assigns, hdefined.once⟩,
      hbound, hclean⟩

end Seen

end LiteralWatch

/-- **The known texts are exactly those of the rule**, in trees that share objects in whatever way:
    a variable is found with a text when the rule says that it holds the text, and the variables
    found stand in the order of their assignments. -/
theorem literalBindingsAt_eq_rule {roots : List Occurrence} (hplaced : Occurrence.Placed roots)
    (hidentified : Occurrence.Identified roots) (bound : List String) :
    (∀ name value,
      (literalBindingsAt roots bound).get? name = some value ↔ HoldsText roots bound name value)
    ∧ (literalBindingsAt roots bound).entries.Sublist
        (Occurrence.assignments (Occurrence.inScopes roots)) := by
  have hseen := LiteralWatch.seen_scopeWalk hplaced hidentified bound
  refine ⟨fun name value => hseen.get?_bindings name value, ?_⟩
  exact (LiteralWatch.entries_bindings_sublist _).trans hseen.firsts

/-- In `$f = 'strlen'; $f($x); $f($x);`, where the two calls are one object, `$f` holds `strlen`; it
    does not if the caller supplies its value, and nothing is known of `$x`. -/
theorem literalBindingsAt_eq_rule_on_shared_call :
    let f : VarName := .named ⟨"f", by decide⟩
    let x : VarName := .named ⟨"x", by decide⟩
    let define := Occurrence.ofNode [0]
      (.stmt (.expression (.assign (.var f) (.literal (.text "strlen")))))
    let use := Occurrence.ofNode [1] (.stmt (.expression (.call (.computed (.var f)) [.var x])))
    let roots := [define, use, use]
    Occurrence.Placed roots ∧ Occurrence.Identified roots
    ∧ HoldsText roots [] "f" "strlen" ∧ ¬ HoldsText roots ["f"] "f" "strlen"
    ∧ ∀ value, ¬ HoldsText roots [] "x" value := by
  intro f x define use roots
  have hroots : ∀ o ∈ roots, o = define ∨ o = use := by
    intro o ho
    simpa [roots] using ho
  have hscratch : ∀ o ∈ roots, ∃ i n, o = Occurrence.ofNode [i] n := by
    intro o ho
    rcases hroots o ho with rfl | rfl
    · exact ⟨_, _, rfl⟩
    · exact ⟨_, _, rfl⟩
  have hplaced : Occurrence.Placed roots :=
    Occurrence.placed_of_ofNode fun o ho => let ⟨i, n, h⟩ := hscratch o ho; ⟨[i], n, h⟩
  have hidentified : Occurrence.Identified roots := by
    refine Occurrence.identified_of_ofNode hscratch ?_
    intro o ho o' ho' hid
    rcases hroots o ho with rfl | rfl <;> rcases hroots o' ho' with rfl | rfl <;>
      first | rfl | (simp [define, use, Occurrence.id_ofNode] at hid)
  have hfound : (literalBindingsAt roots []).entries = [("f", "strlen")] := by
    simp only [roots, define, use, f, x]
    cbv
  have hbound : (literalBindingsAt roots ["f"]).entries = [] := by
    simp only [roots, define, use, f, x]
    cbv
  have hrule := (literalBindingsAt_eq_rule hplaced hidentified []).1
  have hruleBound := (literalBindingsAt_eq_rule hplaced hidentified ["f"]).1
  refine ⟨hplaced, hidentified, ?_, ?_, ?_⟩
  · rw [← hrule, OrderedMap.get?, hfound]
    rfl
  · rw [← hruleBound, OrderedMap.get?, hbound]
    simp
  · intro value
    rw [← hrule, OrderedMap.get?, hfound]
    simp [List.lookup_cons]

end CallablePurity
