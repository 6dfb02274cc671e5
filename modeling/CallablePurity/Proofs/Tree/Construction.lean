import CallablePurity.Proofs.Tree.Checking
import CallablePurity.Proofs.Walk.Pruning

set_option autoImplicit false

/-! # Construction accepts exactly the schema

Drafts are built from the inside out. They are accepted if all their parts conform to the schema;
otherwise the first part that does not conform, in the order of building, is the one that is
complained about (`Draft.build_exact`). What is accepted is kept: the children of a node are the
nodes that are offered for its fields, and a walk enters every node of the draft once. -/

namespace CallablePurity

/-! ## Words -/

/-- A vocabulary whose words are read back from how they are written has a text exactly if it reads
    a word from it. -/
theorem Vocabulary.word_cases_of_read {α : Type} {read : String → Option α} {write : α → String}
    {make : α → Atom} {vocabulary : Vocabulary} {text : String}
    (hword : vocabulary.word text = match (read text).map make with
      | some a => .ok a
      | none => .error (.unknownWord vocabulary text))
    (hread : ∀ a, read text = some a → write a = text) (hwrite : ∀ a, read (write a) = some a)
    (hhas : vocabulary.Has text ↔ ∃ a, write a = text)
    (hshape : ∀ a, (make a).shape = .word vocabulary (write a)) :
    (∃ a, vocabulary.word text = .ok a ∧ vocabulary.Has text ∧ a.shape = .word vocabulary text)
      ∨ vocabulary.word text = .error (.unknownWord vocabulary text) ∧ ¬ vocabulary.Has text := by
  cases h : read text with
  | some a =>
    rw [h] at hword
    have hwritten := hread a h
    exact Or.inl ⟨make a, hword, hhas.2 ⟨a, hwritten⟩, hwritten ▸ hshape a⟩
  | none =>
    rw [h] at hword
    refine Or.inr ⟨hword, fun hmem => ?_⟩
    obtain ⟨a, rfl⟩ := hhas.1 hmem
    cases (hwrite a).symm.trans h

theorem Vocabulary.word_cases (vocabulary : Vocabulary) (text : String) :
    (∃ a, vocabulary.word text = .ok a ∧ vocabulary.Has text ∧ a.shape = .word vocabulary text)
      ∨ vocabulary.word text = .error (.unknownWord vocabulary text) ∧ ¬ vocabulary.Has text := by
  cases vocabulary with
  | binaryOperator =>
    exact word_cases_of_read rfl (fun op => (BinaryOperator.ofText?_eq_some_iff text op).1)
      BinaryOperator.ofText?_text Iff.rfl fun _ => rfl
  | unaryOperator =>
    refine word_cases_of_read rfl (fun op h => ?_) UnaryOperator.ofText?_text Iff.rfl fun _ => rfl
    simpa using List.find?_some h
  | castKind =>
    refine word_cases_of_read rfl (fun kind h => ?_) CastKind.ofText?_text Iff.rfl fun _ => rfl
    simpa using List.find?_some h

namespace Draft

/-! ## Parts -/

/-- A property of drafts that follows from the same property of their parts holds of all drafts. -/
@[elab_as_elim]
theorem induction_parts {motive : Draft → Prop} (scalar : ∀ s, motive (.scalar s))
    (word : ∀ vocabulary text, motive (.word vocabulary text))
    (tuple : ∀ items, (∀ d ∈ items, motive d) → motive (.tuple items))
    (list : ∀ items, (∀ d ∈ items, motive d) → motive (.list items))
    (node : ∀ kind fields, (∀ d ∈ fields.map Prod.snd, motive d) → motive (.node kind fields)) :
    ∀ d, motive d
  | .scalar s => scalar s
  | .word vocabulary text => word vocabulary text
  | .tuple items => tuple items fun d _ => induction_parts scalar word tuple list node d
  | .list items => list items fun d _ => induction_parts scalar word tuple list node d
  | .node kind fields =>
    node kind fields fun d _ => induction_parts scalar word tuple list node d
termination_by d => sizeOf d
decreasing_by
  · have hlt := List.sizeOf_lt_of_mem ‹d ∈ items›
    simp only [Draft.tuple.sizeOf_spec]
    omega
  · have hlt := List.sizeOf_lt_of_mem ‹d ∈ items›
    simp only [Draft.list.sizeOf_spec]
    omega
  · obtain ⟨f, hf, rfl⟩ := List.mem_map.1 ‹d ∈ fields.map Prod.snd›
    have hlt := List.sizeOf_lt_of_mem hf
    obtain ⟨field, d⟩ := f
    simp only [Prod.mk.sizeOf_spec, Draft.node.sizeOf_spec] at hlt ⊢
    omega

theorem shapes_eq_map (items : List Draft) : shapes items = items.map shape := by
  induction items with
  | nil => rfl
  | cons d rest ih => rw [shapes, ih, List.map_cons]

theorem itemParts_eq_flatMap (items : List Draft) : itemParts items = items.flatMap parts := by
  induction items with
  | nil => rfl
  | cons d rest ih => rw [itemParts, ih, List.flatMap_cons]

theorem parts_tuple (items : List Draft) :
    (tuple items).parts = items.flatMap parts ++ [tuple items] := by
  rw [parts, itemParts_eq_flatMap]

theorem parts_list (items : List Draft) :
    (list items).parts = items.flatMap parts ++ [list items] := by
  rw [parts, itemParts_eq_flatMap]

theorem parts_node (kind : Kind) (fields : List (String × Draft)) :
    (node kind fields).parts = (fields.map Prod.snd).flatMap parts ++ [node kind fields] := by
  have hparts : fieldParts fields = (fields.map Prod.snd).flatMap parts := by
    induction fields with
    | nil => rfl
    | cons f rest ih => rw [fieldParts, ih, List.map_cons, List.flatMap_cons]
  rw [parts, hparts]

theorem mem_parts_self (d : Draft) : d ∈ d.parts := by
  cases d <;> simp [parts]

/-- The parts of a part are parts. -/
theorem parts_subset (d : Draft) : ∀ part ∈ d.parts, part.parts ⊆ d.parts := by
  -- The parts of all drafts that have items look the same.
  have hwhole {whole : Draft} {items : List Draft}
      (hparts : whole.parts = items.flatMap parts ++ [whole])
      (ih : ∀ d ∈ items, ∀ part ∈ d.parts, part.parts ⊆ d.parts) :
      ∀ part ∈ whole.parts, part.parts ⊆ whole.parts := by
    intro part hpart
    rw [hparts, List.mem_append, List.mem_flatMap, List.mem_singleton] at hpart
    rcases hpart with ⟨d, hd, hpart⟩ | rfl
    · intro inner hinner
      rw [hparts]
      exact List.mem_append_left _ (List.mem_flatMap.2 ⟨d, hd, ih d hd part hpart hinner⟩)
    · exact List.Subset.refl _
  induction d using induction_parts with
  | scalar s => simp [parts]
  | word vocabulary text => simp [parts]
  | tuple items ih => exact hwhole (parts_tuple items) ih
  | list items ih => exact hwhole (parts_list items) ih
  | node kind fields ih => exact hwhole (parts_node kind fields) ih

theorem Raw.of_mem {d part : Draft} (h : d.Raw) (hpart : part ∈ d.parts) : part.Raw :=
  fun kind fields hmem => h kind fields (d.parts_subset part hpart hmem)

theorem Raw.items {whole : Draft} {items : List Draft} (h : whole.Raw)
    (hparts : whole.parts = items.flatMap parts ++ [whole]) : ∀ d ∈ items, d.Raw := by
  intro d hd
  refine h.of_mem ?_
  rw [hparts]
  exact List.mem_append_left _ (List.mem_flatMap.2 ⟨d, hd, d.mem_parts_self⟩)

/-! ## Building several drafts -/

theorem faultOf_buildAll (items : List Draft) :
    faultOf (buildAll items) = items.findSome? fun d => faultOf d.build := by
  induction items with
  | nil => rfl
  | cons d rest ih =>
    rw [buildAll, List.findSome?_cons]
    cases d.build with
    | error fault => rfl
    | ok v =>
      show faultOf ((buildAll rest).bind fun vs => .ok (v :: vs))
        = rest.findSome? fun d => faultOf d.build
      rw [← ih]
      cases buildAll rest <;> rfl

theorem forall₂_of_buildAll {items : List Draft} {values : List Value}
    (h : buildAll items = .ok values) :
    List.Forall₂ (fun d v => build d = .ok v) items values := by
  induction items generalizing values with
  | nil =>
    cases h
    exact .nil
  | cons d rest ih =>
    rw [buildAll] at h
    cases hd : d.build with
    | error fault =>
      rw [hd] at h
      cases h
    | ok v =>
      cases hrest : buildAll rest with
      | error fault =>
        rw [hd, hrest] at h
        cases h
      | ok vs =>
        rw [hd, hrest] at h
        cases h
        exact .cons hd (ih hrest)

/-- The fields are built like the drafts in them. -/
theorem buildFields_eq (fields : List (String × Draft)) :
    buildFields fields
      = (buildAll (fields.map Prod.snd)).map ((fields.map Prod.fst).zip ·) := by
  induction fields with
  | nil => rfl
  | cons f rest ih =>
    obtain ⟨field, d⟩ := f
    rw [List.map_cons, List.map_cons, buildFields, buildAll, ih]
    cases d.build with
    | error fault => rfl
    | ok v => cases buildAll (rest.map Prod.snd) <;> rfl

theorem build_node (kind : Kind) (fields : List (String × Draft)) :
    (node kind fields).build = (buildAll (fields.map Prod.snd)).bind fun values =>
      (Fields.node ⟨kind, (fields.map Prod.fst).zip values⟩).map Value.node := by
  rw [build, buildFields_eq]
  cases buildAll (fields.map Prod.snd) with
  | error fault => rfl
  | ok values =>
    show (Fields.node ⟨kind, (fields.map Prod.fst).zip values⟩).bind (fun n => .ok (Value.node n))
      = (Fields.node ⟨kind, (fields.map Prod.fst).zip values⟩).map Value.node
    cases Fields.node ⟨kind, (fields.map Prod.fst).zip values⟩ <;> rfl

theorem exists_of_build_node {kind : Kind} {fields : List (String × Draft)} {v : Value}
    (h : (node kind fields).build = .ok v) :
    ∃ values n, buildAll (fields.map Prod.snd) = .ok values
      ∧ Fields.node ⟨kind, (fields.map Prod.fst).zip values⟩ = .ok n ∧ v = .node n := by
  rw [build_node] at h
  cases hvalues : buildAll (fields.map Prod.snd) with
  | error fault =>
    rw [hvalues] at h
    cases h
  | ok values =>
    rw [hvalues, Except.bind] at h
    cases hnode : Fields.node ⟨kind, (fields.map Prod.fst).zip values⟩ with
    | error fault =>
      rw [hnode] at h
      cases h
    | ok n =>
      rw [hnode] at h
      exact ⟨values, n, rfl, hnode, (Except.ok.inj h).symm⟩

/-! ## What is said about a draft itself -/

/-- What is wrong with the draft itself, apart from its parts. -/
def ownFault? : Draft → Option NodeFault
  | word vocabulary text => faultOf (vocabulary.word text)
  | node kind fields => kind.rules.findSome? (Rule.fault? kind (offer fields))
  | _ => none

theorem ownFault?_eq_none_iff (d : Draft) : d.ownFault? = none ↔ d.Conforms := by
  cases d with
  | word vocabulary text =>
    rw [ownFault?, faultOf_eq_none_iff, Conforms]
    rcases vocabulary.word_cases text with ⟨a, hword, hhas, -⟩ | ⟨hword, hhas⟩
    · exact iff_of_true ⟨a, hword⟩ hhas
    · rw [hword]
      refine iff_of_false ?_ hhas
      rintro ⟨a, heq⟩
      cases heq
  | node kind fields =>
    simp only [ownFault?, Conforms, List.findSome?_eq_none_iff, Rule.fault?_eq_none_iff]
  | _ => exact iff_of_true rfl trivial

instance (d : Draft) : Decidable d.Conforms :=
  decidable_of_iff _ d.ownFault?_eq_none_iff

theorem ownFault?_eq_some_iff (d : Draft) (fault : NodeFault) :
    d.ownFault? = some fault ↔ d.FailsWith fault := by
  cases d with
  | word vocabulary text =>
    rw [ownFault?, faultOf_eq_some_iff]
    rcases vocabulary.word_cases text with ⟨a, hword, hhas, -⟩ | ⟨hword, hhas⟩
    · rw [hword]
      constructor
      · intro heq
        cases heq
      · intro h
        cases h with
        | word hnot => exact absurd hhas hnot
    · rw [hword]
      constructor
      · rintro ⟨⟩
        exact .word hhas
      · rintro ⟨⟩
        rfl
  | node kind fields =>
    rw [ownFault?, List.findSome?_eq_some_iff]
    constructor
    · rintro ⟨before, rule, after, hrules, hfault, hbefore⟩
      exact .node hrules (fun r hr => (r.fault?_eq_none_iff kind _).1 (hbefore r hr)) hfault
    · intro h
      cases h with
      | node hrules hbefore hfault =>
        exact ⟨_, _, _, hrules, hfault, fun r hr => (r.fault?_eq_none_iff kind _).2 (hbefore r hr)⟩
  | _ =>
    constructor
    · intro h
      cases h
    · intro h
      cases h

/-! ## Building and the rules -/

/-- Building a draft finds what is wrong with the first part that does not conform; what is built
    looks like the draft. -/
structure BuiltByRules (d : Draft) : Prop where
  faultOf_eq : faultOf d.build = d.parts.findSome? ownFault?
  shape_eq : ∀ v, d.build = .ok v → v.shape = d.shape

theorem findSome?_flatMap {α β γ : Type} (f : β → Option γ) (g : α → List β) (l : List α) :
    (l.flatMap g).findSome? f = l.findSome? fun a => (g a).findSome? f := by
  induction l with
  | nil => rfl
  | cons a rest ih =>
    rw [List.flatMap_cons, List.findSome?_append, ih, List.findSome?_cons]
    cases (g a).findSome? f <;> rfl

theorem findSome?_congr_left {α β : Type} {f g : α → Option β} {l : List α}
    (h : ∀ a ∈ l, f a = g a) : l.findSome? f = l.findSome? g := by
  induction l with
  | nil => rfl
  | cons a rest ih =>
    rw [List.forall_mem_cons] at h
    rw [List.findSome?_cons, List.findSome?_cons, h.1, ih h.2]

/-- If the items of a sequence are built by the rules, so is the sequence. -/
theorem faultOf_buildAll_eq {items : List Draft} (h : ∀ d ∈ items, BuiltByRules d) :
    faultOf (buildAll items) = (items.flatMap parts).findSome? ownFault? := by
  rw [faultOf_buildAll, findSome?_flatMap]
  exact findSome?_congr_left fun d hd => (h d hd).faultOf_eq

theorem map_shape_of_buildAll {items : List Draft} (h : ∀ d ∈ items, BuiltByRules d)
    {values : List Value} (hvalues : buildAll items = .ok values) :
    values.map Value.shape = items.map shape := by
  have hbuilt := forall₂_of_buildAll hvalues
  clear hvalues
  induction hbuilt with
  | nil => rfl
  | @cons d v items values hv _ ih =>
    rw [List.forall_mem_cons] at h
    rw [List.map_cons, List.map_cons, h.1.shape_eq v hv, ih h.2]

section

variable {kind : Kind} {fields : List (String × Draft)} {values : List Value}

/-- What the built values offer is what the drafts offer. -/
theorem offer_values (kind : Kind) (h : values.map Value.shape = (fields.map Prod.snd).map shape) :
    Fields.offer ⟨kind, (fields.map Prod.fst).zip values⟩ = offer fields := by
  have hvalues : ((fields.map Prod.fst).zip values).map (fun v => (v.1, v.2.shape))
      = fields.map fun f => (f.1, f.2.shape) := by
    have hzip : ((fields.map Prod.fst).zip values).map (Prod.map id Value.shape)
        = (fields.map Prod.fst).zip (values.map Value.shape) := (List.zip_map_right ..).symm
    rw [h, List.map_map, List.zip_map'] at hzip
    exact hzip
  funext field
  show List.lookup field _ = List.lookup field _
  rw [hvalues]

theorem Proper.declared_values (h : Proper kind fields)
    (hoffer : Fields.offer ⟨kind, (fields.map Prod.fst).zip values⟩ = offer fields) :
    Fields.Declared ⟨kind, (fields.map Prod.fst).zip values⟩ := by
  intro p hp shape hshape
  rw [hoffer] at hshape
  obtain ⟨before, after, hsplit, -⟩ := List.lookup_eq_some_iff.1 hshape
  have hmem : (p.1, shape) ∈ fields.map fun f => (f.1, f.2.shape) := by
    rw [hsplit]
    exact List.mem_append_right _ List.mem_cons_self
  obtain ⟨f, hf, heq⟩ := List.mem_map.1 hmem
  obtain ⟨hfield, rfl⟩ := Prod.mk.inj heq
  exact h.declared p hp f hf hfield

/-- What is known of a node whose fields are built. -/
theorem checks_values (h : Proper kind fields) (hfields : ∀ d ∈ fields.map Prod.snd, BuiltByRules d)
    (hvalues : buildAll (fields.map Prod.snd) = .ok values) :
    (⟨kind, (fields.map Prod.fst).zip values⟩ : Fields).offer = offer fields
    ∧ Fields.Checks ⟨kind, (fields.map Prod.fst).zip values⟩ kind.rules
        (Fields.node ⟨kind, (fields.map Prod.fst).zip values⟩)
        (Fields.Makes ⟨kind, (fields.map Prod.fst).zip values⟩) := by
  have hoffer := offer_values kind (map_shape_of_buildAll hfields hvalues)
  exact ⟨hoffer, Fields.checks_node _ (h.declared_values hoffer)⟩

end

/-- A sequence of drafts is built by the rules if its items are; nothing is wrong with it itself. -/
theorem builtByRules_of_items {whole : Draft} {items : List Draft} {seq : List Value → Value}
    (hbuild : whole.build = (buildAll items).map seq)
    (hparts : whole.parts = items.flatMap parts ++ [whole]) (hown : whole.ownFault? = none)
    (hitems : ∀ d ∈ items, BuiltByRules d)
    (hshape : ∀ values, values.map Value.shape = items.map shape →
      (seq values).shape = whole.shape) : BuiltByRules whole where
  faultOf_eq := by
    rw [hbuild, faultOf_map, faultOf_buildAll_eq hitems, hparts, List.findSome?_append,
      List.findSome?_singleton, hown, Option.or_none]
  shape_eq v hv := by
    rw [hbuild] at hv
    cases hvalues : buildAll items with
    | error fault =>
      rw [hvalues] at hv
      cases hv
    | ok values =>
      rw [hvalues] at hv
      rw [← Except.ok.inj hv]
      exact hshape values (map_shape_of_buildAll hitems hvalues)

theorem builtByRules_node {kind : Kind} {fields : List (String × Draft)}
    (h : Proper kind fields) (hfields : ∀ d ∈ fields.map Prod.snd, BuiltByRules d) :
    BuiltByRules (.node kind fields) where
  faultOf_eq := by
    -- Only where all fields are built is anything said about the node itself.
    have hfaults := faultOf_buildAll_eq hfields
    rw [build_node, parts_node, List.findSome?_append, ← hfaults, List.findSome?_singleton]
    cases hvalues : buildAll (fields.map Prod.snd) with
    | error fault => rfl
    | ok values =>
      obtain ⟨hoffer, hchecks⟩ := checks_values h hfields hvalues
      have hnode := hchecks.faultOf_eq
      rw [hoffer, ← faultOf_map Value.node] at hnode
      exact hnode
  shape_eq v hv := by
    obtain ⟨values, n, hvalues, hn, rfl⟩ := exists_of_build_node hv
    have hmakes := (checks_values h hfields hvalues).2.result n hn
    exact congrArg Shape.node hmakes.kind_eq

/-- Every raw draft is built by the rules. -/
theorem Raw.builtByRules {d : Draft} (h : d.Raw) : BuiltByRules d := by
  induction d using induction_parts with
  | scalar s => exact ⟨rfl, fun v hv => Except.ok.inj hv ▸ rfl⟩
  | word vocabulary text =>
    refine ⟨?_, fun v hv => ?_⟩
    · rw [build, faultOf_map]
      exact (List.findSome?_singleton ..).symm
    · rw [build] at hv
      rcases vocabulary.word_cases text with ⟨a, hword, -, hshape⟩ | ⟨hword, -⟩
      · rw [hword] at hv
        rw [← Except.ok.inj hv]
        exact hshape
      · rw [hword] at hv
        cases hv
  | tuple items ih =>
    refine builtByRules_of_items rfl (parts_tuple items) rfl
      (fun d hd => ih d hd (h.items (parts_tuple items) d hd)) fun values hshapes => ?_
    rw [Value.shape, Value.shapes_eq_map, hshapes, shape, shapes_eq_map]
  | list items ih =>
    exact builtByRules_of_items rfl (parts_list items) rfl
      (fun d hd => ih d hd (h.items (parts_list items) d hd)) fun values _ => rfl
  | node kind fields ih =>
    exact builtByRules_node (h kind fields (mem_parts_self _))
      fun d hd => ih d hd (h.items (parts_node kind fields) d hd)

end Draft

/-! ## No node is lost -/

/-- All nodes of a tree, each before those below it. -/
def Node.preorder (n : Node) : List Node :=
  n :: n.children.attach.flatMap fun child => child.1.preorder
termination_by n
decreasing_by exact Node.sizeOf_lt_of_mem_children child.2

theorem Node.preorder_eq (n : Node) : n.preorder = n :: n.children.flatMap Node.preorder := by
  rw [Node.preorder, List.flatMap_subtype (g := Node.preorder) fun _ _ => rfl,
    List.unattach_attach]

namespace Occurrence

theorem tours_eq_flatMap (roots : List Occurrence) : tours roots = roots.flatMap tour := by
  induction roots with
  | nil => rw [tours, List.flatMap_nil]
  | cons o rest ih => rw [tours, ih, List.flatMap_cons]

/-- A tour enters all nodes of a tree, also if it shares objects. -/
theorem map_entered_tour (o : Occurrence) (h : Placed [o]) :
    (o.tour.filterMap Event.entered?).map node = o.node.preorder := by
  induction o using induction_parts with
  | step o ih =>
    have hchildren : o.parts.map node = o.node.children := h o (.here List.mem_cons_self)
    have hparts : ∀ part ∈ o.parts,
        (part.tour.filterMap Event.entered?).map node = part.node.preorder :=
      fun part hpart => ih part hpart ((h.parts List.mem_cons_self).of_mem hpart)
    have htours : ((tours o.parts).filterMap Event.entered?).map node
        = o.node.children.flatMap Node.preorder := by
      rw [tours_eq_flatMap, List.filterMap_flatMap, List.map_flatMap, ← hchildren,
        List.flatMap_map]
      exact List.flatMap_congr hparts
    rw [tour_eq, Node.preorder_eq, ← htours]
    simp [Event.entered?]

/-- A walk over one tree enters all its nodes. -/
theorem map_entered_walk (o : Occurrence) (h : Placed [o]) :
    ((walk [o]).filterMap Event.entered?).map node = o.node.preorder := by
  have hwalk : (walk [o]).filterMap Event.entered? = o.tour.filterMap Event.entered? := by
    rw [walk, List.filterMap_cons_none rfl, tours, tours, List.append_nil, List.filterMap_append]
    exact List.append_nil _
  rw [hwalk, map_entered_tour o h]

end Occurrence

/-- Looking up each key once finds each entry once. -/
theorem perm_flatMap_lookup {β γ : Type} (g : β → List γ) {keys : List String}
    (hkeys : keys.Nodup) {entries : List (String × β)} (hknown : ∀ e ∈ entries, e.1 ∈ keys)
    (honce : (entries.map Prod.fst).Nodup) :
    (keys.flatMap fun k => ((entries.lookup k).map g).getD []).Perm
      (entries.flatMap fun e => g e.2) := by
  induction entries generalizing keys with
  | nil => simp
  | cons e rest ih =>
    obtain ⟨key, b⟩ := e
    -- The first entry is found under its own key; the other keys find what they find in the rest.
    rw [List.forall_mem_cons] at hknown
    rw [List.map_cons, List.nodup_cons] at honce
    have hothers : ∀ k ∈ keys.erase key,
        ((((key, b) :: rest).lookup k).map g).getD [] = ((rest.lookup k).map g).getD [] := by
      intro k hk
      have hne : k ≠ key := (hkeys.mem_erase_iff.1 hk).1
      rw [List.lookup_cons, beq_false_of_ne hne]
    refine ((List.perm_cons_erase hknown.1).flatMap_right _).trans ?_
    rw [List.flatMap_cons, List.flatMap_cons, List.lookup_cons_self, List.flatMap_congr hothers]
    refine List.Perm.append_left _ (ih (hkeys.erase key) ?_ honce.2)
    intro e he
    refine hkeys.mem_erase_iff.2 ⟨?_, hknown.2 e he⟩
    rintro rfl
    exact honce.1 (List.mem_map.2 ⟨e, he, rfl⟩)

theorem Kind.nodup_fields (kind : Kind) : kind.fields.Nodup := by
  cases kind <;> decide

namespace Draft

/-- The nodes below a value are those that are built from the node parts of the draft. -/
def Keeps (d : Draft) (v : Value) : Prop :=
  ∃ ns, List.Forall₂ (fun part n => build part = .ok (.node n)) (d.parts.filter isNode) ns
    ∧ ns.Perm (v.nodes.flatMap Node.preorder)

/-- Sequences keep what their items keep. -/
theorem keeps_items {items : List Draft} {values : List Value}
    (hvalues : buildAll items = .ok values)
    (hitems : ∀ d ∈ items, ∀ v, d.build = .ok v → d.Keeps v) :
    ∃ ns, List.Forall₂ (fun part n => build part = .ok (.node n))
        ((items.flatMap parts).filter isNode) ns
      ∧ ns.Perm ((values.flatMap Value.nodes).flatMap Node.preorder) := by
  have hbuilt := forall₂_of_buildAll hvalues
  clear hvalues
  induction hbuilt with
  | nil => exact ⟨[], .nil, .refl _⟩
  | @cons d v items values hv _ ih =>
    rw [List.forall_mem_cons] at hitems
    obtain ⟨ns, hns, hperm⟩ := hitems.1 v hv
    obtain ⟨more, hmore, hpermMore⟩ := ih hitems.2
    refine ⟨ns ++ more, ?_, ?_⟩
    · rw [List.flatMap_cons, List.filter_append]
      exact List.rel_append hns hmore
    · rw [List.flatMap_cons, List.flatMap_append]
      exact hperm.append hpermMore

theorem keeps_of_items {whole : Draft} {items : List Draft} (seq : List Value → Value)
    (hbuild : whole.build = (buildAll items).map seq)
    (hparts : whole.parts = items.flatMap parts ++ [whole]) (hnode : whole.isNode = false)
    (hitems : ∀ d ∈ items, ∀ v, d.build = .ok v → d.Keeps v)
    (hnodes : ∀ values, (seq values).nodes = values.flatMap Value.nodes) {v : Value}
    (hv : whole.build = .ok v) : whole.Keeps v := by
  rw [hbuild] at hv
  cases hvalues : buildAll items with
  | error fault =>
    rw [hvalues] at hv
    cases hv
  | ok values =>
    rw [hvalues] at hv
    obtain ⟨ns, hns, hperm⟩ := keeps_items hvalues hitems
    refine ⟨ns, ?_, ?_⟩
    · rw [hparts, List.filter_append, List.filter_cons_of_neg (by simp [hnode]), List.filter_nil,
        List.append_nil]
      exact hns
    · rw [← Except.ok.inj hv, hnodes]
      exact hperm

/-- The children of a node that is built are, apart from their order, the nodes in the values of its
    fields. -/
theorem perm_children {kind : Kind} {fields : List (String × Draft)} {values : List Value}
    {n : Node} (h : Proper kind fields)
    (hvalues : buildAll (fields.map Prod.snd) = .ok values)
    (hmakes : Fields.Makes ⟨kind, (fields.map Prod.fst).zip values⟩ n) :
    n.children.Perm (values.flatMap Value.nodes) := by
  have hlength : (fields.map Prod.fst).length = values.length := by
    rw [← (forall₂_of_buildAll hvalues).length_eq, List.length_map, List.length_map]
  have hfst : ((fields.map Prod.fst).zip values).map Prod.fst = fields.map Prod.fst :=
    List.map_fst_zip (Nat.le_of_eq hlength)
  have hsnd : ((fields.map Prod.fst).zip values).map Prod.snd = values :=
    List.map_snd_zip (Nat.le_of_eq hlength.symm)
  have hknown : ∀ e ∈ (fields.map Prod.fst).zip values, e.1 ∈ kind.fields := by
    intro e he
    have hname : e.1 ∈ fields.map Prod.fst := hfst ▸ List.mem_map_of_mem he
    obtain ⟨f, hf, heq⟩ := List.mem_map.1 hname
    exact heq ▸ h.known f hf
  have honce : (((fields.map Prod.fst).zip values).map Prod.fst).Nodup := by
    rw [hfst]
    exact h.once
  have hnodes : values.flatMap Value.nodes
      = ((fields.map Prod.fst).zip values).flatMap fun e => e.2.nodes := by
    rw [← List.flatMap_map Prod.snd Value.nodes, hsnd]
  rw [hmakes.children_eq, hnodes]
  exact perm_flatMap_lookup Value.nodes kind.nodup_fields hknown honce

theorem keeps_node {kind : Kind} {fields : List (String × Draft)} (h : Proper kind fields)
    (hrules : ∀ d ∈ fields.map Prod.snd, BuiltByRules d)
    (hfields : ∀ d ∈ fields.map Prod.snd, ∀ v, d.build = .ok v → d.Keeps v) {v : Value}
    (hv : (node kind fields).build = .ok v) : (node kind fields).Keeps v := by
  obtain ⟨values, n, hvalues, hn, rfl⟩ := exists_of_build_node hv
  have hmakes := (checks_values h hrules hvalues).2.result n hn
  obtain ⟨ns, hns, hperm⟩ := keeps_items hvalues hfields
  refine ⟨ns ++ [n], ?_, ?_⟩
  · rw [parts_node, List.filter_append]
    exact List.rel_append hns (.cons hv .nil)
  · -- Drafts list a node after what is below it, trees before.
    have hbelow := ((perm_children h hvalues hmakes).flatMap_right Node.preorder).symm
    rw [Value.nodes, List.flatMap_singleton, Node.preorder_eq]
    exact (List.perm_append_singleton n ns).trans ((hperm.trans hbelow).cons n)

/-- Nothing that is built is lost. -/
theorem Raw.keeps {d : Draft} (h : d.Raw) {v : Value} (hv : d.build = .ok v) : d.Keeps v := by
  induction d using induction_parts generalizing v with
  | scalar s =>
    cases hv
    exact ⟨[], .nil, .refl _⟩
  | word vocabulary text =>
    rw [build] at hv
    cases hword : vocabulary.word text with
    | error fault =>
      rw [hword] at hv
      cases hv
    | ok a =>
      rw [hword] at hv
      cases hv
      exact ⟨[], .nil, .refl _⟩
  | tuple items ih =>
    exact keeps_of_items .tuple rfl (parts_tuple items) rfl
      (fun d hd v hv => ih d hd (h.items (parts_tuple items) d hd) hv)
      (fun values => Value.itemNodes_eq_flatMap values) hv
  | list items ih =>
    exact keeps_of_items .list rfl (parts_list items) rfl
      (fun d hd v hv => ih d hd (h.items (parts_list items) d hd) hv)
      (fun values => Value.itemNodes_eq_flatMap values) hv
  | node kind fields ih =>
    have hfields := h.items (parts_node kind fields)
    exact keeps_node (h kind fields (mem_parts_self _)) (fun d hd => (hfields d hd).builtByRules)
      (fun d hd v hv => ih d hd (hfields d hd) hv) hv

/-! ## The result -/

theorem Raw.exists_build_iff {d : Draft} (h : d.Raw) :
    (∃ v, d.build = .ok v) ↔ ∀ part ∈ d.parts, part.Conforms := by
  rw [← faultOf_eq_none_iff, h.builtByRules.faultOf_eq, List.findSome?_eq_none_iff]
  exact forall₂_congr fun part _ => part.ownFault?_eq_none_iff

theorem Raw.build_eq_error_iff {d : Draft} (h : d.Raw) (fault : NodeFault) :
    d.build = .error fault ↔ ∃ before part after, d.parts = before ++ part :: after
      ∧ (∀ p ∈ before, p.Conforms) ∧ part.FailsWith fault := by
  rw [← faultOf_eq_some_iff, h.builtByRules.faultOf_eq, List.findSome?_eq_some_iff]
  constructor
  · rintro ⟨before, part, after, hparts, hpart, hbefore⟩
    exact ⟨before, part, after, hparts, fun p hp => p.ownFault?_eq_none_iff.1 (hbefore p hp),
      (part.ownFault?_eq_some_iff fault).1 hpart⟩
  · rintro ⟨before, part, after, hparts, hbefore, hpart⟩
    exact ⟨before, part, after, hparts, (part.ownFault?_eq_some_iff fault).2 hpart,
      fun p hp => p.ownFault?_eq_none_iff.2 (hbefore p hp)⟩

/-- Values that are built from the drafts in some fields, with the names of the fields. -/
theorem forall₂_zip {fields : List (String × Draft)} {values : List Value}
    (h : buildAll (fields.map Prod.snd) = .ok values) :
    List.Forall₂ (fun f v => v.1 = f.1 ∧ build f.2 = .ok v.2) fields
      ((fields.map Prod.fst).zip values) := by
  have hbuilt := forall₂_of_buildAll h
  clear h
  induction fields generalizing values with
  | nil => exact .nil
  | cons f rest ih =>
    obtain _ | ⟨hf, hrest⟩ := hbuilt
    exact .cons ⟨rfl, hf⟩ (ih hrest)

theorem Raw.children_of_build {kind : Kind} {fields : List (String × Draft)}
    (h : (node kind fields).Raw) {n : Node} (hn : (node kind fields).build = .ok (.node n)) :
    n.kind = kind
    ∧ ∃ values, List.Forall₂ (fun f v => v.1 = f.1 ∧ build f.2 = .ok v.2) fields values
      ∧ n.children = kind.fields.flatMap fun field =>
          ((values.lookup field).map Value.nodes).getD [] := by
  obtain ⟨values, n', hvalues, hn', heq⟩ := exists_of_build_node hn
  obtain rfl := Value.node.inj heq
  have hfields := h.items (parts_node kind fields)
  have hmakes := (checks_values (h kind fields (mem_parts_self _))
    (fun d hd => (hfields d hd).builtByRules) hvalues).2.result n hn'
  exact ⟨hmakes.kind_eq, _, forall₂_zip hvalues, hmakes.children_eq⟩

theorem Raw.entered_of_build {d : Draft} (h : d.Raw) {n : Node} (hn : d.build = .ok (.node n)) :
    ∃ ns, List.Forall₂ (fun part n' => build part = .ok (.node n')) (d.parts.filter isNode) ns
      ∧ ∀ o : Occurrence, o.node = n → Occurrence.Placed [o] →
        (((walk [o]).filterMap Event.entered?).map Occurrence.node).Perm ns := by
  obtain ⟨ns, hns, hperm⟩ := h.keeps hn
  refine ⟨ns, hns, ?_⟩
  rintro o rfl hplaced
  rw [Occurrence.map_entered_walk o hplaced]
  rw [Value.nodes, List.flatMap_singleton] at hperm
  exact hperm.symm

/-- A raw draft is accepted exactly if all its parts conform. If it is not accepted, it is the first
    part that does not conform that is complained about, for the first of its rules that is broken.
    The children of every node that is made are the nodes that are held by its fields, in the order
    of the fields, and a walk enters the nodes that are made of all parts, each once. -/
theorem build_exact (d : Draft) (h : d.Raw) :
    ((∃ v, d.build = .ok v) ↔ ∀ part ∈ d.parts, part.Conforms)
    ∧ (∀ fault, d.build = .error fault ↔ ∃ before part after, d.parts = before ++ part :: after
        ∧ (∀ p ∈ before, p.Conforms) ∧ part.FailsWith fault)
    ∧ (∀ kind fields n, .node kind fields ∈ d.parts →
        (node kind fields).build = .ok (.node n) →
        n.kind = kind
        ∧ ∃ values, List.Forall₂ (fun f v => v.1 = f.1 ∧ build f.2 = .ok v.2) fields values
          ∧ n.children = kind.fields.flatMap fun field =>
              ((values.lookup field).map Value.nodes).getD [])
    ∧ (∀ n, d.build = .ok (.node n) →
        ∃ ns, List.Forall₂ (fun part n' => build part = .ok (.node n')) (d.parts.filter isNode) ns
          ∧ ∀ o : Occurrence, o.node = n → Occurrence.Placed [o] →
            (((walk [o]).filterMap Event.entered?).map Occurrence.node).Perm ns) :=
  ⟨h.exists_build_iff, h.build_eq_error_iff,
    fun _ _ _ hpart hn => (h.of_mem hpart).children_of_build hn, fun _ hn => h.entered_of_build hn⟩

/-- `$x = f($x)` is made, and a walk enters its five nodes; `f = f($x)` is not, since a name is no
    expression, and neither is an assignment that is given nothing to assign to. -/
theorem build_exact_on_assignments :
    let f : Draft := .node .name [("value", .scalar (.text "f"))]
    let x : Draft := .node .var [("name", .scalar (.text "x"))]
    let call : Draft := .node .call [("name", f), ("args", .tuple [x])]
    let good : Draft := .node .assign [("var", x), ("expr", call)]
    let bad : Draft := .node .assign [("var", f), ("expr", call)]
    let unfinished : Draft := .node .assign [("expr", call)]
    good.Raw ∧ bad.Raw ∧ unfinished.Raw
    ∧ (∃ n, good.build = .ok (.node n)
        ∧ ((walk [Occurrence.ofNode [0] n]).filterMap Event.entered?).length = 5)
    ∧ bad.build = .error (.wrongType .assign "var" .expr "Name")
    ∧ unfinished.build = .error (.missing .assign ["var"]) := by
  intro f x call good bad unfinished
  have hgood : good.Raw := by decide
  have hbad : bad.Raw := by decide
  have hunfinished : unfinished.Raw := by decide
  refine ⟨hgood, hbad, hunfinished, ?_, ?_, ?_⟩
  · obtain ⟨v, hv⟩ := (build_exact good hgood).1.2 (by decide)
    obtain ⟨-, n, -, -, rfl⟩ := exists_of_build_node hv
    obtain ⟨ns, hns, hwalk⟩ := (build_exact good hgood).2.2.2 n hv
    have hplaced : Occurrence.Placed [Occurrence.ofNode [0] n] :=
      Occurrence.placed_of_ofNode fun o ho => ⟨[0], n, List.mem_singleton.1 ho⟩
    have hlength := (hwalk _ (Occurrence.node_ofNode [0] n) hplaced).length_eq
    refine ⟨n, hv, ?_⟩
    rw [List.length_map, ← hns.length_eq] at hlength
    exact hlength
  · refine ((build_exact bad hbad).2.1 _).2 ⟨bad.parts.dropLast, bad, [], rfl, by decide, ?_⟩
    exact .node (show Kind.assign.rules = [.given ["var", "expr"]] ++ _ :: _ from rfl)
      (List.forall_mem_singleton.2 ((Rule.fault?_eq_none_iff .assign _ _).1 rfl)) rfl
  · refine ((build_exact unfinished hunfinished).2.1 _).2
      ⟨unfinished.parts.dropLast, unfinished, [], rfl, by decide, ?_⟩
    exact .node (show Kind.assign.rules = [] ++ _ :: _ from rfl) (List.forall_mem_nil _) rfl

end Draft

end CallablePurity
