import CallablePurity.Proofs.Walk.Pruning
import CallablePurity.Walk.Locator

set_option autoImplicit false

/-! # What the locators find

The access locator reads the operations around a variable off a stack that enter and leave events
push and pop. On a pruned walk the stack is always the path to the current place, so that it finds
what a plain recursion over the tree finds (`Node.accesses`), and never pops an empty stack. The
locators of single nodes find the nodes of their sort in the outermost scope. -/

namespace CallablePurity

/-! ## Accesses, by recursion on the tree -/

/-- The operations around the children of a node, from those around the node itself. -/
def Node.operationsBelow (around : List Node) (n : Node) : List Node :=
  if AccessLocator.isOperation n then around ++ [n] else around

/-- The accesses in the outermost scope of a tree that has the given operations around it. -/
def Node.accesses (around : List Node) (n : Node) : List Access :=
  (Subject.ofNode? n).toList.map (⟨·, around⟩)
    ++ (if n.isBoundary then []
        else n.children.attach.flatMap fun child => child.1.accesses (n.operationsBelow around))
termination_by n
decreasing_by exact Node.sizeOf_lt_of_mem_children child.2

theorem Node.accesses_eq (around : List Node) (n : Node) :
    n.accesses around
      = (Subject.ofNode? n).toList.map (⟨·, around⟩)
        ++ (if n.isBoundary then []
            else n.children.flatMap (Node.accesses (n.operationsBelow around))) := by
  rw [Node.accesses, List.flatMap_subtype (g := Node.accesses (n.operationsBelow around))
    fun _ _ => rfl, List.unattach_attach]

/-- A variable directly below an operation in the outermost scope is accessed, with that operation
    nearest to it. -/
theorem Node.exists_mem_accesses {n m child : Node} {s : Subject} (around : List Node)
    (hm : m ∈ n.scope) (hopen : m.isBoundary = false) (hop : AccessLocator.isOperation m = true)
    (hchild : child ∈ m.children) (hs : Subject.ofNode? child = some s) :
    ∃ operations, ⟨s, operations ++ [m]⟩ ∈ n.accesses around := by
  induction n using Node.induction_children generalizing around with
  | step n ih =>
    rw [Node.scope_eq, List.mem_cons] at hm
    rw [Node.accesses_eq]
    rcases hm with rfl | hm
    · have hself : (⟨s, around ++ [m]⟩ : Access) ∈ child.accesses (m.operationsBelow around) := by
        rw [Node.accesses_eq, Node.operationsBelow, if_pos hop, hs]
        exact List.mem_append_left _ (List.mem_singleton_self _)
      refine ⟨around, List.mem_append_right _ ?_⟩
      rw [hopen]
      exact List.mem_flatMap.2 ⟨child, hchild, hself⟩
    · split at hm
      · exact absurd hm List.not_mem_nil
      · next hn =>
        obtain ⟨c, hc, hmc⟩ := List.mem_flatMap.1 hm
        obtain ⟨operations, hmem⟩ := ih c hc (n.operationsBelow around) hmc
        refine ⟨operations, List.mem_append_right _ ?_⟩
        rw [if_neg hn]
        exact List.mem_flatMap.2 ⟨c, hc, hmem⟩

/-! ## The access locator -/

namespace AccessLocator

theorem foldlM_cons_of_ok {l l' : AccessLocator} {e : Event} (h : react l e = .ok l')
    (events : List Event) : (e :: events).foldlM react l = events.foldlM react l' := by
  rw [List.foldlM_cons, h]
  rfl

theorem foldlM_append_of_ok {l l' : AccessLocator} {events : List Event}
    (h : events.foldlM react l = .ok l') (more : List Event) :
    (events ++ more).foldlM react l = more.foldlM react l' := by
  rw [List.foldlM_append, h]
  rfl

theorem operations_enter (n : Node) (ancestors : List Node) (accesses accesses' : List Access) :
    operations ⟨n :: ancestors, accesses'⟩
      = n.operationsBelow (operations ⟨ancestors, accesses⟩) := by
  simp only [operations, Node.operationsBelow, List.filter_cons]
  split
  · rw [List.reverse_cons]
  · rfl

/-- A locator that finds the accesses of each of several trees finds those of all of them. -/
theorem foldlM_scopeTours {roots : List Occurrence} (l : AccessLocator)
    (h : ∀ o ∈ roots, ∀ found, o.scopeTour.foldlM react ⟨l.ancestors, found⟩
      = .ok ⟨l.ancestors, found ++ o.node.accesses l.operations⟩) :
    (Occurrence.scopeTours roots).foldlM react l
      = .ok ⟨l.ancestors, l.accesses
          ++ (roots.map Occurrence.node).flatMap (Node.accesses l.operations)⟩ := by
  induction roots generalizing l with
  | nil => simp [Occurrence.scopeTours, pure, Except.pure]
  | cons o rest ih =>
    have hrest := ih ⟨l.ancestors, l.accesses ++ o.node.accesses l.operations⟩
      fun o' ho' => h o' (List.mem_cons_of_mem o ho')
    rw [Occurrence.scopeTours, foldlM_append_of_ok (h o List.mem_cons_self l.accesses), hrest,
      List.map_cons, List.flatMap_cons, ← List.append_assoc]
    rfl

/-- A tour leaves the stack as it was and adds the accesses of the tree. -/
theorem foldlM_scopeTour (o : Occurrence) (h : Occurrence.Placed [o]) (ancestors : List Node)
    (found : List Access) :
    o.scopeTour.foldlM react ⟨ancestors, found⟩
      = .ok ⟨ancestors, found ++ o.node.accesses (operations ⟨ancestors, found⟩)⟩ := by
  -- what is pushed on entering is on top again when the place is left
  induction o using Occurrence.induction_parts generalizing ancestors found with
  | step o ih =>
    let around := operations ⟨ancestors, found⟩
    let own : List Access := (Subject.ofNode? o.node).toList.map (⟨·, around⟩)
    have henter : react ⟨ancestors, found⟩ (.enter o)
        = .ok ⟨o.node :: ancestors, found ++ own⟩ := rfl
    have hbelow : (if o.node.isBoundary then [] else Occurrence.scopeTours o.parts).foldlM react
          ⟨o.node :: ancestors, found ++ own⟩
        = .ok ⟨o.node :: ancestors, found ++ o.node.accesses around⟩ := by
      rw [Node.accesses_eq, ← List.append_assoc]
      split
      · rw [List.append_nil]
        rfl
      · have hparts : Occurrence.Placed o.parts := h.parts List.mem_cons_self
        have hchildren : o.parts.map Occurrence.node = o.node.children :=
          h o (.here List.mem_cons_self)
        rw [foldlM_scopeTours ⟨o.node :: ancestors, found ++ own⟩
          fun part hpart found' => ih part hpart (hparts.of_mem hpart) (o.node :: ancestors) found',
          hchildren, operations_enter o.node ancestors found]
    have hleave (accesses : List Access) :
        react ⟨o.node :: ancestors, accesses⟩ (.leave o) = .ok ⟨ancestors, accesses⟩ := rfl
    rw [Occurrence.scopeTour_eq, foldlM_cons_of_ok henter, foldlM_append_of_ok hbelow,
      foldlM_cons_of_ok (hleave _)]
    rfl

/-- On a walk over the outermost scope the locator never fails, whatever it has seen before. It
    finds the accesses of the trees and ends with an empty stack. -/
theorem foldlM_scopeWalk {roots : List Occurrence} (hacyclic : Occurrence.Acyclic roots)
    (hplaced : Occurrence.Placed roots) (l : AccessLocator) :
    (scopeWalk roots).foldlM react l
      = .ok ⟨[], (roots.map Occurrence.node).flatMap (Node.accesses [])⟩ := by
  have htours : (Occurrence.scopeTours roots).foldlM react start
      = .ok ⟨[], (roots.map Occurrence.node).flatMap (Node.accesses [])⟩ :=
    foldlM_scopeTours start fun o ho found => foldlM_scopeTour o (hplaced.of_mem ho) [] found
  have hbefore : react l (.before roots) = .ok start := rfl
  rw [scopeWalk, (Gate.shows_walk hacyclic Gate.opened).pass_eq, prunedWalk,
    foldlM_cons_of_ok hbefore, foldlM_append_of_ok htours]
  rfl

end AccessLocator

theorem locateAccesses_eq (body : List Node) :
    locateAccesses body = .ok (body.flatMap (Node.accesses [])) := by
  rw [locateAccesses, AccessLocator.foldlM_scopeWalk (Occurrence.acyclic_forest body)
    (Occurrence.placed_forest body), Occurrence.map_node_forest]
  rfl

/-! ## Nodes of some sort -/

/-- A collector keeps the wanted nodes among those that nested events enter. -/
theorem foldl_collect_nested (wanted : Node → Bool) {events : List Event}
    (h : Event.Nested events) (found : List Node) :
    events.foldl (collect wanted) found
      = found ++ ((events.filterMap Event.entered?).map Occurrence.node).filter wanted := by
  induction h generalizing found with
  | nil => simp
  | @visit o inner rest _ _ ihInner ihRest =>
    have henter : collect wanted found (.enter o) = found ++ [o.node].filter wanted := by
      simp only [collect, List.filter_cons, List.filter_nil]
      split
      · rfl
      · rw [List.append_nil]
    have hleave (found' : List Node) : collect wanted found' (.leave o) = found' := rfl
    have hentered : (Event.enter o :: (inner ++ .leave o :: rest)).filterMap Event.entered?
        = [o] ++ inner.filterMap Event.entered? ++ rest.filterMap Event.entered? := by
      simp only [List.filterMap_cons, List.filterMap_append, Event.entered?, List.cons_append,
        List.nil_append]
    rw [List.foldl_cons, List.foldl_append, henter, ihInner, List.foldl_cons, hleave, ihRest,
      hentered]
    simp only [List.map_append, List.filter_append, List.append_assoc, List.map_cons, List.map_nil]

/-- On a walk over the outermost scope a collector finds the wanted nodes of the trees, whatever it
    has found before. -/
theorem foldl_collect_scopeWalk (wanted : Node → Bool) {roots : List Occurrence}
    (hacyclic : Occurrence.Acyclic roots) (hplaced : Occurrence.Placed roots)
    (found : List Node) :
    (scopeWalk roots).foldl (collect wanted) found
      = ((roots.map Occurrence.node).flatMap Node.scope).filter wanted := by
  have hbefore : collect wanted found (.before roots) = [] := rfl
  rw [scopeWalk, (Gate.shows_walk hacyclic Gate.opened).pass_eq, prunedWalk, List.foldl_cons,
    hbefore, List.foldl_append, foldl_collect_nested wanted (Occurrence.nested_scopeTours _),
    Occurrence.entered_scopeTours, Occurrence.map_node_inScopes hplaced]
  rfl

theorem locate_eq (wanted : Node → Bool) (body : List Node) :
    locate wanted body = (body.flatMap Node.scope).filter wanted := by
  rw [locate, foldl_collect_scopeWalk wanted (Occurrence.acyclic_forest body)
    (Occurrence.placed_forest body), Occurrence.map_node_forest]

end CallablePurity
