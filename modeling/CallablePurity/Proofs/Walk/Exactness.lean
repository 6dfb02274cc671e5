import CallablePurity.Proofs.Walk.Address
import CallablePurity.Proofs.Walk.Located

set_option autoImplicit false

/-! # The locators are exact

What the locators of accesses, returns and calls find is said here without a walk and without a
stack: by the addresses of a body (`Node.Preorder`) and the nodes on the way to each of them. There
is one access for each variable of the outermost scope, in pre-order, and its operations are the
ancestors of that variable from the root down, less the expressions used as statements. A locator
may have been used before in any way, and an object may occur at several places.

Locators make their accesses with the checks that reject what is no variable or no node
(`AccessLocator.reactChecked`). These never fail, and a locator on a walk never leaves a node that
it has not entered (`locators_exact_in_preorder`). -/

namespace CallablePurity

/-! ## Sorts of nodes -/

theorem AccessLocator.isOperation_iff_kind (n : Node) :
    isOperation n = true ↔ n.kind ≠ .expression := by
  cases n with
  | expr e => cases e <;> simp [isOperation, Node.kind, Expr.kind]
  | stmt s => cases s <;> simp [isOperation, Node.kind, Stmt.kind]
  | _ => simp [isOperation, Node.kind]

theorem Node.isReturn_iff_kind (n : Node) : n.isReturn = true ↔ n.kind = .ret := by
  cases n with
  | expr e => cases e <;> simp [isReturn, Node.kind, Expr.kind]
  | stmt s => cases s <;> simp [isReturn, Node.kind, Stmt.kind]
  | _ => simp [isReturn, Node.kind]

theorem Node.isCall_iff_kind (n : Node) :
    n.isCall = true ↔ n.kind = .call ∨ n.kind = .methodCall ∨ n.kind = .staticCall := by
  cases n with
  | expr e => cases e <;> simp [isCall, Node.kind, Expr.kind]
  | stmt s => cases s <;> simp [isCall, Node.kind, Stmt.kind]
  | _ => simp [isCall, Node.kind]

/-! ## What lies on a trail -/

/-- The access to the variable at the end of a trail, where there is one: its operations are the
    nodes before it, less the expressions used as statements. -/
def Access.ofTrail? (trail : List Node) : Option Access :=
  (trail.getLast?.bind Subject.ofNode?).map
    (⟨·, trail.dropLast.filter fun n => n.kind ≠ .expression⟩)

theorem Access.ofTrail?_concat (above : List Node) (n : Node) :
    ofTrail? (above ++ [n])
      = (Subject.ofNode? n).map (⟨·, above.filter fun m => m.kind ≠ .expression⟩) := by
  rw [ofTrail?, List.getLast?_concat, List.dropLast_concat]
  rfl

theorem Node.operationsBelow_filter (above : List Node) (n : Node) :
    n.operationsBelow (above.filter fun m => m.kind ≠ .expression)
      = (above ++ [n]).filter fun m => m.kind ≠ .expression := by
  rw [operationsBelow, List.filter_append, List.filter_singleton]
  by_cases h : n.kind = .expression
  · simp [AccessLocator.isOperation_iff_kind, h]
  · simp [AccessLocator.isOperation_iff_kind, h]

/-- The accesses of a tree that lies below the given nodes are those at the ends of its trails. -/
theorem Node.accesses_eq_trails (above : List Node) (n : Node) :
    n.accesses (above.filter fun m => m.kind ≠ .expression)
      = n.trails.filterMap fun trail => Access.ofTrail? (above ++ trail) := by
  -- the nodes above a child are those above the node, and the node
  induction n using Node.induction_children generalizing above with
  | step n ih =>
    have hself : (Subject.ofNode? n).toList.map
          (⟨·, above.filter fun m => m.kind ≠ .expression⟩)
        = (Access.ofTrail? (above ++ [n])).toList := by
      rw [Access.ofTrail?_concat]
      cases Subject.ofNode? n <;> rfl
    rw [Node.accesses_eq, Node.filterMap_trails, Node.operationsBelow_filter, hself]
    split
    · rfl
    · congr 1
      refine List.flatMap_congr fun child hchild => ?_
      rw [ih child hchild (above ++ [n])]
      refine List.filterMap_congr fun trail _ => ?_
      rw [List.append_assoc]
      rfl

theorem Node.flatMap_accesses (body : List Node) :
    body.flatMap (Node.accesses []) = (Node.trailsIn body).filterMap Access.ofTrail? := by
  rw [Node.trailsIn_eq_flatMap, List.filterMap_flatMap]
  exact List.flatMap_congr fun n _ => n.accesses_eq_trails []

/-- The nodes of the outermost scope are those at the ends of the trails. -/
theorem Node.scope_eq_trails (above : List Node) (n : Node) :
    n.scope = n.trails.filterMap fun trail => (above ++ trail).getLast? := by
  induction n using Node.induction_children generalizing above with
  | step n ih =>
    rw [Node.scope_eq, Node.filterMap_trails, List.getLast?_concat, Option.toList_some,
      List.cons_append, List.nil_append]
    split
    · rfl
    · congr 1
      refine List.flatMap_congr fun child hchild => ?_
      rw [ih child hchild (above ++ [n])]
      refine List.filterMap_congr fun trail _ => ?_
      rw [List.append_assoc]
      rfl

theorem Node.flatMap_scope (body : List Node) :
    body.flatMap Node.scope = (Node.trailsIn body).filterMap List.getLast? := by
  rw [Node.trailsIn_eq_flatMap, List.filterMap_flatMap]
  exact List.flatMap_congr fun n _ => n.scope_eq_trails []

/-! ## Checked accesses -/

/-- Why a locator that checks its accesses fails. -/
inductive LocatorFault where
  | walk (fault : WalkFault)
  | access (fault : AccessFault)

namespace AccessLocator

/-- The access to a node, made with the checks; what is no variable is not accessed. -/
def checkedAccess? (operations : List Node) (n : Node) : Except AccessFault (Option Access) :=
  match n with
  | .expr (.var _) => (Access.ofVariable (.node n) (operations.map .node)).map some
  | .staticVar _ => (Access.ofStaticVariable (.node n) (operations.map .node)).map some
  | _ => .ok none

/-- The reaction of a locator that makes its accesses with the checks. -/
def reactChecked (l : AccessLocator) : Event → Except LocatorFault AccessLocator
  | .enter o => do
    let found ← (checkedAccess? l.operations o.node).mapError .access
    return ⟨o.node :: l.ancestors, l.accesses ++ found.toList⟩
  | e => (l.react e).mapError .walk

theorem operationsOf_map_node (operations : List Node) :
    Access.operationsOf (operations.map .node) = .ok operations := by
  induction operations with
  | nil => rfl
  | cons n rest ih =>
    rw [Access.operationsOf] at ih
    rw [Access.operationsOf, List.map_cons, List.mapM_cons, ih]
    rfl

/-- The checks accept every access. -/
theorem checkedAccess?_eq (operations : List Node) (n : Node) :
    checkedAccess? operations n = .ok ((Subject.ofNode? n).map (⟨·, operations⟩)) := by
  cases n with
  | expr e =>
    cases e with
    | var name =>
      rw [checkedAccess?, Access.ofVariable, operationsOf_map_node]
      rfl
    | _ => rfl
  | staticVar v =>
    rw [checkedAccess?, Access.ofStaticVariable, operationsOf_map_node]
    rfl
  | _ => rfl

/-- With the checks a locator does what it does without them. -/
theorem reactChecked_eq (l : AccessLocator) (e : Event) :
    l.reactChecked e = (l.react e).mapError .walk := by
  cases e with
  | enter o =>
    rw [reactChecked, checkedAccess?_eq]
    cases h : Subject.ofNode? o.node with
    | none => simp [react, h, Except.mapError, bind, Except.bind, pure, Except.pure]
    | some s => simp [react, h, Except.mapError, bind, Except.bind, pure, Except.pure]
  | _ => rfl

end AccessLocator

/-! ## Walks -/

/-- A watcher that accepts all events in a row ends without a fault. -/
theorem Watch.feed_of_foldlM {σ ε : Type} {react : σ → Event → Except ε σ} {s s' : σ}
    {events : List Event} (h : events.foldlM react s = .ok s') :
    Watch.feed react ⟨[], s⟩ events = (⟨[], s'⟩, none) := by
  induction events generalizing s with
  | nil =>
    cases h
    rfl
  | cons e rest ih =>
    rw [List.foldlM_cons] at h
    cases hreact : react s e with
    | error fault =>
      rw [hreact] at h
      cases h
    | ok t =>
      rw [hreact] at h
      simp only [Watch.feed, Gate.stepThrough, hreact]
      exact ih h

/-- Behind a gate, whatever its state, a watcher that accepts the pruned walk ends as it does on
    that walk, and the gate ends open. -/
theorem Watch.feed_walk_of_foldlM {σ ε : Type} {react : σ → Event → Except ε σ} {s s' : σ}
    {roots : List Occurrence} (hacyclic : Occurrence.Acyclic roots) (g : Gate)
    (h : (scopeWalk roots).foldlM react s = .ok s') :
    Watch.feed react ⟨[g], s⟩ (walk roots) = (⟨[.opened], s'⟩, none) := by
  have hshows := Gate.shows_walk hacyclic g
  have hpruned : g.pass (walk roots) = scopeWalk roots := by
    rw [hshows.pass_eq, scopeWalk, (Gate.shows_walk hacyclic .opened).pass_eq]
  obtain ⟨hstate, hfault, hgates⟩ := Watch.feed_gate react g s (walk roots)
  rw [hpruned, Watch.feed_of_foldlM h] at hstate hfault
  have hopened := hgates hfault
  rw [hshows.stepAll_eq] at hopened
  cases hfeed : Watch.feed react ⟨[g], s⟩ (walk roots) with
  | mk w fault? =>
    rw [hfeed] at hstate hfault hopened
    cases w
    simp_all only

theorem AccessLocator.foldlM_reactChecked {l l' : AccessLocator} {events : List Event}
    (h : events.foldlM react l = .ok l') : events.foldlM reactChecked l = .ok l' := by
  induction events generalizing l with
  | nil =>
    cases h
    rfl
  | cons e rest ih =>
    rw [List.foldlM_cons] at h
    rw [List.foldlM_cons, reactChecked_eq]
    cases hreact : l.react e with
    | error fault =>
      rw [hreact] at h
      cases h
    | ok t =>
      rw [hreact] at h
      exact ih h

/-- Collecting nodes, as a watcher that has no reason to fail. -/
def collecting {ε : Type} (wanted : Node → Bool) (found : List Node) (e : Event) :
    Except ε (List Node) :=
  .ok (collect wanted found e)

theorem foldlM_collecting {ε : Type} (wanted : Node → Bool) (found : List Node)
    (events : List Event) :
    events.foldlM (collecting (ε := ε) wanted) found
      = .ok (events.foldl (collect wanted) found) := by
  induction events generalizing found with
  | nil => rfl
  | cons e rest ih => exact ih (collect wanted found e)

/-! ## Exactness -/

/-- **The locators are exact.** The outermost scope of a body has places, in pre-order, and each
    place has a trail from the root down to the node there; it ends where a closure, a function or a
    class opens another scope, and nowhere else. The accesses are those at the ends of
    the trails, one for each variable; the returns and the calls are the nodes of these kinds at
    the ends. They are found by a fresh locator, and also by one in any other state, on trees that
    share objects in whatever way: it never fails, and its stack is empty when the walk ends. -/
theorem locators_exact_in_preorder (body : List Node) :
    ∃ (places : List (List Nat)) (trails : List (List Node)), Node.Preorder body places
      ∧ (∀ n : Node,
          n.isBoundary = true ↔ n.kind = .closure ∨ n.kind = .function ∨ n.kind = .classDecl)
      ∧ places.map (Node.trailIn? body) = trails.map some
      ∧ (let accesses := trails.filterMap Access.ofTrail?
         let nodes := trails.filterMap List.getLast?
         let returns := nodes.filter fun n => n.kind = .ret
         let calls := nodes.filter fun n =>
          n.kind = .call ∨ n.kind = .methodCall ∨ n.kind = .staticCall
         locateAccesses body = .ok accesses
         ∧ locateReturns body = returns
         ∧ locateCalls body = calls
         ∧ ∀ roots : List Occurrence, roots.map Occurrence.node = body →
            Occurrence.Placed roots → Occurrence.Identified roots →
            (∀ l, Watch.feed AccessLocator.reactChecked ⟨[.opened], l⟩ (walk roots)
                = (⟨[.opened], ⟨[], accesses⟩⟩, none))
            ∧ (∀ found, Watch.feed (collecting (ε := Empty) Node.isReturn) ⟨[.opened], found⟩
                (walk roots) = (⟨[.opened], returns⟩, none))
            ∧ ∀ found, Watch.feed (collecting (ε := Empty) Node.isCall) ⟨[.opened], found⟩
                (walk roots) = (⟨[.opened], calls⟩, none)) := by
  have hreturns : Node.isReturn = fun n => decide (n.kind = .ret) := by
    funext n
    rw [Bool.eq_iff_iff, Node.isReturn_iff_kind, decide_eq_true_iff]
  have hcalls : Node.isCall
      = fun n => decide (n.kind = .call ∨ n.kind = .methodCall ∨ n.kind = .staticCall) := by
    funext n
    rw [Bool.eq_iff_iff, Node.isCall_iff_kind, decide_eq_true_iff]
  refine ⟨Node.placesIn body, Node.trailsIn body, Node.preorder_placesIn body, Node.isBoundary_iff,
    (Node.preorder_placesIn body).map_trailIn?, ?_⟩
  intro accesses nodes returns calls
  refine ⟨?_, ?_, ?_, ?_⟩
  · rw [locateAccesses_eq, Node.flatMap_accesses]
  · rw [locateReturns, locate_eq, Node.flatMap_scope, hreturns]
  · rw [locateCalls, locate_eq, Node.flatMap_scope, hcalls]
  · intro roots hnodes hplaced hidentified
    have hacyclic := hidentified.acyclic
    have hcollect (wanted : Node → Bool) (found : List Node) :
        Watch.feed (collecting (ε := Empty) wanted) ⟨[.opened], found⟩ (walk roots)
          = (⟨[.opened], nodes.filter wanted⟩, none) := by
      refine Watch.feed_walk_of_foldlM hacyclic .opened ?_
      rw [foldlM_collecting, foldl_collect_scopeWalk wanted hacyclic hplaced, hnodes,
        Node.flatMap_scope]
    refine ⟨?_, ?_, ?_⟩
    · intro l
      refine Watch.feed_walk_of_foldlM hacyclic .opened (AccessLocator.foldlM_reactChecked ?_)
      rw [AccessLocator.foldlM_scopeWalk hacyclic hplaced, hnodes, Node.flatMap_accesses]
    · intro found
      rw [hcollect, hreturns]
    · intro found
      rw [hcollect, hcalls]

/-- The statement `$x = f($y);` is one object at two places of a body, and the locator has a node on
    its stack and an access from before. -/
theorem locators_exact_on_shared_statement :
    let f : Ident := ⟨"f", by decide⟩
    let x : VarName := .named ⟨"x", by decide⟩
    let y : VarName := .named ⟨"y", by decide⟩
    let call : Expr := .call (.named f) [.var y]
    let assign : Expr := .assign (.var x) call
    let place := Occurrence.ofNode [0] (.stmt (.expression assign))
    let accesses : List Access := [⟨.var x, [.expr assign]⟩, ⟨.var y, [.expr assign, .expr call]⟩]
    Occurrence.Placed [place, place] ∧ Occurrence.Identified [place, place]
    ∧ Watch.feed AccessLocator.reactChecked ⟨[.opened], ⟨[.bare], [⟨.var y, []⟩]⟩⟩
        (walk [place, place]) = (⟨[.opened], ⟨[], accesses ++ accesses⟩⟩, none) := by
  intro f x y call assign place accesses
  have hroots : ∀ o ∈ [place, place], o = place := by
    intro o ho
    simpa using ho
  have hplaced : Occurrence.Placed [place, place] :=
    Occurrence.placed_of_ofNode fun o ho => ⟨_, _, hroots o ho⟩
  have hidentified : Occurrence.Identified [place, place] := by
    refine Occurrence.identified_of_ofNode (fun o ho => ⟨_, _, hroots o ho⟩) ?_
    intro o ho o' ho' _
    rw [hroots o ho, hroots o' ho']
  let body : List Node := [.stmt (.expression assign), .stmt (.expression assign)]
  have hnodes : [place, place].map Occurrence.node = body := by
    simp only [List.map_cons, List.map_nil, place, Occurrence.node_ofNode, body]
  have hfound : locateAccesses body = .ok (accesses ++ accesses) := by
    rw [locateAccesses_eq]
    cbv
  obtain ⟨places, trails, -, -, -, haccesses, -, -, hwalk⟩ := locators_exact_in_preorder body
  rw [hfound] at haccesses
  refine ⟨hplaced, hidentified, ?_⟩
  rw [(hwalk _ hnodes hplaced hidentified).1, ← Except.ok.inj haccesses]

end CallablePurity
