import CallablePurity.Proofs.Walk.Located
import CallablePurity.Effect
import CallablePurity.Resolve

set_option autoImplicit false

/-! # Targets of calls in a body without side effects

A variable directly below a node of unknown effect is an access with a side effect. Calls are such
nodes. So where no access has a side effect, no call has a variable as its callee or its receiver
(`ofNode?_eq_none_of_no_sideEffect`). The target of a call then depends neither on the types of
variables nor on the texts they are known to hold, nor on which types count as plain
(`Resolve.target?_eq_of_no_sideEffect`), and the target of a method call is never certain
(`Resolve.target?_methodCall`). -/

namespace CallablePurity

/-- A variable directly below a node that runs foreign code is accessed with a side effect. -/
theorem exists_sideEffect_of_foreign (config : Config) (types : TypeMap) {body : List Node}
    {m child : Node} {s : Subject} (hm : m ∈ body.flatMap Node.scope)
    (hopen : m.isBoundary = false) (hforeign : m.handling = .foreign)
    (hop : AccessLocator.isOperation m = true) (hchild : child ∈ m.children)
    (hs : Subject.ofNode? child = some s) :
    ∃ a ∈ body.flatMap (Node.accesses []), a.hasSideEffect types config = true := by
  obtain ⟨n, hn, hmn⟩ := List.mem_flatMap.1 hm
  obtain ⟨operations, hmem⟩ := Node.exists_mem_accesses [] hmn hopen hop hchild hs
  refine ⟨⟨s, operations ++ [m]⟩, List.mem_flatMap.2 ⟨n, hn, hmem⟩, ?_⟩
  have hruns (declared : Option String) :
      config.runsForeignCode declared (operations ++ [m]).reverse = true := by
    rw [List.reverse_concat, Config.runsForeignCode, hforeign]
  unfold Access.hasSideEffect
  split
  · rfl
  · rw [hruns, Bool.or_true]

/-- Calls open no scope, and whatever stands below one meets foreign code. -/
theorem Node.handling_of_isCall {n : Node} (h : n.isCall = true) :
    n.isBoundary = false ∧ n.handling = .foreign ∧ AccessLocator.isOperation n = true := by
  cases n with
  | expr e =>
    cases e with
    | call _ _ | methodCall _ _ _ | staticCall _ _ _ => exact ⟨rfl, rfl, rfl⟩
    | _ => cases h
  | _ => cases h

theorem mem_locateCalls_iff {body : List Node} {call : Node} :
    call ∈ locateCalls body ↔ call ∈ body.flatMap Node.scope ∧ call.isCall = true := by
  rw [locateCalls, locate_eq, List.mem_filter]

section NoSideEffect

variable {config : Config} {types : TypeMap} {body : List Node}
  (h : ∀ a ∈ body.flatMap (Node.accesses []), a.hasSideEffect types config = false)

include h

/-- Where no access has a side effect, no variable stands directly below a call. -/
theorem ofNode?_eq_none_of_no_sideEffect {call child : Node} (hcall : call ∈ locateCalls body)
    (hchild : child ∈ call.children) : Subject.ofNode? child = none := by
  obtain ⟨hscope, hisCall⟩ := mem_locateCalls_iff.1 hcall
  obtain ⟨hopen, hforeign, hop⟩ := Node.handling_of_isCall hisCall
  rw [Option.eq_none_iff_forall_ne_some]
  intro s hs
  obtain ⟨a, ha, heffect⟩ :=
    exists_sideEffect_of_foreign config types hscope hopen hforeign hop hchild hs
  rw [h a ha] at heffect
  cases heffect

namespace Resolve

/-- Where no access has a side effect, the target of a call is certain or not whatever is known of
    the variables. -/
theorem target?_eq_of_no_sideEffect {call : Node} (hcall : call ∈ locateCalls body)
    (config₁ config₂ : Config) (types₁ types₂ : TypeMap)
    (values₁ values₂ : OrderedMap String String) :
    target? config₁ types₁ values₁ call = target? config₂ types₂ values₂ call := by
  have hchild {child : Node} (hmem : child ∈ call.children) : Subject.ofNode? child = none :=
    ofNode?_eq_none_of_no_sideEffect h hcall hmem
  -- only a callee or a receiver that is a named variable makes a difference
  unfold target?
  split
  · rfl
  · cases hchild List.mem_cons_self
  · rfl
  · cases hchild List.mem_cons_self
  · rfl

/-- Where no access has a side effect, no receiver is a variable, and so no method call has a target
    that is certain. -/
theorem target?_methodCall {receiver : Expr} {member : Member} {args : List Expr}
    (hcall : .expr (.methodCall receiver member args) ∈ locateCalls body)
    (config' : Config) (types' : TypeMap) (values : OrderedMap String String) :
    target? config' types' values (.expr (.methodCall receiver member args)) = .ok none := by
  have hreceiver : Subject.ofNode? (.expr receiver) = none :=
    ofNode?_eq_none_of_no_sideEffect h hcall List.mem_cons_self
  unfold target?
  split
  · next heq => cases heq
  · next heq => cases heq
  · next heq => cases heq
  · next heq =>
    cases heq
    cases hreceiver
  · rfl

end Resolve

end NoSideEffect

end CallablePurity
