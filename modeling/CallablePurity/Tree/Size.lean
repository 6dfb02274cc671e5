import CallablePurity.Tree.Content

set_option autoImplicit false

/-! # Children are smaller

The children of a node are smaller than the node itself (`Node.sizeOf_lt_of_mem_children`), which is
what recursion over trees rests on. -/

namespace CallablePurity

/-! ## Bounds on the nodes of a field -/

namespace Content

/-- All nodes of a field are smaller than `bound`. -/
def Below (bound : Nat) (c : Content) : Prop :=
  ∀ n ∈ c.nodeList, sizeOf n < bound

variable {bound : Nat}

@[simp] theorem below_atom (a : Atom) : Below bound (atom a) := by
  simp [Below, nodeList]

@[simp] theorem below_text (s : String) : Below bound (text s) := by
  simp [text]

@[simp] theorem below_flag (b : Bool) : Below bound (flag b) := by
  simp [flag]

@[simp] theorem below_text? (s : Option String) : Below bound (text? s) := by
  cases s <;> simp [text?]

@[simp] theorem below_node (n : Node) : Below bound (node n) ↔ sizeOf n < bound := by
  simp [Below, nodeList]

@[simp] theorem below_expr (e : Expr) : Below bound (expr e) ↔ 1 + sizeOf e < bound := by
  simp [expr]

theorem below_expr? {e : Option Expr} (h : sizeOf e < bound) : Below bound (expr? e) := by
  cases e with
  | none => simp [expr?]
  | some e => simpa [expr?] using h

/-- A sequence of wrapped parts is bounded when wrapping adds at most one to the size of each. -/
theorem below_map {α : Type} [SizeOf α] {f : α → Node} {xs : List α}
    (hf : ∀ x, sizeOf (f x) ≤ 1 + sizeOf x) (h : sizeOf xs < bound) :
    Below bound (nodes (xs.map f)) := by
  intro n hn
  simp only [nodeList, List.mem_map] at hn
  obtain ⟨x, hx, rfl⟩ := hn
  have hlt := List.sizeOf_lt_of_mem hx
  have hle := hf x
  omega

theorem below_exprs {es : List Expr} (h : sizeOf es < bound) : Below bound (exprs es) :=
  below_map (by simp) h

theorem below_stmts {ss : List Stmt} (h : sizeOf ss < bound) : Below bound (stmts ss) :=
  below_map (by simp) h

theorem below_params {ps : List Param} (h : sizeOf ps < bound) : Below bound (params ps) :=
  below_map (by simp) h

theorem below_captures {cs : List Capture} (h : sizeOf cs < bound) :
    Below bound (nodes (cs.map .capture)) :=
  below_map (by simp) h

theorem below_staticVars {vs : List StaticVar} (h : sizeOf vs < bound) :
    Below bound (nodes (vs.map .staticVar)) :=
  below_map (by simp) h

theorem below_vars {vs : List VarName} (h : 1 + sizeOf vs < bound) :
    Below bound (exprs (vs.map .var)) := by
  intro n hn
  simp only [exprs, nodeList, List.map_map, List.mem_map, Function.comp_apply] at hn
  obtain ⟨v, hv, rfl⟩ := hn
  have hlt := List.sizeOf_lt_of_mem hv
  simp only [Node.expr.sizeOf_spec, Expr.var.sizeOf_spec]
  omega

theorem below_nodes {ns : List Node} (h : sizeOf ns < bound) : Below bound (nodes ns) := by
  intro n hn
  have hlt := List.sizeOf_lt_of_mem (show n ∈ ns from hn)
  omega

theorem below_varName {v : VarName} (h : sizeOf v < bound) : Below bound v.content := by
  cases v with
  | named n => simp [VarName.content]
  | computed e => simpa [VarName.content] using h

theorem below_member {m : Member} (h : sizeOf m < bound) : Below bound m.content := by
  cases m with
  | named s => simp [Member.content]
  | computed e => simpa [Member.content] using h

theorem below_target {t : Target} (h : sizeOf t < bound) : Below bound t.content := by
  cases t with
  | named n => simpa [Target.content] using h
  | computed e => simpa [Target.content] using h

theorem below_instantiated {i : Instantiated} (h : 1 + sizeOf i < bound) :
    Below bound i.content := by
  cases i <;> simp [Instantiated.content] at h ⊢ <;> omega

theorem below_arity {a : Arity} (h : sizeOf a < bound) : Below bound (expr? a.default?) := by
  cases a with
  | optional e => simpa [Arity.default?, expr?] using h
  | required => simp [Arity.default?, expr?]
  | variadic => simp [Arity.default?, expr?]

end Content

/-! ## Bounds on the nodes of a node -/

open Content in
/-- The contents of a node are smaller than the node. -/
theorem Node.below_contents (n : Node) : ∀ c ∈ n.contents, c.Below (sizeOf n) := by
  cases n with
  | bare => simp [contents]
  | name n => simp [contents]
  | param p => cases p; simp (disch := omega) [contents, Param.contents, below_arity]
  | capture c => simp [contents, Capture.contents]
  | staticVar v => cases v; simp (disch := omega) [contents, StaticVar.contents, below_expr?]
  | expr e =>
    cases e with
    | closure c =>
      cases c
      simp (disch := omega) [contents, Expr.contents, Closure.contents, below_params,
        below_captures, below_stmts]
    | _ =>
      simp (disch := omega) [contents, Expr.contents, below_varName, below_exprs, below_expr?,
        below_member, below_target, below_instantiated, below_nodes] <;> omega
  | stmt s =>
    cases s with
    | function f =>
      cases f
      simp (disch := omega) [contents, Stmt.contents, FunctionDecl.contents, below_params,
        below_stmts]
    | method m =>
      cases m
      simp (disch := omega) [contents, Stmt.contents, MethodDecl.contents, below_params,
        below_stmts]
    | classDecl c =>
      cases c
      simp (disch := omega) [contents, Stmt.contents, ClassDecl.contents, below_stmts]
    | _ =>
      simp (disch := omega) [contents, Stmt.contents, below_expr?, below_vars, below_staticVars,
        below_stmts, below_nodes] <;> omega

/-- A child is smaller than the node that holds it. -/
theorem Node.sizeOf_lt_of_mem_children {n c : Node} (h : c ∈ n.children) :
    sizeOf c < sizeOf n := by
  obtain ⟨content, hcontent, hc⟩ := List.mem_flatMap.1 h
  exact n.below_contents content hcontent c hc

end CallablePurity
