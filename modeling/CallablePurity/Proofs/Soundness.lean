import CallablePurity.Proofs.CallGraph
import CallablePurity.Proofs.TypeMembers

set_option autoImplicit false

/-! # Soundness of following calls

The analysis does not look at a call whose target is under analysis already, and it stops at a depth
limit. If it finds nothing nevertheless, then nothing is wrong with any callable that can be reached
from the root, by however many calls and along whatever cycles (`Analyzer.cleanBelow_of_pure`).

The argument is about the callables at which the analysis arrives on its way down (`Arrives`), each
with the keys of the callables above it and the number of calls that may still be followed. If
nothing is found in the root then nothing is found in any of them (`Arrives.outcome_eq_none`). A
call that is not followed has the key of the root or of a callable above, so it leads to a callable
at which the analysis has arrived before. Hence by induction on the calls from the root, the
analysis arrives at every reachable callable, up to the spelling of the name of its class. -/

namespace CallablePurity

open DeclaredType (SameMembers)

namespace BoundCallable

variable {config : Config} {lookup : Lookup} {p q : BoundCallable} {r : Reference}

/-! ## Callables that are alike -/

/-- The same definition, bound to classes with the same members. -/
structure Alike (p q : BoundCallable) : Prop where
  callable : p.callable = q.callable
  thisType : SameMembers p.thisType q.thisType

theorem Alike.refl (p : BoundCallable) : Alike p p :=
  ⟨rfl, SameMembers.refl p.thisType⟩

theorem Alike.types (h : Alike p q) (name : String) :
    SameMembers (p.types.typeOf name) (q.types.typeOf name) := by
  unfold BoundCallable.types
  rw [← h.callable]
  exact TypeMap.sameMembers_ofCallable p.callable h.thisType name

theorem Alike.locallyClean (h : Alike p q) (hclean : p.LocallyClean config) :
    q.LocallyClean config := by
  refine ⟨?_, ?_, ?_⟩
  · rw [← h.callable]
    exact hclean.byValue
  · obtain ⟨accesses, hlocate, heffect⟩ := hclean.accesses
    rw [← h.callable]
    refine ⟨accesses, hlocate, ?_⟩
    intro a ha
    rw [← a.hasSideEffect_congr config h.types]
    exact heffect a ha
  · rw [← h.callable]
    intro call hcall
    rw [← hclean.target?_eq hcall config q.types]
    exact hclean.calls call hcall

theorem Alike.pending (h : Alike p q) (hclean : p.LocallyClean config) (hr : q.Pending config r) :
    p.Pending config r := by
  obtain ⟨call, hcall, htarget⟩ := hr.called
  rw [← h.callable] at hcall
  rw [← hclean.target?_eq hcall config q.types] at htarget
  exact ⟨⟨call, hcall, htarget⟩, hr.notWhitelisted⟩

/-! ## Consistent lookups -/

/-- A lookup goes with the keys of the references that occur below a root: those with one key have
    one definition and classes with the same members, and those with the key of the root have the
    definition and the class of the root. -/
structure Consistent (config : Config) (lookup : Lookup) (root : BoundCallable) : Prop where
  alike : ∀ p q r s, root.Reachable config lookup p → root.Reachable config lookup q →
    p.Pending config r → q.Pending config s → r.key = s.key →
    lookup r = lookup s ∧ SameMembers r.className s.className
  root : ∀ p r, root.Reachable config lookup p → p.Pending config r →
    Analyzer.rootKey? root.callable root.thisType = .ok (some r.key) →
    lookup r = some root.callable ∧ SameMembers r.className root.thisType

end BoundCallable

/-! ## Where the analysis arrives -/

namespace Analyzer

/-- The analysis of a root arrives at a callable and may follow `budget` more calls from there. -/
inductive Arrives (config : Config) (lookup : Lookup) (root : BoundCallable)
    (key? : Option String) : (budget : Nat) → Visit → BoundCallable → Prop
  | start : Arrives config lookup root key? config.callBudget (startVisit key?) root
  | call {budget : Nat} {visit : Visit} {p q : BoundCallable} {r : Reference}
      (hp : Arrives config lookup root key? (budget + 1) visit p) (hedge : p.Edge config lookup r q)
      (hfresh : r.key ∉ visit.inProgress) :
      Arrives config lookup root key? budget (visit.descend r) q

namespace Arrives

variable {config : Config} {lookup : Lookup} {root p q : BoundCallable} {key? : Option String}
  {budget : Nat} {visit : Visit} {r : Reference}

theorem reachable (h : Arrives config lookup root key? budget visit p) :
    root.Reachable config lookup p := by
  induction h with
  | start => exact Relation.ReflTransGen.refl
  | call _ hedge _ ih => exact ih.tail ⟨_, hedge⟩

/-- A key that is waited for is the key of the root, or of a call that was followed. -/
theorem of_inProgress (h : Arrives config lookup root key? budget visit p) {key : String}
    (hkey : key ∈ visit.inProgress) :
    key? = some key ∨ ∃ p' r q budget' visit', root.Reachable config lookup p'
      ∧ p'.Edge config lookup r q ∧ r.key = key
      ∧ Arrives config lookup root key? budget' visit' q := by
  induction h with
  | start =>
    left
    exact Option.eq_some_of_filter_eq_some (Option.mem_toList.1 hkey)
  | call hp hedge hfresh ih =>
    rcases List.mem_cons.1 hkey with rfl | habove
    · exact Or.inr ⟨_, _, _, _, _, hp.reachable, hedge, rfl, hp.call hedge hfresh⟩
    · exact ih habove

/-- If nothing is found in the root then nothing is found wherever the analysis arrives. -/
theorem outcome_eq_none (h : Arrives config lookup root key? budget visit p)
    (hroot : ((following config lookup).judge config.callBudget (startVisit key?) root.callable
      root.thisType).outcome = .ok none) :
    ((following config lookup).judge budget visit p.callable p.thisType).outcome = .ok none := by
  induction h with
  | start => exact hroot
  | call hp hedge hfresh ih =>
    obtain ⟨-, hpending⟩ := (outcome_judge_eq_none_iff _ _).1 ih
    rcases hpending _ hedge.pending with hkey | ⟨below, q', hbelow, hedge', hnone⟩
    · exact absurd hkey hfresh
    · cases hbelow
      rw [hedge.unique hedge']
      exact hnone

theorem locallyClean (h : Arrives config lookup root key? budget visit p)
    (hroot : ((following config lookup).judge config.callBudget (startVisit key?) root.callable
      root.thisType).outcome = .ok none) : p.LocallyClean config :=
  ((outcome_judge_eq_none_iff visit budget).1 (h.outcome_eq_none hroot)).1

section Pure

variable (hkey : rootKey? root.callable root.thisType = .ok key?)
  (hconsistent : root.Consistent config lookup)
  (hroot : ((following config lookup).judge config.callBudget (startVisit key?) root.callable
    root.thisType).outcome = .ok none)

include hkey hconsistent hroot

/-- A call leads to a callable at which the analysis arrives, whether or not it is followed. -/
theorem exists_callee (h : Arrives config lookup root key? budget visit p)
    (hr : p.Pending config r) :
    ∃ budget' visit' q, Arrives config lookup root key? budget' visit' q
      ∧ lookup r = some q.callable ∧ SameMembers q.thisType r.className := by
  obtain ⟨-, hpending⟩ := (outcome_judge_eq_none_iff visit budget).1 (h.outcome_eq_none hroot)
  by_cases hwaiting : r.key ∈ visit.inProgress
  · rcases h.of_inProgress hwaiting with hrootKey | ⟨p', s, q, budget', visit', hp', hedge, hs, hq⟩
    · -- the target is the root
      rw [hrootKey] at hkey
      obtain ⟨hfound, hclass⟩ := hconsistent.root p r h.reachable hr hkey
      exact ⟨_, _, root, .start, hfound, hclass.symm⟩
    · -- the target is that of a call `s` with the same key, which was followed
      obtain ⟨hfound, hclass⟩ :=
        hconsistent.alike p p' r s h.reachable hp' hr hedge.pending hs.symm
      refine ⟨budget', visit', q, hq, hfound.trans hedge.found, ?_⟩
      rw [hedge.bound]
      exact hclass.symm
  · rcases hpending r hr with hkey' | ⟨below, q, rfl, hedge, -⟩
    · exact absurd hkey' hwaiting
    · refine ⟨below, _, q, h.call hedge hwaiting, hedge.found, ?_⟩
      rw [hedge.bound]
      exact SameMembers.refl r.className

/-- The analysis arrives at every reachable callable, or at one that is alike. -/
theorem of_reachable (h : root.Reachable config lookup q) :
    ∃ budget visit p, Arrives config lookup root key? budget visit p ∧ p.Alike q := by
  induction h with
  | refl => exact ⟨_, _, root, .start, .refl root⟩
  | tail _ hedge ih =>
    -- the analysis may have come another way, so the callable is known up to its class only
    obtain ⟨budget, visit, p, hp, halike⟩ := ih
    obtain ⟨r, hedge⟩ := hedge
    have hclean := hp.locallyClean hroot
    obtain ⟨budget', visit', q, hq, hfound, hclass⟩ :=
      hp.exists_callee hkey hconsistent hroot (halike.pending hclean hedge.pending)
    refine ⟨budget', visit', q, hq, ?_, ?_⟩
    · exact Option.some.inj (hfound.symm.trans hedge.found)
    · rw [hedge.bound]
      exact hclass

end Pure

end Arrives

/-! ## Soundness -/

/-- **Soundness.** If a root is found to be pure then nothing is wrong with any callable that can be
    reached from it, and all targets of calls of such a callable have a definition. -/
theorem cleanBelow_of_pure (config : Config) (lookup : Lookup) (root : BoundCallable)
    (hconsistent : root.Consistent config lookup)
    (hpure : (analyze { config := config, lookup := some lookup } root.callable
      root.thisType).outcome = .ok .pure) : root.CleanBelow config lookup := by
  intro q hq
  obtain ⟨key?, hkey, hroot⟩ := outcome_judge_of_pure hpure
  obtain ⟨budget, visit, p, hp, halike⟩ := Arrives.of_reachable hkey hconsistent hroot hq
  have hclean := hp.locallyClean hroot
  refine ⟨halike.locallyClean hclean, ?_⟩
  intro r hr
  obtain ⟨_, _, callee, -, hfound, -⟩ :=
    hp.exists_callee hkey hconsistent hroot (halike.pending hclean hr)
  exact ⟨callee.callable, hfound⟩

/-! ### Two functions that call each other -/

namespace PingPong

open BoundCallable

def ping : Ident := ⟨"ping", by decide⟩

def pingUpper : Ident := ⟨"PING", by decide⟩

def pong : Ident := ⟨"pong", by decide⟩

def strlen : Ident := ⟨"strlen", by decide⟩

/-- It calls `pong`, and a function that is taken to be pure. -/
def first : Callable := .calling ping [strlen, pong]

/-- It calls `ping` by another spelling of the name, and itself. -/
def second : Callable := .calling pong [pingUpper, pong]

def lookup : Lookup := .byLowercaseName [("ping", some first), ("pong", some second)]

theorem lookup_pingUpper : lookup ⟨pingUpper, none⟩ = some first := by
  have hname : Text.lowercase (Reference.name ⟨pingUpper, none⟩) = "ping" := by decide +kernel
  unfold lookup Lookup.byLowercaseName
  rw [hname]
  rfl

theorem lookup_pong : lookup ⟨pong, none⟩ = some second := by
  have hname : Text.lowercase (Reference.name ⟨pong, none⟩) = "pong" := by decide +kernel
  unfold lookup Lookup.byLowercaseName
  rw [hname]
  rfl

theorem key_pingUpper : Reference.key ⟨pingUpper, none⟩ = "ping" := by
  decide +kernel

theorem pending_first {r : Reference} (h : Pending .standard ⟨first, none⟩ r) :
    r = ⟨pong, none⟩ := by
  obtain ⟨f, hf, rfl, hlist⟩ := (pending_calling_iff _ _ _ _ r).1 h
  rcases List.mem_cons.1 hf with rfl | hf
  · exact absurd hlist (by decide +kernel)
  · rw [List.mem_singleton.1 hf]

theorem pending_second {r : Reference} (h : Pending .standard ⟨second, none⟩ r) :
    r = ⟨pingUpper, none⟩ ∨ r = ⟨pong, none⟩ := by
  obtain ⟨f, hf, rfl, -⟩ := (pending_calling_iff _ _ _ _ r).1 h
  rcases List.mem_cons.1 hf with rfl | hf
  · exact Or.inl rfl
  · rw [List.mem_singleton.1 hf]
    exact Or.inr rfl

theorem reachable {q : BoundCallable} (h : Reachable .standard lookup ⟨first, none⟩ q) :
    q = ⟨first, none⟩ ∨ q = ⟨second, none⟩ := by
  induction h with
  | refl => exact Or.inl rfl
  | tail _ hedge ih =>
    obtain ⟨r, hedge⟩ := hedge
    have htarget : r = ⟨pingUpper, none⟩ ∨ r = ⟨pong, none⟩ := by
      rcases ih with rfl | rfl
      · exact Or.inr (pending_first hedge.pending)
      · exact pending_second hedge.pending
    rcases htarget with rfl | rfl
    · exact Or.inl (hedge.eq_of_found lookup_pingUpper)
    · exact Or.inr (hedge.eq_of_found lookup_pong)

/-- The references that occur are told apart by their keys. -/
theorem pending {p : BoundCallable} {r : Reference}
    (hp : Reachable .standard lookup ⟨first, none⟩ p) (hr : p.Pending .standard r) :
    r = ⟨pingUpper, none⟩ ∨ r = ⟨pong, none⟩ := by
  rcases reachable hp with rfl | rfl
  · exact Or.inr (pending_first hr)
  · exact pending_second hr

theorem consistent : Consistent .standard lookup ⟨first, none⟩ := by
  have hkey : Reference.key ⟨pingUpper, none⟩ ≠ Reference.key ⟨pong, none⟩ := by decide +kernel
  refine ⟨?_, ?_⟩
  · intro p q r s hp hq hr hs hrs
    have heq : r = s := by
      rcases pending hp hr with rfl | rfl <;> rcases pending hq hs with rfl | rfl
      · rfl
      · exact absurd hrs hkey
      · exact absurd hrs.symm hkey
      · rfl
    rw [heq]
    exact ⟨rfl, SameMembers.refl _⟩
  · intro p r hp hr hroot
    rcases pending hp hr with rfl | rfl
    · exact ⟨lookup_pingUpper, SameMembers.refl none⟩
    · exact absurd hroot (by decide +kernel)

theorem edge_pong : Edge .standard lookup ⟨first, none⟩ ⟨pong, none⟩ ⟨second, none⟩ := by
  have hlist : Config.standard.isKnownPure pong.text = false := by decide +kernel
  exact ((pending_calling_iff _ _ _ _ _).2
    ⟨pong, List.mem_of_mem_getLast? rfl, rfl, hlist⟩).edge lookup_pong

theorem analyze_first : (analyze { lookup := some lookup } first none).outcome = .ok .pure := by
  have hkey : rootKey? first none = .ok (some "ping") := by decide +kernel
  have hstart : (startVisit (some "ping")).inProgress = ["ping"] := by decide +kernel
  have hroot : ((following .standard lookup).judge 8 (startVisit (some "ping")) first none).outcome
      = .ok none := by
    refine (outcome_judge_eq_none_iff (p := ⟨first, none⟩) _ 8).2
      ⟨locallyClean_calling _ _ _ _, ?_⟩
    intro r hr
    obtain rfl := pending_first hr
    refine Or.inr ⟨7, ⟨second, none⟩, rfl, edge_pong, ?_⟩
    refine (outcome_judge_eq_none_iff (p := ⟨second, none⟩) _ 7).2
      ⟨locallyClean_calling _ _ _ _, ?_⟩
    intro s hs
    left
    rw [Visit.descend, hstart]
    rcases pending_second hs with rfl | rfl
    · rw [key_pingUpper]
      exact List.mem_cons_of_mem _ List.mem_cons_self
    · exact List.mem_cons_self
  rw [outcome_analyze hkey, show Config.callBudget .standard = 8 from rfl, hroot]
  rfl

end PingPong

/-- The first function is found to be pure, so nothing is wrong with the second one either. -/
theorem cleanBelow_of_pure_cycle :
    BoundCallable.Consistent .standard PingPong.lookup ⟨PingPong.first, none⟩
    ∧ (analyze { lookup := some PingPong.lookup } PingPong.first none).outcome = .ok .pure
    ∧ BoundCallable.Reachable .standard PingPong.lookup ⟨PingPong.first, none⟩
        ⟨PingPong.second, none⟩
    ∧ BoundCallable.LocallyClean .standard ⟨PingPong.second, none⟩ := by
  have hreach : BoundCallable.Reachable .standard PingPong.lookup ⟨PingPong.first, none⟩
      ⟨PingPong.second, none⟩ := .single ⟨_, PingPong.edge_pong⟩
  have hbelow := cleanBelow_of_pure .standard PingPong.lookup ⟨PingPong.first, none⟩
    PingPong.consistent PingPong.analyze_first
  exact ⟨PingPong.consistent, PingPong.analyze_first, hreach, (hbelow _ hreach).1⟩

end Analyzer

end CallablePurity
