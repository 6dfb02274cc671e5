import CallablePurity.Effect
import CallablePurity.Offence
import CallablePurity.Resolve
import CallablePurity.Walk.Locator

set_option autoImplicit false

/-! # The purity analysis

A callable is pure when calling it can be replaced by a copy of its body without anyone noticing. It
must not share storage with its caller, no access to a variable in its own scope may have a side
effect, and, where definitions can be looked up, every call in its scope must have a known target
that is pure in turn. The first offence found is the verdict.

Calls are followed to a limited depth. A call of a callable that is being analysed already is taken
to be pure: the rest of the cycle decides. -/

namespace CallablePurity

/-! ## Runs -/

/-- Why an analysis gives no verdict. -/
inductive AnalysisFault where
  | walk (fault : WalkFault)
  | reference (fault : ReferenceFault)
deriving DecidableEq

def AnalysisFault.message : AnalysisFault → String
  | walk fault => fault.message
  | reference fault => fault.message

/-- What a part of an analysis leaves behind: the offences it logged and the definitions it asked
    for, in order, and how it ended. -/
structure Run (α : Type) where
  logged : List Offence
  asked : List Reference
  outcome : Except AnalysisFault α

namespace Run

variable {α β : Type}

def done (a : α) : Run α :=
  ⟨[], [], .ok a⟩

/-- Goes on with the result; the traces of both parts follow each other. A fault ends the run. -/
def andThen (r : Run α) (next : α → Run β) : Run β :=
  match r.outcome with
  | .error fault => ⟨r.logged, r.asked, .error fault⟩
  | .ok a => ⟨r.logged ++ (next a).logged, r.asked ++ (next a).asked, (next a).outcome⟩

theorem done_andThen (a : α) (next : α → Run β) : (done a).andThen next = next a := by
  simp [done, andThen]

theorem andThen_done (r : Run α) : r.andThen done = r := by
  obtain ⟨logged, asked, outcome⟩ := r
  cases outcome <;> simp [andThen, done]

theorem andThen_assoc {γ : Type} (r : Run α) (f : α → Run β) (g : β → Run γ) :
    (r.andThen f).andThen g = r.andThen fun a => (f a).andThen g := by
  obtain ⟨logged, asked, outcome⟩ := r
  cases outcome with
  | error fault => rfl
  | ok a => cases h : (f a).outcome <;> simp [andThen, h, List.append_assoc]

instance : Monad Run where
  pure := done
  bind := andThen

instance : LawfulMonad Run :=
  LawfulMonad.mk' Run andThen_done done_andThen andThen_assoc

def ofExcept (x : Except AnalysisFault α) : Run α :=
  ⟨[], [], x⟩

def ask (r : Reference) : Run Unit :=
  ⟨[], [r], .ok ()⟩

/-- Ends a part of the analysis with an offence, which is logged. -/
def offend (o : Offence) : Run (Option Offence) :=
  ⟨[o], [], .ok (some o)⟩

/-- Ends a part of the analysis without an offence. -/
def clean : Run (Option Offence) :=
  done none

/-- Checks items until one has an offence. -/
def firstOffence (check : α → Run (Option Offence)) : List α → Run (Option Offence)
  | [] => clean
  | a :: rest => do
    match ← check a with
    | some o => return some o
    | none => firstOffence check rest

end Run

/-! ## What a callable does by itself -/

/-- The offence of an access with a side effect. -/
def Access.offence (a : Access) (config : Config) : Offence :=
  if a.touchesGlobalState config then .globalState a else .sideEffect a

/-- The first offence that a callable has by itself, whatever it calls. -/
def Callable.ownOffence? (config : Config) (c : Callable) (thisType : Option String) :
    Except WalkFault (Option Offence) :=
  match c.byRefBindings with
  | first :: rest => .ok (some (.byRef first rest))
  | [] => do
    let accesses ← locateAccesses c.body
    let types := TypeMap.ofCallable c thisType
    return (accesses.find? (·.hasSideEffect types config)).map (·.offence config)

/-! ## Following calls -/

/-- Finds the definition of a callable. -/
abbrev Lookup := Reference → Option Callable

/-- What an analysis works with. -/
structure Analyzer where
  config : Config := .standard
  /-- Finds definitions; without it, calls count only through the variables they touch. -/
  lookup : Option Lookup := none
  /-- The texts that variables of a callable are known to hold. -/
  texts : Callable → TypeMap → OrderedMap String String := fun _ _ => .empty

/-- Where an analysis stands: the keys of the callables on the path to here, and the number of
    calls on it. -/
structure Visit where
  inProgress : List String
  depth : Nat

/-- The place of the analysis below a call. -/
def Visit.descend (visit : Visit) (target : Reference) : Visit :=
  ⟨target.key :: visit.inProgress, visit.depth + 1⟩

/-- The judgement of a callable at some place of the analysis. -/
abbrev Judge := Visit → Callable → Option String → Run (Option Offence)

namespace Analyzer

/-- Checks a resolved call. Without a `judge` for the callee the depth limit is reached. -/
def checkTarget (z : Analyzer) (lookup : Lookup) (judge : Option Judge) (visit : Visit)
    (target : Reference) : Run (Option Offence) :=
  if !target.isMethod && z.config.isKnownPure target.function.text then .clean
  else if visit.inProgress.contains target.key then .clean
  else
    match judge with
    | none => .offend (.depthLimit z.config.maxCallDepth target)
    | some judge => do
      Run.ask target
      match lookup target with
      | none => .offend (.unknown target)
      | some callee =>
        match ← judge (visit.descend target) callee (target.cls.map Ident.text) with
        | none => .clean
        | some cause => .offend (.impureCall target cause)

/-- Checks one call of a body. -/
def checkCall (z : Analyzer) (lookup : Lookup) (judge : Option Judge) (visit : Visit)
    (types : TypeMap) (texts : OrderedMap String String) (call : Node) : Run (Option Offence) := do
  match ← Run.ofExcept ((Resolve.target? z.config types texts call).mapError .reference) with
  | none => .offend (.unresolvable visit.depth)
  | some target => z.checkTarget lookup judge visit target

/-- Judges a callable, with `judge` for the callables that it calls. -/
def judgeWith (z : Analyzer) (judge : Option Judge) : Judge := fun visit c thisType => do
  match ← Run.ofExcept ((c.ownOffence? z.config thisType).mapError .walk) with
  | some o => .offend o
  | none =>
    match z.lookup with
    | none => .clean
    | some lookup =>
      let types := TypeMap.ofCallable c thisType
      Run.firstOffence (z.checkCall lookup judge visit types (z.texts c types)) (locateCalls c.body)

/-- Judges a callable, following calls as many levels deep as `budget` says. -/
def judge (z : Analyzer) : (budget : Nat) → Judge
  | 0 => z.judgeWith none
  | budget + 1 => z.judgeWith (some (z.judge budget))

/-- The key under which a callable is known to be under analysis. Closures have no name, and
    neither have methods of an unknown class. -/
def rootKey? (c : Callable) (thisType : Option String) : Except ReferenceFault (Option String) :=
  match c, thisType with
  | .function f, _ => .ok (some (Reference.keyOf f.name.text))
  | .method m, some t => (Reference.ofNames m.name.text (some t)).map fun r => some r.key
  | _, _ => .ok none

/-- The start of an analysis. An empty key, of a name that is all backslashes, is not waited
    for. -/
def startVisit (key? : Option String) : Visit :=
  ⟨(key?.filter (· ≠ "")).toList, 0⟩

/-- Finds the first offence of a callable. -/
def offence? (z : Analyzer) (c : Callable) (thisType : Option String) :
    Run (Option Offence) := do
  let key? ← Run.ofExcept ((rootKey? c thisType).mapError .reference)
  z.judge z.config.callBudget (startVisit key?) c thisType

/-- The report on a callable that works on an object of class `thisType`. -/
def analyze (z : Analyzer) (c : Callable) (thisType : Option String) : Run Report := do
  return .ofOffence? (← z.offence? c thisType)

/-- The callable is pure. -/
def isPure (z : Analyzer) (c : Callable) (thisType : Option String) : Run Bool := do
  return (← z.analyze c thisType).isPure

end Analyzer

/-! ## Tables of definitions -/

namespace Lookup

/-- Finds definitions by reference; of several entries the last one counts. -/
def exact (table : List (Reference × Option Callable)) : Lookup :=
  fun r => (table.reverse.lookup r).join

/-- Finds definitions by the lower-case form of the qualified name. -/
def byLowercaseName (table : List (String × Option Callable)) : Lookup :=
  fun r => (table.reverse.lookup (Text.lowercase r.name)).join

end Lookup

end CallablePurity
