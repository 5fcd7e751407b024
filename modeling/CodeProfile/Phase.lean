import CodeProfile.Text.Basic

/-!
# Phases of a run

A run goes through phases, and whoever reports a fault wants to know in which phase and on which
input it happened. `RunContext` is what is known at a moment. Entering a phase gives a guard that
remembers the context before it, and releasing the guard brings that context back. A guard that a
fault unwinds past brings nothing back: the context stays as it was at the fault, so that whoever
catches the fault can tell where it happened.
-/

namespace CodeProfile

/-- The phases of a run. -/
inductive Phase where
  | languageDetection
  | parsing
  | libraryDetection
  | paradigmDetection
  | codeTypeClassification
  | complexityAnalysis
  | assembly
  | validation
  deriving DecidableEq, Repr, Inhabited

namespace Phase

/-- All phases in their order. -/
def all : List Phase :=
  [languageDetection, parsing, libraryDetection, paradigmDetection, codeTypeClassification,
   complexityAnalysis, assembly, validation]

def name : Phase → String
  | languageDetection => "language_detection"
  | parsing => "parsing"
  | libraryDetection => "library_detection"
  | paradigmDetection => "paradigm_detection"
  | codeTypeClassification => "code_type_classification"
  | complexityAnalysis => "complexity_analysis"
  | assembly => "assembly"
  | validation => "validation"

end Phase

/-- What a run is doing. -/
structure RunContext where
  phase : Option Phase
  /-- The label of the input. -/
  input : Option String
  deriving DecidableEq, Repr, Inhabited

namespace RunContext

/-- Nothing runs. -/
def idle : RunContext := ⟨none, none⟩

def inPhase (c : RunContext) (p : Phase) : RunContext := { c with phase := some p }

def onInput (c : RunContext) (label : String) : RunContext := { c with input := some label }

/-- The phase in words. -/
def phaseName (c : RunContext) : String := (c.phase.map (·.name)).getD "startup"

end RunContext

/-- A context with the guards that were not released yet, the oldest first. A guard is the context
that it brings back. -/
structure GuardedContext where
  current : RunContext
  guards : List RunContext
  deriving DecidableEq, Repr, Inhabited

namespace GuardedContext

def idle : GuardedContext := ⟨.idle, []⟩

/-- Changes the context and leaves a guard. -/
def enter (g : GuardedContext) (change : RunContext → RunContext) : GuardedContext :=
  ⟨change g.current, g.guards ++ [g.current]⟩

/-- Releases a guard, if it is there. -/
def release (g : GuardedContext) (index : Nat) : GuardedContext :=
  match g.guards[index]? with
  | some before => ⟨before, g.guards.eraseIdx index⟩
  | none => g

/-- Forgets what runs; the guards stay. -/
def reset (g : GuardedContext) : GuardedContext := { g with current := .idle }

end GuardedContext

/-- A computation in a context, which it may leave changed. -/
abbrev InContext (α : Type) := RunContext → α × RunContext

namespace InContext

variable {α β : Type}

/-- A result that needs no context. -/
def done (x : α) : InContext α := fun c => (x, c)

def map (f : α → β) (x : InContext α) : InContext β := fun c =>
  let (a, c) := x c
  (f a, c)

/-- Runs a computation in a changed context, with a guard around it. The guard brings back the
context from before, unless the result is a fault that unwinds past it. -/
def guarded (unwinds : α → Bool) (change : RunContext → RunContext) (x : InContext α) :
    InContext α := fun before =>
  let (result, after) := x (change before)
  (result, if unwinds result then after else before)

end InContext

/-- The outcome of a step, which may break down with a message. -/
abbrev Step (α : Type) := Except String α

namespace Step

variable {α : Type}

/-- A plain value stands for the step that has this outcome. -/
instance : Coe α (Step α) := ⟨.ok⟩

def isBroken : Step α → Bool
  | .ok _ => false
  | .error _ => true

end Step

/-- A computation that may break down. -/
abbrev Traced (α : Type) := InContext (Step α)

namespace Traced

variable {α β ε : Type}

/-- A step in a phase. -/
def inPhase (p : Phase) (s : Step α) : Traced α :=
  InContext.guarded Step.isBroken (·.inPhase p) (InContext.done s)

/-- One computation after another. -/
def next (x : Traced α) (f : α → Traced β) : Traced β := fun c =>
  match x c with
  | (.ok a, c) => f a c
  | (.error m, c) => (.error m, c)

/-- Catches a fault. The handler sees the context that the fault has left. -/
def caught (handler : String → RunContext → ε) (x : Traced α) : InContext (Except ε α) := fun c =>
  match x c with
  | (.ok a, c) => (.ok a, c)
  | (.error m, c) => (.error (handler m c), c)

end Traced

end CodeProfile
