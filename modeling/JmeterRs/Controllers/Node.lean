import JmeterRs.Controllers.Signal
import JmeterRs.Lib.Mut

/-!
# Controller trees, budgets and selections

The source tree of the ordered controllers, the resource limits of its compilation, the errors
the runtime reports, and the two budgets a traversal spends: transitions per call and samples per
run.
-/

namespace JmeterRs.Controllers

/-- A sampler or controller identity (`u64` in the source). -/
abbrev ElementId := ℕ

/-- A position in the compiled node list. -/
abbrev NodeIndex := ℕ

def maxAllowedNodes : ℕ := 1048576
def maxAllowedDepth : ℕ := 4096
def maxControllerKindBytes : ℕ := 4096

/-- How often a Loop controller visits its children. -/
inductive LoopCount
  | finite (count : UInt64)
  | forever
  deriving DecidableEq, Repr

/-- The controller tree handed to compilation. -/
inductive ControllerNode
  | sample (id : ElementId)
  | simple (id : ElementId) (children : List ControllerNode)
  | loop (id : ElementId) (count : LoopCount) (children : List ControllerNode)
  | disabled (id : ElementId) (children : List ControllerNode)
  | onceOnly (id : ElementId) (children : List ControllerNode)
  | interleave (id : ElementId) (children : List ControllerNode)
  | random (id : ElementId) (seed : UInt64) (children : List ControllerNode)
  | randomOrder (id : ElementId) (seed : UInt64) (children : List ControllerNode)
  | unsupported (id : ElementId) (kind : String)

inductive ControllerKind
  | simple
  | loop
  | onceOnly
  | interleave
  | random
  | randomOrder
  deriving DecidableEq, Repr

/-- Typed failures of compilation and of bounded traversal. -/
inductive ControllerError
  | invalidLimits (maxNodes maxDepth : ℕ)
  | planTooLarge (nodes maxNodes : ℕ)
  | planTooDeep (depth maxDepth : ℕ)
  | unsupportedController (id : ElementId) (kind : String)
  | stepBudgetExhausted (used limit : ℕ)
  | runBudgetExhausted (used limit : ℕ)
  | sampleBudgetExhausted (emitted limit : ℕ)
  | iterationOverflow (controller : ElementId)
  | counterOverflow (counter : String)
  | invalidState (node : NodeIndex)
  | duplicateElementId (id : ElementId)
  deriving DecidableEq, Repr

/-- Limits applied while compiling.  The bounds are those `ControllerLimits::new` enforces. -/
structure ControllerLimits where
  maxNodes : ℕ
  maxDepth : ℕ
  maxNodes_le : maxNodes ≤ maxAllowedNodes
  maxDepth_le : maxDepth ≤ maxAllowedDepth

/-- Creates limits; both values are capped. -/
def ControllerLimits.new (maxNodes maxDepth : ℕ) : Except ControllerError ControllerLimits :=
  if h : maxNodes ≤ maxAllowedNodes ∧ maxDepth ≤ maxAllowedDepth then
    .ok ⟨maxNodes, maxDepth, h.1, h.2⟩
  else .error (.invalidLimits maxNodes maxDepth)

def ControllerLimits.default : ControllerLimits := ⟨16384, 128, by decide, by decide⟩

/-! ## Budgets -/

/-- The transition budget of one call. -/
structure StepBudget where
  limit : ℕ
  used : ℕ
  deriving DecidableEq, Repr

namespace StepBudget

def new (limit : ℕ) : StepBudget := ⟨limit, 0⟩

def remaining (b : StepBudget) : ℕ := b.limit - b.used

/-- Spends one transition.  The source's `checked_add` cannot fail here: `used < limit` and
`limit` is a `usize`. -/
def spend (b : StepBudget) : Except ControllerError StepBudget :=
  if b.limit ≤ b.used then .error (.stepBudgetExhausted b.used b.limit)
  else .ok { b with used := b.used + 1 }

end StepBudget

structure RunBudget where
  maxSamples : ℕ
  maxTransitions : ℕ
  emitted : ℕ
  transitions : ℕ
  deriving DecidableEq, Repr

namespace RunBudget

def new (maxSamples maxTransitions : ℕ) : RunBudget := ⟨maxSamples, maxTransitions, 0, 0⟩

/-- The step budget left to the next call. -/
def nextStepBudget (b : RunBudget) : Except ControllerError StepBudget :=
  if b.maxTransitions ≤ b.transitions then
    .error (.runBudgetExhausted b.transitions b.maxTransitions)
  else .ok (StepBudget.new (b.maxTransitions - b.transitions))

/-- Adds the transitions of one call.  The sum stays within `max_transitions`, a `usize`, so the
source's `checked_add` cannot fail. -/
def recordStep (b : RunBudget) (step : StepBudget) : RunBudget :=
  { b with transitions := b.transitions + step.used }

/-- Takes one sample from the budget; as in `spend` the `checked_add` cannot fail. -/
def reserveSample (b : RunBudget) : Except ControllerError RunBudget :=
  if b.maxSamples ≤ b.emitted then .error (.sampleBudgetExhausted b.emitted b.maxSamples)
  else .ok { b with emitted := b.emitted + 1 }

end RunBudget

/-! ## Selections -/

/-- A controller on the path of a selection. -/
structure ControllerCursor where
  id : ElementId
  kind : ControllerKind
  iteration : ℕ
  deriving DecidableEq, Repr

/-- One sampler selected by the traversal. -/
structure SampleSelection where
  samplerId : ElementId
  executionIteration : ℕ
  path : List ControllerCursor
  deriving DecidableEq, Repr

/-- The outcome of one bounded call. -/
inductive ControllerStep
  | sample (selection : SampleSelection)
  | complete
  | stopped (signal : ControlSignal)
  deriving DecidableEq, Repr

end JmeterRs.Controllers
