import JmeterRs.Controllers.Compile
import JmeterRs.Controllers.Random
import Mathlib.Data.List.Perm.Basic
import Mathlib.Logic.Function.Basic

/-!
# The frame-stack runner

`ControllerRunner` is the mutable state of one virtual user: a stack of frames over the compiled
program, and the memory that outlives a traversal (Once Only marks, Interleave cursors, random
streams).  A call carries the runner together with the two budgets it spends; every definition
below changes them exactly where the source does, so that a call that fails leaves behind what it
had written so far.
-/

namespace JmeterRs.Controllers

/-- How a frame goes through the children of its controller. -/
inductive FrameMode
  | ordered
  | skip
  | oneShot (child : Option NodeIndex)
  | randomOrder (order : Option (List NodeIndex))
  deriving DecidableEq, Repr

/-- An active controller. -/
structure Frame where
  node : NodeIndex
  nextChild : ℕ
  iteration : ℕ
  mode : FrameMode
  deriving DecidableEq, Repr

/-- What a runner remembers between visits of a controller. -/
structure Memory where
  onceDone : Finset ElementId
  interleaveNext : ElementId → Option ℕ
  randomStates : ElementId → Option UInt64

def Memory.empty : Memory := ⟨∅, fun _ => none, fun _ => none⟩

/-- The traversal state of one virtual user.  The head of `stack` is the innermost frame. -/
structure ControllerRunner extends Memory where
  program : ControllerProgram
  stack : List Frame
  rootStarted : Bool
  finished : Bool
  terminal : Option ControlSignal
  completedIterations : ℕ

namespace ControllerRunner

def new (program : ControllerProgram) : ControllerRunner :=
  { Memory.empty with
    program, stack := [], rootStarted := false, finished := false, terminal := none,
    completedIterations := 0 }

variable (r : ControllerRunner) (node : NodeIndex)

/-- Resets traversal, terminal signal, memory and the iteration count. -/
def reset : ControllerRunner := new r.program

/-- Starts the next root traversal; the memory and the iteration count stay. -/
def nextRootIteration : Except ControllerError ControllerRunner :=
  if r.finished then
    .ok { r with stack := [], rootStarted := false, finished := false, terminal := none }
  else .error (.invalidState 0)

def nodeIdentity : Option ElementId :=
  match r.program.nodes[node]? with
  | some (.simple id _) | some (.loop id _ _) | some (.disabled id) | some (.onceOnly id _)
  | some (.interleave id _) | some (.random id _ _) | some (.randomOrder id _ _)
  | some (.sample id) => some id
  -- `u64::try_from` of a `usize` cannot fail
  | none => some node

def rootIdentity : Except ControllerError ElementId :=
  match r.nodeIdentity r.program.root with
  | some id => .ok id
  | none => .error (.counterOverflow "controller-identity")

def iterationOverflow (r : ControllerRunner) (node : NodeIndex) : ControllerError :=
  match r.nodeIdentity node with
  | some controller => .iterationOverflow controller
  | none => .counterOverflow "controller-identity"

/-- The cursor of an active frame, if its controller has one. -/
def frameCursor (nodes : List CompiledNode) (frame : Frame) : Option ControllerCursor :=
  match nodes[frame.node]? with
  | some (.simple id _) => some ⟨id, .simple, 0⟩
  | some (.loop id _ _) => some ⟨id, .loop, frame.iteration⟩
  | some (.onceOnly id _) => some ⟨id, .onceOnly, 0⟩
  | some (.interleave id _) => some ⟨id, .interleave, 0⟩
  | some (.random id _ _) => some ⟨id, .random, 0⟩
  | some (.randomOrder id _ _) => some ⟨id, .randomOrder, 0⟩
  | some (.disabled _) | some (.sample _) | none => none

/-- The selection of a sampler under the current stack, outermost controller first. -/
def selection (samplerId : ElementId) : SampleSelection :=
  ⟨samplerId, r.completedIterations, r.stack.reverse.filterMap (frameCursor r.program.nodes)⟩

def compiledChildren : Except ControllerError (List NodeIndex) :=
  match r.program.nodes[node]? with
  | some (.simple _ children) | some (.loop _ _ children) | some (.onceOnly _ children)
  | some (.interleave _ children) | some (.random _ _ children)
  | some (.randomOrder _ _ children) => .ok children
  | some (.sample _) | some (.disabled _) | none => .error (.invalidState node)

def compiledChildAt (position : ℕ) : Except ControllerError (Option NodeIndex) :=
  match r.compiledChildren node with
  | .ok children => .ok children[position]?
  | .error e => .error e

end ControllerRunner

/-- The kind of a compiled node, with the data `frame_action` reads from it. -/
inductive CompiledNodeKind
  | sample
  | disabled
  | simple
  | loop (count : LoopCount)
  | onceOnly
  | interleave (id : ElementId)
  | random (id : ElementId) (seed : UInt64)
  | randomOrder (id : ElementId) (seed : UInt64)
  deriving DecidableEq, Repr

def ControllerRunner.compiledNodeKind (r : ControllerRunner) (node : NodeIndex) :
    Except ControllerError CompiledNodeKind :=
  match r.program.nodes[node]? with
  | some (.sample _) => .ok .sample
  | some (.disabled _) => .ok .disabled
  | some (.simple _ _) => .ok .simple
  | some (.loop _ count _) => .ok (.loop count)
  | some (.onceOnly _ _) => .ok .onceOnly
  | some (.interleave id _) => .ok (.interleave id)
  | some (.random id seed _) => .ok (.random id seed)
  | some (.randomOrder id seed _) => .ok (.randomOrder id seed)
  | none => .error (.invalidState node)

/-- What the innermost frame does next. -/
inductive FrameAction
  | select (child : NodeIndex)
  | finish
  | advanceLoop
  deriving DecidableEq, Repr

/-! ## Calls -/

/-- The mutable arguments of one call. -/
structure Call where
  runner : ControllerRunner
  budget : StepBudget
  runBudget : RunBudget

/-- A method of the runner: on an error the call keeps the writes made before it. -/
abbrev CallM := EStateM ControllerError Call

/-- `?` on a result that changes nothing. -/
def lift {α : Type} (x : Except ControllerError α) : CallM α := fun c =>
  match x with
  | .ok a => .ok a c
  | .error e => .error e c

def spend : CallM Unit := fun c =>
  match c.budget.spend with
  | .ok budget => .ok () { c with budget }
  | .error e => .error e c

def reserveSample : CallM Unit := fun c =>
  match c.runBudget.reserveSample with
  | .ok runBudget => .ok () { c with runBudget }
  | .error e => .error e c

def modifyRunner (f : ControllerRunner → ControllerRunner) : CallM Unit := fun c =>
  .ok () { c with runner := f c.runner }

def getRunner : CallM ControllerRunner := fun c => .ok c.runner c

def ControllerRunner.setTop (r : ControllerRunner) (f : Frame → Frame) : ControllerRunner :=
  match r.stack with
  | [] => r
  | frame :: below => { r with stack := f frame :: below }

/-- Takes one unit of the sample budget when the child is a sampler. -/
def reserveChildSample (child : NodeIndex) : CallM Unit := do
  match (← getRunner).program.nodes[child]? with
  | some (.sample _) => reserveSample
  | _ => pure ()

def reserveFirstSample (order : List NodeIndex) : CallM Unit :=
  match order[0]? with
  | some child => reserveChildSample child
  | none => pure ()

/-- Moves the innermost frame to its next child. -/
def advanceChild : CallM Unit := do
  let r ← getRunner
  match r.stack with
  | [] => throw (.invalidState r.program.root)
  | frame :: _ =>
    match checkedAdd usizeMax frame.nextChild 1 with
    | none => throw (.counterOverflow "controller-child-index")
    | some next => modifyRunner (·.setTop ({ · with nextChild := next }))

/-- Enters a child: the mode of its frame depends on its kind, and an Once Only controller is
marked on its first entry. -/
def pushFrame (node : NodeIndex) (iteration : ℕ) : CallM Unit := do
  let r ← getRunner
  let push (mode : FrameMode) : CallM Unit :=
    modifyRunner fun r => { r with stack := ⟨node, 0, iteration, mode⟩ :: r.stack }
  match r.program.nodes[node]? with
  | some (.disabled _) => push .skip
  | some (.onceOnly id _) =>
    if id ∈ r.onceDone then push .skip
    else
      modifyRunner fun r => { r with onceDone := insert id r.onceDone }
      push .ordered
  | some (.interleave _ _) | some (.random _ _ _) => push (.oneShot none)
  | some (.randomOrder _ _ _) => push (.randomOrder none)
  | some (.sample _) | some (.simple _ _) | some (.loop _ _ _) => push .ordered
  | none => throw (.invalidState node)

def ControllerRunner.setRandomState (r : ControllerRunner) (id : ElementId) (s : Option UInt64) :
    ControllerRunner :=
  { r with randomStates := Function.update r.randomStates id s }

section

variable (frame : Frame) (id : ElementId) (seed : UInt64) (bound : ℕ) (children : List NodeIndex)

/-- One round of the draw loop: a rejected value costs one transition. -/
def randomRound : CallM (Option ℕ) := do
  let r ← getRunner
  let (value, state) := nextSeededValue ((r.randomStates id).getD seed)
  modifyRunner (·.setRandomState id (some state))
  match uniformIndex value bound with
  | some index => pure (some index)
  | none => do
    spend
    pure none

/-- An index below `bound` from the stream of controller `id`.  Each round but the last spends a
transition, so the rounds are bounded by the budget. -/
def randomIndex : CallM ℕ := fun c =>
  if bound ≤ 1 then .ok 0 c
  -- `u64::try_from(bound)` cannot fail
  else loopM (.stepBudgetExhausted c.budget.limit c.budget.limit) (randomRound id seed bound)
    (c.budget.remaining + 1) c

/-- `restore_random_state` on the error path of `x`. -/
def restoringRandomState {α : Type} (id : ElementId) (previous : Option UInt64) (x : CallM α) :
    CallM α := fun c =>
  match x c with
  | .ok a c' => .ok a c'
  | .error e c' => .error e { c' with runner := c'.runner.setRandomState id previous }

/-- The Fisher–Yates pass over positions `position, .., 1`. -/
def shuffle (id : ElementId) (seed : UInt64) (previous : Option UInt64) :
    ℕ → List NodeIndex → CallM (List NodeIndex)
  | 0, order => pure order
  | position + 1, order => do
    match checkedAdd usizeMax (position + 1) 1 with
    | none => throw (.counterOverflow "random-order-bound")
    | some bound =>
      let index ← restoringRandomState id previous (randomIndex id seed bound)
      shuffle id seed previous position (order.swap (position + 1) index)

/-- Selects the next child of an ordered frame. -/
def selectChild (child : NodeIndex) : CallM FrameAction := do
  reserveChildSample child
  advanceChild
  pure (.select child)

/-- An Interleave frame selects one child, the one under the controller's cursor. -/
def interleaveAction : CallM FrameAction := do
  if children.length = 0 then pure .finish
  else
    match frame.mode with
    | .oneShot (some _) => pure .finish
    | .oneShot none =>
      let r ← getRunner
      match ← lift (r.compiledChildAt frame.node
          ((r.interleaveNext id).getD 0 % children.length)) with
      | none => throw (.invalidState frame.node)
      | some child =>
        match checkedAdd usizeMax ((r.interleaveNext id).getD 0) 1 with
        | none => throw (.counterOverflow "interleave-cursor")
        | some nextCursor =>
          reserveChildSample child
          modifyRunner fun r =>
            { r with interleaveNext := Function.update r.interleaveNext id (some nextCursor) }
          modifyRunner (·.setTop ({ · with mode := .oneShot (some child) }))
          pure (.select child)
    | _ => throw (.invalidState frame.node)

/-- A Random frame selects one child, drawn from the controller's stream. -/
def randomAction : CallM FrameAction := do
  if children.length = 0 then pure .finish
  else
    match frame.mode with
    | .oneShot (some _) => pure .finish
    | .oneShot none =>
      let previous := (← getRunner).randomStates id
      let index ← restoringRandomState id previous (randomIndex id seed children.length)
      match ← lift ((← getRunner).compiledChildAt frame.node index) with
      | none => throw (.invalidState frame.node)
      | some child =>
        restoringRandomState id previous (reserveChildSample child)
        modifyRunner (·.setTop ({ · with mode := .oneShot (some child) }))
        pure (.select child)
    | _ => throw (.invalidState frame.node)

/-- A Random Order frame draws a permutation of its children and goes through it. -/
def randomOrderAction : CallM FrameAction := do
  if children.length = 0 then pure .finish
  else
    match frame.mode with
    | .randomOrder (some order) =>
      match order[frame.nextChild]? with
      | some child => selectChild child
      | none => pure .finish
    | .randomOrder none =>
      let previous := (← getRunner).randomStates id
      let order ← shuffle id seed previous (children.length - 1) children
      restoringRandomState id previous (reserveFirstSample order)
      modifyRunner (·.setTop ({ · with mode := .randomOrder (some order) }))
      match order[frame.nextChild]? with
      | some child =>
        advanceChild
        pure (.select child)
      | none => pure .finish
    | _ => throw (.invalidState frame.node)

def frameAction : CallM FrameAction := do
  let r ← getRunner
  let node := frame.node
  match ← lift (r.compiledNodeKind node) with
  | .sample => throw (.invalidState node)
  | .disabled => pure .finish
  | .simple =>
    match ← lift (r.compiledChildAt node frame.nextChild) with
    | some child => selectChild child
    | none => pure .finish
  | .loop (.finite count) =>
    if count = 0 then pure .finish
    else
      match ← lift (r.compiledChildAt node frame.nextChild) with
      | some child => selectChild child
      | none =>
        match checkedAdd u64Max frame.iteration 1 with
        | none => throw (r.iterationOverflow node)
        | some next => if count.toNat ≤ next then pure .finish else pure .advanceLoop
  | .loop .forever =>
    match ← lift (r.compiledChildAt node frame.nextChild) with
    | some child => selectChild child
    | none => pure .advanceLoop
  | .onceOnly =>
    if frame.mode = .skip then pure .finish
    else
      match ← lift (r.compiledChildAt node frame.nextChild) with
      | some child => selectChild child
      | none => pure .finish
  | .interleave id => interleaveAction frame id (← lift (r.compiledChildren node))
  | .random id seed => randomAction frame id seed (← lift (r.compiledChildren node))
  | .randomOrder id seed => randomOrderAction frame id seed (← lift (r.compiledChildren node))

end

/-- One round of the selection loop: `none` goes round again. -/
def selectRound : CallM (Option ControllerStep) := do
  let r ← getRunner
  match r.terminal with
  | some signal => pure (some (.stopped signal))
  | none =>
    spend
    if !r.rootStarted then
      match r.program.nodes[r.program.root]? with
      | some (.sample id) =>
        reserveSample
        modifyRunner ({ · with rootStarted := true })
        pure (some (.sample ((← getRunner).selection id)))
      | some _ =>
        modifyRunner ({ · with rootStarted := true })
        pushFrame r.program.root 0
        pure none
      | none => throw (.invalidState r.program.root)
    else
      match r.stack with
      | [] =>
        let controller ← lift r.rootIdentity
        match checkedAdd u64Max r.completedIterations 1 with
        | none => throw (.iterationOverflow controller)
        | some completed =>
          modifyRunner ({ · with finished := true, completedIterations := completed })
          pure (some .complete)
      | frame :: _ =>
        match ← frameAction frame with
        | .select child =>
          match (← getRunner).program.nodes[child]? with
          | some (.sample id) => pure (some (.sample ((← getRunner).selection id)))
          | some _ =>
            pushFrame child 0
            pure none
          | none => throw (.invalidState child)
        | .finish =>
          modifyRunner fun r => { r with stack := r.stack.tail }
          pure none
        | .advanceLoop =>
          match checkedAdd u64Max frame.iteration 1 with
          | none => throw ((← getRunner).iterationOverflow frame.node)
          | some iteration =>
            modifyRunner (·.setTop ({ · with nextChild := 0, iteration, mode := .ordered }))
            pure none

/-- Selects the next sampler.  Each round but the last spends a transition, so the rounds are
bounded by the budget. -/
def selectNextWithSampleBudget : CallM ControllerStep := fun c =>
  if c.runner.finished then .ok .complete c
  else loopM (.stepBudgetExhausted c.budget.limit c.budget.limit) selectRound
    (c.budget.remaining + 1) c

/-- Whether a frame belongs to a Loop controller. -/
def ControllerRunner.isLoopFrame (r : ControllerRunner) (frame : Frame) : Bool :=
  match r.program.nodes[frame.node]? with
  | some (.loop _ _ _) => true
  | _ => false

/-- The stack from the innermost Loop frame outwards. -/
def ControllerRunner.innermostLoop (r : ControllerRunner) : List Frame :=
  r.stack.dropWhile fun frame => !r.isLoopFrame frame

/-- The next-loop action: nested frames are discarded and the innermost active Loop moves to its
next iteration, or past its last child when there is none.  Without an active Loop the root
traversal is complete. -/
def applyNextLoop (r : ControllerRunner) : Except ControllerError ControllerRunner :=
  if r.finished then .ok r
  else
    match r.innermostLoop with
    | [] => do
      let controller ← r.rootIdentity
      match checkedAdd u64Max r.completedIterations 1 with
      | none => throw (.iterationOverflow controller)
      | some completed =>
        pure { r with
          stack := [], rootStarted := true, completedIterations := completed, finished := true }
    | frame :: below =>
      match r.program.nodes[frame.node]? with
      | some (.loop id count children) =>
        match checkedAdd u64Max frame.iteration 1 with
        | none => throw (.iterationOverflow id)
        | some next =>
          let last := match count with
            | .finite total => decide (total.toNat ≤ next)
            | .forever => false
          let frame := if last then { frame with nextChild := children.length, mode := .ordered }
            else { frame with iteration := next, nextChild := 0, mode := .ordered }
          pure { r with stack := frame :: below }
      | _ => throw (.invalidState frame.node)

/-- One call with a control signal, under a step budget and the run's sample budget. -/
def stepWithRunBudget (signal : ControlSignal) : CallM ControllerStep := do
  let r ← getRunner
  match r.terminal with
  | some existing =>
    if signal.isStop then
      modifyRunner ({ · with terminal := some (existing.combine signal) })
      pure (.stopped (existing.combine signal))
    else pure (.stopped existing)
  | none =>
    if signal.isStop then
      spend
      modifyRunner ({ · with terminal := some signal })
      pure (.stopped signal)
    else if signal = .nextLoop then
      if !r.finished then
        spend
        let r' ← lift (applyNextLoop r)
        modifyRunner fun _ => r'
      if (← getRunner).finished then pure .complete else selectNextWithSampleBudget
    else selectNextWithSampleBudget

/-- `step_with_signal`: the same body, with an unbounded sample budget. -/
def stepWithSignal (signal : ControlSignal) (r : ControllerRunner) (budget : StepBudget) :
    EStateM.Result ControllerError Call ControllerStep :=
  stepWithRunBudget signal ⟨r, budget, RunBudget.new usizeMax usizeMax⟩

/-- One step under an external cancellation state: a pending next-loop action is acknowledged
only when the call succeeds. -/
def stepWithCancellation (cancellation : Cancellation) (r : ControllerRunner)
    (budget : StepBudget) :
    EStateM.Result ControllerError Call ControllerStep × Cancellation :=
  let signal := cancellation.signal
  match stepWithSignal signal r budget with
  | .ok step c =>
    (.ok step c, if signal = .nextLoop then cancellation.takeSignal.2 else cancellation)
  | .error e c => (.error e c, cancellation)

/-! ## Whole runs -/

structure ExecutionTrace where
  samples : List SampleSelection
  terminal : ControllerStep
  deriving DecidableEq, Repr

/-- The variables of the run loop. -/
structure Run where
  runner : ControllerRunner
  budget : RunBudget
  samples : List SampleSelection
  signal : ControlSignal

/-- One round of `run_to_completion`. -/
def runRound : EStateM ControllerError Run (Option ExecutionTrace) := fun run =>
  match run.budget.nextStepBudget with
  | .error e => .error e run
  | .ok stepBudget =>
    match stepWithRunBudget run.signal ⟨run.runner, stepBudget, run.budget⟩ with
    | .error e c =>
      .error e { run with runner := c.runner, budget := c.runBudget.recordStep c.budget }
    | .ok outcome c =>
      let run := { run with
        runner := c.runner, budget := c.runBudget.recordStep c.budget, signal := .continue }
      match outcome with
      | .sample selection => .ok none { run with samples := run.samples ++ [selection] }
      | .complete | .stopped _ => .ok (some ⟨run.samples, outcome⟩) run

/-- Runs until completion or a stop.  A round that goes on spends a transition, so the rounds are
bounded by the transitions left. -/
def runToCompletionWithSignal (r : ControllerRunner) (budget : RunBudget)
    (signal : ControlSignal) : EStateM.Result ControllerError Run ExecutionTrace :=
  loopM (.runBudgetExhausted budget.maxTransitions budget.maxTransitions) runRound
    (budget.maxTransitions - budget.transitions + 1) ⟨r, budget, [], signal⟩

def runToCompletion (r : ControllerRunner) (budget : RunBudget) :
    EStateM.Result ControllerError Run ExecutionTrace :=
  runToCompletionWithSignal r budget .continue

end JmeterRs.Controllers
