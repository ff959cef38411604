import JmeterRs.Execution.Sample
import JmeterRs.Lib.Triple

/-!
# The execution pipeline of a sampler

A pipeline future runs the components of a sampler package in phases: configurations,
preprocessors, timers, the sampler, postprocessors, assertions, listeners, and the lifecycle hooks
of the package.  A component may suspend the future; the owner then polls it again or drops it.

What is not decided by the pipeline is read from a script: what the running component does and
returns, when it suspends, what the owner does then, what other users write, the control requests
that arrive and the readings of the clock.  A statement about every script is one about all
components, owners and surroundings.
-/

namespace JmeterRs.Execution

open Std
open Controllers (ControlSignal)

inductive ComponentError
  | failure (message : String)
  | unsupported (message : String)
  | control (signal : ControlSignal)
  | resourceLimit (message : String)
  | poisoned (message : String)
  | combined (primary secondary : ComponentError)

inductive CapabilityError
  | failure (message : String)
  | unsupported (message : String)
  | control (signal : ControlSignal)
  | resourceLimit (message : String)

inductive PipelineError
  | configuration (nodeId : ℕ) (source : ComponentError)
  | preprocessor (nodeId : ℕ) (source : ComponentError)
  | timer (nodeId : ℕ) (source : ComponentError)
  | timerOverflow (samplerId : ℕ)
  | sleeper (samplerId : ℕ) (source : CapabilityError)
  | sampler (nodeId : ℕ) (source : ComponentError)
  | postprocessor (nodeId : ℕ) (source : ComponentError)
  | assertion (nodeId : ℕ) (source : ComponentError)
  | listener (nodeId : ℕ) (source : ComponentError)
  | result (samplerId : ℕ) (source : ResultError)
  | finish (samplerId : ℕ) (source : ComponentError)
  | cleanup (samplerId : ℕ) (source : ComponentError)
  | deadlineExceeded (samplerId : ℕ)
  | combined (primary cleanup : PipelineError)

inductive Phase
  | configuration
  | preprocessor
  | timer
  | sampler
  | postprocessor
  | assertion
  | listener
  | finish
  | cleanup
  deriving DecidableEq

/-- A component of a package, by its position in its list. -/
inductive Component
  | configuration (index : ℕ)
  | preprocessor (index : ℕ)
  | timer (index : ℕ)
  | sampler
  | postprocessor (index : ℕ)
  | assertion (index : ℕ)
  | listener (index : ℕ)
  deriving DecidableEq

/-- A package: how many components it has of each kind; for a timer, whether its delay is scaled;
and what its `cancel` hook reports. -/
structure SamplePackage where
  samplerId : ℕ
  configurations : ℕ
  preprocessors : ℕ
  timers : List Bool
  postprocessors : ℕ
  assertions : ℕ
  listeners : ℕ
  cancelError : Option ComponentError

structure SampleFailure (P : Payload) where
  samplerId : ℕ
  message : String
  result : Option P.Result

structure SamplerOutput (P : Payload) where
  result : Option P.Result
  failure : Option (SampleFailure P)
  signal : ControlSignal

structure ExecutionReport (P : Payload) where
  samplerId : ℕ
  result : Option P.Result
  event : Option P.Event
  sampleFailure : Option (SampleFailure P)
  signal : ControlSignal
  timerDelay : ℕ

def ExecutionReport.controlled {P : Payload} (samplerId : ℕ) (signal : ControlSignal) :
    ExecutionReport P :=
  ⟨samplerId, none, none, none, signal, 0⟩

/-- What a component returns; a phase reads the part that its components return. -/
structure Returned (P : Payload) where
  delay : ℕ
  output : SamplerOutput P
  assertion : AssertionResult

/-- What happens around the pipeline. -/
inductive Surrounding
  | request (signal : ControlSignal)
  | requestToken (signal : ControlSignal)
  | clock (now : ClockReading)
  /-- Another user leaves this under a property, and the epoch where it is now. -/
  | write (key : String) (base : PropertyBase) (epoch : ℕ)

/-- One step of a script.  With `poll` and `drop` the running component has suspended the future,
and the owner polls or drops it; `proceed` lets the pipeline go on to its next step. -/
inductive Act (P : Payload)
  | surrounding (change : Surrounding)
  | proceed
  | own (op : ComponentOp P)
  | returns (result : Except ComponentError (Returned P))
  | slept (result : Except CapabilityError Unit)
  | poll
  | drop

inductive PipelineEvent (P : Payload)
  | read (signal : ControlSignal)
  | enter (component : Component)
  /-- A component is left; `control` if it returned a control signal as its error. -/
  | left (component : Component) (control : Bool)
  | delayed (delay : ℕ)
  | sleep (delay : ℕ)
  | sampled (result : Option P.Result)
  /-- A component has set the result. -/
  | result (result : Option P.Result)
  | recorded (assertion : AssertionResult)
  | snapshot (event : P.Event)
  | notify (index : ℕ) (event : P.Event)
  /-- The phases have returned. -/
  | phases (ok : Bool)
  | finish
  | cleanup
  | cancel

/-- What a component sees of the state, and may change. -/
structure View (P : Payload) where
  owned : Owned P
  base : String → PropertyBase

/-- How the run of a component ended: with `Ok`, with an error or a control signal, or not by
itself. -/
inductive HowEnded
  | ok
  | returned
  | cut
  deriving DecidableEq

/-- A run of a component with a checkpoint: the state when it was entered and when it ended. -/
structure Called (P : Payload) where
  component : Component
  how : HowEnded
  before : View P
  atEnd : View P

/-- What came of it: the state when the pipeline went on, and the properties that others had
written since the component was entered. -/
structure Ended (P : Payload) extends Called P where
  after : View P
  touched : List String

structure Invocation (P : Payload) where
  sample : SampleContext P
  shared : SharedProperties
  settings : Settings
  trace : List (Phase × String)
  now : ClockReading
  /-- The deadline the future was created with. -/
  pollDeadline : Option ℕ
  armed : Bool
  cancellationError : Option ComponentError
  script : List (Act P)
  log : List (PipelineEvent P)
  touched : List String
  /-- The last run of a component, until the pipeline goes on. -/
  current : Option (Called P)
  ended : List (Ended P)

/-- How a future is left before its result is there. -/
inductive Cut
  | deadline
  | dropped
  | unfinished
  deriving DecidableEq

/-- How the phases are left early. -/
inductive Exit
  | controlled (signal : ControlSignal)
  | failed (error : PipelineError)
  | cut (cut : Cut)

/-- A part of the future. -/
abbrev Future (P : Payload) := EStateM Cut (Invocation P)

/-- A part of the phases. -/
abbrev Pipe (P : Payload) := EStateM Exit (Invocation P)

section

variable {P : Payload}

namespace Invocation

variable (s : Invocation P)

def view : View P := ⟨s.sample.owned, s.shared.base⟩

/-- The pipeline goes on: what the last component has left behind is on record. -/
def close : Invocation P :=
  { s with
    current := none
    ended := s.ended ++ s.current.toList.map (⟨·, s.view, s.touched⟩) }

def emit (event : PipelineEvent P) : Invocation P :=
  { s.close with log := s.log ++ [event] }

def surround : Surrounding → Invocation P
  | .request signal =>
    { s with
      sample.execution.cancellation := s.sample.execution.cancellation.request signal }
  | .requestToken signal =>
    { s with
      sample.execution.cancellationToken := s.sample.execution.cancellationToken.request signal }
  | .clock now => { s with now }
  | .write key base epoch =>
    { s with
      shared := { s.shared.put key base with propertyEpoch := epoch }
      touched := key :: s.touched }

/-- The surroundings before the next step of the pipeline. -/
def settleActs : List (Act P) → Invocation P → Invocation P
  | .surrounding change :: rest, s => settleActs rest (s.surround change)
  | .proceed :: rest, s => { s with script := rest }
  | rest, s => { s with script := rest }

def settle : Invocation P := settleActs s.script s

/-- An operation of a component on its context. -/
def perform (s : Invocation P) (op : ComponentOp P) : Invocation P :=
  let (sample, shared) := s.sample.perform s.shared op
  let s := { s with sample, shared }
  match op with
  | .setResult _ | .commit _ => s.emit (.result s.sample.result)
  | .configure settings => { s with settings }
  | .context _ | .setMutationLimits _ | .requestControl _ | .setRequestValue ..
  | .setRequestState _ => s

/-- An operation of a lifecycle hook, which has the execution context only. -/
def performHook (op : ComponentOp P) : Invocation P :=
  match op with
  | .context _ | .configure _ | .setMutationLimits _ | .requestControl _ => s.perform op
  | .setRequestValue .. | .setRequestState _ | .setResult _ | .commit _ => s

/-- The deadline check of `PipelineFuture::poll`. -/
def pollExpired : Bool := s.pollDeadline.any (· ≤ s.now.monotonic)

end Invocation

/-! ## Suspension -/

/-- Runs what has been started until it returns.  `apply` says what its operations do. -/
def runActs (apply : Invocation P → ComponentOp P → Invocation P) :
    List (Act P) → Invocation P →
      EStateM.Result Cut (Invocation P) (Except ComponentError (Returned P))
  | [], s => .error .unfinished { s with script := [] }
  | .surrounding change :: rest, s => runActs apply rest (s.surround change)
  | .own op :: rest, s => runActs apply rest (apply s op)
  | .returns result :: rest, s => .ok result { s with script := rest }
  | .poll :: rest, s =>
    if s.pollExpired then .error .deadline { s with script := rest } else runActs apply rest s
  | .drop :: rest, s => .error .dropped { s with script := rest }
  | .proceed :: rest, s => runActs apply rest s
  | .slept _ :: rest, s => runActs apply rest s

def firstPoll : List (Act P) → Invocation P → EStateM.Result Cut (Invocation P) Unit
  | [], s => .error .unfinished { s with script := [] }
  | .surrounding change :: rest, s => firstPoll rest (s.surround change)
  | .poll :: rest, s =>
    if s.pollExpired then .error .deadline { s with script := rest }
    else .ok () { s with script := rest }
  | .drop :: rest, s => .error .dropped { s with script := rest }
  | .proceed :: rest, s => firstPoll rest s
  | .own _ :: rest, s => firstPoll rest s
  | .returns _ :: rest, s => firstPoll rest s
  | .slept _ :: rest, s => firstPoll rest s

def Invocation.tokenSignal (s : Invocation P) : ControlSignal :=
  s.sample.execution.cancellationToken.signal

/-- `sleep_interruptibly`.  Every poll looks at the cancellation token before (`checked` says that
it has) and after it polls the sleeper. -/
def sleepActs : Bool → List (Act P) → Invocation P →
    EStateM.Result Cut (Invocation P) (Except CapabilityError Unit)
  | _, [], s => .error .unfinished { s with script := [] }
  | checked, .surrounding change :: rest, s => sleepActs checked rest (s.surround change)
  | checked, .own _ :: rest, s => sleepActs checked rest s
  | checked, .returns _ :: rest, s => sleepActs checked rest s
  | checked, .proceed :: rest, s =>
    if checked = false ∧ s.tokenSignal ≠ .continue then
      .ok (.error (.control s.tokenSignal)) { s with script := rest }
    else sleepActs true rest s
  | checked, .slept result :: rest, s =>
    if checked = false ∧ s.tokenSignal ≠ .continue then
      .ok (.error (.control s.tokenSignal)) { s with script := rest }
    else
      match result with
      | .ok () =>
        if s.tokenSignal ≠ .continue then
          .ok (.error (.control s.tokenSignal)) { s with script := rest }
        else .ok (.ok ()) { s with script := rest }
      | .error error => .ok (.error error) { s with script := rest }
  | _, .poll :: rest, s =>
    if s.tokenSignal ≠ .continue then
      .ok (.error (.control s.tokenSignal)) { s with script := .poll :: rest }
    else if s.pollExpired then .error .deadline { s with script := rest }
    else sleepActs false rest s
  | _, .drop :: rest, s =>
    if s.tokenSignal ≠ .continue then
      .ok (.error (.control s.tokenSignal)) { s with script := .drop :: rest }
    else .error .dropped { s with script := rest }

/-! ## Steps of the phases -/

/-- Whether a component returned a control signal as its error. -/
def isControl : Except ComponentError (Returned P) → Bool
  | .error (.control _) => true
  | _ => false

/-- Enters a component and waits for it. -/
def call (apply : Invocation P → ComponentOp P → Invocation P) (entered : PipelineEvent P)
    (component : Component) : Future P (Except ComponentError (Returned P)) := fun s =>
  match runActs apply s.script (s.emit entered) with
  | .ok result s => .ok result (s.emit (.left component (isControl result)))
  | .error cut s => .error cut s

/-- A part of the future as a part of the phases. -/
def liftCut {α : Type} (m : Future P α) : Pipe P α := fun s =>
  match m s with
  | .ok a s => .ok a s
  | .error cut s => .error (.cut cut) s

section

variable (package : SamplePackage) (component : Component) (samplerId totalDelay : ℕ)
  (phase : Phase) (detail : String) (wrap : ComponentError → PipelineError)

def howReturned : Except ComponentError (Returned P) → HowEnded
  | .ok _ => .ok
  | .error _ => .returned

/-- Enters a component after a checkpoint. -/
def callGuarded : Pipe P (Except ComponentError (Returned P)) := fun s =>
  match call Invocation.perform (.enter component) component { s.close with touched := [] } with
  | .ok result s' =>
    .ok result { s' with current := some ⟨component, howReturned result, s.view, s'.view⟩ }
  | .error cut s' =>
    .error (.cut cut) { s' with current := some ⟨component, .cut, s.view, s'.view⟩ }

def controlSignal : Pipe P ControlSignal := fun s =>
  let s := s.settle
  let signal := s.sample.execution.controlSignal
  .ok signal (s.emit (.read signal))

def requestControl (signal : ControlSignal) : Pipe P Unit :=
  modify fun s => { s with sample.execution := s.sample.execution.requestControl signal }

/-- `return Ok(ExecutionReport::controlled(..))` with the current signal. -/
def returnControlled {α : Type} : Pipe P α := do
  let signal ← controlSignal
  throw (.controlled signal)

/-- Returns early once a stop is visible. -/
def checkStop : Pipe P Unit := do
  let signal ← controlSignal
  if signal.isStop then returnControlled else pure ()

def readClock : Pipe P ClockReading := fun s => .ok s.settle.now s.settle

def checkPhaseDeadline : Pipe P Unit := do
  let now ← readClock
  let s ← get
  if s.settings.deadline.any (· ≤ now.monotonic) then throw (.failed (.deadlineExceeded samplerId))
  else pure ()

/-- `PhaseTrace::push`. -/
def pushTrace (s : Invocation P) : Except ComponentError (Invocation P) :=
  if s.settings.maxTraceEvents ≤ s.trace.length then
    .error (.resourceLimit "execution trace capacity")
  else if s.settings.maxTraceDetailBytes < detail.utf8ByteSize then
    .error (.resourceLimit "execution trace detail capacity")
  else .ok { s with trace := s.trace ++ [(phase, detail)] }

def record : Pipe P Unit := fun s =>
  match pushTrace phase detail s with
  | .ok s => .ok () s
  | .error error => .error (.failed (wrap error)) s

def takeCheckpoint : Pipe P (InvocationCheckpoint P) := fun s =>
  let s := s.settle
  let (checkpoint, sample) := s.sample.checkpoint s.shared
  .ok checkpoint { s with sample }

def rollback (checkpoint : InvocationCheckpoint P) : Pipe P Unit := fun s =>
  let s := s.settle
  let (sample, shared) := s.sample.rollback s.shared checkpoint
  .ok () { s with sample, shared }

/-- What precedes a component in every phase. -/
def beginPhase : Pipe P Unit := do
  checkPhaseDeadline samplerId
  record phase detail wrap

/-! ## The phases -/

/-- The loop over the configurations or the preprocessors, with `n` of them left. -/
def prepareLoop (samplerId : ℕ) (phase : Phase) (label : String) (component : ℕ → Component)
    (wrap : ComponentError → PipelineError) : ℕ → ℕ → Pipe P Unit
  | 0, _ => pure ()
  | n + 1, index => do
    beginPhase samplerId phase (label ++ "[" ++ toString index ++ "]") wrap
    let checkpoint ← takeCheckpoint
    let result ← callGuarded (component index)
    match result with
    | .ok _ => do
      checkStop
      prepareLoop samplerId phase label component wrap n (index + 1)
    | .error (.control signal) => do
      rollback checkpoint
      requestControl signal
      returnControlled
    | .error source => do
      rollback checkpoint
      throw (.failed (wrap source))

def configurationLoop (count : ℕ) : Pipe P Unit :=
  prepareLoop samplerId .configuration "configuration" .configuration (.configuration samplerId)
    count 0

def preprocessorLoop (count : ℕ) : Pipe P Unit :=
  prepareLoop samplerId .preprocessor "preprocessor" .preprocessor (.preprocessor samplerId) count 0

/-- `Duration::MAX` in nanoseconds. -/
def durationMax : ℕ := u64Max * 1000000000 + 999999999

/-- The sum of the delays after one more timer. -/
def addDelay (settings : Settings) (modifiable : Bool) (total delay : ℕ) : Option ℕ := do
  let delay ← if modifiable then settings.scaleTimerDelay delay else some delay
  checkedAdd durationMax total delay

/-- The loop over the timers that are left; gives the summed delay. -/
def timerLoop (samplerId : ℕ) : List Bool → ℕ → ℕ → Pipe P ℕ
  | [], _, total => pure total
  | modifiable :: rest, index, total => do
    beginPhase samplerId .timer ("timer[" ++ toString index ++ "]") (.timer samplerId)
    let checkpoint ← takeCheckpoint
    let result ← callGuarded (.timer index)
    match result with
    | .ok returned => do
      let s ← get
      match addDelay s.settings modifiable total returned.delay with
      | some sum => do
        modify fun s => s.emit (.delayed (sum - total))
        checkStop
        timerLoop samplerId rest (index + 1) sum
      | none => do
        rollback checkpoint
        throw (.failed (.timerOverflow samplerId))
    | .error (.control signal) => do
      rollback checkpoint
      requestControl signal
      returnControlled
    | .error source => do
      rollback checkpoint
      throw (.failed (.timer samplerId source))

/-- The sleep before the sampler. -/
def sleepPhase : Pipe P Unit :=
  if totalDelay = 0 then pure ()
  else do
    checkPhaseDeadline samplerId
    let result ← liftCut fun s => sleepActs false s.script (s.emit (.sleep totalDelay))
    match result with
    | .ok () => pure ()
    | .error (.control signal) => do
      requestControl signal
      returnControlled
    | .error source => throw (.failed (.sleeper samplerId source))

/-- The last look at the control signal before the sampler. -/
def checkContinue : Pipe P Unit := do
  let signal ← controlSignal
  if signal ≠ .continue then throw (.controlled signal) else pure ()

/-- The result with its times and thread counts. -/
def timedResult (settings : Settings) (result : Option P.Result) (start finish : ClockReading) :
    Except ResultError P.Result :=
  let elapsedMillis := (finish.monotonic - start.monotonic) / 1000000
  if finish.monotonic < start.monotonic then .error (.invalidTiming "EndBeforeStart")
  else if u64Max < elapsedMillis then .error (.overflow "Elapsed")
  else
    match result with
    | none => .error (.invalidHierarchy "Elapsed")
    | some result => do
      let data ← P.fillTiming result.data start finish elapsedMillis settings.groupThreads
        settings.allThreads
      return { result with data }

def updateResultTiming (start finish : ClockReading) : Pipe P Unit := fun s =>
  match timedResult s.settings s.sample.result start finish with
  | .error source => .error (.failed (.result samplerId source)) s
  | .ok result => .ok () { s with sample.result := some result }

/-- The sampler; a component error that is no control signal fails the invocation. -/
def samplerPhase : Pipe P (SamplerOutput P × ClockReading × ClockReading) := do
  let start ← readClock
  beginPhase samplerId .sampler "sampler" (.sampler samplerId)
  let result ← liftCut (call Invocation.perform (.enter .sampler) .sampler)
  match result with
  | .ok returned => do
    let finish ← readClock
    requestControl returned.output.signal
    modify fun s =>
      { s with sample.result := returned.output.result }.emit (.sampled returned.output.result)
    return (returned.output, start, finish)
  | .error (.control signal) => do
    requestControl signal
    returnControlled
  | .error source => throw (.failed (.sampler samplerId source))

/-- The loop over the postprocessors, with `n` of them left. -/
def postprocessorLoop (samplerId : ℕ) : ℕ → ℕ → Pipe P Unit
  | 0, _ => pure ()
  | n + 1, index => do
    beginPhase samplerId .postprocessor ("postprocessor[" ++ toString index ++ "]")
      (.postprocessor samplerId)
    let checkpoint ← takeCheckpoint
    let result ← callGuarded (.postprocessor index)
    match result with
    | .ok _ => postprocessorLoop samplerId n (index + 1)
    | .error (.control signal) => do
      rollback checkpoint
      requestControl signal
    | .error source => do
      rollback checkpoint
      throw (.failed (.postprocessor samplerId source))

/-- The loop over the assertions, with `n` of them left. -/
def assertionLoop (samplerId : ℕ) : ℕ → ℕ → Pipe P Unit
  | 0, _ => pure ()
  | n + 1, index => do
    beginPhase samplerId .assertion ("assertion[" ++ toString index ++ "]") (.assertion samplerId)
    let checkpoint ← takeCheckpoint
    let result ← callGuarded (.assertion index)
    match result with
    | .ok returned => do
      let s ← get
      match s.sample.result with
      | some result => do
        set ({ s with sample.result := some (appendAssertionResult result returned.assertion) }.emit
          (.recorded returned.assertion))
        assertionLoop samplerId n (index + 1)
      | none => do
        rollback checkpoint
        throw (.failed (.result samplerId (.invalidHierarchy "Assertion")))
    | .error (.control signal) => do
      rollback checkpoint
      requestControl signal
    | .error source => do
      rollback checkpoint
      throw (.failed (.assertion samplerId source))

/-- `SampleEvent::snapshot` of the current result. -/
def eventOf (s : Invocation P) : Except ResultError P.Event :=
  match s.sample.result with
  | none => .error (.invalidHierarchy "Assertion")
  | some result => do
    let event : P.Event :=
      { result
        identity := s.settings.identity
        vars := s.settings.sampleVariables.map fun name => (name, s.sample.execution.vars[name]?) }
    P.validateEvent event
    return event

def snapshotEvent : Pipe P P.Event := fun s =>
  match eventOf s with
  | .error source => .error (.failed (.result samplerId source)) s
  | .ok event => .ok event (s.emit (.snapshot event))

/-- The loop over the listeners, with `n` of them left.  A listener gets the event only. -/
def listenerLoop (samplerId : ℕ) (event : P.Event) : ℕ → ℕ → Pipe P Unit
  | 0, _ => pure ()
  | n + 1, index => do
    beginPhase samplerId .listener ("listener[" ++ toString index ++ "]") (.listener samplerId)
    let result ← liftCut (call (fun s _ => s) (.notify index event) (.listener index))
    match result with
    | .ok _ => listenerLoop samplerId event n (index + 1)
    | .error (.control signal) => requestControl signal
    | .error source => throw (.failed (.listener samplerId source))

/-- The result of the invocation as it is now. -/
def currentResult : Pipe P (Option P.Result) := fun s => .ok s.sample.result s

/-- The report of a sampler that gave a result. -/
def finalReport (output : SamplerOutput P) (event : P.Event) : Pipe P (ExecutionReport P) := do
  let result ← currentResult
  requestControl ((result.map resultControlSignal).getD .continue)
  let signal ← controlSignal
  return ⟨package.samplerId, result, some event, output.failure, signal, totalDelay⟩

/-- What follows a sampler that gave a result. -/
def resultPhases (output : SamplerOutput P) (start finish : ClockReading) :
    Pipe P (ExecutionReport P) := do
  updateResultTiming package.samplerId start finish
  postprocessorLoop package.samplerId package.postprocessors 0
  assertionLoop package.samplerId package.assertions 0
  let event ← snapshotEvent package.samplerId
  listenerLoop package.samplerId event (if event.result.flags.ignored then 0 else package.listeners)
    0
  finalReport package totalDelay output event

def executePhases : Pipe P (ExecutionReport P) := do
  modify fun s => { s with sample := .new s.sample.execution }
  checkPhaseDeadline package.samplerId
  checkStop
  configurationLoop package.samplerId package.configurations
  preprocessorLoop package.samplerId package.preprocessors
  let totalDelay ← timerLoop package.samplerId package.timers 0 0
  checkStop
  sleepPhase package.samplerId totalDelay
  checkContinue
  let (output, start, finish) ← samplerPhase package.samplerId
  match output.result with
  | none => do
    let signal ← controlSignal
    return ⟨package.samplerId, none, none, output.failure, signal, totalDelay⟩
  | some result => do
    requestControl (resultControlSignal result)
    resultPhases package totalDelay output start finish

/-! ## The future -/

/-- The result of the phases; only a cut goes on outwards. -/
def attempt (m : Pipe P (ExecutionReport P)) :
    Future P (Except PipelineError (ExecutionReport P)) := fun s =>
  match m s with
  | .ok report s => .ok (.ok report) (s.emit (.phases true))
  | .error (.controlled signal) s =>
    .ok (.ok (.controlled package.samplerId signal)) (s.emit (.phases true))
  | .error (.failed error) s => .ok (.error error) (s.emit (.phases false))
  | .error (.cut cut) s => .error cut s

/-- A lifecycle hook, called also if its trace entry cannot be kept. -/
def hook (entered : PipelineEvent P) : Future P (Option ComponentError) := fun s =>
  let (traceError, s) := match pushTrace phase detail s with
    | .ok s => (none, s)
    | .error error => (some error, s)
  match runActs Invocation.performHook s.script (s.emit entered) with
  | .error cut s => .error cut s
  | .ok result s =>
    let hookError := match result with
      | .ok _ => none
      | .error error => some error
    .ok (match traceError, hookError with
      | some primary, some secondary => some (.combined primary secondary)
      | some error, none | none, some error => some error
      | none, none => none) s

def finishHook : Future P (Option ComponentError) := hook .finish "package.finish" .finish

def cleanupHook : Future P (Option ComponentError) := hook .cleanup "package.cleanup" .cleanup

/-- What the future is ready with. -/
def combineOutcome (primary : Except PipelineError (ExecutionReport P))
    (finish cleanup : Option ComponentError) : Except PipelineError (ExecutionReport P) :=
  match primary, finish, cleanup with
  | .error primary, _, some source => .error (.combined primary (.cleanup samplerId source))
  | .error primary, _, none => .error primary
  | .ok _, some source, some source' =>
    .error (.combined (.finish samplerId source) (.cleanup samplerId source'))
  | .ok _, some source, none => .error (.finish samplerId source)
  | .ok _, none, some source => .error (.cleanup samplerId source)
  | .ok report, none, none => .ok report

/-- The future inside the `PipelineFuture`. -/
def inner : Future P (Except PipelineError (ExecutionReport P)) := do
  let primary ← attempt package (executePhases package)
  let finish ← match primary with
    | .ok _ => finishHook
    | .error _ => pure none
  let cleanup ← cleanupHook
  return combineOutcome package.samplerId primary finish cleanup

/-- How the life of a future ends; `pending` if it is still there. -/
inductive Ending (P : Payload)
  | ready (value : Except PipelineError (ExecutionReport P))
  | expired (error : PipelineError)
  | dropped
  | pending

namespace Invocation

/-- `PipelineDropGuard::cancel`. -/
def cancelGuard (s : Invocation P) : Option ComponentError × Invocation P :=
  if s.armed then
    (package.cancelError,
      { s with
        armed := false
        cancellationError := s.cancellationError.or package.cancelError }.emit .cancel)
  else (none, s)

/-- The future is dropped; its guard cancels if it is still armed. -/
def dropFuture (s : Invocation P) : Invocation P := (s.cancelGuard package).2

def fresh (s : Invocation P) (script : List (Act P)) : Invocation P :=
  { s with
    pollDeadline := s.settings.deadline
    armed := true
    script
    log := []
    touched := []
    current := none
    ended := [] }

end Invocation

/-- A pipeline future from its creation to its drop. -/
def life (s : Invocation P) : Ending P × Invocation P :=
  match (do (fun s => firstPoll s.script s : Future P Unit); inner package) s with
  | .ok value s => (.ready value, { s with armed := false }.dropFuture package)
  | .error .deadline s =>
    let primary := PipelineError.deadlineExceeded package.samplerId
    let (cancelled, s) := s.cancelGuard package
    (.expired (match cancelled with
      | some source => .combined primary (.cleanup package.samplerId source)
      | none => primary), s.dropFuture package)
  | .error .dropped s => (.dropped, s.dropFuture package)
  | .error .unfinished s => (.pending, s)

end

/-! ## While something runs -/

theorem triple_liftCut {α : Type} {pre : Invocation P → Prop} {m : Future P α}
    {post : α → Invocation P → Prop} {fails : Exit → Invocation P → Prop}
    (h : Triple pre m post fun cut => fails (.cut cut)) :
    Triple pre (liftCut m) post fails := by
  intro s hs
  have hrun := h s hs
  unfold liftCut
  cases hm : m s <;> rwa [hm] at hrun

/-- What holds all along while something runs: it is kept by the surroundings and by the
operations of the component. -/
theorem inv_runActs (inv : Invocation P → Prop)
    {apply : Invocation P → ComponentOp P → Invocation P}
    (hscr : ∀ s script, inv s → inv { s with script })
    (hsur : ∀ s change, inv s → inv (s.surround change))
    (happly : ∀ s op, inv s → inv (apply s op)) (script : List (Act P)) :
    Invariant inv (runActs apply script) := by
  intro s hs
  induction script generalizing s with
  | nil => exact hscr s [] hs
  | cons act rest ih =>
    cases act with
    | surrounding change => exact ih _ (hsur s change hs)
    | proceed => exact ih _ hs
    | own op => exact ih _ (happly s op hs)
    | returns result | drop => exact hscr s rest hs
    | slept result => exact ih _ hs
    | poll =>
      simp only [runActs]
      by_cases h : s.pollExpired
      · rw [if_pos h]
        exact hscr s rest hs
      · rw [if_neg h]
        exact ih _ hs

theorem inv_sleepActs (inv : Invocation P → Prop) (hscr : ∀ s script, inv s → inv { s with script })
    (hsur : ∀ s change, inv s → inv (s.surround change)) (checked : Bool)
    (script : List (Act P)) : Invariant inv (sleepActs checked script) := by
  intro s hs
  induction script generalizing checked s with
  | nil => exact hscr s [] hs
  | cons act rest ih =>
    cases act with
    | surrounding change => exact ih checked _ (hsur s change hs)
    | own op | returns result => exact ih checked _ hs
    | proceed =>
      simp only [sleepActs]
      split_ifs
      · exact hscr s rest hs
      · exact ih true _ hs
    | slept result =>
      cases result <;> simp only [sleepActs] <;> split_ifs <;> exact hscr s rest hs
    | poll =>
      simp only [sleepActs]
      split_ifs
      · exact hscr s _ hs
      · exact hscr s rest hs
      · exact ih false _ hs
    | drop =>
      simp only [sleepActs]
      split_ifs
      · exact hscr s _ hs
      · exact hscr s rest hs

/-- A hook does what its operations do, whether or not its trace entry is kept. -/
theorem triple_hook {pre post : Invocation P → Prop} {phase : Phase} {detail : String}
    {entered : PipelineEvent P} (htrace : ∀ s trace, pre s → pre { s with trace })
    (hactions : ∀ s, pre s → Triple (fun t => t = s.emit entered)
      (runActs Invocation.performHook s.script) (fun _ => post) (fun _ => post)) :
    Triple pre (hook phase detail entered) (fun _ => post) (fun _ => post) := by
  intro s hs
  unfold hook
  cases hpush : pushTrace phase detail s with
  | error error =>
    have hrun := hactions s hs _ rfl
    simp only
    cases hres : runActs Invocation.performHook s.script (s.emit entered) <;>
      rwa [hres] at hrun
  | ok s' =>
    have hs' : pre s' := by
      unfold pushTrace at hpush
      split_ifs at hpush
      cases hpush
      exact htrace s _ hs
    have hrun := hactions s' hs' _ rfl
    simp only
    cases hres : runActs Invocation.performHook s'.script (s'.emit entered) <;>
      rwa [hres] at hrun

end

end JmeterRs.Execution
