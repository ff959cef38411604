import JmeterRs.Logic.Compile
import JmeterRs.Controllers.Random
import Mathlib.Logic.Function.Basic

/-!
# The logic runner

The traversal of one virtual user: a stack of work items, each a node still to be visited or the
marker of a controller to be resumed, beside the memory of the controllers.  A step that fails
keeps what it has written, as a `&mut self` method that leaves with `?` does.  Stacks are lists
whose head is the top.
-/

namespace JmeterRs.Logic

open Controllers (ElementId LoopCount ControlSignal uniformIndex)

/-! ## State -/

/-- A controller on the path of a selection. -/
structure LogicCursor where
  id : ElementId
  kind : String
  iteration : ℕ
  deriving DecidableEq, Repr

def cursor (id : ElementId) (kind : String) (iteration : ℕ) : LogicCursor := ⟨id, kind, iteration⟩

/-- What is still to be done. -/
inductive WorkItem
  | node (node : LogicNode) (path : List LogicCursor) (iteration : ℕ)
  | ifEnd (id : ElementId)
  | loopAgain (id : ElementId) (count : LoopCount) (children : List LogicNode)
      (path : List LogicCursor) (iteration : ℕ)
  | whileAgain (id : ElementId) (condition : LogicCondition) (maxIterations : Option ℕ)
      (children : List LogicNode) (path : List LogicCursor) (iteration : ℕ)
  | forEachAgain (id : ElementId) (inputPrefix outputVariable : String) (count : ℕ)
      (children : List LogicNode) (path : List LogicCursor) (index : ℕ)
  | runtimeAgain (id : ElementId) (duration : Duration) (children : List LogicNode)
      (path : List LogicCursor) (iteration : ℕ) (deadline : Duration)

/-- The shuffle of a Random Order controller whose draws are not complete. -/
structure PendingRandomOrder where
  id : ElementId
  path : List LogicCursor
  iteration : ℕ
  order : List LogicNode
  remaining : ℕ

/-- An If controller that is evaluated again at every sampler boundary. -/
structure ActiveIfFrame where
  id : ElementId
  condition : LogicCondition
  resetStateIds : List ElementId

structure TransactionInfo where
  id : ElementId
  parent : Bool
  includeTimers : Bool
  deriving DecidableEq, Repr

structure LogicSelection where
  samplerId : ElementId
  executionIteration : ℕ
  path : List LogicCursor
  transactions : List ElementId
  transactionDetails : List TransactionInfo
  criticalSections : List String
  criticalSectionIds : List ElementId
  deriving DecidableEq, Repr

/-- What the caller observes at a boundary. -/
structure LogicInput where
  signal : ControlSignal
  lastSampleSuccess : Option Bool
  elapsed : Duration
  randomValue : Option UInt64

/-- `LogicInput::default()`. -/
def LogicInput.default : LogicInput := ⟨.continue, none, 0, none⟩

inductive LogicStep
  | sample (selection : LogicSelection)
  | needsRandom
  | complete
  | stopped (signal : ControlSignal)
  deriving DecidableEq, Repr

/-- The mutable state of one virtual user.  `sharedState` holds the throughput counters of the
run, which other users advance between the steps of this one. -/
structure LogicRunner where
  program : LogicProgram
  work : List WorkItem
  vars : Variables
  rootStarted : Bool
  finished : Bool
  terminal : Option ControlSignal
  rootIteration : ℕ
  loopIterations : ElementId → Option ℕ
  onceDone : Finset ElementId
  interleaveNext : ElementId → Option ℕ
  throughput : ElementId → Option ThroughputState
  runtimeStarts : ElementId → Option Duration
  transitionCount : ℕ
  sharedState : Option (ElementId → Option ThroughputState)
  transactionMetadata : ElementId → Option (Bool × Bool)
  pendingRandomOrder : Option PendingRandomOrder
  activeIfs : List ActiveIfFrame
  ifCheckPending : Bool

/-- A runner during one step. -/
structure LogicCall where
  runner : LogicRunner
  input : LogicInput

/-- The methods of the runner. -/
abbrev LogicM := EStateM LogicControllerError LogicCall

namespace LogicRunner

def new (program : LogicProgram) : LogicRunner where
  program := program
  work := []
  vars := fun _ => none
  rootStarted := false
  finished := false
  terminal := none
  rootIteration := 0
  loopIterations := fun _ => none
  onceDone := ∅
  interleaveNext := fun _ => none
  throughput := fun _ => none
  runtimeStarts := fun _ => none
  transitionCount := 0
  sharedState := none
  transactionMetadata := fun _ => none
  pendingRandomOrder := none
  activeIfs := []
  ifCheckPending := false

/-- A runner with the shared counters of a run, if it has any. -/
def withSharedState (program : LogicProgram)
    (sharedState : Option (ElementId → Option ThroughputState)) : LogicRunner :=
  { new program with sharedState }

def setVariable (r : LogicRunner) (name value : String) : LogicRunner :=
  { r with vars := Function.update r.vars name (some value) }

def replaceVariables (r : LogicRunner) (values : Variables) : LogicRunner :=
  { r with vars := values }

/-- Resets traversal, memory and variables; the program and the shared counters stay. -/
def reset (r : LogicRunner) : LogicRunner := withSharedState r.program r.sharedState

/-- The failure when a counter or the transitions of a step run out. -/
def overflow (r : LogicRunner) : LogicControllerError :=
  .transitionLimit r.transitionCount r.program.limits.maxTransitions

/-- Starts the next root iteration; the memory of OnceOnly, Interleave and Throughput stays. -/
def nextRootIteration (r : LogicRunner) : Except LogicControllerError LogicRunner :=
  if !r.finished then .error r.overflow
  else
    match checkedAdd u64Max r.rootIteration 1 with
    | none => .error r.overflow
    | some rootIteration =>
      .ok { r with
        rootIteration, work := [], rootStarted := false, finished := false, terminal := none,
        loopIterations := fun _ => none, runtimeStarts := fun _ => none,
        pendingRandomOrder := none, activeIfs := [], ifCheckPending := false }

/-- Stacks the children, first child on top, over the marker of their controller. -/
def scheduleChildren (r : LogicRunner) (children : List LogicNode) (path : List LogicCursor)
    (iteration : ℕ) (marker : Option WorkItem) : LogicRunner :=
  { r with
    work := children.map (.node · path iteration) ++ (marker.toList ++ r.work) }

end LogicRunner

namespace LogicCall

def scheduleChildren (c : LogicCall) (children : List LogicNode) (path : List LogicCursor)
    (iteration : ℕ) (marker : Option WorkItem) : LogicCall :=
  { c with runner := c.runner.scheduleChildren children path iteration marker }

def push (c : LogicCall) (node : LogicNode) (path : List LogicCursor) (iteration : ℕ) :
    LogicCall :=
  c.scheduleChildren [node] path iteration none

/-- `input.random_value.take()`. -/
def takeRandom (c : LogicCall) : LogicCall :=
  { c with input := { c.input with randomValue := none } }

end LogicCall

/-! ## If controllers -/

/-- The If controller an end marker belongs to. -/
def WorkItem.ifEndId : WorkItem → Option ElementId
  | .ifEnd id => some id
  | _ => none

/-- The ids of the controllers below `node`, and of `node` itself, that a false If controller
resets. -/
def collectIfStateIdsFromNode (node : LogicNode) : List ElementId :=
  (node.nodes.filter LogicNode.hasIfState).map LogicNode.id

def collectIfStateIds (children : List LogicNode) : List ElementId :=
  children.flatMap collectIfStateIdsFromNode

/-- Removes the entries of a map at the given ids. -/
def removeAll {α : Type} (ids : List ElementId) (map : ElementId → Option α) :
    ElementId → Option α :=
  fun id => if id ∈ ids then none else map id

namespace LogicRunner

def resetIfState (r : LogicRunner) (ids : List ElementId) : LogicRunner :=
  { r with
    loopIterations := removeAll ids r.loopIterations
    onceDone := r.onceDone.filter (· ∉ ids)
    interleaveNext := removeAll ids r.interleaveNext
    throughput := removeAll ids r.throughput
    transactionMetadata := removeAll ids r.transactionMetadata
    pendingRandomOrder := r.pendingRandomOrder.filter (·.id ∉ ids) }

/-- Closes the innermost If frame, which must be the one of the marker. -/
def finishIf (r : LogicRunner) (id : ElementId) : Except LogicControllerError LogicRunner :=
  match r.activeIfs with
  | [] => .error (.invariantViolation s!"IfController {id} ended without an active frame")
  | frame :: frames =>
    if frame.id ≠ id then
      .error (.invariantViolation
        s!"IfController end marker {id} mismatched active frame {frame.id}")
    else .ok { r with activeIfs := frames }

/-- The items below the topmost end marker of the If controller `id`. -/
def popToIfEnd (id : ElementId) : List WorkItem → Option (List WorkItem)
  | [] => none
  | .ifEnd marker :: work => if marker = id then some work else popToIfEnd id work
  | _ :: work => popToIfEnd id work

/-- Leaves the If frame at `index`, counted from the outermost, and everything inside it. -/
def abortIfFrame (r : LogicRunner) (index : ℕ) :
    EStateM.Result LogicControllerError LogicRunner Unit :=
  match r.activeIfs.reverse[index]? with
  | none => .error (.invariantViolation s!"missing active IfController frame at index {index}") r
  | some frame =>
    match popToIfEnd frame.id r.work with
    -- every item has been popped by then
    | none =>
      .error (.invariantViolation s!"IfController {frame.id} frame has no end marker")
        { r with work := [] }
    | some work =>
      .ok () { LogicRunner.resetIfState
          { r with work, activeIfs := (r.activeIfs.reverse.take index).reverse }
          frame.resetStateIds with ifCheckPending := false }

/-- Evaluates the frames from `index` on, outermost first, and leaves the first false one. -/
def recheckFrom (r : LogicRunner) (lastSampleSuccess : Option Bool) :
    ℕ → List ActiveIfFrame → EStateM.Result LogicControllerError LogicRunner Unit
  | _, [] => .ok () r
  | index, frame :: frames =>
    match frame.condition.evaluate r.vars lastSampleSuccess with
    | .error e => .error e r
    | .ok true => recheckFrom r lastSampleSuccess (index + 1) frames
    | .ok false => r.abortIfFrame index

def recheckActiveIfs (r : LogicRunner) (input : LogicInput) :
    EStateM.Result LogicControllerError LogicRunner Unit :=
  r.recheckFrom input.lastSampleSuccess 0 r.activeIfs.reverse

/-- Pops the frames whose end marker has left the work stack. -/
def dropUnbacked (markers : List ElementId) : List ActiveIfFrame → LogicRunner → LogicRunner
  | [], r => { r with activeIfs := [] }
  | frame :: frames, r =>
    if frame.id ∈ markers then { r with activeIfs := frame :: frames }
    else dropUnbacked markers frames (r.resetIfState frame.resetStateIds)

def dropUnbackedIfFrames (r : LogicRunner) : LogicRunner :=
  dropUnbacked (r.work.filterMap WorkItem.ifEndId) r.activeIfs r

end LogicRunner

/-! ## Counters -/

/-- The counters after a visit. -/
def ThroughputState.count (counters : ThroughputState) (allow : Bool) : ThroughputState where
  iterations := saturatingAdd u64Max counters.iterations 1
  executions :=
    if allow then saturatingAdd u64Max counters.executions 1 else counters.executions

/-- Decides a visit of a Throughput controller and counts it. -/
def LogicRunner.throughputAllow (r : LogicRunner) (id : ElementId) (mode : ThroughputMode)
    (limit : ℕ) (percent : Float) (perUser : Bool) :
    Except LogicControllerError (Bool × LogicRunner) :=
  if !perUser then
    match r.sharedState with
    | none => .error (.missingGlobalState id)
    | some state =>
      let counters := (state id).getD ⟨0, 0⟩
      let allow := throughputDecide counters mode limit percent
      .ok (allow,
        { r with sharedState := some (Function.update state id (some (counters.count allow))) })
  else
    let counters := (r.throughput id).getD ⟨0, 0⟩
    let allow := throughputDecide counters mode limit percent
    .ok (allow,
      { r with throughput := Function.update r.throughput id (some (counters.count allow)) })

/-- Sets the iteration of the innermost cursor of a controller. -/
def updateInnermost (id : ElementId) (kind : String) (iteration : ℕ) :
    List LogicCursor → Option (List LogicCursor)
  | [] => none
  | c :: path =>
    match updateInnermost id kind iteration path with
    | some path => some (c :: path)
    | none =>
      if c.id = id ∧ c.kind = kind then some ({ c with iteration } :: path) else none

/-- Updates the cursor of a controller that is resumed by its marker. -/
def updateCursorIteration (path : List LogicCursor) (id : ElementId) (kind : String)
    (iteration : ℕ) : Except LogicControllerError (List LogicCursor) :=
  match updateInnermost id kind iteration path with
  | some path => .ok path
  | none => .error (.invariantViolation s!"{kind} {id} marker has no matching path cursor")

/-! ## Visiting a node -/

/-- The text after `"CriticalSection:"`. -/
def lockName (kind : String) : Option String :=
  if "CriticalSection:".toList.isPrefixOf kind.toList then
    some (String.ofList (kind.toList.drop "CriticalSection:".toList.length))
  else none

def LogicRunner.selection (r : LogicRunner) (id : ElementId) (path : List LogicCursor) :
    LogicSelection :=
  let transactions := (path.filter (·.kind = "TransactionController")).map (·.id)
  { samplerId := id
    executionIteration := r.rootIteration
    path
    transactions
    transactionDetails := transactions.filterMap fun id =>
      (r.transactionMetadata id).map fun (parent, includeTimers) => ⟨id, parent, includeTimers⟩
    criticalSections := path.filterMap fun c => lockName c.kind
    criticalSectionIds := (path.filter fun c => (lockName c.kind).isSome).map (·.id) }

/-- What a choice among children came to. -/
inductive Choice
  | child (index : ℕ)
  | nothing
  | needsRandom

/-- Draws an index with the random value of the input, which is consumed. -/
def randomChoice (count : ℕ) (c : LogicCall) : Choice × LogicCall :=
  if count = 1 then (.child 0, c)
  else
    match c.input.randomValue with
    | none => (.needsRandom, c)
    | some value =>
      match uniformIndex value count with
      | none => (.needsRandom, c.takeRandom)
      | some index => (.child index, c.takeRandom)

def switchChoice (id : ElementId) (selection : SwitchSelection) (count : ℕ) (c : LogicCall) :
    Except LogicControllerError (Choice × LogicCall) :=
  match selection with
  | .index value => .ok (.child (if value < count then value else 0), c)
  | .variableIndex name =>
    match switchNumericIndex ((c.runner.vars name).getD "") count with
    | none => .error (.unsupported s!"SwitchController {id}" "switch-child-names")
    | some index => .ok (.child index, c)
  | .variableWithNames name childNames =>
    let value := (c.runner.vars name).getD ""
    match switchNumericIndex value count with
    | some index => .ok (.child index, c)
    | none =>
      match switchNamedIndex value childNames count with
      | some index => .ok (.child index, c)
      | none => .ok (.nothing, c)
  | .random => .ok (randomChoice count c)

def followChoice (choice : Choice) (children : List LogicNode) (path : List LogicCursor)
    (iteration : ℕ) (c : LogicCall) :
    EStateM.Result LogicControllerError LogicCall (Option LogicStep) :=
  match choice with
  | .needsRandom => .ok (some .needsRandom) c
  | .nothing => .ok none c
  | .child index =>
    match children[index]? with
    | none => .ok none c
    | some child => .ok none (c.push child path iteration)

/-- Starts a shuffle unless one of the Random Order controller `id` is in progress. -/
def LogicRunner.startRandomOrder (r : LogicRunner) (id : ElementId) (children : List LogicNode)
    (path : List LogicCursor) (iteration : ℕ) : LogicRunner :=
  if r.pendingRandomOrder.all (·.id ≠ id) then
    { r with pendingRandomOrder := some ⟨id, path, iteration, children, children.length⟩ }
  else r

section

-- the fields of the controllers, then where the traversal is
variable (id : ElementId) (kind lockName : String) (target : Option LogicNode) (count : LoopCount)
  (duration : Duration) (condition : LogicCondition) (evaluateEachIteration : Bool)
  (maxIterations : Option ℕ) (inputPrefix outputVariable : String) (children : List LogicNode)
  (path : List LogicCursor) (iteration : ℕ)

/-- One draw of a Random Order controller with at least two children. -/
def randomOrderDraw : LogicM (Option LogicStep) := fun c =>
  let c := { c with runner := c.runner.startRandomOrder id children path iteration }
  match c.input.randomValue with
  | none => .ok (some .needsRandom) c
  | some value =>
    let c := c.takeRandom
    match c.runner.pendingRandomOrder with
    | none => .error (.invariantViolation "random-order state disappeared before selection") c
    | some pending =>
      match uniformIndex value pending.remaining with
      | none => .ok (some .needsRandom) c
      | some index =>
        let last := pending.remaining - 1
        let drawn := { pending with order := pending.order.swap index last, remaining := last }
        let c := { c with runner := { c.runner with pendingRandomOrder := some drawn } }
        if 1 < last then .ok (some .needsRandom) c
        else
          match c.runner.pendingRandomOrder with
          | none => .error (.invariantViolation "random-order state disappeared at completion") c
          | some pending =>
            .ok none (LogicCall.scheduleChildren
              { c with runner := { c.runner with pendingRandomOrder := none } }
              pending.order pending.path pending.iteration none)

def replaceNode : LogicM (Option LogicStep) := fun c =>
  match target with
  | none => .error (.unresolvedReplacement id) c
  | some target => .ok none (c.push target (path ++ [cursor id kind iteration]) iteration)

/-- Enters a controller that visits its children in order once. -/
def enter : LogicM (Option LogicStep) := fun c =>
  .ok none (c.scheduleChildren children (path ++ [cursor id kind iteration]) iteration none)

/-- The Loop controller starts at the iteration inherited from its parent. -/
def visitLoop : LogicM (Option LogicStep) := fun c =>
  if count = .finite 0 then .ok none c
  else
    let path := path ++ [cursor id "LoopController" iteration]
    .ok none (c.scheduleChildren children path iteration
      (some (.loopAgain id count children path iteration)))

def visitIf : LogicM (Option LogicStep) := fun c =>
  match condition.evaluate c.runner.vars c.input.lastSampleSuccess with
  | .error e => .error e c
  | .ok false => .ok none { c with runner := c.runner.resetIfState (collectIfStateIds children) }
  | .ok true =>
    let path := path ++ [cursor id "IfController" iteration]
    if evaluateEachIteration then
      let frame : ActiveIfFrame := ⟨id, condition, collectIfStateIds children⟩
      let runner := { c.runner with activeIfs := frame :: c.runner.activeIfs }
      .ok none (LogicCall.scheduleChildren { c with runner } children path iteration
        (some (.ifEnd id)))
    else .ok none (c.scheduleChildren children path iteration none)

def visitWhile : LogicM (Option LogicStep) := fun c =>
  if maxIterations = some 0 then .ok none c
  else
    match condition.evaluate c.runner.vars c.input.lastSampleSuccess with
    | .error e => .error e c
    | .ok false => .ok none c
    | .ok true =>
      let path := path ++ [cursor id "WhileController" iteration]
      .ok none (c.scheduleChildren children path 0
        (some (.whileAgain id condition maxIterations children path 0)))

/-- The name of the `index`-th variable of a ForEach controller, counted from zero. -/
def forEachKey (inputPrefix : String) (index : ℕ) : String :=
  s!"{inputPrefix}_{saturatingAdd u64Max index 1}"

/-- The variables after a ForEach controller has taken its `index`-th value. -/
def LogicRunner.assign (r : LogicRunner) (inputPrefix outputVariable : String) (index : ℕ) :
    Variables :=
  Function.update r.vars outputVariable (some ((r.vars (forEachKey inputPrefix index)).getD ""))

def visitForEach : LogicM (Option LogicStep) := fun c =>
  let matchNrName := s!"{inputPrefix}_matchNr"
  match parseUsize ((c.runner.vars matchNrName).getD "0") with
  | none => .error (.invalidForEachValue id matchNrName) c
  | some count =>
    if count = 0 then .ok none c
    else
      let index := (c.runner.loopIterations id).getD 0
      if count ≤ index then
        .ok none { c with runner := { c.runner with
          loopIterations := Function.update c.runner.loopIterations id (some 0) } }
      else
        let runner := { c.runner with
          vars := c.runner.assign inputPrefix outputVariable index
          loopIterations := Function.update c.runner.loopIterations id
            (some (saturatingAdd u64Max index 1)) }
        let path := path ++ [cursor id "ForeachController" index]
        .ok none (LogicCall.scheduleChildren { c with runner } children path index
          (some (.forEachAgain id inputPrefix outputVariable count children path (index + 1))))

def visitInterleave : LogicM (Option LogicStep) := fun c =>
  if children.length = 0 then .ok none c
  else
    let index := (c.runner.interleaveNext id).getD 0
    let runner := { c.runner with
      interleaveNext := Function.update c.runner.interleaveNext id
        (some (saturatingAdd usizeMax index 1)) }
    followChoice (.child (index % children.length)) children
      (path ++ [cursor id "InterleaveControl" iteration]) iteration { c with runner }

def visitRuntime : LogicM (Option LogicStep) := fun c =>
  let start := (c.runner.runtimeStarts id).getD c.input.elapsed
  let deadline := saturatingAdd durationMax start duration
  if deadline ≤ c.input.elapsed then
    .ok none { c with runner := { c.runner with
      runtimeStarts := Function.update c.runner.runtimeStarts id none } }
  else
    let runner := { c.runner with
      runtimeStarts := Function.update c.runner.runtimeStarts id (some start) }
    let path := path ++ [cursor id "RunTime" iteration]
    .ok none (LogicCall.scheduleChildren { c with runner } children path iteration
      (some (.runtimeAgain id duration children path iteration deadline)))

def visitCriticalSection : LogicM (Option LogicStep) := fun c =>
  let lockKind := s!"CriticalSection:{lockName}"
  if path.any (·.kind = lockKind) then
    .error (.unsupported s!"CriticalSectionController {id}" "critical-section-reentrant-name") c
  else
    .ok none (c.scheduleChildren children
      (path ++ [cursor id "CriticalSectionController" iteration, cursor id lockKind iteration])
      iteration none)

def processNode (node : LogicNode) (path : List LogicCursor) (iteration : ℕ) :
    LogicM (Option LogicStep) := fun c =>
  match node with
  | .sample id => .ok (some (.sample (c.runner.selection id path))) c
  | .sequence id children => enter id "GenericController" children path iteration c
  | .loop id count children => visitLoop id count children path iteration c
  | .ifController id condition each children => visitIf id condition each children path iteration c
  | .whileController id condition maxIterations children =>
    visitWhile id condition maxIterations children path iteration c
  | .forEach id inputPrefix outputVariable children =>
    visitForEach id inputPrefix outputVariable children path c
  | .switch id selection children =>
    if children.length = 0 then .ok none c
    else
      match switchChoice id selection children.length c with
      | .error e => .error e c
      | .ok (choice, c) =>
        followChoice choice children (path ++ [cursor id "SwitchController" iteration]) iteration c
  | .interleave id children => visitInterleave id children path iteration c
  | .random id children =>
    if children.length = 0 then .ok none c
    else
      let (choice, c) := randomChoice children.length c
      followChoice choice children (path ++ [cursor id "RandomController" iteration]) iteration c
  | .randomOrder id children =>
    let inner := path ++ [cursor id "RandomOrderController" iteration]
    if children.length ≤ 1 then .ok none (c.scheduleChildren children inner iteration none)
    else randomOrderDraw id children inner iteration c
  | .onceOnly id children =>
    if id ∈ c.runner.onceDone then .ok none c
    else
      enter id "OnceOnlyController" children path iteration
        { c with runner := { c.runner with onceDone := insert id c.runner.onceDone } }
  | .throughput id mode limit percent perUser children =>
    match c.runner.throughputAllow id mode limit percent perUser with
    | .error e => .error e c
    | .ok (false, runner) => .ok none { c with runner }
    | .ok (true, runner) =>
      enter id "ThroughputController" children path iteration { c with runner }
  | .runtime id duration children => visitRuntime id duration children path iteration c
  | .transaction id parent includeTimers children =>
    enter id "TransactionController" children path iteration
      { c with runner := { c.runner with
        transactionMetadata :=
          Function.update c.runner.transactionMetadata id (some (parent, includeTimers)) } }
  | .moduleController id target => replaceNode id "ModuleController" target path iteration c
  | .includeController id target => replaceNode id "IncludeController" target path iteration c
  | .recording id children => enter id "RecordingController" children path iteration c
  | .criticalSection id lockName children =>
    visitCriticalSection id lockName children path iteration c

/-! ## Resuming a controller -/

/-- Visits the children of a resumed controller once more, under its updated cursor, over the
marker `again path` of the visit after this one. -/
def resume (again : List LogicCursor → WorkItem) : LogicM (Option LogicStep) := fun c =>
  match updateCursorIteration path id kind iteration with
  | .error e => .error e c
  | .ok path => .ok none (c.scheduleChildren children path iteration (some (again path)))

/-- Whether a Loop controller is done before the visit `next`. -/
def loopDone (next : ℕ) : Bool :=
  match count with
  | .finite total => total.toNat ≤ next
  | .forever => false

def loopAgain : LogicM (Option LogicStep) := fun c =>
  match checkedAdd u64Max iteration 1 with
  | none => .error c.runner.overflow c
  | some next =>
    if loopDone count next then .ok none c
    else
      resume id "LoopController" children path next (.loopAgain id count children · next) c

def whileAgain : LogicM (Option LogicStep) := fun c =>
  match checkedAdd u64Max iteration 1 with
  | none => .error c.runner.overflow c
  | some next =>
    if maxIterations.any (· ≤ next) then .ok none c
    else
      match condition.evaluate c.runner.vars c.input.lastSampleSuccess with
      | .error e => .error e c
      | .ok false => .ok none c
      | .ok true =>
        resume id "WhileController" children path next
          (.whileAgain id condition maxIterations children · next) c

def forEachAgain (id : ElementId) (inputPrefix outputVariable : String) (count : ℕ)
    (children : List LogicNode) (path : List LogicCursor) (index : ℕ) :
    LogicM (Option LogicStep) := fun c =>
  if count ≤ index then
    .ok none { c with runner := { c.runner with
      loopIterations := Function.update c.runner.loopIterations id (some 0) } }
  else
    let runner := { c.runner with
      vars := c.runner.assign inputPrefix outputVariable index
      loopIterations := Function.update c.runner.loopIterations id
        (some (saturatingAdd usizeMax index 1)) }
    resume id "ForeachController" children path index
      (.forEachAgain id inputPrefix outputVariable count children ·
        (saturatingAdd usizeMax index 1)) { c with runner }

def runtimeAgain (deadline : Duration) : LogicM (Option LogicStep) := fun c =>
  if deadline ≤ c.input.elapsed then
    .ok none { c with runner := { c.runner with
      runtimeStarts := Function.update c.runner.runtimeStarts id none } }
  else
    match checkedAdd u64Max iteration 1 with
    | none => .error c.runner.overflow c
    | some next =>
      resume id "RunTime" children path next (.runtimeAgain id duration children · next deadline) c

end

def processItem (item : WorkItem) : LogicM (Option LogicStep) := fun c =>
  match item with
  | .node node path iteration => processNode node path iteration c
  | .ifEnd id =>
    match c.runner.finishIf id with
    | .error e => .error e c
    | .ok runner => .ok none { c with runner }
  | .loopAgain id count children path iteration => loopAgain id count children path iteration c
  | .whileAgain id condition maxIterations children path iteration =>
    whileAgain id condition maxIterations children path iteration c
  | .forEachAgain id inputPrefix outputVariable count children path index =>
    forEachAgain id inputPrefix outputVariable count children path index c
  | .runtimeAgain id duration children path iteration deadline =>
    runtimeAgain id duration children path iteration deadline c

/-! ## Steps -/

/-- Whether `next_loop` resumes the controller of a marker. -/
def WorkItem.isLoopMarker : WorkItem → Bool
  | .loopAgain .. | .whileAgain .. | .forEachAgain .. => true
  | _ => false

/-- The topmost loop marker and the items below it. -/
def splitLoopMarker : List WorkItem → Option (WorkItem × List WorkItem)
  | [] => none
  | item :: work => if item.isLoopMarker then some (item, work) else splitLoopMarker work

/-- Resets and pops every If frame. -/
def LogicRunner.dropAllIfFrames (r : LogicRunner) : LogicRunner :=
  { r.activeIfs.foldl (fun r frame => r.resetIfState frame.resetStateIds) r with activeIfs := [] }

/-- Goes on with the next iteration of the innermost loop. -/
def nextLoop : LogicM Unit := fun c =>
  let r := { c.runner with runtimeStarts := fun _ => none }
  match splitLoopMarker r.work with
  | none =>
    .ok () { c with runner := { LogicRunner.dropAllIfFrames { r with work := [] } with
      ifCheckPending := false, finished := true } }
  | some (marker, work) =>
    let r := LogicRunner.dropUnbackedIfFrames { r with work }
    match processItem marker { c with runner := r } with
    | .error e c => .error e c
    | .ok _ c => .ok () c

/-- Starts the root if it has not been started. -/
def LogicRunner.startRoot (r : LogicRunner) : LogicRunner :=
  if r.rootStarted then r
  else { r with rootStarted := true, work := .node r.program.root [] 0 :: r.work }

def LogicRunner.countTransition (r : LogicRunner) : LogicRunner :=
  { r with transitionCount := saturatingAdd usizeMax r.transitionCount 1 }

/-- What a step makes of the result of an item: one that needs a random value stays on the stack,
and after a sample the active If controllers are to be evaluated again. -/
def afterItem (item : WorkItem) :
    EStateM.Result LogicControllerError LogicCall (Option LogicStep) →
      EStateM.Result LogicControllerError LogicCall (Option LogicStep)
  | .ok (some .needsRandom) c =>
    .ok (some .needsRandom) { c with runner := { c.runner with work := item :: c.runner.work } }
  | .ok (some (.sample selection)) c =>
    .ok (some (.sample selection))
      { c with runner := { c.runner with ifCheckPending := c.runner.activeIfs ≠ [] } }
  | result => result

/-- One transition: the root is started, then the topmost item is processed. -/
def transition : LogicM (Option LogicStep) := fun c =>
  let r := c.runner.countTransition
  if r.finished then .ok (some .complete) { c with runner := r }
  else
    let r := r.startRoot
    match r.work with
    | [] => .ok (some .complete) { c with runner := { r with finished := true } }
    | item :: work => afterItem item (processItem item { c with runner := { r with work } })

/-- The transitions of a step, at most `max_transitions` of them. -/
def transitions : LogicM LogicStep := fun c =>
  let limit := c.runner.program.limits.maxTransitions
  loopM (.transitionLimit (saturatingAdd usizeMax limit 1) limit) transition limit c

/-- The re-evaluation of the active If controllers after a sample, then the transitions. -/
def recheckThenTransitions : LogicM LogicStep := fun c =>
  if c.runner.ifCheckPending then
    match LogicRunner.recheckActiveIfs { c.runner with ifCheckPending := false } c.input with
    | .error e runner => .error e { c with runner }
    | .ok _ runner => transitions { c with runner }
  else transitions c

def step : LogicM LogicStep := fun c =>
  match c.runner.terminal with
  | some existing =>
    if c.input.signal.isStop then
      let signal := existing.combine c.input.signal
      .ok (.stopped signal)
        { c with runner := { c.runner with terminal := some signal, pendingRandomOrder := none } }
    else .ok (.stopped existing) c
  | none =>
    if c.input.signal.isStop then
      .ok (.stopped c.input.signal)
        { c with runner := { c.runner with
          terminal := some c.input.signal, pendingRandomOrder := none } }
    else if c.input.signal = .nextLoop then
      match nextLoop { c with runner := { c.runner with pendingRandomOrder := none } } with
      | .error e c => .error e c
      | .ok _ c => if c.runner.finished then .ok .complete c else recheckThenTransitions c
    else recheckThenTransitions c

end JmeterRs.Logic
