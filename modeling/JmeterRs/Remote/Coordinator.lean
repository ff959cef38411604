import JmeterRs.Remote.Worker

/-!
# The coordinator

`RemoteCoordinator` configures its workers, starts and stops runs and takes acknowledgements,
samples and failures from them.  Three tables follow its requests: a request is pending, or it was
cancelled or replaced and is invalid, or it is completed.  A method on `&mut self` that can fail is
a computation on the coordinator; one that cannot is a function of it.
-/

namespace JmeterRs.Remote

open Std

/-! ## State -/

inductive CoordinatorPhase
  | idle
  | configuring
  | ready
  | starting
  | running
  | stopping
  | stopped
  | failed
  deriving DecidableEq

/-- A bound on the attempts of a request, the first one included. -/
structure RetryPolicy where
  maxAttempts : ℕ
  positive : maxAttempts ≠ 0

def RetryPolicy.default : RetryPolicy := ⟨3, by decide⟩

inductive FailurePolicy
  | continues
  | failFast
  deriving DecidableEq

inductive StopCause
  | user (mode : StopMode)
  | failFast
  deriving DecidableEq

structure PendingRequest (E : Type) where
  worker : WorkerId
  stage : AckStage
  attempt : ℕ
  message : RemoteMessage E

structure CompletedRequest where
  worker : WorkerId
  stage : AckStage
  runId : Option RunId
  threadCount : Option ℕ
  sampleWatermark : Option ℕ
  deriving DecidableEq

/-- What the coordinator knows about a worker. -/
structure WorkerRecord where
  phase : WorkerPhase
  threadCount : ℕ
  deriving DecidableEq

inductive RecordOutcome
  | accepted (outcome : SendOutcome)
  | duplicate
  deriving DecidableEq

structure RemoteCoordinator (E : Type) where
  profile : ProfileDescriptor
  plan : Option PlanDescriptor
  properties : Option PropertySet
  configurationLimits : RemoteConfigurationLimits
  wireCodecLimits : RemoteLimits
  workers : ExtTreeMap WorkerId WorkerRecord
  configAcks : ExtTreeMap WorkerId (List AckStage)
  phase : CoordinatorPhase
  failurePolicy : FailurePolicy
  runId : Option RunId
  lastRunId : Option RunId
  consumedRunIds : ExtTreeSet RunId
  consumedRunOrder : List RunId
  configuredThreads : ℕ
  senderMode : Option SampleSenderMode
  sender : Option (SampleSender E)
  batchTimeMs : Option ℕ
  accepted : ExtTreeMap SampleKey (RemoteSample E)
  acceptedSizes : ExtTreeMap SampleKey ℕ
  sampleRequests : ExtTreeMap RequestId SampleKey
  acceptedBytes : ℕ
  arrivalOrder : List SampleKey
  maxSamples : ℕ
  maxRetainedBytes : ℕ
  retryPolicy : RetryPolicy
  stopCause : Option StopCause
  stopWatermarks : ExtTreeMap WorkerId ℕ
  controlOutbox : List (RemoteEnvelope E)
  nextRequestId : RequestId
  pendingRequests : ExtTreeMap RequestId (PendingRequest E)
  invalidRequests : ExtTreeSet RequestId
  completedRequests : ExtTreeMap RequestId CompletedRequest

variable {E : Type}

/-- A method of the coordinator that can fail. -/
abbrev Coordinating (E α : Type) := EStateM RemoteError (RemoteCoordinator E) α

def defaultMaxRetainedBytes : ℕ := 4096 * 1024 * 1024

namespace RemoteCoordinator

def new (profile : ProfileDescriptor) : RemoteCoordinator E where
  profile
  plan := none
  properties := none
  configurationLimits := .default
  wireCodecLimits := .default
  workers := ∅
  configAcks := ∅
  phase := .idle
  failurePolicy := .continues
  runId := none
  lastRunId := none
  consumedRunIds := ∅
  consumedRunOrder := []
  configuredThreads := 0
  senderMode := none
  sender := none
  batchTimeMs := none
  accepted := ∅
  acceptedSizes := ∅
  sampleRequests := ∅
  acceptedBytes := 0
  arrivalOrder := []
  maxSamples := 100000
  maxRetainedBytes := defaultMaxRetainedBytes
  retryPolicy := .default
  stopCause := none
  stopWatermarks := ∅
  controlOutbox := []
  nextRequestId := 1
  pendingRequests := ∅
  invalidRequests := ∅
  completedRequests := ∅

section

variable (codec : EventCodec E) (c : RemoteCoordinator E) (plan : PlanDescriptor)
  (properties : PropertySet) (sample : RemoteSample E) (mode : StopMode) (worker : WorkerId)
  (stage : AckStage) (message : RemoteMessage E) (runId : RunId) (threadCount : ℕ)

/-! ## Workers -/

/-- The workers whose records have the property, in the order of their identities. -/
def workersWith (p : WorkerRecord → Bool) : List WorkerId :=
  (c.workers.toList.filter (p ·.2)).map Prod.fst

def healthyWorkerCount : ℕ := (c.workersWith (·.phase ≠ .failed)).length

/-- Every worker that has not failed is in the phase. -/
def healthyAll (phase : WorkerPhase) : Bool :=
  c.workers.toList.all fun entry => entry.2.phase = .failed ∨ entry.2.phase = phase

/-- The phase of a worker that is known. -/
def phaseOf : Option WorkerPhase := c.workers[worker]?.map (·.phase)

def setWorkerPhase (phase : WorkerPhase) : RemoteCoordinator E :=
  { c with workers := c.workers.modify worker ({ · with phase }) }

/-! ## Bounded histories -/

/-- Drops the least keys while there are more than `maximum`. -/
def trimKeys {V : Type} (maximum : ℕ) (m : ExtTreeMap RequestId V) : ExtTreeMap RequestId V :=
  (m.keys.take (m.size - maximum)).foldl ExtTreeMap.erase m

def trimIds (maximum : ℕ) (s : ExtTreeSet RequestId) : ExtTreeSet RequestId :=
  (s.toList.take (s.size - maximum)).foldl ExtTreeSet.erase s

def trimSampleRequestHistory : RemoteCoordinator E :=
  { c with sampleRequests := trimKeys c.maxSamples c.sampleRequests }

def trimRequestHistory : RemoteCoordinator E :=
  trimSampleRequestHistory
    { c with
      invalidRequests := trimIds c.maxSamples c.invalidRequests
      completedRequests := trimKeys c.maxSamples c.completedRequests }

def trimConsumedRunIds : RemoteCoordinator E :=
  let (ids, order) := RemoteWorker.trimRunIds c.wireCodecLimits.maxSamples c.consumedRunIds
    c.consumedRunOrder
  { c with consumedRunIds := ids, consumedRunOrder := order }

/-! ## Requests -/

def exhausted : RemoteError := .limit "coordinator control request ID space exhausted"

/-- `ensure_control_ids`: so many identifiers are left. -/
def ensureControlIds (count : ℕ) : Except RemoteError Unit :=
  failIf (count ≠ 0 ∧ (c.nextRequestId = 0 ∨ maxControlRequestId < c.nextRequestId ∨
    maxControlRequestId < c.nextRequestId + (count - 1))) exhausted

/-- `envelope`: the message under the next identifier. -/
def envelope : Coordinating E (RemoteEnvelope E) := fun c =>
  if c.nextRequestId = 0 ∨ maxControlRequestId < c.nextRequestId then .error exhausted c
  else .ok ⟨c.nextRequestId, message⟩
    { c with
      nextRequestId := if c.nextRequestId = maxControlRequestId then 0 else c.nextRequestId + 1 }

def registerPending (envelope : RemoteEnvelope E) (worker : WorkerId) (stage : AckStage)
    (attempt : ℕ) : RemoteCoordinator E :=
  { c with
    pendingRequests := c.pendingRequests.insert envelope.requestId
      ⟨worker, stage, attempt, envelope.message⟩ }

/-- A request of a stage to a worker, at its first attempt. -/
def issue : Coordinating E (RemoteEnvelope E) := do
  let request ← envelope message
  modify (registerPending · request worker stage 1)
  return request

/-- One request of a stage to each worker. -/
def issueAll (stage : AckStage) (message : RemoteMessage E) :
    List WorkerId → Coordinating E (List (RemoteEnvelope E))
  | [] => pure []
  | worker :: rest => do
    let request ← issue worker stage message
    let requests ← issueAll stage message rest
    return request :: requests

/-- The pending requests with the property become invalid. -/
def cancelPending (p : PendingRequest E → Bool) : RemoteCoordinator E :=
  trimRequestHistory
    { c with
      pendingRequests := c.pendingRequests.filter fun _ request => !p request
      invalidRequests := ((c.pendingRequests.toList.filter (p ·.2)).map Prod.fst).foldl
        ExtTreeSet.insert c.invalidRequests }

def cancelAllPendingRequests : RemoteCoordinator E := c.cancelPending fun _ => true

def cancelPendingStopRequests : RemoteCoordinator E := c.cancelPending (·.stage = .stopped)

def cancelPendingStartRequests : RemoteCoordinator E := c.cancelPending (·.stage = .started)

def retryRequest (requestId : RequestId) : Coordinating E (RemoteEnvelope E) := fun c =>
  match c.pendingRequests[requestId]? with
  | none => .error (.state "request is not pending or has already been completed") c
  | some pending =>
    if c.retryPolicy.maxAttempts ≤ pending.attempt then
      .error (.limit "request retry attempt bound exhausted") c
    else
      -- The request is out of the table while the identifier is taken, and back if there is none.
      match envelope pending.message
          { c with pendingRequests := c.pendingRequests.erase requestId } with
      | .error e c => .error e
          { c with pendingRequests := c.pendingRequests.insert requestId pending }
      | .ok replacement c =>
        let c := trimRequestHistory
          { c with invalidRequests := c.invalidRequests.insert requestId }
        .ok replacement
          (c.registerPending replacement pending.worker pending.stage (pending.attempt + 1))

/-! ## Phases -/

/-- The sequences of a worker that were accepted. -/
def acceptedOf : List ℕ := (c.accepted.keys.filter (·.worker = worker)).map SampleKey.sequence

/-- `stop_watermark_satisfied`: as many samples as the watermark says, all of them below it. -/
def stopWatermarkSatisfied (watermark : ℕ) : Bool :=
  (c.acceptedOf worker).all (· < watermark) && (c.acceptedOf worker).length = watermark

def advanceGracefulStopWorkers : RemoteCoordinator E :=
  match c.stopCause with
  | some (.user _) =>
    { c with
      workers := c.workers.map fun worker record =>
        if record.phase = .stopping ∧
            c.stopWatermarks[worker]?.any (c.stopWatermarkSatisfied worker) then
          { record with phase := .stopped }
        else record }
  | _ => c

/-- One step of `remove_discarded_samples`. -/
def removeDiscarded : RemoteCoordinator E :=
  let c := { c with sampleRequests := c.sampleRequests.filter fun _ key => key ≠ sample.key }
  if c.accepted.contains sample.key then
    { c with
      accepted := c.accepted.erase sample.key
      acceptedSizes := c.acceptedSizes.erase sample.key
      acceptedBytes := c.acceptedBytes - c.acceptedSizes[sample.key]?.getD 0 }
  else c

def removeDiscardedSamples (discarded : List (RemoteSample E)) : RemoteCoordinator E :=
  let c := discarded.foldl removeDiscarded c
  { c with arrivalOrder := c.arrivalOrder.filter (· ∉ discarded.map RemoteSample.key) }

/-- The sender is aborted and what it drops is no longer accepted. -/
def abortSender : RemoteCoordinator E :=
  match c.sender with
  | none => c.removeDiscardedSamples []
  | some sender =>
    let (dropped, sender) := sender.abort
    { c with sender := some sender }.removeDiscardedSamples dropped

/-- Every healthy worker has stopped: the sender is flushed, or aborted if the stop was not
graceful. -/
def finishStop : RemoteCoordinator E :=
  match c.stopCause with
  | some .failFast => { c.abortSender with phase := .failed }
  | some (.user .immediate) => { c.abortSender with phase := .stopped }
  | _ => { c with sender := c.sender.map SampleSender.flushPending, phase := .stopped }

def recomputePhaseAfterConfiguration : RemoteCoordinator E :=
  if c.phase = .configuring ∧ c.healthyAll .ready ∧ 0 < c.healthyWorkerCount then
    { c with phase := .ready }
  else c

/-- `recompute_phase` for the workers as they are. -/
def recomputeFor : RemoteCoordinator E :=
  if c.healthyWorkerCount = 0 ∧ c.workers.isEmpty = false then
    { c.abortSender with phase := .failed }
  else
    match c.phase with
    | .configuring => c.recomputePhaseAfterConfiguration
    | .starting => if c.healthyAll .running then { c with phase := .running } else c
    | .stopping => if c.healthyAll .stopped then c.finishStop else c
    | _ => c

/-- What `recompute_phase` can do for the workers as they are. -/
inductive Recomputed (c : RemoteCoordinator E) : RemoteCoordinator E → Prop
  | same (hstarting : c.phase = .starting → c.healthyAll .running = false)
      (hstopping : c.phase = .stopping → c.healthyAll .stopped = false) : Recomputed c c
  | failed (hnone : c.healthyWorkerCount = 0) (hsome : c.workers.isEmpty = false) :
      Recomputed c { c.abortSender with phase := .failed }
  | ready (hphase : c.phase = .configuring) (hall : c.healthyAll .ready = true) :
      Recomputed c { c with phase := .ready }
  | running (hphase : c.phase = .starting) (hall : c.healthyAll .running = true) :
      Recomputed c { c with phase := .running }
  | finished (hphase : c.phase = .stopping) (hall : c.healthyAll .stopped = true) :
      Recomputed c c.finishStop

theorem recomputeAfter_cases :
    c.recomputePhaseAfterConfiguration = c ∨ c.phase = .configuring ∧ c.healthyAll .ready = true ∧
      c.recomputePhaseAfterConfiguration = { c with phase := .ready } := by
  unfold recomputePhaseAfterConfiguration
  split_ifs with h
  · exact .inr ⟨h.1, h.2.1, rfl⟩
  · exact .inl rfl

theorem recomputeFor_cases : Recomputed c c.recomputeFor := by
  unfold recomputeFor
  by_cases hwell : c.healthyWorkerCount = 0 ∧ c.workers.isEmpty = false
  · rw [if_pos hwell]
    exact .failed hwell.1 hwell.2
  rw [if_neg hwell]
  cases hphase : c.phase with
  | configuring =>
    rcases recomputeAfter_cases c with hsame | ⟨-, hall, hready⟩
    · rw [hsame]
      exact .same (fun h => nomatch hphase.symm.trans h) fun h => nomatch hphase.symm.trans h
    · rw [hready]
      exact .ready hphase hall
  | starting =>
    dsimp only
    split_ifs with hall
    · exact .running hphase hall
    · exact .same (fun _ => Bool.eq_false_iff.mpr hall) fun h => nomatch hphase.symm.trans h
  | stopping =>
    dsimp only
    split_ifs with hall
    · exact .finished hphase hall
    · exact .same (fun h => nomatch hphase.symm.trans h) fun _ => Bool.eq_false_iff.mpr hall
  | _ => exact .same (fun h => nomatch hphase.symm.trans h) fun h => nomatch hphase.symm.trans h

def recomputePhase : RemoteCoordinator E := c.advanceGracefulStopWorkers.recomputeFor

/-! ## Settings -/

def setFailurePolicy (policy : FailurePolicy) : RemoteCoordinator E :=
  { c with failurePolicy := policy }

def setRetryPolicy (policy : RetryPolicy) : RemoteCoordinator E :=
  { c with retryPolicy := policy }

def setConfigurationLimits (limits : RemoteConfigurationLimits) : Coordinating E Unit := do
  check fun c => do
    failIf (c.phase ≠ .idle)
      (.state "coordinator configuration limits are immutable after configuration begins")
    limits.validate
    failIf (limits.maxWorkers < c.workers.size)
      (.limit "selected workers exceed the requested bound")
    failIf (limits.maxControlEvents < c.controlOutbox.length)
      (.limit "queued control events exceed the requested bound")
    validateStaged c.plan c.properties limits
  modify fun c => { c with configurationLimits := limits }

def setCodecLimits (limits : RemoteLimits) : Coordinating E Unit := do
  check fun c => do
    failIf (c.phase ≠ .idle ∨ c.runId.isSome ∨ c.sender.isSome ∨ c.accepted.isEmpty = false)
      (.state "coordinator codec limits are immutable after a run begins")
    limits.validate
    c.profile.validateWithLimits limits
    failIf (limits.maxSamples < c.maxSamples)
      (.limit "codec sample bound is below the coordinator sample bound")
  modify fun c => { c with wireCodecLimits := limits }

/-- The sender of a coordinator, with a changed bound. -/
def boundSender (sender : Option (SampleSender E))
    (f : SampleSender E → Except RemoteError (SampleSender E)) :
    Except RemoteError (Option (SampleSender E)) :=
  match sender with
  | none => .ok none
  | some sender => some <$> f sender

def setMaxSamples (maximum : ℕ) : Coordinating E Unit := do
  let sender ← check fun c => do
    failIf (maximum = 0) (.limit "sample bound must be non-zero")
    failIf (c.wireCodecLimits.maxSamples < maximum)
      (.limit "sample bound exceeds the negotiated codec sample bound")
    failIf (maximum < c.accepted.size) (.limit "sample bound cannot be lower than retained samples")
    boundSender c.sender (·.setMaxSamples maximum)
  modify fun c => trimRequestHistory { c with sender, maxSamples := maximum }

/-- The bytes that the sender retains. -/
def senderBytes : ℕ := (c.sender.map SampleSender.retainedBytes).getD 0

def setMaxRetainedBytes (maximum : ℕ) : Coordinating E Unit := do
  let sender ← check fun c => do
    let total ← need (.limit "retained sample-byte bound overflowed")
      (checkedAdd usizeMax c.acceptedBytes c.senderBytes)
    failIf (maximum = 0 ∨ maximum < total)
      (.limit "retained sample-byte bound must cover accepted and sender samples")
    boundSender c.sender fun sender =>
      if maximum - c.acceptedBytes = 0 then
        if sender.retainedBytes ≠ 0 then
          .error (.limit "retained sample-byte bound leaves no room for sender data")
        else .ok sender
      else sender.setMaxRetainedBytes (maximum - c.acceptedBytes)
  modify fun c => { c with sender, maxRetainedBytes := maximum }

def setBatchTimeMs (threshold : ℕ) : Coordinating E Unit := fun c =>
  if threshold = 0 then .error (.limit "batch time threshold must be non-zero") c
  else .ok () { c with batchTimeMs := some threshold }

def drainControlMessages : List (RemoteEnvelope E) × RemoteCoordinator E :=
  (c.controlOutbox, { c with controlOutbox := [] })

def addWorker : Coordinating E Unit := do
  check fun c => do
    failIf (c.phase ≠ .idle) (.state "workers are immutable after configuration begins")
    failIf (c.workers.contains worker) (.protocol "worker identity is duplicated")
    failIf (c.configurationLimits.maxWorkers ≤ c.workers.size)
      (.limit "remote worker bound exhausted")
  modify fun c =>
    { c with
      workers := c.workers.insert worker ⟨.idle, 0⟩
      configAcks := c.configAcks.insert worker [] }

/-! ## Configuration -/

/-- The checks of `configure`.  The result lists the healthy workers. -/
def checkConfigure (c : RemoteCoordinator E) : Except RemoteError (List WorkerId) := do
  c.profile.validateWithLimits c.wireCodecLimits
  c.configurationLimits.validate
  validateConfiguration plan properties c.configurationLimits
  failIf (¬ (c.phase = .idle ∨ c.phase = .stopped))
    (.state "configuration can only begin from idle or stopped")
  failIf (c.phase = .stopped ∧
      c.sender.any fun sender => sender.pending.length ≠ 0 || !sender.delivered.isEmpty)
    (.state "drain delivered samples before starting a new configuration")
  failIf (c.pendingRequests.isEmpty = false)
    (.state "complete pending lifecycle acknowledgements before reconfiguration")
  failIf (c.workers.isEmpty) (.state "no remote workers selected")
  let workers := c.workersWith (·.phase ≠ .failed)
  failIf (workers.isEmpty) (.state "no healthy remote workers selected")
  let count ← need (.limit "configuration request count overflowed")
    (checkedMul usizeMax workers.length 3)
  c.ensureControlIds count
  return workers

/-- The run and everything about it is forgotten. -/
def beginConfiguration : RemoteCoordinator E :=
  { c with
    plan := some plan
    properties := some properties
    runId := none
    configuredThreads := 0
    senderMode := none
    sender := none
    accepted := ∅
    acceptedSizes := ∅
    sampleRequests := ∅
    acceptedBytes := 0
    arrivalOrder := []
    pendingRequests := ∅
    stopCause := none
    stopWatermarks := ∅
    controlOutbox := []
    phase := .configuring }

/-- A worker begins its configuration. -/
def resetWorker : RemoteCoordinator E :=
  { c with
    workers := c.workers.modify worker fun record =>
      if record.phase = .failed then record else ⟨.idle, 0⟩
    configAcks := c.configAcks.insert worker [] }

/-- Profile, plan and properties for each worker. -/
def configureWorkers (profile : ProfileDescriptor) (plan : PlanDescriptor)
    (properties : PropertySet) : List WorkerId → Coordinating E (List (RemoteEnvelope E))
  | [] => pure []
  | worker :: rest => do
    let profileMessage ← issue worker .profile (.profile profile)
    let planMessage ← issue worker .plan (.plan plan)
    let propertiesMessage ← issue worker .properties (.properties properties)
    modify (resetWorker · worker)
    let messages ← configureWorkers profile plan properties rest
    return profileMessage :: planMessage :: propertiesMessage :: messages

def configure : Coordinating E (List (RemoteEnvelope E)) := do
  let workers ← check (checkConfigure plan properties)
  modify (beginConfiguration · plan properties)
  let c ← get
  configureWorkers c.profile plan properties workers

/-- The stages of a complete configuration. -/
def configured (stages : List AckStage) : Bool :=
  AckStage.profile ∈ stages ∧ AckStage.plan ∈ stages ∧ AckStage.properties ∈ stages

def configurationComplete : Coordinating E Unit := do
  check fun c => do
    let stages ← need (.protocol "unknown worker configuration") c.configAcks[worker]?
    failIf (¬ configured stages) (.state "worker configuration acknowledgements are incomplete")
    let _ ← need (.protocol "unknown worker") c.workers[worker]?
  modify fun c => recomputePhaseAfterConfiguration
    (if c.phaseOf worker = some .idle then c.setWorkerPhase worker .ready else c)

/-! ## Starting and stopping -/

def senderFor (mode : SampleSenderMode) (supported : mode.executionSupported = true) :
    Except RemoteError (SampleSender E) := do
  let config ← need (.limit "coordinator sender codec limits are invalid")
    (SenderConfig.fromLimitsAndCodec mode supported (mode.capacity.getD 4096) c.wireCodecLimits)
  let config ← need (.limit "coordinator sender sample bound is invalid")
    (config.withMaxSamples c.maxSamples)
  let config ← need (.limit "coordinator sender retained-byte bound is invalid")
    (config.withMaxRetainedBytes c.maxRetainedBytes)
  let config ← need (.limit "batch time threshold must be non-zero")
    (config.withBatchTimeMs c.batchTimeMs)
  return .new config

/-- The checks of `start`.  The result lists the workers that start and their sender. -/
def checkStart (mode : SampleSenderMode) (c : RemoteCoordinator E) :
    Except RemoteError (List WorkerId × SampleSender E) := do
  validateRunId runId
  failIf (c.phase ≠ .ready) (.state "start requires ready workers")
  failIf (c.lastRunId = some runId)
    (.state "run generation is stale or already consumed by the coordinator")
  failIf (c.consumedRunIds.contains runId)
    (.state "run generation was already consumed by the coordinator")
  failIf (threadCount = 0) (.limit "thread count must be non-zero")
  if supported : mode.executionSupported = true then do
    failIf mode.hasZeroBound (.limit "sender mode bound must be non-zero")
    let workers := c.workersWith (·.phase = .ready)
    c.ensureControlIds workers.length
    let sender ← c.senderFor mode supported
    return (workers, sender)
  else .error mode.unsupportedError

def beginRun (mode : SampleSenderMode) (sender : SampleSender E) : RemoteCoordinator E :=
  { trimConsumedRunIds
      { c with
        runId := some runId
        lastRunId := some runId
        consumedRunIds := c.consumedRunIds.insert runId
        consumedRunOrder :=
          if c.consumedRunIds.contains runId then c.consumedRunOrder
          else c.consumedRunOrder ++ [runId] } with
    configuredThreads := threadCount
    senderMode := some mode
    sender := some sender
    accepted := ∅
    acceptedSizes := ∅
    sampleRequests := ∅
    acceptedBytes := 0
    arrivalOrder := []
    stopCause := none
    stopWatermarks := ∅
    phase := .starting }

def start (runId : RunId) (threadCount : ℕ) (mode : SampleSenderMode) :
    Coordinating E (List (RemoteEnvelope E)) := do
  let (workers, sender) ← check (checkStart runId threadCount mode)
  modify (beginRun · runId threadCount mode sender)
  issueAll .started (.start runId threadCount mode) workers

/-- The stop is more severe than the one that is going on. -/
def escalates : Bool :=
  match c.stopCause with
  | some (.user previous) => previous.severity < mode.severity
  | _ => false

/-- The workers that a stop goes to: while the run is starting, those that have not started too. -/
def stopsWorker (starting : Bool) (record : WorkerRecord) : Bool :=
  (starting ∧ record.phase = .ready) ∨ record.phase = .running ∨ record.phase = .stopping

/-- The records that wait for their watermark. -/
def awaitsWatermark (starting : Bool) (record : WorkerRecord) : Bool :=
  if starting then record.phase = .ready
  else record.phase = .running ∨ record.phase = .stopping

/-- The requests that a stop makes obsolete. -/
def cancelForStop : RemoteCoordinator E :=
  let started := if c.phase = .starting then c.cancelPendingStartRequests else c
  if c.escalates mode then started.cancelPendingStopRequests else started

/-- The changes of `stop` before its requests. -/
def beginStop : RemoteCoordinator E :=
  { c.cancelForStop mode with
    stopCause := if c.stopCause = none ∨ c.escalates mode then some (.user mode) else c.stopCause
    phase := .stopping
    workers := c.workers.map fun _ record =>
      if awaitsWatermark (c.phase = .starting) record then { record with phase := .stopping }
      else record }

/-- The checks of `stop`.  The result is the run and the workers the requests go to, or nothing if a
stop as severe is going on. -/
def checkStop (c : RemoteCoordinator E) : Except RemoteError (Option (RunId × List WorkerId)) := do
  let runId ← need (.state "no active remote run") c.runId
  failIf (¬ (c.phase = .starting ∨ c.phase = .running ∨ c.phase = .stopping))
    (.state "stop requires an active remote run")
  failIf (c.phase = .starting ∧ mode ≠ .immediate)
    (.state "only immediate stop is valid while workers are starting")
  if c.phase = .stopping ∧ c.escalates mode = false then return none
  else do
    let workers := c.workersWith (stopsWorker (c.phase = .starting))
    c.ensureControlIds workers.length
    return some (runId, workers)

def stop (mode : StopMode) : Coordinating E (List (RemoteEnvelope E)) := do
  match ← check (checkStop mode) with
  | none => return []
  | some (runId, workers) =>
    modify (beginStop · mode)
    let messages ← issueAll .stopped (.stop runId mode) workers
    modify recomputePhase
    return messages

/-! ## Samples -/

/-- The checks of `record_sample` on the run and the worker. -/
def checkSample (c : RemoteCoordinator E) : Except RemoteError Unit := do
  validateRunId sample.runId
  failIf (¬ (c.phase = .running ∨ c.phase = .stopping))
    ⟨.cancelled, false, "sample arrived after the coordinator stopped accepting results"⟩
  failIf (c.runId ≠ some sample.runId) (.protocol "sample run does not match coordinator run")
  let record ← need (.protocol "sample came from an unknown worker") c.workers[sample.key.worker]?
  failIf (record.phase = .failed) ⟨.cancelled, false, "sample came from a failed worker"⟩
  failIf (c.stopWatermarks[sample.key.worker]?.any (· ≤ sample.key.sequence))
    ⟨.cancelled, false, "sample arrived beyond the worker stop watermark"⟩
  failIf (¬ (record.phase = .running ∨ record.phase = .stopping ∨ record.phase = .stopped))
    (.state "sample came from a worker that did not start")

/-- What a sample takes: its own bytes, all accepted bytes with it, the sender and the bytes that
are left for the sender. -/
structure Budget (E : Type) where
  sampleBytes : ℕ
  retainedBytes : ℕ
  sender : SampleSender E
  senderLimit : ℕ

/-- The checks of `record_sample` on the bounds. -/
def checkBudget (c : RemoteCoordinator E) : Except RemoteError (Budget E) := do
  failIf (c.maxSamples ≤ c.accepted.size) (.limit "coordinator sample bound exhausted")
  let requestId ← sampleEnvelopeRequestId sample.key.worker 1
  let sampleBytes ← codec.encodedSampleLen c.wireCodecLimits requestId sample
  let retainedBytes ← need (.limit "coordinator retained sample-byte bound overflowed")
    (checkedAdd usizeMax c.acceptedBytes sampleBytes)
  failIf (c.maxRetainedBytes < retainedBytes)
    (.limit "coordinator retained sample-byte bound exhausted")
  let sender ← need (.state "sample sender is not configured") c.sender
  let senderLimit := c.maxRetainedBytes - retainedBytes
  failIf (senderLimit = 0 ∨ senderLimit < sender.retainedBytes)
    (.limit "coordinator sender-byte budget exhausted")
  return ⟨sampleBytes, retainedBytes, sender, senderLimit⟩

/-- The text of an error. -/
def display (e : RemoteError) : String :=
  e.code.asStr ++ " (retryable=" ++ toString e.retryable ++ ", message_len=" ++
    toString e.message.utf8ByteSize ++ ")"

/-- The sender takes the sample within its share of the bytes; if it refuses, it gets its old bound
back. -/
def sendWithin [DecidableEq E] (codec : EventCodec E) (sample : RemoteSample E)
    (sender : SampleSender E) (senderLimit : ℕ) :
    Except (RemoteError × SampleSender E) (SendOutcome × SampleSender E) :=
  match sender.setMaxRetainedBytes senderLimit with
  | .error e => .error (e, sender)
  | .ok bounded =>
    match bounded.send codec sample with
    | .ok sent => .ok sent
    | .error e =>
      match bounded.setMaxRetainedBytes sender.config.maxRetainedBytes with
      | .ok restored => .error (e, restored)
      | .error restore => .error (⟨.internal, false,
          "failed to restore coordinator sender-byte budget after rejection: " ++
            display restore⟩, bounded)

def acceptSample (budget : Budget E) (sender : SampleSender E) : RemoteCoordinator E :=
  { c with
    sender := some sender
    accepted := c.accepted.insert sample.key sample
    acceptedSizes := c.acceptedSizes.insert sample.key budget.sampleBytes
    acceptedBytes := budget.retainedBytes
    arrivalOrder := c.arrivalOrder ++ [sample.key] }

def recordSample [DecidableEq E] (codec : EventCodec E) (sample : RemoteSample E) :
    Coordinating E RecordOutcome := fun c =>
  match c.checkSample sample with
  | .error e => .error e c
  | .ok () =>
    match c.accepted[sample.key]? with
    | some previous =>
      if previous = sample then .ok .duplicate c
      else .error ⟨.conflictingDuplicate, false,
        "sample key " ++ sample.key.debug ++ " changed contents"⟩ c
    | none =>
      match c.checkBudget codec sample with
      | .error e => .error e c
      | .ok budget =>
        match sendWithin codec sample budget.sender budget.senderLimit with
        | .error (e, sender) => .error e { c with sender := some sender }
        | .ok (outcome, sender) =>
          .ok (.accepted outcome) (c.acceptSample sample budget sender).recomputePhase

/-- What `record_sample` can do. -/
inductive Recorded [DecidableEq E] (codec : EventCodec E) (sample : RemoteSample E)
    (c : RemoteCoordinator E) :
    EStateM.Result RemoteError (RemoteCoordinator E) RecordOutcome → Prop
  | refused (e : RemoteError) : Recorded codec sample c (.error e c)
  | duplicate (hcheck : c.checkSample sample = .ok ())
      (hsame : c.accepted[sample.key]? = some sample) :
      Recorded codec sample c (.ok .duplicate c)
  | unsent (e : RemoteError) {budget : Budget E} {sender : SampleSender E}
      (hbudget : c.checkBudget codec sample = .ok budget)
      (hsend : sendWithin codec sample budget.sender budget.senderLimit = .error (e, sender)) :
      Recorded codec sample c (.error e { c with sender := some sender })
  | accepted (outcome : SendOutcome) {budget : Budget E} {sender : SampleSender E}
      (hcheck : c.checkSample sample = .ok ()) (hnew : c.accepted[sample.key]? = none)
      (hbudget : c.checkBudget codec sample = .ok budget)
      (hsend : sendWithin codec sample budget.sender budget.senderLimit = .ok (outcome, sender)) :
      Recorded codec sample c
        (.ok (.accepted outcome) (c.acceptSample sample budget sender).recomputePhase)

theorem recordSample_cases [DecidableEq E] (codec : EventCodec E) (sample : RemoteSample E)
    (c : RemoteCoordinator E) : Recorded codec sample c (recordSample codec sample c) := by
  unfold recordSample
  cases hcheck : c.checkSample sample with
  | error e => exact .refused e
  | ok _ =>
    cases hprevious : c.accepted[sample.key]? with
    | some previous =>
      dsimp only
      split_ifs with hsame
      · exact .duplicate hcheck (hsame ▸ hprevious)
      · exact .refused _
    | none =>
      cases hbudget : c.checkBudget codec sample with
      | error e => exact .refused e
      | ok budget =>
        dsimp only
        cases hsend : sendWithin codec sample budget.sender budget.senderLimit with
        | error failure => exact .unsent failure.1 hbudget hsend
        | ok sent => exact .accepted sent.1 hcheck hprevious hbudget hsend

def drainDeliveredSamples : List (RemoteSample E) × RemoteCoordinator E :=
  match c.sender with
  | none => ([], c)
  | some sender =>
    let (delivered, sender) := sender.drainDelivered
    (delivered, { c with sender := some sender })

def advanceTime (nowMs : ℕ) : Coordinating E (List (RemoteSample E)) := fun c =>
  if ¬ (c.phase = .running ∨ c.phase = .stopping ∨ c.phase = .stopped) then
    .error (.state "coordinator time can advance only for an active run") c
  else
    match c.sender with
    | none => .error (.state "sample sender is not configured") c
    | some sender =>
      match sender.advanceTime nowMs with
      | .error e => .error e c
      | .ok (delivered, sender) => .ok delivered { c with sender := some sender }

theorem time_cases (nowMs : ℕ) (c : RemoteCoordinator E) :
    (∃ e, advanceTime nowMs c = .error e c) ∨ ∃ sender delivered sender', c.sender = some sender ∧
        sender.advanceTime nowMs = .ok (delivered, sender') ∧
        advanceTime nowMs c = .ok delivered { c with sender := some sender' } := by
  unfold advanceTime
  split_ifs
  · split
    · exact .inl ⟨_, rfl⟩
    · next sender hsender =>
      split
      · exact .inl ⟨_, rfl⟩
      · next hadvance => exact .inr ⟨sender, _, _, hsender, hadvance, rfl⟩
  · exact .inl ⟨_, rfl⟩

end

/-! ## Acknowledgements -/

/-- The fields of an acknowledgement. -/
structure Acknowledgement where
  requestId : RequestId
  worker : WorkerId
  stage : AckStage
  runId : Option RunId
  threadCount : Option ℕ
  watermark : Option ℕ

def Acknowledgement.completed (ack : Acknowledgement) : CompletedRequest :=
  ⟨ack.worker, ack.stage, ack.runId, ack.threadCount, ack.watermark⟩

variable (codec : EventCodec E) (requestId : RequestId) (ack : Acknowledgement)
  (c : RemoteCoordinator E) (sample : RemoteSample E) (worker : WorkerId) (runId : Option RunId)

/-- The checks of `apply_ack` on the request.  The result is whether it is completed already. -/
def checkRequest : Except RemoteError Bool :=
  if c.invalidRequests.contains ack.requestId then
    .error ⟨.cancelled, false, "ack belongs to a cancelled or superseded request"⟩
  else if c.phaseOf ack.worker = some .failed then
    .error ⟨.cancelled, false, "ack came from a failed worker"⟩
  else
    match c.completedRequests[ack.requestId]? with
    | some completed =>
      if completed = ack.completed then .ok true
      else .error (.protocol "ack request ID was reused by another worker")
    | none =>
      match c.pendingRequests[ack.requestId]? with
      | none => .error (.protocol "ack request ID is unknown")
      | some pending =>
        if pending.worker ≠ ack.worker ∨ pending.stage ≠ ack.stage then
          .error (.protocol "ack does not match its request ID")
        else if c.workers.contains ack.worker = false then
          .error (.protocol "ack came from an unknown worker")
        else .ok false

/-- `config_acks.entry(worker).or_default()`. -/
def withConfigEntry : RemoteCoordinator E :=
  { c with configAcks := c.configAcks.insertIfNew worker [] }

/-- The stages that precede one. -/
def requiredStages : AckStage → List AckStage
  | .plan => [.profile]
  | .properties => [.profile, .plan]
  | _ => []

/-- A stage of the configuration is acknowledged; with the last one the worker is ready. -/
def noteConfigured (stages : List AckStage) : RemoteCoordinator E :=
  let c := { c with configAcks := c.configAcks.insert worker stages }
  if configured stages then c.setWorkerPhase worker .ready else c

/-- An acknowledgement of the profile, the plan or the properties. -/
def ackConfiguration : Coordinating E Unit := fun c =>
  if c.phase ≠ .configuring then
    .error (.state "configuration ack arrived outside configuring") c
  else if ack.runId.isSome ∨ ack.threadCount.isSome ∨ ack.watermark.isSome then
    .error (.protocol "configuration ack carried run-scoped fields") c
  else
    let c := c.withConfigEntry ack.worker
    let stages := c.configAcks[ack.worker]?.getD []
    if ¬ ∀ stage ∈ requiredStages ack.stage, stage ∈ stages then
      .error (.state "configuration acknowledgement arrived out of order") c
    else .ok () (c.noteConfigured ack.worker (stages.insert ack.stage))

/-- The checks of a start acknowledgement. -/
def checkStarted : Except RemoteError Unit := do
  ifSome ack.runId validateRunId
  failIf (c.phase ≠ .starting ∨ ack.runId ≠ c.runId ∨
      ack.threadCount ≠ some c.configuredThreads ∨ ack.watermark.isSome)
    (.state "start ack does not match coordinator start")

def noteStarted : RemoteCoordinator E :=
  { c with workers := c.workers.modify worker fun _ => ⟨.running, c.configuredThreads⟩ }

/-- The checks of a stop acknowledgement.  The result is its watermark. -/
def checkStopped : Except RemoteError ℕ := do
  ifSome ack.runId validateRunId
  failIf (ack.runId ≠ c.runId ∨ ack.watermark.isNone)
    (.protocol "stop ack must carry the active run and sample watermark")
  let watermark ← need (.protocol "stop ack sample watermark is missing") ack.watermark
  failIf (c.maxSamples < watermark)
    (.limit "stop ack sample watermark exceeds coordinator sample bound")
  failIf (¬ ∀ sequence ∈ c.acceptedOf ack.worker, sequence < watermark)
    (.protocol "stop ack watermark precedes an accepted worker sample")
  let prestart := c.workers[ack.worker]?.any (·.threadCount = 0) ∧ ack.threadCount = some 0
  let workerStopped := c.phaseOf ack.worker = some .stopped
  failIf (¬ (c.phase = .stopping ∨ (c.phase = .stopped ∧ workerStopped)) ∨ ack.runId ≠ c.runId ∨
      (¬ prestart ∧ ack.threadCount ≠ some c.configuredThreads))
    (.state "stop ack does not match coordinator stop")
  return watermark

/-- The watermark is kept; a worker whose samples have all arrived has stopped. -/
def noteStopped (watermark : ℕ) : RemoteCoordinator E :=
  let c := { c with stopWatermarks := c.stopWatermarks.insert worker watermark }
  if c.stopWatermarkSatisfied worker watermark then c.setWorkerPhase worker .stopped else c

def ackStage : Coordinating E Unit :=
  match ack.stage with
  | .profile | .plan | .properties => ackConfiguration ack
  | .started => do
    check (checkStarted ack)
    modify (noteStarted · ack.worker)
  | .stopped => do
    let watermark ← check (checkStopped ack)
    modify (noteStopped · ack.worker watermark)

/-- What the part of `apply_ack` that depends on the stage can do. -/
inductive Acked (ack : Acknowledgement) (c : RemoteCoordinator E) :
    EStateM.Result RemoteError (RemoteCoordinator E) Unit → Prop
  | refused (e : RemoteError) : Acked ack c (.error e c)
  | early (e : RemoteError) (hphase : c.phase = .configuring) :
      Acked ack c (.error e (c.withConfigEntry ack.worker))
  | configured (stages : List AckStage) (hstage : ack.stage ≠ .started ∧ ack.stage ≠ .stopped)
      (hphase : c.phase = .configuring) :
      Acked ack c (.ok () ((c.withConfigEntry ack.worker).noteConfigured ack.worker stages))
  | started (hstage : ack.stage = .started) (hcheck : c.checkStarted ack = .ok ()) :
      Acked ack c (.ok () (c.noteStarted ack.worker))
  | stopped (watermark : ℕ) (hstage : ack.stage = .stopped)
      (hcheck : c.checkStopped ack = .ok watermark) :
      Acked ack c (.ok () (c.noteStopped ack.worker watermark))

theorem ackConfig_cases {ack : Acknowledgement}
    (hstage : ack.stage ≠ .started ∧ ack.stage ≠ .stopped) (c : RemoteCoordinator E) :
    Acked ack c (ackConfiguration ack c) := by
  unfold ackConfiguration
  by_cases hphase : c.phase = .configuring
  · rw [if_neg (not_not.mpr hphase)]
    dsimp only
    split_ifs
    · exact .refused _
    · exact .configured _ hstage hphase
    · exact .early _ hphase
  · rw [if_pos hphase]
    exact .refused _

theorem ackStage_cases : Acked ack c (ackStage ack c) := by
  unfold ackStage
  cases hstage : ack.stage with
  | started => exact run_check_bind (fun e _ => .refused e) fun _ hcheck => .started hstage hcheck
  | stopped =>
    exact run_check_bind (fun e _ => .refused e) fun watermark hcheck =>
      .stopped watermark hstage hcheck
  | _ => exact ackConfig_cases (by rw [hstage]; exact ⟨nofun, nofun⟩) c

def complete (ack : Acknowledgement) : RemoteCoordinator E :=
  let c := c.recomputePhase.recomputePhaseAfterConfiguration
  trimRequestHistory
    { c with
      pendingRequests := c.pendingRequests.erase ack.requestId
      completedRequests := c.completedRequests.insert ack.requestId ack.completed }

def applyAck : Coordinating E Unit := do
  let completed ← check (checkRequest ack)
  if completed then return ()
  else do
    ackStage ack
    modify (complete · ack)

/-! ## Failures -/

/-- The stop requests of a fast failure still fit. -/
def ensureFailFastStopCapacity (excluding : Option WorkerId) : Except RemoteError Unit :=
  if c.stopCause = some .failFast ∨ c.runId.isNone ∨
      ¬ (c.phase = .starting ∨ c.phase = .running ∨ c.phase = .stopping) then .ok ()
  else do
    let count := ((c.workersWith (stopsWorker true)).filter (some · ≠ excluding)).length
    c.ensureControlIds count
    let required ← need (.limit "fail-fast control outbox length overflowed")
      (checkedAdd usizeMax c.controlOutbox.length count)
    failIf (c.configurationLimits.maxControlEvents < required)
      (.limit "fail-fast control outbox bound exhausted")

/-- The checks of `begin_fail_fast_stop` for a run that is going on. -/
def checkFailFast : Except RemoteError (RunId × List WorkerId) := do
  c.ensureFailFastStopCapacity none
  let runId ← need (.state "fail-fast stop has no run") c.runId
  let workers := c.workersWith (stopsWorker true)
  c.ensureControlIds workers.length
  return (runId, workers)

/-- The stop requests of a fast failure, each of them put into the outbox. -/
def issueFailFast (runId : RunId) : List WorkerId → Coordinating E Unit
  | [] => pure ()
  | worker :: rest => do
    let stop ← issue worker .stopped (.stop runId .immediate)
    modify fun c => { c with controlOutbox := c.controlOutbox ++ [stop] }
    issueFailFast runId rest

/-- The records of workers that had not started wait for the stop. -/
def endFailFast : RemoteCoordinator E :=
  let c : RemoteCoordinator E :=
    { c with
      workers := c.workers.map fun _ record =>
        if record.phase = .ready then { record with phase := .stopping } else record }
  if c.healthyAll .stopped then { c with phase := .failed } else c

def beginFailFastStop : Coordinating E Unit := fun c =>
  if c.stopCause = some .failFast then .ok () c
  else if c.runId.isNone ∨ ¬ (c.phase = .starting ∨ c.phase = .running ∨ c.phase = .stopping) then
    .ok () { c with phase := .failed }
  else
    match c.checkFailFast with
    | .error e => .error e c
    | .ok (runId, workers) =>
      (do issueFailFast runId workers; modify endFailFast : Coordinating E Unit)
        { c with stopCause := some .failFast, phase := .stopping }

/-- The checks of `fail_worker`.  The result is whether the worker has failed already. -/
def checkFailure (c : RemoteCoordinator E) : Except RemoteError Bool := do
  ifSome runId validateRunId
  failIf (runId ≠ c.runId) ⟨.cancelled, false, "failure belongs to a stale remote run generation"⟩
  failIf ((c.phase = .stopped ∨ c.phase = .failed) ∧ c.workers[worker]?.any (·.phase ≠ .failed))
    ⟨.cancelled, false, "failure arrived after the coordinator reached a terminal state"⟩
  failIf (c.phaseOf worker = some .stopped)
    ⟨.cancelled, false, "failure arrived after the worker reached a terminal state"⟩
  let phase ← need (.protocol "failure came from an unknown worker") (c.phaseOf worker)
  if phase = .failed then return true
  else do
    if c.failurePolicy = .failFast then c.ensureFailFastStopCapacity (some worker) else pure ()
    return false

def failWorker : Coordinating E Unit := do
  let failed ← check (checkFailure worker runId)
  if failed then return ()
  else do
    modify fun c => (c.setWorkerPhase worker .failed).cancelPending (·.worker = worker)
    let c ← get
    if c.failurePolicy = .failFast ∧ c.stopCause ≠ some .failFast then do
      modify cancelAllPendingRequests
      beginFailFastStop
    else modify recomputePhase

def workerFailed : Coordinating E Unit := do
  let c ← get
  failWorker worker c.runId

def workerFailedForRun (runId : RunId) : Coordinating E Unit := failWorker worker (some runId)

/-! ## Messages of the workers -/

/-- The identifier of a message is in the namespace of its kind. -/
def wrongNamespace (message : RemoteEnvelope E) : Bool :=
  message.requestId = 0 ||
    match message.message with
    | .sample _ => !isSampleEnvelopeRequestId message.requestId
    | _ => usesSampleEnvelopeNamespace message.requestId

/-- The checks on the identifier of a sample. -/
def checkSampleRequest (c : RemoteCoordinator E) : Except RemoteError Unit := do
  failIf (sampleEnvelopeWorker requestId ≠ some sample.key.worker)
    (.protocol "sample envelope request ID does not identify its worker")
  failIf (c.sampleRequests[requestId]?.any (· ≠ sample.key))
    (.protocol "sample envelope request ID was reused for another sample")

def applySample [DecidableEq E] (codec : EventCodec E) (requestId : RequestId)
    (sample : RemoteSample E) : Coordinating E (Option RecordOutcome) := do
  check (checkSampleRequest requestId sample)
  let outcome ← recordSample codec sample
  modify fun c => trimSampleRequestHistory
    { c with sampleRequests := c.sampleRequests.insert requestId sample.key }
  return some outcome

/-- A message of a kind that workers send. -/
def handle [DecidableEq E] (codec : EventCodec E) (requestId : RequestId) :
    RemoteMessage E → Coordinating E (Option RecordOutcome)
  | .ack worker stage runId threadCount watermark => do
    applyAck ⟨requestId, worker, stage, runId, threadCount, watermark⟩
    return none
  | .sample sample => applySample codec requestId sample
  | .failure worker runId _ => do
    failWorker worker runId
    return none
  | _ => throw (.state "coordinator received a worker-invalid message")

def apply [DecidableEq E] (codec : EventCodec E) (message : RemoteEnvelope E) :
    Coordinating E (Option RecordOutcome) :=
  if wrongNamespace message then
    throw (.protocol "coordinator message used an invalid request ID namespace")
  else handle codec message.requestId message.message

end RemoteCoordinator

end JmeterRs.Remote
