import JmeterRs.Remote.Sender

/-!
# The worker

`RemoteWorker` is configured by a profile, a plan and properties, runs, emits samples through its
sender and stops.  A method on `&mut self` is a computation on the worker; on an error the worker
keeps every write made before it.
-/

namespace JmeterRs.Remote

open Std

inductive WorkerPhase
  | idle
  | ready
  | running
  | stopping
  | stopped
  | failed
  deriving DecidableEq

/-! ## Local resources -/

/-- The references available on a worker, as pairs of path and kind, and of name and version. -/
structure WorkerResources where
  dataReferences : List (String × String)
  dependencies : List (String × String)
  limits : RemoteConfigurationLimits

namespace WorkerResources

def new : WorkerResources := ⟨[], [], .default⟩

variable (resources : WorkerResources) (limits : RemoteConfigurationLimits)

def resourceBytes : Except RemoteError ℕ := do
  let overflow := .limit "worker resource bytes overflowed"
  let data ← pairBytes overflow resources.dataReferences
  let dependencies ← pairBytes overflow resources.dependencies
  need overflow (checkedAdd usizeMax data dependencies)

def validateWithLimits : Except RemoteError Unit := do
  limits.validate
  let count ← need (.limit "worker resource count overflowed")
    (checkedAdd usizeMax resources.dataReferences.length resources.dependencies.length)
  -- The bytes are only counted if the number of entries is within its bound.
  failIf (limits.maxResourceEntries < count) (.limit "worker resources exceed the requested bounds")
  let bytes ← resources.resourceBytes
  failIf (limits.maxResourceBytes < bytes) (.limit "worker resources exceed the requested bounds")

def setLimits : Except RemoteError WorkerResources := do
  limits.validate
  resources.validateWithLimits limits
  return { resources with limits }

/-- Every reference of a plan is available. -/
def satisfies (plan : PlanDescriptor) : Except RemoteError Unit :=
  match plan.dataPairs.find? (· ∉ resources.dataReferences) with
  | some (path, _) => .error ⟨.capabilityUnavailable, false, "worker lacks data reference " ++ path⟩
  | none =>
    match plan.dependencyPairs.find? (· ∉ resources.dependencies) with
    | some (name, version) =>
      .error ⟨.capabilityUnavailable, false, "worker lacks dependency " ++ name ++ "@" ++ version⟩
    | none => .ok ()

end WorkerResources

/-! ## The worker and its configuration -/

structure RemoteWorker (E : Type) where
  id : WorkerId
  advertisedProfile : ProfileDescriptor
  acceptedProfile : Option ProfileDescriptor
  plan : Option PlanDescriptor
  properties : Option PropertySet
  resources : WorkerResources
  configurationLimits : RemoteConfigurationLimits
  wireCodecLimits : RemoteLimits
  phase : WorkerPhase
  runId : Option RunId
  lastRunId : Option RunId
  consumedRunIds : ExtTreeSet RunId
  consumedRunOrder : List RunId
  profileRequestId : Option RequestId
  threadCount : ℕ
  senderMode : Option SampleSenderMode
  sender : Option (SampleSender E)
  batchTimeMs : Option ℕ
  nextSequence : ℕ
  deliveredWatermark : ℕ
  nextSampleEnvelopeOrdinal : ℕ
  sampleEnvelopeIds : ExtTreeMap SampleKey RequestId
  failure : Option RemoteError

variable {E : Type}

/-- A method of the worker. -/
abbrev Working (E α : Type) := EStateM RemoteError (RemoteWorker E) α

namespace RemoteWorker

def new (id : WorkerId) (profile : ProfileDescriptor) : RemoteWorker E where
  id
  advertisedProfile := profile
  acceptedProfile := none
  plan := none
  properties := none
  resources := .new
  configurationLimits := .default
  wireCodecLimits := .default
  phase := .idle
  runId := none
  lastRunId := none
  consumedRunIds := ∅
  consumedRunOrder := []
  profileRequestId := none
  threadCount := 0
  senderMode := none
  sender := none
  batchTimeMs := none
  nextSequence := 0
  deliveredWatermark := 0
  nextSampleEnvelopeOrdinal := 1
  sampleEnvelopeIds := ∅
  failure := none

variable (w : RemoteWorker E) (requestId : RequestId) (profile : ProfileDescriptor)
  (plan : PlanDescriptor) (properties : PropertySet) (runId : RunId) (threadCount : ℕ)
  (mode : SampleSenderMode)

def setResources (resources : WorkerResources) : Working E Unit := do
  check fun w => do
    failIf (w.phase ≠ .idle)
      (.state "worker resources are immutable after configuration became ready")
    resources.validateWithLimits w.configurationLimits
    ifSome w.plan resources.satisfies
  modify fun w => { w with resources }

def setConfigurationLimits (limits : RemoteConfigurationLimits) : Working E Unit := do
  let resources ← check fun w => do
    failIf (w.phase ≠ .idle)
      (.state "worker configuration limits are immutable after configuration became ready")
    limits.validate
    validateStaged w.plan w.properties limits
    w.resources.setLimits limits
  modify fun w => { w with resources, configurationLimits := limits }

/-- Forgets the oldest runs while more than `maximum` are remembered. -/
def trimRunIds (maximum : ℕ) : ExtTreeSet RunId → List RunId → ExtTreeSet RunId × List RunId
  | ids, [] => (ids, [])
  | ids, oldest :: order =>
    if maximum < ids.size then trimRunIds maximum (ids.erase oldest) order
    else (ids, oldest :: order)

def trimConsumedRunIds : RemoteWorker E :=
  let (ids, order) := trimRunIds w.wireCodecLimits.maxSamples w.consumedRunIds w.consumedRunOrder
  { w with consumedRunIds := ids, consumedRunOrder := order }

def rememberRunId : RemoteWorker E :=
  trimConsumedRunIds
    { w with
      consumedRunIds := w.consumedRunIds.insert runId
      consumedRunOrder :=
        if w.consumedRunIds.contains runId then w.consumedRunOrder
        else w.consumedRunOrder ++ [runId] }

def setCodecLimits (limits : RemoteLimits) : Working E Unit := do
  check fun w => do
    failIf (w.phase ≠ .idle) (.state "worker codec limits are immutable after configuration began")
    limits.validate
    w.advertisedProfile.validateWithLimits limits
    ifSome w.acceptedProfile (·.validateWithLimits limits)
  modify fun w => trimConsumedRunIds { w with wireCodecLimits := limits }

def setBatchTimeMs (threshold : ℕ) : Working E Unit := fun w =>
  if threshold = 0 then .error (.limit "batch time threshold must be non-zero") w
  else .ok () { w with batchTimeMs := some threshold }

def ackWithWatermark (stage : AckStage) (runId : Option RunId) (threadCount : Option ℕ)
    (watermark : Option ℕ) : RemoteEnvelope E :=
  ⟨requestId, .ack w.id stage runId threadCount watermark⟩

def ack (stage : AckStage) (runId : Option RunId) (threadCount : Option ℕ) : RemoteEnvelope E :=
  w.ackWithWatermark requestId stage runId threadCount none

def recomputeReady : RemoteWorker E :=
  if w.acceptedProfile.isSome ∧ w.plan.isSome ∧ w.properties.isSome ∧
      (w.phase = .idle ∨ w.phase = .ready) then { w with phase := .ready }
  else w

/-! ## Configuration messages -/

/-- The checks of `accept_profile`.  The result is whether the profile is accepted already. -/
def checkProfile (w : RemoteWorker E) : Except RemoteError Bool :=
  if w.profileRequestId.any (requestId < ·) then
    .error ⟨.cancelled, false, "profile belongs to a retired configuration generation"⟩
  else do
    w.advertisedProfile.validateWithLimits w.wireCodecLimits
    profile.validateWithLimits w.wireCodecLimits
    if (w.phase = .idle ∨ w.phase = .ready) ∧ w.acceptedProfile = some profile then .ok true
    else if ¬ (w.phase = .idle ∨ w.phase = .stopped) then
      .error (.state "profile must precede a running worker")
    else if ¬ w.advertisedProfile.supports profile then
      .error ⟨.profileMismatch, false, "worker " ++ toString w.id.toNat ++
        " does not support profile " ++ profile.id⟩
    else .ok false

/-- A new configuration begins. -/
def reset : RemoteWorker E :=
  { w with
    acceptedProfile := some profile
    profileRequestId := some requestId
    plan := none
    properties := none
    runId := none
    sender := none
    senderMode := none
    nextSequence := 0
    deliveredWatermark := 0
    sampleEnvelopeIds := ∅
    threadCount := 0
    phase := .idle }

def acceptProfile : Working E (List (RemoteEnvelope E)) := fun w =>
  match w.checkProfile requestId profile with
  | .error e => .error e w
  | .ok true =>
    .ok [w.ack requestId .profile none none] { w with profileRequestId := some requestId }
  | .ok false =>
    let w := (w.reset requestId profile).recomputeReady
    .ok [w.ack requestId .profile none none] w

/-- The checks of `accept_plan`.  The result is whether the plan is staged already. -/
def checkPlan (w : RemoteWorker E) : Except RemoteError Bool :=
  if w.profileRequestId.any (requestId < ·) then
    .error ⟨.cancelled, false, "plan belongs to a retired configuration generation"⟩
  else if w.acceptedProfile.isNone ∨ ¬ (w.phase = .idle ∨ w.phase = .ready) then
    .error (.state "plan requires an accepted profile before start")
  else do
    plan.validateWithLimits w.configurationLimits
    if w.plan = some plan then .ok true
    else if w.phase = .ready then
      .error (.state "worker plan cannot change after configuration became ready")
    else do
      w.resources.satisfies plan
      .ok false

def acceptPlan : Working E (List (RemoteEnvelope E)) := fun w =>
  match w.checkPlan requestId plan with
  | .error e => .error e w
  | .ok true => .ok [w.ack requestId .plan none none] w
  | .ok false =>
    let w := { w with plan := some plan }.recomputeReady
    .ok [w.ack requestId .plan none none] w

/-- Properties are checked together with the plan, if there is one. -/
def validateForPlan (plan : Option PlanDescriptor) (properties : PropertySet)
    (limits : RemoteConfigurationLimits) : Except RemoteError Unit :=
  match plan with
  | some plan => validateConfiguration plan properties limits
  | none => properties.validateWithLimits limits

/-- The checks of `accept_properties`.  The result is whether they are staged already. -/
def checkProperties (w : RemoteWorker E) : Except RemoteError Bool :=
  if w.profileRequestId.any (requestId < ·) then
    .error ⟨.cancelled, false, "properties belong to a retired configuration generation"⟩
  else if w.acceptedProfile.isNone ∨ w.plan.isNone ∨ ¬ (w.phase = .idle ∨ w.phase = .ready) then
    .error (.state "properties require profile and plan")
  else do
    validateForPlan w.plan properties w.configurationLimits
    if w.properties = some properties then .ok true
    else if w.phase = .ready then
      .error (.state "worker properties cannot change after configuration became ready")
    else .ok false

def acceptProperties : Working E (List (RemoteEnvelope E)) := fun w =>
  match w.checkProperties requestId properties with
  | .error e => .error e w
  | .ok true => .ok [w.ack requestId .properties none none] w
  | .ok false =>
    let w := { w with properties := some properties }.recomputeReady
    .ok [w.ack requestId .properties none none] w

/-! ## Starting -/

def senderFor (supported : mode.executionSupported = true) :
    Except RemoteError (SampleSender E) := do
  let config ← need (.limit "worker sender codec limits are invalid")
    (SenderConfig.fromLimitsAndCodec mode supported (mode.capacity.getD 4096) w.wireCodecLimits)
  let config ← need (.limit "batch time threshold must be non-zero")
    (config.withBatchTimeMs w.batchTimeMs)
  return .new config

/-- The checks of `start` for a run that is not running already. -/
def checkStart (w : RemoteWorker E) : Except RemoteError (SampleSender E) :=
  if w.phase = .ready ∧ w.lastRunId = some runId then
    .error (.state "worker run generation is stale or already consumed")
  else if w.phase = .ready ∧ w.consumedRunIds.contains runId then
    .error (.state "worker run generation was already consumed")
  else if threadCount = 0 then .error (.limit "thread count must be non-zero")
  else if h : mode.executionSupported = true then
    if w.phase ≠ .ready then .error (.state "worker start requires ready configuration")
    else do
      let plan ← need (.state "worker start has no configured plan") w.plan
      w.resources.satisfies plan
      w.senderFor mode h
  else .error mode.unsupportedError

def begin (sender : SampleSender E) : RemoteWorker E :=
  { rememberRunId { w with runId := some runId, lastRunId := some runId } runId with
    threadCount
    senderMode := some mode
    sender := some sender
    nextSequence := 0
    deliveredWatermark := 0
    sampleEnvelopeIds := ∅
    phase := .running }

def start : Working E (List (RemoteEnvelope E)) := fun w =>
  match validateRunId runId with
  | .error e => .error e w
  | .ok () =>
    if w.phase = .running ∧ w.runId = some runId ∧ w.threadCount = threadCount ∧
        w.senderMode = some mode then
      -- A retry after a lost acknowledgement.
      .ok [w.ack requestId .started (some runId) (some threadCount)] w
    else
      match w.checkStart runId threadCount mode with
      | .error e => .error e w
      | .ok sender =>
        let w := w.begin runId threadCount mode sender
        .ok [w.ack requestId .started (some runId) (some threadCount)] w

/-! ## Samples -/

def noteDeliveredSamples (delivered : List (RemoteSample E)) : RemoteWorker E :=
  { w with
    deliveredWatermark := delivered.foldl
      (fun watermark sample => max watermark (saturatingAdd u64Max sample.key.sequence 1))
      w.deliveredWatermark }

def pruneSampleEnvelopeIds (pendingKeys : List SampleKey) (delivered : List (RemoteSample E)) :
    RemoteWorker E :=
  { w with
    sampleEnvelopeIds := w.sampleEnvelopeIds.filter fun key _ =>
      key ∈ pendingKeys ∨ key ∈ delivered.map RemoteSample.key }

/-- The envelopes of samples that are handed over; each takes its identifier. -/
def envelopesForDelivered (missing : String) :
    List (RemoteSample E) → Working E (List (RemoteEnvelope E))
  | [] => pure []
  | sample :: rest => fun w =>
    match w.sampleEnvelopeIds[sample.key]? with
    | none => .error ⟨.internal, false, missing⟩ w
    | some requestId =>
      match envelopesForDelivered missing rest
          { w with sampleEnvelopeIds := w.sampleEnvelopeIds.erase sample.key } with
      | .ok envelopes w => .ok (⟨requestId, .sample sample⟩ :: envelopes) w
      | .error e w => .error e w

def missingDelivered : String := "delivered sample had no envelope correlation"
def missingStopped : String := "stopped sample had no envelope correlation"

/-- What follows after the sender has handed samples over: the counters, the correlations and the
envelopes. -/
def handOver (missing : String) (pendingKeys : List SampleKey)
    (delivered : List (RemoteSample E)) : Working E (List (RemoteEnvelope E)) := fun w =>
  envelopesForDelivered missing delivered
    ((w.noteDeliveredSamples delivered).pruneSampleEnvelopeIds pendingKeys delivered)

/-- What `emit_sample` gets from its checks. -/
structure Emission (E : Type) where
  sample : RemoteSample E
  requestId : RequestId
  nextSequence : ℕ
  nextOrdinal : ℕ
  sender : SampleSender E

/-- The checks of `emit_sample`, up to and with the call of the sender. -/
def checkEmission [DecidableEq E] (codec : EventCodec E) (event : E) (w : RemoteWorker E) :
    Except RemoteError (Emission E) :=
  if w.phase ≠ .running then .error (.state "worker is not running")
  else do
    let runId ← need (.state "worker has no active run") w.runId
    let nextSequence ← need (.limit "worker sample sequence exhausted")
      (checkedAdd u64Max w.nextSequence 1)
    let requestId ← sampleEnvelopeRequestId w.id w.nextSampleEnvelopeOrdinal
    let nextOrdinal ← need (.limit "worker sample-envelope ID space exhausted")
      (checkedAdd u64Max w.nextSampleEnvelopeOrdinal 1)
    let sample : RemoteSample E := ⟨runId, ⟨w.id, w.nextSequence⟩, event⟩
    if w.wireCodecLimits.maxSamples ≤ w.sampleEnvelopeIds.size then
      .error ⟨.resourceLimit, true, "worker sample-envelope correlation bound exhausted"⟩
    else do
      let sender ← need (.state "worker sender is missing") w.sender
      let (_, sender) ← sender.send codec sample
      return ⟨sample, requestId, nextSequence, nextOrdinal, sender⟩

/-- The sample has been sent: it has a sequence and an identifier. -/
def emitted (emission : Emission E) : RemoteWorker E :=
  { w with
    nextSequence := emission.nextSequence
    nextSampleEnvelopeOrdinal := emission.nextOrdinal
    sampleEnvelopeIds := w.sampleEnvelopeIds.insert emission.sample.key emission.requestId
    sender := some emission.sender.drainDelivered.2 }

def emitSample [DecidableEq E] (codec : EventCodec E) (event : E) :
    Working E (List (RemoteEnvelope E)) := fun w =>
  match w.checkEmission codec event with
  | .error e => .error e w
  | .ok emission =>
    handOver missingDelivered (emission.sender.pending.map RemoteSample.key)
      emission.sender.drainDelivered.1 (w.emitted emission)

def advanceTime (nowMs : ℕ) : Working E (List (RemoteEnvelope E)) := fun w =>
  if ¬ (w.phase = .running ∨ w.phase = .stopping) then
    .error (.state "worker time can advance only for an active run") w
  else
    match w.sender with
    | none => .error (.state "worker sender is missing") w
    | some sender =>
      match sender.advanceTime nowMs with
      | .error e => .error e w
      | .ok (delivered, sender) =>
        handOver missingDelivered (sender.pending.map RemoteSample.key) delivered
          { w with sender := some sender }

/-! ## Stopping -/

/-- A stop before the start: the run is consumed without samples. -/
def stopBeforeStart : RemoteWorker E :=
  { rememberRunId { w with
      phase := .stopped, runId := some runId, lastRunId := some runId } runId with
    threadCount := 0
    senderMode := none
    sender := none }

/-- What a stop does with the sender: a graceful one closes it, an immediate one drops what is
queued.  The result lists the samples that are handed over. -/
def stopSender (mode : StopMode) (sender : SampleSender E) (w : RemoteWorker E) :
    List (RemoteSample E) × RemoteWorker E :=
  if mode.drainsSamples then
    let (delivered, sender) := sender.close
    (delivered, { w with sender := some sender })
  else
    let (dropped, sender) := sender.abort
    let (delivered, sender) := sender.drainDelivered
    (delivered,
      { w with
        sender := some sender
        sampleEnvelopeIds := dropped.foldl
          (fun ids sample => ids.erase sample.key) w.sampleEnvelopeIds })

/-- The samples that a stop hands over. -/
def stopSamples (mode : StopMode) : Working E (List (RemoteEnvelope E)) := fun w =>
  match w.sender with
  | none => .ok [] w
  | some sender =>
    let (delivered, w) := w.stopSender mode sender
    handOver missingStopped [] delivered w

def stopAck (watermark : ℕ) : RemoteEnvelope E :=
  w.ackWithWatermark requestId .stopped (some runId) (some w.threadCount) (some watermark)

/-- The stop of a run that is going on. -/
def stopRun (mode : StopMode) : Working E (List (RemoteEnvelope E)) := fun w =>
  match stopSamples mode { w with phase := .stopping } with
  | .error e w => .error e w
  | .ok envelopes w =>
    let w := { w with phase := .stopped }
    let watermark := if mode.drainsSamples then w.nextSequence else w.deliveredWatermark
    .ok (envelopes ++ [w.stopAck requestId runId watermark]) w

def stop (requestId : RequestId) (runId : RunId) (mode : StopMode) :
    Working E (List (RemoteEnvelope E)) := fun w =>
  match validateRunId runId with
  | .error e => .error e w
  | .ok () =>
    if w.runId.isNone ∧ w.phase = .ready then
      if w.lastRunId = some runId ∨ w.consumedRunIds.contains runId then
        .error ⟨.cancelled, false,
          "worker stop belongs to a stale or already-consumed run generation"⟩ w
      else
        let w := w.stopBeforeStart runId
        .ok [w.ackWithWatermark requestId .stopped (some runId) (some 0) (some 0)] w
    else if w.runId ≠ some runId then
      .error (.state "worker stop does not match the active run") w
    else if w.phase = .stopped then
      .ok [w.stopAck requestId runId w.deliveredWatermark] w
    else if ¬ (w.phase = .running ∨ w.phase = .stopping) then
      .error (.state "worker stop does not match the active run") w
    else stopRun requestId runId mode w

/-- `apply`: a message of the coordinator. -/
def apply (envelope : RemoteEnvelope E) : Working E (List (RemoteEnvelope E)) := fun w =>
  if envelope.requestId = 0 ∨ usesSampleEnvelopeNamespace envelope.requestId then
    .error (.protocol "worker control message used an invalid request ID namespace") w
  else if w.phase = .failed then .error (w.failure.getD (.state "worker is failed")) w
  else
    match envelope.message with
    | .profile profile => acceptProfile envelope.requestId profile w
    | .plan plan => acceptPlan envelope.requestId plan w
    | .properties properties => acceptProperties envelope.requestId properties w
    | .start runId threadCount mode => start envelope.requestId runId threadCount mode w
    | .stop runId mode => stop envelope.requestId runId mode w
    | _ => .error (.state "worker received a coordinator-invalid message") w

end RemoteWorker

end JmeterRs.Remote
