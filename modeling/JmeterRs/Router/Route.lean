import JmeterRs.Execution.Result
import JmeterRs.Lib.Mut

/-!
# Routes and envelopes

Which listeners get an event, and the envelope in which the router keeps it: the event with its run
sequence, its source and the size that the queues account for.
-/

namespace JmeterRs.Router

open Execution (SampleEvent SampleResult)

def maxPlanPath : ℕ := 4096

/-- The size of a `NodeId`, which is a `u64`. -/
def nodeIdSize : ℕ := 8

/-- What the router asks of the data of a result, and how diagnostics are redacted and bounded. -/
structure ResultOps (Data : Type) where
  /-- `validate_with_limits` with the default limits; gives the text of the error. -/
  validate : SampleResult Data → Except String Unit
  estimateEventBytes : SampleEvent Data → ℕ
  /-- The size of a `ResultEnvelope`. -/
  envelopeSize : ℕ
  boundedText : String → String

/-- The scope in which a listener gets a result. -/
inductive ListenerPhase
  | setup
  | main
  | teardown
  deriving DecidableEq

inductive ListenerFilterMode
  | all
  | errorsOnly
  | successesOnly
  | both
  deriving DecidableEq

inductive ListenerSampleSelection
  | completeEvent
  | childSamplesOnly
  deriving DecidableEq

inductive ResultOrigin
  | sampler (samplerId : ℕ) (parent : Option ℕ)
  | transaction (controllerId : ℕ) (parent : Option ℕ)
  deriving DecidableEq

def ResultOrigin.sourceNode : ResultOrigin → ℕ
  | .sampler samplerId _ => samplerId
  | .transaction controllerId _ => controllerId

inductive SinkError
  | failed (message : String)
  | unsupported (message : String)
  | cancelled
  | resourceLimit (message : String)
  | combined (primary secondary : SinkError)
  deriving DecidableEq

structure ListenerRoutePolicy where
  enabled : Bool
  phase : Option ListenerPhase
  filter : ListenerFilterMode
  scopePrefix : Option (List ℕ)
  sampleSelection : ListenerSampleSelection
  deriving DecidableEq

def ListenerRoutePolicy.default : ListenerRoutePolicy :=
  ⟨true, none, .all, none, .completeEvent⟩

/-- What the runtime says about an event. -/
structure ResultEventMetadata where
  sourceNode : ℕ
  /-- From the root of the plan to the source. -/
  planPath : List ℕ
  user : ℕ
  /-- Zero if the router is to assign it. -/
  sample : ℕ
  origin : ResultOrigin
  phase : ListenerPhase

variable {Data : Type}

structure ResultEnvelope (Data : Type) where
  sequence : ℕ
  sourceNode : ℕ
  planPath : List ℕ
  run : String
  user : ℕ
  thread : String
  sample : ℕ
  origin : ResultOrigin
  phase : ListenerPhase
  event : SampleEvent Data
  byteSize : ℕ

/-! ## Routes -/

namespace ListenerRoutePolicy

def matchesResult (ops : ResultOps Data) (route : ListenerRoutePolicy)
    (result : SampleResult Data) : Except SinkError Bool :=
  if route.sampleSelection = .childSamplesOnly then
    .error (.unsupported (ops.boundedText "result.listener.child-samples-only-unsupported"))
  else
    let successful := result.success.getD false
    match route.filter with
    | .all => .ok true
    | .errorsOnly => .ok !successful
    | .successesOnly => .ok successful
    | .both => .error (.unsupported (ops.boundedText "result.filter.unverified: both result flags"))

def matchesMetadata (ops : ResultOps Data) (route : ListenerRoutePolicy)
    (event : SampleEvent Data) (metadata : ResultEventMetadata) : Except SinkError Bool :=
  if !route.enabled then .ok false
  else if route.phase.any (· ≠ metadata.phase) then .ok false
  else if route.scopePrefix.any (fun path => !path.isPrefixOf metadata.planPath) then .ok false
  else route.matchesResult ops event.result

end ListenerRoutePolicy

/-! ## Envelopes -/

/-- The size of an event in the queues, `none` if it overflows. -/
def checkedEventBytes (ops : ResultOps Data) (event : SampleEvent Data) (planPathLength : ℕ) :
    Option ℕ :=
  if ops.estimateEventBytes event = usizeMax then none
  else do
    let path ← checkedMul usizeMax planPathLength nodeIdSize
    let sum ← checkedAdd usizeMax (ops.estimateEventBytes event) path
    let total ← checkedAdd usizeMax sum ops.envelopeSize
    return max total 1

/-- The checks of `ResultEnvelope::new_with_phase`; gives the detail of the error. -/
def checkEnvelope (ops : ResultOps Data) (sequence sample : ℕ) (run : String)
    (metadata : ResultEventMetadata) (event : SampleEvent Data) : Except String Unit :=
  if sequence = 0 ∨ sample = 0 then .error "result envelope identities must be non-zero"
  else if maxPlanPath < metadata.planPath.length then
    .error "result plan path exceeds runtime bound"
  else if metadata.planPath.getLast? ≠ some metadata.sourceNode then
    .error "result plan path must end at its source node"
  else if metadata.origin.sourceNode ≠ metadata.sourceNode then
    .error "result origin does not match its source node"
  else
    match ops.validate event.result with
    | .error source => .error ("result event exceeds runtime hierarchy limits: " ++ source)
    | .ok () =>
      if run ≠ event.identity.run then
        .error "result envelope run identity differs from its event"
      else .ok ()

/-- `ResultEnvelope::new_with_phase` with the thread of the event. -/
def newEnvelope (ops : ResultOps Data) (sequence sample : ℕ) (run : String)
    (metadata : ResultEventMetadata) (event : SampleEvent Data) :
    Except String (ResultEnvelope Data) := do
  checkEnvelope ops sequence sample run metadata event
  let byteSize := saturatingAdd usizeMax
    (saturatingAdd usizeMax (ops.estimateEventBytes event)
      (saturatingMul usizeMax metadata.planPath.length nodeIdSize))
    ops.envelopeSize
  return {
    sequence
    sourceNode := metadata.sourceNode
    planPath := metadata.planPath
    run
    user := metadata.user
    thread := event.identity.thread
    sample
    origin := metadata.origin
    phase := metadata.phase
    event
    byteSize := max byteSize 1 }

variable {ops : ResultOps Data} {event : SampleEvent Data} {metadata : ResultEventMetadata}
  {sequence sample bytes : ℕ} {run : String} {envelope : ResultEnvelope Data}

theorem envelope_sequence (h : newEnvelope ops sequence sample run metadata event = .ok envelope) :
    envelope.sequence = sequence := by
  obtain ⟨_, -, hretd⟩ := bind_ok.mp h
  cases hretd
  rfl

/-- The size checked before an envelope is built is the size of the envelope. -/
theorem envelope_byteSize
    (hbytes : checkedEventBytes ops event metadata.planPath.length = some bytes)
    (h : newEnvelope ops sequence sample run metadata event = .ok envelope) :
    envelope.byteSize = bytes := by
  obtain ⟨_, -, hretd⟩ := bind_ok.mp h
  cases hretd
  unfold checkedEventBytes at hbytes
  split_ifs at hbytes with hmax
  obtain ⟨path, hpath, hbytes⟩ := Option.bind_eq_some_iff.mp hbytes
  obtain ⟨sum, hsum, hbytes⟩ := Option.bind_eq_some_iff.mp hbytes
  obtain ⟨total, htotal, hbytes⟩ := Option.bind_eq_some_iff.mp hbytes
  cases hbytes
  rw [mul_checked hpath, add_checked hsum, add_checked htotal]

end JmeterRs.Router
