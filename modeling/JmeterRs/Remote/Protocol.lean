import Std.Data.ExtTreeSet
import JmeterRs.Lib.Mut
import JmeterRs.Lib.Tree

/-!
# The messages of the remote boundary

Coordinators and workers exchange envelopes: a request identifier and a message.  This module has
the values that messages carry and their bounds.  The event of a sample is a parameter `E`, and
what the state machines do with an event is an `EventCodec`.
-/

namespace JmeterRs.Remote

open Std

/-! ## Errors -/

inductive RemoteErrorCode
  | protocol
  | resourceLimit
  | profileMismatch
  | capabilityUnavailable
  | invalidState
  | workerFailure
  | conflictingDuplicate
  | invalidSample
  | backpressure
  | cancelled
  | deadlineExceeded
  | contextUnavailable
  | internal
  | unknown (value : UInt16)
  deriving DecidableEq

def RemoteErrorCode.asStr : RemoteErrorCode → String
  | .protocol => "remote.protocol"
  | .resourceLimit => "remote.resource-limit"
  | .profileMismatch => "remote.profile-mismatch"
  | .capabilityUnavailable => "remote.capability-unavailable"
  | .invalidState => "remote.invalid-state"
  | .workerFailure => "remote.worker-failure"
  | .conflictingDuplicate => "remote.conflicting-duplicate"
  | .invalidSample => "remote.invalid-sample"
  | .backpressure => "remote.backpressure"
  | .cancelled => "remote.cancelled"
  | .deadlineExceeded => "remote.deadline-exceeded"
  | .contextUnavailable => "remote.context-unavailable"
  | .internal => "remote.internal"
  | .unknown _ => "remote.unknown"

structure RemoteError where
  code : RemoteErrorCode
  retryable : Bool
  message : String
  deriving DecidableEq

def RemoteError.state (message : String) : RemoteError := ⟨.invalidState, false, message⟩

/-- A bound that no retry can change. -/
def RemoteError.limit (message : String) : RemoteError := ⟨.resourceLimit, false, message⟩

/-- A violated rule of the protocol. -/
def RemoteError.protocol (message : String) : RemoteError := ⟨.protocol, false, message⟩

/-- `Option::ok_or`. -/
def need {α : Type} (e : RemoteError) : Option α → Except RemoteError α
  | some a => .ok a
  | none => .error e

/-- A check that fails if `p` holds. -/
def failIf (p : Prop) [Decidable p] (e : RemoteError) : Except RemoteError Unit :=
  if p then .error e else .ok ()

theorem failIf_eq_ok {p : Prop} [Decidable p] {e : RemoteError} {u : Unit} :
    failIf p e = .ok u ↔ ¬ p := by
  unfold failIf
  split_ifs with hp
  · exact ⟨nofun, fun h => absurd hp h⟩
  · exact ⟨fun _ => hp, fun _ => rfl⟩

/-- The computation fails, if it does, with a code in `P`. -/
def Raises (P : RemoteErrorCode → Prop) {α : Type} (x : Except RemoteError α) : Prop :=
  ∀ e, x = .error e → P e.code

section

variable {P : RemoteErrorCode → Prop} {α β : Type} {x y : Except RemoteError α}
  {f : α → Except RemoteError β} {e : RemoteError}

theorem Raises.ok (a : α) : Raises P (.ok a) := nofun

theorem Raises.error (h : P e.code) : Raises P (.error e : Except RemoteError α) := by
  intro e' he'
  cases he'
  exact h

theorem Raises.bind (hx : Raises P x) (hf : ∀ a, Raises P (f a)) : Raises P (x >>= f) := by
  intro e he
  rcases bind_error.mp he with he | ⟨a, -, he⟩
  · exact hx e he
  · exact hf a e he

theorem Raises.ite {p : Prop} [Decidable p] (hx : Raises P x) (hy : Raises P y) :
    Raises P (if p then x else y) := by
  split_ifs
  · exact hx
  · exact hy

theorem Raises.need (h : P e.code) (o : Option α) : Raises P (need e o) := by
  cases o with
  | some a => exact .ok a
  | none => exact .error h

theorem Raises.failIf {p : Prop} [Decidable p] (h : P e.code) : Raises P (failIf p e) :=
  .ite (.error h) (.ok ())

end

/-! ## Identifiers -/

abbrev RunId := ℕ
abbrev RequestId := ℕ
abbrev WorkerId := UInt32

def sampleEnvelopeNamespace : ℕ := 2 ^ 63
def sampleEnvelopeOrdinalMask : ℕ := 2 ^ 31 - 1

/-- The largest request identifier outside the namespace of the samples. -/
def maxControlRequestId : ℕ := 2 ^ 63 - 1

/-- The identifier of a sample envelope: the namespace, the worker and its ordinal. -/
def sampleEnvelopeRequestId (worker : WorkerId) (ordinal : ℕ) : Except RemoteError RequestId :=
  if ordinal = 0 ∨ sampleEnvelopeOrdinalMask < ordinal then
    .error (.limit "worker sample-envelope ID space exhausted")
  else .ok (sampleEnvelopeNamespace ||| worker.toNat <<< 31 ||| ordinal)

def usesSampleEnvelopeNamespace (requestId : RequestId) : Bool :=
  requestId &&& sampleEnvelopeNamespace ≠ 0

def isSampleEnvelopeRequestId (requestId : RequestId) : Bool :=
  usesSampleEnvelopeNamespace requestId && (requestId &&& sampleEnvelopeOrdinalMask ≠ 0)

/-- The worker in a sample envelope identifier. -/
def sampleEnvelopeWorker (requestId : RequestId) : Option WorkerId :=
  if isSampleEnvelopeRequestId requestId then
    some (UInt32.ofNat ((requestId % sampleEnvelopeNamespace) >>> 31))
  else none

def validateRunId (runId : RunId) : Except RemoteError Unit :=
  failIf (runId = 0) (.protocol "run generation must be non-zero")

/-- Two ordinals of one worker never share an identifier. -/
theorem requestId_inj {worker : WorkerId} {ordinal ordinal' : ℕ}
    {id : RequestId} (h : sampleEnvelopeRequestId worker ordinal = .ok id)
    (h' : sampleEnvelopeRequestId worker ordinal' = .ok id) : ordinal = ordinal' := by
  unfold sampleEnvelopeRequestId at h h'
  rw [ite_error_ok, not_or, Nat.not_lt] at h h'
  obtain ⟨⟨-, hle⟩, h⟩ := h
  obtain ⟨⟨-, hle'⟩, h'⟩ := h'
  have hlow : ∀ n ≤ sampleEnvelopeOrdinalMask,
      (sampleEnvelopeNamespace ||| worker.toNat <<< 31 ||| n) % 2 ^ 31 = n := by
    intro n hn
    have hlt : n < 2 ^ 31 := Nat.lt_of_le_of_lt hn (by decide)
    have hworker : worker.toNat <<< 31 % 2 ^ 31 = 0 := by
      rw [Nat.shiftLeft_eq, Nat.mul_mod_left]
    have hspace : sampleEnvelopeNamespace % 2 ^ 31 = 0 := by decide
    rw [Nat.or_mod_two_pow, Nat.or_mod_two_pow, hworker, hspace, Nat.mod_eq_of_lt hlt, Nat.or_zero,
      Nat.zero_or]
  have hsame := Except.ok.inj (h.trans h'.symm)
  rw [← hlow ordinal hle, hsame, hlow ordinal' hle']

/-! ## Bounds -/

def remoteHeaderLen : ℕ := 20
def u32Max : ℕ := 2 ^ 32 - 1

structure WireLimits where
  maxMessageBytes : ℕ
  maxFieldBytes : ℕ
  deriving DecidableEq

def WireLimits.isValid (wire : WireLimits) : Bool :=
  remoteHeaderLen ≤ wire.maxMessageBytes ∧ wire.maxFieldBytes ≠ 0 ∧ wire.maxFieldBytes ≤ u32Max ∧
    wire.maxMessageBytes - remoteHeaderLen ≤ u32Max

structure RemoteConfigurationLimits where
  maxWorkers : ℕ
  maxControlEvents : ℕ
  maxPlanBytes : ℕ
  maxPlanReferences : ℕ
  maxPlanReferenceBytes : ℕ
  maxProperties : ℕ
  maxPropertyBytes : ℕ
  maxResourceEntries : ℕ
  maxResourceBytes : ℕ
  maxConfigurationBytes : ℕ
  deriving DecidableEq

namespace RemoteConfigurationLimits

def isValid (limits : RemoteConfigurationLimits) : Bool :=
  limits.maxWorkers ≠ 0 ∧ limits.maxControlEvents ≠ 0 ∧ limits.maxPlanBytes ≠ 0 ∧
    limits.maxPlanReferences ≠ 0 ∧ limits.maxPlanReferenceBytes ≠ 0 ∧ limits.maxProperties ≠ 0 ∧
    limits.maxPropertyBytes ≠ 0 ∧ limits.maxResourceEntries ≠ 0 ∧ limits.maxResourceBytes ≠ 0 ∧
    limits.maxConfigurationBytes ≠ 0

def default : RemoteConfigurationLimits where
  maxWorkers := 64
  maxControlEvents := 64
  maxPlanBytes := 512 * 1024
  maxPlanReferences := 2048
  maxPlanReferenceBytes := 512 * 1024
  maxProperties := 4096
  maxPropertyBytes := 512 * 1024
  maxResourceEntries := 4096
  maxResourceBytes := 512 * 1024
  maxConfigurationBytes := 2 * 1024 * 1024

/-- The check that every use of the limits begins with. -/
def validate (limits : RemoteConfigurationLimits) : Except RemoteError Unit :=
  failIf (¬ limits.isValid) (.limit "remote configuration limits must be non-zero")

end RemoteConfigurationLimits

structure RemoteLimits where
  wire : WireLimits
  maxPlanBytes : ℕ
  maxProperties : ℕ
  maxReferences : ℕ
  maxCapabilities : ℕ
  maxSampleDepth : ℕ
  maxSampleNodes : ℕ
  maxSamples : ℕ
  configuration : RemoteConfigurationLimits
  deriving DecidableEq

namespace RemoteLimits

def isValid (limits : RemoteLimits) : Bool :=
  limits.wire.isValid ∧ limits.maxPlanBytes ≠ 0 ∧ limits.maxProperties ≠ 0 ∧
    limits.maxReferences ≠ 0 ∧ limits.maxCapabilities ≠ 0 ∧ limits.maxSampleDepth ≠ 0 ∧
    limits.maxSampleNodes ≠ 0 ∧ limits.maxSamples ≠ 0 ∧ limits.configuration.isValid

def validate (limits : RemoteLimits) : Except RemoteError Unit :=
  failIf (¬ limits.isValid) (.limit "remote limits must be non-zero and representable")

def default : RemoteLimits where
  wire := ⟨1024 * 1024, 64 * 1024⟩
  maxPlanBytes := 512 * 1024
  maxProperties := 4096
  maxReferences := 1024
  maxCapabilities := 256
  maxSampleDepth := 64
  maxSampleNodes := 16384
  maxSamples := 100000
  configuration := .default

end RemoteLimits

/-! ## Configuration -/

structure ProfileDescriptor where
  id : String
  version : String
  capabilities : List String
  deriving DecidableEq

namespace ProfileDescriptor

/-- The capabilities from `index` on, after those in `seen`. -/
def checkCapabilities (limits : RemoteLimits) (index : ℕ) (seen : List String) :
    List String → Except RemoteError Unit
  | [] => .ok ()
  | capability :: rest =>
    if limits.wire.maxFieldBytes < capability.utf8ByteSize then
      .error (.limit "remote profile capability exceeds its field bound")
    else if capability ∈ seen then
      .error ⟨.conflictingDuplicate, false,
        "remote profile capability is duplicated at index " ++ toString index⟩
    else checkCapabilities limits (index + 1) (capability :: seen) rest

def validateWithLimits (profile : ProfileDescriptor) (limits : RemoteLimits) :
    Except RemoteError Unit := do
  limits.validate
  failIf (profile.id.isEmpty ∨ profile.version.isEmpty)
    (.protocol "remote profile identity must not be empty")
  failIf (limits.wire.maxFieldBytes < profile.id.utf8ByteSize ∨
      limits.wire.maxFieldBytes < profile.version.utf8ByteSize)
    (.limit "remote profile identifier exceeds its field bound")
  failIf (limits.maxCapabilities < profile.capabilities.length)
    (.limit "remote profile capability count exceeded its bound")
  checkCapabilities limits 0 [] profile.capabilities

def supports (profile requested : ProfileDescriptor) : Bool :=
  profile.id = requested.id ∧ profile.version = requested.version ∧
    ∀ capability ∈ requested.capabilities, capability ∈ profile.capabilities

end ProfileDescriptor

structure DataReference where
  path : String
  kind : String
  deriving DecidableEq

structure DependencyReference where
  name : String
  version : String
  deriving DecidableEq

/-- The bytes of a list of pairs of texts. -/
def pairBytes (overflow : RemoteError) (pairs : List (String × String)) :
    Except RemoteError ℕ :=
  pairs.foldlM (fun total pair => need overflow
    ((checkedAdd usizeMax total pair.1.utf8ByteSize).bind
      (checkedAdd usizeMax · pair.2.utf8ByteSize))) 0

structure PlanDescriptor where
  jmx : List UInt8
  dataReferences : List DataReference
  dependencies : List DependencyReference
  deriving DecidableEq

namespace PlanDescriptor

variable (plan : PlanDescriptor)

def dataPairs : List (String × String) :=
  plan.dataReferences.map fun reference => (reference.path, reference.kind)

def dependencyPairs : List (String × String) :=
  plan.dependencies.map fun dependency => (dependency.name, dependency.version)

def referenceBytes : Except RemoteError ℕ := do
  let overflow := .limit "remote plan reference bytes overflowed"
  let data ← pairBytes overflow plan.dataPairs
  let dependencies ← pairBytes overflow plan.dependencyPairs
  need overflow (checkedAdd usizeMax data dependencies)

def configurationByteLen : Except RemoteError ℕ := do
  let references ← plan.referenceBytes
  need (.limit "remote plan configuration bytes overflowed")
    (checkedAdd usizeMax plan.jmx.length references)

def validateWithLimits (limits : RemoteConfigurationLimits) : Except RemoteError Unit := do
  limits.validate
  failIf (limits.maxPlanBytes < plan.jmx.length)
    (.limit "remote JMX plan exceeds its configured byte bound")
  let count ← need (.limit "remote plan reference count overflowed")
    (checkedAdd usizeMax plan.dataReferences.length plan.dependencies.length)
  failIf (limits.maxPlanReferences < count)
    (.limit "remote plan reference count exceeded its configured bound")
  let references ← plan.referenceBytes
  failIf (limits.maxPlanReferenceBytes < references)
    (.limit "remote plan reference bytes exceeded their configured bound")
  let total ← need (.limit "remote plan configuration bytes overflowed")
    (checkedAdd usizeMax plan.jmx.length references)
  failIf (limits.maxConfigurationBytes < total)
    (.limit "remote plan configuration bytes exceeded their configured bound")

end PlanDescriptor

structure PropertySet where
  values : ExtTreeMap String String
  deriving DecidableEq

namespace PropertySet

def configurationByteLen (properties : PropertySet) : Except RemoteError ℕ :=
  pairBytes (.limit "remote property bytes overflowed") properties.values.toList

def validateWithLimits (properties : PropertySet) (limits : RemoteConfigurationLimits) :
    Except RemoteError Unit := do
  limits.validate
  failIf (limits.maxProperties < properties.values.size)
    (.limit "remote property count exceeded its configured bound")
  let bytes ← properties.configurationByteLen
  failIf (limits.maxPropertyBytes < bytes ∨ limits.maxConfigurationBytes < bytes)
    (.limit "remote property bytes exceeded their configured bound")

end PropertySet

def validateConfiguration (plan : PlanDescriptor) (properties : PropertySet)
    (limits : RemoteConfigurationLimits) : Except RemoteError Unit := do
  plan.validateWithLimits limits
  properties.validateWithLimits limits
  let planBytes ← plan.configurationByteLen
  let propertyBytes ← properties.configurationByteLen
  let total ← need (.limit "remote configuration bytes overflowed")
    (checkedAdd usizeMax planBytes propertyBytes)
  failIf (limits.maxConfigurationBytes < total)
    (.limit "remote plan and property bytes exceeded their aggregate bound")

/-- A check of a value that may be absent. -/
def ifSome {α : Type} (o : Option α) (f : α → Except RemoteError Unit) : Except RemoteError Unit :=
  match o with
  | some a => f a
  | none => .ok ()

/-- The check of what is staged when the limits change: together if both are there, else each
alone. -/
def validateStaged (plan : Option PlanDescriptor) (properties : Option PropertySet)
    (limits : RemoteConfigurationLimits) : Except RemoteError Unit :=
  match plan, properties with
  | some plan, some properties => validateConfiguration plan properties limits
  | plan, properties => do
    ifSome plan (·.validateWithLimits limits)
    ifSome properties (·.validateWithLimits limits)

section

variable {P : RemoteErrorCode → Prop}

theorem raises_ifSome {α : Type} {f : α → Except RemoteError Unit} {o : Option α}
    (h : ∀ a, Raises P (f a)) : Raises P (ifSome o f) := by
  cases o with
  | some a => exact h a
  | none => exact .ok ()

theorem raises_pair {e : RemoteError} (h : P e.code) {pairs : List (String × String)} :
    Raises P (pairBytes e pairs) := by
  have hfrom : ∀ total, Raises P (pairs.foldlM (fun total pair => need e
      ((checkedAdd usizeMax total pair.1.utf8ByteSize).bind
        (checkedAdd usizeMax · pair.2.utf8ByteSize))) total) := by
    induction pairs with
    | nil => exact fun total => .ok total
    | cons pair pairs ih =>
      intro total
      rw [List.foldlM_cons]
      exact .bind (.need h _) ih
  exact hfrom 0

variable (hprotocol : P .protocol) (hlim : P .resourceLimit) (hconf : P .conflictingDuplicate)
include hlim

variable (plan : PlanDescriptor) (properties : PropertySet) (limits : RemoteConfigurationLimits)

theorem raises_reference : Raises P plan.referenceBytes :=
  .bind (raises_pair hlim) fun _ => .bind (raises_pair hlim) fun _ =>
    .need hlim _

theorem raises_plan : Raises P (plan.validateWithLimits limits) :=
  .bind (.failIf hlim) fun _ => .bind (.failIf hlim) fun _ => .bind (.need hlim _) fun _ =>
    .bind (.failIf hlim) fun _ => .bind (raises_reference hlim plan) fun _ =>
    .bind (.failIf hlim) fun _ => .bind (.need hlim _) fun _ => .failIf hlim

theorem raises_properties : Raises P (properties.validateWithLimits limits) :=
  .bind (.failIf hlim) fun _ => .bind (.failIf hlim) fun _ =>
    .bind (raises_pair hlim) fun _ => .failIf hlim

theorem raises_configuration : Raises P (validateConfiguration plan properties limits) :=
  .bind (raises_plan hlim plan limits) fun _ =>
    .bind (raises_properties hlim properties limits) fun _ =>
    .bind (.bind (raises_reference hlim plan) fun _ => .need hlim _) fun _ =>
    .bind (raises_pair hlim) fun _ => .bind (.need hlim _) fun _ => .failIf hlim

theorem raises_staged (plan : Option PlanDescriptor) (properties : Option PropertySet)
    (limits : RemoteConfigurationLimits) : Raises P (validateStaged plan properties limits) := by
  have hapart : Raises P (do
      ifSome plan (·.validateWithLimits limits)
      ifSome properties (·.validateWithLimits limits)) :=
    .bind (raises_ifSome fun plan => raises_plan hlim plan limits) fun _ =>
      raises_ifSome fun properties => raises_properties hlim properties limits
  cases plan with
  | none => exact hapart
  | some plan =>
    cases properties with
    | none => exact hapart
    | some properties => exact raises_configuration hlim plan properties limits

include hprotocol hconf

theorem raises_profile (profile : ProfileDescriptor) (limits : RemoteLimits) :
    Raises P (profile.validateWithLimits limits) := by
  have hcapabilities : ∀ (rest : List String) (index : ℕ) (seen : List String),
      Raises P (ProfileDescriptor.checkCapabilities limits index seen rest) := by
    intro rest
    induction rest with
    | nil => exact fun _ _ => .ok ()
    | cons capability rest ih =>
      intro index seen
      exact .ite (.error hlim) (.ite (.error hconf) (ih _ _))
  exact .bind (.failIf hlim) fun _ => .bind (.failIf hprotocol) fun _ =>
    .bind (.failIf hlim) fun _ => .bind (.failIf hlim) fun _ => hcapabilities _ _ _

end

/-! ## Lifecycle values -/

inductive StopMode
  | graceful
  | immediate
  deriving DecidableEq

def StopMode.drainsSamples : StopMode → Bool
  | .graceful => true
  | .immediate => false

def StopMode.severity : StopMode → ℕ
  | .graceful => 1
  | .immediate => 2

inductive SampleSenderMode
  | standard
  | hold
  | batch (size : ℕ)
  | statistical (size : ℕ)
  | stripped
  | strippedBatch (size : ℕ)
  | asynch (capacity : ℕ)
  | strippedAsynch (capacity : ℕ)
  | diskStore (capacity : ℕ)
  | strippedDiskStore (capacity : ℕ)
  deriving DecidableEq

namespace SampleSenderMode

def isStripped : SampleSenderMode → Bool
  | .stripped | .strippedBatch _ | .strippedAsynch _ | .strippedDiskStore _ => true
  | _ => false

def capacity : SampleSenderMode → Option ℕ
  | .batch size | .statistical size | .strippedBatch size => some size
  | .asynch capacity | .strippedAsynch capacity | .diskStore capacity
  | .strippedDiskStore capacity => some capacity
  | .standard | .hold | .stripped => none

def hasZeroBound (mode : SampleSenderMode) : Bool := mode.capacity = some 0

def executionSupported : SampleSenderMode → Bool
  | .standard | .hold | .batch _ | .stripped | .strippedBatch _ => true
  | _ => false

def unsupportedCapabilityId : SampleSenderMode → Option String
  | .statistical _ => some "remote.sample-sender.statistical"
  | .asynch _ | .strippedAsynch _ => some "remote.sample-sender.asynchronous"
  | .diskStore _ | .strippedDiskStore _ => some "remote.sample-sender.disk-store"
  | .standard | .hold | .batch _ | .stripped | .strippedBatch _ => none

/-- The failure of a start in a mode that has no implementation. -/
def unsupportedError (mode : SampleSenderMode) : RemoteError :=
  match mode.unsupportedCapabilityId with
  | some capability =>
    ⟨.capabilityUnavailable, false, "sender capability " ++ capability ++ " is unavailable"⟩
  | none =>
    ⟨.capabilityUnavailable, false, "sender mode is unavailable in the Rust-native remote core"⟩

end SampleSenderMode

inductive AckStage
  | profile
  | plan
  | properties
  | started
  | stopped
  deriving DecidableEq

/-! ## Samples -/

structure SampleKey where
  worker : WorkerId
  sequence : ℕ
  deriving DecidableEq

namespace SampleKey

/-- Keys are ordered by worker, then by sequence. -/
def rank (key : SampleKey) : List ℕ := [key.worker.toNat, key.sequence]

theorem rank_injective : Function.Injective rank := by
  rintro ⟨worker, sequence⟩ ⟨worker', sequence'⟩ h
  simp only [rank, List.cons.injEq, and_true] at h
  obtain ⟨hworker, rfl⟩ := h
  rw [UInt32.toNat_inj.mp hworker]

instance : Ord SampleKey := ⟨compareOn rank⟩
instance : TransOrd SampleKey := inferInstanceAs (TransCmp (compareOn rank))
instance : LawfulEqOrd SampleKey := lawfulEqCmp_compareOn rank_injective

/-- The key as `Debug` writes it. -/
def debug (key : SampleKey) : String :=
  "SampleKey \x7b worker: WorkerId(" ++ toString key.worker.toNat ++ "), sequence: " ++
    toString key.sequence ++ " \x7d"

end SampleKey

structure RemoteSample (E : Type) where
  runId : RunId
  key : SampleKey
  event : E
  deriving DecidableEq

/-- What the state machines do with the events of samples; none of it fails with an internal
error. -/
structure EventCodec (E : Type) where
  /-- `validate_wire_with_limits` of the result of an event, for a depth and a number of nodes. -/
  validateWire : (depth nodes : ℕ) → E → Except RemoteError Unit
  /-- The event of `strip_sample`, for a depth, a number of nodes, the depth of the stripping and
  whether failed results are stripped too. -/
  strip : (depth nodes stripDepth : ℕ) → (alsoOnError : Bool) → E → Except RemoteError E
  /-- `encoded_sample_len`. -/
  encodedSampleLen : RemoteLimits → RequestId → RemoteSample E → Except RemoteError ℕ
  validateWire_code {depth nodes : ℕ} {event : E} {e : RemoteError} :
    validateWire depth nodes event = .error e → e.code ≠ .internal
  strip_code {depth nodes stripDepth : ℕ} {alsoOnError : Bool} {event : E} {e : RemoteError} :
    strip depth nodes stripDepth alsoOnError event = .error e → e.code ≠ .internal
  encodedSampleLen_code {limits : RemoteLimits} {requestId : RequestId} {sample : RemoteSample E}
    {e : RemoteError} : encodedSampleLen limits requestId sample = .error e → e.code ≠ .internal

/-! ## Messages -/

inductive RemoteMessage (E : Type)
  | profile (profile : ProfileDescriptor)
  | plan (plan : PlanDescriptor)
  | properties (properties : PropertySet)
  | start (runId : RunId) (threadCount : ℕ) (senderMode : SampleSenderMode)
  | stop (runId : RunId) (mode : StopMode)
  | sample (sample : RemoteSample E)
  | ack (worker : WorkerId) (stage : AckStage) (runId : Option RunId) (threadCount : Option ℕ)
      (sampleWatermark : Option ℕ)
  | failure (worker : WorkerId) (runId : Option RunId) (error : RemoteError)
  deriving DecidableEq

structure RemoteEnvelope (E : Type) where
  requestId : RequestId
  message : RemoteMessage E
  deriving DecidableEq

end JmeterRs.Remote
