import JmeterRs.Remote.Protocol

/-!
# The sample sender

`SampleSender` queues samples and hands them over in the order in which they were sent.  Workers
and coordinators start a sender only in a mode whose execution is supported: the immediate modes
deliver at once, the others queue until a batch is full, its time has passed or the sender is
flushed.  Every check of `send` comes before its first write, so a refused sample changes nothing.
-/

namespace JmeterRs.Remote

open Std

inductive SendOutcome
  | delivered
  | queued
  | queuedAndFlushed
  | duplicate
  deriving DecidableEq

/-- The configuration of a sender in a supported mode. -/
structure SenderConfig where
  mode : SampleSenderMode
  capacity : ℕ
  wireCodecLimits : RemoteLimits
  maxRetainedBytes : ℕ
  maxSamples : ℕ
  resultDepth : ℕ
  resultNodes : ℕ
  batchTimeMs : Option ℕ
  stripAlsoOnError : Bool
  stripDepth : ℕ
  supported : mode.executionSupported = true

namespace SenderConfig

def fromLimitsAndCodec (mode : SampleSenderMode) (supported : mode.executionSupported = true)
    (capacity : ℕ) (limits : RemoteLimits) : Option SenderConfig :=
  if capacity = 0 ∨ ¬ limits.isValid ∨ mode.hasZeroBound then none
  else some
    { mode
      capacity
      wireCodecLimits := limits
      maxRetainedBytes := saturatingMul usizeMax capacity
        (saturatingMul usizeMax limits.wire.maxMessageBytes 2)
      maxSamples := limits.maxSamples
      resultDepth := limits.maxSampleDepth
      resultNodes := limits.maxSampleNodes
      batchTimeMs := none
      stripAlsoOnError := true
      stripDepth := 4
      supported }

def withMaxSamples (config : SenderConfig) (value : ℕ) : Option SenderConfig :=
  if value = 0 then none else some { config with maxSamples := value }

def withMaxRetainedBytes (config : SenderConfig) (value : ℕ) : Option SenderConfig :=
  if value = 0 then none else some { config with maxRetainedBytes := value }

/-- `with_batch_time_ms`, for a threshold that may be absent. -/
def withBatchTimeMs (config : SenderConfig) : Option ℕ → Option SenderConfig
  | none => some config
  | some value => if value = 0 then none else some { config with batchTimeMs := some value }

end SenderConfig

structure SampleSender (E : Type) where
  config : SenderConfig
  pending : List (RemoteSample E)
  delivered : List (RemoteSample E)
  seen : ExtTreeMap SampleKey (RemoteSample E)
  retainedBytes : ℕ
  pendingBytes : ℕ
  deliveredBytes : ℕ
  clockMs : ℕ
  batchStartedAtMs : Option ℕ
  closed : Bool

namespace SampleSender

variable {E : Type}

def new (config : SenderConfig) : SampleSender E where
  config
  pending := []
  delivered := []
  seen := ∅
  retainedBytes := 0
  pendingBytes := 0
  deliveredBytes := 0
  clockMs := 0
  batchStartedAtMs := none
  closed := false

/-! ## Queues -/

section

variable (codec : EventCodec E) (config : SenderConfig) (sender : SampleSender E)
  (sample : RemoteSample E)

def setMaxSamples (maximum : ℕ) : Except RemoteError (SampleSender E) :=
  if maximum = 0 ∨ maximum < sender.seen.size then
    .error (.limit "sender sample bound must cover accepted samples")
  else .ok { sender with config := { sender.config with maxSamples := maximum } }

def setMaxRetainedBytes (maximum : ℕ) : Except RemoteError (SampleSender E) :=
  if maximum = 0 ∨ maximum < sender.retainedBytes then
    .error (.limit "sender retained-byte bound must cover current data")
  else .ok { sender with config := { sender.config with maxRetainedBytes := maximum } }

/-- The modes that hand a sample over at once. -/
def immediate : Bool :=
  match sender.config.mode with
  | .standard | .stripped => true
  | _ => false

def flushPending : SampleSender E :=
  { sender with
    batchStartedAtMs := none
    deliveredBytes := saturatingAdd usizeMax sender.deliveredBytes sender.pendingBytes
    pendingBytes := 0
    delivered := sender.delivered ++ sender.pending
    pending := [] }

def batchCountDue : Bool :=
  match sender.config.mode with
  | .batch size | .strippedBatch size => size ≤ sender.pending.length
  | _ => false

def batchTimeDue : Bool :=
  match sender.config.mode with
  | .batch _ | .strippedBatch _ =>
    if sender.pending.isEmpty then false
    else
      match sender.config.batchTimeMs, sender.batchStartedAtMs with
      | some threshold, some started => threshold < sender.clockMs - started
      | _, _ => false
  | _ => false

def startBatchTimerIfNeeded : SampleSender E :=
  if sender.batchStartedAtMs.isNone then { sender with batchStartedAtMs := some sender.clockMs }
  else sender

/-- The flush of a full or expired batch; the next timer starts at once. -/
def flushPendingForThreshold : SampleSender E :=
  let sender := sender.flushPending
  if sender.config.batchTimeMs.isSome then { sender with batchStartedAtMs := some sender.clockMs }
  else sender

/-! ## Sending -/

def ensureQueueSpace : Except RemoteError Unit :=
  failIf (sender.config.capacity ≤
      saturatingAdd usizeMax sender.pending.length sender.delivered.length)
    ⟨.backpressure, true,
      "sample sender retained queue is full at " ++ toString sender.config.capacity⟩

def retainedAfterAdd (originalSize encodedSize : ℕ) : Except RemoteError ℕ := do
  let overflow := .limit "sender retained-byte bound overflowed"
  let additional ← need overflow (checkedAdd usizeMax originalSize encodedSize)
  need overflow (checkedAdd usizeMax sender.retainedBytes additional)

def ensureRetained (retained : ℕ) : Except RemoteError Unit :=
  failIf (sender.config.maxRetainedBytes < retained) (.limit "sender retained-byte bound exhausted")

def encodedSampleSize : Except RemoteError ℕ := do
  let requestId ← sampleEnvelopeRequestId sample.key.worker 1
  let size ← codec.encodedSampleLen config.wireCodecLimits requestId sample
  failIf (config.wireCodecLimits.wire.maxMessageBytes < size)
    (.limit ("encoded sample size " ++ toString size ++ " exceeds " ++
      toString config.wireCodecLimits.wire.maxMessageBytes))
  return size

/-- `strip_sample`, in the modes that strip. -/
def strip (codec : EventCodec E) (config : SenderConfig) (sample : RemoteSample E) :
    Except RemoteError (RemoteSample E) :=
  if config.mode.isStripped then do
    let event ← codec.strip config.resultDepth config.resultNodes config.stripDepth
      config.stripAlsoOnError sample.event
    return { sample with event }
  else return sample

/-- The checks of `send` on a sample with a new key.  The result is the sample that is queued,
its size and the bytes that are retained with it. -/
def vet : Except RemoteError (RemoteSample E × ℕ × ℕ) := do
  failIf (sender.config.maxSamples ≤ sender.seen.size)
    (.limit "sample deduplication bound exhausted")
  sender.ensureQueueSpace
  codec.validateWire sender.config.resultDepth sender.config.resultNodes sample.event
  let queued ← strip codec sender.config sample
  let encodedSize ← encodedSampleSize codec sender.config queued
  let originalSize ← encodedSampleSize codec sender.config sample
  let retained ← sender.retainedAfterAdd originalSize encodedSize
  sender.ensureQueueSpace
  sender.ensureRetained retained
  return (queued, encodedSize, retained)

/-- The writes of `send` in a mode that delivers at once. -/
def deliver (original queued : RemoteSample E) (size retained : ℕ) :
    Except RemoteError (SendOutcome × SampleSender E) := do
  let deliveredBytes ← need (.limit "sender delivered-byte accounting overflowed")
    (checkedAdd usizeMax sender.deliveredBytes size)
  return (.delivered,
    { sender with
      seen := sender.seen.insert original.key original
      retainedBytes := retained
      deliveredBytes
      delivered := sender.delivered ++ [queued] })

/-- The writes of `send` in a mode that queues. -/
def enqueue (original queued : RemoteSample E) (size retained : ℕ) :
    Except RemoteError (SendOutcome × SampleSender E) := do
  let pendingBytes ← need (.limit "sender pending-byte accounting overflowed")
    (checkedAdd usizeMax sender.pendingBytes size)
  let sender := startBatchTimerIfNeeded
    { sender with
      seen := sender.seen.insert original.key original
      retainedBytes := retained
      pendingBytes
      pending := sender.pending ++ [queued] }
  if sender.batchCountDue || sender.batchTimeDue then
    return (.queuedAndFlushed, sender.flushPendingForThreshold)
  else return (.queued, sender)

def send [DecidableEq E] (codec : EventCodec E) (sender : SampleSender E)
    (sample : RemoteSample E) : Except RemoteError (SendOutcome × SampleSender E) :=
  if sender.closed then .error ⟨.invalidState, false, "sample sender is closed"⟩
  else
    match sender.seen[sample.key]? with
    | some previous =>
      if previous = sample then .ok (.duplicate, sender)
      else .error ⟨.conflictingDuplicate, false,
        "sample " ++ sample.key.debug ++ " was already accepted with different contents"⟩
    | none => do
      let (queued, size, retained) ← vet codec sender sample
      if sender.immediate then sender.deliver sample queued size retained
      else sender.enqueue sample queued size retained

/-! ## Handing over -/

def drainDelivered : List (RemoteSample E) × SampleSender E :=
  (sender.delivered,
    { sender with
      retainedBytes := sender.retainedBytes - sender.deliveredBytes
      deliveredBytes := 0
      delivered := [] })

def close : List (RemoteSample E) × SampleSender E :=
  { sender.flushPending with closed := true }.drainDelivered

/-- `abort`: the queued samples are dropped, those delivered can still be drained. -/
def abort : List (RemoteSample E) × SampleSender E :=
  (sender.pending,
    { sender with
      closed := true
      batchStartedAtMs := none
      seen := ∅
      retainedBytes := sender.deliveredBytes
      pendingBytes := 0
      pending := [] })

def flushIfTimeDue : SampleSender E :=
  if sender.batchTimeDue then sender.flushPendingForThreshold else sender

def advanceTime (nowMs : ℕ) : Except RemoteError (List (RemoteSample E) × SampleSender E) :=
  if nowMs < sender.clockMs then .error (.state "sender clock moved backwards")
  else .ok { sender with clockMs := nowMs }.flushIfTimeDue.drainDelivered

/-! ## What the operations do to the queues -/

/-- Everything that was sent and not handed over yet, in order. -/
def queue : List (RemoteSample E) := sender.delivered ++ sender.pending

/-- An immediate mode queues nothing. -/
def Straight : Prop := sender.immediate = true → sender.pending = []

end

/-- What a successful `send` of a sample with a new key does. -/
structure Sent (sender : SampleSender E) (sample queued : RemoteSample E)
    (sender' : SampleSender E) : Prop where
  queue : sender'.queue = sender.queue ++ [queued]
  key : queued.key = sample.key
  runId : queued.runId = sample.runId
  seen : sender'.seen = sender.seen.insert sample.key sample
  config : sender'.config = sender.config
  closed : sender'.closed = sender.closed
  straight : sender'.Straight

variable {sender sender' : SampleSender E} {sample queued : RemoteSample E} {size retained : ℕ}
  {outcome : SendOutcome}

theorem need_eq_ok {α : Type} {e : RemoteError} {o : Option α} {a : α} :
    need e o = .ok a ↔ o = some a := by
  cases o <;> simp [need]

section

variable (sender : SampleSender E)

@[simp] theorem queue_flush : sender.flushPending.queue = sender.queue := by
  simp [queue, flushPending]

/-- A flush leaves everything but the queues and the timer as it is. -/
theorem flushFor_fields : sender.flushPendingForThreshold.queue = sender.queue ∧
      sender.flushPendingForThreshold.pending = [] ∧
      sender.flushPendingForThreshold.seen = sender.seen ∧
      sender.flushPendingForThreshold.config = sender.config ∧
      sender.flushPendingForThreshold.closed = sender.closed := by
  unfold flushPendingForThreshold
  dsimp only
  split_ifs <;> exact ⟨queue_flush sender, rfl, rfl, rfl, rfl⟩

theorem timer_fields : sender.startBatchTimerIfNeeded.queue = sender.queue ∧
      sender.startBatchTimerIfNeeded.pending = sender.pending ∧
      sender.startBatchTimerIfNeeded.seen = sender.seen ∧
      sender.startBatchTimerIfNeeded.config = sender.config ∧
      sender.startBatchTimerIfNeeded.closed = sender.closed := by
  unfold startBatchTimerIfNeeded
  split_ifs <;> exact ⟨rfl, rfl, rfl, rfl, rfl⟩

end

variable {codec : EventCodec E} {sender sender' : SampleSender E}

theorem strip_key {config : SenderConfig} (h : strip codec config sample = .ok queued) :
    queued.key = sample.key ∧ queued.runId = sample.runId := by
  unfold strip at h
  split_ifs at h
  · obtain ⟨event, -, h⟩ := bind_ok.mp h
    cases h
    exact ⟨rfl, rfl⟩
  · cases h
    exact ⟨rfl, rfl⟩

/-- What is queued has the key of what is sent. -/
theorem vet_key (h : vet codec sender sample = .ok (queued, size, retained)) :
    queued.key = sample.key ∧ queued.runId = sample.runId := by
  simp only [vet, bind_ok, failIf_eq_ok, exists_const] at h
  obtain ⟨-, _, -, _, -, stripped, hstrip, _, -, _, -, _, -, _, -, _, -, h⟩ := h
  cases h
  exact strip_key hstrip

theorem deliver_sent (h : sender.deliver sample queued size retained = .ok (outcome, sender'))
    (hkey : queued.key = sample.key ∧ queued.runId = sample.runId)
    (himmediate : sender.immediate = true) (hstraight : sender.Straight) :
    Sent sender sample queued sender' := by
  obtain ⟨bytes, -, h⟩ := bind_ok.mp h
  cases h
  have hpend := hstraight himmediate
  refine ⟨?_, hkey.1, hkey.2, rfl, rfl, rfl, fun _ => hpend⟩
  simp [queue, hpend]

theorem enqueue_sent (h : sender.enqueue sample queued size retained = .ok (outcome, sender'))
    (hkey : queued.key = sample.key ∧ queued.runId = sample.runId)
    (himmd : sender.immediate = false) : Sent sender sample queued sender' := by
  obtain ⟨bytes, -, h⟩ := bind_ok.mp h
  generalize hqueued : startBatchTimerIfNeeded _ = middle at h
  obtain ⟨hqueue, -, hseen, hconfig, hclosed⟩ := hqueued ▸ timer_fields
    { sender with
      seen := sender.seen.insert sample.key sample
      retainedBytes := retained
      pendingBytes := bytes
      pending := sender.pending ++ [queued] }
  have hmiddle : middle.queue = sender.queue ++ [queued] := by
    rw [hqueue]
    simp [queue]
  have hmode : ∀ other : SampleSender E, other.config = sender.config → other.Straight := by
    intro other hother himmediate
    unfold immediate at himmediate himmd
    rw [hother, himmd] at himmediate
    cases himmediate
  dsimp only at h
  split_ifs at h
  · cases h
    obtain ⟨hflushed, -, hseen', hconfig', hclosed'⟩ := flushFor_fields middle
    exact ⟨hflushed.trans hmiddle, hkey.1, hkey.2, hseen'.trans hseen, hconfig'.trans hconfig,
      hclosed'.trans hclosed, hmode _ (hconfig'.trans hconfig)⟩
  · cases h
    exact ⟨hmiddle, hkey.1, hkey.2, hseen, hconfig, hclosed, hmode _ hconfig⟩

theorem send_sent [DecidableEq E] (h : sender.send codec sample = .ok (outcome, sender'))
    (hnew : sender.seen[sample.key]? = none) (hstraight : sender.Straight) :
    sender.closed = false ∧ ∃ queued, Sent sender sample queued sender' := by
  unfold send at h
  rw [ite_error_ok] at h
  obtain ⟨hopen, h⟩ := h
  simp only [hnew] at h
  obtain ⟨⟨queued, size, retained⟩, hvet, h⟩ := bind_ok.mp h
  refine ⟨Bool.eq_false_iff.mpr hopen, queued, ?_⟩
  have hkey := vet_key hvet
  split_ifs at h with himmediate
  · exact deliver_sent h hkey himmediate hstraight
  · exact enqueue_sent h hkey (Bool.eq_false_iff.mpr himmediate)

theorem close_fst : sender.close.1 = sender.queue := rfl

/-- Two senders that differ in their bounds only. -/
structure Rebound (sender sender' : SampleSender E) : Prop where
  pending : sender'.pending = sender.pending
  delivered : sender'.delivered = sender.delivered
  seen : sender'.seen = sender.seen
  closed : sender'.closed = sender.closed
  mode : sender'.config.mode = sender.config.mode
  strip : ∀ (codec : EventCodec E) (sample : RemoteSample E),
    SampleSender.strip codec sender'.config sample = SampleSender.strip codec sender.config sample

theorem Rebound.refl (sender : SampleSender E) : sender.Rebound sender :=
  ⟨rfl, rfl, rfl, rfl, rfl, fun _ _ => rfl⟩

theorem Rebound.trans {s₁ s₂ s₃ : SampleSender E} (h : s₁.Rebound s₂)
    (h' : s₂.Rebound s₃) : s₁.Rebound s₃ :=
  ⟨h'.pending.trans h.pending, h'.delivered.trans h.delivered, h'.seen.trans h.seen,
    h'.closed.trans h.closed, h'.mode.trans h.mode,
    fun codec sample => (h'.strip codec sample).trans (h.strip codec sample)⟩

theorem maxSamples_rebound {maximum : ℕ} (h : sender.setMaxSamples maximum = .ok sender') :
    sender.Rebound sender' := by
  unfold SampleSender.setMaxSamples at h
  rw [ite_error_ok] at h
  cases h.2
  exact ⟨rfl, rfl, rfl, rfl, rfl, fun _ _ => rfl⟩

theorem setMaxRetainedBytes_rebound {maximum : ℕ}
    (h : sender.setMaxRetainedBytes maximum = .ok sender') : sender.Rebound sender' := by
  unfold SampleSender.setMaxRetainedBytes at h
  rw [ite_error_ok] at h
  cases h.2
  exact ⟨rfl, rfl, rfl, rfl, rfl, fun _ _ => rfl⟩

/-- What handing samples over does to a sender. -/
structure Handed (sender : SampleSender E) (samples : List (RemoteSample E))
    (sender' : SampleSender E) : Prop where
  queue : samples ++ sender'.queue = sender.queue
  seen : sender'.seen = sender.seen
  config : sender'.config = sender.config
  closed : sender'.closed = sender.closed
  straight : sender.Straight → sender'.Straight
  hold : sender.config.mode = .hold → sender'.pending = sender.pending

/-- `advance_time` hands over a beginning of the queue. -/
theorem time_handed {nowMs : ℕ} {samples : List (RemoteSample E)}
    (h : sender.advanceTime nowMs = .ok (samples, sender')) :
    sender.Handed samples sender' ∧ sender'.delivered = [] := by
  unfold advanceTime at h
  rw [ite_error_ok] at h
  have hdrained := Except.ok.inj h.2
  unfold flushIfTimeDue at hdrained
  split_ifs at hdrained with hdue
  · obtain ⟨hqueue, hpend, hseen, hconfig, hclosed⟩ :=
      flushFor_fields { sender with clockMs := nowMs }
    cases hdrained
    refine ⟨⟨hqueue, hseen, hconfig, hclosed, fun _ _ => hpend, fun hhold => ?_⟩, rfl⟩
    simp [batchTimeDue, hhold] at hdue
  · cases hdrained
    exact ⟨⟨rfl, rfl, rfl, rfl, id, fun _ => rfl⟩, rfl⟩

end SampleSender

end JmeterRs.Remote
