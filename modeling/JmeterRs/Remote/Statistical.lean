import JmeterRs.Lib.Log
import JmeterRs.Remote.Sender

/-!
# The statistical sender

In the statistical mode a sender keeps one pending sample for every label and thread group, and
replaces it by `aggregate_samples` of it and the next sample of the group.  The running aggregate
is read like any other sample, so it brings at most one error into the next one.
-/

namespace JmeterRs.Remote

open List SampleSender

/-- What an aggregation reads of a result. -/
structure SampleResult where
  label : Option String
  (timestamp startTime endTime : Option ℤ)
  (elapsed latency connectTime : Option ℕ)
  success : Option Bool
  (receivedBytes sentBytes sampleCount errorCount : Option ℕ)
  deriving DecidableEq

structure ThreadIdentity where
  name : Option String
  group : Option String
  number : Option ℕ
  deriving DecidableEq

/-- An event; `details` is everything that `aggregate_samples` leaves out, in the result and in
the event. -/
structure SampleEvent (D : Type) where
  result : SampleResult
  run : Option String
  thread : ThreadIdentity
  host : Option String
  details : D
  deriving DecidableEq

variable {D : Type}

abbrev Sample (D : Type) := RemoteSample (SampleEvent D)

namespace SampleResult

def succeeded (result : SampleResult) : Bool := result.success.getD true

def representedErrorCount (result : SampleResult) : ℕ :=
  match result.errorCount, result.success with
  | some errors, _ => errors
  | none, some false => 1
  | none, _ => 0

def sampleCountForAggregation (result : SampleResult) : ℕ := result.sampleCount.getD 1

def errorCountForAggregation (result : SampleResult) : ℕ := if result.succeeded then 0 else 1

end SampleResult

/-! ## Aggregation -/

/-- The checked sums of `aggregate_samples`: what is absent counts as zero. -/
def checkedSum (what : String) (first second : Option ℕ) : Except RemoteError ℕ :=
  need (.limit ("statistical " ++ what ++ " aggregation overflowed"))
    (checkedAdd u64Max (first.getD 0) (second.getD 0))

structure ValidationLimits where
  maxDepth : ℕ
  maxNodes : ℕ

def SenderConfig.limits (config : SenderConfig) : ValidationLimits :=
  ⟨config.resultDepth, config.resultNodes⟩

def aggregateSamples [Inhabited D] (codec : EventCodec (SampleEvent D))
    (limits : ValidationLimits) (previous incoming : Sample D) :
    Except RemoteError (Sample D) := do
  let first := previous.event.result
  let second := incoming.event.result
  let endTime := Option.merge max first.endTime second.endTime
  let elapsed ← checkedSum "elapsed-time" first.elapsed second.elapsed
  let latency ← checkedSum "latency" first.latency second.latency
  let connectTime ← checkedSum "connect-time" first.connectTime second.connectTime
  let receivedBytes ← checkedSum "byte" first.receivedBytes second.receivedBytes
  let sentBytes ← checkedSum "byte" first.sentBytes second.sentBytes
  let sampleCount ← checkedSum "sample-count"
    (some first.sampleCountForAggregation) (some second.sampleCountForAggregation)
  let errorCount ← checkedSum "error-count"
    (some first.errorCountForAggregation) (some second.errorCountForAggregation)
  let event : SampleEvent D :=
    { previous.event with
      result :=
        { label := first.label
          timestamp := endTime
          startTime := Option.merge min first.startTime second.startTime
          endTime
          elapsed := some elapsed
          latency := some latency
          connectTime := some connectTime
          success := some (first.succeeded && second.succeeded)
          receivedBytes := some receivedBytes
          sentBytes := some sentBytes
          sampleCount := some sampleCount
          errorCount := some errorCount }
      details := default }
  codec.validateWire limits.maxDepth limits.maxNodes event
  return { previous with event }

/-! ## The sender -/

inductive StatisticalKeyMode
  | threadGroup
  | threadName

structure StatisticalGroupKey where
  label : String
  dimension : String
  deriving DecidableEq

/-- `statistical_key`. -/
def StatisticalKeyMode.key (mode : StatisticalKeyMode) (sample : Sample D) :
    StatisticalGroupKey where
  label := sample.event.result.label.getD ""
  dimension :=
    match mode with
    | .threadGroup => sample.event.thread.group.getD ""
    | .threadName => sample.event.thread.name.getD ""

/-- What a sender has done with the samples. -/
inductive SenderNote (D : Type)
  | accepted (sample : Sample D)
  | flushed (samples : List (Sample D))
  | dropped (samples : List (Sample D))

/-- A sender in the statistical mode.  Its queues, bounds and clock are those of a sender in the
batch mode of the same size, whose time threshold and stripping are the same; `log` is not in the
source. -/
structure StatisticalSender (D : Type) where
  base : SampleSender (SampleEvent D)
  size : ℕ
  keyMode : StatisticalKeyMode
  groups : List (StatisticalGroupKey × ℕ)
  sampleCount : ℕ
  log : List (SenderNote D)

namespace StatisticalSender

def new (config : SenderConfig) (size : ℕ) (keyMode : StatisticalKeyMode) :
    StatisticalSender D where
  base := .new { config with mode := .batch size, supported := rfl }
  size
  keyMode
  groups := []
  sampleCount := 0
  log := []

/-- The groups after the pending samples have gone to `base`. -/
def clear (sender : StatisticalSender D) (base : SampleSender (SampleEvent D))
    (note : SenderNote D) : StatisticalSender D :=
  { sender with base, groups := [], sampleCount := 0, log := sender.log ++ [note] }

def flushPending (sender : StatisticalSender D) : StatisticalSender D :=
  sender.clear sender.base.flushPending (.flushed sender.base.pending)

def flushPendingForThreshold (sender : StatisticalSender D) : StatisticalSender D :=
  sender.clear sender.base.flushPendingForThreshold (.flushed sender.base.pending)

def batchCountDue (sender : StatisticalSender D) : Bool := sender.size ≤ sender.sampleCount

/-- `checked_sub` of the bytes of a sample, then `checked_add` of those that replace them. -/
def swapBytes (bytes previous next : ℕ) : Option ℕ :=
  if previous ≤ bytes then checkedAdd usizeMax (bytes - previous) next else none

variable [Inhabited D] [DecidableEq D] (codec : EventCodec (SampleEvent D))
  (sender : StatisticalSender D) (sample : Sample D)

/-- `send_statistical`, for a sample whose group has a pending aggregate. -/
def update (originalSize index : ℕ) : Except RemoteError (StatisticalSender D) := do
  let base := sender.base
  let previous ← need ⟨.internal, false, "statistical group index was not retained"⟩
    base.pending[index]?
  let previousSize ← encodedSampleSize codec base.config previous
  let aggregate ← aggregateSamples codec base.config.limits previous sample
  let aggregateSize ← encodedSampleSize codec base.config aggregate
  let retained ← need (.limit "sender statistical retained-byte accounting overflowed")
    ((checkedAdd usizeMax base.retainedBytes originalSize).bind
      (swapBytes · previousSize aggregateSize))
  base.ensureRetained retained
  let pendingBytes ← need
    ⟨.internal, false, "statistical pending-byte accounting underflowed"⟩
    (swapBytes base.pendingBytes previousSize aggregateSize)
  return { sender with
    base :=
      { base with
        pending := base.pending.set index aggregate
        pendingBytes
        seen := base.seen.insert sample.key sample
        retainedBytes := retained } }

/-- `send_statistical`, for the first sample of a group. -/
def add (size : ℕ) (key : StatisticalGroupKey) : Except RemoteError (StatisticalSender D) := do
  let base := sender.base
  base.ensureQueueSpace
  let retained ← base.retainedAfterAdd size size
  base.ensureRetained retained
  let pendingBytes ← need (.limit "sender pending-byte accounting overflowed")
    (checkedAdd usizeMax base.pendingBytes size)
  return { sender with
    groups := sender.groups ++ [(key, base.pending.length)]
    base :=
      { base with
        pending := base.pending ++ [sample]
        pendingBytes
        seen := base.seen.insert sample.key sample
        retainedBytes := retained } }

/-- `send_statistical` up to the note of the sample. -/
def place (size : ℕ) : Except RemoteError (StatisticalSender D) :=
  match sender.groups.lookup (sender.keyMode.key sample) with
  | some index => update codec sender sample size index
  | none => add sender sample size (sender.keyMode.key sample)

def sendStatistical (size : ℕ) : Except RemoteError (SendOutcome × StatisticalSender D) := do
  let sampleCount ← need (.limit "statistical sample count overflowed")
    (checkedAdd u64Max sender.sampleCount 1)
  let sender ← place codec sender sample size
  let sender :=
    { sender with
      base := sender.base.startBatchTimerIfNeeded
      sampleCount
      log := sender.log ++ [.accepted sample] }
  if sender.batchCountDue || sender.base.batchTimeDue then
    return (.queuedAndFlushed, sender.flushPendingForThreshold)
  else return (.queued, sender)

/-- A sample of a group that has an aggregate needs no place in the queue. -/
def ensureSlot : Except RemoteError Unit :=
  if (sender.groups.lookup (sender.keyMode.key sample)).isSome then .ok ()
  else sender.base.ensureQueueSpace

def send : Except RemoteError (SendOutcome × StatisticalSender D) :=
  let base := sender.base
  if base.closed then .error ⟨.invalidState, false, "sample sender is closed"⟩
  else
    match base.seen[sample.key]? with
    | some previous =>
      if previous = sample then .ok (.duplicate, sender)
      else .error ⟨.conflictingDuplicate, false,
        "sample " ++ sample.key.debug ++ " was already accepted with different contents"⟩
    | none => do
      failIf (base.config.maxSamples ≤ base.seen.size)
        (.limit "sample deduplication bound exhausted")
      ensureSlot sender sample
      codec.validateWire base.config.resultDepth base.config.resultNodes sample.event
      -- the mode does not strip, so the sizes of what is sent and of what is queued agree
      let size ← encodedSampleSize codec base.config sample
      let _ ← base.retainedAfterAdd size size
      sendStatistical codec sender sample size

variable (config : SenderConfig) (size : ℕ) (mode : StatisticalKeyMode)

/-- What can happen to a sender.  A refused `send` changes nothing; `flush`, `poll`, `close` and a
time threshold are flushes and changes of the queues. -/
inductive Reached : StatisticalSender D → Prop
  | new : Reached (new config size mode)
  | send {sender sender' : StatisticalSender D} {sample : Sample D} {outcome : SendOutcome}
      (h : Reached sender) (hsend : send codec sender sample = .ok (outcome, sender')) :
      Reached sender'
  | flush {sender : StatisticalSender D} (h : Reached sender) : Reached sender.flushPending
  | abort {sender : StatisticalSender D} (h : Reached sender) :
      Reached (sender.clear sender.base.abort.2 (.dropped sender.base.pending))
  | queues {sender : StatisticalSender D} {base : SampleSender (SampleEvent D)}
      (h : Reached sender) (hpending : base.pending = sender.base.pending)
      (hlimits : base.config.limits = sender.base.config.limits) :
      Reached { sender with base }

end StatisticalSender

/-! ## What an aggregate should say -/

/-- The sums over some results, the first start, the last end and whether all succeeded. -/
def total (results : List SampleResult) : SampleResult :=
  let endTime := (results.map (·.endTime)).foldl (Option.merge max) none
  { label := none
    timestamp := endTime
    startTime := (results.map (·.startTime)).foldl (Option.merge min) none
    endTime
    elapsed := some (results.map (·.elapsed.getD 0)).sum
    latency := some (results.map (·.latency.getD 0)).sum
    connectTime := some (results.map (·.connectTime.getD 0)).sum
    success := some (results.all (·.succeeded))
    receivedBytes := some (results.map (·.receivedBytes.getD 0)).sum
    sentBytes := some (results.map (·.sentBytes.getD 0)).sum
    sampleCount := some (results.map (·.sampleCountForAggregation)).sum
    errorCount := none }

/-- Everything but the label and the errors. -/
def SampleResult.values (result : SampleResult) : SampleResult :=
  { result with label := none, errorCount := none }

def results (samples : List (Sample D)) : List SampleResult := samples.map (·.event.result)

def failures (samples : List (Sample D)) : ℕ := samples.countP fun s => !s.event.result.succeeded

/-- The fields of an aggregate that are taken from the first sample. -/
structure SameOrigin (first p : Sample D) : Prop where
  runId : p.runId = first.runId
  key : p.key = first.key
  label : p.event.result.label = first.event.result.label
  run : p.event.run = first.event.run
  thread : p.event.thread = first.event.thread
  host : p.event.host = first.event.host

variable {rs : List SampleResult} {rs' : List SampleResult}

theorem total_total : total [total rs] = total rs := by
  simp [total, SampleResult.sampleCountForAggregation, SampleResult.succeeded]

theorem total_concat (h : total rs = total rs') (b : SampleResult) :
    total (rs ++ [b]) = total (rs' ++ [b]) := by
  simp only [total, SampleResult.mk.injEq, Option.some.injEq] at h
  simp only [total, map_append, sum_append, foldl_append, all_append, h]

theorem total_perm (h : rs.Perm rs') : total rs = total rs' := by
  simp only [total, h.all_eq, (h.map _).sum_eq, (h.map _).foldl_eq]

variable {l l' : List (Sample D)} {p p' s : Sample D}

theorem failures_concat : failures (l ++ [s]) = failures l + failures [s] :=
  countP_append

theorem failures_dropLast (l : List (Sample D)) :
    failures l.dropLast ≤ failures l ∧ failures l ≤ failures l.dropLast + 1 := by
  rcases eq_nil_or_concat l with rfl | ⟨front, last, rfl⟩
  · exact ⟨Nat.le_refl _, Nat.zero_le _⟩
  · have hlast : failures [last] ≤ 1 := List.countP_le_length
    rw [concat_eq_append, dropLast_concat, failures_concat]
    omega

theorem failures_single : failures [s] = s.event.result.errorCountForAggregation := by
  cases h : s.event.result.succeeded <;>
    simp [failures, SampleResult.errorCountForAggregation, h]

/-- An aggregate brings one error, however many of its samples have failed. -/
theorem errorCount_eq (h : total [p.event.result] = total (results l)) :
    p.event.result.errorCountForAggregation = min 1 (failures l) := by
  have hsuccess : p.event.result.succeeded = (results l).all (·.succeeded) := by
    simpa [total] using congrArg SampleResult.success h
  have hall : (results l).all (·.succeeded) = decide (failures l = 0) := by
    rw [Bool.eq_iff_iff]
    simp [failures, results]
  rw [SampleResult.errorCountForAggregation, hsuccess, hall]
  by_cases hfailed : failures l = 0
  · simp [hfailed]
  · simp [hfailed, Nat.one_le_iff_ne_zero]

theorem sum_ok {what : String} {first second : Option ℕ} {n : ℕ}
    (h : checkedSum what first second = .ok n) : n = first.getD 0 + second.getD 0 :=
  (checkedAdd_some.mp (need_eq_ok.mp h)).1

/-- The samples accepted since the last flush. -/
def batch (log : List (SenderNote D)) : List (Sample D) :=
  log.foldl (fun batch note =>
    match note with
    | .accepted sample => batch ++ [sample]
    | .flushed _ | .dropped _ => []) []

theorem batch_concat (log : List (SenderNote D)) (note : SenderNote D) : batch (log ++ [note]) =
      match note with
      | .accepted sample => batch log ++ [sample]
      | .flushed _ | .dropped _ => [] :=
  foldl_append ..

def sources (mode : StatisticalKeyMode) (key : StatisticalGroupKey) (batch : List (Sample D)) :
    List (Sample D) :=
  batch.filter (mode.key · = key)

variable {mode : StatisticalKeyMode} {key : StatisticalGroupKey} {samples : List (Sample D)}

theorem sources_concat (h : mode.key s = key) :
    sources mode key (samples ++ [s]) = sources mode key samples ++ [s] := by
  simp [sources, h]

theorem sources_other (h : mode.key s ≠ key) :
    sources mode key (samples ++ [s]) = sources mode key samples := by
  simp [sources, h]

/-! ## The fold -/

section

variable [Inhabited D] (codec : EventCodec (SampleEvent D)) (limits : ValidationLimits)

/-- The sample that the samples of a group are aggregated to, one after the other. -/
inductive Aggregated : List (Sample D) → Sample D → Prop
  | one (s : Sample D) : Aggregated [s] s
  | more {l : List (Sample D)} {p s p' : Sample D} (h : Aggregated l p)
      (hs : aggregateSamples codec limits p s = .ok p') : Aggregated (l ++ [s]) p'

end

/-- What an aggregate should say, and that it says the same in every order of the samples, under
whatever codec and limits. -/
structure Reported [Inhabited D] (l : List (Sample D)) (p : Sample D) : Prop where
  origin : ∃ first ∈ l.head?, SameOrigin first p
  totals : total [p.event.result] = total (results l)
  errors : p.event.result.representedErrorCount = failures l
  order : ∀ l', l'.Perm l → ∀ codec limits p', Aggregated codec limits l' p' →
    p'.event.result.values = p.event.result.values ∧
      p'.event.result.errorCount = p.event.result.errorCount

/-- A sample alone counts as many errors as its outcome says.  Of several samples at most one has
failed, or there are two and both have. -/
structure Sound (l : List (Sample D)) : Prop where
  alone : ∀ s, l = [s] → s.event.result.representedErrorCount = failures l
  several : l.length ≠ 1 → failures l ≤ 1 ∨ l.length = 2 ∧ failures l = 2

section

variable [Inhabited D] {codec : EventCodec (SampleEvent D)} {limits : ValidationLimits}

/-- `aggregate_samples` adds up two samples. -/
theorem aggregate_ok (h : aggregateSamples codec limits p s = .ok p') :
    SameOrigin p p' ∧ p'.event.result.values = total (results [p, s]) ∧ p'.event.result.errorCount =
        some (p.event.result.errorCountForAggregation + failures [s]) := by
  simp only [aggregateSamples, bind_ok] at h
  obtain ⟨_, helapsed, _, hlatency, _, hconnect, _, hreceived, _, hsent, _, hsamples, _, herrors, _,
    -, h⟩ := h
  cases h
  refine ⟨⟨rfl, rfl, rfl, rfl, rfl, rfl⟩, ?_, ?_⟩
  · simp [SampleResult.values, total, results, sum_ok helapsed,
      sum_ok hlatency, sum_ok hconnect, sum_ok hreceived,
      sum_ok hsent, sum_ok hsamples]
  · rw [failures_single, sum_ok herrors]
    rfl

/-- The sums, and the result that several samples are aggregated to. -/
theorem Aggregated.spec (h : Aggregated codec limits l p) :
    (∃ first ∈ l.head?, SameOrigin first p) ∧ total [p.event.result] = total (results l) ∧
      (l = [p] ∨ l.length ≠ 1 ∧ p.event.result.values = total (results l) ∧
        p.event.result.errorCount =
          some (min 1 (failures l.dropLast) + (failures l - failures l.dropLast))) := by
  induction h with
  | one s => exact ⟨⟨s, rfl, rfl, rfl, rfl, rfl, rfl, rfl⟩, rfl, .inl rfl⟩
  | @more l middle s p _ hs ih =>
    obtain ⟨⟨first, hfirst, horigin⟩, htotal, -⟩ := ih
    obtain ⟨hkept, hvalues, herrors⟩ := aggregate_ok hs
    have hsum : p.event.result.values = total (results (l ++ [s])) := by
      rw [hvalues, results, results, map_append]
      exact total_concat htotal _
    refine ⟨⟨first, ?_, ?_⟩, ?_, .inr ⟨?_, hsum, ?_⟩⟩
    · rw [head?_append, hfirst]
      rfl
    · exact ⟨hkept.runId.trans horigin.runId, hkept.key.trans horigin.key,
        hkept.label.trans horigin.label, hkept.run.trans horigin.run,
        hkept.thread.trans horigin.thread, hkept.host.trans horigin.host⟩
    · exact (congrArg (total [·]) hsum).trans total_total
    · rintro hlen
      rw [length_append, length_singleton, Nat.add_eq_right] at hlen
      rw [length_eq_zero_iff.mp hlen] at hfirst
      cases hfirst
    · rw [herrors, errorCount_eq htotal, dropLast_concat, failures_concat, Nat.add_sub_cancel_left]

/-- The sums that an aggregation forms can be represented. -/
structure Bounded (r : SampleResult) : Prop where
  elapsed : r.elapsed.getD 0 ≤ u64Max
  latency : r.latency.getD 0 ≤ u64Max
  connectTime : r.connectTime.getD 0 ≤ u64Max
  receivedBytes : r.receivedBytes.getD 0 ≤ u64Max
  sentBytes : r.sentBytes.getD 0 ≤ u64Max
  sampleCount : r.sampleCountForAggregation ≤ u64Max

theorem sum_le {what : String} {first second : Option ℕ} {n : ℕ}
    (h : checkedSum what first second = .ok n) : n ≤ u64Max := by
  obtain ⟨rfl, hle⟩ := checkedAdd_some.mp (need_eq_ok.mp h)
  exact hle

theorem sum_eq {what : String} {first second : Option ℕ}
    (h : first.getD 0 + second.getD 0 ≤ u64Max) :
    checkedSum what first second = .ok (first.getD 0 + second.getD 0) :=
  need_eq_ok.mpr (checkedAdd_le h)

theorem Aggregated.bounded (h : Aggregated codec limits l p) (hlen : l.length ≠ 1) :
    Bounded (total (results l)) := by
  obtain ⟨-, -, rfl | ⟨-, hvalues, -⟩⟩ := h.spec
  · exact absurd rfl hlen
  cases h with
  | one => exact absurd rfl hlen
  | more _ hs =>
    rw [← hvalues]
    simp only [aggregateSamples, bind_ok] at hs
    obtain ⟨_, helapsed, _, hlatency, _, hconnect, _, hreceived, _, hsent, _, hsamples, _, -, _,
      -, hs⟩ := hs
    cases hs
    exact ⟨sum_le helapsed, sum_le hlatency, sum_le hconnect, sum_le hreceived, sum_le hsent,
      sum_le hsamples⟩

/-- A codec that refuses nothing. -/
def freeCodec : EventCodec (SampleEvent D) where
  validateWire _ _ _ := .ok ()
  strip _ _ _ _ event := .ok event
  encodedSampleLen _ _ _ := .ok 0
  validateWire_code := nofun
  strip_code := nofun
  encodedSampleLen_code := nofun

theorem Bounded.front {r : SampleResult} (h : Bounded (total (rs ++ [r]))) :
    Bounded (total rs) := by
  obtain ⟨helapsed, hlatency, hconnect, hreceived, hsent, hsamples⟩ := h
  simp only [total, map_append, sum_append, Option.getD_some,
    SampleResult.sampleCountForAggregation]
    at helapsed hlatency hconnect hreceived hsent hsamples
  exact ⟨Nat.le_of_add_right_le helapsed, Nat.le_of_add_right_le hlatency,
    Nat.le_of_add_right_le hconnect, Nat.le_of_add_right_le hreceived,
    Nat.le_of_add_right_le hsent, Nat.le_of_add_right_le hsamples⟩

theorem aggregate_of_bounded (h : Bounded (total (results [p, s]))) :
    ∃ p', aggregateSamples freeCodec limits p s = .ok p' := by
  obtain ⟨helapsed, hlatency, hconnect, hreceived, hsent, hsamples⟩ := h
  simp only [total, results, map_cons, map_nil, sum_cons, sum_nil, Nat.add_zero, Option.getD_some]
    at helapsed hlatency hconnect hreceived hsent
  have hcounts : (some p.event.result.sampleCountForAggregation).getD 0 +
      (some s.event.result.sampleCountForAggregation).getD 0 ≤ u64Max := by
    simpa [total, results, SampleResult.sampleCountForAggregation] using hsamples
  have herrors : (some p.event.result.errorCountForAggregation).getD 0 +
      (some s.event.result.errorCountForAggregation).getD 0 ≤ u64Max := by
    have hle (r : SampleResult) : r.errorCountForAggregation ≤ 1 := by
      unfold SampleResult.errorCountForAggregation
      split_ifs <;> omega
    exact Nat.le_trans (Nat.add_le_add (hle _) (hle _)) (by decide)
  simp only [aggregateSamples, sum_eq helapsed, sum_eq hlatency, sum_eq hconnect,
    sum_eq hreceived, sum_eq hsent, sum_eq hcounts, sum_eq herrors]
  exact ⟨_, rfl⟩

/-- Samples whose sums can be represented can be aggregated. -/
theorem aggregated_of_bounded (hne : l ≠ []) (hbounded : Bounded (total (results l))) :
    ∃ p, Aggregated freeCodec limits l p := by
  induction l using List.reverseRecOn with
  | nil => exact absurd rfl hne
  | append_singleton front s ih =>
    by_cases hfront : front = []
    · rw [hfront]
      exact ⟨s, .one s⟩
    rw [results, map_append] at hbounded
    obtain ⟨p, hp⟩ := ih hfront hbounded.front
    have hpair : total (results [p, s]) = total (results front ++ [s.event.result]) :=
      total_concat hp.spec.2.1 s.event.result
    obtain ⟨p', hp'⟩ : ∃ p', aggregateSamples freeCodec limits p s = .ok p' :=
      aggregate_of_bounded (hpair ▸ hbounded)
    exact ⟨p', hp.more hp'⟩

/-- An aggregate is right, in every order, just if its samples are sound. -/
theorem reported_iff (h : Aggregated codec limits l p) : Reported l p ↔ Sound l := by
  obtain ⟨horigin, htotal, rfl | ⟨hlen, hvalues, herrors⟩⟩ := h.spec
  · refine ⟨fun hr => ⟨fun s hs => ?_, fun hne => absurd rfl hne⟩,
      fun hs => ⟨horigin, htotal, hs.alone p rfl, fun l' hl' codec' limits' p' hp' => ?_⟩⟩
    · cases hs
      exact hr.errors
    · obtain rfl := perm_singleton.mp hl'
      obtain ⟨-, -, heq | ⟨hlen, -⟩⟩ := hp'.spec
      · cases heq
        exact ⟨rfl, rfl⟩
      · exact absurd rfl hlen
  · have hcount : p.event.result.representedErrorCount =
        min 1 (failures l.dropLast) + (failures l - failures l.dropLast) := by
      simp [SampleResult.representedErrorCount, herrors]
    -- in another order the same values, and the errors by the same rule
    have hother {l' codec' limits' p'} (hl' : l'.Perm l) (hp' : Aggregated codec' limits' l' p') :
        p'.event.result.values = p.event.result.values ∧ p'.event.result.errorCount =
            some (min 1 (failures l'.dropLast) + (failures l' - failures l'.dropLast)) := by
      obtain ⟨-, -, rfl | ⟨-, hvalues', herrors'⟩⟩ := hp'.spec
      · exact absurd hl'.length_eq.symm hlen
      · refine ⟨?_, herrors'⟩
        rw [hvalues, hvalues']
        exact total_perm (hl'.map _)
    constructor
    · refine fun hr => ⟨fun s hs => absurd (congrArg List.length hs) hlen, fun _ => ?_⟩
      have herror := hr.errors
      by_contra hunsound
      by_cases hall : ∃ s ∈ l, s.event.result.succeeded = true
      · -- the order in which a successful sample comes last counts one error
        obtain ⟨s, hs, hsucceeded⟩ := hall
        obtain ⟨front, back, rfl⟩ := append_of_mem hs
        have hperm : (front ++ back ++ [s]).Perm (front ++ s :: back) := by
          rw [append_assoc]
          exact (perm_append_singleton s back).append_left front
        have hbounded : Bounded (total (results (front ++ back ++ [s]))) := by
          rw [show total (results (front ++ back ++ [s])) = _ from total_perm (hperm.map _)]
          exact h.bounded hlen
        obtain ⟨p', hp'⟩ : ∃ p', Aggregated freeCodec limits (front ++ back ++ [s]) p' :=
          aggregated_of_bounded (by simp) hbounded
        have hsame := (hr.order _ hperm _ _ p' hp').2
        rw [(hother hperm hp').2, herrors, Option.some_inj] at hsame
        have hfailures : failures (front ++ back ++ [s]) = failures (front ++ s :: back) :=
          hperm.countP_eq _
        have hnone : failures [s] = 0 := by
          rw [failures_single, SampleResult.errorCountForAggregation, if_pos hsucceeded]
        rw [failures_concat, hnone] at hfailures
        rw [dropLast_concat, failures_concat, hnone] at hsame
        omega
      · have hfailed : failures l = l.length := by
          refine countP_eq_length.mpr fun s hs => ?_
          simpa using fun hsucceeded => hall ⟨s, hs, hsucceeded⟩
        have hlast := failures_dropLast l
        have hshort : failures l.dropLast ≤ l.length - 1 :=
          (length_dropLast ▸ countP_le_length :)
        omega
    · intro hs
      have hcounts {l' : List (Sample D)} (hl' : l'.Perm l) :
          min 1 (failures l'.dropLast) + (failures l' - failures l'.dropLast) = failures l := by
        have hfailures : failures l' = failures l := hl'.countP_eq _
        have hlast := failures_dropLast l'
        have hshort : failures l'.dropLast ≤ l'.length - 1 :=
          (length_dropLast ▸ countP_le_length :)
        rw [hl'.length_eq] at hshort
        rcases hs.several hlen with hone | ⟨htwo, hboth⟩ <;> omega
      refine ⟨horigin, htotal, hcount.trans (hcounts (.refl l)),
        fun l' hl' codec' limits' p' hp' => ?_⟩
      obtain ⟨hvalues', herrors'⟩ := hother hl' hp'
      exact ⟨hvalues', by rw [herrors', herrors, hcounts hl', hcounts (.refl l)]⟩

/-! ## Groups -/

variable (codec limits) (mode : StatisticalKeyMode)

/-- There is one aggregate for every key, and it is that of the samples with this key. -/
structure Grouped (groups : List (StatisticalGroupKey × ℕ)) (pending batch : List (Sample D)) :
    Prop where
  index : groups.map Prod.snd = List.range pending.length
  nodup : (groups.map Prod.fst).Nodup
  covers : ∀ sample ∈ batch, mode.key sample ∈ groups.map Prod.fst
  folds : ∀ {key i}, (key, i) ∈ groups →
    ∃ p, pending[i]? = some p ∧ Aggregated codec limits (sources mode key batch) p

/-- The aggregates of a flush are right for the sound groups, and for them only. -/
def Delivered (before : List (SenderNote D)) (note : SenderNote D) : Prop :=
  ∀ out, note = .flushed out → ∃ groups, Grouped codec limits mode groups out (batch before) ∧
    ∀ key i p, (key, i) ∈ groups → out[i]? = some p →
      (Reported (sources mode key (batch before)) p ↔
        Sound (sources mode key (batch before)))

structure Lawful (sender : StatisticalSender D) : Prop where
  bounds : sender.base.config.limits = limits
  keys : sender.keyMode = mode
  grouped : Grouped codec limits mode sender.groups sender.base.pending (batch sender.log)
  log : Stepwise (Delivered codec limits mode) sender.log

variable {codec limits mode} {groups : List (StatisticalGroupKey × ℕ)} {pending : List (Sample D)}
  {i : ℕ}

theorem grouped_nil : Grouped codec limits mode [] [] [] :=
  ⟨range_zero.symm, nodup_nil, by simp, by simp⟩

section

variable (h : Grouped codec limits mode groups pending samples)

include h

theorem Grouped.update (hi : groups.lookup (mode.key s) = some i) (hp : pending[i]? = some p)
    (hs : aggregateSamples codec limits p s = .ok p') :
    Grouped codec limits mode groups (pending.set i p') (samples ++ [s]) := by
  obtain ⟨_, _, hgroups, -⟩ := lookup_eq_some_iff.mp hi
  have hmem : (mode.key s, i) ∈ groups := hgroups ▸ by simp
  have hsender : (groups.map Prod.snd).Nodup := h.index ▸ nodup_range
  refine ⟨by rw [h.index, length_set], h.nodup, ?_, fun {key j} hkey => ?_⟩
  · simpa [or_imp, forall_and] using ⟨by simpa using h.covers, i, hmem⟩
  · obtain ⟨q, hq, hfold⟩ := h.folds hkey
    by_cases hsame : mode.key s = key
    · obtain rfl : j = i := congrArg Prod.snd (inj_on_of_nodup_map h.nodup hkey hmem hsame.symm)
      rw [hp] at hq
      cases hq
      refine ⟨p', getElem?_set_self (List.getElem?_eq_some_iff.mp hp).1, ?_⟩
      rw [sources_concat hsame]
      exact hfold.more hs
    · have hne : i ≠ j := by
        rintro rfl
        exact hsame (congrArg Prod.fst (inj_on_of_nodup_map hsender hmem hkey rfl))
      exact ⟨q, by rw [getElem?_set_ne hne, hq], (sources_other hsame).symm ▸ hfold⟩

theorem Grouped.add (hnew : groups.lookup (mode.key s) = none) :
    Grouped codec limits mode (groups ++ [(mode.key s, pending.length)]) (pending ++ [s])
      (samples ++ [s]) := by
  have hfresh : mode.key s ∉ groups.map Prod.fst := by
    rw [lookup_eq_none_iff] at hnew
    intro hmem
    obtain ⟨g, hg, heq⟩ := mem_map.mp hmem
    simpa [heq] using hnew g hg
  refine ⟨?_, ?_, ?_, fun {key j} hkey => ?_⟩
  · simp [h.index, range_succ]
  · rw [map_append, nodup_append_comm]
    exact nodup_cons.mpr ⟨hfresh, h.nodup⟩
  · intro sample hsample
    rcases mem_append.mp hsample with hsample | hsample
    · exact map_append ▸ mem_append_left _ (h.covers sample hsample)
    · simp [mem_singleton.mp hsample]
  · rcases mem_append.mp hkey with hkey | hkey
    · obtain ⟨q, hq, hfold⟩ := h.folds hkey
      have hother : mode.key s ≠ key := fun heq => hfresh (heq ▸ mem_map_of_mem hkey)
      refine ⟨q, ?_, (sources_other hother).symm ▸ hfold⟩
      rw [getElem?_append_left (List.getElem?_eq_some_iff.mp hq).1, hq]
    · cases mem_singleton.mp hkey
      have hnone : sources mode (mode.key s) samples = [] := by
        refine filter_eq_nil_iff.mpr fun sample hsample heq => hfresh ?_
        exact of_decide_eq_true heq ▸ h.covers sample hsample
      refine ⟨s, by simp, ?_⟩
      rw [sources_concat rfl, hnone]
      exact .one s

end

/-! ## Runs -/

variable {sender sender' : StatisticalSender D}

theorem Lawful.clear {base : SampleSender (SampleEvent D)} {note : SenderNote D}
    (h : Lawful codec limits mode sender) (hpend : base.pending = [])
    (hlimits : base.config.limits = limits)
    (hnote : note = .flushed sender.base.pending ∨ note = .dropped sender.base.pending) :
    Lawful codec limits mode (sender.clear base note) := by
  refine ⟨hlimits, h.keys, ?_, h.log.concat fun out hout => ⟨sender.groups, ?_⟩⟩
  · have hbatch : batch (sender.log ++ [note]) = [] := by
      rw [batch_concat]
      rcases hnote with rfl | rfl <;> rfl
    show Grouped codec limits mode [] base.pending (batch (sender.log ++ [note]))
    rw [hbatch, hpend]
    exact grouped_nil
  · obtain rfl : sender.base.pending = out := by
      rcases hnote with rfl | rfl <;> cases hout
      rfl
    refine ⟨h.grouped, fun key i p hkey hp => ?_⟩
    obtain ⟨q, hq, hfold⟩ := h.grouped.folds hkey
    rw [hp] at hq
    cases hq
    exact reported_iff hfold

section

variable (h : Lawful codec limits mode sender)

include h

theorem Lawful.threshold : Lawful codec limits mode sender.flushPendingForThreshold := by
  obtain ⟨-, hpend, -, hconfig, -⟩ := flushFor_fields sender.base
  exact h.clear hpend (hconfig ▸ h.bounds) (.inl rfl)

theorem Lawful.place {size : ℕ} (hplace : sender.place codec s size = .ok sender') :
    sender'.keyMode = mode ∧ sender'.base.config.limits = limits ∧ sender'.log = sender.log ∧
      Grouped codec limits mode sender'.groups sender'.base.pending (batch sender.log ++ [s]) := by
  obtain rfl := h.keys
  obtain rfl := h.bounds
  unfold StatisticalSender.place at hplace
  split at hplace
  · next i hi =>
    simp only [StatisticalSender.update, bind_ok] at hplace
    obtain ⟨p, hp, _, -, p', hp', _, -, _, -, _, -, _, -, hplace⟩ := hplace
    cases hplace
    exact ⟨rfl, rfl, rfl, h.grouped.update hi (need_eq_ok.mp hp) hp'⟩
  · next hnew =>
    simp only [StatisticalSender.add, bind_ok] at hplace
    obtain ⟨_, -, _, -, _, -, _, -, hplace⟩ := hplace
    cases hplace
    exact ⟨rfl, rfl, rfl, h.grouped.add hnew⟩

theorem Lawful.sendStatistical {size : ℕ}
    {outcome : SendOutcome} (hsend : sender.sendStatistical codec s size = .ok (outcome, sender')) :
    Lawful codec limits mode sender' := by
  obtain ⟨n, -, hsend⟩ := bind_ok.mp hsend
  obtain ⟨placed, hplace, hsend⟩ := bind_ok.mp hsend
  obtain ⟨hkeys, hbounds, hlog, hgrouped⟩ := h.place hplace
  obtain ⟨-, hpend, -, hconfig, -⟩ := timer_fields placed.base
  have hlawful : Lawful codec limits mode { placed with
      base := placed.base.startBatchTimerIfNeeded
      sampleCount := n
      log := placed.log ++ [.accepted s] } := by
    rw [hlog]
    refine ⟨hconfig ▸ hbounds, hkeys, ?_, h.log.concat nofun⟩
    rw [hpend, batch_concat]
    exact hgrouped
  dsimp only at hsend
  split_ifs at hsend
  · cases hsend
    exact hlawful.threshold
  · cases hsend
    exact hlawful

end

variable [DecidableEq D]

theorem Lawful.send (h : Lawful codec limits mode sender) {outcome : SendOutcome}
    (hsend : sender.send codec s = .ok (outcome, sender')) : Lawful codec limits mode sender' := by
  unfold StatisticalSender.send at hsend
  rw [ite_error_ok] at hsend
  obtain ⟨-, hsend⟩ := hsend
  split at hsend
  · split_ifs at hsend
    cases hsend
    exact h
  · simp only [bind_ok] at hsend
    obtain ⟨_, -, _, -, _, -, _, -, _, -, hsend⟩ := hsend
    exact h.sendStatistical hsend

/-- **Every flush hands over one aggregate for every key**, that of the samples accepted with this
key since the last flush; it is right, in every order of these samples, just if they are sound. -/
theorem flushed_reported_iff {config : SenderConfig} {size : ℕ}
    (h : StatisticalSender.Reached codec config size mode sender) :
    Stepwise (Delivered codec config.limits mode) sender.log := by
  have hlawful : Lawful codec config.limits mode sender := by
    induction h with
    | new => exact ⟨rfl, rfl, grouped_nil, stepwise_nil⟩
    | send _ hsend ih => exact ih.send hsend
    | flush _ ih => exact ih.clear rfl ih.bounds (.inl rfl)
    | abort _ ih => exact ih.clear rfl ih.bounds (.inr rfl)
    | queues _ hpending hlimits ih =>
      exact ⟨hlimits.trans ih.bounds, ih.keys, hpending ▸ ih.grouped, ih.log⟩
  exact hlawful.log

end

/-! ## Failed samples -/

/-- A codec for results without sub-results.  As in the source, there are at most as many errors as
samples, and a sample must come back from the wire as it was: an error count that is only implied by
the outcome would come back as an explicit one. -/
def flatCodec : EventCodec (SampleEvent Unit) where
  validateWire depth nodes event :=
    failIf (depth < 1 ∨ nodes < 1 ∨ event.result.sampleCount.any
      (· < event.result.representedErrorCount)) ⟨.invalidSample, false, "result is not valid"⟩
  strip _ _ _ _ event := .ok event
  encodedSampleLen _ _ sample := do
    failIf (sample.event.result.errorCount = none ∧ sample.event.result.success ≠ none)
      ⟨.capabilityUnavailable, false, "result metadata is not carried"⟩
    return 256
  validateWire_code h := by
    unfold failIf at h
    split_ifs at h
    cases h
    nofun
  strip_code := nofun
  encodedSampleLen_code h := by
    unfold failIf at h
    split_ifs at h <;> cases h
    nofun

/-- A sample that has failed and says so. -/
def failed (sequence : ℕ) : Sample Unit :=
  ⟨1, ⟨1, sequence⟩,
    ⟨⟨some "home", none, none, none, none, none, none, some false, none, none, none, some 1⟩,
      none, ⟨none, some "users", none⟩, none, ()⟩⟩

def wideConfig : SenderConfig where
  mode := .batch 8
  capacity := 8
  wireCodecLimits := .default
  maxRetainedBytes := 4096
  maxSamples := 8
  resultDepth := 8
  resultNodes := 8
  batchTimeMs := none
  stripAlsoOnError := false
  stripDepth := 1
  supported := rfl

/-- The sender after some samples; one that is refused changes nothing. -/
def sent (samples : List (Sample Unit)) : StatisticalSender Unit :=
  samples.foldl (fun sender s => ((sender.send flatCodec s).map Prod.snd).toOption.getD sender)
    (.new wideConfig 8 .threadGroup)

theorem reached_sent {samples : List (Sample Unit)} :
    StatisticalSender.Reached flatCodec wideConfig 8 .threadGroup (sent samples) := by
  induction samples using List.reverseRecOn with
  | nil => exact .new
  | append_singleton front last ih =>
    rw [sent, foldl_append]
    change StatisticalSender.Reached _ _ _ _
      ((((sent front).send flatCodec last).map Prod.snd).toOption.getD (sent front))
    cases hsend : (sent front).send flatCodec last with
    | error e => exact ih
    | ok out => exact ih.send hsend

theorem flushed_two_failed : Stepwise (Delivered flatCodec wideConfig.limits .threadGroup)
      (sent [failed 1, failed 2]).flushPending.log :=
  flushed_reported_iff reached_sent.flush

/-- Of three failed samples the last one and the two before it are counted as one error each. -/
theorem three_failed_two_errors :
    ∃ sender before p, StatisticalSender.Reached flatCodec wideConfig 8 .threadGroup sender ∧
      sender.log = before ++ [.flushed [p]] ∧ batch before = [failed 1, failed 2, failed 3] ∧
      p.event.result.representedErrorCount = 2 ∧
      ¬ Reported (batch before) p := by
  obtain ⟨p, hp⟩ : ∃ p, (sent [failed 1, failed 2, failed 3]).base.pending = [p] := by
    rw [← length_eq_one_iff]
    decide +kernel
  have hbatch : batch (sent [failed 1, failed 2, failed 3]).log =
      [failed 1, failed 2, failed 3] := by
    decide +kernel
  have herrors : p.event.result.representedErrorCount = 2 := by
    have herrors : (sent [failed 1, failed 2, failed 3]).base.pending.map
        (·.event.result.representedErrorCount) = [2] := by
      decide +kernel
    simpa [hp] using herrors
  refine ⟨_, _, p, reached_sent.flush,
    congrArg (fun out => _ ++ [SenderNote.flushed out]) hp, hbatch, herrors, fun hreported => ?_⟩
  have hthree := hreported.errors
  rw [herrors, hbatch] at hthree
  exact absurd hthree (by decide)

end JmeterRs.Remote
