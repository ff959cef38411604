import JmeterRs.Remote.Worker

/-!
# The samples of a run

A run of a worker begins with its start, or with a stop that comes before the start.  `WorkerWorld`
keeps, beside the worker, the sample envelopes that were returned in each run.  In every world that
is reached the envelopes of a run carry the sequences from zero on without a gap, no request
identifier is used twice, and a stop acknowledges exactly the number of envelopes returned.
-/

namespace JmeterRs.Remote

open Std RemoteWorker RemoteEnvelope SampleSender List RemoteEnvelope

variable {E : Type}

/-! ## Calls and histories -/

inductive WorkerCall (E : Type)
  | setResources (resources : WorkerResources)
  | setConfigurationLimits (limits : RemoteConfigurationLimits)
  | setCodecLimits (limits : RemoteLimits)
  | setBatchTimeMs (threshold : ℕ)
  | apply (envelope : RemoteEnvelope E)
  | emitSample (event : E)
  | advanceTime (nowMs : ℕ)

/-- The method of a call; a setter returns no envelopes. -/
def WorkerCall.perform [DecidableEq E] (codec : EventCodec E) :
    WorkerCall E → Working E (List (RemoteEnvelope E))
  | .setResources resources => do RemoteWorker.setResources resources; return []
  | .setConfigurationLimits limits => do RemoteWorker.setConfigurationLimits limits; return []
  | .setCodecLimits limits => do RemoteWorker.setCodecLimits limits; return []
  | .setBatchTimeMs threshold => do RemoteWorker.setBatchTimeMs threshold; return []
  | .apply envelope => RemoteWorker.apply envelope
  | .emitSample event => RemoteWorker.emitSample codec event
  | .advanceTime nowMs => RemoteWorker.advanceTime nowMs

def RemoteEnvelope.isSample (envelope : RemoteEnvelope E) : Bool :=
  match envelope.message with
  | .sample _ => true
  | _ => false

def RemoteEnvelope.sequence (envelope : RemoteEnvelope E) : Option ℕ :=
  match envelope.message with
  | .sample sample => some sample.key.sequence
  | _ => none

/-- The worker, and the sample envelopes returned in each run, the newest run first. -/
structure WorkerWorld (E : Type) where
  worker : RemoteWorker E
  runs : List (List (RemoteEnvelope E))

/-- More envelopes in the newest run. -/
def extendRun (envelopes : List (RemoteEnvelope E)) :
    List (List (RemoteEnvelope E)) → List (List (RemoteEnvelope E))
  | [] => if envelopes = [] then [] else [envelopes]
  | run :: runs => (run ++ envelopes) :: runs

/-- A run begins when the worker gets a run identifier. -/
def WorkerWorld.record (w : WorkerWorld E) (worker : RemoteWorker E)
    (envelopes : List (RemoteEnvelope E)) : WorkerWorld E :=
  ⟨worker, extendRun (envelopes.filter isSample)
    (if w.worker.runId.isNone ∧ worker.runId.isSome then [] :: w.runs else w.runs)⟩

def WorkerWorld.step [DecidableEq E] (codec : EventCodec E) (w : WorkerWorld E)
    (call : WorkerCall E) : WorkerWorld E :=
  match call.perform codec w.worker with
  | .ok envelopes worker => w.record worker envelopes
  | .error _ worker => w.record worker []

/-- The worlds of a worker that calls lead to. -/
inductive WorkerReachable [DecidableEq E] (codec : EventCodec E) (id : WorkerId)
    (profile : ProfileDescriptor) : WorkerWorld E → Prop
  | new : WorkerReachable codec id profile ⟨.new id profile, []⟩
  | step {w : WorkerWorld E} (h : WorkerReachable codec id profile w) (call : WorkerCall E) :
      WorkerReachable codec id profile (w.step codec call)

/-- What the samples of a run depend on. -/
structure RunView (E : Type) where
  id : WorkerId
  phase : WorkerPhase
  runId : Option RunId
  deliveredWatermark : ℕ
  nextSequence : ℕ
  nextSampleEnvelopeOrdinal : ℕ
  sampleEnvelopeIds : ExtTreeMap SampleKey RequestId
  sender : Option (SampleSender E)

def RemoteWorker.runView (w : RemoteWorker E) : RunView E :=
  ⟨w.id, w.phase, w.runId, w.deliveredWatermark, w.nextSequence, w.nextSampleEnvelopeOrdinal,
    w.sampleEnvelopeIds, w.sender⟩

/-! ## Handing samples over -/

/-- A sample with the identifier of its envelope. -/
abbrev Correlated (E : Type) := RemoteSample E × RequestId

def Correlated.envelope (entry : Correlated E) : RemoteEnvelope E := ⟨entry.2, .sample entry.1⟩

open Correlated

variable {w : RemoteWorker E} {queue : List (Correlated E)} {ids : List RequestId}
  {envelopes : List (RemoteEnvelope E)} {worker : RemoteWorker E} {requestId : RequestId}
  {id : WorkerId} {first : ℕ}

theorem envelopesFor_eq {missing : String} (hkeys : (queue.map (·.1.key)).Nodup)
    (hids : ∀ entry ∈ queue, w.sampleEnvelopeIds[entry.1.key]? = some entry.2) :
    envelopesForDelivered missing (queue.map Prod.fst) w = .ok (queue.map envelope)
        { w with
          sampleEnvelopeIds :=
            (queue.map (·.1.key)).foldl ExtTreeMap.erase w.sampleEnvelopeIds } := by
  induction queue generalizing w with
  | nil => rfl
  | cons entry queue ih =>
    rw [map_cons, nodup_cons] at hkeys
    have hfirst := hids entry mem_cons_self
    have hrest : ∀ other ∈ queue, (w.sampleEnvelopeIds.erase entry.1.key)[other.1.key]? =
        some other.2 := by
      intro other hother
      rw [get?_erase_ne fun hsame => ?_]
      · exact hids other (.tail _ hother)
      · exact hkeys.1 (hsame ▸ mem_map_of_mem hother)
    simp only [map_cons, envelopesForDelivered, hfirst]
    rw [ih (w := { w with sampleEnvelopeIds := w.sampleEnvelopeIds.erase entry.1.key }) hkeys.2
      hrest]
    rfl

/-- The keys from `first` on. -/
def keysFrom (id : WorkerId) (first count : ℕ) : List SampleKey :=
  (List.range' first count).map (⟨id, ·⟩)

theorem nodup_keysFrom (count : ℕ) : (keysFrom id first count).Nodup := by
  have hrange : (List.range' first count).Nodup := nodup_range'
  refine hrange.map ?_
  intro a b h
  exact (SampleKey.mk.inj h).2

theorem get?_foldl_erase {keys : List SampleKey} {key : SampleKey} (h : key ∉ keys)
    (ids : ExtTreeMap SampleKey RequestId) :
      (keys.foldl ExtTreeMap.erase ids)[key]? = ids[key]? := by
  induction keys generalizing ids with
  | nil => rfl
  | cons first keys ih =>
    rw [mem_cons, not_or] at h
    rw [foldl_cons, ih h.2, get?_erase_ne (Ne.symm h.1)]

/-- The watermark after consecutive samples. -/
theorem delivered_foldl (hkeys : queue.map (·.1.key) = keysFrom id first queue.length)
    (hbound : first + queue.length ≤ u64Max) : (queue.map Prod.fst).foldl
        (fun watermark sample => max watermark (saturatingAdd u64Max sample.key.sequence 1)) first =
      first + queue.length := by
  induction queue generalizing first with
  | nil => rfl
  | cons entry queue ih =>
    simp only [map_cons, length_cons, keysFrom, range'_succ, List.cons.injEq] at hkeys hbound
    obtain ⟨hfirst, hrest⟩ := hkeys
    have hseq : saturatingAdd u64Max entry.1.key.sequence 1 = first + 1 := by
      rw [hfirst]
      exact if_pos (by show first + 1 ≤ u64Max; omega)
    rw [map_cons, foldl_cons, hseq, Nat.max_eq_right (Nat.le_succ first),
      ih hrest (by omega), length_cons]
    omega

theorem keysFrom_append (count count' : ℕ) : keysFrom id first (count + count') =
      keysFrom id first count ++ keysFrom id (first + count) count' := by
  unfold keysFrom
  rw [← map_append, range'_append_1]

/-- What is known about a queue of samples: consecutive keys, each with its identifier. -/
structure Lined (w : RunView E) (first : ℕ) (queue : List (Correlated E)) : Prop where
  keys : queue.map (·.1.key) = keysFrom w.id first queue.length
  ids : ∀ entry ∈ queue, w.sampleEnvelopeIds[entry.1.key]? = some entry.2

theorem Lined.left {w : RunView E} {queue' : List (Correlated E)}
    (h : Lined w first (queue ++ queue')) : queue.map (·.1.key) = keysFrom w.id first queue.length ∧
      queue'.map (·.1.key) = keysFrom w.id (first + queue.length) queue'.length := by
  have hkeys := h.keys
  rw [map_append, length_append, keysFrom_append] at hkeys
  refine append_inj hkeys ?_
  simp [keysFrom]

/-- The beginning of a queue is handed over, and the rest stays lined up. -/
theorem handOver_eq (missing : String) {queue' : List (Correlated E)}
    (h : Lined w.runView w.deliveredWatermark (queue ++ queue'))
    (hbound : w.deliveredWatermark + queue.length ≤ u64Max) :
    ∃ ids, handOver missing (queue'.map (·.1.key)) (queue.map Prod.fst) w = .ok (queue.map envelope)
          { w with
            deliveredWatermark := w.deliveredWatermark + queue.length
            sampleEnvelopeIds := ids } ∧
      ∀ entry ∈ queue', ids[entry.1.key]? = some entry.2 := by
  obtain ⟨hkeys, hkeys'⟩ := h.left
  have hnodup : ((queue ++ queue').map (·.1.key)).Nodup := by
    rw [h.keys]
    exact nodup_keysFrom ..
  rw [map_append, nodup_append] at hnodup
  obtain ⟨hnodup, -, hdisjoint⟩ := hnodup
  -- Nothing of the queue is pruned.
  let kept := w.sampleEnvelopeIds.filter fun key _ =>
    key ∈ queue'.map (·.1.key) ∨ key ∈ (queue.map Prod.fst).map RemoteSample.key
  have hkept : ∀ entry ∈ queue ++ queue', kept[entry.1.key]? = some entry.2 := by
    intro entry hentry
    have hid : w.sampleEnvelopeIds[entry.1.key]? = some entry.2 := h.ids entry hentry
    rw [ExtTreeMap.getElem?_filter', hid, Option.filter_some, if_pos]
    rw [decide_eq_true_iff, map_map]
    rcases mem_append.mp hentry with hentry | hentry
    · exact .inr (mem_map_of_mem hentry)
    · exact .inl (mem_map_of_mem hentry)
  have hwatermark := delivered_foldl hkeys hbound
  refine ⟨(queue.map (·.1.key)).foldl ExtTreeMap.erase kept, ?_, fun entry hentry => ?_⟩
  · unfold handOver noteDeliveredSamples pruneSampleEnvelopeIds
    rw [hwatermark]
    exact envelopesFor_eq hnodup fun entry hentry =>
      hkept entry (mem_append_left _ hentry)
  · rw [get?_foldl_erase]
    · exact hkept entry (mem_append_right _ hentry)
    · intro hmem
      exact hdisjoint _ hmem _ (mem_map_of_mem hentry) rfl

/-! ## The law of a worker -/

/-- No identifier is used twice, and those used belong to smaller ordinals. -/
structure Numbered (w : RunView E) (ids : List RequestId) : Prop where
  nodup : ids.Nodup
  issued : ∀ id ∈ ids, ∃ ordinal < w.nextSampleEnvelopeOrdinal,
    sampleEnvelopeRequestId w.id ordinal = .ok id

/-- The identifiers of the envelopes that were returned. -/
def returnedIds (runs : List (List (RemoteEnvelope E))) : List RequestId :=
  runs.flatten.map RemoteEnvelope.requestId

/-- The counters of a running worker: `run` has been returned, `queue` has not. -/
structure Lines (w : RunView E) (run : List (RemoteEnvelope E))
    (queue : List (Correlated E)) : Prop where
  active : w.runId.isSome = true
  lined : Lined w run.length queue
  watermark : w.deliveredWatermark = run.length
  sequence : w.nextSequence = run.length + queue.length
  bound : w.nextSequence ≤ u64Max

/-- The sender of a running worker holds the samples of `queue`. -/
structure Holds (w : RunView E) (sender : SampleSender E) (queue : List (Correlated E)) :
    Prop where
  sends : w.sender = some sender
  drained : sender.delivered = []
  pending : sender.pending = queue.map Prod.fst
  straight : sender.Straight
  unseen : ∀ sequence, w.nextSequence ≤ sequence →
    sender.seen[(⟨w.id, sequence⟩ : SampleKey)]? = none

/-- What is known in each phase. -/
def PhaseLaw (w : RunView E) (runs : List (List (RemoteEnvelope E))) : Prop :=
  match w.phase with
  | .idle | .ready => w.runId = none ∧ w.deliveredWatermark = 0
  | .running => ∃ run rest sender queue, runs = run :: rest ∧ Lines w run queue ∧
      Holds w sender queue ∧ Numbered w (queue.map Prod.snd ++ returnedIds runs)
  | .stopped => w.runId.isSome = true ∧
      ∃ run rest, runs = run :: rest ∧ w.deliveredWatermark = run.length
  | .stopping | .failed => False

structure WorkerLaw (w : RunView E) (runs : List (List (RemoteEnvelope E))) : Prop where
  consecutive : ∀ run ∈ runs, run.map sequence = (List.range run.length).map some
  numbered : Numbered w (returnedIds runs)
  phase : PhaseLaw w runs

variable {v v' : RunView E} {runs rest : List (List (RemoteEnvelope E))}
  {run : List (RemoteEnvelope E)}
  {sender : SampleSender E} {queue queue' : List (Correlated E)} {ids' : List RequestId}
  {resources : WorkerResources} {plan : PlanDescriptor} {profile : ProfileDescriptor}

/-! ## Bookkeeping -/

theorem Numbered.perm (h : Numbered v ids) (hperm : ids.Perm ids') : Numbered v ids' :=
  ⟨hperm.nodup_iff.mp h.nodup, fun id hid => h.issued id (hperm.mem_iff.mpr hid)⟩

theorem Numbered.right (h : Numbered v (ids ++ ids')) : Numbered v ids' :=
  ⟨(nodup_append.mp h.nodup).2.1, fun id hid => h.issued id (mem_append_right _ hid)⟩

/-- Only the ordinal and the identity of a worker matter for its identifiers. -/
theorem Numbered.of_eq (h : Numbered v ids) (hid : v'.id = v.id)
    (hordinal : v.nextSampleEnvelopeOrdinal ≤ v'.nextSampleEnvelopeOrdinal) : Numbered v' ids := by
  refine ⟨h.nodup, fun id hmem => ?_⟩
  obtain ⟨ordinal, hlt, hissued⟩ := h.issued id hmem
  exact ⟨ordinal, Nat.lt_of_lt_of_le hlt hordinal, hid ▸ hissued⟩

/-- A fresh ordinal gives a fresh identifier. -/
theorem Numbered.next {id : RequestId} (h : Numbered v ids)
    (hid : sampleEnvelopeRequestId v.id v.nextSampleEnvelopeOrdinal = .ok id) (hsame : v'.id = v.id)
    (hnext : v'.nextSampleEnvelopeOrdinal = v.nextSampleEnvelopeOrdinal + 1) :
    Numbered v' (id :: ids) := by
  have hfresh : id ∉ ids := by
    intro hmem
    obtain ⟨ordinal, hlt, hissued⟩ := h.issued id hmem
    exact Nat.ne_of_lt hlt (requestId_inj hissued hid)
  refine ⟨nodup_cons.mpr ⟨hfresh, h.nodup⟩, fun other hother => ?_⟩
  rcases mem_cons.mp hother with rfl | hother
  · exact ⟨v.nextSampleEnvelopeOrdinal, by omega, hsame ▸ hid⟩
  · exact (h.of_eq hsame (by omega)).issued other hother

theorem samples_envelopes : (queue.map envelope).filter isSample = queue.map envelope := by
  refine filter_eq_self.mpr fun envelope henvelope => ?_
  obtain ⟨entry, -, rfl⟩ := mem_map.mp henvelope
  rfl

theorem ids_envelopes : (queue.map envelope).map RemoteEnvelope.requestId = queue.map Prod.snd := by
  rw [map_map]
  rfl

/-- The identifiers of a queue whose beginning has been returned. -/
theorem returnedIds_perm (run : List (RemoteEnvelope E)) (rest : List (List (RemoteEnvelope E)))
    (queue queue' : List (Correlated E)) :
    ((queue ++ queue').map Prod.snd ++ returnedIds (run :: rest)).Perm
      (queue'.map Prod.snd ++ returnedIds ((run ++ queue.map envelope) :: rest)) := by
  unfold returnedIds
  simp only [flatten_cons, map_append, ids_envelopes, append_assoc]
  refine (perm_append_comm_assoc ..).trans (List.Perm.append_left _ ?_)
  exact perm_append_comm_assoc ..

/-- The run goes on with the next sequences. -/
theorem sequence_append (hrun : run.map sequence = (List.range run.length).map some)
    (hkeys : queue.map (·.1.key) = keysFrom v.id run.length queue.length) :
    (run ++ queue.map envelope).map sequence =
      (List.range (run ++ queue.map envelope).length).map some := by
  have hqueue : (queue.map envelope).map sequence =
      (List.range' run.length queue.length).map some := by
    rw [map_map]
    show queue.map (fun entry => some entry.1.key.sequence) = _
    have hsequences := congrArg (List.map SampleKey.sequence) hkeys
    unfold keysFrom at hsequences
    simp only [map_map, Function.comp_def, map_id_fun', id_eq] at hsequences
    rw [← hsequences, map_map]
    rfl
  have hrange : List.range (run.length + queue.length) =
      List.range run.length ++ List.range' run.length queue.length := by
    rw [range_eq_range', range_eq_range', ← range'_append_1, Nat.zero_add]
  rw [map_append, hrun, hqueue, ← map_append, length_append, length_map, hrange]

/-- The beginning of the queue is handed over. -/
theorem Lines.handOver (missing : String) (h : Lines w.runView run (queue ++ queue'))
    (hholds : Holds w.runView sender queue') :
    ∃ w', handOver missing (queue'.map (·.1.key)) (queue.map Prod.fst) w =
        .ok (queue.map envelope) w' ∧ Lines w'.runView (run ++ queue.map envelope) queue' ∧
      Holds w'.runView sender queue' ∧ w'.phase = w.phase ∧ w'.id = w.id ∧ w'.runId = w.runId ∧
      w'.nextSampleEnvelopeOrdinal = w.nextSampleEnvelopeOrdinal ∧
      w'.threadCount = w.threadCount := by
  obtain ⟨hact, hlined, hwatermark, hseq, hbound⟩ := h
  replace hwatermark : w.deliveredWatermark = run.length := hwatermark
  replace hseq : w.nextSequence = run.length + (queue ++ queue').length := hseq
  replace hbound : w.nextSequence ≤ u64Max := hbound
  rw [length_append] at hseq
  rw [← hwatermark] at hlined
  obtain ⟨ids, heq, hids⟩ := handOver_eq missing hlined (by omega)
  have hlen : (run ++ queue.map envelope).length = run.length + queue.length := by
    rw [length_append, length_map]
  refine ⟨_, heq, ⟨hact, ⟨?_, hids⟩, ?_, ?_, hbound⟩, { hholds with }, rfl, rfl, rfl, rfl, rfl⟩
  · rw [hlen, ← hwatermark]
    exact hlined.left.2
  · rw [hlen, ← hwatermark]
    rfl
  · rw [hlen]
    show w.nextSequence = _
    omega

/-! ## What a call does -/

theorem extendRun_nil : extendRun [] runs = runs := by
  cases runs with
  | nil => rfl
  | cons run rest =>
    show (run ++ []) :: rest = run :: rest
    rw [append_nil]

/-- What is known about the result of a call: it leads to a lawful world whose newest run is as
long as a stop acknowledges, or it fails without a trace. -/
def CallSpec (w : WorkerWorld E) :
    EStateM.Result RemoteError (RemoteWorker E) (List (RemoteEnvelope E)) → Prop
  | .ok envelopes worker =>
    WorkerLaw worker.runView (w.record worker envelopes).runs ∧
      ∀ requestId id runId threads watermark,
        ⟨requestId, .ack id .stopped runId threads watermark⟩ ∈ envelopes →
        ∃ run rest, (w.record worker envelopes).runs = run :: rest ∧ watermark = some run.length
  | .error e worker => worker = w.worker ∧ e.code ≠ .internal

theorem record_runs {w : WorkerWorld E} (hruns : w.runs = run :: rest)
    (hact : w.worker.runId.isSome = true) (worker : RemoteWorker E)
    (envelopes : List (RemoteEnvelope E)) :
    (w.record worker envelopes).runs = (run ++ envelopes.filter isSample) :: rest := by
  unfold WorkerWorld.record
  rw [if_neg, hruns]
  · rfl
  · rintro ⟨hnone, -⟩
    rw [Option.isNone_iff_eq_none] at hnone
    rw [hnone] at hact
    cases hact

/-- Nothing of a run is returned and no run begins. -/
theorem record_quiet {w : WorkerWorld E}
    (hbegin : w.worker.runId.isSome = true ∨ worker.runId = none)
    (hquiet : envelopes.filter isSample = []) : (w.record worker envelopes).runs = w.runs := by
  unfold WorkerWorld.record
  rw [if_neg, hquiet, extendRun_nil]
  rintro ⟨hnone, hsome⟩
  rw [Option.isNone_iff_eq_none] at hnone
  rcases hbegin with hbegin | hbegin
  · rw [hnone] at hbegin
    cases hbegin
  · rw [hbegin] at hsome
    cases hsome

/-! ### No check fails with an internal error -/

/-- No failure of `x` is an internal error. -/
abbrev External {α : Type} (x : Except RemoteError α) : Prop := Raises (· ≠ .internal) x

theorem external_id {ordinal : ℕ} : External (sampleEnvelopeRequestId id ordinal) :=
  .ite (.error (by decide)) (.ok _)

theorem external_runId {runId : RunId} : External (validateRunId runId) :=
  .failIf (by decide)

theorem external_meets : External (resources.satisfies plan) := by
  unfold WorkerResources.satisfies
  split
  · exact .error nofun
  · split
    · exact .error nofun
    · exact .ok ()

theorem external_resources (limits : RemoteConfigurationLimits) :
    External (resources.validateWithLimits limits) := by
  refine .bind (.failIf (by decide)) fun _ => .bind (.need (by decide) _) fun _ =>
    .bind (.failIf (by decide)) fun _ => .bind ?_ fun _ => .failIf (by decide)
  exact .bind (raises_pair (by decide)) fun _ => .bind (raises_pair (by decide))
    fun _ => .need (by decide) _

theorem external_valid {limits : RemoteLimits} : External (profile.validateWithLimits limits) :=
  raises_profile (by decide) (by decide) (by decide) profile limits

theorem external_profile : External (w.checkProfile requestId profile) :=
  .ite (.error nofun) (.bind external_valid fun _ =>
    .bind external_valid fun _ =>
      .ite (.ok _) (.ite (.error nofun) (.ite (.error nofun) (.ok _))))

theorem external_plan : External (w.checkPlan requestId plan) :=
  .ite (.error nofun) (.ite (.error nofun) (.bind (raises_plan (by decide) _ _) fun _ =>
    .ite (.ok _) (.ite (.error nofun) (.bind external_meets fun _ => .ok _))))

theorem external_properties (properties : PropertySet) :
    External (w.checkProperties requestId properties) := by
  refine .ite (.error nofun) (.ite (.error nofun) (.bind ?_ fun _ =>
    .ite (.ok _) (.ite (.error nofun) (.ok _))))
  cases w.plan with
  | some plan => exact raises_configuration (by decide) _ _ _
  | none => exact raises_properties (by decide) _ _

theorem external_start (runId : RunId) (threadCount : ℕ) (mode : SampleSenderMode) :
    External (w.checkStart runId threadCount mode) := by
  refine .ite (.error nofun) (.ite (.error nofun) (.ite (.error nofun) ?_))
  split
  · exact .ite (.error nofun) (.bind (.need nofun _) fun _ => .bind external_meets
      fun _ => .bind (.need nofun _) fun _ => .bind (.need nofun _) fun _ => .ok _)
  · refine .error ?_
    unfold SampleSenderMode.unsupportedError
    split <;> exact nofun

variable {codec : EventCodec E}

theorem external_size {config : SenderConfig} {sample : RemoteSample E} :
    External (encodedSampleSize codec config sample) :=
  .bind external_id fun _ =>
    .bind (fun _ => codec.encodedSampleLen_code) fun _ => .bind (.failIf nofun) fun _ => .ok _

section

variable [DecidableEq E]

theorem external_send (sample : RemoteSample E) : External (sender.send codec sample) := by
  have hstrip : External (strip codec sender.config sample) :=
    .ite (.bind (fun _ => codec.strip_code) fun _ => .ok _) (.ok _)
  have hvet : External (vet codec sender sample) :=
    .bind (.failIf nofun) fun _ => .bind (.failIf nofun) fun _ =>
      .bind (fun _ => codec.validateWire_code) fun _ => .bind hstrip fun _ =>
      .bind external_size fun _ => .bind external_size fun _ =>
      .bind (.bind (.need nofun _) fun _ => .need nofun _) fun _ => .bind (.failIf nofun) fun _ =>
      .bind (.failIf nofun) fun _ => .ok _
  refine .ite (.error nofun) ?_
  split
  · exact .ite (.ok _) (.error nofun)
  · refine .bind hvet fun vetted => .ite ?_ ?_
    · exact .bind (.need nofun _) fun _ => .ok _
    · exact .bind (.need nofun _) fun _ => .ite (.ok _) (.ok _)

theorem external_emission {event : E} : External (w.checkEmission codec event) :=
  .ite (.error nofun) (.bind (.need nofun _) fun _ => .bind (.need nofun _) fun _ =>
    .bind external_id fun _ => .bind (.need nofun _) fun _ =>
    .ite (.error nofun) (.bind (.need nofun _) fun _ => .bind (external_send _) fun _ => .ok _))

end

/-! ### Configuration -/

variable {w : WorkerWorld E} {runId : RunId} {plan : PlanDescriptor} {properties : PropertySet}

theorem CallSpec.refused {e : RemoteError} (h : e.code ≠ .internal) :
    CallSpec w (.error e w.worker) :=
  ⟨rfl, h⟩

/-- A result that returns acknowledgements of the configuration or of a start only. -/
theorem CallSpec.quiet (hlaw : WorkerLaw worker.runView w.runs)
    (hbegin : w.worker.runId.isSome = true ∨ worker.runId = none)
    (hacks : ∀ envelope ∈ envelopes, ∃ requestId id stage runId threads watermark,
      stage ≠ .stopped ∧ envelope = ⟨requestId, .ack id stage runId threads watermark⟩) :
    CallSpec w (.ok envelopes worker) := by
  have hquiet : envelopes.filter isSample = [] := by
    refine filter_eq_nil_iff.mpr fun envelope henvelope => ?_
    obtain ⟨_, _, _, _, _, _, _, rfl⟩ := hacks envelope henvelope
    exact Bool.false_ne_true
  refine ⟨by rwa [record_quiet hbegin hquiet], ?_⟩
  intro requestId id runId threads watermark hmem
  obtain ⟨_, _, _, _, _, _, hstage, heq⟩ := hacks _ hmem
  cases heq
  exact absurd rfl hstage

/-- One acknowledgement that is not of a stop. -/
theorem acks_singleton {stage : AckStage} {runId : Option RunId} {threads : Option ℕ}
    (h : stage ≠ .stopped) : ∀ envelope ∈ [worker.ack requestId stage runId threads],
      ∃ requestId id stage runId threads watermark, stage ≠ .stopped ∧
        envelope = ⟨requestId, .ack id stage runId threads watermark⟩ := by
  intro envelope henvelope
  rw [mem_singleton] at henvelope
  exact ⟨_, _, _, _, _, _, h, henvelope⟩

theorem began_same (h : worker.runId = w.worker.runId) :
    w.worker.runId.isSome = true ∨ worker.runId = none := by
  rw [h]
  cases w.worker.runId with
  | none => exact .inr rfl
  | some runId => exact .inl rfl

/-- Between runs a worker can be configured. -/
theorem WorkerLaw.between (h : WorkerLaw v runs) (hid : v'.id = v.id)
    (hordinal : v'.nextSampleEnvelopeOrdinal = v.nextSampleEnvelopeOrdinal)
    (hphase : v'.phase = .idle ∨ v'.phase = .ready) (hrun : v'.runId = none)
    (hwatermark : v'.deliveredWatermark = 0) : WorkerLaw v' runs where
  consecutive := h.consecutive
  numbered := h.numbered.of_eq hid (Nat.le_of_eq hordinal.symm)
  phase := by
    unfold PhaseLaw
    rcases hphase with hphase | hphase <;> rw [hphase] <;> exact ⟨hrun, hwatermark⟩

theorem WorkerLaw.idle (h : WorkerLaw v runs) (hphase : v.phase = .idle ∨ v.phase = .ready) :
    v.runId = none ∧ v.deliveredWatermark = 0 := by
  have hlaw := h.phase
  unfold PhaseLaw at hlaw
  rcases hphase with hphase | hphase <;> rw [hphase] at hlaw <;> exact hlaw

theorem ready_phase (h : worker.phase = .idle ∨ worker.phase = .ready) :
    worker.recomputeReady.phase = .idle ∨ worker.recomputeReady.phase = .ready := by
  unfold recomputeReady
  split_ifs
  · exact .inr rfl
  · exact h

/-- `recompute_ready` changes the phase only. -/
theorem ready_view (worker : RemoteWorker E) : worker.recomputeReady.runView =
      { worker.runView with phase := worker.recomputeReady.phase } := by
  unfold recomputeReady
  split_ifs <;> rfl

theorem CallSpec.staged {stage : AckStage} (h : WorkerLaw w.worker.runView w.runs)
    (hstage : stage ≠ .stopped) (hphase : w.worker.phase = .idle ∨ w.worker.phase = .ready)
    (hview : worker.runView = w.worker.runView) :
    CallSpec w (.ok [worker.recomputeReady.ack requestId stage none none]
      worker.recomputeReady) := by
  obtain ⟨hrun, hwatermark⟩ := h.idle hphase
  have hsame := ready_view worker
  rw [hview] at hsame
  have hbefore : worker.phase = w.worker.phase := congrArg RunView.phase hview
  rw [← hbefore] at hphase
  have hready := ready_phase hphase
  refine .quiet ?_ (began_same (congrArg RunView.runId hsame)) (acks_singleton hstage)
  rw [hsame]
  exact h.between rfl rfl hready hrun hwatermark

theorem profile_spec (h : WorkerLaw w.worker.runView w.runs) {profile : ProfileDescriptor} :
    CallSpec w (acceptProfile requestId profile w.worker) := by
  unfold acceptProfile
  split
  · next e hcheck => exact .refused (external_profile e hcheck)
  · exact .quiet h (began_same rfl) (acks_singleton nofun)
  · refine .quiet ?_ (.inr ?_) (acks_singleton nofun)
    · rw [ready_view]
      exact h.between rfl rfl (ready_phase (.inl rfl)) rfl rfl
    · exact congrArg RunView.runId (ready_view (w.worker.reset requestId profile))

theorem checkPlan_ok {staged : Bool} (h : worker.checkPlan requestId plan = .ok staged) :
    ¬ worker.acceptedProfile.isNone = true ∧ (worker.phase = .idle ∨ worker.phase = .ready) := by
  unfold checkPlan at h
  rw [ite_error_ok, ite_error_ok, not_or, not_not] at h
  exact h.2.1

theorem acceptPlan_spec (h : WorkerLaw w.worker.runView w.runs) :
    CallSpec w (acceptPlan requestId plan w.worker) := by
  unfold acceptPlan
  split
  · next e hcheck => exact .refused (external_plan e hcheck)
  · exact .quiet h (began_same rfl) (acks_singleton nofun)
  · next hcheck => exact .staged h nofun (checkPlan_ok hcheck).2 rfl

theorem properties_ok {staged : Bool}
    (h : worker.checkProperties requestId properties = .ok staged) :
    ¬ worker.acceptedProfile.isNone = true ∧ (worker.phase = .idle ∨ worker.phase = .ready) := by
  unfold checkProperties at h
  rw [ite_error_ok, ite_error_ok, not_or, not_or, not_not] at h
  exact ⟨h.2.1.1, h.2.1.2.2⟩

theorem properties_spec (h : WorkerLaw w.worker.runView w.runs) :
    CallSpec w (acceptProperties requestId properties w.worker) := by
  unfold acceptProperties
  split
  · next e hcheck => exact .refused (external_properties _ e hcheck)
  · exact .quiet h (began_same rfl) (acks_singleton nofun)
  · next hcheck => exact .staged h nofun (properties_ok hcheck).2 rfl

/-- A setter: a check, then a write that no run depends on. -/
theorem setter_spec {α : Type} {f : RemoteWorker E → Except RemoteError α}
    {g : α → RemoteWorker E → RemoteWorker E} (h : WorkerLaw w.worker.runView w.runs)
    (hf : External (f w.worker)) (hg : ∀ a, (g a w.worker).runView = w.worker.runView) :
    CallSpec w (((check f >>= fun a => modify (g a)) >>= fun _ => pure [] :
      Working E (List (RemoteEnvelope E))) w.worker) := by
  rw [bind_assoc]
  refine run_check_bind (fun e hcheck => .refused (hf e hcheck)) fun a _ => ?_
  refine CallSpec.quiet ?_ (began_same (congrArg RunView.runId (hg a))) nofun
  rw [hg]
  exact h

/-! ### Starting and stopping -/

theorem record_begin (hbefore : w.worker.runId = none) (hafter : worker.runId.isSome = true)
    (hquiet : envelopes.filter isSample = []) :
    (w.record worker envelopes).runs = [] :: w.runs := by
  unfold WorkerWorld.record
  rw [if_pos ⟨by rw [hbefore]; rfl, hafter⟩, hquiet]
  rfl

/-- No envelope of a run that begins was returned yet. -/
theorem WorkerLaw.begin (h : WorkerLaw v runs) (hid : v'.id = v.id)
    (hordinal : v'.nextSampleEnvelopeOrdinal = v.nextSampleEnvelopeOrdinal)
    (hphase : PhaseLaw v' ([] :: runs)) : WorkerLaw v' ([] :: runs) where
  consecutive run hrun := by
    rcases mem_cons.mp hrun with rfl | hrun
    · rfl
    · exact h.consecutive run hrun
  numbered := h.numbered.of_eq hid (Nat.le_of_eq hordinal.symm)
  phase := hphase

theorem checkStart_ok {threadCount : ℕ} {mode : SampleSenderMode}
    (h : worker.checkStart runId threadCount mode = .ok sender) :
    worker.phase = .ready ∧ ∃ config, sender = .new config := by
  unfold checkStart at h
  rw [ite_error_ok, ite_error_ok, ite_error_ok] at h
  obtain ⟨-, -, -, h⟩ := h
  split at h
  · rw [ite_error_ok, not_not] at h
    obtain ⟨hphase, h⟩ := h
    obtain ⟨plan, -, h⟩ := bind_ok.mp h
    obtain ⟨_, -, h⟩ := bind_ok.mp h
    obtain ⟨config, -, h⟩ := bind_ok.mp h
    obtain ⟨config', -, h⟩ := bind_ok.mp h
    cases h
    exact ⟨hphase, config', rfl⟩
  · cases h

theorem phaseLaw_begin {config : SenderConfig} {ordinal : ℕ} (h : Numbered v (returnedIds runs))
    (hid : v.id = id) (hordinal : v.nextSampleEnvelopeOrdinal = ordinal) :
    PhaseLaw (⟨id, .running, some runId, 0, 0, ordinal, ∅, some (.new config)⟩ : RunView E)
      ([] :: runs) := by
  refine ⟨[], runs, .new config, [], rfl, ⟨rfl, ⟨rfl, nofun⟩, rfl, rfl, Nat.zero_le _⟩,
    ⟨rfl, rfl, rfl, fun _ => rfl, fun sequence _ => ExtTreeMap.getElem?_empty⟩, ?_⟩
  exact h.of_eq hid.symm (Nat.le_of_eq hordinal)

theorem start_spec (h : WorkerLaw w.worker.runView w.runs) (threadCount : ℕ)
    (mode : SampleSenderMode) : CallSpec w (start requestId runId threadCount mode w.worker) := by
  unfold start
  cases hrun : validateRunId runId with
  | error e => exact .refused (external_runId e hrun)
  | ok _ =>
    split_ifs
    · exact .quiet h (began_same rfl) (acks_singleton nofun)
    · cases hcheck : w.worker.checkStart runId threadCount mode with
      | error e => exact .refused (external_start _ _ _ e hcheck)
      | ok sender =>
        obtain ⟨hphase, config, rfl⟩ := checkStart_ok hcheck
        obtain ⟨hnone, -⟩ := h.idle (.inr hphase)
        refine ⟨?_, ?_⟩
        · rw [record_begin hnone rfl rfl]
          exact h.begin rfl rfl (phaseLaw_begin h.numbered rfl rfl)
        · intro requestId' id runId' threads watermark hmem
          rw [mem_singleton] at hmem
          cases hmem

/-- What a graceful stop returns: everything that waits in the sender. -/
theorem stop_graceful (hlines : Lines worker.runView run queue)
    (hholds : Holds worker.runView sender queue) :
    ∃ worker', stopSamples .graceful worker = .ok (queue.map envelope) worker' ∧
      Lines worker'.runView (run ++ queue.map envelope) [] ∧
      worker'.id = worker.id ∧ worker'.runId = worker.runId ∧
      worker'.nextSampleEnvelopeOrdinal = worker.nextSampleEnvelopeOrdinal := by
  have hsends : worker.sender = some sender := hholds.sends
  have hqueue : sender.close.1 = queue.map Prod.fst := by
    rw [SampleSender.close_fst, SampleSender.queue, hholds.drained, hholds.pending, nil_append]
  let closed : RemoteWorker E := { worker with sender := some sender.close.2 }
  have hclosed : Lines closed.runView run (queue ++ []) := by
    rw [append_nil]
    exact { hlines with lined := { hlines.lined with } }
  have hempty : Holds closed.runView sender.close.2 [] :=
    ⟨rfl, rfl, rfl, fun _ => rfl, hholds.unseen⟩
  obtain ⟨worker', heq, hlines', -, -, hid, hrun, hordinal, -⟩ :=
    hclosed.handOver missingStopped hempty
  refine ⟨worker', ?_, hlines', hid, hrun, hordinal⟩
  unfold stopSamples
  simp only [hsends]
  show handOver _ [] sender.close.1 closed = _
  rw [hqueue]
  exact heq

/-- An immediate stop returns nothing: what waits in the sender is dropped. -/
theorem stop_immediate (hholds : Holds worker.runView sender queue) :
    ∃ worker', stopSamples .immediate worker = .ok [] worker' ∧
      worker'.id = worker.id ∧ worker'.runId = worker.runId ∧
      worker'.nextSampleEnvelopeOrdinal = worker.nextSampleEnvelopeOrdinal ∧
      worker'.deliveredWatermark = worker.deliveredWatermark := by
  have hsends : worker.sender = some sender := hholds.sends
  have hdelivered : sender.abort.2.drainDelivered.1 = [] := hholds.drained
  unfold stopSamples
  simp only [hsends]
  unfold stopSender
  rw [if_neg (by decide)]
  rw [hdelivered]
  exact ⟨_, rfl, rfl, rfl, rfl, rfl⟩

/-- The worker after a stop: the newest run is as long as the watermark. -/
theorem WorkerLaw.stopped (h : WorkerLaw v (run :: rest))
    (hseq : (run ++ envelopes).map sequence = (List.range (run ++ envelopes).length).map some)
    (hnum : Numbered v (returnedIds ((run ++ envelopes) :: rest))) (hid : v'.id = v.id)
    (hordinal : v'.nextSampleEnvelopeOrdinal = v.nextSampleEnvelopeOrdinal)
    (hphase : v'.phase = .stopped) (hact : v'.runId.isSome = true)
    (hwatermark : v'.deliveredWatermark = (run ++ envelopes).length) :
    WorkerLaw v' ((run ++ envelopes) :: rest) where
  consecutive other hother := by
    rcases mem_cons.mp hother with rfl | hother
    · exact hseq
    · exact h.consecutive other (.tail _ hother)
  numbered := hnum.of_eq hid (Nat.le_of_eq hordinal.symm)
  phase := by
    unfold PhaseLaw
    rw [hphase]
    exact ⟨hact, _, _, rfl, hwatermark⟩

theorem WorkerLaw.running (h : WorkerLaw v runs) (hphase : v.phase = .running) :
    ∃ run rest sender queue, runs = run :: rest ∧ Lines v run queue ∧ Holds v sender queue ∧
      Numbered v (queue.map Prod.snd ++ returnedIds runs) := by
  have hlaw := h.phase
  unfold PhaseLaw at hlaw
  rwa [hphase] at hlaw

/-- No worker stays in the phase of a stop. -/
theorem WorkerLaw.active_running (h : WorkerLaw v runs)
    (hphase : v.phase = .running ∨ v.phase = .stopping) : v.phase = .running := by
  have hlaw := h.phase
  unfold PhaseLaw at hlaw
  rcases hphase with hphase | hphase
  · exact hphase
  · rw [hphase] at hlaw
    exact hlaw.elim

/-- The answer to a stop: samples, then the acknowledgement. -/
theorem filter_stopped {ack : RemoteEnvelope E}
    (hsamples : envelopes.filter isSample = envelopes) (hack : ack.isSample = false) :
    (envelopes ++ [ack]).filter isSample = envelopes := by
  rw [filter_append, hsamples, filter_singleton, hack]
  exact append_nil _

/-- A stop of a running worker that returns `envelopes` and acknowledges `watermark`. -/
theorem CallSpec.stopped {watermark : ℕ} (hruns : w.runs = run :: rest)
    (hact : w.worker.runId.isSome = true) (hsamples : envelopes.filter isSample = envelopes)
    (hlaw : WorkerLaw worker.runView ((run ++ envelopes) :: rest))
    (hwatermark : watermark = (run ++ envelopes).length) :
    CallSpec w (.ok (envelopes ++ [worker.stopAck requestId runId watermark]) worker) := by
  have hrec := record_runs hruns hact worker
    (envelopes ++ [worker.stopAck requestId runId watermark])
  rw [filter_stopped hsamples rfl] at hrec
  refine ⟨by rwa [hrec], ?_⟩
  intro requestId' id runId' threads watermark' hmem
  refine ⟨_, _, hrec, ?_⟩
  rcases mem_append.mp hmem with hmem | hmem
  · rw [← hsamples] at hmem
    cases (mem_filter.mp hmem).2
  · rw [mem_singleton] at hmem
    cases hmem
    rw [hwatermark]

section

variable (h : WorkerLaw w.worker.runView w.runs)

include h

theorem stopRun_spec (hphase : w.worker.phase = .running)
    (requestId : RequestId) (runId : RunId) (mode : StopMode) :
    CallSpec w (stopRun requestId runId mode w.worker) := by
  obtain ⟨run, rest, sender, queue, hruns, hlines, hholds, hnum⟩ := h.running hphase
  rw [hruns] at h hnum
  have hrun := h.consecutive run mem_cons_self
  let stopping : RemoteWorker E := { w.worker with phase := .stopping }
  have hlines' : Lines stopping.runView run queue :=
    { hlines with lined := { hlines.lined with } }
  have hholds' : Holds stopping.runView sender queue := { hholds with }
  unfold stopRun
  cases mode with
  | graceful =>
    obtain ⟨worker, heq, hline, hid, hrunId, hordinal⟩ := stop_graceful hlines' hholds'
    have hids := returnedIds_perm run rest queue []
    rw [append_nil] at hids
    simp only [show stopSamples .graceful { w.worker with phase := .stopping } = _ from heq]
    refine .stopped hruns hlines.active samples_envelopes ?_ hline.sequence
    refine h.stopped (sequence_append hrun hlines.lined.keys) (hnum.perm hids) hid hordinal rfl
      ?_ hline.watermark
    exact hrunId ▸ hlines.active
  | immediate =>
    obtain ⟨worker, heq, hid, hrunId, hordinal, hwatermark⟩ := stop_immediate hholds'
    have hlen : worker.deliveredWatermark = (run ++ []).length := by
      rw [hwatermark, append_nil]
      exact hlines.watermark
    simp only [show stopSamples .immediate { w.worker with phase := .stopping } = _ from heq]
    refine .stopped hruns hlines.active rfl ?_ hlen
    refine h.stopped ?_ ?_ hid hordinal rfl (hrunId ▸ hlines.active) hlen
    · rwa [append_nil]
    · rw [append_nil]
      exact hnum.right

theorem stop_spec (requestId : RequestId) (runId : RunId) (mode : StopMode) :
    CallSpec w (stop requestId runId mode w.worker) := by
  unfold stop
  cases hrun : validateRunId runId with
  | error e => exact .refused (external_runId e hrun)
  | ok _ =>
    split_ifs with hprestart hconsumed hother hstopped hact
    · exact .refused nofun
    · -- A stop before the start: a run without samples.
      obtain ⟨hnone, hzero⟩ := h.idle (.inr hprestart.2)
      refine ⟨?_, ?_⟩
      · rw [record_begin hnone rfl rfl]
        exact h.begin rfl rfl ⟨rfl, [], w.runs, rfl, hzero⟩
      · intro requestId' id runId' threads watermark hmem
        rw [mem_singleton] at hmem
        cases hmem
        exact ⟨_, _, record_begin hnone rfl rfl, rfl⟩
    · exact .refused nofun
    · -- The run has stopped already.
      have hlaw := h.phase
      unfold PhaseLaw at hlaw
      rw [show w.worker.runView.phase = .stopped from hstopped] at hlaw
      obtain ⟨hsome, run, rest, hruns, hwatermark⟩ := hlaw
      refine CallSpec.stopped hruns hsome filter_nil ?_ ?_
      · rw [append_nil, ← hruns]
        exact h
      · rw [append_nil]
        exact hwatermark
    · exact stopRun_spec h (h.active_running hact) requestId runId mode
    · exact .refused nofun

/-! ### Emitting -/

theorem CallSpec.handed {middle : RemoteWorker E} {missing : String} (hruns : w.runs = run :: rest)
    (hact : w.worker.runId.isSome = true) (hphase : middle.phase = .running)
    (hlines : Lines middle.runView run (queue ++ queue'))
    (hholds : Holds middle.runView sender queue') (hnum : Numbered middle.runView
      ((queue ++ queue').map Prod.snd ++ returnedIds (run :: rest))) :
    CallSpec w (handOver missing (queue'.map (·.1.key)) (queue.map Prod.fst) middle) := by
  obtain ⟨worker, heq, hlines', hholds', hphase', hid, -, hordinal, -⟩ :=
    hlines.handOver missing hholds
  rw [heq]
  have hrec := record_runs hruns hact worker (queue.map envelope)
  rw [samples_envelopes] at hrec
  have hids : Numbered worker.runView (queue'.map Prod.snd ++
      returnedIds ((run ++ queue.map envelope) :: rest)) :=
    (hnum.perm (returnedIds_perm run rest queue queue')).of_eq hid (Nat.le_of_eq hordinal.symm)
  refine ⟨?_, ?_⟩
  · rw [hrec]
    refine ⟨fun other hother => ?_, hids.right, ?_⟩
    · rcases mem_cons.mp hother with rfl | hother
      · exact sequence_append (h.consecutive run (hruns ▸ mem_cons_self)) hlines.lined.left.1
      · exact h.consecutive other (hruns ▸ mem_cons_of_mem _ hother)
    · unfold PhaseLaw
      rw [show worker.runView.phase = .running from hphase'.trans hphase]
      exact ⟨_, rest, sender, queue', rfl, hlines', hholds', hids⟩
  · intro requestId id runId threads watermark hmem
    obtain ⟨entry, -, hentry⟩ := mem_map.mp hmem
    cases hentry

theorem advanceTime_spec (nowMs : ℕ) : CallSpec w (RemoteWorker.advanceTime nowMs w.worker) := by
  unfold RemoteWorker.advanceTime
  split_ifs with hphase
  · have hrunning := h.active_running hphase
    obtain ⟨run, rest, sender, queue, hruns, hlines, hholds, hnum⟩ := h.running hrunning
    have hsends : w.worker.sender = some sender := hholds.sends
    simp only [hsends]
    cases hadvance : sender.advanceTime nowMs with
    | error e =>
      unfold SampleSender.advanceTime at hadvance
      split_ifs at hadvance
      cases hadvance
      exact .refused (by decide)
    | ok result =>
      obtain ⟨drained, sender'⟩ := result
      obtain ⟨⟨hqueue, hseen, -, -, hstraight, -⟩, hdrained⟩ := SampleSender.time_handed hadvance
      rw [SampleSender.queue, hdrained, SampleSender.queue, hholds.drained, nil_append,
        nil_append, hholds.pending] at hqueue
      obtain ⟨front, back, rfl, rfl, hback⟩ := map_eq_append_iff.mp hqueue.symm
      have hkeys : sender'.pending.map RemoteSample.key = back.map (·.1.key) := by
        rw [← hback, map_map]
        rfl
      dsimp only
      rw [hkeys]
      rw [hruns] at hnum
      refine .handed h hruns hlines.active hrunning
        ⟨hlines.active, ⟨hlines.lined.keys, hlines.lined.ids⟩, hlines.watermark, hlines.sequence,
          hlines.bound⟩
        ⟨rfl, hdrained, hback.symm, hstraight hholds.straight, ?_⟩
        ⟨hnum.nodup, hnum.issued⟩
      rw [hseen]
      exact hholds.unseen
  · exact .refused (by decide)

end

theorem checkEmission_ok [DecidableEq E] {event : E} {emission : RemoteWorker.Emission E}
    (h : worker.checkEmission codec event = .ok emission) : worker.phase = .running ∧
      sampleEnvelopeRequestId worker.id worker.nextSampleEnvelopeOrdinal = .ok emission.requestId ∧
      worker.nextSequence + 1 ≤ u64Max ∧ emission.nextSequence = worker.nextSequence + 1 ∧
      emission.nextOrdinal = worker.nextSampleEnvelopeOrdinal + 1 ∧
      emission.sample.key = ⟨worker.id, worker.nextSequence⟩ ∧
      ∃ sender outcome, worker.sender = some sender ∧
        sender.send codec emission.sample = .ok (outcome, emission.sender) := by
  unfold checkEmission at h
  rw [ite_error_ok, not_not] at h
  obtain ⟨hphase, h⟩ := h
  simp only [bind_ok, ite_error_ok, need_eq_ok] at h
  obtain ⟨runId, -, _, hseq, requestId, hreq, _, hordinal, -, sender, hsender,
    ⟨outcome, sender'⟩, hsend, h⟩ := h
  cases h
  obtain ⟨rfl, hbound⟩ := checkedAdd_some.mp hseq
  obtain ⟨rfl, -⟩ := checkedAdd_some.mp hordinal
  exact ⟨hphase, hreq, hbound, rfl, rfl, rfl, sender, outcome, hsender, hsend⟩

/-- The queue with a sample that was just emitted. -/
theorem Lines.emitted {emission : RemoteWorker.Emission E} {queued : RemoteSample E}
    (h : Lines worker.runView run queue) (hbound : worker.nextSequence + 1 ≤ u64Max)
    (hnext : emission.nextSequence = worker.nextSequence + 1)
    (hkey : emission.sample.key = ⟨worker.id, worker.nextSequence⟩)
    (hqueued : queued.key = emission.sample.key) :
    Lines (worker.emitted emission).runView run (queue ++ [(queued, emission.requestId)]) := by
  have hlen : worker.nextSequence = run.length + queue.length := h.sequence
  refine ⟨h.active, ⟨?_, ?_⟩, h.watermark, ?_, ?_⟩
  · rw [map_append, h.lined.keys, length_append, length_singleton, keysFrom_append]
    show _ ++ [queued.key] = _ ++ [⟨worker.id, run.length + queue.length⟩]
    rw [hqueued, hkey, hlen]
    rfl
  · intro entry hentry
    show (worker.sampleEnvelopeIds.insert emission.sample.key emission.requestId)[entry.1.key]? = _
    rcases mem_append.mp hentry with hentry | hentry
    · rw [get?_insert_ne fun hsame => ?_]
      · exact h.lined.ids entry hentry
      · -- The keys of the queue are smaller than the new one.
        have hmem := mem_map_of_mem (f := fun entry : Correlated E => entry.1.key) hentry
        rw [h.lined.keys, ← hsame, hkey, hlen] at hmem
        obtain ⟨sequence, hseq, heq⟩ := mem_map.mp hmem
        rw [mem_range'_1] at hseq
        cases heq
        omega
    · rw [mem_singleton] at hentry
      subst hentry
      rw [hqueued, get?_insert_eq, if_pos rfl]
  · show emission.nextSequence = _
    rw [hnext, hlen, length_append, length_singleton]
    omega
  · show emission.nextSequence ≤ _
    rw [hnext]
    exact hbound

theorem emitSample_spec [DecidableEq E] (h : WorkerLaw w.worker.runView w.runs) {event : E} :
    CallSpec w (RemoteWorker.emitSample codec event w.worker) := by
  unfold RemoteWorker.emitSample
  cases hcheck : w.worker.checkEmission codec event with
  | error e => exact .refused (external_emission e hcheck)
  | ok emission =>
    obtain ⟨hphase, hreq, hbound, hnext, hordinal, hkey, sender, outcome, hsender, hsend⟩ :=
      checkEmission_ok hcheck
    obtain ⟨run, rest, sender', queue, hruns, hlines, hholds, hnum⟩ := h.running hphase
    obtain rfl : sender' = sender := Option.some.inj (hholds.sends.symm.trans hsender)
    have hnew : sender'.seen[emission.sample.key]? = none := by
      rw [hkey]
      exact hholds.unseen _ (Nat.le_refl _)
    obtain ⟨-, queued, hsent⟩ := send_sent hsend hnew hholds.straight
    have hlines' := hlines.emitted hbound hnext hkey hsent.key
    -- What the sender has now: its delivered samples are returned, its pending ones wait.
    have hqueue : (queue ++ [(queued, emission.requestId)]).map Prod.fst =
        emission.sender.delivered ++ emission.sender.pending := by
      rw [map_append, ← hholds.pending]
      show _ = emission.sender.queue
      rw [hsent.queue, SampleSender.queue, hholds.drained]
      rfl
    obtain ⟨front, back, hsplit, hfront, hback⟩ := map_eq_append_iff.mp hqueue
    have hkeys : emission.sender.pending.map RemoteSample.key = back.map (·.1.key) := by
      rw [← hback, map_map]
      rfl
    have hids : Numbered (w.worker.emitted emission).runView
        ((queue ++ [(queued, emission.requestId)]).map Prod.snd ++ returnedIds (run :: rest)) := by
      rw [hruns] at hnum
      have hfresh : Numbered (w.worker.emitted emission).runView (emission.requestId ::
          (queue.map Prod.snd ++ returnedIds (run :: rest))) :=
        hnum.next hreq rfl hordinal
      refine hfresh.perm ?_
      rw [map_append, append_assoc]
      exact perm_middle.symm
    show CallSpec w (handOver _ _ emission.sender.delivered _)
    rw [hkeys, ← hfront]
    rw [hsplit] at hlines' hids
    refine .handed h hruns hlines.active hphase hlines' ⟨rfl, rfl, hback.symm, ?_, ?_⟩ hids
    · exact hsent.straight
    · intro sequence hseq
      show emission.sender.seen[(⟨w.worker.id, sequence⟩ : SampleKey)]? = none
      replace hseq : emission.nextSequence ≤ sequence := hseq
      rw [hnext] at hseq
      rw [hsent.seen, hkey, get?_insert_ne fun hsame => ?_]
      · exact hholds.unseen sequence (Nat.le_of_succ_le hseq)
      · have hequal := (SampleKey.mk.inj hsame).2
        omega

/-! ## Every call, every history -/

theorem apply_spec (h : WorkerLaw w.worker.runView w.runs) {envelope : RemoteEnvelope E} :
    CallSpec w (RemoteWorker.apply envelope w.worker) := by
  unfold RemoteWorker.apply
  split_ifs with hnamespace hfailed
  · exact .refused nofun
  · -- No worker of a history fails.
    have hlaw := h.phase
    unfold PhaseLaw at hlaw
    rw [show w.worker.runView.phase = .failed from hfailed] at hlaw
    exact hlaw.elim
  · cases envelope.message with
    | profile profile => exact profile_spec h
    | plan plan => exact acceptPlan_spec h
    | properties properties => exact properties_spec h
    | start runId threadCount mode => exact start_spec h threadCount mode
    | stop runId mode => exact stop_spec h _ runId mode
    | ack _ _ _ _ _ | sample _ | failure _ _ _ => exact .refused nofun

theorem perform_spec [DecidableEq E] (h : WorkerLaw w.worker.runView w.runs)
    (call : WorkerCall E) : CallSpec w (call.perform codec w.worker) := by
  cases call with
  | setResources resources =>
    refine setter_spec h ?_ fun _ => rfl
    exact .bind (.failIf nofun) fun _ => .bind (external_resources _) fun _ =>
      raises_ifSome fun plan => external_meets
  | setConfigurationLimits limits =>
    refine setter_spec h ?_ fun _ => rfl
    exact .bind (.failIf nofun) fun _ => .bind (.failIf (by decide)) fun _ =>
      .bind (raises_staged (by decide) _ _ _) fun _ => .bind (.failIf (by decide)) fun _ =>
      .bind (external_resources _) fun _ => .ok _
  | setCodecLimits limits =>
    refine setter_spec h ?_ fun _ => rfl
    exact .bind (.failIf nofun) fun _ => .bind (.failIf (by decide)) fun _ =>
      .bind external_valid fun _ =>
      raises_ifSome fun profile => external_valid
  | setBatchTimeMs threshold =>
    have hcases : RemoteWorker.setBatchTimeMs threshold w.worker =
          .error (.limit "batch time threshold must be non-zero") w.worker ∨
        RemoteWorker.setBatchTimeMs threshold w.worker =
          .ok () { w.worker with batchTimeMs := some threshold } := ite_eq_or_eq ..
    show CallSpec w ((do RemoteWorker.setBatchTimeMs threshold; return [] :
      Working E (List (RemoteEnvelope E))) w.worker)
    rcases hcases with herror | hok
    · rw [run_bind_error herror]
      exact .refused nofun
    · rw [run_bind_ok hok]
      exact .quiet h (began_same rfl) nofun
  | apply envelope => exact apply_spec h
  | emitSample event => exact emitSample_spec h
  | advanceTime nowMs => exact advanceTime_spec h nowMs

theorem WorkerReachable.law [DecidableEq E] {id : WorkerId} {profile : ProfileDescriptor}
    (h : WorkerReachable codec id profile w) : WorkerLaw w.worker.runView w.runs := by
  induction h with
  | new => exact ⟨nofun, ⟨nodup_nil, nofun⟩, ⟨rfl, rfl⟩⟩
  | step h call ih =>
    have hspec : CallSpec _ (call.perform codec _) := perform_spec ih call
    unfold WorkerWorld.step
    split
    · rename_i heq
      rw [heq] at hspec
      exact hspec.1
    · rename_i heq
      rw [heq] at hspec
      obtain ⟨rfl, -⟩ := hspec
      rw [record_quiet (began_same rfl) rfl]
      exact ih

/-- In every world that is reached the sample envelopes of a run have the sequences from zero on,
and no two envelopes of any runs have one identifier.  A sample that is refused leaves the worker as
it is, no call fails with an internal error, and a stop acknowledges the number of sample envelopes
that its run has returned. -/
theorem run_samples [DecidableEq E] (codec : EventCodec E) (id : WorkerId)
    (profile : ProfileDescriptor) (w : WorkerWorld E) (h : WorkerReachable codec id profile w) :
    (∀ run ∈ w.runs, run.map sequence = (List.range run.length).map some) ∧
    (w.runs.flatten.map RemoteEnvelope.requestId).Nodup ∧
    (∀ event e worker, RemoteWorker.emitSample codec event w.worker = .error e worker →
      worker = w.worker) ∧
    (∀ (call : WorkerCall E) e worker, call.perform codec w.worker = .error e worker →
      e.code ≠ .internal) ∧
    ∀ (call : WorkerCall E) envelopes worker, call.perform codec w.worker = .ok envelopes worker →
      ∀ requestId id runId threads watermark,
        ⟨requestId, .ack id .stopped runId threads watermark⟩ ∈ envelopes →
        ∃ run rest, (w.step codec call).runs = run :: rest ∧ watermark = some run.length := by
  have hlaw := h.law
  refine ⟨hlaw.consecutive, hlaw.numbered.nodup, ?_, ?_, ?_⟩
  · intro event e worker herror
    have hspec : CallSpec w (RemoteWorker.emitSample codec event w.worker) := emitSample_spec hlaw
    rw [herror] at hspec
    exact hspec.1
  · intro call e worker herror
    have hspec : CallSpec w (call.perform codec w.worker) := perform_spec hlaw call
    rw [herror] at hspec
    exact hspec.2
  · intro call envelopes worker hok requestId id runId threads watermark hmem
    have hspec : CallSpec w (call.perform codec w.worker) := perform_spec hlaw call
    rw [hok] at hspec
    unfold WorkerWorld.step
    rw [hok]
    exact hspec.2 requestId id runId threads watermark hmem

theorem WorkerReachable.calls [DecidableEq E] {id : WorkerId} {profile : ProfileDescriptor}
    (calls : List (WorkerCall E)) (h : WorkerReachable codec id profile w) :
    WorkerReachable codec id profile (calls.foldl (WorkerWorld.step codec) w) := by
  induction calls generalizing w with
  | nil => exact h
  | cons call calls ih => exact ih (h.step call)

def unitCodec : EventCodec Unit where
  validateWire _ _ _ := .ok ()
  strip _ _ _ _ event := .ok event
  encodedSampleLen _ _ _ := .ok 64
  validateWire_code := nofun
  strip_code := nofun
  encodedSampleLen_code := nofun

def plainProfile : ProfileDescriptor := ⟨"p", "1", []⟩

/-- A worker is configured and started in batches of two, emits three samples and stops. -/
def batchRun (mode : StopMode) : List (WorkerCall Unit) :=
  [.apply ⟨1, .profile plainProfile⟩, .apply ⟨2, .plan ⟨[], [], []⟩⟩, .apply ⟨3, .properties ⟨∅⟩⟩,
    .apply ⟨4, .start 1 1 (.batch 2)⟩, .emitSample (), .emitSample (), .emitSample (),
    .apply ⟨5, .stop 1 mode⟩]

def batchWorld (mode : StopMode) : WorkerWorld Unit :=
  (batchRun mode).foldl (WorkerWorld.step unitCodec) ⟨.new 1 plainProfile, []⟩

theorem batchWorld_samples : (batchWorld .graceful).runs.map List.length = [3] ∧
      ((batchWorld .graceful).runs.flatten.map RemoteEnvelope.requestId).Nodup :=
  ⟨by decide +kernel, (run_samples unitCodec 1 plainProfile (batchWorld .graceful)
      (WorkerReachable.calls (batchRun .graceful) .new)).2.1⟩

/-- **What a running worker holds back.**  Whatever calls are made, the samples in its sender follow
those it has returned without a gap, and the next sample gets the sequence after them. -/
theorem worker_pending [DecidableEq E] (codec : EventCodec E) (id : WorkerId)
    (profile : ProfileDescriptor) (calls : List (WorkerCall E)) :
    let w := calls.foldl (WorkerWorld.step codec) ⟨.new id profile, []⟩
    w.worker.phase ≠ .failed ∧ (w.worker.phase = .running → ∃ run rest sender,
      w.runs = run :: rest ∧ w.worker.sender = some sender ∧ sender.delivered = [] ∧
      sender.pending.map (·.key) = keysFrom w.worker.id run.length sender.pending.length ∧
      w.worker.nextSequence = run.length + sender.pending.length) := by
  intro w
  have h : WorkerReachable codec id profile w := .calls calls .new
  have hlaw := h.law.phase
  unfold PhaseLaw at hlaw
  refine ⟨fun hphase => ?_, fun hphase => ?_⟩ <;> simp only [runView, hphase] at hlaw
  obtain ⟨run, rest, sender, queue, hruns, hlines, hholds, -⟩ := hlaw
  have hlen : sender.pending.length = queue.length := by rw [hholds.pending, length_map]
  refine ⟨run, rest, sender, hruns, hholds.sends, hholds.drained, ?_, hlen ▸ hlines.sequence⟩
  rw [hlen, hholds.pending, map_map]
  exact hlines.lined.keys

end JmeterRs.Remote
