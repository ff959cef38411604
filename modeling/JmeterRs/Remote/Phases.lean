import JmeterRs.Remote.Steps

/-!
# The phases of a coordinator

The records of the workers follow the phase of the coordinator, the cause of a stop and the
watermarks exist only from the stop on, and no accepted sample is at or above the watermark of its
worker.  `CoordinatorLaw` holds of every coordinator that calls lead to.
-/

namespace JmeterRs.Remote

open Std RemoteCoordinator ExtTreeMap

variable {E : Type}

/-! ## Complete workers -/

/-- The accepted samples of the worker are those below the watermark. -/
def Lifecycle.Complete (l : Lifecycle E) (worker : WorkerId) (watermark : ℕ) : Prop :=
  ∀ i, l.accepted[(⟨worker, i⟩ : SampleKey)]?.isSome = true ↔ i < watermark

namespace RemoteCoordinator

variable {c c' : RemoteCoordinator E} {key : SampleKey} {worker : WorkerId}
  {sample : RemoteSample E}

theorem mem_acceptedOf {i : ℕ} :
    i ∈ c.acceptedOf worker ↔ c.accepted[(⟨worker, i⟩ : SampleKey)]?.isSome = true := by
  unfold acceptedOf
  rw [List.mem_map, ← contains_eq_isSome_getElem?, contains_iff_mem]
  constructor
  · rintro ⟨⟨owner, sequence⟩, hkey, rfl⟩
    obtain ⟨hmem, howner⟩ := List.mem_filter.mp hkey
    cases of_decide_eq_true howner
    exact mem_keys.mp hmem
  · intro hkey
    exact ⟨⟨worker, i⟩, List.mem_filter.mpr ⟨mem_keys.mpr hkey, decide_eq_true rfl⟩, rfl⟩

theorem nodup_acceptedOf (c : RemoteCoordinator E) (worker : WorkerId) :
    (c.acceptedOf worker).Nodup := by
  unfold acceptedOf
  rw [List.nodup_map_iff_inj_on (nodup_keys.filter _)]
  rintro ⟨owner, i⟩ hkey ⟨owner', i'⟩ hkey' hsame
  have howner := of_decide_eq_true (List.mem_filter.mp hkey).2
  have howner' := of_decide_eq_true (List.mem_filter.mp hkey').2
  dsimp only at hsame howner howner'
  rw [hsame, howner, howner']

/-- As many accepted samples as the watermark says, all of them below it, are all of those below
it. -/
theorem satisfied_iff {watermark : ℕ} :
    c.stopWatermarkSatisfied worker watermark = true ↔ c.lifecycle.Complete worker watermark := by
  unfold stopWatermarkSatisfied Lifecycle.Complete
  rw [Bool.and_eq_true, List.all_eq_true, decide_eq_true_eq]
  simp only [decide_eq_true_eq]
  show (_ ∧ _) ↔ ∀ i, c.accepted[(⟨worker, i⟩ : SampleKey)]?.isSome = true ↔ i < watermark
  simp only [← mem_acceptedOf]
  have hnodup := nodup_acceptedOf c worker
  constructor
  · rintro ⟨hbelow, hlength⟩ i
    have hsub : (c.acceptedOf worker).Subperm (List.range watermark) :=
      List.subperm_of_subset hnodup fun j hj => List.mem_range.mpr (hbelow j hj)
    have hperm := hsub.perm_of_length_le
      (by rw [List.length_range]; exact Nat.le_of_eq hlength.symm)
    rw [hperm.mem_iff, List.mem_range]
  · intro hcomplete
    refine ⟨fun j hj => (hcomplete j).mp hj, ?_⟩
    have hperm : (c.acceptedOf worker).Perm (List.range watermark) := by
      rw [List.perm_ext_iff_of_nodup hnodup List.nodup_range]
      intro j
      rw [hcomplete, List.mem_range]
    rw [hperm.length_eq, List.length_range]

/-! ## Parts of `recompute_phase` -/

theorem healthyAll_iff {phase : WorkerPhase} :
    c.healthyAll phase = true ↔ ∀ (worker : WorkerId) (record : WorkerRecord),
      c.workers[worker]? = some record → record.phase = .failed ∨ record.phase = phase := by
  unfold healthyAll
  rw [List.all_eq_true]
  constructor
  · intro h worker record hrec
    exact of_decide_eq_true (h (worker, record) (mem_toList_iff_getElem?_eq_some.mpr hrec))
  · rintro h ⟨worker, record⟩ hentry
    exact decide_eq_true (h worker record (mem_toList_iff_getElem?_eq_some.mp hentry))

/-- If no worker is healthy and there are workers, then one has failed. -/
theorem exists_failed (hnone : c.healthyWorkerCount = 0) (hsome : c.workers.isEmpty = false) :
    ∃ (worker : WorkerId) (record : WorkerRecord),
      c.workers[worker]? = some record ∧ record.phase = .failed := by
  have hnil : c.workersWith (·.phase ≠ .failed) = [] := List.length_eq_zero_iff.mp hnone
  rw [← isEmpty_toList, List.isEmpty_eq_false_iff_exists_mem] at hsome
  obtain ⟨⟨worker, record⟩, hentry⟩ := hsome
  have hrec := mem_toList_iff_getElem?_eq_some.mp hentry
  refine ⟨worker, record, hrec, ?_⟩
  by_contra hwell
  have hmem : worker ∈ c.workersWith (·.phase ≠ .failed) :=
    mem_workers.mpr ⟨record, hrec, decide_eq_true hwell⟩
  rw [hnil] at hmem
  cases hmem

/-- The keys that an abort drops. -/
def dropped (c : RemoteCoordinator E) (key : SampleKey) : Prop :=
  ∃ sender, c.sender = some sender ∧ key ∈ sender.pending.map RemoteSample.key

theorem get?_remove : (c.removeDiscarded sample).accepted[key]? =
      if sample.key = key then none else c.accepted[key]? := by
  unfold removeDiscarded
  by_cases hcontains : c.accepted.contains sample.key = true
  · rw [if_pos hcontains]
    exact get?_erase_eq sample.key key
  · rw [if_neg hcontains]
    split_ifs with hkey
    · rw [contains_eq_isSome_getElem?, hkey, Bool.not_eq_true,
        Option.isSome_eq_false_iff, Option.isNone_iff_eq_none] at hcontains
      exact hcontains
    · rfl

theorem get?_removeAll (samples : List (RemoteSample E)) (c : RemoteCoordinator E)
    (key : SampleKey) : (samples.foldl removeDiscarded c).accepted[key]? =
      if key ∈ samples.map RemoteSample.key then none else c.accepted[key]? := by
  induction samples generalizing c with
  | nil => exact (if_neg List.not_mem_nil).symm
  | cons sample rest ih =>
    rw [List.foldl_cons, ih, get?_remove, List.map_cons]
    by_cases hrest : key ∈ rest.map RemoteSample.key
    · rw [if_pos hrest, if_pos (.tail _ hrest)]
    · rw [if_neg hrest]
      by_cases hkey : sample.key = key
      · rw [if_pos hkey, if_pos (hkey ▸ List.mem_cons_self)]
      · rw [if_neg hkey, if_neg (List.not_mem_cons_of_ne_of_not_mem (Ne.symm hkey) hrest)]

theorem view_removeAll {samples : List (RemoteSample E)} :
    (samples.foldl removeDiscarded c).lifecycle =
      { c.lifecycle with accepted := (samples.foldl removeDiscarded c).accepted } := by
  induction samples generalizing c with
  | nil => rfl
  | cons sample rest ih =>
    rw [List.foldl_cons, ih]
    unfold removeDiscarded
    dsimp only
    split_ifs <;> rfl

/-- An abort drops what is queued. -/
theorem abort_lifecycle :
    c.abortSender.lifecycle = { c.lifecycle with
      accepted := c.abortSender.accepted
      sender := c.sender.map fun sender => sender.abort.2 } := by
  unfold abortSender
  cases hsender : c.sender with
  | none =>
    show c.lifecycle = _
    simp only [lifecycle, hsender]
    rfl
  | some sender =>
    exact view_removeAll

theorem get?_abort_dropped (h : c.dropped key) : c.abortSender.accepted[key]? = none := by
  obtain ⟨sender, hsender, hkey⟩ := h
  unfold abortSender
  rw [hsender]
  exact (get?_removeAll sender.pending _ key).trans (if_pos hkey)

theorem get?_abort_kept (h : ¬ c.dropped key) :
    c.abortSender.accepted[key]? = c.accepted[key]? := by
  unfold abortSender
  cases hsender : c.sender with
  | none => rfl
  | some sender =>
    have hkey : key ∉ sender.pending.map RemoteSample.key := fun hkey => h ⟨sender, hsender, hkey⟩
    exact (get?_removeAll sender.pending _ key).trans (if_neg hkey)

theorem get?_abort (h : c.abortSender.accepted[key]? = some sample) :
    c.accepted[key]? = some sample := by
  by_cases hdropped : c.dropped key
  · rw [get?_abort_dropped hdropped] at h
    cases h
  · rw [get?_abort_kept hdropped] at h
    exact h

end RemoteCoordinator

/-! ## The law -/

/-- The phases that a healthy worker may have in a phase of the coordinator. -/
def CoordinatorPhase.allows : CoordinatorPhase → WorkerPhase → Prop
  | .idle, phase | .configuring, phase => phase = .idle ∨ phase = .ready
  | .ready, phase => phase = .ready
  | .starting, phase => phase = .ready ∨ phase = .running
  | .running, phase => phase = .running
  | .stopping, phase => phase = .running ∨ phase = .stopping ∨ phase = .stopped
  | .stopped, phase => phase = .stopped
  | .failed, _ => True

/-- The phases before a stop. -/
def CoordinatorPhase.unstopped : CoordinatorPhase → Bool
  | .stopping | .stopped | .failed => false
  | _ => true

structure CoordinatorLaw (l : Lifecycle E) : Prop where
  entry : ∀ worker : WorkerId, l.workers.contains worker = true →
    l.configAcks.contains worker = true
  records : ∀ (worker : WorkerId) (record : WorkerRecord), l.workers[worker]? = some record →
    record.phase = .failed ∨ l.phase.allows record.phase
  unstopped : l.phase.unstopped = true → l.stopCause = none ∧ l.stopWatermarks = ∅
  stopping : l.phase = .stopping → l.stopCause ≠ none
  stopped : l.phase = .stopped → ∃ mode, l.stopCause = some (.user mode)
  victim : l.stopCause = some .failFast ∨ l.phase = .failed →
    ∃ (worker : WorkerId) (record : WorkerRecord),
      l.workers[worker]? = some record ∧ record.phase = .failed
  run : ∀ runId, l.runId = some runId → runId ≠ 0
  own : ∀ (key : SampleKey) (sample : RemoteSample E), l.accepted[key]? = some sample →
    sample.key = key ∧ l.runId = some sample.runId
  below : ∀ (worker : WorkerId) (watermark i : ℕ), l.stopWatermarks[worker]? = some watermark →
    l.accepted[(⟨worker, i⟩ : SampleKey)]?.isSome = true → i < watermark

open RemoteCoordinator

variable {c c' : RemoteCoordinator E} {l : Lifecycle E}

theorem law_new (profile : ProfileDescriptor) :
    CoordinatorLaw (new profile : RemoteCoordinator E).lifecycle := by
  refine ⟨fun worker h => ?_, fun _ _ h => absurd h get?_empty_ne,
    fun _ => ⟨rfl, rfl⟩, nofun, nofun, nofun, nofun,
    fun _ _ h => absurd h get?_empty_ne, fun _ _ _ h => absurd h get?_empty_ne⟩
  exact absurd h (by
    show ¬ (∅ : ExtTreeMap WorkerId WorkerRecord).contains worker = true
    rw [contains_empty]
    exact Bool.false_ne_true)

/-! ### Recomputing the phase -/

/-- The record becomes one of a stopped worker, since the samples of the worker are there. -/
structure Advanced (c : RemoteCoordinator E) (worker : WorkerId) (old record : WorkerRecord) :
    Prop where
  before : old.phase = .stopping
  after : record.phase = .stopped
  user : ∃ mode, c.stopCause = some (.user mode)
  complete : ∃ watermark, c.stopWatermarks[worker]? = some watermark ∧
    c.lifecycle.Complete worker watermark

theorem advance_view : c.advanceGracefulStopWorkers.lifecycle =
      { c.lifecycle with workers := c.advanceGracefulStopWorkers.workers } := by
  unfold advanceGracefulStopWorkers
  split <;> rfl

theorem contains_advance (c : RemoteCoordinator E) (worker : WorkerId) :
    c.advanceGracefulStopWorkers.workers.contains worker = c.workers.contains worker := by
  unfold advanceGracefulStopWorkers
  split
  · exact contains_map
  · rfl

variable {worker : WorkerId} {record : WorkerRecord} {mode : StopMode} {phase : CoordinatorPhase}
  {ack : Acknowledgement} {sender : Option (SampleSender E)}

theorem get?_advance {old : WorkerRecord} (h : c.workers[worker]? = some old) :
    ∃ record, c.advanceGracefulStopWorkers.workers[worker]? = some record ∧
      (record = old ∨ Advanced c worker old record) := by
  unfold advanceGracefulStopWorkers
  split
  · rename_i mode hcause
    rw [getElem?_map, h, Option.map_some]
    refine ⟨_, rfl, ?_⟩
    split_ifs with hstop
    · obtain ⟨hphase, hany⟩ := hstop
      obtain ⟨watermark, hwatermark, hcomplete⟩ := (Option.any_eq_true _ _).mp hany
      exact .inr ⟨hphase, rfl, ⟨mode, hcause⟩, watermark, hwatermark, satisfied_iff.mp hcomplete⟩
    · exact .inl rfl
  · exact ⟨old, h, .inl rfl⟩

theorem advance_get? (h : c.advanceGracefulStopWorkers.workers[worker]? = some record) :
    ∃ old, c.workers[worker]? = some old ∧ (record = old ∨ Advanced c worker old record) := by
  have hcontains := contains_advance c worker
  rw [contains_eq_isSome_getElem?, h, contains_eq_isSome_getElem?] at hcontains
  obtain ⟨old, hold⟩ := Option.isSome_iff_exists.mp hcontains.symm
  obtain ⟨record', hrec', hcases⟩ := get?_advance hold
  rw [h] at hrec'
  cases hrec'
  exact ⟨old, hold, hcases⟩

theorem CoordinatorLaw.advance (h : CoordinatorLaw c.lifecycle) :
    CoordinatorLaw c.advanceGracefulStopWorkers.lifecycle := by
  rw [advance_view]
  refine { h with
    entry := fun worker hworker => h.entry worker ((contains_advance c worker).symm.trans hworker)
    records := fun worker record hrec => ?_
    victim := fun hcase => ?_ }
  · obtain ⟨old, hold, rfl | hadvanced⟩ := advance_get? hrec
    · exact h.records worker record hold
    · -- A worker waits only while the coordinator is stopping or has failed.
      rcases h.records worker old hold with hfail | hallowed
      · rw [hadvanced.before] at hfail
        cases hfail
      · rw [hadvanced.before] at hallowed
        refine .inr ?_
        rw [hadvanced.after]
        show c.phase.allows .stopped
        change c.phase.allows .stopping at hallowed
        cases hphase : c.phase <;> rw [hphase] at hallowed <;>
          simp_all [CoordinatorPhase.allows]
  · obtain ⟨worker, old, hold, hfail⟩ := h.victim hcase
    obtain ⟨record, hrec, rfl | hadvanced⟩ := get?_advance hold
    · exact ⟨worker, record, hrec, hfail⟩
    · rw [hadvanced.before] at hfail
      cases hfail

/-- The phase changes, the sender too, and samples may be dropped. -/
theorem CoordinatorLaw.change (h : CoordinatorLaw l)
    {accepted : ExtTreeMap SampleKey (RemoteSample E)}
    (hacc : ∀ (key : SampleKey) (sample : RemoteSample E), accepted[key]? = some sample →
      l.accepted[key]? = some sample)
    (hrecords : ∀ (worker : WorkerId) (record : WorkerRecord), l.workers[worker]? = some record →
      record.phase = .failed ∨ phase.allows record.phase)
    (hunstopped : phase.unstopped = true → l.phase.unstopped = true)
    (hstopping : phase ≠ .stopping)
    (hstopped : phase = .stopped → ∃ mode, l.stopCause = some (.user mode))
    (hfail : phase = .failed → ∃ (worker : WorkerId) (record : WorkerRecord),
      l.workers[worker]? = some record ∧ record.phase = .failed) :
    CoordinatorLaw { l with phase, accepted, sender } := by
  refine ⟨h.entry, hrecords, fun hphase => h.unstopped (hunstopped hphase),
    fun hphase => absurd hphase hstopping, hstopped, fun hcase => ?_, h.run,
    fun key sample hsample => h.own key sample (hacc key sample hsample),
    fun worker watermark i hwatermark hsome => ?_⟩
  · rcases hcase with hcause | hphase
    · exact h.victim (.inl hcause)
    · exact hfail hphase
  · obtain ⟨sample, hsample⟩ := Option.isSome_iff_exists.mp hsome
    refine h.below worker watermark i hwatermark ?_
    rw [hacc _ sample hsample]
    rfl

/-- The lifecycle after an abort, in the phase that follows it. -/
def Lifecycle.aborted (c : RemoteCoordinator E) (phase : CoordinatorPhase) : Lifecycle E :=
  { c.lifecycle with
    phase
    accepted := c.abortSender.accepted
    sender := c.sender.map fun sender => sender.abort.2 }

theorem abort_view :
    ({ c.abortSender with phase } : RemoteCoordinator E).lifecycle = .aborted c phase := by
  show ({ c.abortSender.lifecycle with phase } : Lifecycle E) = _
  rw [abort_lifecycle]
  rfl

theorem finishStop_cases (c : RemoteCoordinator E) :
    c.stopCause = some .failFast ∧ c.finishStop.lifecycle = .aborted c .failed ∨
      c.stopCause = some (.user .immediate) ∧ c.finishStop.lifecycle = .aborted c .stopped ∨
      c.stopCause ≠ some .failFast ∧ c.stopCause ≠ some (.user .immediate) ∧
        c.finishStop.lifecycle = { c.lifecycle with
          phase := .stopped
          sender := c.sender.map SampleSender.flushPending } := by
  unfold finishStop
  split
  · rename_i hcause
    exact .inl ⟨hcause, abort_view⟩
  · rename_i hcause
    exact .inr (.inl ⟨hcause, abort_view⟩)
  · rename_i hfast himmediate
    exact .inr (.inr ⟨hfast, himmediate, rfl⟩)

section

variable (h : CoordinatorLaw c.lifecycle)

include h

theorem CoordinatorLaw.recomputed (hcases : Recomputed c c') : CoordinatorLaw c'.lifecycle := by
  cases hcases with
  | same _ _ => exact h
  | failed hnone hsome =>
    rw [abort_view]
    exact h.change (fun _ _ => get?_abort) (fun _ _ _ => .inr trivial) nofun nofun nofun
      fun _ => exists_failed hnone hsome
  | ready hphase hall | running hphase hall =>
    refine h.change (fun _ _ => id) (healthyAll_iff.mp hall) (fun _ => ?_) nofun nofun nofun
    show c.phase.unstopped = true
    rw [hphase]
    rfl
  | finished hphase hall =>
    have hrecords := healthyAll_iff.mp hall
    have huser : c.stopCause ≠ some .failFast → ∃ mode, c.stopCause = some (.user mode) := by
      intro hfast
      have hsome := h.stopping hphase
      change c.stopCause ≠ none at hsome
      cases hcause : c.stopCause with
      | none => exact absurd hcause hsome
      | some cause =>
        cases cause with
        | user mode => exact ⟨mode, rfl⟩
        | failFast => exact absurd hcause hfast
    rcases finishStop_cases c with ⟨hcause, hlife⟩ | ⟨hcause, hlife⟩ | ⟨hfast, -, hlife⟩
    · rw [hlife]
      exact h.change (fun _ _ => get?_abort) (fun _ _ _ => .inr trivial) nofun nofun nofun
        fun _ => h.victim (.inl hcause)
    · rw [hlife]
      exact h.change (fun _ _ => get?_abort) hrecords nofun nofun
        (fun _ => ⟨.immediate, hcause⟩) nofun
    · rw [hlife]
      exact h.change (fun _ _ => id) hrecords nofun nofun (fun _ => huser hfast) nofun

theorem CoordinatorLaw.recompute : CoordinatorLaw c.recomputePhase.lifecycle :=
  h.advance.recomputed (recomputeFor_cases c.advanceGracefulStopWorkers)

theorem CoordinatorLaw.recomputeAfter :
    CoordinatorLaw c.recomputePhaseAfterConfiguration.lifecycle := by
  rcases recomputeAfter_cases c with hsame | ⟨hphase, hall, hready⟩
  · rw [hsame]
    exact h
  · rw [hready]
    exact h.recomputed (.ready hphase hall)

end

/-- The table of requests does not matter. -/
theorem CoordinatorLaw.withPending (h : CoordinatorLaw l)
    {pending : ExtTreeMap RequestId (PendingRequest E)} : CoordinatorLaw { l with pending } :=
  { h with }

/-- The end of an acknowledgement: the phase is computed again and the request is completed. -/
theorem complete_view (ack : Acknowledgement) : (c.complete ack).lifecycle =
      { c.recomputePhase.recomputePhaseAfterConfiguration.lifecycle with
        pending := c.pendingRequests.erase ack.requestId } := by
  have hsame : c.recomputePhase.recomputePhaseAfterConfiguration.pendingRequests =
      c.pendingRequests :=
    congrArg Requests.pending ((recomputeAfter_frame _).1.trans (recompute_frame c).1)
  unfold complete
  generalize c.recomputePhase.recomputePhaseAfterConfiguration = d at hsame ⊢
  rw [← hsame]
  rfl

theorem CoordinatorLaw.complete (h : CoordinatorLaw c.lifecycle) (ack : Acknowledgement) :
    CoordinatorLaw (c.complete ack).lifecycle := by
  rw [complete_view]
  exact h.recompute.recomputeAfter.withPending

/-! ### Every call -/

section

variable (h : CoordinatorLaw l)

include h

theorem CoordinatorLaw.withSender : CoordinatorLaw { l with sender } :=
  { h with }

/-- More workers have an entry for their configuration. -/
theorem CoordinatorLaw.withAcks
    {configAcks : ExtTreeMap WorkerId (List AckStage)}
    (hacks : ∀ worker, l.configAcks.contains worker = true → configAcks.contains worker = true) :
    CoordinatorLaw { l with configAcks } :=
  { h with entry := fun worker hworker => hacks worker (h.entry worker hworker) }

theorem CoordinatorLaw.modify {f : WorkerRecord → WorkerRecord}
    {phase : WorkerPhase} (hf : ∀ record, (f record).phase = phase)
    (hallowed : phase = .failed ∨ l.phase.allows phase)
    (hfail : ∀ record, l.workers[worker]? = some record → record.phase = .failed →
      phase = .failed) :
    CoordinatorLaw { l with workers := l.workers.modify worker f } := by
  refine { h with
    entry := fun other hother => h.entry other (contains_modify.symm.trans hother)
    records := fun other record hrec => ?_
    victim := fun hcase => ?_ }
  · have hmodify : (l.workers.modify worker f)[other]? = some record := hrec
    rw [get?_modify_eq] at hmodify
    split_ifs at hmodify
    · obtain ⟨old, -, rfl⟩ := Option.map_eq_some_iff.mp hmodify
      rw [hf]
      exact hallowed
    · exact h.records other record hmodify
  · obtain ⟨other, record, hrec, hvictim⟩ := h.victim hcase
    have hlook := get?_modify_eq l.workers worker other f
    rw [hrec] at hlook
    split_ifs at hlook with hother
    · exact ⟨other, f record, hlook, (hf record).trans (hfail record (hother ▸ hrec) hvictim)⟩
    · exact ⟨other, record, hlook, hvictim⟩

end

theorem healthy_phaseOf {phase : WorkerPhase} (h : c.phaseOf worker ≠ some .failed)
    (record : WorkerRecord) (hrec : c.workers[worker]? = some record)
    (hfail : record.phase = .failed) : phase = .failed := by
  unfold phaseOf at h
  rw [hrec, Option.map_some, hfail] at h
  exact absurd rfl h

theorem CoordinatorLaw.drop (h : CoordinatorLaw c.lifecycle) (worker : WorkerId) :
    CoordinatorLaw (c.dropWorker worker).lifecycle := by
  have hset : CoordinatorLaw (c.setWorkerPhase worker .failed).lifecycle :=
    h.modify (fun _ => rfl) (.inl rfl) fun _ _ _ => rfl
  exact hset.withPending

theorem drop_victim {phase : WorkerPhase} (h : c.phaseOf worker = some phase) :
    ∃ record, (c.dropWorker worker).workers[worker]? = some record ∧ record.phase = .failed := by
  obtain ⟨record, hrec, -⟩ := Option.map_eq_some_iff.mp h
  refine ⟨{ record with phase := .failed }, ?_, rfl⟩
  refine (get?_setPhase c worker worker .failed).trans ?_
  rw [if_pos rfl, hrec]
  rfl

/-- A record at the end of a fast failure. -/
def haltRecord (record : WorkerRecord) : WorkerRecord :=
  if record.phase = .ready then { record with phase := .stopping } else record

/-- How the stop of a fast failure begins. -/
theorem endFast_cases (c : RemoteCoordinator E) :
    (∀ worker : WorkerId, c.endFailFast.workers[worker]? = c.workers[worker]?.map haltRecord) ∧
      (c.endFailFast.healthyAll .stopped = true ∧ c.endFailFast.lifecycle =
          { c.lifecycle with workers := c.endFailFast.workers, phase := .failed } ∨
        c.endFailFast.healthyAll .stopped = false ∧ c.endFailFast.lifecycle =
          { c.lifecycle with workers := c.endFailFast.workers }) := by
  have hmap : ∀ worker : WorkerId,
      (c.workers.map fun _ record =>
        if record.phase = .ready then { record with phase := .stopping } else record)[worker]? =
      c.workers[worker]?.map haltRecord := by
    intro worker
    rw [getElem?_map]
    rfl
  unfold endFailFast
  dsimp only
  split_ifs with hall
  · exact ⟨hmap, .inl ⟨hall, rfl⟩⟩
  · exact ⟨hmap, .inr ⟨Bool.eq_false_iff.mpr hall, rfl⟩⟩

/-- What is allowed while a run is active is allowed when its fast failure begins. -/
theorem allows_halt (hact : Active phase) (h : phase.allows record.phase) :
    CoordinatorPhase.stopping.allows (haltRecord record).phase := by
  unfold haltRecord
  rcases hact with rfl | rfl | rfl
  · rcases h with h | h
    · rw [if_pos h]
      exact .inr (.inl rfl)
    · rw [if_neg (by rw [h]; exact nofun)]
      exact .inl h
  · have hrunning : record.phase = .running := h
    rw [if_neg (by rw [hrunning]; exact nofun)]
    exact .inl h
  · rw [if_neg (by rcases h with h | h | h <;> rw [h] <;> exact nofun)]
    exact h

theorem CoordinatorLaw.fast (h : CoordinatorLaw c.lifecycle) {phase : WorkerPhase}
    {asked : RemoteCoordinator E} (hphase : c.phaseOf worker = some phase)
    (hact : Active c.phase)
    (hsame : asked.lifecycle =
      { (c.dropWorker worker).cancelAllPendingRequests.lifecycle with
        stopCause := some .failFast
        phase := .stopping
        pending := asked.pendingRequests }) : CoordinatorLaw asked.endFailFast.lifecycle := by
  have hdrop := h.drop worker
  obtain ⟨hworkers, hcases⟩ := endFast_cases asked
  have hold : asked.workers = (c.dropWorker worker).workers := congrArg Lifecycle.workers hsame
  obtain ⟨victim, hvictim, hfail⟩ := drop_victim hphase
  have hkept : ∃ (other : WorkerId) (record : WorkerRecord),
      asked.endFailFast.workers[other]? = some record ∧ record.phase = .failed := by
    refine ⟨worker, victim, ?_, hfail⟩
    rw [hworkers, hold, hvictim, Option.map_some, haltRecord, if_neg (by rw [hfail]; exact nofun)]
  have hentry : ∀ other : WorkerId, asked.endFailFast.workers.contains other = true →
      c.configAcks.contains other = true := by
    intro other hother
    refine hdrop.entry other ?_
    show (c.dropWorker worker).workers.contains other = true
    rw [contains_eq_isSome_getElem?, hworkers, Option.isSome_map, hold] at hother
    rw [contains_eq_isSome_getElem?]
    exact hother
  have hrecords : ∀ (other : WorkerId) (record : WorkerRecord),
      asked.endFailFast.workers[other]? = some record →
      record.phase = .failed ∨ CoordinatorPhase.stopping.allows record.phase := by
    intro other record hrec
    rw [hworkers, hold] at hrec
    obtain ⟨old, hold, rfl⟩ := Option.map_eq_some_iff.mp hrec
    rcases hdrop.records other old hold with hfail | hallowed
    · refine .inl ?_
      rw [haltRecord, if_neg (by rw [hfail]; exact nofun)]
      exact hfail
    · exact .inr (allows_halt hact hallowed)
  have hbase : CoordinatorLaw { asked.lifecycle with workers := asked.endFailFast.workers } := by
    rw [hsame]
    exact ⟨hentry, hrecords, nofun, fun _ => nofun, nofun, fun _ => hkept, hdrop.run, hdrop.own,
      hdrop.below⟩
  rcases hcases with ⟨-, hlife⟩ | ⟨-, hlife⟩
  · rw [hlife]
    exact hbase.change (fun _ _ => id) (fun _ _ _ => .inr trivial) nofun nofun nofun fun _ => hkept
  · rw [hlife]
    exact hbase

/-- A record at the beginning of a stop. -/
def stopRecord (starting : Bool) (record : WorkerRecord) : WorkerRecord :=
  if awaitsWatermark starting record then { record with phase := .stopping } else record

theorem stop_lifecycle : (c.beginStop mode).lifecycle =
      { c.lifecycle with
        workers := (c.beginStop mode).workers
        phase := .stopping
        stopCause := (c.beginStop mode).stopCause
        pending := (c.beginStop mode).pendingRequests } := by
  unfold beginStop cancelForStop
  split_ifs <;> rfl

/-- A stop that goes out is the cause from then on. -/
theorem cause_beginStop (h : CoordinatorLaw c.lifecycle) (hmay : c.MayStop mode) :
    (c.beginStop mode).stopCause = some (.user mode) := by
  show (if c.stopCause = none ∨ c.escalates mode then some (.user mode) else c.stopCause) = _
  have hnew : c.stopCause = none ∨ c.escalates mode = true := by
    have hunstopped : c.phase.unstopped = true → c.stopCause = none := fun h' => (h.unstopped h').1
    rcases hmay with ⟨hphase, -⟩ | hphase | ⟨-, hescalates⟩
    · exact .inl (hunstopped (by rw [hphase]; rfl))
    · exact .inl (hunstopped (by rw [hphase]; rfl))
    · exact .inr hescalates
  exact if_pos hnew

theorem stop_failed {starting : Bool} (h : record.phase = .failed) :
    stopRecord starting record = record := by
  refine if_neg ?_
  unfold awaitsWatermark
  rw [h]
  cases starting <;> decide

theorem allows_stop (hmay : c.MayStop mode) (h : c.phase.allows record.phase) :
    CoordinatorPhase.stopping.allows (stopRecord (c.phase = .starting) record).phase := by
  unfold stopRecord awaitsWatermark
  rcases hmay with ⟨hphase, -⟩ | hphase | ⟨hphase, -⟩
  · rw [hphase] at h ⊢
    rcases h with h | h <;> rw [h]
    · exact .inr (.inl rfl)
    · exact .inl h
  · rw [hphase] at h ⊢
    have hrunning : record.phase = .running := h
    rw [hrunning]
    exact .inr (.inl rfl)
  · rw [hphase] at h ⊢
    rcases h with h | h | h <;> rw [h]
    · exact .inr (.inl rfl)
    · exact .inr (.inl rfl)
    · exact .inr (.inr h)

theorem CoordinatorLaw.beginStop (h : CoordinatorLaw c.lifecycle) (hmay : c.MayStop mode) :
    CoordinatorLaw (c.beginStop mode).lifecycle := by
  have hcause := cause_beginStop h hmay
  rw [stop_lifecycle, hcause]
  refine ⟨fun worker hworker => h.entry worker ?_, fun worker record hrec => ?_, nofun,
    fun _ => nofun, nofun, fun hcase => hcase.elim nofun nofun, h.run, h.own, h.below⟩
  · exact contains_map.symm.trans hworker
  · have hmap : c.workers[worker]?.map (stopRecord (c.phase = .starting)) = some record :=
      getElem?_map.symm.trans hrec
    obtain ⟨old, hold, rfl⟩ := Option.map_eq_some_iff.mp hmap
    rcases h.records worker old hold with hfail | hallowed
    · rw [stop_failed hfail]
      exact .inl hfail
    · exact .inr (allows_stop hmay hallowed)

theorem CoordinatorLaw.stop (h : CoordinatorLaw c.lifecycle) (hmay : c.MayStop mode)
    {asked : RemoteCoordinator E}
    (hsame : asked.lifecycle =
      { (c.beginStop mode).lifecycle with pending := asked.pendingRequests }) :
    CoordinatorLaw asked.recomputePhase.lifecycle := by
  have hasked : CoordinatorLaw asked.lifecycle := by
    rw [hsame]
    exact (h.beginStop hmay).withPending
  exact hasked.recompute

/-- What the checks on a sample show. -/
structure SampleFits (c : RemoteCoordinator E) (sample : RemoteSample E) : Prop where
  phase : c.phase = .running ∨ c.phase = .stopping
  run : c.runId = some sample.runId
  record : ∃ record, c.workers[sample.key.worker]? = some record ∧ record.phase ≠ .failed ∧
    (record.phase = .running ∨ record.phase = .stopping ∨ record.phase = .stopped)
  below : ∀ watermark, c.stopWatermarks[sample.key.worker]? = some watermark →
    sample.key.sequence < watermark

theorem checkSample_ok {sample : RemoteSample E} (h : c.checkSample sample = .ok ()) :
    SampleFits c sample := by
  simp only [checkSample, bind_ok, failIf_eq_ok, SampleSender.need_eq_ok, exists_const,
    not_not] at h
  obtain ⟨_, -, hphase, hrun, record, hrec, hfail, hbelow, hstarted⟩ := h
  refine ⟨hphase, hrun, ⟨record, hrec, hfail, hstarted⟩, fun watermark hwatermark => ?_⟩
  rw [hwatermark, Option.any_some, decide_eq_true_eq, Nat.not_le] at hbelow
  exact hbelow

theorem checkStarted_ok (h : c.checkStarted ack = .ok ()) :
    c.phase = .starting ∧ ack.runId = c.runId := by
  obtain ⟨_, -, h⟩ := bind_ok.mp h
  rw [failIf_eq_ok, not_or, not_not, not_or, not_not] at h
  exact ⟨h.1, h.2.1⟩

/-- What the checks on a stop acknowledgement show. -/
structure StopFits (c : RemoteCoordinator E) (ack : Acknowledgement) (watermark : ℕ) : Prop where
  run : ack.runId = c.runId
  above : ∀ i, c.accepted[(⟨ack.worker, i⟩ : SampleKey)]?.isSome = true → i < watermark
  phase : c.phase = .stopping ∨ c.phase = .stopped ∧ c.phaseOf ack.worker = some .stopped

theorem checkStopped_ok {watermark : ℕ} (h : c.checkStopped ack = .ok watermark) :
    StopFits c ack watermark := by
  simp only [checkStopped, bind_ok, failIf_eq_ok, exists_const] at h
  obtain ⟨_, -, hrun, value, -, -, habove, hphase, h⟩ := h
  cases h
  rw [not_or, not_not] at hrun hphase
  exact ⟨hrun.1, fun i hi => not_not.mp habove i (mem_acceptedOf.mpr hi), hphase.1⟩

section

variable (h : CoordinatorLaw c.lifecycle)

include h

theorem CoordinatorLaw.accept {sample : RemoteSample E}
    (hfits : SampleFits c sample) (budget : Budget E) (sender : SampleSender E) :
    CoordinatorLaw (c.acceptSample sample budget sender).lifecycle := by
  refine { h with
    own := fun key other hother => ?_
    below := fun worker watermark i hwatermark hsome => ?_ }
  · have hinsert : (c.accepted.insert sample.key sample)[key]? = some other := hother
    rw [get?_insert_eq] at hinsert
    split_ifs at hinsert with hkey
    · cases hinsert
      exact ⟨hkey, hfits.run⟩
    · exact h.own key other hinsert
  · have hinsert : (c.accepted.insert sample.key sample)[(⟨worker, i⟩ : SampleKey)]?.isSome =
      true := hsome
    rw [get?_insert_eq] at hinsert
    split_ifs at hinsert with hkey
    · have hbelow := hfits.below watermark (by rw [hkey]; exact hwatermark)
      rw [hkey] at hbelow
      exact hbelow
    · exact h.below worker watermark i hwatermark hinsert

theorem CoordinatorLaw.noteStopped {watermark : ℕ}
    (hfits : StopFits c ack watermark) (hwell : c.phaseOf ack.worker ≠ some .failed) :
    CoordinatorLaw (c.noteStopped ack.worker watermark).lifecycle := by
  have hnoted : CoordinatorLaw { c.lifecycle with
      stopWatermarks := c.stopWatermarks.insert ack.worker watermark } := by
    refine { h with
      unstopped := fun hphase => ?_
      below := fun worker watermark' i hwatermark hsome => ?_ }
    · change c.phase.unstopped = true at hphase
      rcases hfits.phase with hstopping | ⟨hstopped, -⟩
      · rw [hstopping] at hphase
        cases hphase
      · rw [hstopped] at hphase
        cases hphase
    · have hinsert : (c.stopWatermarks.insert ack.worker watermark)[worker]? = some watermark' :=
        hwatermark
      rw [get?_insert_eq] at hinsert
      split_ifs at hinsert with hworker
      · cases hinsert
        subst hworker
        exact hfits.above i hsome
      · exact h.below worker watermark' i hinsert hsome
  have hallowed : c.phase.allows .stopped := by
    rcases hfits.phase with hstopping | ⟨hstopped, -⟩
    · rw [hstopping]
      exact .inr (.inr rfl)
    · rw [hstopped]
      rfl
  unfold RemoteCoordinator.noteStopped
  dsimp only
  split_ifs
  · exact hnoted.modify (fun _ => rfl) (.inr hallowed) (healthy_phaseOf hwell)
  · exact hnoted

theorem CoordinatorLaw.withConfigEntry (worker : WorkerId) :
    CoordinatorLaw (c.withConfigEntry worker).lifecycle :=
  h.withAcks fun _ hother =>
    contains_insertIfNew.trans ((congrArg _ hother).trans (Bool.or_true _))

theorem CoordinatorLaw.noteConfigured (stages : List AckStage)
    (hphase : c.phase = .configuring) (hwell : c.phaseOf worker ≠ some .failed) :
    CoordinatorLaw (c.noteConfigured worker stages).lifecycle := by
  have hacks : CoordinatorLaw
      { c.lifecycle with configAcks := c.configAcks.insert worker stages } := by
    refine h.withAcks fun other hother => ?_
    rw [contains_insert]
    change c.configAcks.contains other = true at hother
    rw [hother, Bool.or_true]
  have hallowed : c.phase.allows .ready := by
    rw [hphase]
    exact .inr rfl
  unfold RemoteCoordinator.noteConfigured
  split_ifs
  · exact hacks.modify (fun _ => rfl) (.inr hallowed) (healthy_phaseOf hwell)
  · exact hacks

end

/-- What is allowed of a worker that is idle is allowed of one that is ready. -/
theorem allows_ready (h : phase.allows .idle) : phase.allows .ready := by
  cases phase <;> simp_all [CoordinatorPhase.allows]

theorem CoordinatorLaw.added (h : CoordinatorLaw c.lifecycle) (hphase : c.phase = .idle)
    (hnew : c.workers.contains worker = false) :
    CoordinatorLaw { c.lifecycle with
      workers := c.workers.insert worker ⟨.idle, 0⟩
      configAcks := c.configAcks.insert worker [] } := by
  refine { h with
    entry := fun other hother => ?_
    records := fun other record hrec => ?_
    victim := fun hcase => ?_ }
  · change (c.workers.insert worker ⟨.idle, 0⟩).contains other = true at hother
    show (c.configAcks.insert worker []).contains other = true
    rw [contains_insert, Bool.or_eq_true] at hother ⊢
    rcases hother with hsame | hother
    · exact .inl hsame
    · exact .inr (h.entry other hother)
  · have hinsert : (c.workers.insert worker ⟨.idle, 0⟩)[other]? = some record := hrec
    rw [get?_insert_eq] at hinsert
    split_ifs at hinsert
    · cases hinsert
      refine .inr ?_
      show c.phase.allows .idle
      rw [hphase]
      exact .inl rfl
    · exact h.records other record hinsert
  · obtain ⟨other, record, hrec, hfail⟩ := h.victim hcase
    refine ⟨other, record, ?_, hfail⟩
    have hother : worker ≠ other := by
      rintro rfl
      change c.workers[worker]? = some record at hrec
      rw [contains_eq_isSome_getElem?, hrec] at hnew
      cases hnew
    show (c.workers.insert worker ⟨.idle, 0⟩)[other]? = some record
    rw [get?_insert_ne hother]
    exact hrec

section

variable (h : CoordinatorLaw c.lifecycle)

include h

theorem CoordinatorLaw.configured {plan : PlanDescriptor} {properties : PropertySet}
    (hworkers : ∀ worker : WorkerId, c'.workers[worker]? = c.workers[worker]?.map resetRecord)
    (hacks : ∀ worker, c.configAcks.contains worker = true → c'.configAcks.contains worker = true) :
    CoordinatorLaw { (c.beginConfiguration plan properties).lifecycle with
      workers := c'.workers
      configAcks := c'.configAcks
      pending := c'.pendingRequests } := by
  refine ⟨fun worker hworker => hacks worker (h.entry worker ?_), fun worker record hrec => ?_,
    fun _ => ⟨rfl, rfl⟩, nofun, nofun, fun hcase => hcase.elim nofun nofun, nofun,
    fun _ _ h => absurd h get?_empty_ne, fun _ _ _ h => absurd h get?_empty_ne⟩
  · change c'.workers.contains worker = true at hworker
    show c.workers.contains worker = true
    rw [contains_eq_isSome_getElem?, hworkers, Option.isSome_map] at hworker
    rw [contains_eq_isSome_getElem?]
    exact hworker
  · obtain ⟨old, -, rfl⟩ := Option.map_eq_some_iff.mp ((hworkers worker).symm.trans hrec)
    unfold resetRecord
    split_ifs with hfail
    · exact .inl hfail
    · exact .inr (.inl rfl)

theorem CoordinatorLaw.started {runId : RunId} {threadCount : ℕ}
    {mode : SampleSenderMode} {sender : SampleSender E} (hrun : runId ≠ 0)
    (hphase : c.phase = .ready) :
    CoordinatorLaw (c.beginRun runId threadCount mode sender).lifecycle := by
  refine ⟨h.entry, fun worker record hrec => ?_, fun _ => ⟨rfl, rfl⟩, nofun, nofun,
    fun hcase => hcase.elim nofun nofun, fun run hsome => ?_,
    fun _ _ h => absurd h get?_empty_ne, fun _ _ _ h => absurd h get?_empty_ne⟩
  · rcases h.records worker record hrec with hfail | hallowed
    · exact .inl hfail
    · change c.phase.allows record.phase at hallowed
      rw [hphase] at hallowed
      exact .inr (.inl hallowed)
  · cases hsome
    exact hrun

theorem CoordinatorLaw.failed
    (hdropped : Dropped worker c (.ok () c')) : CoordinatorLaw c'.lifecycle := by
  cases hdropped with
  | again _ => exact h
  | alone _ _ _ => exact (h.drop worker).recompute
  | early hphase _ _ _ =>
    obtain ⟨record, hrec, hfail⟩ := drop_victim hphase
    have hchanged : CoordinatorLaw { (c.dropWorker worker).lifecycle with phase := .failed } :=
      (h.drop worker).change (fun _ _ => id) (fun _ _ _ => .inr trivial) nofun nofun nofun
        fun _ => ⟨worker, record, hrec, hfail⟩
    exact hchanged.withPending
  | fast hphase _ hact _ hsame _ => exact h.fast hphase hact hsame

end

/-- **One call keeps the law.** -/
theorem CoordinatorLaw.step [DecidableEq E] {codec : EventCodec E} {effect : Effect E}
    (h : CoordinatorLaw c.lifecycle) (hstep : Stepped codec c effect c') :
      CoordinatorLaw c'.lifecycle := by
  cases hstep with
  | quiet hsame _ | handed hsame _ =>
    rw [hsame]
    exact h.withSender
  | added worker hphase hnew hsame =>
    rw [hsame]
    exact h.added hphase hnew
  | configured _ hsame hworkers hacks =>
    rw [hsame]
    exact h.configured hworkers hacks
  | completed worker =>
    refine CoordinatorLaw.recomputeAfter ?_
    split_ifs with hidle
    · obtain ⟨record, hrec, hphase⟩ := Option.map_eq_some_iff.mp hidle
      refine h.modify (fun _ => rfl) (.inr ?_) (healthy_phaseOf (by rw [hidle]; exact nofun))
      rcases h.records worker record hrec with hfail | hallowed
      · rw [hphase] at hfail
        cases hfail
      · rw [hphase] at hallowed
        exact allows_ready hallowed
    · exact h
  | started hrun hphase _ hsame =>
    rw [hsame]
    exact (h.started hrun hphase).withPending
  | stopped _ hmay hsame _ => exact h.stop hmay hsame
  | retried hsame _ =>
    rw [hsame]
    exact h.withPending
  | failed hdropped => exact h.failed hdropped
  | accepted hcheck _ _ _ hsame =>
    rw [hsame]
    exact (h.accept (checkSample_ok hcheck) _ _).recompute
  | early _ => exact h.withConfigEntry _
  | ackedConfigured hawaits hphase =>
    refine CoordinatorLaw.complete ?_ _
    exact (h.withConfigEntry _).noteConfigured _ hphase hawaits.healthy
  | ackedStarted hawaits hcheck =>
    refine CoordinatorLaw.complete (h.modify (fun _ => rfl) (.inr ?_)
      (healthy_phaseOf hawaits.healthy)) _
    show c.phase.allows .running
    rw [(checkStarted_ok hcheck).1]
    exact .inr rfl
  | ackedStopped hawaits _ hcheck =>
    exact CoordinatorLaw.complete (h.noteStopped (checkStopped_ok hcheck) hawaits.healthy) _

/-- **The law of the phases.**  It holds of every coordinator that calls lead to. -/
theorem CoordinatorRun.coordinatorLaw [DecidableEq E] {codec : EventCodec E}
    {profile : ProfileDescriptor}
    (h : CoordinatorRun codec (.new profile) c) : CoordinatorLaw c.lifecycle := by
  induction h with
  | refl => exact law_new profile
  | @call c' hrun call ih =>
    exact ih.step (after_stepped codec (hrun.requestLaw requestLaw_new) call)

end JmeterRs.Remote
