import JmeterRs.Remote.Requests

/-!
# What the calls of a coordinator do

One relation lists what a call can do to the coordinator: to its records of the workers, its phase,
the samples it accepted and its sender.  The laws of a run are case analyses of it.
-/

namespace JmeterRs.Remote

open Std SampleSender ExtTreeMap

variable {E : Type}

/-! ## Views -/

/-- The part of a coordinator that a run is about. -/
structure Lifecycle (E : Type) where
  workers : ExtTreeMap WorkerId WorkerRecord
  configAcks : ExtTreeMap WorkerId (List AckStage)
  phase : CoordinatorPhase
  runId : Option RunId
  stopCause : Option StopCause
  stopWatermarks : ExtTreeMap WorkerId ℕ
  accepted : ExtTreeMap SampleKey (RemoteSample E)
  pending : ExtTreeMap RequestId (PendingRequest E)
  sender : Option (SampleSender E)

def RemoteCoordinator.lifecycle (c : RemoteCoordinator E) : Lifecycle E :=
  ⟨c.workers, c.configAcks, c.phase, c.runId, c.stopCause, c.stopWatermarks, c.accepted,
    c.pendingRequests, c.sender⟩

namespace RemoteCoordinator

variable {c c' : RemoteCoordinator E}

/-! ## Loops of requests -/

/-- From the identifier on, so many are left. -/
def RoomFrom (next count : ℕ) : Prop :=
  count ≠ 0 → next ≠ 0 ∧ next + (count - 1) ≤ maxControlRequestId

variable {count : ℕ} {workers : List WorkerId} {worker : WorkerId} {runId : RunId}
  {p : WorkerRecord → Bool}

theorem RoomFrom.mono {next count' : ℕ} (h : RoomFrom next count) (hle : count' ≤ count) :
    RoomFrom next count' := by
  intro hcount
  obtain ⟨hopen, hmax⟩ := h (by omega)
  exact ⟨hopen, by omega⟩

theorem RoomFrom.first {next : ℕ} (h : RoomFrom next (count + 1)) :
    next ≠ 0 ∧ next ≤ maxControlRequestId := by
  obtain ⟨hopen, hmax⟩ := h (Nat.succ_ne_zero count)
  exact ⟨hopen, by omega⟩

theorem RoomFrom.rest {next : ℕ} (h : RoomFrom next (count + 1)) :
    RoomFrom (nextId next) count := by
  intro hcount
  obtain ⟨-, hmax⟩ := h (Nat.succ_ne_zero count)
  have hmore : next ≠ maxControlRequestId := by omega
  have hnext : nextId next = next + 1 := if_neg hmore
  rw [hnext]
  exact ⟨Nat.succ_ne_zero next, by omega⟩

/-- So many identifiers are left. -/
def Room (c : RemoteCoordinator E) (count : ℕ) : Prop := RoomFrom c.nextRequestId count

theorem controlIds_iff {u : Unit} : c.ensureControlIds count = .ok u ↔ c.Room count := by
  rw [ensureControlIds, failIf_eq_ok, not_and, not_or, not_or, Nat.not_lt, Nat.not_lt]
  constructor
  · intro h hcount
    obtain ⟨hopen, -, hmax⟩ := h hcount
    exact ⟨hopen, hmax⟩
  · intro h hcount
    obtain ⟨hopen, hmax⟩ := h hcount
    exact ⟨hopen, Nat.le_trans (Nat.le_add_right ..) hmax, hmax⟩

/-- A request that is issued while there is room leaves one identifier less, and keeps the law of
the tables. -/
theorem issue_room (hlaw : RequestLaw c.requests) (h : c.Room (count + 1)) (worker : WorkerId)
    (stage : AckStage) (message : RemoteMessage E) :
    ∃ c', issue worker stage message c = .ok ⟨c.nextRequestId, message⟩ c' ∧ c'.Room count ∧
      RequestLaw c'.requests ∧ c' = { c with
        nextRequestId := nextId c.nextRequestId
        pendingRequests :=
          c.pendingRequests.insert c.nextRequestId ⟨worker, stage, 1, message⟩ } := by
  obtain ⟨hopen, hmax⟩ := RoomFrom.first h
  unfold issue
  rcases envelope_cases message c with herr | ⟨-, -, hok⟩
  · exfalso
    unfold envelope at herr
    rw [if_neg (not_or.mpr ⟨hopen, Nat.not_lt.mpr hmax⟩)] at herr
    cases herr
  · rw [run_bind_ok hok]
    exact ⟨_, rfl, RoomFrom.rest h, hlaw.issue _ hopen hmax (Nat.le_refl 1), rfl⟩

/-- The table of requests after each of the workers was asked for a stage. -/
structure Asked (stage : AckStage) (workers : List WorkerId)
    (pending pending' : ExtTreeMap RequestId (PendingRequest E)) : Prop where
  asked : ∀ worker ∈ workers, ∃ (id : RequestId) (request : PendingRequest E),
    pending'[id]? = some request ∧ request.worker = worker ∧ request.stage = stage
  kept : ∀ (id : RequestId) (request : PendingRequest E), pending[id]? = some request →
    pending'[id]? = some request
  origin : ∀ (id : RequestId) (request : PendingRequest E), pending'[id]? = some request →
    pending[id]? = some request ∨ request.worker ∈ workers ∧ request.stage = stage

theorem Asked.nil (stage : AckStage) (pending : ExtTreeMap RequestId (PendingRequest E)) :
    Asked stage [] pending pending :=
  ⟨nofun, fun _ _ => id, fun _ _ => .inl⟩

/-- The next identifier is not pending. -/
theorem pending_next (hlaw : RequestLaw c.requests) :
    c.pendingRequests[c.nextRequestId]? = none := by
  cases hpend : c.pendingRequests[c.nextRequestId]? with
  | none => rfl
  | some request => exact absurd (hlaw.pending _ request hpend).1 not_issued_next

theorem Asked.cons {stage : AckStage} {worker : WorkerId} {workers : List WorkerId}
    {pending pending' : ExtTreeMap RequestId (PendingRequest E)} {id : RequestId}
    {request : PendingRequest E} (hnew : pending[id]? = none) (hworker : request.worker = worker)
    (hstage : request.stage = stage)
    (h : Asked stage workers (pending.insert id request) pending') :
    Asked stage (worker :: workers) pending pending' := by
  refine ⟨fun other hother => ?_, fun other old hold => ?_, fun other new hpend => ?_⟩
  · rcases List.mem_cons.mp hother with rfl | hother
    · refine ⟨id, request, h.kept id request ?_, hworker, hstage⟩
      rw [get?_insert_eq, if_pos rfl]
    · exact h.asked other hother
  · refine h.kept other old ?_
    have hne : id ≠ other := by
      rintro rfl
      rw [hnew] at hold
      cases hold
    rw [get?_insert_ne hne]
    exact hold
  · rcases h.origin other new hpend with hinsert | ⟨hmem, hstage'⟩
    · rw [get?_insert_eq] at hinsert
      split_ifs at hinsert
      · cases hinsert
        exact .inr ⟨hworker ▸ List.mem_cons_self, hstage⟩
      · exact .inl hinsert
    · exact .inr ⟨List.mem_cons_of_mem _ hmem, hstage'⟩

/-- While there is room, a loop of requests asks every worker and changes nothing else. -/
theorem issueAll_ok {stage : AckStage} {message : RemoteMessage E} {workers : List WorkerId}
    (hlaw : RequestLaw c.requests) (hroom : c.Room workers.length) :
    ∃ requests c', issueAll stage message workers c = .ok requests c' ∧
      c'.lifecycle = { c.lifecycle with pending := c'.pendingRequests } ∧
      Asked stage workers c.pendingRequests c'.pendingRequests := by
  induction workers generalizing c with
  | nil => exact ⟨[], c, rfl, rfl, .nil _ _⟩
  | cons worker rest ih =>
    obtain ⟨c₁, hissue, hroom₁, hlaw₁, hc₁⟩ := issue_room hlaw hroom worker stage message
    obtain ⟨requests, c₂, hrest, hsame, hasked⟩ := ih hlaw₁ hroom₁
    refine ⟨⟨c.nextRequestId, message⟩ :: requests, c₂, ?_, ?_, ?_⟩
    · unfold issueAll
      rw [run_bind_ok hissue, run_bind_ok hrest]
      rfl
    · rw [hsame, hc₁]
      rfl
    · rw [hc₁] at hasked
      exact .cons (pending_next hlaw) rfl rfl hasked

theorem issueFailFast_ok {workers : List WorkerId} (hlaw : RequestLaw c.requests)
    (hroom : c.Room workers.length) : ∃ c', issueFailFast runId workers c = .ok () c' ∧
      c'.lifecycle = { c.lifecycle with pending := c'.pendingRequests } ∧
      Asked .stopped workers c.pendingRequests c'.pendingRequests := by
  induction workers generalizing c with
  | nil => exact ⟨c, rfl, rfl, .nil _ _⟩
  | cons worker rest ih =>
    obtain ⟨c₁, hissue, hroom₁, hlaw₁, hc₁⟩ :=
      issue_room hlaw hroom worker .stopped (.stop runId .immediate)
    obtain ⟨c₂, hrest, hsame, hasked⟩ :=
      @ih { c₁ with controlOutbox := c₁.controlOutbox ++
        [⟨c.nextRequestId, .stop runId .immediate⟩] } hlaw₁ hroom₁
    refine ⟨c₂, ?_, ?_, ?_⟩
    · unfold issueFailFast
      rw [run_bind_ok hissue]
      exact hrest
    · rw [hsame, hc₁]
      rfl
    · rw [hc₁] at hasked
      exact .cons (pending_next hlaw) rfl rfl hasked

/-- The record of a worker that is configured again. -/
def resetRecord (record : WorkerRecord) : WorkerRecord :=
  if record.phase = .failed then record else ⟨.idle, 0⟩

theorem resetRecord_reset (record : WorkerRecord) :
    resetRecord (resetRecord record) = resetRecord record := by
  unfold resetRecord
  split_ifs <;> rfl

theorem get?_modify_eq {V : Type} (m : ExtTreeMap WorkerId V) (worker other : WorkerId)
    (f : V → V) :
    (m.modify worker f)[other]? = if worker = other then m[other]?.map f else m[other]? := by
  rw [getElem?_modify]
  by_cases h : worker = other
  · rw [if_pos h, if_pos (compare_iff.mpr h), h]
  · rw [if_neg h, if_neg (mt compare_iff.mp h)]

/-- While there is room, a configuration resets the workers that it goes to. -/
theorem workers_ok {profile : ProfileDescriptor} {plan : PlanDescriptor}
    {properties : PropertySet} {workers : List WorkerId} (hlaw : RequestLaw c.requests)
    (hroom : c.Room (workers.length * 3)) :
    ∃ requests c', configureWorkers profile plan properties workers c = .ok requests c' ∧
      c'.lifecycle = { c.lifecycle with
        workers := c'.workers
        configAcks := c'.configAcks
        pending := c'.pendingRequests } ∧
      (∀ worker, c'.workers[worker]? =
        if worker ∈ workers then c.workers[worker]?.map resetRecord else c.workers[worker]?) ∧
      ∀ worker, c'.configAcks.contains worker = true ↔
        worker ∈ workers ∨ c.configAcks.contains worker = true := by
  induction workers generalizing c with
  | nil => exact ⟨[], c, rfl, rfl, fun _ => rfl, fun _ => by simp⟩
  | cons worker rest ih =>
    rw [List.length_cons, Nat.succ_mul] at hroom
    obtain ⟨c₁, hissue₁, hroom₁, hlaw₁, hc₁⟩ :=
      issue_room hlaw hroom worker .profile (.profile profile)
    obtain ⟨c₂, hissue₂, hroom₂, hlaw₂, hc₂⟩ := issue_room hlaw₁ hroom₁ worker .plan (.plan plan)
    obtain ⟨c₃, hissue₃, hroom₃, hlaw₃, hc₃⟩ :=
      issue_room hlaw₂ hroom₂ worker .properties (.properties properties)
    obtain ⟨requests, c₄, hrest, hsame, hworkers, hacks⟩ := @ih (c₃.resetWorker worker) hlaw₃ hroom₃
    refine ⟨⟨c.nextRequestId, .profile profile⟩ :: ⟨c₁.nextRequestId, .plan plan⟩ ::
      ⟨c₂.nextRequestId, .properties properties⟩ :: requests, c₄, ?_, ?_, fun other => ?_,
      fun other => ?_⟩
    · unfold configureWorkers
      rw [run_bind_ok hissue₁, run_bind_ok hissue₂, run_bind_ok hissue₃]
      show ((do let messages ← configureWorkers profile plan properties rest; pure _) :
        Coordinating E _) (c₃.resetWorker worker) = _
      rw [run_bind_ok hrest]
      rfl
    · rw [hsame, hc₃, hc₂, hc₁]
      rfl
    · have hreset : (c₃.resetWorker worker).workers[other]? =
          if worker = other then c.workers[other]?.map resetRecord else c.workers[other]? := by
        have hold : c₃.workers = c.workers := by rw [hc₃, hc₂, hc₁]
        rw [← hold]
        exact get?_modify_eq c₃.workers worker other resetRecord
      rw [hworkers, hreset]
      by_cases hsame : worker = other
      · have hmem : other ∈ worker :: rest := hsame ▸ List.mem_cons_self
        have htwice : resetRecord ∘ resetRecord = resetRecord := funext resetRecord_reset
        rw [if_pos hsame, Option.map_map, htwice, ite_self, if_pos hmem]
      · rw [if_neg hsame]
        have hmem : other ∈ worker :: rest ↔ other ∈ rest := by
          rw [List.mem_cons]
          exact or_iff_right (Ne.symm hsame)
        simp only [hmem]
    · have hold : c₃.configAcks = c.configAcks := by rw [hc₃, hc₂, hc₁]
      rw [hacks, List.mem_cons]
      show other ∈ rest ∨ (c₃.configAcks.insert worker []).contains other = true ↔ _
      rw [hold, contains_insert, Bool.or_eq_true, beq_iff_eq, compare_iff]
      tauto

/-! ## Guards -/

theorem checkConfigure_ok {plan : PlanDescriptor} {properties : PropertySet}
    (h : c.checkConfigure plan properties = .ok workers) :
    (c.phase = .idle ∨ c.phase = .stopped) ∧ workers = c.workersWith (·.phase ≠ .failed) ∧
      c.Room (workers.length * 3) := by
  simp only [checkConfigure, bind_ok, failIf_eq_ok, need_eq_ok, exists_const, not_not] at h
  obtain ⟨_, -, _, -, _, -, hphase, -, -, -, -, count, hcount, _, hroom, h⟩ := h
  cases h
  unfold checkedMul at hcount
  split_ifs at hcount
  cases hcount
  exact ⟨hphase, rfl, controlIds_iff.mp hroom⟩

theorem senderFor_ok {mode : SampleSenderMode} {supported : mode.executionSupported = true}
    {sender : SampleSender E} (h : c.senderFor mode supported = .ok sender) :
    ∃ config, sender = .new config ∧ config.mode = mode := by
  simp only [senderFor, bind_ok, need_eq_ok] at h
  obtain ⟨config₁, hconfig₁, config₂, hconfig₂, config₃, hconfig₃, config₄, hconfig₄, h⟩ := h
  cases h
  obtain ⟨-, ⟨⟩⟩ := Option.ite_none_left_eq_some.mp hconfig₁
  obtain ⟨-, ⟨⟩⟩ := Option.ite_none_left_eq_some.mp hconfig₂
  obtain ⟨-, ⟨⟩⟩ := Option.ite_none_left_eq_some.mp hconfig₃
  unfold SenderConfig.withBatchTimeMs at hconfig₄
  split at hconfig₄
  · cases hconfig₄
    exact ⟨_, rfl, rfl⟩
  · obtain ⟨-, ⟨⟩⟩ := Option.ite_none_left_eq_some.mp hconfig₄
    exact ⟨_, rfl, rfl⟩

theorem checkStart_ok {runId : RunId} {threadCount : ℕ} {mode : SampleSenderMode}
    {sender : SampleSender E} (h : c.checkStart runId threadCount mode = .ok (workers, sender)) :
    runId ≠ 0 ∧ c.phase = .ready ∧ c.lastRunId ≠ some runId ∧
      c.consumedRunIds.contains runId = false ∧ workers = c.workersWith (·.phase = .ready) ∧
      c.Room workers.length ∧ ∃ config, sender = .new config ∧ config.mode = mode := by
  simp only [checkStart, validateRunId, bind_ok, failIf_eq_ok, exists_const, not_not,
    Bool.not_eq_true] at h
  obtain ⟨hrun, hphase, hlast, hconsumed, -, h⟩ := h
  split_ifs at h with hsupported
  simp only [bind_ok, failIf_eq_ok, exists_const] at h
  obtain ⟨-, _, hroom, made, hsender, h⟩ := h
  cases h
  exact ⟨hrun, hphase, hlast, hconsumed, rfl, controlIds_iff.mp hroom, senderFor_ok hsender⟩

/-- The stops that go out: an immediate one while the run is starting, any one while it is running
and a more severe one while it is stopping. -/
def MayStop (c : RemoteCoordinator E) (mode : StopMode) : Prop :=
  c.phase = .starting ∧ mode = .immediate ∨ c.phase = .running ∨
    c.phase = .stopping ∧ c.escalates mode = true

theorem checkStop_ok {mode : StopMode} (h : c.checkStop mode = .ok (some (runId, workers))) :
    c.runId = some runId ∧ c.MayStop mode ∧
      workers = c.workersWith (stopsWorker (c.phase = .starting)) ∧ c.Room workers.length := by
  simp only [checkStop, bind_ok, failIf_eq_ok, need_eq_ok, exists_const, not_not, not_and] at h
  obtain ⟨_, hrun, hphase, hmode, h⟩ := h
  split_ifs at h with hagain
  · cases h
  obtain ⟨_, hroom, h⟩ := bind_ok.mp h
  cases h
  rw [not_and, Bool.not_eq_false] at hagain
  refine ⟨hrun, ?_, rfl, controlIds_iff.mp hroom⟩
  rcases hphase with hstarting | hrunning | hstopping
  · exact .inl ⟨hstarting, hmode hstarting⟩
  · exact .inr (.inl hrunning)
  · exact .inr (.inr ⟨hstopping, hagain hstopping⟩)

/-! ## Acknowledgements and failures -/

/-- The request of an acknowledgement is pending, for its worker and its stage. -/
structure Awaits (c : RemoteCoordinator E) (ack : Acknowledgement) (request : PendingRequest E) :
    Prop where
  pending : c.pendingRequests[ack.requestId]? = some request
  worker : request.worker = ack.worker
  stage : request.stage = ack.stage
  healthy : c.phaseOf ack.worker ≠ some .failed
  known : c.workers.contains ack.worker = true

/-- What `apply_ack` can do. -/
inductive Answered (ack : Acknowledgement) (c : RemoteCoordinator E) :
    EStateM.Result RemoteError (RemoteCoordinator E) Unit → Prop
  | refused (e : RemoteError) : Answered ack c (.error e c)
  | repeated (hdone : c.checkRequest ack = .ok true) : Answered ack c (.ok () c)
  | early (e : RemoteError) {request : PendingRequest E} (hawaits : c.Awaits ack request)
      (hphase : c.phase = .configuring) : Answered ack c (.error e (c.withConfigEntry ack.worker))
  | configured (stages : List AckStage) {request : PendingRequest E}
      (hawaits : c.Awaits ack request) (hstage : ack.stage ≠ .started ∧ ack.stage ≠ .stopped)
      (hphase : c.phase = .configuring) :
      Answered ack c
        (.ok () (((c.withConfigEntry ack.worker).noteConfigured ack.worker stages).complete ack))
  | started {request : PendingRequest E} (hawaits : c.Awaits ack request)
      (hstage : ack.stage = .started) (hcheck : c.checkStarted ack = .ok ()) :
      Answered ack c (.ok () ((c.noteStarted ack.worker).complete ack))
  | stopped (watermark : ℕ) {request : PendingRequest E} (hawaits : c.Awaits ack request)
      (hstage : ack.stage = .stopped) (hcheck : c.checkStopped ack = .ok watermark) :
      Answered ack c (.ok () ((c.noteStopped ack.worker watermark).complete ack))

theorem applyAck_cases (ack : Acknowledgement) (c : RemoteCoordinator E) :
    Answered ack c (applyAck ack c) := by
  unfold applyAck
  refine run_check_bind (fun e _ => .refused e) fun completed hcheck => ?_
  cases completed with
  | true => exact .repeated hcheck
  | false =>
    obtain ⟨request, hpend, hworker, hstage, hwell, hknown⟩ := request_pending hcheck
    have hawaits : c.Awaits ack request := ⟨hpend, hworker, hstage, hwell, hknown⟩
    rw [if_neg Bool.false_ne_true]
    have hcases := ackStage_cases ack c
    cases hres : ackStage ack c with
    | error e c' =>
      rw [hres] at hcases
      rw [run_bind_error hres]
      cases hcases with
      | refused e => exact .refused e
      | early e hphase => exact .early e hawaits hphase
    | ok u c' =>
      rw [hres] at hcases
      rw [run_bind_ok hres]
      cases hcases with
      | configured stages hstage hphase => exact .configured stages hawaits hstage hphase
      | started hstage hcheck => exact .started hawaits hstage hcheck
      | stopped watermark hstage hcheck => exact .stopped watermark hawaits hstage hcheck

/-- A run is going on. -/
def Active (phase : CoordinatorPhase) : Prop :=
  phase = .starting ∨ phase = .running ∨ phase = .stopping

/-- The worker is recorded as failed and nothing is expected from it. -/
def dropWorker (c : RemoteCoordinator E) (worker : WorkerId) : RemoteCoordinator E :=
  (c.setWorkerPhase worker .failed).cancelPending (·.worker = worker)

/-- What `fail_worker` can do. -/
inductive Dropped (worker : WorkerId) (c : RemoteCoordinator E) :
    EStateM.Result RemoteError (RemoteCoordinator E) Unit → Prop
  | refused (e : RemoteError) : Dropped worker c (.error e c)
  | again (hfailed : c.phaseOf worker = some .failed) : Dropped worker c (.ok () c)
  | alone {phase : WorkerPhase} (hphase : c.phaseOf worker = some phase)
      (hfirst : phase ≠ .failed ∧ phase ≠ .stopped)
      (hopen : c.phase ≠ .stopped ∧ c.phase ≠ .failed) :
      Dropped worker c (.ok () (c.dropWorker worker).recomputePhase)
  | early {phase : WorkerPhase} (hphase : c.phaseOf worker = some phase)
      (hfirst : phase ≠ .failed ∧ phase ≠ .stopped)
      (hcause : c.stopCause ≠ some .failFast) (hidle : c.runId = none ∨ ¬ Active c.phase) :
      Dropped worker c
        (.ok () { (c.dropWorker worker).cancelAllPendingRequests with phase := .failed })
  | fast {phase : WorkerPhase} {asked : RemoteCoordinator E}
      (hphase : c.phaseOf worker = some phase)
      (hfirst : phase ≠ .failed ∧ phase ≠ .stopped) (hactive : Active c.phase)
      (hcause : c.stopCause ≠ some .failFast)
      (hsame : asked.lifecycle =
        { (c.dropWorker worker).cancelAllPendingRequests.lifecycle with
          stopCause := some .failFast
          phase := .stopping
          pending := asked.pendingRequests })
      (hasked : Asked .stopped ((c.dropWorker worker).workersWith (stopsWorker true))
        (c.dropWorker worker).cancelAllPendingRequests.pendingRequests asked.pendingRequests) :
      Dropped worker c (.ok () asked.endFailFast)

theorem mem_workers :
    worker ∈ c.workersWith p ↔ ∃ record, c.workers[worker]? = some record ∧ p record = true := by
  unfold workersWith
  rw [List.mem_map]
  constructor
  · rintro ⟨⟨key, record⟩, hentry, rfl⟩
    obtain ⟨hentry, hp⟩ := List.mem_filter.mp hentry
    exact ⟨record, mem_toList_iff_getElem?_eq_some.mp hentry, hp⟩
  · rintro ⟨record, hrec, hp⟩
    refine ⟨(worker, record), List.mem_filter.mpr ⟨?_, hp⟩, rfl⟩
    exact mem_toList_iff_getElem?_eq_some.mpr hrec

theorem nodup_workers : (c.workersWith p).Nodup := by
  have hsub : (c.workersWith p).Sublist (c.workers.toList.map Prod.fst) :=
    (List.filter_sublist).map Prod.fst
  refine hsub.nodup ?_
  rw [map_fst_toList_eq_keys]
  exact nodup_keys

theorem get?_setPhase (c : RemoteCoordinator E) (worker other : WorkerId)
    (phase : WorkerPhase) : (c.setWorkerPhase worker phase).workers[other]? =
      if worker = other then c.workers[other]?.map ({ · with phase }) else c.workers[other]? :=
  get?_modify_eq c.workers worker other ({ · with phase })

/-- The stops of a fast failure go to the workers that the capacity was checked for. -/
theorem stops_length_le (c : RemoteCoordinator E) (worker : WorkerId) :
    ((c.dropWorker worker).workersWith (stopsWorker true)).length ≤
      ((c.workersWith (stopsWorker true)).filter (some · ≠ some worker)).length := by
  refine (List.subperm_of_subset nodup_workers fun other hother => ?_).length_le
  obtain ⟨record, hrec, hstops⟩ := mem_workers.mp hother
  have hset : (c.setWorkerPhase worker .failed).workers[other]? = some record := hrec
  rw [get?_setPhase] at hset
  split_ifs at hset with hsame
  · obtain ⟨old, -, rfl⟩ := Option.map_eq_some_iff.mp hset
    simp [stopsWorker] at hstops
  · refine List.mem_filter.mpr ⟨mem_workers.mpr ⟨record, hset, hstops⟩, ?_⟩
    rw [decide_eq_true_eq, ne_eq, Option.some_inj]
    exact fun h => hsame h.symm

theorem fastCapacity_iff {excluding : Option WorkerId}
    (hcause : c.stopCause ≠ some .failFast) (hrun : c.runId = some runId) (hact : Active c.phase)
    (hcount : ((c.workersWith (stopsWorker true)).filter (some · ≠ excluding)).length = count) :
    c.ensureFailFastStopCapacity excluding = .ok () ↔
      c.Room count ∧ c.controlOutbox.length + count ≤ usizeMax ∧
        c.controlOutbox.length + count ≤ c.configurationLimits.maxControlEvents := by
  have hgoes : ¬ (c.stopCause = some .failFast ∨ c.runId.isNone ∨
      ¬ (c.phase = .starting ∨ c.phase = .running ∨ c.phase = .stopping)) := by
    rw [hrun, not_or, not_or, not_not]
    exact ⟨hcause, nofun, hact⟩
  unfold ensureFailFastStopCapacity
  rw [if_neg hgoes]
  simp only [hcount, bind_ok, controlIds_iff, need_eq_ok, checkedAdd_some,
    failIf_eq_ok, exists_const, Nat.not_lt]
  constructor
  · rintro ⟨hroom, _, ⟨rfl, hmax⟩, hfits⟩
    exact ⟨hroom, hmax, hfits⟩
  · rintro ⟨hroom, hmax, hfits⟩
    exact ⟨hroom, _, ⟨rfl, hmax⟩, hfits⟩

/-- In a run that is going on, the check made before a worker is dropped covers the stops that are
sent after it. -/
theorem checkFast_drop (hcap : c.ensureFailFastStopCapacity (some worker) = .ok ())
    (hcause : c.stopCause ≠ some .failFast) (hrun : c.runId = some runId) (hact : Active c.phase) :
    (c.dropWorker worker).Room ((c.dropWorker worker).workersWith (stopsWorker true)).length ∧
      (c.dropWorker worker).cancelAllPendingRequests.checkFailFast =
        .ok (runId, (c.dropWorker worker).workersWith (stopsWorker true)) := by
  have hle := stops_length_le c worker
  obtain ⟨hroom, hmax, hfits⟩ := (fastCapacity_iff hcause hrun hact rfl).mp hcap
  have hroom' : (c.dropWorker worker).Room
      ((c.dropWorker worker).workersWith (stopsWorker true)).length := RoomFrom.mono hroom hle
  have hall : ((c.dropWorker worker).workersWith (stopsWorker true)).filter (some · ≠ none) =
      (c.dropWorker worker).workersWith (stopsWorker true) := by
    simp
  have hagain : (c.dropWorker worker).cancelAllPendingRequests.ensureFailFastStopCapacity none =
      .ok () := by
    refine (fastCapacity_iff (c := (c.dropWorker worker).cancelAllPendingRequests)
      hcause hrun hact (congrArg List.length hall)).mpr ?_
    exact ⟨hroom', Nat.le_trans (Nat.add_le_add_left hle _) hmax,
      Nat.le_trans (Nat.add_le_add_left hle _) hfits⟩
  exact ⟨hroom', bind_ok.mpr ⟨(), hagain, bind_ok.mpr ⟨runId, need_eq_ok.mpr hrun,
    bind_ok.mpr ⟨(), controlIds_iff.mpr hroom', rfl⟩⟩⟩⟩

theorem checkFailure_ok {runId : Option RunId} {failed : Bool}
    (h : c.checkFailure worker runId = .ok failed) : ∃ phase, c.phaseOf worker = some phase ∧
      if failed then phase = .failed
      else (phase ≠ .failed ∧ phase ≠ .stopped) ∧ (c.phase ≠ .stopped ∧ c.phase ≠ .failed) ∧
        (c.failurePolicy = .failFast → c.ensureFailFastStopCapacity (some worker) = .ok ()) := by
  simp only [checkFailure, bind_ok, failIf_eq_ok, need_eq_ok, exists_const] at h
  obtain ⟨_, -, -, hterm, hstopped, phase, hphase, h⟩ := h
  refine ⟨phase, hphase, ?_⟩
  by_cases hfail : phase = .failed
  · rw [if_pos hfail] at h
    cases h
    exact hfail
  · rw [if_neg hfail] at h
    have hcap : failed = false ∧ (c.failurePolicy = .failFast →
        c.ensureFailFastStopCapacity (some worker) = .ok ()) := by
      by_cases hpolicy : c.failurePolicy = .failFast
      · rw [if_pos hpolicy] at h
        obtain ⟨_, hcap, h⟩ := bind_ok.mp h
        cases h
        exact ⟨rfl, fun _ => hcap⟩
      · rw [if_neg hpolicy] at h
        cases h
        exact ⟨rfl, fun h => absurd h hpolicy⟩
    obtain ⟨rfl, hcap⟩ := hcap
    refine ⟨⟨hfail, ?_⟩, ?_, hcap⟩
    · rintro rfl
      exact hstopped hphase
    · have hopen : c.workers[worker]?.any (·.phase ≠ .failed) = true := by
        obtain ⟨record, hrec, rfl⟩ := Option.map_eq_some_iff.mp hphase
        rw [hrec]
        simpa using hfail
      refine ⟨fun h => hterm ⟨.inl h, hopen⟩, fun h => hterm ⟨.inr h, hopen⟩⟩

section

variable (hlaw : RequestLaw c.requests)

include hlaw

theorem law_cancel {p : PendingRequest E → Bool} : RequestLaw (c.cancelPending p).requests :=
  hlaw.moves ((Tracked.start 1 c).cancel p).1

theorem failFast_drop {phase : WorkerPhase}
    (hphase : c.phaseOf worker = some phase) (hfirst : phase ≠ .failed ∧ phase ≠ .stopped)
    (hcause : c.stopCause ≠ some .failFast)
    (hcap : c.ensureFailFastStopCapacity (some worker) = .ok ()) :
    Dropped worker c (beginFailFastStop (c.dropWorker worker).cancelAllPendingRequests) := by
  have hdropped : RequestLaw (c.dropWorker worker).cancelAllPendingRequests.requests := by
    have hset : RequestLaw (c.setWorkerPhase worker .failed).requests := hlaw
    exact law_cancel (law_cancel hset)
  have hcause' : (c.dropWorker worker).cancelAllPendingRequests.stopCause ≠ some .failFast := hcause
  unfold beginFailFastStop
  rw [if_neg hcause']
  split_ifs with hidle
  · exact .early hphase hfirst hcause (hidle.imp_left Option.isNone_iff_eq_none.mp)
  · rw [not_or, not_not, Option.isNone_iff_eq_none] at hidle
    obtain ⟨runId, hrun⟩ := Option.ne_none_iff_exists'.mp hidle.1
    obtain ⟨hroom, hcheck⟩ := checkFast_drop hcap hcause hrun hidle.2
    rw [hcheck]
    obtain ⟨asked, hissue, hsame, hasked⟩ := @issueFailFast_ok E
      { (c.dropWorker worker).cancelAllPendingRequests with
        stopCause := some .failFast
        phase := .stopping } runId _ hdropped hroom
    dsimp only
    rw [run_bind_ok hissue]
    exact .fast hphase hfirst hidle.2 hcause hsame hasked

theorem failWorker_cases (worker : WorkerId)
    (runId : Option RunId) : Dropped worker c (failWorker worker runId c) := by
  unfold failWorker
  refine run_check_bind (fun e _ => .refused e) fun failed hcheck => ?_
  obtain ⟨phase, hphase, hcase⟩ := checkFailure_ok hcheck
  cases failed with
  | true =>
    rw [if_pos rfl] at hcase
    subst hcase
    exact .again hphase
  | false =>
    rw [if_neg Bool.false_ne_true] at hcase
    obtain ⟨hfirst, hopen, hcap⟩ := hcase
    rw [if_neg Bool.false_ne_true]
    show Dropped worker c ((if (c.dropWorker worker).failurePolicy = .failFast ∧
      (c.dropWorker worker).stopCause ≠ some .failFast then _ else _ : Coordinating E Unit)
      (c.dropWorker worker))
    by_cases hfast : (c.dropWorker worker).failurePolicy = .failFast ∧
        (c.dropWorker worker).stopCause ≠ some .failFast
    · rw [if_pos hfast]
      exact failFast_drop hlaw hphase hfirst hfast.2 (hcap hfast.1)
    · rw [if_neg hfast]
      exact .alone hphase hfirst hopen

end

end RemoteCoordinator

/-! ## Calls -/

/-- What a call does to the samples of a run and to its stop. -/
inductive Effect (E : Type)
  | quiet
  | began
  | accepted (sample : RemoteSample E)
  | handed (samples : List (RemoteSample E))
  | stopAcked (worker : WorkerId) (watermark : ℕ)

section

/-- The result of a call. -/
abbrev CoordinatorResult (E : Type) :=
  EStateM.Result RemoteError (RemoteCoordinator E) (CoordinatorReply E)

def begunBy : CoordinatorResult E → Effect E
  | .ok _ _ => .began
  | .error _ _ => .quiet

def takenBy (sample : RemoteSample E) : CoordinatorResult E → Effect E
  | .ok (.outcome (some (.accepted _))) _ => .accepted sample
  | _ => .quiet

def handedBy : CoordinatorResult E → Effect E
  | .ok (.samples samples) _ => .handed samples
  | _ => .quiet

def ackedBy (worker : WorkerId) (watermark : ℕ) : CoordinatorResult E → Effect E
  | .ok _ _ => .stopAcked worker watermark
  | .error _ _ => .quiet

/-- The effect of a message: a sample that is accepted, or a stop acknowledgement of a request that
was pending. -/
def RemoteMessage.effect (c : RemoteCoordinator E) (requestId : RequestId)
    (result : CoordinatorResult E) : RemoteMessage E → Effect E
  | .sample taken => takenBy taken result
  | .ack worker .stopped _ _ (some watermark) =>
    if c.pendingRequests.contains requestId then ackedBy worker watermark result else .quiet
  | _ => .quiet

def CoordinatorCall.effect [DecidableEq E] (codec : EventCodec E) (call : CoordinatorCall E)
    (c : RemoteCoordinator E) : Effect E :=
  match call with
  | .configure _ _ | .start _ _ _ => begunBy (call.perform codec c)
  | .recordSample sample => takenBy sample (call.perform codec c)
  | .apply message => message.message.effect c message.requestId (call.perform codec c)
  | .drainDeliveredSamples | .advanceTime _ => handedBy (call.perform codec c)
  | _ => .quiet

end

namespace RemoteCoordinator

/-- **What a call can do.** -/
inductive Stepped [DecidableEq E] (codec : EventCodec E) (c : RemoteCoordinator E) :
    Effect E → RemoteCoordinator E → Prop
  | quiet {c' : RemoteCoordinator E}
      (hsame : c'.lifecycle = { c.lifecycle with sender := c'.sender })
      (hsender : Option.Rel SampleSender.Rebound c.sender c'.sender) :
      Stepped codec c .quiet c'
  | handed {c' : RemoteCoordinator E} {samples : List (RemoteSample E)}
      (hsame : c'.lifecycle = { c.lifecycle with sender := c'.sender })
      (hsender : c.sender = none ∧ c'.sender = none ∧ samples = [] ∨
        ∃ sender sender', c.sender = some sender ∧ c'.sender = some sender' ∧
          sender.Handed samples sender') : Stepped codec c (.handed samples) c'
  | added (worker : WorkerId) {c' : RemoteCoordinator E} (hphase : c.phase = .idle)
      (hnew : c.workers.contains worker = false)
      (hsame : c'.lifecycle = { c.lifecycle with
        workers := c.workers.insert worker ⟨.idle, 0⟩
        configAcks := c.configAcks.insert worker [] }) : Stepped codec c .quiet c'
  | configured {plan : PlanDescriptor} {properties : PropertySet} {c' : RemoteCoordinator E}
      (hphase : c.phase = .idle ∨ c.phase = .stopped)
      (hsame : c'.lifecycle = { (c.beginConfiguration plan properties).lifecycle with
        workers := c'.workers
        configAcks := c'.configAcks
        pending := c'.pendingRequests })
      (hworkers : ∀ worker : WorkerId, c'.workers[worker]? = c.workers[worker]?.map resetRecord)
      (hacks : ∀ worker, c.configAcks.contains worker = true →
        c'.configAcks.contains worker = true) : Stepped codec c .began c'
  | completed (worker : WorkerId) :
      Stepped codec c .quiet (recomputePhaseAfterConfiguration
        (if c.phaseOf worker = some .idle then c.setWorkerPhase worker .ready else c))
  | started {runId : RunId} {threadCount : ℕ} {mode : SampleSenderMode} {config : SenderConfig}
      {c' : RemoteCoordinator E} (hrun : runId ≠ 0) (hphase : c.phase = .ready)
      (hmode : config.mode = mode)
      (hsame : c'.lifecycle =
        { (c.beginRun runId threadCount mode (.new config)).lifecycle with
          pending := c'.pendingRequests }) : Stepped codec c .began c'
  | stopped {mode : StopMode} {runId : RunId} {asked : RemoteCoordinator E}
      (hrun : c.runId = some runId) (hmay : c.MayStop mode)
      (hsame : asked.lifecycle =
        { (c.beginStop mode).lifecycle with pending := asked.pendingRequests })
      (hasked : Asked .stopped (c.workersWith (stopsWorker (c.phase = .starting)))
        (c.beginStop mode).pendingRequests asked.pendingRequests) :
      Stepped codec c .quiet asked.recomputePhase
  | retried {c' : RemoteCoordinator E}
      (hsame : c'.lifecycle = { c.lifecycle with pending := c'.pendingRequests })
      (hkept : ∀ (id : RequestId) (request : PendingRequest E),
        c.pendingRequests[id]? = some request →
          ∃ (id' : RequestId) (request' : PendingRequest E),
            c'.pendingRequests[id']? = some request' ∧ request'.worker = request.worker ∧
              request'.stage = request.stage) : Stepped codec c .quiet c'
  | failed {worker : WorkerId} {c' : RemoteCoordinator E}
    (hdropped : Dropped worker c (.ok () c')) :
      Stepped codec c .quiet c'
  | accepted {sample : RemoteSample E} {outcome : SendOutcome} {budget : Budget E}
      {sender : SampleSender E} {c' : RemoteCoordinator E}
      (hcheck : c.checkSample sample = .ok ()) (hnew : c.accepted[sample.key]? = none)
      (hbudget : c.checkBudget codec sample = .ok budget)
      (hsend : sendWithin codec sample budget.sender budget.senderLimit = .ok (outcome, sender))
      (hsame : c'.lifecycle =
        (c.acceptSample sample budget sender).recomputePhase.lifecycle) :
      Stepped codec c (.accepted sample) c'
  | early {ack : Acknowledgement} {request : PendingRequest E} (hawaits : c.Awaits ack request) :
      Stepped codec c .quiet (c.withConfigEntry ack.worker)
  | ackedConfigured {ack : Acknowledgement} {request : PendingRequest E} {stages : List AckStage}
      (hawaits : c.Awaits ack request) (hphase : c.phase = .configuring) :
      Stepped codec c .quiet
        (((c.withConfigEntry ack.worker).noteConfigured ack.worker stages).complete ack)
  | ackedStarted {ack : Acknowledgement} {request : PendingRequest E}
      (hawaits : c.Awaits ack request) (hcheck : c.checkStarted ack = .ok ()) :
      Stepped codec c .quiet ((c.noteStarted ack.worker).complete ack)
  | ackedStopped {ack : Acknowledgement} {request : PendingRequest E} {watermark : ℕ}
      (hawaits : c.Awaits ack request) (hstage : ack.stage = .stopped)
      (hcheck : c.checkStopped ack = .ok watermark) :
      Stepped codec c (.stopAcked ack.worker watermark)
        ((c.noteStopped ack.worker watermark).complete ack)

/-- The state in which a computation ends. -/
def final {α : Type} : EStateM.Result RemoteError (RemoteCoordinator E) α → RemoteCoordinator E
  | .ok _ c => c
  | .error _ c => c

section

variable [DecidableEq E] (codec : EventCodec E) {c : RemoteCoordinator E}
  {sender : Option (SampleSender E)}

omit [DecidableEq E] in
theorem rebound_self : Option.Rel SampleSender.Rebound sender sender := by
  cases sender with
  | none => exact .none
  | some sender => exact .some (.refl sender)

theorem stepped_refl (c : RemoteCoordinator E) : Stepped codec c .quiet c :=
  .quiet rfl rebound_self

theorem stepped_same (s : RemoteCoordinator E) (h : s = c) : Stepped codec c .quiet s := by
  subst h
  exact stepped_refl codec s

/-- A setter leaves the run as it is. -/
theorem stepped_setter {α : Type} {f : RemoteCoordinator E → Except RemoteError α}
    {g : α → RemoteCoordinator E → RemoteCoordinator E}
    (hg : ∀ a, f c = .ok a → Stepped codec c .quiet (g a c)) :
    Stepped codec c .quiet (final ((do (do let a ← check f; modify (g a)); return .done :
      Coordinating E (CoordinatorReply E)) c)) := by
  cases hcheck : f c with
  | error e =>
    rw [run_bind_error (run_bind_error (check_error hcheck))]
    exact stepped_refl codec c
  | ok a =>
    have hset : (do let a ← check f; modify (g a) : Coordinating E Unit) c = .ok () (g a c) := by
      rw [run_bind_ok (check_ok hcheck)]
      rfl
    rw [run_bind_ok hset]
    exact hg a hcheck

omit [DecidableEq E] in
/-- A setter that bounds the sender. -/
theorem boundSender_rel {f : SampleSender E → Except RemoteError (SampleSender E)}
    (hf : ∀ s s', f s = .ok s' → s.Rebound s') (h : boundSender c.sender f = .ok sender) :
    Option.Rel SampleSender.Rebound c.sender sender := by
  cases hsender : c.sender with
  | none =>
    rw [hsender] at h
    cases h
    exact .none
  | some s =>
    rw [hsender] at h
    change some <$> f s = .ok sender at h
    cases hbound : f s with
    | error e =>
      rw [hbound] at h
      cases h
    | ok s' =>
      rw [hbound] at h
      cases h
      exact .some (hf s s' hbound)

section

variable (hlaw : RequestLaw c.requests)

include hlaw

theorem configure_stepped (plan : PlanDescriptor) (properties : PropertySet) :
    Triple (· = c) (configure plan properties) (fun _ => Stepped codec c .began)
      (fun _ => Stepped codec c .quiet) := by
  refine .bind (.check fun _ => stepped_same codec) fun workers => ?_
  rintro s ⟨rfl, hcheck⟩
  obtain ⟨hphase, hwell, hroom⟩ := checkConfigure_ok hcheck
  have hbegun : RequestLaw (s.beginConfiguration plan properties).requests := by
    have hstart : Moves 1 s.requests [] s.requests := .refl
    exact hlaw.moves (.withdraw hstart rfl (fun id request h =>
      absurd h get?_empty_ne) (fun _ => .inl) fun _ _ => id)
  obtain ⟨requests, c', hconfigure, hsame, hworkers, hacks⟩ :=
    @workers_ok E (s.beginConfiguration plan properties) s.profile plan properties
      workers hbegun hroom
  have hrun : (do
      modify (beginConfiguration · plan properties)
      let c ← get
      configureWorkers c.profile plan properties workers :
      Coordinating E (List (RemoteEnvelope E))) s = .ok requests c' := hconfigure
  rw [hrun]
  refine .configured hphase hsame (fun worker => ?_)
    fun worker hworker => (hacks worker).mpr (.inr hworker)
  rw [hworkers]
  show (if worker ∈ workers then s.workers[worker]?.map resetRecord else s.workers[worker]?) = _
  split_ifs with hmem
  · rfl
  · -- A worker that is not configured has failed, or it is not known.
    cases hrec : s.workers[worker]? with
    | none => rfl
    | some record =>
      rw [hwell, mem_workers] at hmem
      have hfail : record.phase = .failed := by
        by_contra hother
        exact hmem ⟨record, hrec, decide_eq_true hother⟩
      rw [Option.map_some, resetRecord, if_pos hfail]

theorem start_stepped (runId : RunId) (threadCount : ℕ) (mode : SampleSenderMode) :
    Triple (· = c) (start runId threadCount mode) (fun _ => Stepped codec c .began)
      (fun _ => Stepped codec c .quiet) := by
  refine .bind (.check fun _ => stepped_same codec) fun (workers, sender) => ?_
  rintro s ⟨rfl, hcheck⟩
  obtain ⟨hrun, hphase, -, -, -, hroom, config, rfl, hmode⟩ := checkStart_ok hcheck
  obtain ⟨requests, c', hissue, hsame, -⟩ := @issueAll_ok E
    (s.beginRun runId threadCount mode (.new config)) .started (.start runId threadCount mode)
    workers hlaw hroom
  have hrest : (do
      modify (beginRun · runId threadCount mode (.new config))
      issueAll .started (.start runId threadCount mode) workers :
      Coordinating E (List (RemoteEnvelope E))) s = .ok requests c' := hissue
  dsimp only
  rw [hrest]
  exact .started hrun hphase hmode hsame

theorem stop_stepped (mode : StopMode) :
    Triple (· = c) (stop mode) (fun _ => Stepped codec c .quiet)
      (fun _ => Stepped codec c .quiet) := by
  refine .bind (.check fun _ => stepped_same codec) fun plan => ?_
  rintro s ⟨rfl, hcheck⟩
  rcases plan with _ | ⟨runId, workers⟩
  · exact stepped_refl codec s
  · obtain ⟨hrun, hmay, rfl, hroom⟩ := checkStop_ok hcheck
    have hbegun : RequestLaw (s.beginStop mode).requests :=
      hlaw.moves ((Tracked.start 1 s).cancelForStop mode).1
    have hroom' : (s.beginStop mode).Room
        (s.workersWith (stopsWorker (s.phase = .starting))).length := by
      show RoomFrom (s.cancelForStop mode).nextRequestId _
      unfold cancelForStop
      split_ifs <;> exact hroom
    obtain ⟨requests, asked, hissue, hsame, hasked⟩ := @issueAll_ok E (s.beginStop mode) .stopped
      (.stop runId mode) _ hbegun hroom'
    have hrest : (do
        modify (beginStop · mode)
        let messages ← issueAll .stopped (.stop runId mode)
          (s.workersWith (stopsWorker (s.phase = .starting)))
        modify recomputePhase
        return messages : Coordinating E (List (RemoteEnvelope E))) s =
        .ok requests asked.recomputePhase := by
      show (do
        let messages ← issueAll .stopped (.stop runId mode) _
        modify recomputePhase
        return messages : Coordinating E (List (RemoteEnvelope E))) (s.beginStop mode) = _
      rw [run_bind_ok hissue]
      rfl
    dsimp only
    rw [hrest]
    exact .stopped hrun hmay hsame hasked

theorem retry_stepped (requestId : RequestId) :
    Triple (· = c) (retryRequest requestId) (fun _ => Stepped codec c .quiet)
      (fun _ => Stepped codec c .quiet) := by
  rintro s rfl
  unfold retryRequest
  cases hpend : s.pendingRequests[requestId]? with
  | none => exact stepped_refl codec s
  | some pending =>
    dsimp only
    split_ifs with hattempt
    · exact stepped_refl codec s
    · rcases envelope_cases pending.message
        { s with pendingRequests := s.pendingRequests.erase requestId } with
        herr | ⟨hopen, hmax, hok⟩
      · rw [herr]
        refine .retried rfl fun id request hreq => ⟨id, request, ?_, rfl, rfl⟩
        show ((s.pendingRequests.erase requestId).insert requestId pending)[id]? = some request
        rw [get?_insert_eq]
        split_ifs with hsame
        · rw [← hpend, hsame]
          exact hreq
        · rw [get?_erase_ne hsame]
          exact hreq
      · rw [hok]
        refine .retried rfl fun id request hreq => ?_
        -- The request is under the new identifier; the others stay where they are.
        by_cases hsame : requestId = id
        · rw [← hsame, hpend] at hreq
          cases hreq
          exact ⟨s.nextRequestId, _, getElem?_insert_self, rfl, rfl⟩
        · have hnext : s.nextRequestId ≠ id := by
            rintro rfl
            rw [pending_next hlaw] at hreq
            cases hreq
          refine ⟨id, request, ?_, rfl, rfl⟩
          show ((s.pendingRequests.erase requestId).insert s.nextRequestId _)[id]? = some request
          rw [get?_insert_ne hnext, get?_erase_ne hsame]
          exact hreq

theorem fail_stepped (worker : WorkerId) (runId : Option RunId) :
    Triple (· = c) (failWorker worker runId) (fun _ => Stepped codec c .quiet)
      (fun _ => Stepped codec c .quiet) := by
  rintro s rfl
  have hcases := failWorker_cases hlaw worker runId
  generalize failWorker worker runId s = result at hcases ⊢
  cases result with
  | ok u s' => exact .failed hcases
  | error e s' =>
    cases hcases
    exact stepped_refl codec s

end

variable {sample : RemoteSample E} {ack : Acknowledgement} {e : RemoteError}
  {c' : RemoteCoordinator E}

/-- A sender that refuses a sample keeps what it has. -/
theorem sendWithin_rebound {sender sender' : SampleSender E} {senderLimit : ℕ}
    (h : sendWithin codec sample sender senderLimit = .error (e, sender')) :
    sender.Rebound sender' := by
  unfold sendWithin at h
  split at h
  · cases h
    exact .refl sender
  · next bounded hbound =>
    have hrebound := setMaxRetainedBytes_rebound hbound
    split at h
    · cases h
    · split at h
      · next restored hrestore =>
        cases h
        exact hrebound.trans (setMaxRetainedBytes_rebound hrestore)
      · cases h
        exact hrebound

omit [DecidableEq E] in
theorem checkBudget_sender {budget : Budget E} (h : c.checkBudget codec sample = .ok budget) :
    c.sender = some budget.sender := by
  simp only [checkBudget, bind_ok, failIf_eq_ok, need_eq_ok, exists_const] at h
  obtain ⟨-, _, -, _, -, _, -, -, sender, hsender, -, h⟩ := h
  cases h
  exact hsender

/-- The effect of an attempt to record a sample. -/
def Recording (codec : EventCodec E) (sample : RemoteSample E) (c : RemoteCoordinator E) :
    RecordOutcome → RemoteCoordinator E → Prop
  | .accepted _ => Stepped codec c (.accepted sample)
  | .duplicate => (· = c)

theorem record_stepped (sample : RemoteSample E) :
    Triple (· = c) (recordSample codec sample) (Recording codec sample c)
      (fun _ => Stepped codec c .quiet) := by
  rintro s rfl
  have hcases := recordSample_cases codec sample s
  generalize recordSample codec sample s = result at hcases ⊢
  cases hcases with
  | refused e => exact stepped_refl codec s
  | duplicate _ _ => rfl
  | unsent e hbudget hsend =>
    refine .quiet rfl ?_
    rw [checkBudget_sender codec hbudget]
    exact .some (sendWithin_rebound codec hsend)
  | accepted outcome hcheck hnew hbudget hsend => exact .accepted hcheck hnew hbudget hsend rfl

/-- What has been recorded of a sample, if anything. -/
def outcomeEffect (sample : RemoteSample E) : Option RecordOutcome → Effect E
  | some (.accepted _) => .accepted sample
  | _ => .quiet

/-- The identifier of a sample is remembered; its effect is that of recording the sample. -/
theorem Recording.remember {outcome : RecordOutcome} (h : Recording codec sample c outcome c')
    (requestId : RequestId) :
    Stepped codec c (outcomeEffect sample (some outcome)) (trimSampleRequestHistory
      { c' with sampleRequests := c'.sampleRequests.insert requestId sample.key }) := by
  cases outcome with
  | accepted outcome =>
    cases h with
    | accepted hcheck hnew hbudget hsend hsame => exact .accepted hcheck hnew hbudget hsend hsame
  | duplicate =>
    cases h
    exact .quiet rfl rebound_self

theorem sample_stepped (requestId : RequestId) (sample : RemoteSample E) :
    Triple (· = c) (applySample codec requestId sample)
      (fun outcome => Stepped codec c (outcomeEffect sample outcome))
      (fun _ => Stepped codec c .quiet) :=
  .bind (.guard fun _ => stepped_same codec) fun _ => .bind (record_stepped codec sample)
    fun _ => .bind (.modify fun _ h => h.remember codec requestId) fun _ => .pure fun _ => id

/-- The effect of an acknowledgement that was applied. -/
def ackEffect (c : RemoteCoordinator E) (ack : Acknowledgement) : Effect E :=
  match ack.stage, ack.watermark with
  | .stopped, some watermark =>
    if c.pendingRequests.contains ack.requestId then .stopAcked ack.worker watermark else .quiet
  | _, _ => .quiet

omit [DecidableEq E] in
theorem stopped_watermark {watermark : ℕ} (h : c.checkStopped ack = .ok watermark) :
    ack.watermark = some watermark := by
  simp only [checkStopped, bind_ok, failIf_eq_ok, need_eq_ok, exists_const] at h
  obtain ⟨_, -, -, value, hvalue, -, -, -, h⟩ := h
  cases h
  exact hvalue

omit [DecidableEq E] in
/-- A request that is completed is not pending. -/
theorem request_repeated (hlaw : RequestLaw c.requests) (h : c.checkRequest ack = .ok true) :
    c.pendingRequests.contains ack.requestId = false := by
  unfold checkRequest at h
  rw [ite_error_ok, ite_error_ok] at h
  obtain ⟨-, -, h⟩ := h
  split at h
  · rename_i completed hcompleted
    have hnone := (hlaw.completed _ completed hcompleted).2.1
    rw [contains_eq_isSome_getElem?]
    show (c.requests.pending[ack.requestId]?).isSome = false
    rw [hnone]
    rfl
  · split at h
    · cases h
    · rw [ite_error_ok, ite_error_ok] at h
      cases h.2.2

theorem applyAck_stepped (hlaw : RequestLaw c.requests) (ack : Acknowledgement) :
    Triple (· = c) (applyAck ack) (fun _ => Stepped codec c (ackEffect c ack))
      (fun _ => Stepped codec c .quiet) := by
  rintro s rfl
  have hother : ack.stage ≠ .stopped → ackEffect s ack = .quiet := by
    intro hstage
    unfold ackEffect
    split
    · rename_i heq _
      exact absurd heq hstage
    · rfl
  have hcases := applyAck_cases ack s
  generalize applyAck ack s = result at hcases ⊢
  cases hcases with
  | refused e => exact stepped_refl codec s
  | repeated hdone =>
    have hquiet : ackEffect s ack = .quiet := by
      unfold ackEffect
      split
      · rw [request_repeated hlaw hdone, if_neg Bool.false_ne_true]
      · rfl
    show Stepped codec s (ackEffect s ack) s
    rw [hquiet]
    exact stepped_refl codec s
  | early e hawaits _ => exact .early hawaits
  | configured stages hawaits hstage hphase =>
    show Stepped codec s (ackEffect s ack) _
    rw [hother hstage.2]
    exact .ackedConfigured hawaits hphase
  | started hawaits hstage hcheck =>
    show Stepped codec s (ackEffect s ack) _
    rw [hother (by rw [hstage]; exact nofun)]
    exact .ackedStarted hawaits hcheck
  | stopped watermark hawaits hstage hcheck =>
    have heffect : ackEffect s ack = .stopAcked ack.worker watermark := by
      unfold ackEffect
      rw [hstage, stopped_watermark hcheck]
      dsimp only
      rw [if_pos]
      rw [contains_eq_isSome_getElem?, hawaits.pending]
      rfl
    show Stepped codec s (ackEffect s ack) _
    rw [heffect]
    exact .ackedStopped hawaits hstage hcheck

theorem stepped_reply {α : Type} {m : Coordinating E α} {effect : Effect E}
    (hm : Triple (· = c) m (fun _ => Stepped codec c effect) (fun _ => Stepped codec c effect))
    (reply : α → CoordinatorReply E) : Stepped codec c effect
      (final ((do return reply (← m) : Coordinating E (CoordinatorReply E)) c)) :=
  hm.result (R := fun result => Stepped codec c effect (final result)) rfl (fun _ _ => id)
    fun _ _ => id

/-- A call that begins something if it succeeds. -/
theorem stepped_began {α : Type} {m : Coordinating E α}
    (hm : Triple (· = c) m (fun _ => Stepped codec c .began) (fun _ => Stepped codec c .quiet))
    (reply : α → CoordinatorReply E) :
    let result := (do return reply (← m) : Coordinating E (CoordinatorReply E)) c
    Stepped codec c (begunBy result) (final result) :=
  hm.result (R := fun result => Stepped codec c (begunBy result) (final result)) rfl
    (fun _ _ => id) fun _ _ => id

omit [DecidableEq E] in
theorem effect_error (message : RemoteMessage E) (requestId : RequestId) :
    message.effect c requestId (.error e c') = .quiet := by
  unfold RemoteMessage.effect
  split
  · rfl
  · exact ite_self _
  · rfl

theorem handle_stepped (hlaw : RequestLaw c.requests) (requestId : RequestId)
    (message : RemoteMessage E) : Triple (· = c) (handle codec requestId message)
      (fun outcome c' => Stepped codec c
        (message.effect c requestId (.ok (.outcome outcome) c')) c')
      (fun _ => Stepped codec c .quiet) := by
  cases message with
  | sample sample =>
    refine (sample_stepped codec requestId sample).weaken (fun _ => id)
      (fun outcome c' hrun => ?_) fun _ _ => id
    rcases outcome with _ | ⟨outcome | _⟩ <;> exact hrun
  | ack worker stage runId threadCount watermark =>
    refine .bind (applyAck_stepped codec hlaw
      ⟨requestId, worker, stage, runId, threadCount, watermark⟩) fun _ => .pure fun c' hrun => ?_
    cases stage <;> cases watermark <;> exact hrun
  | failure worker runId error =>
    exact .bind (fail_stepped codec hlaw worker runId) fun _ => .pure fun _ => id
  | _ => exact .throw (stepped_same codec)

theorem drain_stepped (c : RemoteCoordinator E) :
    Stepped codec c (.handed c.drainDeliveredSamples.1) c.drainDeliveredSamples.2 := by
  unfold drainDeliveredSamples
  cases hsender : c.sender with
  | none =>
    refine .handed ?_ (.inl ⟨hsender, hsender, rfl⟩)
    rfl
  | some sender =>
    exact .handed rfl (.inr ⟨sender, _, hsender, rfl, ⟨rfl, rfl, rfl, rfl, id, fun _ => rfl⟩⟩)

theorem time_stepped (nowMs : ℕ) :
    Triple (· = c) (advanceTime nowMs) (fun samples => Stepped codec c (.handed samples))
      (fun _ => Stepped codec c .quiet) := by
  rintro s rfl
  rcases time_cases nowMs s with
    ⟨e, herr⟩ | ⟨sender, samples, sender', hsender, hadvance, hok⟩
  · rw [herr]
    exact stepped_refl codec s
  · rw [hok]
    exact .handed rfl (.inr ⟨sender, sender', hsender, rfl, (time_handed hadvance).1⟩)

theorem after_eq_final (call : CoordinatorCall E) :
    call.after codec c = final (call.perform codec c) := by
  unfold CoordinatorCall.after
  cases call.perform codec c <;> rfl

/-- **Inversion of the calls.** -/
theorem after_stepped (hlaw : RequestLaw c.requests) (call : CoordinatorCall E) :
    Stepped codec c (call.effect codec c) (call.after codec c) := by
  rw [after_eq_final]
  cases call with
  | setFailurePolicy policy | setRetryPolicy policy | drainControlMessages =>
    exact .quiet rfl rebound_self
  | setConfigurationLimits limits | setCodecLimits limits =>
    refine stepped_setter codec ?_
    exact fun _ _ => .quiet rfl rebound_self
  | setMaxSamples maximum =>
    refine stepped_setter codec ?_
    intro sender hcheck
    refine .quiet rfl ?_
    simp only [bind_ok, failIf_eq_ok, exists_const] at hcheck
    exact boundSender_rel (fun _ _ => maxSamples_rebound) hcheck.2.2.2
  | setMaxRetainedBytes maximum =>
    refine stepped_setter codec ?_
    intro sender hcheck
    refine .quiet rfl ?_
    obtain ⟨_, -, hcheck⟩ := bind_ok.mp hcheck
    obtain ⟨_, -, hcheck⟩ := bind_ok.mp hcheck
    refine boundSender_rel (fun s s' hbound => ?_) hcheck
    split_ifs at hbound
    · cases hbound
      exact .refl _
    · exact setMaxRetainedBytes_rebound hbound
  | setBatchTimeMs threshold =>
    refine stepped_reply codec (fun s hs => ?_) fun _ => .done
    subst hs
    unfold setBatchTimeMs
    split_ifs <;> exact .quiet rfl rebound_self
  | addWorker worker =>
    refine stepped_setter codec ?_
    intro _ hcheck
    simp only [bind_ok, failIf_eq_ok, exists_const, not_not, Bool.not_eq_true] at hcheck
    exact .added worker hcheck.1 hcheck.2.1 rfl
  | configure plan properties =>
    exact stepped_began codec (configure_stepped codec hlaw plan properties) .envelopes
  | configurationComplete worker =>
    refine stepped_setter codec ?_
    exact fun _ _ => .completed worker
  | start runId threadCount mode =>
    exact stepped_began codec (start_stepped codec hlaw runId threadCount mode) .envelopes
  | stop mode => exact stepped_reply codec (stop_stepped codec hlaw mode) .envelopes
  | retryRequest requestId =>
    exact stepped_reply codec (retry_stepped codec hlaw requestId) fun request =>
      .envelopes [request]
  | workerFailed worker =>
    refine stepped_reply codec (fun s hs => ?_) fun _ => .done
    exact fail_stepped codec hlaw worker s.runId s hs
  | workerFailedForRun worker runId =>
    exact stepped_reply codec (fail_stepped codec hlaw worker (some runId)) fun _ => .done
  | recordSample sample =>
    refine (record_stepped codec sample).result (R := fun result =>
      Stepped codec c (takenBy sample result) (final result)) rfl (fun outcome c' hrun => ?_)
      fun _ _ => id
    cases outcome with
    | accepted outcome => exact hrun
    | duplicate =>
      cases hrun
      exact stepped_refl codec c
  | apply message =>
    refine Triple.result (R := fun result => Stepped codec c
      (message.message.effect c message.requestId result) (final result))
      (.ite (fun _ => .throw (stepped_same codec)) fun _ =>
        handle_stepped codec hlaw message.requestId message.message) rfl (fun _ _ => id)
      fun e c' hrun => ?_
    rw [effect_error]
    exact hrun
  | drainDeliveredSamples => exact drain_stepped codec c
  | advanceTime nowMs =>
    exact (time_stepped codec nowMs).result (R := fun result =>
      Stepped codec c (handedBy result) (final result)) rfl (fun _ _ => id) fun _ _ => id

end

end RemoteCoordinator

end JmeterRs.Remote
