import JmeterRs.Remote.Emission
import JmeterRs.Remote.Phases

/-!
# The samples of a run

While a run is active its sender is open and has seen exactly the samples that the coordinator has
accepted.  So whether a sample of a worker that runs is accepted depends on the bounds and on the
phase of the coordinator alone.
-/

namespace JmeterRs.Remote

open Std RemoteCoordinator SampleSender

variable {E : Type} {l : Lifecycle E} {c c' : RemoteCoordinator E}

/-! ## The sender of an active run -/

/-- The sender of a run that has accepted the samples. -/
structure OpenSender (accepted : ExtTreeMap SampleKey (RemoteSample E)) (sender : SampleSender E) :
    Prop where
  opened : sender.closed = false
  seen : sender.seen = accepted
  straight : sender.Straight
  hold : sender.config.mode = .hold → ∀ key : SampleKey, accepted[key]?.isSome = true →
    key ∈ sender.pending.map RemoteSample.key

/-- An active run has an open sender. -/
def SenderLaw (l : Lifecycle E) : Prop :=
  Active l.phase → ∃ sender, l.sender = some sender ∧ OpenSender l.accepted sender

theorem OpenSender.new (config : SenderConfig) : OpenSender (E := E) ∅ (.new config) := by
  refine ⟨rfl, rfl, fun _ => rfl, fun _ key hkey => ?_⟩
  rw [ExtTreeMap.getElem?_empty] at hkey
  cases hkey

variable {sender sender' : SampleSender E} {accepted : ExtTreeMap SampleKey (RemoteSample E)}
  {codec : EventCodec E} {sample : RemoteSample E}

theorem SampleSender.Rebound.straight (h : sender.Rebound sender') (hstraight : sender.Straight) :
    sender'.Straight := by
  intro himmediate
  rw [h.pending]
  refine hstraight ?_
  unfold immediate at himmediate ⊢
  rw [h.mode] at himmediate
  exact himmediate

theorem OpenSender.rebound (h : OpenSender accepted sender) (hrebound : sender.Rebound sender') :
    OpenSender accepted sender' := by
  refine ⟨hrebound.closed.trans h.opened, hrebound.seen.trans h.seen,
    hrebound.straight h.straight, fun hmode key hkey => ?_⟩
  rw [hrebound.pending]
  exact h.hold (hrebound.mode.symm.trans hmode) key hkey

theorem OpenSender.handed {samples : List (RemoteSample E)} (h : OpenSender accepted sender)
    (hhanded : sender.Handed samples sender') : OpenSender accepted sender' := by
  refine ⟨hhanded.closed.trans h.opened, hhanded.seen.trans h.seen, hhanded.straight h.straight,
    fun hmode key hkey => ?_⟩
  rw [hhanded.config] at hmode
  rw [hhanded.hold hmode]
  exact h.hold hmode key hkey

theorem SampleSender.send_hold [DecidableEq E] {outcome : SendOutcome}
    (h : sender.send codec sample = .ok (outcome, sender')) (hnew : sender.seen[sample.key]? = none)
    (hmode : sender.config.mode = .hold) :
    ∃ queued, queued.key = sample.key ∧ sender'.pending = sender.pending ++ [queued] := by
  unfold send at h
  rw [ite_error_ok] at h
  obtain ⟨-, h⟩ := h
  simp only [hnew] at h
  obtain ⟨⟨queued, size, retained⟩, hvet, h⟩ := bind_ok.mp h
  have himmediate : sender.immediate = false := by
    unfold immediate
    rw [hmode]
  refine ⟨queued, (vet_key hvet).1, ?_⟩
  rw [himmediate, if_neg Bool.false_ne_true] at h
  obtain ⟨bytes, -, h⟩ := bind_ok.mp h
  have hfields := timer_fields
    { sender with
      seen := sender.seen.insert sample.key sample
      retainedBytes := retained
      pendingBytes := bytes
      pending := sender.pending ++ [queued] }
  generalize startBatchTimerIfNeeded _ = middle at h hfields
  obtain ⟨-, hpend, -, hconfig, -⟩ := hfields
  have hdue : (middle.batchCountDue || middle.batchTimeDue) = false := by
    unfold batchCountDue batchTimeDue
    rw [hconfig, hmode]
    rfl
  dsimp only at h
  rw [hdue, if_neg Bool.false_ne_true] at h
  cases h
  exact hpend

theorem sendWithin_eq_ok [DecidableEq E] {senderLimit : ℕ} {sent : SendOutcome × SampleSender E} :
    sendWithin codec sample sender senderLimit = .ok sent ↔
      ∃ bounded, sender.setMaxRetainedBytes senderLimit = .ok bounded ∧
        bounded.send codec sample = .ok sent := by
  unfold sendWithin
  cases sender.setMaxRetainedBytes senderLimit with
  | error e => simp
  | ok bounded =>
    simp only [Except.ok.injEq, exists_eq_left']
    cases bounded.send codec sample with
    | ok _ => simp
    | error e =>
      dsimp only
      split <;> simp

theorem OpenSender.sent [DecidableEq E] {senderLimit : ℕ} {outcome : SendOutcome}
    (h : OpenSender accepted sender) (hnew : accepted[sample.key]? = none)
    (hsend : sendWithin codec sample sender senderLimit = .ok (outcome, sender')) :
    OpenSender (accepted.insert sample.key sample) sender' := by
  obtain ⟨bounded, hbound, hsend⟩ := sendWithin_eq_ok.mp hsend
  have hopen := h.rebound (setMaxRetainedBytes_rebound hbound)
  have hunseen : bounded.seen[sample.key]? = none := by
    rw [hopen.seen]
    exact hnew
  obtain ⟨-, queued, hsent⟩ := send_sent hsend hunseen hopen.straight
  refine ⟨hsent.closed.trans hopen.opened, ?_, hsent.straight, fun hmode key hkey => ?_⟩
  · rw [hsent.seen, hopen.seen]
  · rw [hsent.config] at hmode
    obtain ⟨held, hheld, hpend⟩ := send_hold hsend hunseen hmode
    rw [hpend, List.map_append, List.mem_append]
    rw [get?_insert_eq] at hkey
    split_ifs at hkey with hsame
    · refine .inr ?_
      rw [List.map_singleton, List.mem_singleton, hheld]
      exact hsame.symm
    · exact .inl (hopen.hold hmode key hkey)

/-! ### Every call keeps the sender -/

theorem SenderLaw.of_eq {l' : Lifecycle E} (h : SenderLaw l)
    (hphase : Active l'.phase → Active l.phase) (haccepted : l'.accepted = l.accepted)
    (hsender : l'.sender = l.sender) : SenderLaw l' := by
  intro hact
  rw [haccepted, hsender]
  exact h (hphase hact)

theorem not_active {phase : CoordinatorPhase}
    (h : phase = .idle ∨ phase = .configuring ∨ phase = .ready ∨ phase = .stopped ∨
      phase = .failed) : ¬ Active phase := by
  rintro (hphase | hphase | hphase) <;> subst hphase <;> simp at h

section

variable (h : SenderLaw c.lifecycle)

include h

theorem SenderLaw.recomputed (hcases : Recomputed c c') : SenderLaw c'.lifecycle := by
  cases hcases with
  | same _ _ => exact h
  | failed _ _ | ready _ _ => exact fun hact => absurd hact (not_active (by simp [lifecycle]))
  | running hphase _ => exact h.of_eq (fun _ => .inl hphase) rfl rfl
  | finished _ _ =>
    intro hact
    refine absurd hact (not_active ?_)
    rcases finishStop_cases c with ⟨-, hlife⟩ | ⟨-, hlife⟩ | ⟨-, -, hlife⟩ <;> rw [hlife] <;>
      simp [Lifecycle.aborted]

theorem SenderLaw.recompute : SenderLaw c.recomputePhase.lifecycle := by
  have hadvanced : SenderLaw c.advanceGracefulStopWorkers.lifecycle := by
    rw [advance_view]
    exact h
  exact hadvanced.recomputed (recomputeFor_cases c.advanceGracefulStopWorkers)

theorem SenderLaw.recomputeAfter : SenderLaw c.recomputePhaseAfterConfiguration.lifecycle := by
  rcases recomputeAfter_cases c with hsame | ⟨hphase, hall, hready⟩
  · rw [hsame]
    exact h
  · rw [hready]
    exact h.recomputed (.ready hphase hall)

theorem SenderLaw.complete (ack : Acknowledgement) : SenderLaw (c.complete ack).lifecycle := by
  rw [complete_view]
  exact h.recompute.recomputeAfter

theorem SenderLaw.failed {worker : WorkerId}
    (hdropped : Dropped worker c (.ok () c')) : SenderLaw c'.lifecycle := by
  have hdrop : SenderLaw (c.dropWorker worker).lifecycle := h
  cases hdropped with
  | again _ => exact h
  | alone _ _ _ => exact hdrop.recompute
  | early _ _ _ _ => exact fun hact => absurd hact (not_active (by simp [lifecycle]))
  | @fast _ asked hphase _ hact _ hsame _ =>
    have hasked : SenderLaw asked.lifecycle := by
      rw [hsame]
      exact hdrop.of_eq (fun _ => hact) rfl rfl
    rcases (endFast_cases asked).2 with ⟨-, hlife⟩ | ⟨-, hlife⟩
    · rw [hlife]
      exact fun hact => absurd hact (not_active (by simp))
    · rw [hlife]
      exact hasked

end

/-- **One call keeps the law of the sender.** -/
theorem SenderLaw.step [DecidableEq E] {codec : EventCodec E} {effect : Effect E}
    (h : SenderLaw c.lifecycle) (hstep : Stepped codec c effect c') : SenderLaw c'.lifecycle := by
  cases hstep with
  | quiet hsame hsender =>
    rw [hsame]
    intro hact
    obtain ⟨sender, hold, hopen⟩ := h hact
    change c.sender = some sender at hold
    show ∃ sender, c'.sender = some sender ∧ OpenSender c.accepted sender
    rw [hold] at hsender
    cases hnew : c'.sender with
    | none =>
      rw [hnew] at hsender
      cases hsender
    | some sender' =>
      rw [hnew] at hsender
      cases hsender with
      | some hrebound => exact ⟨sender', rfl, hopen.rebound hrebound⟩
  | handed hsame hsender =>
    rw [hsame]
    intro hact
    obtain ⟨sender, hold, hopen⟩ := h hact
    change c.sender = some sender at hold
    rcases hsender with ⟨hnone, -, -⟩ | ⟨sender₁, sender', hsender₁, hsender', hhanded⟩
    · rw [hold] at hnone
      cases hnone
    · rw [hold] at hsender₁
      cases hsender₁
      exact ⟨sender', hsender', hopen.handed hhanded⟩
  | added _ _ _ hsame | retried hsame _ =>
    rw [hsame]
    exact h
  | configured _ hsame _ _ =>
    rw [hsame]
    exact fun hact => absurd hact (not_active (.inr (.inl rfl)))
  | completed worker =>
    refine SenderLaw.recomputeAfter ?_
    split_ifs <;> exact h
  | @started _ _ _ config _ _ _ _ hsame =>
    rw [hsame]
    exact fun _ => ⟨.new config, rfl, .new config⟩
  | @stopped mode _ asked _ hmay hsame _ =>
    refine SenderLaw.recompute ?_
    rw [hsame, stop_lifecycle]
    refine h.of_eq (fun _ => ?_) rfl rfl
    rcases hmay with ⟨hphase, -⟩ | hphase | ⟨hphase, -⟩
    · exact .inl hphase
    · exact .inr (.inl hphase)
    · exact .inr (.inr hphase)
  | failed hdropped => exact h.failed hdropped
  | @accepted sample outcome budget sender' _ hcheck hnew hbudget hsend hsame =>
    rw [hsame]
    refine SenderLaw.recompute fun hact => ⟨sender', rfl, ?_⟩
    obtain ⟨sender, hold, hopen⟩ := h hact
    have hbudget' := checkBudget_sender codec hbudget
    change c.sender = some sender at hold
    rw [hold] at hbudget'
    cases hbudget'
    exact hopen.sent hnew hsend
  | early _ => exact h
  | ackedConfigured _ _ =>
    refine SenderLaw.complete ?_ _
    unfold noteConfigured
    split_ifs <;> exact h
  | ackedStarted _ _ =>
    refine SenderLaw.complete ?_ _
    exact h
  | ackedStopped _ _ _ =>
    refine SenderLaw.complete ?_ _
    unfold noteStopped
    dsimp only
    split_ifs <;> exact h

theorem CoordinatorRun.senderLaw [DecidableEq E] {profile : ProfileDescriptor}
    (h : CoordinatorRun codec (.new profile) c) : SenderLaw c.lifecycle := by
  induction h with
  | refl => exact fun hact => absurd hact (not_active (.inl rfl))
  | @call c' hrun call ih =>
    exact ih.step (after_stepped codec (hrun.requestLaw requestLaw_new) call)

/-! ## Admission -/

/-- The bounds on the numbers and the bytes of samples leave room for the sample, and it passes the
checks that the sender makes of a sample alone. -/
def hasRoom (codec : EventCodec E) (c : RemoteCoordinator E) (sample : RemoteSample E) : Bool :=
  match c.checkBudget codec sample with
  | .error _ => false
  | .ok budget =>
    match budget.sender.setMaxRetainedBytes budget.senderLimit with
    | .error _ => false
    | .ok bounded =>
      match bounded.vet codec sample with
      | .error _ => false
      | .ok (_, size, _) =>
        bounded.deliveredBytes + size ≤ usizeMax ∧ bounded.pendingBytes + size ≤ usizeMax

theorem hasRoom_cases (h : hasRoom codec c sample = true) : ∃ budget bounded queued size retained,
      c.checkBudget codec sample = .ok budget ∧
      budget.sender.setMaxRetainedBytes budget.senderLimit = .ok bounded ∧
      bounded.vet codec sample = .ok (queued, size, retained) ∧
      bounded.deliveredBytes + size ≤ usizeMax ∧ bounded.pendingBytes + size ≤ usizeMax := by
  unfold hasRoom at h
  split at h
  · cases h
  · next budget hbudget =>
    split at h
    · cases h
    · next bounded hbound =>
      split at h
      · cases h
      · next queued size retained hvet =>
        exact ⟨budget, bounded, queued, size, retained, hbudget, hbound, hvet, of_decide_eq_true h⟩

/-- An open sender takes a new sample that there is room for. -/
theorem send_of_vet [DecidableEq E] {queued : RemoteSample E} {size retained : ℕ}
    (hopen : sender.closed = false) (hnew : sender.seen[sample.key]? = none)
    (hvet : sender.vet codec sample = .ok (queued, size, retained))
    (hdelivered : sender.deliveredBytes + size ≤ usizeMax)
    (hpend : sender.pendingBytes + size ≤ usizeMax) :
    ∃ sent, sender.send codec sample = .ok sent := by
  unfold send
  rw [hopen, if_neg Bool.false_ne_true]
  simp only [hnew]
  rw [hvet]
  show ∃ sent, (if sender.immediate then sender.deliver sample queued size retained
    else sender.enqueue sample queued size retained) = .ok sent
  split_ifs
  · unfold deliver
    rw [checkedAdd_le hdelivered]
    exact ⟨_, rfl⟩
  · have heither : ∀ (p : Prop) [Decidable p] (a b : SendOutcome × SampleSender E),
        ∃ sent, (if p then pure a else pure b : Except RemoteError _) = .ok sent := by
      intro p _ a b
      split_ifs
      · exact ⟨a, rfl⟩
      · exact ⟨b, rfl⟩
    unfold enqueue
    rw [checkedAdd_le hpend]
    exact heither _ _ _

theorem checkSample_of_running (hlaw : CoordinatorLaw c.lifecycle) (hphase : c.phase = .running)
    (hrun : c.runId = some sample.runId) (hworker : c.phaseOf sample.key.worker = some .running) :
    c.checkSample sample = .ok () := by
  obtain ⟨record, hrecord, hrunning⟩ := Option.map_eq_some_iff.mp hworker
  have hwatermarks : c.stopWatermarks = ∅ := by
    refine (hlaw.unstopped ?_).2
    show c.phase.unstopped = true
    rw [hphase]
    rfl
  have hfresh : c.stopWatermarks[sample.key.worker]?.any (· ≤ sample.key.sequence) = false := by
    rw [hwatermarks, ExtTreeMap.getElem?_empty]
    rfl
  simp only [checkSample, validateRunId, bind_ok, failIf_eq_ok, need_eq_ok, exists_const, not_not]
  refine ⟨hlaw.run sample.runId hrun, .inl hphase, hrun, record, hrecord, ?_, ?_, .inl hrunning⟩
  · rw [hrunning]
    decide
  · rw [hfresh]
    exact Bool.false_ne_true

/-- **Admission.**  In every coordinator that calls lead to, take a sample of the run from a worker
whose start has been acknowledged, at a time before the stop, such that the bounds leave room for it
and it is not in conflict with an accepted one.  It is accepted, or known to be accepted already,
exactly if the coordinator is running: while another worker has not started, it is refused. -/
theorem sample_admitted_iff [DecidableEq E] (codec : EventCodec E) (profile : ProfileDescriptor)
    (c : RemoteCoordinator E) (h : CoordinatorRun codec (.new profile) c) (sample : RemoteSample E)
    (hrun : c.runId = some sample.runId) (hworker : c.phaseOf sample.key.worker = some .running)
    (hunstopped : c.phase = .starting ∨ c.phase = .running)
    (hroom : c.accepted[sample.key]? = some sample ∨
      c.accepted[sample.key]? = none ∧ hasRoom codec c sample = true) :
    (∃ outcome c', recordSample codec sample c = .ok outcome c') ↔ c.phase = .running := by
  constructor
  · rintro ⟨outcome, c', hok⟩
    have hcases := recordSample_cases codec sample c
    rw [hok] at hcases
    have hcheck : c.checkSample sample = .ok () := by
      cases hcases with
      | duplicate hcheck _ => exact hcheck
      | accepted _ hcheck _ _ _ => exact hcheck
    rcases hunstopped with hstarting | hrunning
    · rcases (checkSample_ok hcheck).phase with hphase | hphase
      · exact hphase
      · rw [hstarting] at hphase
        cases hphase
    · exact hrunning
  · intro hphase
    have hcheck := checkSample_of_running h.coordinatorLaw hphase hrun hworker
    unfold recordSample
    rw [hcheck]
    rcases hroom with hold | ⟨hnew, hroom⟩
    · rw [hold]
      dsimp only
      rw [if_pos rfl]
      exact ⟨_, _, rfl⟩
    · obtain ⟨budget, bounded, queued, size, retained, hbudget, hbound, hvet, hdelivered,
        hpending⟩ :=
        hasRoom_cases hroom
      obtain ⟨sender, hsender, hopen⟩ := h.senderLaw (.inr (.inl hphase))
      have hsame := checkBudget_sender codec hbudget
      change c.sender = some sender at hsender
      rw [hsender] at hsame
      cases hsame
      have hbounded := hopen.rebound (setMaxRetainedBytes_rebound hbound)
      have hunseen : bounded.seen[sample.key]? = none := by
        rw [hbounded.seen]
        exact hnew
      obtain ⟨sent, hsent⟩ := send_of_vet hbounded.opened hunseen hvet hdelivered hpending
      rw [hnew]
      rw [hbudget]
      dsimp only
      rw [sendWithin_eq_ok.mpr ⟨bounded, hbound, hsent⟩]
      exact ⟨_, _, rfl⟩

def ackCall (requestId : RequestId) (worker : WorkerId) (stage : AckStage) (runId : Option RunId)
    (threadCount watermark : Option ℕ) : CoordinatorCall Unit :=
  .apply ⟨requestId, .ack worker stage runId threadCount watermark⟩

/-- Two workers are configured and a run begins in the mode. -/
def pairStart (mode : SampleSenderMode) : List (CoordinatorCall Unit) :=
  [.addWorker 1, .addWorker 2, .configure ⟨[], [], []⟩ ⟨∅⟩, ackCall 1 1 .profile none none none,
    ackCall 2 1 .plan none none none, ackCall 3 1 .properties none none none,
    ackCall 4 2 .profile none none none, ackCall 5 2 .plan none none none,
    ackCall 6 2 .properties none none none, .start 1 1 mode]

def coordinatorAfter (calls : List (CoordinatorCall Unit)) : RemoteCoordinator Unit :=
  calls.foldl (fun c call => call.after unitCodec c) (.new plainProfile)

/-- The start of the first worker, and then that of the second one, is acknowledged. -/
def firstStarted : List (CoordinatorCall Unit) := [ackCall 7 1 .started (some 1) (some 1) none]
def bothStarted : List (CoordinatorCall Unit) :=
  firstStarted ++ [ackCall 8 2 .started (some 1) (some 1) none]

def firstSample : RemoteSample Unit := ⟨1, ⟨1, 0⟩, ()⟩

/-- When both workers have started the sample is accepted. -/
theorem bothStarted_admits : ∃ outcome c', recordSample unitCodec firstSample
      (coordinatorAfter (pairStart .standard ++ bothStarted)) = .ok outcome c' :=
  (sample_admitted_iff unitCodec plainProfile
    (coordinatorAfter (pairStart .standard ++ bothStarted))
    (.calls _ .refl) firstSample (by decide +kernel) (by decide +kernel)
    (.inr (by decide +kernel)) (.inr ⟨by decide +kernel, by decide +kernel⟩)).mpr
      (by decide +kernel)

/-- The first worker has started and emits a sample.  There is room for it, but it is refused since
the second worker has not started. -/
theorem firstStarted_refuses :
    let c := coordinatorAfter (pairStart .standard ++ firstStarted)
    CoordinatorRun unitCodec (.new plainProfile) c ∧ c.runId = some firstSample.runId ∧
      c.phaseOf firstSample.key.worker = some .running ∧ c.accepted[firstSample.key]? = none ∧
      hasRoom unitCodec c firstSample = true ∧
      ¬ ∃ outcome c', recordSample unitCodec firstSample c = .ok outcome c' := by
  refine ⟨.calls _ .refl, by decide +kernel, by decide +kernel, by decide +kernel,
    by decide +kernel, ?_⟩
  rintro ⟨outcome, c', hok⟩
  have hrefused : (match recordSample unitCodec firstSample
      (coordinatorAfter (pairStart .standard ++ firstStarted)) with
      | .ok _ _ => true
      | .error _ _ => false) = false := by decide +kernel
  rw [hok] at hrefused
  cases hrefused

/-- **The phases of a run.**  Whatever calls are made of a coordinator and delivered to it, the
phases of its workers agree with its own, a run fails or stops fast only because of a worker that
has failed, every accepted sample is one of the run and below the watermark its worker has stopped
at, and the open sender of an active run has seen exactly the accepted samples. -/
theorem coordinator_lawful [DecidableEq E] (codec : EventCodec E) (profile : ProfileDescriptor)
    (calls : List (CoordinatorCall E)) :
    let c := calls.foldl (fun c call => call.after codec c) (.new profile)
    (∀ (worker : WorkerId) record, c.workers[worker]? = some record →
      record.phase = .failed ∨ c.phase.allows record.phase) ∧
    (c.stopCause = some .failFast ∨ c.phase = .failed → ∃ worker : WorkerId, ∃ record,
      c.workers[worker]? = some record ∧ record.phase = .failed) ∧
    (c.phase = .stopped → ∃ mode, c.stopCause = some (.user mode)) ∧
    (∀ (key : SampleKey) sample, c.accepted[key]? = some sample →
      sample.key = key ∧ c.runId = some sample.runId ∧
        ∀ watermark, c.stopWatermarks[key.worker]? = some watermark → key.sequence < watermark) ∧
    (Active c.phase → ∃ sender, c.sender = some sender ∧ sender.closed = false ∧
      sender.seen = c.accepted) := by
  intro c
  have h : CoordinatorRun codec (.new profile) c := .calls calls .refl
  have hlaw := h.coordinatorLaw
  refine ⟨hlaw.records, hlaw.victim, hlaw.stopped, fun key sample hacc => ?_, fun hact => ?_⟩
  · obtain ⟨hkey, hrun⟩ := hlaw.own key sample hacc
    exact ⟨hkey, hrun, fun watermark hwatermark =>
      hlaw.below key.worker watermark key.sequence hwatermark (Option.isSome_of_mem hacc)⟩
  · obtain ⟨sender, hsender, hopen⟩ := h.senderLaw hact
    exact ⟨sender, hsender, hopen.opened, hopen.seen⟩

end JmeterRs.Remote
