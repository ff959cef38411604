import JmeterRs.Remote.Emission
import JmeterRs.Remote.Phases

/-!
# Requests settle once

A request is pending until it is acknowledged, replaced or cancelled, and never again after that.
So an acknowledgement changes the coordinator at most once, however often and however late it is
delivered, and histories that were evicted do not matter.
-/

namespace JmeterRs.Remote

open Std RemoteCoordinator

variable {E : Type} [DecidableEq E] {codec : EventCodec E} {c c' : RemoteCoordinator E}
  {id : RequestId}

/-! ## Acknowledgements -/

def RemoteCoordinator.Acknowledgement.envelope (ack : Acknowledgement) : RemoteEnvelope E :=
  ⟨ack.requestId, .ack ack.worker ack.stage ack.runId ack.threadCount ack.watermark⟩

omit [DecidableEq E] in
theorem withEntry_contains {worker : WorkerId} (h : c.configAcks.contains worker = true) :
    c.withConfigEntry worker = c := by
  have hacks : c.configAcks.insertIfNew worker [] = c.configAcks := by
    apply ExtTreeMap.ext_getElem?
    intro other
    rw [ExtTreeMap.getElem?_insertIfNew]
    refine if_neg fun hnew => hnew.2 ?_
    rw [← ExtTreeMap.contains_iff_mem]
    exact h
  unfold withConfigEntry
  rw [hacks]

omit [DecidableEq E] in
theorem complete_pending {ack : Acknowledgement} :
    (c.complete ack).pendingRequests[ack.requestId]? = none := by
  have hpend : (c.complete ack).pendingRequests = c.pendingRequests.erase ack.requestId :=
    congrArg Lifecycle.pending (complete_view ack)
  rw [hpend, get?_erase_eq, if_pos rfl]

/-- A message is refused for its identifier or handed to `apply_ack`. -/
theorem after_apply_ack (codec : EventCodec E) (ack : Acknowledgement) :
    (CoordinatorCall.apply ack.envelope).after codec c = c ∨
      (CoordinatorCall.apply ack.envelope).after codec c = final (applyAck ack c) := by
  have hafter : (CoordinatorCall.apply ack.envelope).after codec c =
      final ((do return .outcome (← apply codec ack.envelope) :
        Coordinating E (CoordinatorReply E)) c) := after_eq_final codec _
  rw [hafter]
  by_cases hwrong : wrongNamespace (E := E) ack.envelope = true
  · have happly : apply codec ack.envelope c = .error
        (.protocol "coordinator message used an invalid request ID namespace") c := by
      unfold apply
      rw [if_pos hwrong]
      rfl
    rw [run_bind_error happly]
    exact .inl rfl
  · have happly : apply codec ack.envelope =
        (do applyAck ack; return none : Coordinating E (Option RecordOutcome)) := by
      unfold apply
      rw [if_neg hwrong]
      rfl
    refine .inr ?_
    rw [happly]
    cases hres : applyAck ack c with
    | ok u c' =>
      have hnone : (do applyAck ack; return none : Coordinating E (Option RecordOutcome)) c =
          .ok none c' := run_bind_ok hres
      rw [run_bind_ok hnone]
      rfl
    | error e c' =>
      have herror : (do applyAck ack; return none : Coordinating E (Option RecordOutcome)) c =
          .error e c' := run_bind_error hres
      rw [run_bind_error herror]
      rfl

/-- An acknowledgement that changes the coordinator settles its request. -/
theorem ack_after (hlaw : CoordinatorLaw c.lifecycle) (ack : Acknowledgement) :
    (CoordinatorCall.apply ack.envelope).after codec c = c ∨ (∃ request, c.Awaits ack request) ∧
        ((CoordinatorCall.apply ack.envelope).after codec c).pendingRequests[ack.requestId]? =
          none := by
  have hcases := applyAck_cases ack c
  rcases after_apply_ack codec ack with hsame | hafter
  · exact .inl hsame
  rw [hafter]
  generalize applyAck ack c = result at hcases ⊢
  cases hcases with
  | refused e => exact .inl rfl
  | repeated _ => exact .inl rfl
  | early e hawaits _ => exact .inl (withEntry_contains (hlaw.entry _ hawaits.known))
  | configured stages hawaits _ _ | started hawaits _ _ | stopped watermark hawaits _ _ =>
    exact .inr ⟨⟨_, hawaits⟩, complete_pending⟩

theorem ack_settled (hlaw : CoordinatorLaw c.lifecycle) {ack : Acknowledgement}
    (hnone : c.pendingRequests[ack.requestId]? = none) :
    (CoordinatorCall.apply ack.envelope).after codec c = c := by
  refine (ack_after hlaw ack).resolve_right ?_
  rintro ⟨⟨request, hawaits⟩, -⟩
  cases hawaits.pending.symm.trans hnone

/-! ## Identifiers and attempts -/

/-- The identifiers of what a call sends. -/
def CoordinatorCall.sentIds (codec : EventCodec E) (call : CoordinatorCall E)
    (c : RemoteCoordinator E) : List RequestId :=
  (call.sent codec c).map RemoteEnvelope.requestId

/-- Control identifiers are below the namespace of the samples. -/
theorem usesSampleEnvelopeNamespace_control (h : id ≤ maxControlRequestId) :
    usesSampleEnvelopeNamespace id = false := by
  have hlt : id < 2 ^ 63 := Nat.lt_of_le_of_lt h (by decide)
  have hbit : id &&& 2 ^ 63 = 0 := by
    apply Nat.eq_of_testBit_eq
    intro i
    rw [Nat.testBit_and, Nat.testBit_two_pow, Nat.zero_testBit]
    by_cases hi : 63 = i
    · rw [← hi, Nat.testBit_lt_two_pow hlt, Bool.false_and]
    · rw [decide_eq_false hi, Bool.and_false]
  unfold usesSampleEnvelopeNamespace sampleEnvelopeNamespace
  rw [hbit]
  rfl

omit [DecidableEq E] in
/-- What is issued later has a larger identifier. -/
theorem issued_lt {v : Requests E} {id' : RequestId} (hid : Issued v id) (hzero : id' ≠ 0)
    (hmax : id' ≤ maxControlRequestId) (hfresh : ¬ Issued v id') : id < id' := by
  have hopen : v.next ≠ 0 := fun hnext => hfresh ⟨hzero, hmax, .inl hnext⟩
  have hle : v.next ≤ id' := Nat.not_lt.mp fun hlt => hfresh ⟨hzero, hmax, .inr hlt⟩
  exact Nat.lt_of_lt_of_le (hid.2.2.resolve_left hopen) hle

/-- The identifiers that a call sends increase; none was issued before. -/
theorem sentIds_spec (codec : EventCodec E) (call : CoordinatorCall E) (c : RemoteCoordinator E) :
    (call.sentIds codec c).Pairwise (· < ·) ∧ ∀ id ∈ call.sentIds codec c,
      ¬ Issued c.requests id ∧ Issued (call.after codec c).requests id := by
  obtain ⟨ids, hmoves, hsub⟩ := call.moves codec c
  obtain ⟨hsorted, hfresh⟩ := hmoves.increasing
  exact ⟨hsorted.sublist hsub, fun id hid => hfresh id (hsub.subset hid)⟩

omit [DecidableEq E] in
/-- A retry fails with the same requests pending, or takes its request under a new identifier. -/
theorem retry_cases (old : RequestId) (c : RemoteCoordinator E) :
    (∃ e c', retryRequest old c = .error e c' ∧
      ∀ id : RequestId, c'.pendingRequests[id]? = c.pendingRequests[id]?) ∨
    ∃ previous replacement c', retryRequest old c = .ok replacement c' ∧
      c.pendingRequests[old]? = some previous ∧
      previous.attempt < c.retryPolicy.maxAttempts ∧ replacement.requestId = c.nextRequestId ∧
      c'.pendingRequests = (c.pendingRequests.erase old).insert c.nextRequestId
        { previous with attempt := previous.attempt + 1 } := by
  unfold retryRequest
  cases hpending : c.pendingRequests[old]? with
  | none => exact .inl ⟨_, _, rfl, fun _ => rfl⟩
  | some previous =>
    dsimp only
    split_ifs with hattempt
    · exact .inl ⟨_, _, rfl, fun _ => rfl⟩
    · rcases envelope_cases previous.message
        { c with pendingRequests := c.pendingRequests.erase old } with herror | ⟨-, -, hok⟩
      · rw [herror]
        refine .inl ⟨_, _, rfl, fun id => ?_⟩
        show ((c.pendingRequests.erase old).insert old previous)[id]? = _
        rw [get?_insert_eq]
        split_ifs with hsame
        · rw [← hsame, hpending]
        · rw [get?_erase_ne hsame]
      · rw [hok]
        exact .inr ⟨previous, _, _, rfl, rfl, Nat.lt_of_not_le hattempt, rfl, rfl⟩

omit [DecidableEq E] in
theorem retryRequest_ok (hlaw : RequestLaw c.requests) {replacement : RemoteEnvelope E}
    (h : retryRequest id c = .ok replacement c') :
    ∃ old, c.pendingRequests[id]? = some old ∧ c'.pendingRequests[id]? = none ∧
      c'.pendingRequests[replacement.requestId]? =
        some { old with attempt := old.attempt + 1 } := by
  rcases retry_cases id c with ⟨_, _, herror, -⟩ |
    ⟨old, _, _, hok, hpending, -, hid, hissued⟩
  · cases herror.symm.trans h
  · cases hok.symm.trans h
    have hother : c.nextRequestId ≠ id := by
      rintro rfl
      cases (pending_next hlaw).symm.trans hpending
    refine ⟨old, hpending, ?_, ?_⟩
    · rw [hissued, get?_insert_ne hother, get?_erase_eq, if_pos rfl]
    · rw [hissued, hid, get?_insert_eq, if_pos rfl]

/-- What is pending after a retry of `old` was so before, or is that request with one more attempt,
within the bound. -/
def Retries (c : RemoteCoordinator E) (old : RequestId) (c' : RemoteCoordinator E) : Prop :=
  ∀ (id : RequestId) (request : PendingRequest E), c'.pendingRequests[id]? = some request →
    c.pendingRequests[id]? = some request ∨
      ∃ previous, c.pendingRequests[old]? = some previous ∧
        request = { previous with attempt := previous.attempt + 1 } ∧
        request.attempt ≤ c.retryPolicy.maxAttempts

omit [DecidableEq E] in
theorem retry_attempts (old : RequestId) : Triple (· = c) (retryRequest old)
      (fun _ c' => Retries c old c') (fun _ c' => Retries c old c') := by
  rintro s rfl
  rcases retry_cases old s with ⟨_, c', herror, hsame⟩ |
    ⟨previous, _, c', hok, hpending, hattempt, -, hissued⟩
  · rw [herror]
    exact fun id _ hrequest => .inl ((hsame id).symm.trans hrequest)
  · rw [hok]
    intro id request hrequest
    rw [hissued, get?_insert_eq] at hrequest
    split_ifs at hrequest
    · cases hrequest
      exact .inr ⟨previous, hpending, rfl, hattempt⟩
    · exact .inl (of_get?_erase hrequest)

theorem retry_after (old : RequestId) :
    Retries c old ((CoordinatorCall.retryRequest old).after codec c) := by
  rw [after_eq_final]
  exact (retry_attempts old).result (R := fun result => Retries c old (final result)) rfl
    (fun _ _ h => h) fun _ _ h => h

omit [DecidableEq E] in
theorem attemptLimit_first {call : CoordinatorCall E} (h : ∀ old, call ≠ .retryRequest old) :
    call.attemptLimit c = 1 := by
  cases call with
  | retryRequest old => exact absurd rfl (h old)
  | _ => rfl

/-! ## Cancelled requests -/

/-- The requests that a stop makes obsolete: the start requests of a run that is starting, and the
stop requests that it escalates. -/
def RemoteCoordinator.StaleAtStop (c : RemoteCoordinator E) (mode : StopMode)
    (request : PendingRequest E) : Prop :=
  request.stage = .started ∧ c.phase = .starting ∨
    request.stage = .stopped ∧ c.escalates mode = true

/-- The requests that a failure makes obsolete: those of the worker, and all of them if it is the
first failure of a run that fails fast. -/
def RemoteCoordinator.StaleAtFailure (c : RemoteCoordinator E) (worker : WorkerId)
    (request : PendingRequest E) : Prop :=
  request.worker = worker ∨ c.failurePolicy = .failFast ∧ c.stopCause ≠ some .failFast

omit [DecidableEq E] in
theorem get?_cancelPending {p : PendingRequest E → Bool} {request : PendingRequest E}
    (h : (c.cancelPending p).pendingRequests[id]? = some request) :
    c.pendingRequests[id]? = some request ∧ p request = false := by
  have hkept : (c.pendingRequests.filter fun _ request => !p request)[id]? = some request := h
  rw [ExtTreeMap.getElem?_filter', Option.filter_eq_some_iff] at hkept
  simpa using hkept

omit [DecidableEq E] in
theorem get?_cancelIf {b : Prop} [Decidable b] {p : PendingRequest E → Bool}
    {request : PendingRequest E}
    (h : (if b then c.cancelPending p else c).pendingRequests[id]? = some request) :
    c.pendingRequests[id]? = some request ∧ (b → p request = false) := by
  split_ifs at h with hb
  · exact (get?_cancelPending h).imp_right fun hp _ => hp
  · exact ⟨h, fun hyes => absurd hyes hb⟩

omit [DecidableEq E] in
theorem cancelForStop_pending {mode : StopMode} {request : PendingRequest E}
    (hpending : c.pendingRequests[id]? = some request) (hstale : c.StaleAtStop mode request) :
    (c.cancelForStop mode).pendingRequests[id]? = none := by
  rw [Option.eq_none_iff_forall_ne_some]
  intro kept hkept
  obtain ⟨hstarted, hstopped⟩ := get?_cancelIf (p := (·.stage = .stopped)) hkept
  obtain ⟨hsame, hstart⟩ := get?_cancelIf (p := (·.stage = .started)) hstarted
  cases hpending.symm.trans hsame
  rcases hstale with ⟨hstage, hphase⟩ | ⟨hstage, hescalates⟩
  · exact of_decide_eq_false (hstart hphase) hstage
  · exact of_decide_eq_false (hstopped hescalates) hstage

omit [DecidableEq E] in
theorem checkStop_none {mode : StopMode} (h : c.checkStop mode = .ok none) :
    c.phase = .stopping ∧ c.escalates mode = false := by
  simp only [checkStop, bind_ok, failIf_eq_ok, exists_const] at h
  obtain ⟨_, -, -, -, h⟩ := h
  split_ifs at h with hagain
  · exact hagain
  · obtain ⟨_, -, h⟩ := bind_ok.mp h
    cases h

section

variable (hlaw : RequestLaw c.requests) {request : PendingRequest E}
  (hpending : c.pendingRequests[id]? = some request)

include hlaw hpending

omit [DecidableEq E] in
theorem stop_cancels {mode : StopMode} (hstale : c.StaleAtStop mode request) :
    Triple (· = c) (stop mode) (fun _ c' => c'.pendingRequests[id]? = none)
      (fun _ _ => True) := by
  refine .bind (.check fun _ _ _ => trivial) fun plan => ?_
  rintro s ⟨rfl, hcheck⟩
  rcases plan with _ | ⟨runId, workers⟩
  · obtain ⟨hphase, hescalates⟩ := checkStop_none hcheck
    rcases hstale with ⟨-, hstarting⟩ | ⟨-, hyes⟩
    · cases hphase.symm.trans hstarting
    · cases hescalates.symm.trans hyes
  · have hissued : Issued (s.beginStop mode).requests id :=
      (hlaw.pending id request hpending).1.moves ((Tracked.start 1 s).cancelForStop mode).1
    have hgone : (s.beginStop mode).requests.pending[id]? = none :=
      cancelForStop_pending hpending hstale
    have hrest : Issues 1 (s.beginStop mode).requests (s.beginStop mode).controlOutbox [] (do
        let messages ← issueAll .stopped (.stop runId mode) workers
        modify recomputePhase
        return messages) :=
      .bind (issueAll_issues (Nat.le_refl 1)) fun _ =>
        .bind (.keep fun c hc => hc.framed (recompute_frame c)) fun _ => .pure fun _ h => h
    have hgoes : Triple (· = s.beginStop mode) _ (fun _ c' => c'.pendingRequests[id]? = none)
        fun _ _ => True :=
      Triple.weaken hrest (fun t ht => ht ▸ .start 1 _)
        (fun _ c' htracked => htracked.1.settled hissued hgone) fun _ _ _ => trivial
    exact hgoes _ rfl

omit [DecidableEq E] in
theorem failure_cancels {worker : WorkerId} (runId : Option RunId)
    (hwell : c.phaseOf worker ≠ some .failed) (hstale : c.StaleAtFailure worker request) :
    Triple (· = c) (failWorker worker runId) (fun _ c' => c'.pendingRequests[id]? = none)
      (fun _ _ => True) := by
  refine .bind (.check fun _ _ _ => trivial) fun failed => ?_
  rintro s ⟨rfl, hcheck⟩
  obtain ⟨phase, hphase, hfailed⟩ := checkFailure_ok hcheck
  cases failed with
  | true =>
    rw [hfailed] at hphase
    exact absurd hphase hwell
  | false =>
    let dropped := (s.setWorkerPhase worker .failed).cancelPending (·.worker = worker)
    have hset : Tracked 1 s.requests s.controlOutbox [] [] (s.setWorkerPhase worker .failed) :=
      Tracked.start 1 s
    have hdropped : Tracked 1 s.requests s.controlOutbox [] [] dropped := hset.cancel _
    have hissued : Issued s.requests id := (hlaw.pending id request hpending).1
    show Meets _ _ ((if s.failurePolicy = .failFast ∧ s.stopCause ≠ some .failFast then do
        modify cancelAllPendingRequests
        beginFailFastStop
      else modify recomputePhase : Coordinating E Unit) dropped)
    split_ifs with hfast
    · -- a fast failure cancels what is left before it issues its own requests
      have hgone : dropped.cancelAllPendingRequests.requests.pending[id]? = none := by
        rw [Option.eq_none_iff_forall_ne_some]
        intro kept hkept
        cases (get?_cancelPending hkept).2
      have hissued' : Issued dropped.cancelAllPendingRequests.requests id :=
        hissued.moves (hdropped.cancel _).1
      have hrest := @failFast_posted E dropped.cancelAllPendingRequests.requests 1
        dropped.cancelAllPendingRequests.controlOutbox (Nat.le_refl 1)
      have hgoes : Triple (· = dropped.cancelAllPendingRequests) _
          (fun _ c' => c'.pendingRequests[id]? = none) fun _ _ => True :=
        Triple.weaken hrest (fun t ht => ht ▸ ⟨[], .start 1 _⟩)
          (fun _ c' ⟨_, htracked⟩ => htracked.1.settled hissued' hgone) fun _ _ _ => trivial
      exact hgoes _ rfl
    · have hgone : dropped.pendingRequests[id]? = none := by
        rw [Option.eq_none_iff_forall_ne_some]
        intro kept hkept
        obtain ⟨hsome, hother⟩ := get?_cancelPending hkept
        cases hpending.symm.trans hsome
        exact (of_decide_eq_false hother) (hstale.resolve_right hfast)
      show (recomputePhase dropped).requests.pending[id]? = none
      rw [(recompute_frame dropped).1]
      exact hgone

end

/-! ## The law of requests -/

/-- What requests, acknowledgements and identifiers obey from a coordinator on. -/
structure Settling (codec : EventCodec E) (c : RemoteCoordinator E) : Prop where
  /-- An acknowledgement has no effect unless its request is pending for its worker and its stage,
  and its worker has not failed. -/
  pending_only : ∀ ack : Acknowledgement,
    (CoordinatorCall.apply ack.envelope).after codec c = c ∨ ∃ request, c.Awaits ack request
  /-- After an acknowledgement that had an effect, none of the same request ever has one. -/
  once : ∀ (ack ack' : Acknowledgement) (c' : RemoteCoordinator E),
    (CoordinatorCall.apply ack.envelope).after codec c ≠ c →
    CoordinatorRun codec ((CoordinatorCall.apply ack.envelope).after codec c) c' →
    ack'.requestId = ack.requestId → (CoordinatorCall.apply ack'.envelope).after codec c' = c'
  /-- The tables are disjoint. -/
  invalid : ∀ id ∈ c.invalidRequests, c.pendingRequests[id]? = none
  completed : ∀ (id : RequestId) (done : CompletedRequest), c.completedRequests[id]? = some done →
    c.pendingRequests[id]? = none ∧ id ∉ c.invalidRequests
  /-- Identifiers increase within a call and from call to call, outside the namespace of the
  samples. -/
  increasing : ∀ call : CoordinatorCall E, (call.sentIds codec c).Pairwise (· < ·)
  later : ∀ (call call' : CoordinatorCall E) (c' : RemoteCoordinator E),
    CoordinatorRun codec (call.after codec c) c' →
      ∀ id ∈ call.sentIds codec c, ∀ id' ∈ call'.sentIds codec c', id < id'
  control : ∀ call : CoordinatorCall E, ∀ id ∈ call.sentIds codec c,
    id ≠ 0 ∧ usesSampleEnvelopeNamespace id = false
  /-- A request that becomes pending counts one attempt, unless it is the retry of a pending one,
  which counts one more and is within the bound. -/
  attempts : ∀ (call : CoordinatorCall E) (id : RequestId) (request : PendingRequest E),
    (call.after codec c).pendingRequests[id]? = some request →
      c.pendingRequests[id]? = some request ∨ request.attempt = 1 ∨
        ∃ old previous, call = .retryRequest old ∧ c.pendingRequests[old]? = some previous ∧
          request = { previous with attempt := previous.attempt + 1 } ∧
          request.attempt ≤ c.retryPolicy.maxAttempts
  retry : ∀ (id : RequestId) (replacement : RemoteEnvelope E) (c' : RemoteCoordinator E),
    retryRequest id c = .ok replacement c' →
      ∃ old, c.pendingRequests[id]? = some old ∧ c'.pendingRequests[id]? = none ∧
        c'.pendingRequests[replacement.requestId]? = some { old with attempt := old.attempt + 1 }
  /-- `stop` cancels what it makes obsolete, and `fail_worker` what the worker cannot answer. -/
  stop : ∀ (mode : StopMode) (messages : List (RemoteEnvelope E)) (c' : RemoteCoordinator E),
    RemoteCoordinator.stop mode c = .ok messages c' →
      ∀ (id : RequestId) (request : PendingRequest E), c.pendingRequests[id]? = some request →
        c.StaleAtStop mode request → c'.pendingRequests[id]? = none
  failure : ∀ (worker : WorkerId) (runId : Option RunId) (c' : RemoteCoordinator E),
    failWorker worker runId c = .ok () c' → c.phaseOf worker ≠ some .failed →
      ∀ (id : RequestId) (request : PendingRequest E), c.pendingRequests[id]? = some request →
        c.StaleAtFailure worker request → c'.pendingRequests[id]? = none
  /-- A request that was pending and is not any more (retried, cancelled or completed, whatever the
  histories have kept) never is again, and no acknowledgement of it has an effect. -/
  settled : ∀ (id : RequestId) (c₁ c₂ : RemoteCoordinator E), c.pendingRequests[id]? ≠ none →
    CoordinatorRun codec c c₁ → c₁.pendingRequests[id]? = none → CoordinatorRun codec c₁ c₂ →
      c₂.pendingRequests[id]? = none ∧ ∀ ack : Acknowledgement, ack.requestId = id →
        (CoordinatorCall.apply ack.envelope).after codec c₂ = c₂

/-- **Requests settle once.**  This holds of every coordinator that calls lead to, whatever is
delivered to it and in whatever order. -/
theorem run_settling (codec : EventCodec E) (profile : ProfileDescriptor) (c : RemoteCoordinator E)
    (h : CoordinatorRun codec (.new profile) c) : Settling codec c := by
  have hrequests : RequestLaw c.requests := h.requestLaw requestLaw_new
  have hphases : CoordinatorLaw c.lifecycle := h.coordinatorLaw
  refine ⟨fun ack => ?_, fun ack ack' c' hchanged hrun hsame => ?_,
    fun id hid => (hrequests.invalid id hid).2,
    fun id done hdone => (hrequests.completed id done hdone).2,
    fun call => (sentIds_spec codec call c).1, fun call call' c' hrun id hid id' hid' => ?_,
    fun call id hid => ?_, fun call id request hrequest => ?_,
    fun id replacement c' hretry => retryRequest_ok hrequests hretry,
    fun mode messages c' hstop id request hpending hstale => ?_,
    fun worker runId c' hfail hwell id request hpending hstale => ?_,
    fun id c₁ c₂ hpending hfirst hnone hsecond => ?_⟩
  · exact (ack_after hphases ack).imp_right And.left
  · obtain ⟨⟨request, hawaits⟩, hsettled⟩ := (ack_after hphases ack).resolve_left hchanged
    have hissued : Issued c.requests ack.requestId :=
      (hrequests.pending _ request hawaits.pending).1
    -- The request was issued and is settled, so it is not pending at any later time.
    have hone : CoordinatorRun codec c ((CoordinatorCall.apply ack.envelope).after codec c) :=
      .call .refl _
    have hnone := hrun.settled (hone.issued hissued) hsettled
    exact ack_settled ((h.trans hone).trans hrun).coordinatorLaw (hsame ▸ hnone)
  · have hissued := hrun.issued ((sentIds_spec codec call c).2 id hid).2
    obtain ⟨hfresh, hlast⟩ := (sentIds_spec codec call' c').2 id' hid'
    exact issued_lt hissued hlast.1 hlast.2.1 hfresh
  · have hissued := ((sentIds_spec codec call c).2 id hid).2
    exact ⟨hissued.1, usesSampleEnvelopeNamespace_control hissued.2.1⟩
  · by_cases hretry : ∃ old, call = .retryRequest old
    · obtain ⟨old, rfl⟩ := hretry
      rcases retry_after old id request hrequest with hsame | ⟨previous, hprevious, hagain⟩
      · exact .inl hsame
      · exact .inr (.inr ⟨old, previous, rfl, hprevious, hagain⟩)
    · obtain ⟨ids, hmoves, -⟩ := call.moves codec c
      rw [attemptLimit_first (not_exists.mp hretry)] at hmoves
      refine (hmoves.attempt hrequest).imp_right fun hle => .inl ?_
      exact Nat.le_antisymm hle ((hrequests.moves hmoves).pending id request hrequest).2
  · have hcancels := stop_cancels hrequests hpending hstale c rfl
    rw [hstop] at hcancels
    exact hcancels
  · have hcancels := failure_cancels hrequests hpending runId hwell hstale c rfl
    rw [hfail] at hcancels
    exact hcancels
  · obtain ⟨request, hrequest⟩ := Option.ne_none_iff_exists'.mp hpending
    have hissued := hfirst.issued (hrequests.pending id request hrequest).1
    have hgone := hsecond.settled hissued hnone
    refine ⟨hgone, fun ack hack => ?_⟩
    exact ack_settled ((h.trans hfirst).trans hsecond).coordinatorLaw (hack ▸ hgone)

/-- A worker is selected, its configuration is sent and the first request of it is repeated. -/
def retriedCalls : List (CoordinatorCall Unit) :=
  [.addWorker 1, .configure ⟨[], [], []⟩ ⟨∅⟩, .retryRequest 1]

def retriedCoordinator : RemoteCoordinator Unit :=
  retriedCalls.foldl (fun c call => call.after unitCodec c) (.new plainProfile)

theorem retriedCoordinator_settling : retriedCoordinator.pendingRequests.keys = [2, 3, 4] ∧
      retriedCoordinator.invalidRequests.toList = [1] ∧ Settling unitCodec retriedCoordinator :=
  ⟨by decide +kernel, by decide +kernel,
    run_settling unitCodec plainProfile retriedCoordinator (.calls retriedCalls .refl)⟩

end JmeterRs.Remote
