import JmeterRs.Remote.Coordinator
import JmeterRs.Lib.Triple

/-!
# The requests of the coordinator

What happens to the tables of requests in any call is a sequence of three moves: a request is issued
under the next identifier, requests are withdrawn, and a pending request is finished.  So the tables
stay disjoint, identifiers only increase, and an acknowledgement has an effect at most once.
-/

namespace JmeterRs.Remote

open Std List

variable {E : Type}

/-! ## Calls -/

inductive CoordinatorCall (E : Type)
  | setFailurePolicy (policy : FailurePolicy)
  | setRetryPolicy (policy : RetryPolicy)
  | setConfigurationLimits (limits : RemoteConfigurationLimits)
  | setCodecLimits (limits : RemoteLimits)
  | setMaxSamples (maximum : ℕ)
  | setMaxRetainedBytes (maximum : ℕ)
  | setBatchTimeMs (threshold : ℕ)
  | addWorker (worker : WorkerId)
  | drainControlMessages
  | configure (plan : PlanDescriptor) (properties : PropertySet)
  | configurationComplete (worker : WorkerId)
  | start (runId : RunId) (threadCount : ℕ) (mode : SampleSenderMode)
  | stop (mode : StopMode)
  | retryRequest (requestId : RequestId)
  | workerFailed (worker : WorkerId)
  | workerFailedForRun (worker : WorkerId) (runId : RunId)
  | recordSample (sample : RemoteSample E)
  | apply (message : RemoteEnvelope E)
  | drainDeliveredSamples
  | advanceTime (nowMs : ℕ)

inductive CoordinatorReply (E : Type)
  | done
  | envelopes (messages : List (RemoteEnvelope E))
  | outcome (outcome : Option RecordOutcome)
  | samples (samples : List (RemoteSample E))

def CoordinatorCall.perform [DecidableEq E] (codec : EventCodec E) :
    CoordinatorCall E → Coordinating E (CoordinatorReply E)
  | .setFailurePolicy policy => do modify (·.setFailurePolicy policy); return .done
  | .setRetryPolicy policy => do modify (·.setRetryPolicy policy); return .done
  | .setConfigurationLimits limits => do
    RemoteCoordinator.setConfigurationLimits limits; return .done
  | .setCodecLimits limits => do RemoteCoordinator.setCodecLimits limits; return .done
  | .setMaxSamples maximum => do RemoteCoordinator.setMaxSamples maximum; return .done
  | .setMaxRetainedBytes maximum => do
    RemoteCoordinator.setMaxRetainedBytes maximum; return .done
  | .setBatchTimeMs threshold => do RemoteCoordinator.setBatchTimeMs threshold; return .done
  | .addWorker worker => do RemoteCoordinator.addWorker worker; return .done
  | .drainControlMessages => fun c =>
    .ok (.envelopes c.drainControlMessages.1) c.drainControlMessages.2
  | .configure plan properties => do
    return .envelopes (← RemoteCoordinator.configure plan properties)
  | .configurationComplete worker => do
    RemoteCoordinator.configurationComplete worker; return .done
  | .start runId threadCount mode => do
    return .envelopes (← RemoteCoordinator.start runId threadCount mode)
  | .stop mode => do return .envelopes (← RemoteCoordinator.stop mode)
  | .retryRequest requestId => do
    return .envelopes [← RemoteCoordinator.retryRequest requestId]
  | .workerFailed worker => do RemoteCoordinator.workerFailed worker; return .done
  | .workerFailedForRun worker runId => do
    RemoteCoordinator.workerFailedForRun worker runId; return .done
  | .recordSample sample => do
    return .outcome (some (← RemoteCoordinator.recordSample codec sample))
  | .apply message => do return .outcome (← RemoteCoordinator.apply codec message)
  | .drainDeliveredSamples => fun c =>
    .ok (.samples c.drainDeliveredSamples.1) c.drainDeliveredSamples.2
  | .advanceTime nowMs => do return .samples (← RemoteCoordinator.advanceTime nowMs)

def CoordinatorCall.after [DecidableEq E] (codec : EventCodec E) (call : CoordinatorCall E)
    (c : RemoteCoordinator E) : RemoteCoordinator E :=
  match call.perform codec c with
  | .ok _ c => c
  | .error _ c => c

/-- How many attempts a request that a call sends counts at most: only a retry is not the first. -/
def CoordinatorCall.attemptLimit (c : RemoteCoordinator E) : CoordinatorCall E → ℕ
  | .retryRequest _ => c.retryPolicy.maxAttempts
  | _ => 1

/-- The coordinators that calls lead to from `c`. -/
inductive CoordinatorRun [DecidableEq E] (codec : EventCodec E) (c : RemoteCoordinator E) :
    RemoteCoordinator E → Prop
  | refl : CoordinatorRun codec c c
  | call {c' : RemoteCoordinator E} (h : CoordinatorRun codec c c') (call : CoordinatorCall E) :
      CoordinatorRun codec c (call.after codec c')

/-! ## The tables and their moves -/

structure Requests (E : Type) where
  next : RequestId
  pending : ExtTreeMap RequestId (PendingRequest E)
  invalid : ExtTreeSet RequestId
  completed : ExtTreeMap RequestId CompletedRequest

def RemoteCoordinator.requests (c : RemoteCoordinator E) : Requests E :=
  ⟨c.nextRequestId, c.pendingRequests, c.invalidRequests, c.completedRequests⟩

/-- The identifier after one that was issued; zero is none. -/
def nextId (id : RequestId) : RequestId := if id = maxControlRequestId then 0 else id + 1

/-- The moves from `v` to `u`, with the identifiers that are issued; no attempt is over `limit`. -/
inductive Moves (limit : ℕ) (v : Requests E) : List RequestId → Requests E → Prop
  | refl : Moves limit v [] v
  | issue {ids : List RequestId} {u : Requests E} (h : Moves limit v ids u)
      (request : PendingRequest E) (hopen : u.next ≠ 0) (hmax : u.next ≤ maxControlRequestId)
      (hfirst : 1 ≤ request.attempt) (hlimit : request.attempt ≤ limit) :
      Moves limit v (ids ++ [u.next])
        { u with next := nextId u.next, pending := u.pending.insert u.next request }
  | withdraw {ids : List RequestId} {u u' : Requests E} (h : Moves limit v ids u)
      (hnext : u'.next = u.next)
      (hpending : ∀ (id : RequestId) request, u'.pending[id]? = some request →
        u.pending[id]? = some request)
      (hinvalid : ∀ id ∈ u'.invalid,
        id ∈ u.invalid ∨ u.pending[id]?.isSome = true ∧ u'.pending[id]? = none)
      (hcompleted : ∀ (id : RequestId) request, u'.completed[id]? = some request →
        u.completed[id]? = some request) : Moves limit v ids u'
  | finish {ids : List RequestId} {u u' : Requests E} (h : Moves limit v ids u) (id : RequestId)
      (hid : u.pending[id]?.isSome = true) (hnext : u'.next = u.next)
      (hpending : u'.pending = u.pending.erase id)
      (hinvalid : ∀ other ∈ u'.invalid, other ∈ u.invalid)
      (hcompleted : ∀ (other : RequestId) request, u'.completed[other]? = some request →
        other = id ∨ u.completed[other]? = some request) : Moves limit v ids u'

def Issued (v : Requests E) (id : RequestId) : Prop :=
  id ≠ 0 ∧ id ≤ maxControlRequestId ∧ (v.next = 0 ∨ id < v.next)

structure RequestLaw (v : Requests E) : Prop where
  pending : ∀ (id : RequestId) request, v.pending[id]? = some request →
    Issued v id ∧ 1 ≤ request.attempt
  invalid : ∀ id ∈ v.invalid, Issued v id ∧ v.pending[id]? = none
  completed : ∀ (id : RequestId) request, v.completed[id]? = some request →
    Issued v id ∧ v.pending[id]? = none ∧ id ∉ v.invalid

variable {v u : Requests E} {limit : ℕ} {ids : List RequestId} {id : RequestId}

/-! ### What moves keep -/

theorem not_issued_next : ¬ Issued v v.next := by
  rintro ⟨hzero, -, hlt⟩
  rcases hlt with hlt | hlt
  · exact hzero hlt
  · exact Nat.lt_irrefl _ hlt

theorem issued_nextId {request : PendingRequest E} (hopen : v.next ≠ 0)
    (hmax : v.next ≤ maxControlRequestId) (h : id = v.next ∨ Issued v id) :
    Issued { v with next := nextId v.next, pending := v.pending.insert v.next request } id := by
  unfold Issued nextId
  rcases h with rfl | ⟨hzero, hle, hlt⟩
  · refine ⟨hopen, hmax, ?_⟩
    split_ifs
    · exact .inl rfl
    · exact .inr (Nat.lt_succ_self _)
  · refine ⟨hzero, hle, ?_⟩
    split_ifs
    · exact .inl rfl
    · exact .inr (Nat.lt_succ_of_lt (hlt.resolve_left hopen))

theorem Issued.of_next {u' : Requests E} (h : Issued u id) (hnext : u'.next = u.next) :
    Issued u' id := by
  unfold Issued
  rw [hnext]
  exact h

theorem Issued.moves (h : Issued v id) (hmoves : Moves limit v ids u) : Issued u id := by
  induction hmoves with
  | refl => exact h
  | issue _ request hopen hmax _ _ ih => exact issued_nextId hopen hmax (.inr ih)
  | withdraw _ hnext _ _ _ ih | finish _ _ _ hnext _ _ _ ih => exact ih.of_next hnext

/-- A request that was issued and is not pending never becomes pending again. -/
theorem Moves.settled (hmoves : Moves limit v ids u) (hissued : Issued v id)
    (hnone : v.pending[id]? = none) : u.pending[id]? = none := by
  induction hmoves with
  | refl => exact hnone
  | @issue ids u h request hopen hmax _ _ ih =>
    have hother : u.next ≠ id := by
      rintro rfl
      exact not_issued_next (hissued.moves h)
    rw [get?_insert_ne hother]
    exact ih
  | withdraw _ _ hpend _ _ ih =>
    cases hreq : (_ : Requests E).pending[id]? with
    | none => rfl
    | some request =>
      rw [hpend id request hreq] at ih
      cases ih
  | finish _ other _ _ hpend _ _ ih =>
    rw [hpend]
    exact get?_erase_none ih

theorem RequestLaw.issue (h : RequestLaw u) (request : PendingRequest E) (hopen : u.next ≠ 0)
    (hmax : u.next ≤ maxControlRequestId) (hfirst : 1 ≤ request.attempt) :
    RequestLaw { u with next := nextId u.next, pending := u.pending.insert u.next request } := by
  have hkeep : ∀ {id}, Issued u id → Issued { u with
      next := nextId u.next, pending := u.pending.insert u.next request } id :=
    fun hissued => issued_nextId hopen hmax (.inr hissued)
  have hother : ∀ {id}, Issued u id → u.next ≠ id := by
    rintro id hissued rfl
    exact not_issued_next hissued
  refine ⟨fun id pending hpend => ?_, fun id hid => ?_, fun id completed hid => ?_⟩
  · rw [get?_insert_eq] at hpend
    split_ifs at hpend with hsame
    · cases hpend
      exact ⟨issued_nextId hopen hmax (.inl hsame.symm), hfirst⟩
    · obtain ⟨hissued, hattempt⟩ := h.pending id pending hpend
      exact ⟨hkeep hissued, hattempt⟩
  · obtain ⟨hissued, hnone⟩ := h.invalid id hid
    refine ⟨hkeep hissued, ?_⟩
    rw [get?_insert_ne (hother hissued)]
    exact hnone
  · obtain ⟨hissued, hnone, hinv⟩ := h.completed id completed hid
    refine ⟨hkeep hissued, ?_, hinv⟩
    rw [get?_insert_ne (hother hissued)]
    exact hnone

theorem RequestLaw.moves (h : RequestLaw v) (hmoves : Moves limit v ids u) : RequestLaw u := by
  induction hmoves with
  | refl => exact h
  | issue _ request hopen hmax hfirst _ ih => exact ih.issue request hopen hmax hfirst
  | @withdraw ids u u' _ hnext hpend hinv hcompleted ih =>
    have hgone : ∀ {id : RequestId}, u.pending[id]? = none → u'.pending[id]? = none := by
      intro id hnone
      cases hreq : u'.pending[id]? with
      | none => rfl
      | some request => exact absurd (hpend id request hreq) (by rw [hnone]; exact nofun)
    refine ⟨fun id pending hid => ?_, fun id hid => ?_, fun id completed hid => ?_⟩
    · obtain ⟨hissued, hattempt⟩ := ih.pending id pending (hpend id pending hid)
      exact ⟨hissued.of_next hnext, hattempt⟩
    · rcases hinv id hid with hold | ⟨hsome, hnone⟩
      · obtain ⟨hissued, hnone⟩ := ih.invalid id hold
        exact ⟨hissued.of_next hnext, hgone hnone⟩
      · obtain ⟨request, hreq⟩ := Option.isSome_iff_exists.mp hsome
        exact ⟨(ih.pending id request hreq).1.of_next hnext, hnone⟩
    · obtain ⟨hissued, hnone, hnot⟩ := ih.completed id completed (hcompleted id completed hid)
      refine ⟨hissued.of_next hnext, hgone hnone, fun hmem => ?_⟩
      rcases hinv id hmem with hold | ⟨hsome, -⟩
      · exact hnot hold
      · rw [hnone] at hsome
        cases hsome
  | @finish ids u u' _ id hid hnext hpend hinv hcompleted ih =>
    have hgone : ∀ {other : RequestId}, u.pending[other]? = none → u'.pending[other]? = none := by
      intro other hnone
      rw [hpend]
      exact get?_erase_none hnone
    refine ⟨fun other pending hother => ?_, fun other hother => ?_,
      fun other completed hother => ?_⟩
    · rw [hpend] at hother
      obtain ⟨hissued, hattempt⟩ := ih.pending other pending (of_get?_erase hother)
      exact ⟨hissued.of_next hnext, hattempt⟩
    · obtain ⟨hissued, hnone⟩ := ih.invalid other (hinv other hother)
      exact ⟨hissued.of_next hnext, hgone hnone⟩
    · rcases hcompleted other completed hother with rfl | hold
      · obtain ⟨request, hreq⟩ := Option.isSome_iff_exists.mp hid
        refine ⟨(ih.pending other request hreq).1.of_next hnext, ?_, fun hmem => ?_⟩
        · rw [hpend, get?_erase_eq, if_pos rfl]
        · have hnone := (ih.invalid other (hinv other hmem)).2
          rw [hreq] at hnone
          cases hnone
      · obtain ⟨hissued, hnone, hnot⟩ := ih.completed other completed hold
        exact ⟨hissued.of_next hnext, hgone hnone, fun hmem => hnot (hinv other hmem)⟩

/-- The identifiers that are issued increase, and none of them was issued before. -/
theorem Moves.increasing (h : Moves limit v ids u) :
    ids.Pairwise (· < ·) ∧ ∀ id ∈ ids, ¬ Issued v id ∧ Issued u id := by
  induction h with
  | refl => exact ⟨.nil, nofun⟩
  | @issue ids u h request hopen hmax _ _ ih =>
    obtain ⟨hsorted, hfresh⟩ := ih
    refine ⟨?_, fun id hid => ?_⟩
    · rw [pairwise_append]
      refine ⟨hsorted, pairwise_singleton _ _, fun a ha b hb => ?_⟩
      rw [mem_singleton] at hb
      subst hb
      exact (hfresh a ha).2.2.2.resolve_left hopen
    · rcases mem_append.mp hid with hid | hid
      · exact ⟨(hfresh id hid).1, issued_nextId hopen hmax (.inr (hfresh id hid).2)⟩
      · rw [mem_singleton] at hid
        subst hid
        refine ⟨fun hissued => not_issued_next (hissued.moves h), ?_⟩
        exact issued_nextId hopen hmax (.inl rfl)
  | withdraw _ hnext _ _ _ ih | finish _ _ _ hnext _ _ _ ih =>
    exact ⟨ih.1, fun id hid => ⟨(ih.2 id hid).1, (ih.2 id hid).2.of_next hnext⟩⟩

theorem Moves.attempt (h : Moves limit v ids u) {request : PendingRequest E}
    (hreq : u.pending[id]? = some request) :
    v.pending[id]? = some request ∨ request.attempt ≤ limit := by
  induction h with
  | refl => exact .inl hreq
  | issue _ _ _ _ _ hlim ih =>
    rw [get?_insert_eq] at hreq
    split_ifs at hreq
    · cases hreq
      exact .inr hlim
    · exact ih hreq
  | withdraw _ _ hpend _ _ ih => exact ih (hpend id request hreq)
  | finish _ _ _ _ hpend _ _ ih =>
    rw [hpend] at hreq
    exact ih (of_get?_erase hreq)

/-! ## What a call does to the tables -/

def CoordinatorReply.messages : CoordinatorReply E → List (RemoteEnvelope E)
  | .envelopes messages => messages
  | _ => []

/-- The envelopes that a result sends: those it returns and those it puts into the outbox. -/
def sentBy (c : RemoteCoordinator E) :
    EStateM.Result RemoteError (RemoteCoordinator E) (CoordinatorReply E) → List (RemoteEnvelope E)
  | .ok reply c' => reply.messages ++ c'.controlOutbox.drop c.controlOutbox.length
  | .error _ c' => c'.controlOutbox.drop c.controlOutbox.length

/-- The envelopes that a call sends; draining the outbox sends nothing new. -/
def CoordinatorCall.sent [DecidableEq E] (codec : EventCodec E) (call : CoordinatorCall E)
    (c : RemoteCoordinator E) : List (RemoteEnvelope E) :=
  match call with
  | .drainControlMessages => []
  | call => sentBy c (call.perform codec c)

namespace RemoteCoordinator

variable {c c' : RemoteCoordinator E} {box : List (RemoteEnvelope E)} {shown : List RequestId}

/-- What was put into the outbox since it was `box` has identifiers of the list. -/
def Posts (box : List (RemoteEnvelope E)) (ids : List RequestId) (c : RemoteCoordinator E) : Prop :=
  ((c.controlOutbox.drop box.length).map RemoteEnvelope.requestId).Sublist ids

/-- What is known at a point of a call that began with the tables `v` and the outbox `box`: the
identifiers issued, and those put into the outbox. -/
def Tracked (limit : ℕ) (v : Requests E) (box : List (RemoteEnvelope E))
    (shown ids : List RequestId) (c : RemoteCoordinator E) : Prop :=
  Moves limit v ids c.requests ∧ Posts box shown c

theorem posts_self : Posts c.controlOutbox ids c := by
  unfold Posts
  rw [drop_length]
  exact nil_sublist _

theorem Posts.of_eq (h : Posts box shown c) (heq : c'.controlOutbox = c.controlOutbox) :
    Posts box shown c' := by
  unfold Posts
  rw [heq]
  exact h

theorem Tracked.start (limit : ℕ) (c : RemoteCoordinator E) :
    Tracked limit c.requests c.controlOutbox [] [] c :=
  ⟨.refl, posts_self⟩

/-- The tables and the outbox are as they were. -/
def Framed (c c' : RemoteCoordinator E) : Prop :=
  c'.requests = c.requests ∧ c'.controlOutbox = c.controlOutbox

theorem Framed.trans {c'' : RemoteCoordinator E} (h : Framed c c') (h' : Framed c' c'') :
    Framed c c'' :=
  ⟨h'.1.trans h.1, h'.2.trans h.2⟩

theorem Tracked.framed (h : Tracked limit v box shown ids c) (hframed : Framed c c') :
    Tracked limit v box shown ids c' :=
  ⟨hframed.1 ▸ h.1, h.2.of_eq hframed.2⟩

/-! ### Parts that leave the tables alone -/

section

variable (c : RemoteCoordinator E)

theorem remove_frame (sample : RemoteSample E) : Framed c (c.removeDiscarded sample) := by
  unfold removeDiscarded
  dsimp only
  split_ifs <;> exact ⟨rfl, rfl⟩

theorem samples_frame (discarded : List (RemoteSample E)) :
    Framed c (c.removeDiscardedSamples discarded) := by
  show Framed c (discarded.foldl removeDiscarded c)
  induction discarded generalizing c with
  | nil => exact ⟨rfl, rfl⟩
  | cons sample rest ih =>
    rw [foldl_cons]
    exact (remove_frame c sample).trans (ih _)

theorem abort_frame : Framed c c.abortSender := by
  unfold abortSender
  split
  · exact samples_frame c []
  · exact samples_frame _ _

theorem finishStop_frame : Framed c c.finishStop := by
  unfold finishStop
  split
  · exact abort_frame c
  · exact abort_frame c
  · exact ⟨rfl, rfl⟩

theorem recomputeAfter_frame : Framed c c.recomputePhaseAfterConfiguration := by
  unfold recomputePhaseAfterConfiguration
  split_ifs <;> exact ⟨rfl, rfl⟩

theorem advance_frame : Framed c c.advanceGracefulStopWorkers := by
  unfold advanceGracefulStopWorkers
  split <;> exact ⟨rfl, rfl⟩

end

theorem Recomputed.frame (h : Recomputed c c') : Framed c c' := by
  cases h with
  | failed _ _ => exact abort_frame c
  | finished _ _ => exact finishStop_frame c
  | _ => exact ⟨rfl, rfl⟩

theorem recompute_frame (c : RemoteCoordinator E) : Framed c c.recomputePhase :=
  (advance_frame c).trans (recomputeFor_cases _).frame

/-! ### Histories -/

theorem get?_trimKeys {V : Type} {maximum : ℕ} {m : ExtTreeMap RequestId V} {value : V}
    (h : (trimKeys maximum m)[id]? = some value) : m[id]? = some value := by
  unfold trimKeys at h
  generalize m.keys.take (m.size - maximum) = keys at h
  induction keys generalizing m with
  | nil => exact h
  | cons key keys ih => exact of_get?_erase (ih h)

variable {s : ExtTreeSet RequestId} {plan : PlanDescriptor} {properties : PropertySet}
  {sample : RemoteSample E}

theorem mem_trimIds {maximum : ℕ} (h : id ∈ trimIds maximum s) : id ∈ s := by
  unfold trimIds at h
  generalize s.toList.take (s.size - maximum) = ids at h
  induction ids generalizing s with
  | nil => exact h
  | cons first ids ih => exact ExtTreeSet.mem_of_mem_erase (ih h)

theorem mem_foldl_insert : id ∈ ids.foldl ExtTreeSet.insert s ↔ id ∈ ids ∨ id ∈ s := by
  induction ids generalizing s with
  | nil => simp
  | cons first ids ih =>
    rw [foldl_cons, ih, ExtTreeSet.mem_insert, mem_cons, compare_iff]
    constructor
    · rintro (h | rfl | h)
      · exact .inl (.inr h)
      · exact .inl (.inl rfl)
      · exact .inr h
    · rintro ((rfl | h) | h)
      · exact .inr (.inl rfl)
      · exact .inl h
      · exact .inr (.inr h)

theorem Tracked.trim (h : Tracked limit v box shown ids c) :
    Tracked limit v box shown ids c.trimRequestHistory := by
  refine ⟨.withdraw h.1 rfl (fun _ _ => id) (fun other hother => .inl ?_) ?_, h.2⟩
  · exact mem_trimIds hother
  · exact fun other request hreq => get?_trimKeys hreq

/-! ### Requests -/

theorem Tracked.cancel (h : Tracked limit v box shown ids c) (p : PendingRequest E → Bool) :
    Tracked limit v box shown ids (c.cancelPending p) := by
  refine ⟨.withdraw h.1 rfl (fun other request hreq => ?_) (fun other hother => ?_) ?_, h.2⟩
  · have hkept : (c.pendingRequests.filter fun _ request => !p request)[other]? = some request :=
      hreq
    rw [ExtTreeMap.getElem?_filter'] at hkept
    exact (Option.filter_eq_some_iff.mp hkept).1
  · have hinsert := mem_trimIds hother
    rw [mem_foldl_insert] at hinsert
    rcases hinsert with hcancelled | hold
    · obtain ⟨entry, hentry, rfl⟩ := mem_map.mp hcancelled
      obtain ⟨hentry, hp⟩ := mem_filter.mp hentry
      rw [ExtTreeMap.mem_toList_iff_getElem?_eq_some] at hentry
      refine .inr ⟨?_, ?_⟩
      · show c.pendingRequests[entry.1]?.isSome = true
        rw [hentry]
        rfl
      · show (c.pendingRequests.filter fun _ request => !p request)[entry.1]? = none
        rw [ExtTreeMap.getElem?_filter', hentry, Option.filter_some, hp]
        rfl
    · exact .inl hold
  · exact fun other request hreq => get?_trimKeys hreq

/-- An envelope takes the next identifier. -/
theorem envelope_cases (message : RemoteMessage E) (c : RemoteCoordinator E) :
    envelope message c = .error exhausted c ∨
      c.nextRequestId ≠ 0 ∧ c.nextRequestId ≤ maxControlRequestId ∧
        envelope message c = .ok ⟨c.nextRequestId, message⟩
          { c with nextRequestId := nextId c.nextRequestId } := by
  unfold envelope
  by_cases hclosed : c.nextRequestId = 0 ∨ maxControlRequestId < c.nextRequestId
  · exact .inl (if_pos hclosed)
  · rw [if_neg hclosed]
    rw [not_or, Nat.not_lt] at hclosed
    exact .inr ⟨hclosed.1, hclosed.2, rfl⟩

theorem issue_cases (worker : WorkerId) (stage : AckStage) (message : RemoteMessage E)
    (c : RemoteCoordinator E) : issue worker stage message c = .error exhausted c ∨
      c.nextRequestId ≠ 0 ∧ c.nextRequestId ≤ maxControlRequestId ∧
        issue worker stage message c = .ok ⟨c.nextRequestId, message⟩
          { c with
            nextRequestId := nextId c.nextRequestId
            pendingRequests :=
              c.pendingRequests.insert c.nextRequestId ⟨worker, stage, 1, message⟩ } := by
  unfold issue
  rcases envelope_cases message c with herr | ⟨hopen, hmax, hok⟩
  · rw [run_bind_error herr]
    exact .inl rfl
  · rw [run_bind_ok hok]
    exact .inr ⟨hopen, hmax, rfl⟩

variable {worker : WorkerId} {stage : AckStage} {message : RemoteMessage E}
  {workers : List WorkerId} {requestId : RequestId} {codec : EventCodec E} {ack : Acknowledgement}

/-- A request is issued; the outbox is not touched. -/
theorem issue_triple (hlim : 1 ≤ limit) :
    Triple (Tracked limit v box shown ids) (issue worker stage message)
      (fun request => Tracked limit v box shown (ids ++ [request.requestId]))
      (fun _ => Tracked limit v box shown ids) := by
  rintro c ⟨hmoves, hposts⟩
  rcases issue_cases worker stage message c with herr | ⟨hopen, hmax, hok⟩
  · rw [herr]
    exact ⟨hmoves, hposts⟩
  · rw [hok]
    exact ⟨.issue hmoves ⟨worker, stage, 1, message⟩ hopen hmax (Nat.le_refl 1) hlim, hposts⟩

/-- From here on, the identifiers of the envelopes of a computation are those that it issues. -/
def Issues (limit : ℕ) (v : Requests E) (box : List (RemoteEnvelope E)) (ids : List RequestId)
    (m : Coordinating E (List (RemoteEnvelope E))) : Prop :=
  Triple (Tracked limit v box [] ids) m
    (fun requests => Tracked limit v box [] (ids ++ requests.map RemoteEnvelope.requestId))
    (fun _ c => ∃ ids, Tracked limit v box [] ids c)

theorem issues_nil : Issues limit v box ids (pure []) := by
  refine .pure fun c hc => ?_
  rw [map_nil, append_nil]
  exact hc

theorem issue_or (hlim : 1 ≤ limit) :
    Triple (Tracked limit v box [] ids) (issue worker stage message)
      (fun request => Tracked limit v box [] (ids ++ [request.requestId]))
      (fun _ c => ∃ ids, Tracked limit v box [] ids c) :=
  (issue_triple hlim).weaken (fun _ => id) (fun _ _ => id) fun _ _ h => ⟨_, h⟩

theorem issueAll_issues (hlim : 1 ≤ limit) :
    Issues limit v box ids (issueAll stage message workers) := by
  induction workers generalizing ids with
  | nil => exact issues_nil
  | cons worker rest ih =>
    refine .bind (issue_or hlim) fun request => .bind ih fun requests =>
      .pure fun c hc => ?_
    rw [append_assoc] at hc
    exact hc

theorem workers_issues (hlim : 1 ≤ limit) {profile : ProfileDescriptor} :
    Issues limit v box ids (configureWorkers profile plan properties workers) := by
  induction workers generalizing ids with
  | nil => exact issues_nil
  | cons worker rest ih =>
    refine .bind (issue_or hlim) fun first => .bind (issue_or hlim) fun second =>
      .bind (issue_or hlim) fun third => .bind (.keep fun _ => id) fun _ => .bind ih
      fun requests => .pure fun c hc => ?_
    simp only [append_assoc, singleton_append] at hc
    exact hc

/-! ### Methods -/

/-- The messages, and what was put into the outbox, have identifiers that were issued one after
the other. -/
def Sends (limit : ℕ) (v : Requests E) (box messages : List (RemoteEnvelope E))
    (c : RemoteCoordinator E) : Prop :=
  ∃ shown ids, Tracked limit v box shown ids c ∧
    (messages.map RemoteEnvelope.requestId ++ shown).Sublist ids

theorem Tracked.quiet (h : Tracked limit v box [] ids c) : Sends limit v box [] c :=
  ⟨[], ids, h, nil_sublist _⟩

theorem Tracked.sends {messages : List (RemoteEnvelope E)}
    (h : Tracked limit v box [] (messages.map RemoteEnvelope.requestId) c) :
    Sends limit v box messages c := by
  refine ⟨[], _, h, ?_⟩
  rw [append_nil]

theorem configure_issues (hlim : 1 ≤ limit) :
    Issues limit v box ids (configure plan properties) := by
  refine .bind (.guard fun _ _ h => ⟨ids, h⟩) fun workers => .bind (.keep fun c hc => ?_)
    fun _ => .get fun c hc => (workers_issues hlim ).narrow fun s hs => hs ▸ hc
  refine ⟨.withdraw hc.1 rfl (fun id request h => absurd h get?_empty_ne)
    (fun _ => .inl) (fun _ _ => id), ?_⟩
  unfold Posts
  rw [show (c.beginConfiguration plan properties).controlOutbox = [] from rfl, drop_nil]
  exact nil_sublist _

theorem start_issues (hlim : 1 ≤ limit) {runId : RunId} {threadCount : ℕ}
    {mode : SampleSenderMode} : Issues limit v box ids (start runId threadCount mode) := by
  exact .bind (.guard fun _ _ h => ⟨ids, h⟩) fun (workers, _) => .bind (.keep fun _ => id)
    fun _ => issueAll_issues hlim

theorem Tracked.cancelForStop (h : Tracked limit v box shown ids c) (mode : StopMode) :
    Tracked limit v box shown ids (c.cancelForStop mode) := by
  have hstart : Tracked limit v box shown ids
      (if c.phase = .starting then c.cancelPendingStartRequests else c) := by
    split_ifs
    · exact h.cancel _
    · exact h
  unfold RemoteCoordinator.cancelForStop
  generalize (if c.phase = .starting then c.cancelPendingStartRequests else c) = started at hstart ⊢
  split_ifs
  · exact hstart.cancel _
  · exact hstart

theorem stop_issues (hlim : 1 ≤ limit) {mode : StopMode} : Issues limit v box ids (stop mode) := by
  refine .bind (.guard fun _ _ h => ⟨ids, h⟩) fun plan => ?_
  rcases plan with _ | ⟨runId, workers⟩
  · exact issues_nil
  · exact .bind (.keep fun c hc => hc.cancelForStop mode) fun _ =>
      .bind (issueAll_issues hlim) fun requests =>
      .bind (.keep fun c hc => hc.framed (recompute_frame c)) fun _ => .pure fun _ => id

/-- A retry withdraws the request and issues it again, with one more attempt. -/
theorem retry_triple : Triple (· = c) (retryRequest requestId)
      (fun request => Tracked c.retryPolicy.maxAttempts c.requests c.controlOutbox []
        [request.requestId])
      (fun _ => Tracked c.retryPolicy.maxAttempts c.requests c.controlOutbox [] []) := by
  rintro s rfl
  unfold retryRequest
  cases hpend : s.pendingRequests[requestId]? with
  | none => exact .start _ s
  | some pending =>
    dsimp only
    split_ifs with hattempt
    · exact .start _ s
    · have hless : pending.attempt + 1 ≤ s.retryPolicy.maxAttempts := Nat.lt_of_not_le hattempt
      rcases envelope_cases pending.message
        { s with pendingRequests := s.pendingRequests.erase requestId } with
        herr | ⟨hopen, hmax, hok⟩
      · rw [herr]
        refine ⟨.withdraw .refl rfl (fun id request h => ?_) (fun _ => .inl) (fun _ _ => id),
          posts_self⟩
        have hback : ((s.pendingRequests.erase requestId).insert requestId pending)[id]? =
          some request := h
        rw [get?_insert_eq] at hback
        split_ifs at hback with hsame
        · rw [← hsame]
          exact hpend.trans hback
        · exact of_get?_erase hback
      · rw [hok]
        let withdrawn : Requests E :=
          ⟨s.nextRequestId, s.pendingRequests.erase requestId,
            trimIds s.maxSamples (s.invalidRequests.insert requestId),
            trimKeys s.maxSamples s.completedRequests⟩
        have hwithdrawn : Moves s.retryPolicy.maxAttempts s.requests [] withdrawn := by
          refine .withdraw .refl rfl (fun _ _ => of_get?_erase) (fun id hid => ?_)
            fun id request h => get?_trimKeys h
          have hinsert := mem_trimIds hid
          rw [ExtTreeSet.mem_insert, compare_iff] at hinsert
          rcases hinsert with rfl | hold
          · refine .inr ⟨?_, ?_⟩
            · show s.pendingRequests[requestId]?.isSome = true
              rw [hpend]
              rfl
            · show (s.pendingRequests.erase requestId)[requestId]? = none
              rw [get?_erase_eq, if_pos rfl]
          · exact .inl hold
        exact ⟨.issue hwithdrawn ⟨pending.worker, pending.stage, pending.attempt + 1,
          pending.message⟩ hopen hmax (Nat.le_add_left 1 _) hless, posts_self⟩

/-- What was issued went through the outbox. -/
def Posted (limit : ℕ) (v : Requests E) (box : List (RemoteEnvelope E)) (c : RemoteCoordinator E) :
    Prop :=
  ∃ ids, Tracked limit v box ids ids c

theorem issue_posted (hlim : 1 ≤ limit) {runId : RunId} :
    Invariant (Posted limit v box) (issueFailFast runId workers) := by
  induction workers with
  | nil => exact .pure fun _ => id
  | cons worker rest ih =>
    refine .exists fun ids => .bind ((issue_triple hlim).weaken (fun _ => id)
      (fun _ _ => id) fun _ _ h => ⟨ids, h⟩) fun request => .bind (.modify fun c hc => ?_)
      fun _ => ih
    refine ⟨ids ++ [request.requestId], hc.1, ?_⟩
    show (((c.controlOutbox ++ [request]).drop box.length).map RemoteEnvelope.requestId).Sublist _
    rw [drop_append, map_append]
    refine hc.2.append ?_
    exact (drop_sublist _ _).map _

theorem failFast_posted (hlim : 1 ≤ limit) : Invariant (Posted limit v box) beginFailFastStop := by
  intro c hc
  unfold beginFailFastStop
  split_ifs
  · exact hc
  · exact hc
  · cases c.checkFailFast with
    | error e => exact hc
    | ok plan =>
      obtain ⟨runId, workers⟩ := plan
      refine Triple.bind (issue_posted hlim) (fun _ => .modify fun c hc => ?_)
        { c with stopCause := some .failFast, phase := .stopping } hc
      unfold endFailFast
      dsimp only
      split_ifs <;> exact hc

theorem fail_posted (hlim : 1 ≤ limit) {runId : Option RunId} :
    Invariant (Posted limit v box) (failWorker worker runId) := by
  refine .bind (.guard fun _ _ => id) fun failed => .ite (fun _ => .pure fun _ => id)
    fun _ => .bind (.keep fun c ⟨ids, hc⟩ => ?_) fun _ => .get fun c ⟨ids, hc⟩ => ?_
  · have hfailed : Tracked limit v box ids ids (c.setWorkerPhase worker .failed) := hc
    exact ⟨ids, hfailed.cancel _⟩
  · refine .ite (fun _ => .bind (.modify fun s hs => ⟨ids, ?_⟩) fun _ =>
      failFast_posted hlim) fun _ => .modify fun s hs => ⟨ids, ?_⟩
    · subst hs
      exact hc.framed (recompute_frame _)
    · subst hs
      exact hc.cancel _

/-! ### Acknowledgements and samples -/

theorem record_tracked [DecidableEq E] :
    Invariant (Tracked limit v box shown ids) (recordSample codec sample) := by
  intro c hc
  have hcases := recordSample_cases codec sample c
  generalize recordSample codec sample c = result at hcases ⊢
  cases hcases with
  | @accepted _ budget sender _ _ _ _ =>
    have hsame : Framed c (c.acceptSample sample budget sender) := ⟨rfl, rfl⟩
    exact hc.framed (hsame.trans (recompute_frame _))
  | _ => exact hc

theorem request_pending (h : c.checkRequest ack = .ok false) :
    ∃ pending, c.pendingRequests[ack.requestId]? = some pending ∧ pending.worker = ack.worker ∧
      pending.stage = ack.stage ∧ c.phaseOf ack.worker ≠ some .failed ∧
      c.workers.contains ack.worker = true := by
  unfold checkRequest at h
  rw [ite_error_ok, ite_error_ok] at h
  obtain ⟨-, hfailed, h⟩ := h
  split at h
  · split_ifs at h
    cases h
  · split at h
    · cases h
    · rename_i pending hpend
      rw [ite_error_ok, ite_error_ok, not_or, not_not, not_not, Bool.not_eq_false] at h
      exact ⟨pending, hpend, h.1.1, h.1.2, hfailed, h.2.1⟩

theorem configured_frame {stages : List AckStage} : Framed c (c.noteConfigured worker stages) := by
  unfold noteConfigured
  split_ifs <;> exact ⟨rfl, rfl⟩

theorem stopped_frame {watermark : ℕ} : Framed c (c.noteStopped worker watermark) := by
  unfold noteStopped
  dsimp only
  split_ifs <;> exact ⟨rfl, rfl⟩

/-- The request of an acknowledgement is pending. -/
def Expects (limit : ℕ) (v : Requests E) (box : List (RemoteEnvelope E))
    (shown ids : List RequestId) (ack : Acknowledgement) (c : RemoteCoordinator E) : Prop :=
  Tracked limit v box shown ids c ∧ c.pendingRequests[ack.requestId]?.isSome = true

/-- The request of an acknowledgement is still pending when its stage has been noted. -/
theorem ackStage_expects : Triple (Expects limit v box shown ids ack) (ackStage ack)
      (fun _ => Expects limit v box shown ids ack) (fun _ => Tracked limit v box shown ids) := by
  rintro c ⟨hc, hpend⟩
  have hkeep {c' : RemoteCoordinator E} (hframed : Framed c c') :
      Expects limit v box shown ids ack c' := by
    refine ⟨hc.framed hframed, ?_⟩
    rw [show c'.pendingRequests = c.pendingRequests from congrArg Requests.pending hframed.1]
    exact hpend
  have hcases := ackStage_cases ack c
  generalize ackStage ack c = result at hcases ⊢
  cases hcases with
  | refused e => exact hc
  | early e _ => exact hc
  | configured stages _ _ =>
    exact hkeep configured_frame
  | started _ _ => exact hkeep ⟨rfl, rfl⟩
  | stopped watermark _ _ => exact hkeep stopped_frame

theorem Tracked.complete {ack : Acknowledgement} (h : Tracked limit v box shown ids c)
    (hpend : c.pendingRequests[ack.requestId]?.isSome = true) :
    Tracked limit v box shown ids (c.complete ack) := by
  have hframed := (recompute_frame c).trans (recomputeAfter_frame _)
  have hphase := h.framed hframed
  have hsame := congrArg Requests.pending hframed.1
  unfold RemoteCoordinator.complete
  generalize c.recomputePhase.recomputePhaseAfterConfiguration = d at hphase hsame ⊢
  refine Tracked.trim ⟨.finish hphase.1 ack.requestId ?_ rfl rfl (fun _ => id) ?_, hphase.2⟩
  · rw [hsame]
    exact hpend
  · intro other request hreq
    have hinsert : (d.completedRequests.insert ack.requestId ack.completed)[other]? =
      some request := hreq
    rw [get?_insert_eq] at hinsert
    split_ifs at hinsert with hid
    · exact .inl hid.symm
    · exact .inr hinsert

theorem applyAck_tracked : Invariant (Tracked limit v box shown ids) (applyAck ack) := by
  refine .bind (.check fun _ _ => id) fun completed => .ite (fun _ => .pure fun _ => And.left)
    fun hnot => .bind (ackStage_expects.narrow fun c ⟨hc, hcheck⟩ => ⟨hc, ?_⟩)
    fun _ => .modify fun c ⟨hc, hpend⟩ => hc.complete hpend
  rw [Bool.not_eq_true] at hnot
  rw [hnot] at hcheck
  obtain ⟨pending, hpend, -⟩ := request_pending hcheck
  rw [hpend]
  rfl

theorem sample_tracked [DecidableEq E] :
    Invariant (Tracked limit v box shown ids) (applySample codec requestId sample) :=
  .bind (.guard fun _ _ => id) fun _ => .bind record_tracked fun _ =>
    .bind (.keep fun _ => id) fun _ => .pure fun _ => id

/-- What keeps each list of identifiers. -/
theorem Posted.of_tracked {α : Type} {m : Coordinating E α}
    (hm : ∀ ids, Invariant (Tracked limit v box ids ids) m) : Invariant (Posted limit v box) m :=
  .exists fun ids => Triple.weaken (hm ids) (fun _ => id) (fun _ _ h => ⟨ids, h⟩)
    fun _ _ h => ⟨ids, h⟩

theorem handle_posted [DecidableEq E] (hlim : 1 ≤ limit) :
    Invariant (Posted limit v box) (handle codec requestId message) := by
  cases message with
  | ack worker stage runId threadCount watermark =>
    exact .bind (Posted.of_tracked fun ids => applyAck_tracked) fun _ => .pure fun _ => id
  | sample sample => exact Posted.of_tracked fun ids => sample_tracked
  | failure worker runId _ =>
    exact .bind (fail_posted hlim) fun _ => .pure fun _ => id
  | _ => exact .throw fun _ => id

/-! ### Every call -/

/-- What a result sends has identifiers that were issued one after the other. -/
def SendSpec (limit : ℕ) (c : RemoteCoordinator E) :
    EStateM.Result RemoteError (RemoteCoordinator E) (CoordinatorReply E) → Prop
  | .ok reply c' => Sends limit c.requests c.controlOutbox reply.messages c'
  | .error _ c' => Sends limit c.requests c.controlOutbox [] c'

theorem send_envelopes {m : Coordinating E (List (RemoteEnvelope E))}
    (hm : Issues limit c.requests c.controlOutbox [] m) :
    SendSpec limit c ((do return .envelopes (← m) : Coordinating E (CoordinatorReply E)) c) :=
  Triple.result hm (.start _ c) (fun _ _ h => Tracked.sends h) fun _ _ ⟨_, h⟩ => h.quiet

/-- A computation that returns no envelopes. -/
theorem send_quiet {α : Type} {m : Coordinating E α} {reply : α → CoordinatorReply E}
    (hreply : ∀ a, (reply a).messages = [])
    (hm : Invariant (Posted limit c.requests c.controlOutbox) m) :
    SendSpec limit c ((do return reply (← m) : Coordinating E (CoordinatorReply E)) c) := by
  refine Triple.result hm ⟨[], .start _ c⟩ (fun a c' ⟨ids, hids⟩ => ⟨ids, ids, hids, ?_⟩)
    fun _ _ ⟨ids, hids⟩ => ⟨ids, ids, hids, List.Sublist.refl _⟩
  rw [hreply]
  exact List.Sublist.refl _

theorem send_setter {α : Type} {f : RemoteCoordinator E → Except RemoteError α}
    {g : α → RemoteCoordinator E → RemoteCoordinator E}
    (hg : ∀ {ids} a s, Tracked limit c.requests c.controlOutbox ids ids s →
      Tracked limit c.requests c.controlOutbox ids ids (g a s)) :
    SendSpec limit c ((do (do let a ← check f; modify (g a)); return .done :
      Coordinating E (CoordinatorReply E)) c) :=
  send_quiet (fun _ => rfl) (Posted.of_tracked fun _ => .bind (.check fun _ _ => id) fun a =>
    .modify fun s hs => hg a s hs.1)

theorem perform_sends [DecidableEq E] (codec : EventCodec E) {call : CoordinatorCall E}
    (hcall : call ≠ .drainControlMessages) (c : RemoteCoordinator E) :
    SendSpec (call.attemptLimit c) c (call.perform codec c) := by
  have hlim : 1 ≤ 1 := Nat.le_refl 1
  have hstart := Tracked.start 1 c
  cases call with
  | setFailurePolicy policy | setRetryPolicy policy => exact hstart.quiet
  | setConfigurationLimits limits | setCodecLimits limits | setMaxRetainedBytes maximum
  | addWorker worker => exact send_setter fun _ _ => id
  | setMaxSamples maximum => exact send_setter fun _ s hs => Tracked.trim hs
  | setBatchTimeMs threshold =>
    refine send_quiet (fun _ => rfl) fun s hs => ?_
    unfold setBatchTimeMs
    split_ifs <;> exact hs
  | drainControlMessages => exact absurd rfl hcall
  | configure plan properties =>
    exact send_envelopes (configure_issues hlim)
  | configurationComplete worker =>
    refine send_setter fun _ s hs => ?_
    refine Tracked.framed ?_ (recomputeAfter_frame _)
    split_ifs <;> exact hs
  | start runId threadCount mode =>
    exact send_envelopes (start_issues hlim)
  | stop mode => exact send_envelopes (stop_issues hlim)
  | retryRequest requestId =>
    exact retry_triple.result rfl (fun _ _ h => Tracked.sends h) fun _ _ h => h.quiet
  | workerFailed worker =>
    exact send_quiet (fun _ => rfl) (.get fun s hs =>
      Triple.narrow (fail_posted hlim) fun t ht => ht ▸ hs)
  | workerFailedForRun worker runId =>
    exact send_quiet (fun _ => rfl) (fail_posted hlim)
  | recordSample sample =>
    exact send_quiet (fun _ => rfl) (Posted.of_tracked fun _ =>
      record_tracked)
  | apply message =>
    exact send_quiet (fun _ => rfl) (.ite (fun _ => .throw fun _ => id) fun _ =>
      handle_posted hlim)
  | drainDeliveredSamples =>
    have hdrained : Tracked 1 c.requests c.controlOutbox [] [] c.drainDeliveredSamples.2 := by
      unfold drainDeliveredSamples
      split <;> exact hstart
    exact hdrained.quiet
  | advanceTime nowMs =>
    refine send_quiet (fun _ => rfl) fun s hs => ?_
    rcases time_cases nowMs s with ⟨e, herr⟩ | ⟨-, delivered, sender, -, -, hok⟩
    · rw [herr]
      exact hs
    · rw [hok]
      exact hs

end RemoteCoordinator

/-- **A call moves requests.**  What it sends has identifiers that it issues, in their order. -/
theorem CoordinatorCall.moves [DecidableEq E] (codec : EventCodec E) (call : CoordinatorCall E)
    (c : RemoteCoordinator E) :
    ∃ ids, Moves (call.attemptLimit c) c.requests ids (call.after codec c).requests ∧
      ((call.sent codec c).map RemoteEnvelope.requestId).Sublist ids := by
  by_cases hdrain : call = .drainControlMessages
  · subst hdrain
    exact ⟨[], .refl, List.Sublist.refl _⟩
  have hsent : call.sent codec c = sentBy c (call.perform codec c) := by
    unfold CoordinatorCall.sent
    split
    · exact absurd rfl hdrain
    · rfl
  have hspec := RemoteCoordinator.perform_sends codec hdrain c
  unfold CoordinatorCall.after
  rw [hsent]
  cases hresult : call.perform codec c with
  | ok reply c' =>
    rw [hresult] at hspec
    obtain ⟨shown, ids, ⟨hmoves, hposts⟩, hsub⟩ := hspec
    refine ⟨ids, hmoves, ?_⟩
    show (List.map _ (_ ++ _)).Sublist ids
    rw [map_append]
    exact ((List.Sublist.refl _).append hposts).trans hsub
  | error e c' =>
    rw [hresult] at hspec
    obtain ⟨shown, ids, ⟨hmoves, hposts⟩, hsub⟩ := hspec
    exact ⟨ids, hmoves, hposts.trans hsub⟩

theorem requestLaw_new {profile : ProfileDescriptor} :
    RequestLaw (RemoteCoordinator.new profile : RemoteCoordinator E).requests := by
  refine ⟨fun id request h => ?_, fun id h => ?_, fun id request h => ?_⟩
  · exact absurd h get?_empty_ne
  · exact absurd h ExtTreeSet.not_mem_empty
  · exact absurd h get?_empty_ne

section

variable [DecidableEq E] {codec : EventCodec E} {c c' : RemoteCoordinator E}

theorem CoordinatorRun.trans {c'' : RemoteCoordinator E} (h : CoordinatorRun codec c c')
    (h' : CoordinatorRun codec c' c'') : CoordinatorRun codec c c'' := by
  induction h' with
  | refl => exact h
  | call _ call ih => exact ih.call call

theorem CoordinatorRun.calls (calls : List (CoordinatorCall E)) (h : CoordinatorRun codec c c') :
    CoordinatorRun codec c (calls.foldl (fun c call => call.after codec c) c') := by
  induction calls generalizing c' with
  | nil => exact h
  | cons call calls ih => exact ih (h.call call)

section

variable (h : CoordinatorRun codec c c')

include h

theorem CoordinatorRun.requestLaw (hc : RequestLaw c.requests) : RequestLaw c'.requests := by
  induction h with
  | refl => exact hc
  | @call c' _ call ih =>
    obtain ⟨ids, hmoves, -⟩ := call.moves codec c'
    exact ih.moves hmoves

theorem CoordinatorRun.issued (hid : Issued c.requests id) : Issued c'.requests id := by
  induction h with
  | refl => exact hid
  | @call c' _ call ih =>
    obtain ⟨ids, hmoves, -⟩ := call.moves codec c'
    exact ih.moves hmoves

theorem CoordinatorRun.settled (hid : Issued c.requests id)
    (hnone : c.pendingRequests[id]? = none) : c'.pendingRequests[id]? = none := by
  induction h with
  | refl => exact hnone
  | @call c' hrun call ih =>
    obtain ⟨ids, hmoves, -⟩ := call.moves codec c'
    exact hmoves.settled (hrun.issued hid) ih

end

end

end JmeterRs.Remote
