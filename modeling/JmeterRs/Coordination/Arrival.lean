import JmeterRs.Coordination.Barrier

/-!
# What a call does to a barrier

A call touches the barrier of its own key only.  `BarrierState.view` is what the state says about
one key; `PollStep` lists everything a poll that does not fail can do to it, and `LeaveStep` what
`cancel` and `complete` can do.
-/

namespace JmeterRs.Coordination

open Std BarrierState ExtTreeMap
open Execution (ComponentError)

/-- What the state says about one key. -/
@[ext] structure BarrierView where
  slot : Option BarrierSlot
  /-- The generation of the slot, or of the next slot if there is none. -/
  next : CoordinationGeneration
  overflow : Bool
  lease : String → Option BarrierLease

def BarrierState.view (s : BarrierState) (key : BarrierKey) : BarrierView where
  slot := s.slots[key]?
  next := s.nextGeneration.getD key .initial
  overflow := s.generationOverflow.contains key
  lease participant := s.leases[(⟨key, participant⟩ : LeaseKey)]?

/-- Nothing is changed but what the view of `key` shows. -/
def Elsewhere (key : BarrierKey) (s s' : BarrierState) : Prop :=
  ∀ other, other ≠ key → s'.view other = s.view other

/-- As many participants are counted as there are leases. -/
def Counted (s : BarrierState) : Prop := s.participantCount = s.leases.size

variable {s s' : BarrierState} {key : BarrierKey} {participant : String}

/-! ## Single changes -/

theorem Elsewhere.trans {s'' : BarrierState} (h : Elsewhere key s s') (h' : Elsewhere key s' s'') :
    Elsewhere key s s'' :=
  fun other hother => (h' other hother).trans (h other hother)

theorem view_setSlot (s : BarrierState) (key : BarrierKey) (slot : BarrierSlot) :
    (s.setSlot key slot).view key = { s.view key with slot := some slot } := by
  simp [view, setSlot]

theorem else_setSlot {slot : BarrierSlot} : Elsewhere key s (s.setSlot key slot) := by
  intro other hother
  simp only [view, setSlot, get?_insert_ne hother.symm]

/-- Only the lease of one participant is changed. -/
theorem view_of_leases {leases : ExtTreeMap LeaseKey BarrierLease} {lease : Option BarrierLease}
    {participantCount : ℕ} (hlease : leases[(⟨key, participant⟩ : LeaseKey)]? = lease)
    (hothers : ∀ other : LeaseKey, ⟨key, participant⟩ ≠ other → leases[other]? = s.leases[other]?) :
    ({ s with leases, participantCount } : BarrierState).view key =
        { s.view key with lease := Function.update (s.view key).lease participant lease } ∧
      Elsewhere key s { s with leases, participantCount } := by
  constructor
  · ext1
    · rfl
    · rfl
    · rfl
    · funext other
      show _ = Function.update (s.view key).lease participant lease other
      rw [Function.update_apply]
      split_ifs with hother
      · rw [hother]
        exact hlease
      · exact hothers _ fun heq => hother (LeaseKey.mk.inj heq).2.symm
  · intro other hother
    ext1
    · rfl
    · rfl
    · rfl
    · funext name
      exact hothers _ fun heq => hother (LeaseKey.mk.inj heq).1.symm

def BarrierState.leased (s : BarrierState) (key : BarrierKey) (participant : String)
    (generation : CoordinationGeneration) : BarrierState :=
  { s with leases := s.leases.insert ⟨key, participant⟩ ⟨generation⟩,
           participantCount := s.participantCount + 1 }

theorem view_leased (s : BarrierState) (key : BarrierKey) (participant : String)
    (generation : CoordinationGeneration) : (s.leased key participant generation).view key =
        { s.view key with
          lease := Function.update (s.view key).lease participant (some ⟨generation⟩) } ∧
      Elsewhere key s (s.leased key participant generation) :=
  view_of_leases getElem?_insert_self fun _ hne => get?_insert_ne hne ..

theorem view_unleased (s : BarrierState) (key : BarrierKey) (participant : String) :
    (s.unleased key participant).view key =
        { s.view key with lease := Function.update (s.view key).lease participant none } ∧
      Elsewhere key s (s.unleased key participant) :=
  view_of_leases getElem?_erase_self fun _ hne => get?_erase_ne hne

variable {generation : CoordinationGeneration} {now expected : ℕ} {slot : BarrierSlot}
  {limits : BarrierLimits} {deadline : Option ℕ} {request : SynchronizingRequest}

theorem Counted.leased (h : Counted s) (hlease : (s.view key).lease participant = none) :
    Counted (s.leased key participant generation) := by
  show s.participantCount + 1 = (s.leases.insert ⟨key, participant⟩ ⟨generation⟩).size
  rw [size_insert_new hlease, h]

/-- The state once the generation of a key has been looked up: a key that was never used is
entered with the first. -/
def BarrierState.entered (s : BarrierState) (key : BarrierKey) : BarrierState :=
  if s.nextGeneration.contains key then s
  else { s with nextGeneration := s.nextGeneration.insert key .initial }

theorem generationFor_eq : generationFor key s = .ok (s.view key).next (s.entered key) := by
  unfold generationFor entered
  rw [contains_eq_isSome_getElem?]
  cases hnext : s.nextGeneration[key]? <;>
    simp [view, getD_eq_getD_getElem?, hnext]

/-- No view shows that a key is entered. -/
theorem view_entered (s : BarrierState) (key k : BarrierKey) :
    (s.entered key).view k = s.view k := by
  unfold entered
  split_ifs with hknown
  · rfl
  · rw [contains_eq_isSome_getElem?, Option.not_isSome_iff_eq_none] at hknown
    ext1
    · rfl
    · by_cases hk : key = k
      · subst hk
        simp [view, getD_eq_getD_getElem?, hknown]
      · simp only [view, getD_eq_getD_getElem?, get?_insert_ne hk]
    · rfl
    · rfl

theorem counted_entered (h : Counted s) : Counted (s.entered key) := by
  unfold entered
  split_ifs <;> exact h

/-! ## Polls -/

/-- The slot that the first participant of a generation finds. -/
def freshSlot (generation : CoordinationGeneration) (expected : ℕ) (deadline : Option ℕ) :
    BarrierSlot :=
  ⟨generation, expected, deadline, ∅, ∅, none⟩

/-- The slot after a participant has joined it. -/
def BarrierSlot.joined (slot : BarrierSlot) (participant : String) (waker : Waker) : BarrierSlot :=
  let arrivals := slot.arrivals.insert participant waker
  { slot with arrivals, outcome := if slot.expected ≤ arrivals.size then some .released else none }

/-- Everything a poll can do that does not fail. -/
inductive PollStep (participant : String) (now : ℕ) (v : BarrierView) :
    Option SynchronizingOutcome → BarrierView → Prop
  /-- Its lease waits on. -/
  | again {slot : BarrierSlot} (waker : Waker) (hslot : v.slot = some slot)
      (hlease : v.lease participant ≠ none) (houtcome : slot.outcome = none)
      (harrived : slot.arrivals.contains participant = true) :
      PollStep participant now v none
        { v with slot := some { slot with arrivals := slot.arrivals.insert participant waker } }
  /-- The generation has its outcome. -/
  | told {slot : BarrierSlot} {outcome : SynchronizingOutcome} (hslot : v.slot = some slot)
      (hlease : v.lease participant ≠ none) (houtcome : slot.outcome = some outcome) :
      PollStep participant now v (some outcome) v
  /-- The deadline has passed for the whole generation. -/
  | expired {slot : BarrierSlot} (hslot : v.slot = some slot)
      (hlease : v.lease participant ≠ none) (houtcome : slot.outcome = none) :
      PollStep participant now v (some .timedOut)
        { v with slot := some { slot with outcome := some .timedOut } }
  /-- The generation has timed out before the participant came. -/
  | late {slot : BarrierSlot} (hslot : v.slot = some slot) (hlease : v.lease participant = none)
      (houtcome : slot.outcome = some .timedOut) :
      PollStep participant now v (some .timedOut)
        { v with slot := some { slot with retired := slot.retired.insert participant } }
  /-- A new participant finds that the deadline has passed. -/
  | expiredNew {slot : BarrierSlot} (hslot : v.slot = some slot)
      (hlease : v.lease participant = none) (houtcome : slot.outcome = none) :
      PollStep participant now v (some .timedOut)
        { v with slot := some { slot with outcome := some .timedOut },
                 lease := Function.update v.lease participant (some ⟨v.next⟩) }
  /-- A new participant joins the open slot before its deadline. -/
  | joined {slot : BarrierSlot} (waker : Waker) (hslot : v.slot = some slot)
      (hlease : v.lease participant = none) (houtcome : slot.outcome = none)
      (htime : slot.expired now = false) :
      PollStep participant now v (slot.joined participant waker).outcome
        { v with slot := some (slot.joined participant waker),
                 lease := Function.update v.lease participant (some ⟨v.next⟩) }
  /-- The first participant opens a slot. -/
  | opened {expected : ℕ} {deadline : Option ℕ} (waker : Waker) (hslot : v.slot = none)
      (hlease : v.lease participant = none) (hoverflow : v.overflow = false)
      (hexpected : 0 < expected)
      (htime : (freshSlot v.next expected deadline).expired now = false) :
      PollStep participant now v
        ((freshSlot v.next expected deadline).joined participant waker).outcome
        { v with slot := some ((freshSlot v.next expected deadline).joined participant waker),
                 lease := Function.update v.lease participant (some ⟨v.next⟩) }

/-- What a poll does, failing or not. -/
def PollSpec (key : BarrierKey) (participant : String) (now : ℕ) (s : BarrierState) :
    EStateM.Result ComponentError BarrierState Arrival → Prop
  | .ok arrival s' =>
    PollStep participant now (s.view key) arrival.1 (s'.view key) ∧ Elsewhere key s s' ∧
      (Counted s → Counted s')
  | .error _ s' => (∀ k, s'.view k = s.view k) ∧ (Counted s → Counted s')

theorem PollSpec.refused {e : ComponentError} : PollSpec key participant now s (.error e s) :=
  ⟨fun _ => rfl, id⟩

variable {s₁ : BarrierState} {outcome : SynchronizingOutcome} {waker : Waker} {after : BarrierSlot}

/-- A poll from a state that looks the same. -/
theorem PollSpec.of_view
    {result : EStateM.Result ComponentError BarrierState Arrival}
    (h : PollSpec key participant now s₁ result) (hview : ∀ k, s₁.view k = s.view k)
    (hcounted : Counted s → Counted s₁) : PollSpec key participant now s result := by
  cases result with
  | ok arrival s' =>
    obtain ⟨hstep, helse, hcount⟩ := h
    refine ⟨hview key ▸ hstep, fun other hother => ?_, hcount ∘ hcounted⟩
    rw [helse other hother, hview]
  | error e s' =>
    obtain ⟨hsame, hcount⟩ := h
    refine ⟨fun k => ?_, hcount ∘ hcounted⟩
    rw [hsame, hview]

/-- After a successful bump only the generation of the waits differs. -/
theorem bump_cases (s : BarrierState) :
    (∃ generation, bumpBarrierWaitGeneration s = .ok () { s with waitGeneration := generation }) ∨
    ∃ e, bumpBarrierWaitGeneration s = .error e { s with waitGenerationOverflow := true } := by
  unfold bumpBarrierWaitGeneration
  cases s.waitGeneration.next with
  | some next => exact .inl ⟨next, rfl⟩
  | none => exact .inr ⟨_, rfl⟩

theorem PollSpec.bump {m : Barrier Arrival} (h : ∀ generation,
      PollSpec key participant now s (m { s with waitGeneration := generation })) :
    PollSpec key participant now s ((bumpBarrierWaitGeneration >>= fun _ => m) s) := by
  rcases bump_cases s with ⟨generation, hbump⟩ | ⟨e, hbump⟩
  · rw [run_bind_ok hbump]
    exact h generation
  · rw [run_bind_error hbump]
    exact ⟨fun _ => rfl, id⟩

theorem expire_spec (hslot : s.slots[key]? = some slot)
    (hlease : (s.view key).lease participant ≠ none) (hout : slot.outcome = none) :
    PollSpec key participant now s (expire key s) := by
  unfold expire
  simp only [hslot]
  refine ⟨?_, else_setSlot, id⟩
  rw [view_setSlot]
  exact .expired hslot hlease hout

theorem pollAgain_spec (hlease : (s.view key).lease participant ≠ none) :
    PollSpec key participant now s (pollAgain key participant now waker s) := by
  unfold pollAgain
  cases hslot : s.slots[key]? with
  | none => exact .refused
  | some slot =>
    simp only
    cases hout : slot.outcome with
    | some outcome => exact ⟨.told hslot hlease hout, fun _ _ => rfl, id⟩
    | none =>
      simp only
      split_ifs with htime harrived
      · -- The deadline is observed now, unless the wait generation has run out.
        refine .bump fun generation => ?_
        exact expire_spec (s := { s with waitGeneration := generation }) hslot hlease hout
      · refine ⟨?_, else_setSlot, id⟩
        rw [view_setSlot]
        have hstep : PollStep participant now (s.view key) none _ :=
          .again waker hslot hlease hout harrived
        rwa [hout] at hstep
      · exact .refused

theorem pollLate_spec (hslot : s.slots[key]? = some slot)
    (hlease : (s.view key).lease participant = none) (hout : slot.outcome = some outcome) :
    PollSpec key participant now s (pollLate limits key participant outcome slot s) := by
  unfold pollLate
  split_ifs with hother
  · exact .refused
  · exact .refused
  · exact .refused
  · rw [not_not] at hother
    subst hother
    refine .bump fun generation => ⟨?_, else_setSlot, id⟩
    rw [view_setSlot]
    exact .late hslot hlease hout

theorem takeLease_eq (hcount : s.participantCount + 1 ≤ usizeMax) (key : BarrierKey)
    (participant : String) (generation : CoordinationGeneration) :
    takeLease ⟨key, participant⟩ generation s = .ok () (s.leased key participant generation) := by
  unfold takeLease
  simp only [checkedAdd_le hcount]
  rfl

/-- Opening a slot changes the slot of its key only, unless there is one. -/
theorem openSlot_spec (s : BarrierState) (key : BarrierKey) (slot : BarrierSlot) :
    (s.openSlot key slot).view key =
        { s.view key with slot := some ((s.view key).slot.getD slot) } ∧
      Elsewhere key s (s.openSlot key slot) ∧ (s.openSlot key slot).leases = s.leases ∧
      (s.openSlot key slot).participantCount = s.participantCount := by
  unfold openSlot
  rw [contains_eq_isSome_getElem?]
  cases hfound : s.slots[key]? with
  | some found =>
    refine ⟨?_, fun _ _ => rfl, rfl, rfl⟩
    ext1 <;> simp [view, hfound]
  | none =>
    refine ⟨(view_setSlot s key slot).trans ?_, else_setSlot, rfl, rfl⟩
    simp [view, hfound]

theorem enterSlot_eq (hslot : s.slots[key]? = some slot) (hout : slot.outcome = none)
    (participant : String) (waker : Waker) : ∃ wake, enterSlot key participant waker s =
      .ok ((slot.joined participant waker).outcome, wake)
        (s.setSlot key (slot.joined participant waker)) := by
  unfold enterSlot BarrierSlot.joined
  simp only [hslot]
  split_ifs
  · exact ⟨_, rfl⟩
  · rw [hout]
    exact ⟨_, rfl⟩

/-- A new participant joins the slot it finds, or opens one. -/
theorem join_spec (hcount : s.participantCount + 1 ≤ usizeMax)
    (hlease : (s.view key).lease participant = none)
    (hslot : slot = (s.view key).slot.getD (freshSlot generation expected deadline))
    (hout : slot.outcome = none)
    (hstep : PollStep participant now (s.view key) (slot.joined participant waker).outcome
      { s.view key with
        slot := some (slot.joined participant waker),
        lease := Function.update (s.view key).lease participant (some ⟨generation⟩) }) :
    PollSpec key participant now s
      (join key participant expected deadline generation waker s) := by
  refine .bump fun bumped => ?_
  -- The slot is opened, then the lease taken, then the arrival noted.
  show PollSpec key participant now s ((takeLease ⟨key, participant⟩ generation >>= fun _ =>
    enterSlot key participant waker) (({ s with waitGeneration := bumped } : BarrierState).openSlot
      key (freshSlot generation expected deadline)))
  obtain ⟨hview, helse, hleases, hpart⟩ := openSlot_spec { s with waitGeneration := bumped } key
    (freshSlot generation expected deadline)
  generalize ({ s with waitGeneration := bumped } : BarrierState).openSlot key
    (freshSlot generation expected deadline) = s₁ at hview helse hleases hpart ⊢
  replace hview : s₁.view key = { s.view key with slot := some slot } := by
    rw [hslot]
    exact hview
  have hfound : s₁.slots[key]? = some slot := congrArg BarrierView.slot hview
  obtain ⟨wake, hentered⟩ := enterSlot_eq (s := s₁.leased key participant generation) hfound
    hout participant waker
  obtain ⟨hview', helse'⟩ := view_leased s₁ key participant generation
  rw [run_bind_ok (takeLease_eq (hpart ▸ hcount) ..), hentered]
  refine ⟨?_, (helse.trans helse').trans else_setSlot, fun hcounted => ?_⟩
  · rw [view_setSlot, hview', hview]
    exact hstep
  · have hcount₁ : Counted s₁ := by
      show s₁.participantCount = s₁.leases.size
      rw [hpart, hleases, hcounted]
    have hfree : (s₁.view key).lease participant = none := by
      rw [hview]
      exact hlease
    exact hcount₁.leased hfree

theorem arrive_spec
    (hcount : (s.view key).lease request.participant = none → s.participantCount + 1 ≤ usizeMax)
    (hexpected : 0 < expected) (hoverflow : (s.view key).overflow = false)
    (htime : deadline.any (· ≤ request.now) = false) :
    PollSpec key request.participant request.now s
      (arrive limits key request expected deadline (s.view key).next waker s) := by
  unfold arrive
  split_ifs with hhas
  · refine pollAgain_spec fun hnone => ?_
    rw [contains_eq_isSome_getElem?, Option.isSome_iff_ne_none] at hhas
    exact hhas hnone
  · have hlease : (s.view key).lease request.participant = none := by
      rw [contains_eq_isSome_getElem?, Option.not_isSome_iff_eq_none] at hhas
      exact hhas
    cases hslot : s.slots[key]? with
    | none =>
      have hview : (s.view key).slot = none := hslot
      refine join_spec (hcount hlease) hlease (by rw [hview, Option.getD_none]) rfl ?_
      exact .opened waker hview hlease hoverflow hexpected htime
    | some slot =>
      have hview : (s.view key).slot = some slot := hslot
      simp only
      cases hout : slot.outcome with
      | some outcome => exact pollLate_spec hslot hlease hout
      | none =>
        simp only
        split_ifs with hexpired
        · refine .bump fun bumped => ?_
          obtain ⟨hview', helse⟩ := view_leased { s with waitGeneration := bumped } key
            request.participant (s.view key).next
          have htaken := takeLease_eq (s := { s with waitGeneration := bumped }) (hcount hlease) key
            request.participant (s.view key).next
          rw [run_bind_ok htaken]
          unfold expire
          have hfound : (leased { s with waitGeneration := bumped } key
            request.participant (s.view key).next).slots[key]? = some slot := hslot
          simp only [hfound]
          refine ⟨?_, helse.trans else_setSlot, fun hcounted => ?_⟩
          · rw [view_setSlot, hview']
            exact .expiredNew hview hlease hout
          · exact Counted.leased (s := s) hcounted hlease
        · refine join_spec (hcount hlease) hlease (by rw [hview, Option.getD_some]) hout ?_
          exact .joined waker hview hlease hout (by simpa using hexpired)

/-! ### The checks -/

theorem expectedSize_pos (h : expectedSize s request = .ok expected) : 0 < expected := by
  obtain ⟨size, -, h⟩ := bind_ok.mp h
  obtain ⟨hsize, h⟩ := ite_error_ok.mp h
  cases h
  rw [not_or] at hsize
  omega

theorem checkRequest_ok (h : checkRequest limits key request s = .ok expected) :
    0 < expected ∧ (s.view key).overflow = false := by
  obtain ⟨-, h⟩ := ite_error_ok.mp h
  obtain ⟨size, hsize, h⟩ := bind_ok.mp h
  obtain ⟨-, h⟩ := ite_error_ok.mp h
  obtain ⟨-, h⟩ := ite_error_ok.mp h
  obtain ⟨hoverflow, h⟩ := ite_error_ok.mp h
  cases h
  exact ⟨expectedSize_pos hsize, Bool.not_eq_true _ ▸ hoverflow⟩

theorem deadline_ok (h : requestedDeadline request = .ok deadline) :
    deadline.any (· ≤ request.now) = false := by
  unfold requestedDeadline at h
  split_ifs at h with htimeout
  · cases h
    rfl
  · split at h <;> cases h
    next hsum =>
      have := (checkedAdd_some.mp hsum).1
      simp only [Option.any_some, decide_eq_false_iff_not]
      omega

theorem checkArrival_ok (h : checkArrival limits key participant expected generation s = .ok ())
    (hlease : (s.view key).lease participant = none) : s.participantCount + 1 ≤ usizeMax := by
  obtain ⟨-, h⟩ := ite_error_ok.mp h
  obtain ⟨-, h⟩ := ite_error_ok.mp h
  obtain ⟨hfree, -⟩ := ite_error_ok.mp h
  have hcontains : s.leases.contains ⟨key, participant⟩ = false := by
    rw [contains_eq_isSome_getElem?]
    exact (congrArg Option.isSome hlease).trans rfl
  rw [hcontains] at hfree
  have hroom : ¬ limits.maxParticipants ≤ s.participantCount := fun hfull => hfree ⟨nofun, hfull⟩
  have hbound := limits.maxParticipants_le
  have husize : maxBarrierParticipants ≤ usizeMax := by decide
  omega

/-- A poll fails before its key is entered, or with nothing but its key entered, or it is an
arrival after all the checks. -/
theorem arrival_cases (limits : BarrierLimits) (hkey : keyFor request = .ok key)
    (waker : Waker) (s : BarrierState) : (∃ e, checkRequest limits key request s = .error e ∧
      pollArrival limits request waker s = .error e s) ∨
    ∃ expected, checkRequest limits key request s = .ok expected ∧
      ((∃ e, pollArrival limits request waker s = .error e (s.entered key)) ∨
      ∃ deadline, requestedDeadline request = .ok deadline ∧
        checkArrival limits key request.participant expected (s.view key).next (s.entered key) =
          .ok () ∧ pollArrival limits request waker s =
          arrive limits key request expected deadline (s.view key).next waker (s.entered key)) := by
  unfold pollArrival
  rw [hkey, run_bind_ok liftExcept_ok]
  cases hreq : checkRequest limits key request s with
  | error e => exact .inl ⟨e, rfl, run_bind_error (check_error hreq)⟩
  | ok expected =>
    refine .inr ⟨expected, rfl, ?_⟩
    rw [run_bind_ok (check_ok hreq), run_bind_ok generationFor_eq]
    cases hdeadline : requestedDeadline request with
    | error e => exact .inl ⟨e, run_bind_error liftExcept_error⟩
    | ok deadline =>
      rw [run_bind_ok liftExcept_ok]
      cases harrival : checkArrival limits key request.participant expected (s.view key).next
          (s.entered key) with
      | error e => exact .inl ⟨e, run_bind_error (check_error harrival)⟩
      | ok _ => exact .inr ⟨deadline, rfl, rfl, run_bind_ok (check_ok harrival)⟩

theorem pollArrival_spec (limits : BarrierLimits) (hkey : keyFor request = .ok key) (waker : Waker)
    (s : BarrierState) :
    PollSpec key request.participant request.now s (pollArrival limits request waker s) := by
  rcases arrival_cases limits hkey waker s with
    ⟨e, -, hpoll⟩ | ⟨expected, hreq, ⟨e, hpoll⟩ | ⟨deadline, hdeadline, harrival, hpoll⟩⟩
  · rw [hpoll]
    exact .refused
  · rw [hpoll]
    exact ⟨view_entered s key, fun h => counted_entered h⟩
  · rw [hpoll]
    obtain ⟨hexpected, hoverflow⟩ := checkRequest_ok hreq
    rw [← view_entered s key key] at hoverflow ⊢
    have hspec : PollSpec key request.participant request.now (s.entered key)
        (arrive limits key request expected deadline ((s.entered key).view key).next waker
          (s.entered key)) :=
      arrive_spec (checkArrival_ok harrival) hexpected hoverflow (deadline_ok hdeadline)
    exact hspec.of_view (view_entered s key) fun h => counted_entered h

/-! ## Leaving -/

/-- What happens to a barrier when a participant gives its lease back and its slot becomes
`after`. -/
inductive LeaveStep (participant : String) (after : BarrierSlot) (v : BarrierView) :
    BarrierView → Prop
  | stays {other : String} (hother : other ≠ participant) (hlease : v.lease other ≠ none) :
      LeaveStep participant after v
        { v with slot := some after, lease := Function.update v.lease participant none }
  | closes {next : CoordinationGeneration} {overflow : Bool}
      (hothers : ∀ other, other ≠ participant → v.lease other = none)
      (hnext : v.next.next = some next ∨ overflow = true) :
      LeaveStep participant after v
        ⟨none, next, overflow, Function.update v.lease participant none⟩

theorem view_uncount (s : BarrierState) (k : BarrierKey) : s.uncount.view k = s.view k := by
  unfold uncount
  split_ifs <;> rfl

theorem view_bump (k : BarrierKey) : s.bump.view k = s.view k := by
  unfold bump
  rcases bump_cases s with ⟨generation, h⟩ | ⟨e, h⟩ <;> rw [h] <;> rfl

theorem leases_bump (s : BarrierState) :
    s.bump.leases = s.leases ∧ s.bump.participantCount = s.participantCount := by
  unfold bump
  rcases bump_cases s with ⟨generation, h⟩ | ⟨e, h⟩ <;> rw [h] <;> exact ⟨rfl, rfl⟩

theorem any_lease_iff (s : BarrierState) (key : BarrierKey) :
    s.leases.keys.any (·.key = key) = true ↔
      ∃ participant, (s.view key).lease participant ≠ none := by
  simp only [List.any_eq_true, mem_keys, mem_iff_isSome_getElem?,
    Option.isSome_iff_ne_none, decide_eq_true_iff]
  constructor
  · rintro ⟨⟨_, participant⟩, hsome, rfl⟩
    exact ⟨participant, hsome⟩
  · rintro ⟨participant, hsome⟩
    exact ⟨⟨key, participant⟩, hsome, rfl⟩

theorem else_advance : Elsewhere key s (s.advanceBarrierGeneration key) := by
  intro other hother
  unfold advanceBarrierGeneration
  split
  · ext1
    · rfl
    · simp only [view, getD_eq_getD_getElem?, get?_insert_ne hother.symm]
    · rfl
    · rfl
  · ext1
    · rfl
    · rfl
    · have hne : (compare key other == .eq) = false := by
        rw [beq_eq_false_iff_ne]
        exact fun heq => hother (compare_iff.mp heq).symm
      simp only [view, ExtTreeSet.contains_insert, hne, Bool.false_or]
    · rfl

theorem view_advance (s : BarrierState) (key : BarrierKey) :
    ∃ next overflow, (s.advanceBarrierGeneration key).view key =
        { s.view key with next, overflow } ∧
      ((s.view key).next.next = some next ∨ overflow = true) := by
  unfold advanceBarrierGeneration
  cases hnext : s.nextGeneration[key]? with
  | none =>
    refine ⟨(s.view key).next, true, ?_, .inr rfl⟩
    ext1 <;> first | rfl | simp [view]
  | some current =>
    have hcurrent : (s.view key).next = current := by
      simp [view, getD_eq_getD_getElem?, hnext]
    simp only [Option.bind_some]
    cases hadvance : current.next with
    | none =>
      refine ⟨(s.view key).next, true, ?_, .inr rfl⟩
      ext1 <;> first | rfl | simp [view]
    | some generation =>
      refine ⟨generation, (s.view key).overflow, ?_, .inl (hcurrent ▸ hadvance)⟩
      ext1 <;> first | rfl | simp [view]

/-- A slot that nobody holds any more is removed, if the arrivals are among the leases. -/
theorem drained_spec {v : BarrierView} (hview : s.view key =
      { v with slot := some after, lease := Function.update v.lease participant none })
    (harr : ∀ other, after.arrivals.contains other = true → (s.view key).lease other ≠ none) :
    LeaveStep participant after v ((s.removeDrained key).view key) ∧
      Elsewhere key s (s.removeDrained key) := by
  have hslot : s.slots[key]? = some after := congrArg BarrierView.slot hview
  have hlease : (s.view key).lease = Function.update v.lease participant none :=
    congrArg BarrierView.lease hview
  unfold removeDrained
  simp only [hslot]
  split_ifs with hdrained
  · obtain ⟨-, hfree⟩ := hdrained
    rw [any_lease_iff] at hfree
    have hothers : ∀ other, other ≠ participant → v.lease other = none := by
      intro other hother
      by_contra hsome
      refine hfree ⟨other, ?_⟩
      rw [hlease, Function.update_of_ne hother]
      exact hsome
    have hcleared : ({ s with slots := s.slots.erase key } : BarrierState).view key =
        { s.view key with slot := none } := by
      ext1 <;> first | rfl | simp [view]
    have herased : Elsewhere key s { s with slots := s.slots.erase key } := by
      intro other hother
      simp only [view, get?_erase_ne hother.symm]
    obtain ⟨next, overflow, hadvanced, hnext⟩ :=
      view_advance { s with slots := s.slots.erase key } key
    refine ⟨?_, herased.trans else_advance⟩
    rw [hadvanced, hcleared, hview]
    rw [hcleared, hview] at hnext
    exact .closes hothers hnext
  · refine ⟨?_, fun _ _ => rfl⟩
    rw [hview]
    -- Whoever is left holds a lease: the slot would be empty otherwise.
    have hheld : ∃ other, (s.view key).lease other ≠ none := by
      by_contra hnone
      refine hdrained ⟨?_, fun hany => hnone ((any_lease_iff s key).mp hany)⟩
      rw [ExtTreeMap.isEmpty_iff, eq_empty_iff_forall_contains]
      intro other
      by_contra hcontains
      exact hnone ⟨other, harr other (by simpa using hcontains)⟩
    obtain ⟨other, hother⟩ := hheld
    rw [hlease] at hother
    have hne : other ≠ participant := by
      rintro rfl
      exact hother (Function.update_self ..)
    rw [Function.update_of_ne hne] at hother
    exact .stays hne hother

theorem counted_drained (h : Counted s) : Counted (s.removeDrained key) := by
  unfold removeDrained advanceBarrierGeneration
  split
  · exact h
  · split_ifs
    · split <;> exact h
    · exact h

/-- A lease is gone and the count is not yet taken down. -/
def Overcounted (s : BarrierState) : Prop := s.participantCount = s.leases.size + 1

theorem Counted.unleased {lease : BarrierLease} (h : Counted s)
    (hlease : (s.view key).lease participant = some lease) :
    Overcounted (s.unleased key participant) := by
  show s.participantCount = (s.leases.erase ⟨key, participant⟩).size + 1
  rw [size_erase_old hlease, h]

/-- Giving a lease back keeps the count right. -/
theorem counted_uncount (h : Overcounted s) : Counted s.uncount := by
  unfold Overcounted at h
  unfold uncount Counted
  rw [if_neg (by omega)]
  show s.participantCount - 1 = s.leases.size
  omega

/-- The slot after `cancel`, which removes only an arrival that is there. -/
def BarrierSlot.afterCancel (slot : BarrierSlot) (participant : String) : BarrierSlot :=
  if slot.arrivals.contains participant then slot.cancelled participant else slot

theorem contains_erase' {arrivals : ExtTreeMap String Waker} {other : String}
    (h : (arrivals.erase participant).contains other = true) :
    arrivals.contains other = true ∧ other ≠ participant := by
  rw [contains_erase, Bool.and_eq_true] at h
  refine ⟨h.2, ?_⟩
  rintro rfl
  simp at h

theorem contains_afterCancel {other : String}
    (h : (slot.afterCancel participant).arrivals.contains other = true) :
    slot.arrivals.contains other = true ∧ other ≠ participant := by
  unfold BarrierSlot.afterCancel at h
  split_ifs at h with hcontains
  · exact contains_erase' h
  · refine ⟨h, ?_⟩
    rintro rfl
    exact hcontains h

variable {request : SynchronizingRequest} {lease : BarrierLease} {slot : BarrierSlot}

theorem cancel_of_none (hkey : keyFor request = .ok key)
    (hlease : (s.view key).lease request.participant = none) : (cancel request s).1 = s := by
  have hfound : s.leases[(⟨key, request.participant⟩ : LeaseKey)]? = none := hlease
  unfold cancel
  simp only [hkey, hfound]

theorem complete_of_none (hkey : keyFor request = .ok key)
    (hlease : (s.view key).lease request.participant = none) : complete request outcome s = s := by
  have hfound : s.leases[(⟨key, request.participant⟩ : LeaseKey)]? = none := hlease
  unfold complete
  simp only [hkey, hfound]

/-- The slot of the key has become `after`, and the lease that is gone is not counted any more. -/
structure Settles (key : BarrierKey) (after : BarrierSlot) (s s' : BarrierState) : Prop where
  view : s'.view key = { s.view key with slot := some after }
  elsewhere : Elsewhere key s s'
  counted : Overcounted s → Counted s'

/-- What `cancel` and `complete` have in common: the lease is gone, the slot has become `after`,
and a drained slot is removed. -/
theorem leave_spec (hlease : (s.view key).lease participant = some lease)
    (hspec : Settles key after (s.unleased key participant) s₁)
    (harr : ∀ other, after.arrivals.contains other = true →
      (s.view key).lease other ≠ none ∧ other ≠ participant) :
    LeaveStep participant after (s.view key) ((s₁.removeDrained key).view key) ∧
      Elsewhere key s (s₁.removeDrained key) ∧ (Counted s → Counted (s₁.removeDrained key)) := by
  obtain ⟨hview, helse, hcount⟩ := hspec
  have hview₁ : s₁.view key = { s.view key with
      slot := some after,
      lease := Function.update (s.view key).lease participant none } := by
    rw [hview, (view_unleased s key participant).1]
  obtain ⟨hstep, hrest⟩ := drained_spec hview₁ (by
    intro other hother
    rw [hview₁]
    show Function.update (s.view key).lease participant none other ≠ none
    rw [Function.update_of_ne (harr other hother).2]
    exact (harr other hother).1)
  exact ⟨hstep, ((view_unleased s key participant).2.trans helse).trans hrest,
    fun h => counted_drained (hcount (h.unleased hlease))⟩

theorem view_setSlot' (h : ∀ k, s₁.view k = s.view k) (key : BarrierKey) (slot : BarrierSlot) :
    (s₁.setSlot key slot).view key = { s.view key with slot := some slot } ∧
      Elsewhere key s (s₁.setSlot key slot) := by
  refine ⟨?_, fun other hother => ?_⟩
  · rw [view_setSlot, h]
  · rw [else_setSlot other hother, h]

theorem counted_bump (h : Counted s) : Counted s.bump := by
  show s.bump.participantCount = s.bump.leases.size
  rw [(leases_bump s).1, (leases_bump s).2, h]

theorem cancelSlot_spec (hslot : (s.view key).slot = some slot)
    (hgen : slot.generation = lease.generation) :
    Settles key (slot.afterCancel participant) s (s.cancelSlot key participant lease).1 := by
  have hfound : s.slots[key]? = some slot := hslot
  unfold cancelSlot BarrierSlot.afterCancel
  simp only [hfound, hgen, true_and]
  split_ifs
  · cases slot.outcome with
    | some outcome =>
      obtain ⟨hview, helse⟩ := view_setSlot' (view_uncount s) key (slot.cancelled participant)
      exact ⟨hview, helse, counted_uncount⟩
    | none =>
      have hsame : ∀ k, s.uncount.bump.view k = s.view k := by
        intro k
        rw [view_bump, view_uncount]
      obtain ⟨hview, helse⟩ := view_setSlot' hsame key (slot.cancelled participant)
      exact ⟨hview, helse, fun h => counted_bump (counted_uncount h)⟩
  · refine ⟨?_, fun other _ => view_uncount s other, counted_uncount⟩
    rw [view_uncount, ← hslot]

theorem completeSlot_spec (hslot : (s.view key).slot = some slot)
    (hgen : slot.generation = lease.generation) : Settles key (slot.completed participant outcome) s
      (s.completeSlot key participant lease outcome) := by
  have hsame : ∀ k, s.bump.uncount.view k = s.view k := by
    intro k
    rw [view_uncount, view_bump]
  have hfound : s.bump.uncount.slots[key]? = some slot :=
    (congrArg BarrierView.slot (hsame key)).trans hslot
  unfold completeSlot
  simp only [hfound, hgen, if_true]
  obtain ⟨hview, helse⟩ := view_setSlot' hsame key (slot.completed participant outcome)
  refine ⟨hview, helse, fun h => counted_uncount ?_⟩
  rw [Overcounted, (leases_bump s).1, (leases_bump s).2, h]

theorem completed_arrivals :
    (slot.completed participant outcome).arrivals = slot.arrivals.erase participant := by
  unfold BarrierSlot.completed
  simp only
  split_ifs <;> rfl

section

variable (hkey : keyFor request = .ok key)
  (hlease : (s.view key).lease request.participant = some lease)
  (hslot : (s.view key).slot = some slot) (hgen : slot.generation = lease.generation)
  (harr : ∀ other, slot.arrivals.contains other = true → (s.view key).lease other ≠ none)

include hkey hlease hslot hgen harr

theorem cancel_spec :
    LeaveStep request.participant (slot.afterCancel request.participant) (s.view key)
        ((cancel request s).1.view key) ∧
      Elsewhere key s (cancel request s).1 ∧ (Counted s → Counted (cancel request s).1) := by
  have hfound : s.leases[(⟨key, request.participant⟩ : LeaseKey)]? = some lease := hlease
  have hcancel : (cancel request s).1 = ((s.unleased key request.participant).cancelSlot key
      request.participant lease).1.removeDrained key := by
    unfold cancel
    simp only [hkey, hfound]
  rw [hcancel]
  refine leave_spec hlease (cancelSlot_spec hslot hgen) fun other hother => ?_
  have hleft := contains_afterCancel hother
  exact ⟨harr other hleft.1, hleft.2⟩

theorem complete_spec (outcome : SynchronizingOutcome) :
    LeaveStep request.participant (slot.completed request.participant outcome) (s.view key)
        ((complete request outcome s).view key) ∧ Elsewhere key s (complete request outcome s) ∧
      (Counted s → Counted (complete request outcome s)) := by
  have hfound : s.leases[(⟨key, request.participant⟩ : LeaseKey)]? = some lease := hlease
  have hcomplete : complete request outcome s = ((s.unleased key request.participant).completeSlot
      key request.participant lease outcome).removeDrained key := by
    unfold complete
    simp only [hkey, hfound]
  rw [hcomplete]
  refine leave_spec hlease (completeSlot_spec hslot hgen) fun other hother => ?_
  rw [completed_arrivals] at hother
  have hleft := contains_erase' hother
  exact ⟨harr other hleft.1, hleft.2⟩

end

end JmeterRs.Coordination
