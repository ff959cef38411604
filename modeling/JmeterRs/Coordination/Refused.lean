import JmeterRs.Coordination.Agreement

/-!
# Refused arrivals

A poll that fails is meant to leave no trace, and a participant that has left a generation is
meant to be free to come back.  Neither holds always.  A poll enters its key before its last checks,
and a key that is entered takes up capacity for ever; and a generation that is closed stays in its
slot until the last participant has completed, so that whoever comes back before is refused.
-/

namespace JmeterRs.Coordination

open Std BarrierState
open Execution (ComponentError)

variable {limits : BarrierLimits} {s s' : BarrierState} {key : BarrierKey} {slot : BarrierSlot}
  {request again : SynchronizingRequest} {waker : Waker} {expected : ℕ} {deadline : Option ℕ}
  {generation : CoordinationGeneration} {participant : String}

def Accepts (limits : BarrierLimits) (request : SynchronizingRequest) (waker : Waker)
    (s : BarrierState) : Prop :=
  ∃ arrival s', pollArrival limits request waker s = .ok arrival s'

/-! ## What a refused poll leaves behind -/

/-- Slots with their retired participants, leases, generations and the count are as before. -/
structure Kept (s s' : BarrierState) : Prop where
  slots : s'.slots = s.slots
  leases : s'.leases = s.leases
  nextGeneration : s'.nextGeneration = s.nextGeneration
  participantCount : s'.participantCount = s.participantCount

/-- At most the mark is new that the wait generation has run out. -/
def Spared (s s' : BarrierState) : Prop :=
  s' = s ∨ s.waitGeneration.next = none ∧ s' = { s with waitGenerationOverflow := true }

/-- A result that is an error spares the state. -/
def SparedBy (s : BarrierState) : EStateM.Result ComponentError BarrierState Arrival → Prop
  | .ok .. => True
  | .error _ s' => Spared s s'

theorem SparedBy.bump {m : Barrier Arrival}
    (h : ∀ generation, ∃ arrival s', m { s with waitGeneration := generation } = .ok arrival s') :
    SparedBy s ((bumpBarrierWaitGeneration >>= fun _ => m) s) := by
  cases hnext : s.waitGeneration.next with
  | some next =>
    have hbump : bumpBarrierWaitGeneration s = .ok () { s with waitGeneration := next } := by
      simp only [bumpBarrierWaitGeneration, hnext]
    obtain ⟨arrival, s', hm⟩ := h next
    rw [run_bind_ok hbump, hm]
    trivial
  | none =>
    have hbump : bumpBarrierWaitGeneration s = .error
        (.resourceLimit "synchronizing barrier wait generation")
        { s with waitGenerationOverflow := true } := by
      simp only [bumpBarrierWaitGeneration, hnext]
    rw [run_bind_error hbump]
    exact .inr ⟨hnext, rfl⟩

theorem expire_ok (hslot : s.slots[key]? = some slot) :
    ∃ arrival s', expire key s = .ok arrival s' := by
  simp only [expire, hslot]
  exact ⟨_, _, rfl⟩

/-- After the wait generation is bumped nothing can fail. -/
theorem join_spared (hcount : s.participantCount + 1 ≤ usizeMax) :
    SparedBy s (join key participant expected deadline generation waker s) := by
  refine .bump fun bumped => ?_
  show ∃ arrival s', (takeLease ⟨key, participant⟩ generation >>= fun _ =>
    enterSlot key participant waker) (openSlot { s with waitGeneration := bumped } key
      ⟨generation, expected, deadline, ∅, ∅, none⟩) = .ok arrival s'
  obtain ⟨hview, -, -, hpart⟩ := openSlot_spec { s with waitGeneration := bumped } key
    ⟨generation, expected, deadline, ∅, ∅, none⟩
  rw [run_bind_ok (takeLease_eq (by rwa [hpart]) ..)]
  unfold enterSlot
  have hfound := congrArg BarrierView.slot hview
  dsimp only [view] at hfound
  simp only [leased, hfound]
  split_ifs <;> exact ⟨_, _, rfl⟩

theorem arrive_spared (hcount : (s.view key).lease request.participant = none →
      s.participantCount + 1 ≤ usizeMax) :
    SparedBy s (arrive limits key request expected deadline generation waker s) := by
  unfold arrive
  split_ifs with hhas
  · unfold pollAgain
    cases hslot : s.slots[key]? with
    | none => exact .inl rfl
    | some slot =>
      simp only
      cases slot.outcome with
      | some outcome => trivial
      | none =>
        simp only
        split_ifs
        · exact .bump fun _ => expire_ok hslot
        · trivial
        · exact .inl rfl
  · rw [ExtTreeMap.contains_eq_isSome_getElem?, Option.not_isSome_iff_eq_none] at hhas
    cases hslot : s.slots[key]? with
    | none => exact join_spared (hcount hhas)
    | some slot =>
      simp only
      cases slot.outcome with
      | some outcome =>
        simp only
        unfold pollLate
        split_ifs
        · exact .inl rfl
        · exact .inl rfl
        · exact .inl rfl
        · exact .bump fun _ => ⟨_, _, rfl⟩
      | none =>
        simp only
        split_ifs
        · refine .bump fun bumped => ?_
          rw [run_bind_ok
            (takeLease_eq (s := { s with waitGeneration := bumped }) (hcount hhas) ..)]
          exact expire_ok hslot
        · exact join_spared (hcount hhas)

/-- The request is refused before its key is entered, or its key is known already. -/
def LeavesNoKey (limits : BarrierLimits) (s : BarrierState) (request : SynchronizingRequest) :
    Prop :=
  ∀ key expected, keyFor request = .ok key → checkRequest limits key request s = .ok expected →
    s.nextGeneration.contains key = true

section

variable {e : ComponentError} (h : pollArrival limits request waker s = .error e s')

include h

theorem spared_entered (hkey : keyFor request = .ok key)
    (hreq : checkRequest limits key request s = .ok expected) : Spared (s.entered key) s' := by
  rcases arrival_cases limits hkey waker s with
    ⟨e', hfails, -⟩ | ⟨expected, -, ⟨e', hpoll⟩ | ⟨deadline, -, harrival, hpoll⟩⟩
  · cases hreq.symm.trans hfails
  · cases hpoll.symm.trans h
    exact .inl rfl
  · have hspared : SparedBy (s.entered key) (arrive limits key request expected deadline
        (s.view key).next waker (s.entered key)) := arrive_spared (checkArrival_ok harrival)
    rwa [← hpoll, h] at hspared

theorem LeavesNoKey.spared (hleaves : LeavesNoKey limits s request) : Spared s s' := by
  cases hkey : keyFor request with
  | error e' =>
    have hpoll : pollArrival limits request waker s = .error e' s := by
      unfold pollArrival
      rw [hkey, run_bind_error liftExcept_error]
    cases hpoll.symm.trans h
    exact .inl rfl
  | ok key =>
    rcases arrival_cases limits hkey waker s with ⟨e', -, hpoll⟩ | ⟨expected, hreq, -⟩
    · cases hpoll.symm.trans h
      exact .inl rfl
    · have hspared := spared_entered h hkey hreq
      rwa [entered, if_pos (hleaves key expected hkey hreq)] at hspared

theorem Kept.leavesNoKey (hkept : Kept s s') : LeavesNoKey limits s request := by
  intro key expected hkey hreq
  have hsame : (s.entered key).nextGeneration = s.nextGeneration := by
    rcases spared_entered h hkey hreq with rfl | ⟨-, rfl⟩ <;> exact hkept.nextGeneration
  rw [← hsame, entered]
  split_ifs with hknown
  · exact hknown
  · exact ExtTreeMap.contains_insert_self

end

theorem Spared.kept (h : Spared s s') : Kept s s' := by
  rcases h with rfl | ⟨-, rfl⟩ <;> exact ⟨rfl, rfl, rfl, rfl⟩

theorem Spared.trans {s'' : BarrierState} (h : Spared s s') (h' : Spared s' s'') :
    Spared s s'' := by
  rcases h with rfl | ⟨hnext, rfl⟩
  · exact h'
  · rcases h' with rfl | ⟨-, rfl⟩ <;> exact .inr ⟨hnext, rfl⟩

/-- To open a slot the wait generation must go on. -/
theorem next_of_opened (hkey : keyFor request = .ok key) (hslot : s.slots[key]? = none)
    (h : Accepts limits request waker s) : s.waitGeneration.next ≠ none := by
  intro hnext
  obtain ⟨arrival, s', h⟩ := h
  rcases arrival_cases limits hkey waker s with
    ⟨e, -, hpoll⟩ | ⟨expected, -, ⟨e, hpoll⟩ | ⟨deadline, -, -, hpoll⟩⟩
  · cases hpoll.symm.trans h
  · cases hpoll.symm.trans h
  · rw [hpoll, arrive] at h
    have hslot' : (s.entered key).slots[key]? = none :=
      (congrArg BarrierView.slot (view_entered s key key)).trans hslot
    have hnext' : (s.entered key).waitGeneration.next = none := by
      unfold entered
      split_ifs <;> exact hnext
    split_ifs at h
    · simp only [pollAgain, hslot'] at h
      cases h
    · simp only [hslot', join] at h
      rw [run_bind_error (m := bumpBarrierWaitGeneration)
        (by simp only [bumpBarrierWaitGeneration, hnext']; rfl)] at h
      cases h

/-- A poll that was refused. -/
structure Refusal where
  before : BarrierState
  request : SynchronizingRequest
  after : BarrierState

/-- A run of refused polls from one state to another. -/
inductive Refusals (limits : BarrierLimits) : BarrierState → List Refusal → BarrierState → Prop
  | nil (s : BarrierState) : Refusals limits s [] s
  | cons {s s₁ s' : BarrierState} {request : SynchronizingRequest} {waker : Waker}
      {e : ComponentError} {polls : List Refusal}
      (hpoll : pollArrival limits request waker s = .error e s₁)
      (hrest : Refusals limits s₁ polls s') :
      Refusals limits s (⟨s, request, s₁⟩ :: polls) s'

/-- A key that the state says nothing about. -/
def FreshKey (s : BarrierState) (key : BarrierKey) : Prop :=
  s.slots[key]? = none ∧ s.nextGeneration[key]? = none

theorem Refusals.poll {polls : List Refusal} {poll : Refusal} (h : Refusals limits s polls s')
    (hmem : poll ∈ polls) :
    ∃ waker e, pollArrival limits poll.request waker poll.before = .error e poll.after := by
  induction h with
  | nil => cases hmem
  | cons hpoll _ ih =>
    rcases List.mem_cons.mp hmem with rfl | hmem
    · exact ⟨_, _, hpoll⟩
    · exact ih hmem

theorem Refusals.spared {polls : List Refusal} (h : Refusals limits s polls s')
    (hleaves : ∀ poll ∈ polls, LeavesNoKey limits poll.before poll.request) : Spared s s' := by
  induction h with
  | nil => exact .inl rfl
  | cons hpoll _ ih =>
    rw [List.forall_mem_cons] at hleaves
    exact (hleaves.1.spared hpoll).trans (ih hleaves.2)

/-- Refused polls keep the slots, leases, generations and the count, and do not turn away a request
for a fresh key that would have been accepted before them, exactly if each of them is refused before
its key is entered or has a key that is known already. -/
theorem refusals_kept_iff {polls : List Refusal} (h : Refusals limits s polls s') :
    ((∀ poll ∈ polls, Kept poll.before poll.after) ∧
      ∀ request waker key, keyFor request = .ok key → FreshKey s key →
        Accepts limits request waker s → Accepts limits request waker s') ↔
    ∀ poll ∈ polls, LeavesNoKey limits poll.before poll.request := by
  constructor
  · rintro ⟨hkept, -⟩ poll hmem
    obtain ⟨waker, e, hpoll⟩ := h.poll hmem
    exact (hkept poll hmem).leavesNoKey hpoll
  · intro hleaves
    refine ⟨fun poll hmem => ?_, fun request waker key hkey hfresh haccepts => ?_⟩
    · obtain ⟨waker, e, hpoll⟩ := h.poll hmem
      exact ((hleaves poll hmem).spared hpoll).kept
    · rcases h.spared hleaves with rfl | ⟨hnext, -⟩
      · exact haccepts
      · exact absurd hnext (next_of_opened hkey hfresh.1 haccepts)

/-- A poll of a barrier for one. -/
def soloRequest (name participant : String) : SynchronizingRequest :=
  ⟨name, .explicit ⟨1, Nat.one_pos⟩, 0, 0, participant, none, none, none, Nat.zero_le _⟩

/-- The message of a poll that is refused. -/
def refusal : EStateM.Result ComponentError BarrierState Arrival → Option String
  | .error (.failure message) _ | .error (.unsupported message) _
  | .error (.resourceLimit message) _ => some message
  | _ => none

def accepted : EStateM.Result ComponentError BarrierState Arrival → Bool
  | .ok .. => true
  | .error .. => false

/-- The only participant there is room for holds the barrier "x". -/
def soloMet : BarrierWorld :=
  BarrierWorld.initial.step (.withLimits 2 1) (.poll (soloRequest "x" "u") 0)

/-- A request for a known key that finds no room for its participant leaves nothing behind. -/
theorem known_key_kept :
    let poll := pollArrival (.withLimits 2 1) (soloRequest "x" "v") 0
    refusal (poll soloMet.state) = some "synchronizing participant capacity" ∧
      ∀ e s', poll soloMet.state = .error e s' → Kept soloMet.state s' := by
  have hknown : soloMet.state.nextGeneration.contains ⟨"x", none⟩ = true := by decide +kernel
  refine ⟨by decide +kernel, fun e s' hpoll => ?_⟩
  refine ((refusals_kept_iff (.cons hpoll (.nil _))).mpr ?_).1 _ List.mem_cons_self
  rw [List.forall_mem_singleton]
  rintro key expected ⟨⟩ -
  exact hknown

/-- A request that finds no room for its participant takes the last key: when the barrier "x" is
completed there is no slot left, and still another barrier finds no room. -/
theorem refused_takes_key :
    let limits := BarrierLimits.withLimits 2 1
    let poll request := pollArrival limits request 0
    let s := (soloMet.step limits (.poll (soloRequest "a" "v") 0)).state
    let left := complete (soloRequest "x" "u") .released
    refusal (poll (soloRequest "a" "v") soloMet.state) =
      some "synchronizing participant capacity" ∧
    s.nextGeneration.size = 2 ∧ (left s).slots.isEmpty ∧
    refusal (poll (soloRequest "b" "v") (left s)) = some "synchronizing barrier capacity" ∧
    accepted (poll (soloRequest "b" "v") (left soloMet.state)) = true := by
  decide +kernel

/-! ## Coming back -/

end JmeterRs.Coordination
