import JmeterRs.Coordination.Critical
import JmeterRs.Execution.Pipeline

/-!
# The synchronizing barrier

`DeterministicSynchronizingCoordinator` lets the participants of a barrier wait for each other.  A
barrier key has one open slot at a time; the slot belongs to a generation, and whoever has arrived
in it holds a lease until it completes or is cancelled.  As for the critical sections, a method is
one transition of the state under the mutex, and the wakers are returned.
-/

namespace JmeterRs.Coordination

open Std
open Execution (ComponentError)

def maxBarrierNameBytes : ℕ := 4096
def maxBarrierGroupBytes : ℕ := 4096
def maxBarrierParticipantBytes : ℕ := 4096
def maxBarrierParticipants : ℕ := 65536
def maxBarrierSlots : ℕ := 65536

/-- `Duration::MAX` in nanoseconds. -/
def durationMax : ℕ := u64Max * 10 ^ 9 + 999999999

abbrev NonZeroUsize := { n : ℕ // 0 < n }

inductive SynchronizingGroupSize
  | currentThreadGroup
  | explicit (size : NonZeroUsize)

/-- What the coordinator reads of a request; durations are in nanoseconds. -/
structure SynchronizingRequest where
  name : String
  groupSize : SynchronizingGroupSize
  timeout : ℕ
  now : ℕ
  participant : String
  threadGroup : Option String
  threadNumber : Option ℕ
  lifecycleId : Option ℕ
  /-- The constructor refuses a deadline that cannot be represented. -/
  deadline_le : now + timeout ≤ durationMax

inductive SynchronizingOutcome
  | released
  | timedOut
  deriving DecidableEq

/-! ## Keys -/

structure BarrierKey where
  name : String
  group : Option String
  deriving DecidableEq

structure LeaseKey where
  key : BarrierKey
  participant : String
  deriving DecidableEq

namespace BarrierKey

/-- Keys are ordered by name, then by group, and a key without a group comes first. -/
def rank (key : BarrierKey) : List (List String) := [[key.name], key.group.toList]

theorem rank_injective : Function.Injective rank := by
  rintro ⟨name, group⟩ ⟨name', group'⟩ h
  simp only [rank, List.cons.injEq, and_true] at h
  obtain ⟨rfl, hgroup⟩ := h
  cases group <;> cases group' <;> simp_all

instance : Ord BarrierKey := ⟨compareOn rank⟩
instance : TransOrd BarrierKey := inferInstanceAs (TransCmp (compareOn rank))
instance : LawfulEqOrd BarrierKey := lawfulEqCmp_compareOn rank_injective

end BarrierKey

namespace LeaseKey

def rank (lease : LeaseKey) : List (List String) :=
  [[lease.key.name], lease.key.group.toList, [lease.participant]]

theorem rank_injective : Function.Injective rank := by
  rintro ⟨key, participant⟩ ⟨key', participant'⟩ h
  simp only [rank, List.cons.injEq, and_true] at h
  obtain ⟨hname, hgroup, rfl⟩ := h
  have hkey : key = key' := BarrierKey.rank_injective (by simp [BarrierKey.rank, hname, hgroup])
  rw [hkey]

instance : Ord LeaseKey := ⟨compareOn rank⟩
instance : TransOrd LeaseKey := inferInstanceAs (TransCmp (compareOn rank))
instance : LawfulEqOrd LeaseKey := lawfulEqCmp_compareOn rank_injective

end LeaseKey

/-! ## The state -/

structure BarrierSlot where
  generation : CoordinationGeneration
  expected : ℕ
  deadline : Option ℕ
  arrivals : ExtTreeMap String Waker
  /-- Participants cancelled before this generation closed, or late for it. -/
  retired : ExtTreeSet String
  outcome : Option SynchronizingOutcome

def BarrierSlot.expired (slot : BarrierSlot) (now : ℕ) : Bool := slot.deadline.any (· ≤ now)

structure BarrierLease where
  generation : CoordinationGeneration
  deriving DecidableEq

/-- What the mutex protects. -/
structure BarrierState where
  slots : ExtTreeMap BarrierKey BarrierSlot
  nextGeneration : ExtTreeMap BarrierKey CoordinationGeneration
  generationOverflow : ExtTreeSet BarrierKey
  configuredGroupSizes : ExtTreeMap String NonZeroUsize
  leases : ExtTreeMap LeaseKey BarrierLease
  participantCount : ℕ
  waitGeneration : CoordinationGeneration
  waitGenerationOverflow : Bool

/-- `BarrierState::default`. -/
def BarrierState.empty : BarrierState := ⟨∅, ∅, ∅, ∅, ∅, 0, .initial, false⟩

/-- The bounds of a coordinator, within the runtime's own. -/
structure BarrierLimits where
  maxSlots : ℕ
  maxParticipants : ℕ
  maxSlots_le : maxSlots ≤ maxBarrierSlots
  maxParticipants_le : maxParticipants ≤ maxBarrierParticipants

/-- `with_limits`: both bounds are capped. -/
def BarrierLimits.withLimits (maxSlots maxParticipants : ℕ) : BarrierLimits :=
  ⟨min maxSlots maxBarrierSlots, min maxParticipants maxBarrierParticipants,
    Nat.min_le_right .., Nat.min_le_right ..⟩

/-- A computation under the coordinator's mutex. -/
abbrev Barrier := EStateM ComponentError BarrierState

/-- What a poll returns: the outcome, or `none` while it is pending, and the wakers to wake. -/
abbrev Arrival := Option SynchronizingOutcome × List Waker

/-! ## Thread groups -/

def registerThreadGroup (limits : BarrierLimits) (group : String) (size : NonZeroUsize) :
    Barrier Unit := fun state =>
  if group.isEmpty ∨ maxBarrierGroupBytes < group.utf8ByteSize then
    .error (.failure "synchronizing thread-group identity") state
  else if limits.maxParticipants < size.val then
    .error (.resourceLimit "synchronizing participant capacity") state
  else if ¬ state.configuredGroupSizes.contains group ∧
      limits.maxSlots ≤ state.configuredGroupSizes.size then
    .error (.resourceLimit "synchronizing thread-group capacity") state
  else .ok () { state with configuredGroupSizes := state.configuredGroupSizes.insert group size }

def unregisterThreadGroup (group : String) (state : BarrierState) : BarrierState :=
  { state with configuredGroupSizes := state.configuredGroupSizes.erase group }

variable (limits : BarrierLimits) (state : BarrierState) (key : BarrierKey) (slot : BarrierSlot)
  (participant : String) (request : SynchronizingRequest) (waker : Waker) (expected : ℕ)
  (outcome : SynchronizingOutcome)

/-! ## Requests -/

def keyFor : Except ComponentError BarrierKey :=
  if request.name.isEmpty ∨ maxBarrierNameBytes < request.name.utf8ByteSize then
    .error (.failure "invalid synchronizing barrier name")
  else if request.participant.isEmpty ∨
      maxBarrierParticipantBytes < request.participant.utf8ByteSize ∨
      request.threadNumber = some 0 ∨ request.lifecycleId = some 0 then
    .error (.failure "invalid synchronizing participant identity")
  else
    match request.groupSize with
    | .explicit _ => .ok ⟨request.name, none⟩
    | .currentThreadGroup =>
      match request.threadGroup with
      | none =>
        .error (.unsupported "current-thread-group barrier requires a thread-group identity")
      | some group =>
        if group.isEmpty ∨ maxBarrierGroupBytes < group.utf8ByteSize then
          .error (.failure "invalid synchronizing thread-group identity")
        else .ok ⟨request.name, some group⟩

/-- The size the request asks for, or the registered size of its thread group. -/
def requestedSize : Except ComponentError ℕ :=
  match request.groupSize with
  | .explicit size => .ok size.val
  | .currentThreadGroup =>
    match request.threadGroup.bind (state.configuredGroupSizes[·]?) with
    | some size => .ok size.val
    | none => .error
        (.unsupported "current-thread-group barrier requires a registered participant count")

def expectedSize : Except ComponentError ℕ := do
  let size ← requestedSize state request
  if size = 0 ∨ maxBarrierParticipants < size then
    .error (.resourceLimit "synchronizing participant capacity")
  else .ok size

def requestedDeadline : Except ComponentError (Option ℕ) :=
  if request.timeout = 0 then .ok none
  else
    match checkedAdd durationMax request.now request.timeout with
    | some deadline => .ok (some deadline)
    | none => .error (.resourceLimit "synchronizing barrier deadline")

/-- The checks of `poll_arrival` that come before the generation of its key is looked up.  The
result is the number of participants the barrier waits for. -/
def checkRequest (state : BarrierState) : Except ComponentError ℕ :=
  if state.waitGenerationOverflow then
    .error (.resourceLimit "synchronizing barrier wait generation")
  else do
    let expected ← expectedSize state request
    if limits.maxParticipants < expected then
      .error (.resourceLimit "synchronizing participant capacity")
    else if ¬ state.slots.contains key ∧ (limits.maxSlots ≤ state.slots.size ∨
        ¬ state.nextGeneration.contains key ∧ limits.maxSlots ≤ state.nextGeneration.size) then
      .error (.resourceLimit "synchronizing barrier capacity")
    else if state.generationOverflow.contains key then
      .error (.resourceLimit "synchronizing barrier generation")
    else .ok expected

/-- `next_generation.entry(key).or_insert(initial)`. -/
def generationFor : Barrier CoordinationGeneration := fun state =>
  match state.nextGeneration[key]? with
  | some generation => .ok generation state
  | none => .ok .initial { state with nextGeneration := state.nextGeneration.insert key .initial }

/-- The checks of `poll_arrival` against the slot of its key and the lease of its participant. -/
def checkArrival (generation : CoordinationGeneration) (state : BarrierState) :
    Except ComponentError Unit :=
  if state.slots[key]?.any (·.expected ≠ expected) then
    .error (.failure "synchronizing barrier participant count changed within a generation")
  else if state.leases[(⟨key, participant⟩ : LeaseKey)]?.any (·.generation ≠ generation) then
    .error (.failure "synchronizing participant reused before its prior arrival completed")
  else if ¬ state.leases.contains ⟨key, participant⟩ ∧
      limits.maxParticipants ≤ state.participantCount then
    .error (.resourceLimit "synchronizing participant capacity")
  else .ok ()

/-! ## Arrivals -/

def BarrierState.setSlot : BarrierState :=
  { state with slots := state.slots.insert key slot }

def bumpBarrierWaitGeneration : Barrier Unit := fun state =>
  match state.waitGeneration.next with
  | some next => .ok () { state with waitGeneration := next }
  | none =>
    .error (.resourceLimit "synchronizing barrier wait generation")
      { state with waitGenerationOverflow := true }

def takeLease (lease : LeaseKey) (generation : CoordinationGeneration) : Barrier Unit :=
  fun state =>
    let state := { state with leases := state.leases.insert lease ⟨generation⟩ }
    match checkedAdd usizeMax state.participantCount 1 with
    | some count => .ok () { state with participantCount := count }
    | none => .error (.failure "synchronizing barrier participant accounting invariant") state

/-- The deadline is observed: everybody in the slot times out. -/
def expire : Barrier Arrival := fun state =>
  match state.slots[key]? with
  | none => .error (.failure "synchronizing barrier slot missing") state
  | some slot =>
    .ok (some .timedOut, slot.arrivals.values)
      (state.setSlot key { slot with outcome := some .timedOut })

/-- A participant that has a lease polls again. -/
def pollAgain (now : ℕ) (waker : Waker) : Barrier Arrival := fun state =>
  match state.slots[key]? with
  | none => .error (.failure "synchronizing barrier slot missing") state
  | some slot =>
    match slot.outcome with
    | some outcome => .ok (some outcome, []) state
    | none =>
      if slot.expired now then (bumpBarrierWaitGeneration >>= fun _ => expire key) state
      else if slot.arrivals.contains participant then
        .ok (none, [])
          (state.setSlot key { slot with arrivals := slot.arrivals.insert participant waker })
      else
        .error (.failure "synchronizing participant lease accounting invariant") state

/-- A participant without a lease finds the generation closed. -/
def pollLate (slot : BarrierSlot) : Barrier Arrival :=
  if outcome ≠ .timedOut then
    throw (.failure "synchronizing barrier generation is closed")
  else if slot.retired.contains participant then
    throw (.failure "synchronizing participant was canceled for the current generation")
  else if limits.maxParticipants ≤ slot.retired.size then
    throw (.resourceLimit "synchronizing participant capacity")
  else do
    bumpBarrierWaitGeneration
    modify (·.setSlot key { slot with retired := slot.retired.insert participant })
    return (some outcome, [])

/-- The slot is opened if there is none. -/
def BarrierState.openSlot : BarrierState :=
  if state.slots.contains key then state else state.setSlot key slot

/-- The arrival is noted in the slot; the last one releases it. -/
def enterSlot : Barrier Arrival :=
  fun state =>
    match state.slots[key]? with
    | none => .error (.failure "synchronizing barrier slot missing") state
    | some slot =>
      let arrivals := slot.arrivals.insert participant waker
      if slot.expected ≤ arrivals.size then
        .ok (some .released, arrivals.values)
          (state.setSlot key { slot with arrivals, outcome := some .released })
      else .ok (none, []) (state.setSlot key { slot with arrivals })

def join (deadline : Option ℕ) (generation : CoordinationGeneration) (waker : Waker) :
    Barrier Arrival := do
  bumpBarrierWaitGeneration
  modify (·.openSlot key ⟨generation, expected, deadline, ∅, ∅, none⟩)
  takeLease ⟨key, participant⟩ generation
  enterSlot key participant waker

/-- `poll_arrival` after its checks. -/
def arrive (deadline : Option ℕ) (generation : CoordinationGeneration) (waker : Waker) :
    Barrier Arrival := fun state =>
  if state.leases.contains ⟨key, request.participant⟩ then
    pollAgain key request.participant request.now waker state
  else
    match state.slots[key]? with
    | none => join key request.participant expected deadline generation waker state
    | some slot =>
      match slot.outcome with
      | some outcome => pollLate limits key request.participant outcome slot state
      | none =>
        if slot.expired request.now then
          (do
            bumpBarrierWaitGeneration
            takeLease ⟨key, request.participant⟩ generation
            expire key : Barrier Arrival) state
        else join key request.participant expected deadline generation waker state

def pollArrival : Barrier Arrival := do
  let key ← liftExcept (keyFor request)
  let expected ← check (checkRequest limits key request)
  let generation ← generationFor key
  let deadline ← liftExcept (requestedDeadline request)
  check (checkArrival limits key request.participant expected generation)
  arrive limits key request expected deadline generation waker

/-! ## Leaving -/

/-- The state without the lease of a participant. -/
def BarrierState.unleased : BarrierState :=
  { state with leases := state.leases.erase ⟨key, participant⟩ }

def BarrierState.uncount : BarrierState :=
  if state.participantCount = 0 then { state with waitGenerationOverflow := true }
  else { state with participantCount := state.participantCount - 1 }

/-- `wait_generation_overflow |= bump_barrier_wait_generation(..).is_err()`. -/
def BarrierState.bump : BarrierState :=
  match bumpBarrierWaitGeneration state with
  | .ok _ state => state
  | .error _ state => state

/-- `advance_barrier_generation`, and the mark that is set if it fails. -/
def BarrierState.advanceBarrierGeneration : BarrierState :=
  match state.nextGeneration[key]?.bind CoordinationGeneration.next with
  | some generation =>
    { state with nextGeneration := state.nextGeneration.insert key generation }
  | none => { state with generationOverflow := state.generationOverflow.insert key }

/-- The slot is removed when nobody is left in it. -/
def BarrierState.removeDrained : BarrierState :=
  match state.slots[key]? with
  | none => state
  | some slot =>
    if slot.arrivals.isEmpty ∧ ¬ state.leases.keys.any (·.key = key) then
      { state with slots := state.slots.erase key }.advanceBarrierGeneration key
    else state

/-- What `cancel` makes of the slot of a participant whose arrival it removes. -/
def BarrierSlot.cancelled : BarrierSlot :=
  { slot with arrivals := slot.arrivals.erase participant,
              retired := slot.retired.insert participant,
              outcome := some (slot.outcome.getD .timedOut) }

/-- What `cancel` does between removing the lease and removing a drained slot. -/
def BarrierState.cancelSlot (lease : BarrierLease) : BarrierState × List Waker :=
  match state.slots[key]? with
  | none => (state.uncount, [])
  | some slot =>
    if slot.generation = lease.generation ∧ slot.arrivals.contains participant then
      let slot' := slot.cancelled participant
      match slot.outcome with
      | some _ => (state.uncount.setSlot key slot', [])
      | none => (state.uncount.bump.setSlot key slot', slot'.arrivals.values)
    else (state.uncount, [])

/-- `cancel`; the result lists the wakers to wake. -/
def cancel (state : BarrierState) : BarrierState × List Waker :=
  match keyFor request with
  | .error _ => (state, [])
  | .ok key =>
    match state.leases[(⟨key, request.participant⟩ : LeaseKey)]? with
    | none => (state, [])
    | some lease =>
      let (state, wake) :=
        (state.unleased key request.participant).cancelSlot key request.participant lease
      (state.removeDrained key, wake)

/-- What `complete` does to the slot of the generation of the lease. -/
def BarrierSlot.completed : BarrierSlot :=
  let slot := { slot with outcome := some (slot.outcome.getD outcome),
                          arrivals := slot.arrivals.erase participant }
  if slot.outcome = some .timedOut then
    { slot with retired := slot.retired.insert participant }
  else slot

/-- What `complete` does between removing the lease and removing a drained slot. -/
def BarrierState.completeSlot (lease : BarrierLease) (outcome : SynchronizingOutcome) :
    BarrierState :=
  let state := state.bump.uncount
  match state.slots[key]? with
  | none => state
  | some slot =>
    if slot.generation = lease.generation then
      state.setSlot key (slot.completed participant outcome)
    else state

def complete (state : BarrierState) : BarrierState :=
  match keyFor request with
  | .error _ => state
  | .ok key =>
    match state.leases[(⟨key, request.participant⟩ : LeaseKey)]? with
    | none => state
    | some lease =>
      ((state.unleased key request.participant).completeSlot key request.participant lease
        outcome).removeDrained key

end JmeterRs.Coordination
