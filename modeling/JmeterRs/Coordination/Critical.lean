import JmeterRs.Lib.Mut
import JmeterRs.Lib.Tree

/-!
# The critical-section coordinator

`DeterministicCriticalSectionCoordinator` keeps the named locks of a run: which user holds each
name, and a queue of waiting users for each name.  Every method takes the coordinator's mutex for
one state transition, so a method is an `EStateM` computation on the protected state; the wakers
it has cloned are returned, because they are woken only after the mutex is free again.
-/

namespace JmeterRs.Coordination

open Std

/-- The handle with which the task of a waiting user is woken. -/
abbrev Waker := ℕ

def maxLockNameBytes : ℕ := 4096
def maxHeldLocks : ℕ := 65536
def maxCriticalWaiters : ℕ := 65536

/-- A generation of the coordinator: a nonzero `u64`. -/
structure CoordinationGeneration where
  get : ℕ
  pos : 0 < get
  bound : get ≤ u64Max
  deriving DecidableEq

namespace CoordinationGeneration

def initial : CoordinationGeneration := ⟨1, by decide, by decide⟩

def next (generation : CoordinationGeneration) : Option CoordinationGeneration :=
  if h : generation.get + 1 ≤ u64Max then some ⟨generation.get + 1, Nat.succ_pos _, h⟩ else none

end CoordinationGeneration

inductive CriticalSectionError
  | invalidName
  | invalidOwner
  | capacity (limit : ℕ)
  | waiterCapacity (limit : ℕ)
  | busy (name : String) (owner : ℕ)
  | queued (name : String)
  | notOwner (name : String) (owner : ℕ)
  | accountingInvariant
  | staleGeneration (name : String) (expected actual : CoordinationGeneration)
  | generationOverflow
  deriving DecidableEq

structure HeldLock where
  owner : ℕ
  generation : CoordinationGeneration
  deriving DecidableEq

structure CriticalWaiter where
  owner : ℕ
  generation : CoordinationGeneration
  waker : Waker
  deriving DecidableEq

/-- What the mutex protects.  The head of a queue is its front. -/
structure CriticalState where
  generation : CoordinationGeneration
  waitGeneration : CoordinationGeneration
  held : ExtTreeMap String HeldLock
  waiters : ExtTreeMap String (List CriticalWaiter)
  waiterCount : ℕ

namespace CriticalState

/-- `CriticalState::default`. -/
def empty : CriticalState := ⟨.initial, .initial, ∅, ∅, 0⟩

/-- The queue of a name; a name without an entry has no waiters. -/
def queueOf (state : CriticalState) (name : String) : List CriticalWaiter :=
  state.waiters.getD name []

end CriticalState

/-- The bounds of a coordinator, within the runtime's own. -/
structure Limits where
  maxHeld : ℕ
  maxWaiters : ℕ
  maxHeld_le : maxHeld ≤ maxHeldLocks
  maxWaiters_le : maxWaiters ≤ maxCriticalWaiters

/-- `with_limits`: both bounds are capped. -/
def Limits.withLimits (maxHeld maxWaiters : ℕ) : Limits :=
  ⟨min maxHeld maxHeldLocks, min maxWaiters maxCriticalWaiters, Nat.min_le_right ..,
    Nat.min_le_right ..⟩

/-- A computation under the coordinator's mutex. -/
abbrev Locked := EStateM CriticalSectionError CriticalState

/-- The value of a poll that has not failed. -/
inductive Poll
  | ready
  | pending
  deriving DecidableEq

section

variable (name : String) (lifecycleId : ℕ) (generation : CoordinationGeneration) (waker : Waker)
  (maxHeld : ℕ) (limits : Limits)

def validateLockName : Locked Unit :=
  if name.isEmpty ∨ maxLockNameBytes < name.utf8ByteSize then throw .invalidName else pure ()

def validateOwner : Locked Unit :=
  if lifecycleId = 0 then throw .invalidOwner else pure ()

def validateGeneration (generation : CoordinationGeneration) (name : String) : Locked Unit :=
  fun state =>
    if state.generation ≠ generation then
      .error (.staleGeneration name state.generation generation) state
    else .ok () state

def bumpWaitGeneration : Locked Unit := fun state =>
  match state.waitGeneration.next with
  | some next => .ok () { state with waitGeneration := next }
  | none => .error .generationOverflow state

def tryAcquireLocked : Locked Unit := fun state =>
  match state.held[name]? with
  | some held => .error (.busy name held.owner) state
  | none =>
    if state.queueOf name ≠ [] then .error (.queued name) state
    else if maxHeld ≤ state.held.size then .error (.capacity maxHeld) state
    else .ok () { state with held := state.held.insert name ⟨lifecycleId, state.generation⟩ }

/-- The statement `state.held.remove(name)`. -/
def removeHeld : Locked Unit := fun state => .ok () { state with held := state.held.erase name }

def releaseLocked : Locked Unit := fun state =>
  match state.held[name]? with
  | some held =>
    if held.owner = lifecycleId ∧ held.generation = state.generation then
      if state.waiterCount ≠ 0 then (bumpWaitGeneration >>= fun _ => removeHeld name) state
      else removeHeld name state
    else .error (.notOwner name held.owner) state
  | none => .error (.notOwner name lifecycleId) state

/-- The request of this user in this generation. -/
def CriticalWaiter.isFor (waiter : CriticalWaiter) : Bool :=
  waiter.owner = lifecycleId ∧ waiter.generation = generation

/-- Replaces the waker of the first request of this user. -/
def rearm : List CriticalWaiter → List CriticalWaiter
  | [] => []
  | waiter :: rest =>
    if waiter.isFor lifecycleId generation then { waiter with waker } :: rest
    else waiter :: rearm rest

/-- Stores what is left of a queue; an empty queue is removed. -/
def putQueue (waiters : ExtTreeMap String (List CriticalWaiter)) (name : String)
    (queue : List CriticalWaiter) : ExtTreeMap String (List CriticalWaiter) :=
  if queue = [] then waiters.erase name else waiters.insert name queue

/-- `waiter.waker = waker.clone()` for a request that is in the queue already. -/
def CriticalState.rearm (state : CriticalState) (name : String) (lifecycleId : ℕ)
    (generation : CoordinationGeneration) (waker : Waker) : CriticalState :=
  { state with
    waiters := state.waiters.insert name
      (Coordination.rearm lifecycleId generation waker (state.queueOf name)) }

/-- The front of the queue leaves it and takes the lock. -/
def takeFront : Locked Poll := fun state =>
  match state.waiterCount with
  | 0 => .error .accountingInvariant state
  | waiterCount + 1 =>
    match state.waiters[name]? with
    | none => .error .accountingInvariant state
    | some queue =>
      .ok .ready
        { state with
          held := state.held.insert name ⟨lifecycleId, generation⟩
          waiters := putQueue state.waiters name queue.tail
          waiterCount }

/-- The poll of the user in front of the queue of a free name. -/
def pollFront : Locked Poll := fun state =>
  -- another name may have taken the last slot before this poll: the request stays queued
  if maxHeld ≤ state.held.size then .ok .pending (state.rearm name lifecycleId generation waker)
  else (bumpWaitGeneration >>= fun _ => takeFront name lifecycleId generation) state

/-- Puts a new request at the back of the queue. -/
def pushBack (waiterCount : ℕ) (waiter : CriticalWaiter) : Locked Poll := fun state =>
  .ok .pending
    { state with
      waiters := state.waiters.insert name (state.queueOf name ++ [waiter])
      waiterCount }

/-- The poll of a user who is not admitted from the queue. -/
def pollBehind : Locked Poll := fun state =>
  if (state.queueOf name).any (·.isFor lifecycleId generation) then
    .ok .pending (state.rearm name lifecycleId generation waker)
  else if state.held[name]?.isSome ∨ state.queueOf name ≠ [] then
    if limits.maxWaiters ≤ state.waiterCount then
      .error (.waiterCapacity limits.maxWaiters) state
    else
      match checkedAdd usizeMax state.waiterCount 1 with
      | none => .error .accountingInvariant state
      | some waiterCount =>
        (bumpWaitGeneration >>= fun _ =>
          pushBack name waiterCount ⟨lifecycleId, generation, waker⟩) state
  else if limits.maxHeld ≤ state.held.size then .error (.capacity limits.maxHeld) state
  else .ok .ready { state with held := state.held.insert name ⟨lifecycleId, generation⟩ }

def pollAcquireLocked : Locked Poll := fun state =>
  match state.held[name]? with
  | some held =>
    if held.owner = lifecycleId ∧ held.generation = generation then
      .error (.busy name held.owner) state
    else pollBehind name lifecycleId generation waker limits state
  | none =>
    if (state.queueOf name).head?.any (·.isFor lifecycleId generation) then
      pollFront name lifecycleId generation waker limits.maxHeld state
    else pollBehind name lifecycleId generation waker limits state

def nextWaiterWaker (state : CriticalState) (name : String) : Option Waker :=
  (state.queueOf name).head?.map (·.waker)

/-- The free names with waiters, in the order of the names. -/
def freeQueues (state : CriticalState) : List (String × List CriticalWaiter) :=
  state.waiters.toList.filter fun entry => entry.2 ≠ [] ∧ state.held[entry.1]?.isNone

/-- The wakers of the front waiters of free names, for as many names as there are free slots. -/
def availableWaiterWakers (state : CriticalState) (maxHeld : ℕ) : List Waker :=
  if maxHeld < state.held.size then []
  else
    ((freeQueues state).filterMap fun entry => entry.2.head?.map (·.waker)).take
      (maxHeld - state.held.size)

/-- The statements after the request was found at `index`. -/
def removeWaiter (index : ℕ) : Locked Bool := fun state =>
  match state.waiters[name]? with
  | none => .error .accountingInvariant state
  | some queue =>
    match state.waiterCount with
    | 0 =>
      -- the request is out of the queue when the count turns out to be wrong
      .error .accountingInvariant
        { state with waiters := state.waiters.insert name (queue.eraseIdx index) }
    | waiterCount + 1 =>
      .ok true
        { state with waiters := putQueue state.waiters name (queue.eraseIdx index), waiterCount }

def cancelWaiterLocked : Locked Bool := fun state =>
  match (state.queueOf name).findIdx? (·.isFor lifecycleId generation) with
  | none => .ok false state
  | some index => (bumpWaitGeneration >>= fun _ => removeWaiter name index) state

end

/-! ## The methods -/

/-- The owner an `advance_generation` that is refused reports. -/
def activeOwner (state : CriticalState) : ℕ :=
  ((state.held.toList.head?.map (·.2.owner)).or
    (state.waiters.toList.findSome? fun entry => entry.2.head?.map (·.owner))).getD 1

def setGeneration (generation : CoordinationGeneration) : Locked CoordinationGeneration :=
  fun state => .ok generation { state with generation }

def advanceGeneration : Locked CoordinationGeneration := fun state =>
  if ¬ state.held.isEmpty ∨ state.waiterCount ≠ 0 then
    .error (.busy "generation" (activeOwner state)) state
  else
    match state.generation.next with
    | none => .error .generationOverflow state
    | some generation => (bumpWaitGeneration >>= fun _ => setGeneration generation) state

section

variable (limits : Limits) (name : String) (lifecycleId : ℕ) (generation : CoordinationGeneration)
  (waker : Waker)

def tryAcquire : Locked Unit := do
  validateLockName name
  validateOwner lifecycleId
  tryAcquireLocked name lifecycleId limits.maxHeld

def tryAcquireGeneration : Locked Unit := do
  validateLockName name
  validateOwner lifecycleId
  validateGeneration generation name
  tryAcquireLocked name lifecycleId limits.maxHeld

/-- `release_generation`: nobody is woken. -/
def releaseGeneration : Locked Unit := do
  validateLockName name
  validateOwner lifecycleId
  validateGeneration generation name
  releaseLocked name lifecycleId

/-- `release`, with the wakers it wakes. -/
def release : Locked (List Waker) := do
  validateLockName name
  validateOwner lifecycleId
  releaseLocked name lifecycleId
  return availableWaiterWakers (← get) limits.maxHeld

def pollAcquireGeneration : Locked Poll := do
  validateLockName name
  validateOwner lifecycleId
  validateGeneration generation name
  pollAcquireLocked name lifecycleId generation waker limits

/-- `poll_acquire`.  It takes the mutex twice; what happens when the generation advances in between
is a `pollAcquireGeneration` with the older generation. -/
def pollAcquire : Locked Poll := do
  pollAcquireGeneration limits name lifecycleId (← get).generation waker

/-- `cancel_acquire_generation`, with the waker it wakes. -/
def cancelAcquireGeneration : Locked (Bool × List Waker) := do
  validateLockName name
  validateOwner lifecycleId
  validateGeneration generation name
  let canceled ← cancelWaiterLocked name lifecycleId generation
  let state ← get
  return (canceled, if canceled then (nextWaiterWaker state name).toList else [])

def cancelAcquire : Locked (Bool × List Waker) := do
  cancelAcquireGeneration name lifecycleId (← get).generation

end

/-! ## Calls -/

inductive Call
  | tryAcquire (name : String) (lifecycleId : ℕ)
  | tryAcquireGeneration (name : String) (lifecycleId : ℕ) (generation : CoordinationGeneration)
  | pollAcquire (name : String) (lifecycleId : ℕ) (waker : Waker)
  | pollAcquireGeneration (name : String) (lifecycleId : ℕ) (generation : CoordinationGeneration)
      (waker : Waker)
  | cancelAcquire (name : String) (lifecycleId : ℕ)
  | cancelAcquireGeneration (name : String) (lifecycleId : ℕ)
      (generation : CoordinationGeneration)
  | release (name : String) (lifecycleId : ℕ)
  | releaseGeneration (name : String) (lifecycleId : ℕ) (generation : CoordinationGeneration)
  | advanceGeneration
  deriving DecidableEq

inductive Reply
  | acquired
  | pending
  | canceled (present : Bool)
  | released
  | advanced (generation : CoordinationGeneration)
  | failed (error : CriticalSectionError)
  deriving DecidableEq

def Poll.reply : Poll → Reply
  | .ready => .acquired
  | .pending => .pending

/-- A method with its answer and the wakers it wakes after the mutex is free. -/
def method (limits : Limits) : Call → Locked (Reply × List Waker)
  | .tryAcquire name id => do
    tryAcquire limits name id
    return (.acquired, [])
  | .tryAcquireGeneration name id generation => do
    tryAcquireGeneration limits name id generation
    return (.acquired, [])
  | .pollAcquire name id waker => do
    return ((← pollAcquire limits name id waker).reply, [])
  | .pollAcquireGeneration name id generation waker => do
    return ((← pollAcquireGeneration limits name id generation waker).reply, [])
  | .cancelAcquire name id => do
    let (present, wake) ← cancelAcquire name id
    return (.canceled present, wake)
  | .cancelAcquireGeneration name id generation => do
    let (present, wake) ← cancelAcquireGeneration name id generation
    return (.canceled present, wake)
  | .release name id => do
    return (.released, ← release limits name id)
  | .releaseGeneration name id generation => do
    releaseGeneration name id generation
    return (.released, [])
  | .advanceGeneration => do
    return (.advanced (← advanceGeneration), [])

structure Outcome where
  reply : Reply
  wake : List Waker
  state : CriticalState

/-- The outcome of a method, also when it fails. -/
def Outcome.of : EStateM.Result CriticalSectionError CriticalState (Reply × List Waker) → Outcome
  | .ok (reply, wake) state => ⟨reply, wake, state⟩
  | .error error state => ⟨.failed error, [], state⟩

def perform (limits : Limits) (state : CriticalState) (call : Call) : Outcome :=
  .of (method limits call state)

end JmeterRs.Coordination
