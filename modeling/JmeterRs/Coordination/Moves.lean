import JmeterRs.Coordination.Critical

/-!
# What a call does to the locks and the queues

`Does` lists the transitions of the coordinator with their guards: an acquisition of a free name
without waiters, the admission of the front of a queue, a new request, a renewed request, a
cancellation, a release, a new generation, or nothing.  Every call makes one of them from a sound
state; soundness and the order of the queues are then read off this list.
-/

namespace JmeterRs.Coordination

open Std CriticalState List

/-! ## Queues -/

section

variable (waiters : ExtTreeMap String (List CriticalWaiter)) {name : String}

include waiters

theorem getD_put (other : String) (queue : List CriticalWaiter) :
    (putQueue waiters name queue).getD other [] =
      if name = other then queue else waiters.getD other [] := by
  unfold putQueue
  by_cases hqueue : queue = []
  · rw [if_pos hqueue, ExtTreeMap.getD_erase]
    simp [hqueue]
  · rw [if_neg hqueue, ExtTreeMap.getD_insert]
    simp

theorem getD_queue (other : String) (queue : List CriticalWaiter) :
    (waiters.insert name queue).getD other [] =
      if name = other then queue else waiters.getD other [] := by
  rw [ExtTreeMap.getD_insert]
  simp

theorem total_putQueue (queue : List CriticalWaiter) :
    total List.length (putQueue waiters name queue) =
      queue.length + total List.length (waiters.erase name) := by
  unfold putQueue
  by_cases hqueue : queue = []
  · simp [hqueue]
  · rw [if_neg hqueue, total_insert]

end

variable {state : CriticalState}

theorem total_queueOf (name : String) : total List.length state.waiters =
      (state.queueOf name).length + total List.length (state.waiters.erase name) := by
  unfold queueOf
  cases h : state.waiters[name]? with
  | none => rw [erase_of_none h, ExtTreeMap.getD_eq_getD_getElem?, h]; simp
  | some queue => rw [total_get? h, ExtTreeMap.getD_eq_getD_getElem?, h]; rfl

theorem get?_queueOf {name : String} (h : state.queueOf name ≠ []) :
    state.waiters[name]? = some (state.queueOf name) := by
  unfold queueOf at *
  rw [ExtTreeMap.getD_eq_getD_getElem?] at *
  cases hget : state.waiters[name]? with
  | none => simp [hget] at h
  | some queue => rfl

namespace CriticalState

def owners (state : CriticalState) (name : String) : List ℕ := (state.queueOf name).map (·.owner)

end CriticalState

/-- What every state of a coordinator satisfies. -/
structure Sound (limits : Limits) (state : CriticalState) : Prop where
  held_le : state.held.size ≤ limits.maxHeld
  count : state.waiterCount = total List.length state.waiters
  count_le : state.waiterCount ≤ limits.maxWaiters
  nonempty : ∀ name : String, state.waiters[name]? ≠ some []
  nodup : ∀ name, (state.owners name).Nodup
  apart : ∀ (name : String) (held : HeldLock), state.held[name]? = some held →
    held.owner ∉ state.owners name
  waitsNow : ∀ name, ∀ waiter ∈ state.queueOf name, waiter.generation = state.generation
  heldNow : ∀ (name : String) (held : HeldLock), state.held[name]? = some held →
    held.generation = state.generation

/-! ## Transitions -/

def Call.target : Call → Option (String × ℕ)
  | .tryAcquire name id | .tryAcquireGeneration name id _ | .pollAcquire name id _
  | .pollAcquireGeneration name id _ _ | .cancelAcquire name id
  | .cancelAcquireGeneration name id _ | .release name id | .releaseGeneration name id _ =>
    some (name, id)
  | .advanceGeneration => none

def Call.waker : Call → Option Waker
  | .pollAcquire _ _ waker | .pollAcquireGeneration _ _ _ waker => some waker
  | _ => none

def Call.isRelease : Call → Bool
  | .release _ _ | .releaseGeneration _ _ _ => true
  | _ => false

/-- The wakers a successful release wakes, in the state it leaves behind. -/
def Call.releaseWakes (limits : Limits) (state : CriticalState) : Call → List Waker
  | .release _ _ => availableWaiterWakers state limits.maxHeld
  | _ => []

/-- The transitions of the coordinator. -/
inductive Does (limits : Limits) (state : CriticalState) (call : Call) : Outcome → Prop
  | refuse {error : CriticalSectionError} (herror : error ≠ .accountingInvariant) :
    Does limits state call ⟨.failed error, [], state⟩
  | absent : Does limits state call ⟨.canceled false, [], state⟩
  | acquire {name : String} {owner : ℕ} (htarget : call.target = some (name, owner))
    (hfree : state.held[name]? = none) (hqueue : state.queueOf name = [])
    (hslot : state.held.size < limits.maxHeld) :
    Does limits state call
      ⟨.acquired, [], { state with held := state.held.insert name ⟨owner, state.generation⟩ }⟩
  | grant {name : String} {owner : ℕ} {front : CriticalWaiter} {rest : List CriticalWaiter}
    {waitGeneration : CoordinationGeneration} (htarget : call.target = some (name, owner))
    (hfree : state.held[name]? = none) (hqueue : state.queueOf name = front :: rest)
    (hfront : front.owner = owner) (hslot : state.held.size < limits.maxHeld) :
    Does limits state call
      ⟨.acquired, [], { state with
        waitGeneration
        held := state.held.insert name ⟨owner, state.generation⟩
        waiters := putQueue state.waiters name rest
        waiterCount := state.waiterCount - 1 }⟩
  | join {name : String} {owner : ℕ} {waker : Waker} {waitGeneration : CoordinationGeneration}
    (htarget : call.target = some (name, owner)) (hwaker : call.waker = some waker)
    (hnew : owner ∉ state.owners name)
    (hheld : ∀ held, state.held[name]? = some held → held.owner ≠ owner)
    (hbehind : state.held[name]? ≠ none ∨ state.queueOf name ≠ [])
    (hcount : state.waiterCount < limits.maxWaiters) :
    Does limits state call
      ⟨.pending, [], { state with
        waitGeneration
        waiters := state.waiters.insert name
          (state.queueOf name ++ [⟨owner, state.generation, waker⟩])
        waiterCount := state.waiterCount + 1 }⟩
  | renew {name : String} {waiter : CriticalWaiter} {before after : List CriticalWaiter}
    {waker : Waker} (htarget : call.target = some (name, waiter.owner))
    (hwaker : call.waker = some waker) (hqueue : state.queueOf name = before ++ waiter :: after)
    (hbehind : state.held[name]? ≠ none ∨ before ≠ [] ∨ limits.maxHeld ≤ state.held.size) :
    Does limits state call
      ⟨.pending, [], { state with
        waiters := state.waiters.insert name (before ++ { waiter with waker } :: after) }⟩
  | leave {name : String} {waiter : CriticalWaiter} {before after : List CriticalWaiter}
    {waitGeneration : CoordinationGeneration}
    (htarget : call.target = some (name, waiter.owner))
    (hqueue : state.queueOf name = before ++ waiter :: after) :
    Does limits state call
      ⟨.canceled true, ((before ++ after).head?.map (·.waker)).toList, { state with
        waitGeneration
        waiters := putQueue state.waiters name (before ++ after)
        waiterCount := state.waiterCount - 1 }⟩
  | release {name : String} {held : HeldLock} {waitGeneration : CoordinationGeneration}
    (hrelease : call.isRelease) (htarget : call.target = some (name, held.owner))
    (hheld : state.held[name]? = some held) :
    Does limits state call
      ⟨.released,
        call.releaseWakes limits { state with waitGeneration, held := state.held.erase name },
        { state with waitGeneration, held := state.held.erase name }⟩
  | advance {generation waitGeneration : CoordinationGeneration}
    (hheld : state.held = ∅) (hcount : state.waiterCount = 0) :
    Does limits state call
      ⟨.advanced generation, [], { state with waitGeneration, generation }⟩

section

variable {limits : Limits} {state : CriticalState} {call : Call} {name : String} {id : ℕ}
  {generation : CoordinationGeneration} {waker : Waker}

theorem isFor_iff (hs : Sound limits state) {waiter : CriticalWaiter}
    (hmem : waiter ∈ state.queueOf name) :
    waiter.isFor id state.generation ↔ waiter.owner = id := by
  simp [CriticalWaiter.isFor, hs.waitsNow name waiter hmem]

/-- A queue with a request is counted. -/
theorem Sound.waiters_ne_zero (hs : Sound limits state) (h : state.queueOf name ≠ []) :
    state.waiterCount ≠ 0 := by
  rw [hs.count, total_queueOf name]
  have := length_pos_iff.mpr h
  omega

theorem takeFront_eq (state : CriticalState) {front : CriticalWaiter} {rest : List CriticalWaiter}
    (hcount : state.waiterCount ≠ 0) (hget : state.waiters[name]? = some (front :: rest)) :
    takeFront name id generation state = .ok .ready
        { state with
          held := state.held.insert name ⟨id, generation⟩
          waiters := putQueue state.waiters name rest
          waiterCount := state.waiterCount - 1 } := by
  unfold takeFront
  cases h : state.waiterCount with
  | zero => exact absurd h hcount
  | succ count => simp only [hget, tail_cons, Nat.add_sub_cancel]

variable {next : Locked (Reply × List Waker)} {queue : List CriticalWaiter}

theorem does_validated (h : Does limits state call (.of (next state))) : Does limits state call
      (.of ((do validateLockName name; validateOwner id; next) state)) := by
  unfold validateLockName validateOwner
  by_cases hname : name.isEmpty ∨ maxLockNameBytes < name.utf8ByteSize
  · rw [if_pos hname]
    exact .refuse (by simp)
  · rw [if_neg hname]
    split_ifs
    · exact .refuse (by simp)
    · exact h

theorem does_validate
    (h : generation = state.generation → Does limits state call (.of (next state))) :
    Does limits state call (.of ((validateGeneration generation name >>= fun _ => next)
      state)) := by
  simp only [bind, EStateM.bind, validateGeneration]
  split_ifs with hgen
  · exact .refuse (by simp)
  · exact h (not_not.mp hgen).symm

/-- A failed bump changes nothing; after a successful one only `waitGeneration` is new. -/
theorem does_bump {α : Type} {m rest : Locked α}
    {answer : α → Locked (Reply × List Waker)}
    (hm : m state = (bumpWaitGeneration >>= fun _ => rest) state)
    (h : ∀ waitGeneration,
      Does limits state call (.of ((rest >>= answer) { state with waitGeneration }))) :
    Does limits state call (.of ((m >>= answer) state)) := by
  simp only [bind, EStateM.bind, bumpWaitGeneration] at hm h ⊢
  rw [hm]
  cases state.waitGeneration.next with
  | none => exact .refuse (by simp)
  | some waitGeneration => exact h waitGeneration

theorem does_try (htarget : call.target = some (name, id)) : Does limits state call
      (.of ((tryAcquireLocked name id limits.maxHeld >>= fun _ => pure (.acquired, []))
        state)) := by
  simp only [bind, EStateM.bind, tryAcquireLocked]
  cases hheld : state.held[name]? with
  | some held => exact .refuse (by simp)
  | none =>
    split_ifs with hqueue hslot
    · exact .refuse (by simp)
    · exact .refuse (by simp)
    · exact .acquire htarget hheld (not_not.mp hqueue) (by omega)

theorem rearm_eq (waker : Waker) (h : queue.any (·.isFor id generation)) :
    ∃ before waiter after, queue = before ++ waiter :: after ∧ waiter.isFor id generation ∧
      (before = [] ↔ queue.head?.any (·.isFor id generation)) ∧
      rearm id generation waker queue = before ++ { waiter with waker } :: after := by
  induction queue with
  | nil => simp at h
  | cons waiter rest ih =>
    by_cases hwaiter : waiter.isFor id generation
    · exact ⟨[], waiter, rest, rfl, hwaiter, by simp [hwaiter], by simp [rearm, hwaiter]⟩
    · obtain ⟨before, found, after, rfl, hfound, -, hrearm⟩ := ih (by simpa [hwaiter] using h)
      refine ⟨waiter :: before, found, after, rfl, hfound, by simp [hwaiter], ?_⟩
      simp only [rearm, hwaiter, Bool.false_eq_true, if_false, hrearm, cons_append]

section

variable (hs : Sound limits state)

include hs

/-- A poll that finds its request in the queue and cannot be admitted. -/
theorem does_rearm (htarget : call.target = some (name, id)) (hwaker : call.waker = some waker)
    (hfound : (state.queueOf name).any (·.isFor id state.generation))
    (hbehind : state.held[name]? ≠ none ∨
      ¬ (state.queueOf name).head?.any (·.isFor id state.generation) ∨
      limits.maxHeld ≤ state.held.size) : Does limits state call
      ⟨.pending, [], state.rearm name id state.generation waker⟩ := by
  obtain ⟨before, waiter, after, hqueue, hwaiter, hhead, hrearm⟩ := rearm_eq waker hfound
  have howner : waiter.owner = id := (isFor_iff hs (by rw [hqueue]; simp)).mp hwaiter
  subst howner
  unfold CriticalState.rearm
  rw [hrearm]
  refine .renew htarget hwaker hqueue ?_
  rcases hbehind with h | h | h
  · exact .inl h
  · exact .inr (.inl fun hnil => h (hhead.mp hnil))
  · exact .inr (.inr h)

theorem does_pollFront (htarget : call.target = some (name, id))
    (hwaker : call.waker = some waker) (hfree : state.held[name]? = none)
    (hfront : (state.queueOf name).head?.any (·.isFor id state.generation)) : Does limits state call
      (.of ((pollFront name id state.generation waker limits.maxHeld >>= fun poll =>
        pure (poll.reply, [])) state)) := by
  obtain ⟨front, rest, hqueue⟩ : ∃ front rest, state.queueOf name = front :: rest := by
    cases hqueue : state.queueOf name with
    | nil => simp [hqueue] at hfront
    | cons front rest => exact ⟨front, rest, rfl⟩
  have hisFor : front.isFor id state.generation := by simpa [hqueue] using hfront
  have howner : front.owner = id := (isFor_iff hs (by rw [hqueue]; simp)).mp hisFor
  by_cases hslot : limits.maxHeld ≤ state.held.size
  · have hpending : (pollFront name id state.generation waker limits.maxHeld >>= fun poll =>
        pure (poll.reply, ([] : List Waker))) state =
        .ok (.pending, []) (state.rearm name id state.generation waker) := by
      simp [bind, EStateM.bind, pollFront, hslot, pure, EStateM.pure, Poll.reply]
    rw [hpending]
    exact does_rearm hs htarget hwaker (by simp [hqueue, hisFor]) (.inr (.inr hslot))
  · have hget : state.waiters[name]? = some (front :: rest) := by
      rw [← hqueue]
      exact get?_queueOf (by simp [hqueue])
    refine does_bump (if_neg hslot) fun waitGeneration => ?_
    have hne : state.queueOf name ≠ [] := by simp [hqueue]
    simp only [bind, EStateM.bind,
      takeFront_eq { state with waitGeneration } (hs.waiters_ne_zero hne) hget]
    exact .grant htarget hfree hqueue howner (by omega)

theorem owner_notMem (h : ¬ (state.queueOf name).any (·.isFor id state.generation)) :
    id ∉ state.owners name := by
  rintro hmem
  obtain ⟨waiter, hwaiter, rfl⟩ := mem_map.mp hmem
  exact h (any_eq_true.mpr ⟨waiter, hwaiter, (isFor_iff hs hwaiter).mpr rfl⟩)

theorem does_pollBehind (htarget : call.target = some (name, id)) (hwaker : call.waker = some waker)
    (hholder : ∀ held, state.held[name]? = some held → held.owner ≠ id)
    (hbehind : state.held[name]? ≠ none ∨
      ¬ (state.queueOf name).head?.any (·.isFor id state.generation)) : Does limits state call
      (.of ((pollBehind name id state.generation waker limits >>= fun poll =>
        pure (poll.reply, [])) state)) := by
  by_cases hfound : (state.queueOf name).any (·.isFor id state.generation)
  · simp only [bind, EStateM.bind, pollBehind, if_pos hfound]
    exact does_rearm hs htarget hwaker hfound (by tauto)
  by_cases hwait : state.held[name]?.isSome ∨ state.queueOf name ≠ []
  · by_cases hfull : limits.maxWaiters ≤ state.waiterCount
    · simp only [bind, EStateM.bind, pollBehind, if_neg hfound, if_pos hwait, if_pos hfull]
      exact .refuse (by simp)
    · have hfits : state.waiterCount + 1 ≤ usizeMax := by
        have hcap := limits.maxWaiters_le
        unfold maxCriticalWaiters at hcap
        unfold usizeMax
        omega
      have hstep : pollBehind name id state.generation waker limits state =
          (bumpWaitGeneration >>= fun _ =>
            pushBack name (state.waiterCount + 1) ⟨id, state.generation, waker⟩) state := by
        simp only [pollBehind, if_neg hfound, if_pos hwait, if_neg hfull, checkedAdd_le hfits]
      refine does_bump hstep fun waitGeneration => ?_
      refine .join htarget hwaker (owner_notMem hs hfound) hholder ?_ (by omega)
      exact hwait.imp_left Option.isSome_iff_ne_none.mp
  · have hfree : state.held[name]? = none := by
      simpa using fun h => hwait (.inl h)
    have hqueue : state.queueOf name = [] := not_not.mp fun h => hwait (.inr h)
    by_cases hslot : limits.maxHeld ≤ state.held.size
    · simp only [bind, EStateM.bind, pollBehind, if_neg hfound, if_neg hwait, if_pos hslot]
      exact .refuse (by simp)
    · simp only [bind, EStateM.bind, pollBehind, if_neg hfound, if_neg hwait, if_neg hslot]
      exact .acquire htarget hfree hqueue (by omega)

theorem does_poll (htarget : call.target = some (name, id)) (hwaker : call.waker = some waker) :
    Does limits state call
      (.of ((pollAcquireLocked name id state.generation waker limits >>= fun poll =>
        pure (poll.reply, [])) state)) := by
  cases hheld : state.held[name]? with
  | some held =>
    by_cases howner : held.owner = id
    · have hbusy : held.owner = id ∧ held.generation = state.generation :=
        ⟨howner, hs.heldNow name held hheld⟩
      simp only [bind, EStateM.bind, pollAcquireLocked, hheld, if_pos hbusy]
      exact .refuse (by simp)
    · have hother : ¬ (held.owner = id ∧ held.generation = state.generation) := fun h => howner h.1
      simp only [bind, EStateM.bind, pollAcquireLocked, hheld, if_neg hother]
      refine does_pollBehind hs htarget hwaker ?_ (.inl (by simp [hheld]))
      intro other h
      rw [hheld, Option.some.injEq] at h
      exact h ▸ howner
  | none =>
    by_cases hfront : (state.queueOf name).head?.any (·.isFor id state.generation)
    · simp only [bind, EStateM.bind, pollAcquireLocked, hheld, if_pos hfront]
      exact does_pollFront hs htarget hwaker hheld hfront
    · simp only [bind, EStateM.bind, pollAcquireLocked, hheld, if_neg hfront]
      refine does_pollBehind hs htarget hwaker ?_ (.inr hfront)
      intro other h
      rw [hheld] at h
      cases h

end

theorem removeWaiter_eq (state : CriticalState) {index : ℕ} {rest : List CriticalWaiter}
    (hcount : state.waiterCount ≠ 0) (hget : state.waiters[name]? = some queue)
    (herase : queue.eraseIdx index = rest) : removeWaiter name index state = .ok true
        { state with
          waiters := putQueue state.waiters name rest
          waiterCount := state.waiterCount - 1 } := by
  unfold removeWaiter
  cases h : state.waiterCount with
  | zero => exact absurd h hcount
  | succ count => simp only [hget, herase, Nat.add_sub_cancel]

theorem findIdx?_split {index : ℕ} (h : queue.findIdx? (·.isFor id generation) = some index) :
    ∃ before waiter after, queue = before ++ waiter :: after ∧ waiter.isFor id generation ∧
      queue.eraseIdx index = before ++ after := by
  rw [findIdx?_eq_some_iff_getElem] at h
  obtain ⟨hlt, hwaiter, -⟩ := h
  refine ⟨queue.take index, queue[index], queue.drop (index + 1), ?_, hwaiter,
    eraseIdx_eq_take_drop_succ ..⟩
  rw [getElem_cons_drop, take_append_drop]

/-- What `cancel_acquire_generation` does with the answer of the locked part. -/
def cancelReply (name : String) (canceled : Bool) : Locked (Reply × List Waker) := fun state =>
  .ok (.canceled canceled, if canceled then (nextWaiterWaker state name).toList else []) state

theorem does_cancel (hs : Sound limits state)
    (htarget : call.target = some (name, id)) : Does limits state call
      (.of ((cancelWaiterLocked name id state.generation >>= cancelReply name) state)) := by
  cases hindex : (state.queueOf name).findIdx? (·.isFor id state.generation) with
  | none =>
    simp only [bind, EStateM.bind, cancelWaiterLocked, hindex]
    exact .absent
  | some index =>
    obtain ⟨before, waiter, after, hqueue, hwaiter, herase⟩ := findIdx?_split hindex
    obtain rfl : waiter.owner = id := (isFor_iff hs (by rw [hqueue]; simp)).mp hwaiter
    have hne : state.queueOf name ≠ [] := by simp [hqueue]
    have hstep : cancelWaiterLocked name waiter.owner state.generation state =
        (bumpWaitGeneration >>= fun _ => removeWaiter name index) state := by
      simp only [cancelWaiterLocked, hindex]
    refine does_bump hstep fun waitGeneration => ?_
    have hremove := removeWaiter_eq { state with waitGeneration } (hs.waiters_ne_zero hne)
      (get?_queueOf hne) herase
    simp only [bind, EStateM.bind, hremove, cancelReply, nextWaiterWaker, queueOf,
      getD_put, if_true, Outcome.of]
    exact .leave htarget hqueue

/-- A release that succeeds erases the lock; `answer` reads the state it leaves. -/
theorem does_release (hrelease : call.isRelease) (htarget : call.target = some (name, id))
    {answer : Locked (Reply × List Waker)}
    (hanswer : ∀ after, answer after = .ok (.released, call.releaseWakes limits after) after) :
    Does limits state call (.of ((releaseLocked name id >>= fun _ => answer) state)) := by
  cases hheld : state.held[name]? with
  | none =>
    simp only [bind, EStateM.bind, releaseLocked, hheld]
    exact .refuse (by simp)
  | some held =>
    by_cases howner : held.owner = id ∧ held.generation = state.generation
    · rw [← howner.1] at htarget
      by_cases hcount : state.waiterCount ≠ 0
      · have hstep : releaseLocked name id state =
            (bumpWaitGeneration >>= fun _ => removeHeld name) state := by
          simp only [releaseLocked, hheld, if_pos howner, if_pos hcount]
        refine does_bump hstep fun waitGeneration => ?_
        simp only [bind, EStateM.bind, removeHeld, hanswer]
        exact .release hrelease htarget hheld
      · simp only [bind, EStateM.bind, releaseLocked, hheld, if_pos howner, if_neg hcount,
          removeHeld, hanswer]
        exact .release hrelease htarget hheld
    · simp only [bind, EStateM.bind, releaseLocked, hheld, if_neg howner]
      exact .refuse (by simp)

theorem does_advance : Does limits state call
      (.of ((advanceGeneration >>= fun generation => pure (.advanced generation, [])) state)) := by
  by_cases hact : ¬ state.held.isEmpty ∨ state.waiterCount ≠ 0
  · simp only [bind, EStateM.bind, advanceGeneration, if_pos hact]
    exact .refuse (by simp)
  cases hnext : state.generation.next with
  | none =>
    simp only [bind, EStateM.bind, advanceGeneration, if_neg hact, hnext]
    exact .refuse (by simp)
  | some generation =>
    have hstep : advanceGeneration state =
        (bumpWaitGeneration >>= fun _ => setGeneration generation) state := by
      simp only [advanceGeneration, if_neg hact, hnext]
    refine does_bump hstep fun waitGeneration => ?_
    rw [not_or, not_not, not_not] at hact
    exact .advance (ExtTreeMap.isEmpty_iff.mp hact.1) hact.2

end

variable {limits : Limits}

/-- **Every call makes one of the transitions.** -/
theorem does_perform {state : CriticalState} (hs : Sound limits state) (call : Call) :
    Does limits state call (perform limits state call) := by
  unfold perform
  cases call with
  | tryAcquire name id =>
    simp only [method, tryAcquire, bind_assoc]
    exact does_validated (does_try rfl)
  | tryAcquireGeneration name id generation =>
    simp only [method, tryAcquireGeneration, bind_assoc]
    exact does_validated (does_validate fun _ => does_try rfl)
  | pollAcquire name id waker =>
    simp only [method, pollAcquire, pollAcquireGeneration, bind_assoc]
    exact does_validated (does_validate fun _ => does_poll hs rfl rfl)
  | pollAcquireGeneration name id generation waker =>
    simp only [method, pollAcquireGeneration, bind_assoc]
    refine does_validated (does_validate ?_)
    rintro rfl
    exact does_poll hs rfl rfl
  | cancelAcquire name id =>
    simp only [method, cancelAcquire, cancelAcquireGeneration, bind_assoc]
    exact does_validated (does_validate fun _ => does_cancel hs rfl)
  | cancelAcquireGeneration name id generation =>
    simp only [method, cancelAcquireGeneration, bind_assoc]
    refine does_validated (does_validate ?_)
    rintro rfl
    exact does_cancel hs rfl
  | release name id =>
    simp only [method, release, bind_assoc]
    exact does_validated (does_release rfl rfl fun _ => rfl)
  | releaseGeneration name id generation =>
    simp only [method, releaseGeneration, bind_assoc]
    exact does_validated (does_validate fun _ =>
      does_release rfl rfl fun _ => rfl)
  | advanceGeneration => exact does_advance

/-! ## Soundness -/

theorem sound_empty : Sound limits .empty where
  held_le := by simp [empty]
  count := (total_empty List.length).symm
  count_le := by simp [empty]
  nonempty := by simp [empty]
  nodup := by simp [empty, owners, queueOf]
  apart := by simp [empty]
  waitsNow := by simp [empty, queueOf]
  heldNow := by simp [empty]

section

variable {limits : Limits} {state : CriticalState} {name : String} {owner : ℕ}
  {waitGeneration : CoordinationGeneration}

variable (hs : Sound limits state) {queue : List CriticalWaiter}

include hs

/-- A user who is not in the queue of a free name takes it. -/
theorem Sound.hold (hfree : state.held[name]? = none)
    (hslot : state.held.size < limits.maxHeld) (howner : owner ∉ state.owners name) :
    Sound limits { state with held := state.held.insert name ⟨owner, state.generation⟩ } where
  held_le := by
    have hnew : state.held.contains name = false := by
      rw [ExtTreeMap.contains_eq_isSome_getElem?, hfree]
      rfl
    simp only [ExtTreeMap.size_insert, hnew]
    exact hslot
  __ := hs
  apart := by
    intro other held h
    rw [get?_insert_eq] at h
    split_ifs at h with hother
    · cases h
      exact hother ▸ howner
    · exact hs.apart other held h
  heldNow := by
    intro other held h
    rw [get?_insert_eq] at h
    split_ifs at h
    · cases h
      rfl
    · exact hs.heldNow other held h

/-- A lock is given up. -/
theorem Sound.free (name : String) :
    Sound limits { state with waitGeneration, held := state.held.erase name } where
  held_le := Nat.le_trans ExtTreeMap.size_erase_le hs.held_le
  __ := hs
  apart := by
    intro other held h
    rw [ExtTreeMap.getElem?_erase] at h
    split_ifs at h
    exact hs.apart other held h
  heldNow := by
    intro other held h
    rw [ExtTreeMap.getElem?_erase] at h
    split_ifs at h
    exact hs.heldNow other held h

/-- The queue of one name is replaced. -/
theorem Sound.requeue {waiters : ExtTreeMap String (List CriticalWaiter)} {waiterCount : ℕ}
    (hget : ∀ other, waiters.getD other [] =
      if name = other then queue else state.waiters.getD other [])
    (hnonempty : ∀ other : String, waiters[other]? ≠ some [])
    (htotal : total List.length waiters =
      queue.length + total List.length (state.waiters.erase name))
    (hcount : waiterCount + (state.queueOf name).length = state.waiterCount + queue.length)
    (hle : waiterCount ≤ limits.maxWaiters) (hnodup : (queue.map (·.owner)).Nodup)
    (hapart : ∀ held : HeldLock, state.held[name]? = some held → held.owner ∉ queue.map (·.owner))
    (hnow : ∀ waiter ∈ queue, waiter.generation = state.generation) :
    Sound limits { state with waitGeneration, waiters, waiterCount } where
  __ := hs
  count := by
    have hold := hs.count
    rw [total_queueOf name] at hold
    simp only [htotal]
    omega
  count_le := hle
  nonempty := hnonempty
  nodup := by
    intro other
    simp only [owners, queueOf, hget]
    by_cases hother : name = other
    · rwa [if_pos hother]
    · rw [if_neg hother]
      exact hs.nodup other
  apart := by
    intro other held h
    simp only [owners, queueOf, hget]
    by_cases hother : name = other
    · subst hother
      rw [if_pos rfl]
      exact hapart held h
    · rw [if_neg hother]
      exact hs.apart other held h
  waitsNow := by
    intro other
    simp only [queueOf, hget]
    by_cases hother : name = other
    · rwa [if_pos hother]
    · rw [if_neg hother]
      exact hs.waitsNow other

theorem insert_ne_nil (h : queue ≠ []) (other : String) :
    (state.waiters.insert name queue)[other]? ≠ some [] := by
  rw [ExtTreeMap.getElem?_insert]
  split_ifs
  · simpa using h
  · exact hs.nonempty other

theorem putQueue_ne_nil (queue : List CriticalWaiter) (other : String) :
    (putQueue state.waiters name queue)[other]? ≠ some [] := by
  unfold putQueue
  by_cases hqueue : queue = []
  · rw [if_pos hqueue, ExtTreeMap.getElem?_erase]
    split_ifs
    · simp
    · exact hs.nonempty other
  · rw [if_neg hqueue]
    exact insert_ne_nil hs hqueue other

/-- A request leaves the queue. -/
theorem Sound.dequeue {waiter : CriticalWaiter} {before after : List CriticalWaiter}
    (hqueue : state.queueOf name = before ++ waiter :: after) :
    Sound limits { state with
      waitGeneration
      waiters := putQueue state.waiters name (before ++ after)
      waiterCount := state.waiterCount - 1 } := by
  have hsub : (before ++ after).Sublist (state.queueOf name) := by
    rw [hqueue]
    exact (List.Sublist.refl before).append (sublist_cons_self waiter after)
  have hne : state.queueOf name ≠ [] := by simp [hqueue]
  have hpos := hs.waiters_ne_zero hne
  have hlength : (state.queueOf name).length = (before ++ after).length + 1 := by
    rw [hqueue]
    simp only [length_append, length_cons]
    omega
  have hle := hs.count_le
  refine hs.requeue (getD_put _ · _) (putQueue_ne_nil hs _) (total_putQueue ..) (by omega)
    (by omega) ((hs.nodup name).sublist (hsub.map _)) ?_ ?_
  · intro held hheld hmem
    exact hs.apart name held hheld ((hsub.map _).subset hmem)
  · intro other hother
    exact hs.waitsNow name other (hsub.subset hother)

theorem Sound.does {call : Call} {outcome : Outcome}
    (h : Does limits state call outcome) : Sound limits outcome.state := by
  cases h with
  | refuse herror => exact hs
  | absent => exact hs
  | acquire htarget hfree hqueue hslot =>
    exact hs.hold hfree hslot (by simp [owners, hqueue])
  | @grant name owner front rest waitGeneration htarget hfree hqueue hfront hslot =>
    have hsplit : state.queueOf name = [] ++ front :: rest := hqueue
    have hrest : Sound limits { state with
        waitGeneration
        waiters := putQueue state.waiters name rest
        waiterCount := state.waiterCount - 1 } := hs.dequeue hsplit
    refine hrest.hold hfree hslot ?_
    have hnodup := hs.nodup name
    rw [owners, hqueue, map_cons, nodup_cons, hfront] at hnodup
    simpa [owners, queueOf, getD_put] using hnodup.1
  | @join name owner waker waitGeneration htarget hwaker hnew hheld hbehind hcount =>
    refine hs.requeue (getD_queue _ · _) (insert_ne_nil hs (by simp)) (total_insert ..)
      (by simp; omega) (by omega) ?_ ?_ ?_
    · rw [map_append, nodup_append']
      refine ⟨hs.nodup name, by simp, ?_⟩
      simpa [owners] using hnew
    · intro held h hmem
      rw [map_append, mem_append] at hmem
      rcases hmem with hmem | hmem
      · exact hs.apart name held h hmem
      · exact hheld held h (by simpa using hmem)
    · intro waiter hwaiter
      rcases mem_append.mp hwaiter with hwaiter | hwaiter
      · exact hs.waitsNow name waiter hwaiter
      · rw [mem_singleton.mp hwaiter]
  | @renew name waiter before after waker htarget hwaker hqueue hbehind =>
    have howners : (before ++ { waiter with waker } :: after).map (·.owner) =
        state.owners name := by
      simp [owners, hqueue]
    refine hs.requeue (getD_queue _ · _) (insert_ne_nil hs (by simp)) (total_insert ..)
      (by simp [hqueue]) hs.count_le ?_ ?_ ?_
    · rw [howners]
      exact hs.nodup name
    · rw [howners]
      exact hs.apart name
    · have hnow := hs.waitsNow name
      rw [hqueue] at hnow
      intro other hother
      rcases mem_append.mp hother with hother | hother
      · exact hnow other (mem_append_left _ hother)
      · rcases mem_cons.mp hother with rfl | hother
        · exact hnow waiter (by simp)
        · exact hnow other (by simp [hother])
  | leave htarget hqueue => exact hs.dequeue hqueue
  | release hrelease htarget hheld => exact hs.free _
  | @advance generation waitGeneration hheld hcount =>
    have hqueues : ∀ name, state.queueOf name = [] := by
      intro name
      by_contra h
      exact hs.waiters_ne_zero h hcount
    exact {
      __ := hs
      waitsNow := by
        intro name waiter hwaiter
        have : waiter ∈ state.queueOf name := hwaiter
        simp [hqueues name] at this
      heldNow := by
        intro name held h
        simp [hheld] at h }

end

end JmeterRs.Coordination
