import JmeterRs.Coordination.Moves

/-!
# First come, first served

The users of a name only see the answers to their calls.  `ServedInOrder` says what an orderly
queue would have answered, without looking into the coordinator: who waits is known from the
answers, and while somebody waits only the one who has waited longest is given the name.
-/

namespace JmeterRs.Coordination

open Std CriticalState

/-- What the users of one name see. -/
inductive Seen
  | acquired (owner : ℕ)
  | pending (owner : ℕ)
  | canceled (owner : ℕ)
  deriving DecidableEq

/-- The answer to a call, if it concerns `name`. -/
def seen (name : String) (call : Call) (reply : Reply) : Option Seen :=
  match call.target with
  | none => none
  | some (target, owner) =>
    if target ≠ name then none
    else
      match reply with
      | .acquired => some (.acquired owner)
      | .pending => some (.pending owner)
      | .canceled true => some (.canceled owner)
      | _ => none

/-- A queue that serves in order: a user who is told to wait for the first time goes to the back,
only the user at the front can acquire, and one who cancels leaves. -/
def ServedInOrder : List ℕ → List Seen → Prop
  | _, [] => True
  | queue, .pending owner :: rest =>
    ServedInOrder (if owner ∈ queue then queue else queue ++ [owner]) rest
  | [], .acquired _ :: rest => ServedInOrder [] rest
  | front :: queue, .acquired owner :: rest => owner = front ∧ ServedInOrder queue rest
  | queue, .canceled owner :: rest => ServedInOrder (queue.erase owner) rest

/-- The state after a sequence of calls, and the answers they got. -/
def runCalls (limits : Limits) : CriticalState → List Call → CriticalState × List (Call × Reply)
  | state, [] => (state, [])
  | state, call :: calls =>
    let outcome := perform limits state call
    let rest := runCalls limits outcome.state calls
    (rest.1, (call, outcome.reply) :: rest.2)

variable {limits : Limits} {state : CriticalState} {calls : List Call} {target : String}
  {reply : Reply} {later : List Seen} {outcome : Outcome}

theorem sound_runCalls (hs : Sound limits state) :
    Sound limits (runCalls limits state calls).1 := by
  induction calls generalizing state with
  | nil => exact hs
  | cons call calls ih => exact ih (hs.does (does_perform hs call))

variable {call : Call} {name : String}

theorem seen_other {owner : ℕ} (htarget : call.target = some (target, owner))
    (hne : target ≠ name) : seen name call reply = none := by
  simp [seen, htarget, hne]

/-- An answer that tells nothing about a queue. -/
theorem seen_none (h : reply ≠ .acquired ∧ reply ≠ .pending ∧ reply ≠ .canceled true) :
    seen name call reply = none := by
  unfold seen
  cases call.target with
  | none => rfl
  | some target => simp [h]

/-- A call after which the queue of its name is `queue`. -/
theorem served_of_queue {after : CriticalState} {owner : ℕ} {queue : List CriticalWaiter}
    (hlater : ServedInOrder (after.owners name) later)
    (htarget : call.target = some (target, owner))
    (hqueues : ∀ other, after.queueOf other = if target = other then queue else state.queueOf other)
    (howner : ServedInOrder (queue.map (·.owner)) later →
      ServedInOrder (state.owners target) ((seen target call reply).toList ++ later)) :
    ServedInOrder (state.owners name) ((seen name call reply).toList ++ later) := by
  rw [owners, hqueues] at hlater
  by_cases hname : target = name
  · subst hname
    rw [if_pos rfl] at hlater
    exact howner hlater
  · rw [if_neg hname] at hlater
    rw [seen_other htarget hname]
    exact hlater

/-- One call seen by the users of `name`. -/
theorem served_step (hs : Sound limits state) (h : Does limits state call outcome)
    (hlater : ServedInOrder (outcome.state.owners name) later) :
    ServedInOrder (state.owners name) ((seen name call outcome.reply).toList ++ later) := by
  cases h with
  | refuse herror | absent | release hrelease htarget hheld | advance hheld hcount =>
    rw [seen_none (by simp)]
    exact hlater
  | @acquire target owner htarget hfree hqueue hslot =>
    have hsame : ServedInOrder (state.owners name) later := hlater
    by_cases htargetName : target = name
    · subst htargetName
      have howners : state.owners target = [] := by simp [owners, hqueue]
      rw [howners] at hsame ⊢
      simpa [seen, htarget, ServedInOrder] using hsame
    · rw [seen_other htarget htargetName]
      exact hsame
  | @grant target owner front rest _ htarget hfree hqueue hfront hslot =>
    refine served_of_queue hlater htarget (getD_put _ · _) fun hlater => ?_
    have howners : state.owners target = front.owner :: rest.map (·.owner) := by
      simp [owners, hqueue]
    rw [howners]
    simpa [seen, htarget, ServedInOrder, hfront] using hlater
  | @join target owner waker _ htarget hwaker hnew hheld hbehind hcount =>
    refine served_of_queue hlater htarget (getD_queue _ · _) fun hlater => ?_
    have howners : ServedInOrder (state.owners target ++ [owner]) later := by
      simpa [owners] using hlater
    simpa [seen, htarget, ServedInOrder, hnew] using howners
  | @renew target waiter before after waker htarget hwaker hqueue hbehind =>
    refine served_of_queue hlater htarget (getD_queue _ · _) fun hlater => ?_
    have hmem : waiter.owner ∈ state.owners target := by simp [owners, hqueue]
    have hsame : ServedInOrder (state.owners target) later := by
      simpa [owners, hqueue] using hlater
    simpa [seen, htarget, ServedInOrder, hmem] using hsame
  | @leave target waiter before after _ htarget hqueue =>
    refine served_of_queue hlater htarget (getD_put _ · _) fun hlater => ?_
    have hnodup := hs.nodup target
    have herase : (state.owners target).erase waiter.owner = (before ++ after).map (·.owner) := by
      simp only [owners, hqueue, List.map_append, List.map_cons] at hnodup ⊢
      have hbefore : waiter.owner ∉ before.map (·.owner) := fun hmem =>
        (List.disjoint_of_nodup_append hnodup) hmem (.head _)
      rw [List.erase_append_right _ hbefore, List.erase_cons_head]
    simpa [seen, htarget, ServedInOrder, herase] using hlater

theorem servedInOrder_runCalls (hs : Sound limits state) : ServedInOrder (state.owners name)
      ((runCalls limits state calls).2.filterMap fun entry => seen name entry.1 entry.2) := by
  induction calls generalizing state with
  | nil => cases state.owners name <;> trivial
  | cons call calls ih =>
    have hdoes := does_perform hs call
    have hlater := served_step hs hdoes (ih (hs.does hdoes))
    rw [runCalls]
    simp only [List.filterMap_cons]
    cases hseen : seen name call (perform limits state call).reply with
    | none | some event =>
      rw [hseen] at hlater
      exact hlater

theorem failed_keeps {error : CriticalSectionError} (h : Does limits state call outcome)
    (hfailed : outcome.reply = .failed error) :
    error ≠ .accountingInvariant ∧ outcome.state.held = state.held ∧
      outcome.state.waiters = state.waiters := by
  cases h with
  | refuse herror =>
    cases hfailed
    exact ⟨herror, rfl, rfl⟩
  | _ => cases hfailed

/-- The bounds and the shape of the queues that a coordinator guarantees. -/
structure Bounded (limits : Limits) (state : CriticalState) : Prop where
  held_le : state.held.size ≤ limits.maxHeld
  count : state.waiterCount = total List.length state.waiters
  count_le : state.waiterCount ≤ limits.maxWaiters
  nonempty : ∀ name : String, state.waiters[name]? ≠ some []
  nodup : ∀ name, (state.owners name).Nodup
  apart : ∀ (name : String) (held : HeldLock), state.held[name]? = some held →
    held.owner ∉ state.owners name

/-- **Fair locks.**  After any sequence of calls the bounds hold; the users of each name were
served in the order in which they were told to wait; and a further call that fails reports no
accounting error and changes neither the locks nor the queues. -/
theorem coordinator_fair (maxHeld maxWaiters : ℕ) (calls : List Call) :
    let limits := Limits.withLimits maxHeld maxWaiters
    let run := runCalls limits .empty calls
    Bounded limits run.1 ∧
      (∀ name, ServedInOrder [] (run.2.filterMap fun entry => seen name entry.1 entry.2)) ∧
      ∀ call error, (perform limits run.1 call).reply = .failed error →
        error ≠ .accountingInvariant ∧ (perform limits run.1 call).state.held = run.1.held ∧
          (perform limits run.1 call).state.waiters = run.1.waiters := by
  intro limits run
  have hempty : Sound limits .empty := sound_empty
  have hs : Sound limits run.1 := sound_runCalls hempty
  refine ⟨⟨hs.held_le, hs.count, hs.count_le, hs.nonempty, hs.nodup, hs.apart⟩, ?_, ?_⟩
  · intro name
    exact servedInOrder_runCalls hempty
  · intro call error hfailed
    exact failed_keeps (does_perform hs call) hfailed

end JmeterRs.Coordination
