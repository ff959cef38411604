import JmeterRs.Coordination.Moves

/-!
# Wake-ups

A user who waits is polled again only after the waker it registered last has been woken.  A call
clones wakers under the mutex and wakes them after it has released the mutex, so other calls can
come in between: `System` keeps the wakers that are on their way, and a log of registrations and
wake-ups.
-/

namespace JmeterRs.Coordination

open Std CriticalState List

inductive Event
  | registered (name : String) (owner : ℕ) (waker : Waker)
  | woken (waker : Waker)
  deriving DecidableEq

/-- The coordinator, the wakers taken out of it and not woken yet, and the log, newest first. -/
structure System where
  state : CriticalState
  inFlight : List Waker
  log : List Event

def System.initial : System := ⟨.empty, [], []⟩

/-- A call up to the release of the mutex, or one of the wake-ups that follow. -/
inductive Action
  | call (call : Call)
  | wake (waker : Waker)
  deriving DecidableEq

/-- A poll that stays pending has registered its waker. -/
def registration (call : Call) (reply : Reply) : Option Event :=
  match call.target, call.waker, reply with
  | some (name, owner), some waker, .pending => some (.registered name owner waker)
  | _, _, _ => none

section

variable (limits : Limits) (system : System) (state : CriticalState) (name : String) (owner : ℕ)

def System.act : Action → System
  | .call call =>
    let outcome := perform limits system.state call
    ⟨outcome.state, system.inFlight ++ outcome.wake,
      (registration call outcome.reply).toList ++ system.log⟩
  | .wake waker =>
    if waker ∈ system.inFlight then
      ⟨system.state, system.inFlight.erase waker, .woken waker :: system.log⟩
    else system

def System.run (actions : List Action) : System := actions.foldl (System.act limits) system

/-- An entry with which this user registered for this name. -/
def Event.isRegistration : Event → Bool
  | .registered target user _ => target = name ∧ user = owner
  | .woken _ => false

/-- The waker that this user registered last for this name. -/
def lastWaker (log : List Event) : Option Waker :=
  (log.find? (·.isRegistration name owner)).bind fun
    | .registered _ _ waker => some waker
    | .woken _ => none

/-- What happened since this user registered last for this name. -/
def sinceRegistration (log : List Event) : List Event :=
  log.takeWhile fun event => ¬ event.isRegistration name owner

/-- The waker registered last has been woken since, or a call is about to wake it. -/
def Notified : Prop :=
  ∃ waker, lastWaker name owner system.log = some waker ∧
    (.woken waker ∈ sinceRegistration name owner system.log ∨ waker ∈ system.inFlight)

/-- Whoever could acquire a name from its queue has been told. -/
def NoLostWakeUp : Prop :=
  ∀ name front rest, system.state.held[name]? = none →
    system.state.queueOf name = front :: rest → system.state.held.size < limits.maxHeld →
    Notified system name front.owner

/-! ## Releases that wake everybody they have to -/

/-- The queues of the names that nobody holds once `name` is given up. -/
def freedQueues : List (String × List CriticalWaiter) :=
  freeQueues { state with held := state.held.erase name }

/-- There was a free slot before the release, and nobody waits for the released name. -/
def Uncontended : Prop := state.held.size < limits.maxHeld ∧ state.queueOf name = []

/-- Before a successful `release` there are slots for all free names with waiters; before a
successful `release_generation` there are no such names. -/
def WakesAll : Call → Prop
  | .release name id =>
    state.held[name]?.any (·.owner = id) →
      (freedQueues state name).length + (state.held.size - 1) ≤ limits.maxHeld ∨
        Uncontended limits state name
  | .releaseGeneration name id _ =>
    state.held[name]?.any (·.owner = id) →
      freedQueues state name = [] ∨ Uncontended limits state name
  | _ => True

/-- Every release of a run wakes all it has to. -/
def WakesAllAlong (limits : Limits) : System → List Action → Prop
  | _, [] => True
  | system, .wake waker :: actions => WakesAllAlong limits (system.act limits (.wake waker)) actions
  | system, .call call :: actions =>
    WakesAll limits system.state call ∧
      WakesAllAlong limits (system.act limits (.call call)) actions

instance : Decidable (Uncontended limits state name) := inferInstanceAs (Decidable (_ ∧ _))

instance (call : Call) : Decidable (WakesAll limits state call) := by
  cases call <;> unfold WakesAll <;> infer_instance

instance decidableWakesAllAlong (limits : Limits) :
    (system : System) → (actions : List Action) → Decidable (WakesAllAlong limits system actions)
  | _, [] => isTrue trivial
  | system, .wake waker :: actions =>
    decidableWakesAllAlong limits (system.act limits (.wake waker)) actions
  | system, .call call :: actions =>
    have := decidableWakesAllAlong limits (system.act limits (.call call)) actions
    inferInstanceAs (Decidable (_ ∧ _))

end

/-! ## The log -/

variable {name : String} {owner : ℕ}

section

variable {event : Event} {log : List Event} (h : event.isRegistration name owner = false)

include h

theorem lastWaker_ne : lastWaker name owner (event :: log) = lastWaker name owner log := by
  simp [lastWaker, h]

theorem since_ne :
    sinceRegistration name owner (event :: log) = event :: sinceRegistration name owner log := by
  simp [sinceRegistration, h]

end

theorem registers_ne {target : String} {user : ℕ} (waker : Waker)
    (h : target = name → user ≠ owner) :
    (Event.registered target user waker).isRegistration name owner = false := by
  simpa [Event.isRegistration] using h

/-- Wake-ups on their way and registrations of others take nothing away. -/
theorem Notified.later {system after : System} (h : Notified system name owner)
    {events : List Event} (hlog : after.log = events ++ system.log)
    (hevents : ∀ event ∈ events, event.isRegistration name owner = false)
    (hflight : ∀ waker ∈ system.inFlight, waker ∈ after.inFlight ∨ .woken waker ∈ events) :
    Notified after name owner := by
  obtain ⟨waker, hlast, hwoken⟩ := h
  have hsame : lastWaker name owner after.log = lastWaker name owner system.log ∧
      sinceRegistration name owner after.log = events ++
        sinceRegistration name owner system.log := by
    rw [hlog]
    clear hflight hlog
    induction events with
    | nil => exact ⟨rfl, rfl⟩
    | cons event events ih =>
      have hevent := hevents event (.head _)
      obtain ⟨hl, hsince⟩ := ih fun other hother => hevents other (.tail _ hother)
      rw [cons_append, lastWaker_ne hevent, since_ne hevent, hl, hsince]
      exact ⟨rfl, rfl⟩
  refine ⟨waker, hsame.1.trans hlast, ?_⟩
  rw [hsame.2, mem_append]
  rcases hwoken with hwoken | hflying
  · exact .inl (.inr hwoken)
  · rcases hflight waker hflying with h | h
    · exact .inr h
    · exact .inl (.inl h)

theorem registers_pending {call : Call} {waker : Waker}
    (htarget : call.target = some (name, owner)) (hwaker : call.waker = some waker) :
    registration call .pending = some (.registered name owner waker) := by
  simp [registration, htarget, hwaker]

theorem registers_none {call : Call} {reply : Reply} (h : reply ≠ .pending) :
    registration call reply = none := by
  unfold registration
  split
  · exact absurd rfl h
  · rfl

/-! ## The invariant -/

/-- The waker in a queue is the one its user registered last, and nobody was forgotten. -/
structure Attended (limits : Limits) (system : System) : Prop where
  sound : Sound limits system.state
  registered : ∀ name, ∀ waiter ∈ system.state.queueOf name,
    lastWaker name waiter.owner system.log = some waiter.waker
  attended : NoLostWakeUp limits system

theorem attended_initial {limits : Limits} : Attended limits .initial where
  sound := sound_empty
  registered := by
    simp [System.initial, empty, queueOf]
  attended := by
    intro name front rest _ hqu
    simp [System.initial, empty, queueOf] at hqu

section

variable {limits : Limits} {system : System}

theorem Attended.wake (hs : Attended limits system) (waker : Waker) :
    Attended limits (system.act limits (.wake waker)) := by
  by_cases hflying : waker ∈ system.inFlight
  · have hact : system.act limits (.wake waker) =
        ⟨system.state, system.inFlight.erase waker, .woken waker :: system.log⟩ := by
      simp [System.act, hflying]
    rw [hact]
    have hother : ∀ name owner, (Event.woken waker).isRegistration name owner = false :=
      fun _ _ => rfl
    refine ⟨hs.sound, ?_, ?_⟩
    · intro name waiter hwaiter
      rw [lastWaker_ne (hother ..)]
      exact hs.registered name waiter hwaiter
    · intro name front rest hfree hqu hslot
      refine (hs.attended name front rest hfree hqu hslot).later
        (show _ = [Event.woken waker] ++ system.log from rfl) (by simp [hother]) ?_
      intro other hmem
      by_cases heq : other = waker
      · exact .inr (by simp [heq])
      · exact .inl ((mem_erase_of_ne heq).mpr hmem)
  · have hact : system.act limits (.wake waker) = system := by simp [System.act, hflying]
    rwa [hact]

variable {name : String} {front : CriticalWaiter} {rest : List CriticalWaiter}

/-- More wake-ups on their way take nothing away. -/
theorem Notified.quiet {owner : ℕ} (h : Notified system name owner) (state : CriticalState)
    (wake : List Waker) : Notified ⟨state, system.inFlight ++ wake, system.log⟩ name owner :=
  h.later (show _ = [] ++ system.log from rfl) (by simp) fun _ hmem =>
    .inl (mem_append_left _ hmem)

/-- Neither does the registration of somebody else. -/
theorem Notified.beside {target : String} {user : ℕ} (h : Notified system name owner)
    {state : CriticalState} {waker : Waker} (hne : target = name → user ≠ owner) :
    Notified ⟨state, system.inFlight ++ [], .registered target user waker :: system.log⟩ name
      owner :=
  h.later (show _ = [Event.registered target user waker] ++ system.log from rfl)
    (by simpa using registers_ne waker hne)
    fun _ hmem => .inl (mem_append_left _ hmem)

section

variable (hs : Attended limits system) {state : CriticalState} (hsou : Sound limits state)

include hs hsou

/-- A call without a registration after which every queue is what is left of the old one. -/
theorem Attended.unregistered (wake : List Waker)
    (hqueues : ∀ name, state.queueOf name ⊆ system.state.queueOf name)
    (hattended : ∀ name front rest, state.held[name]? = none →
      state.queueOf name = front :: rest → state.held.size < limits.maxHeld →
      Notified system name front.owner ∨ front.waker ∈ wake) :
    Attended limits ⟨state, system.inFlight ++ wake, system.log⟩ where
  sound := hsou
  registered := by
    intro name waiter hwaiter
    exact hs.registered name waiter (hqueues name hwaiter)
  attended := by
    intro name front rest hfree hqu hslot
    rcases hattended name front rest hfree hqu hslot with h | h
    · exact h.quiet state wake
    · have hfront : front ∈ state.queueOf name := by
        rw [show state.queueOf name = front :: rest from hqu]
        exact .head _
      exact ⟨front.waker, hs.registered name front (hqueues name hfront),
        .inr (mem_append_right _ h)⟩

theorem Attended.registers {waker : Waker} {queue : List CriticalWaiter}
    (hheld : state.held = system.state.held) (hqueues : ∀ other,
      state.queueOf other = if name = other then queue else system.state.queueOf other)
    (hqu : ∀ waiter ∈ queue, waiter.owner = owner ∧ waiter.waker = waker ∨
      waiter.owner ≠ owner ∧ waiter ∈ system.state.queueOf name)
    (hfront : ∀ front rest, state.held[name]? = none → queue = front :: rest →
      state.held.size < limits.maxHeld →
      front.owner ≠ owner ∧ ∃ rest, system.state.queueOf name = front :: rest) :
    Attended limits
      ⟨state, system.inFlight ++ [], .registered name owner waker :: system.log⟩ where
  sound := hsou
  registered := by
    intro other waiter hwaiter
    simp only [hqueues] at hwaiter
    by_cases hother : name = other
    · subst hother
      rw [if_pos rfl] at hwaiter
      rcases hqu waiter hwaiter with ⟨rfl, rfl⟩ | ⟨hne, hmem⟩
      · simp [lastWaker, Event.isRegistration]
      · rw [lastWaker_ne (registers_ne _ fun _ => hne.symm)]
        exact hs.registered name waiter hmem
    · rw [if_neg hother] at hwaiter
      rw [lastWaker_ne (registers_ne _ fun h => absurd h hother)]
      exact hs.registered other waiter hwaiter
  attended := by
    intro other front rest hfree hfrontOf hslot
    simp only [hqueues] at hfrontOf
    by_cases hother : name = other
    · subst hother
      rw [if_pos rfl] at hfrontOf
      obtain ⟨hne, old, hold⟩ := hfront front rest hfree hfrontOf hslot
      rw [hheld] at hfree hslot
      exact (hs.attended name front old hfree hold hslot).beside fun _ => hne.symm
    · rw [if_neg hother] at hfrontOf
      rw [hheld] at hfree hslot
      exact (hs.attended other front rest hfree hfrontOf hslot).beside fun h => absurd h hother

end

variable {lock : HeldLock}

theorem get?_held {held : ExtTreeMap String HeldLock} {other : String}
    (h : (held.insert name lock)[other]? = none) : name ≠ other ∧ held[other]? = none := by
  rw [ExtTreeMap.getElem?_insert] at h
  split_ifs at h with hother
  exact ⟨by simpa using hother, h⟩

theorem size_lt_insert {held : ExtTreeMap String HeldLock} {bound : ℕ}
    (h : (held.insert name lock).size < bound) : held.size < bound :=
  Nat.lt_of_le_of_lt ExtTreeMap.size_le_size_insert h

theorem queueOf_subset {state : CriticalState} {queue : List CriticalWaiter}
    (h : queue ⊆ state.queueOf name) (other : String) :
    (putQueue state.waiters name queue).getD other [] ⊆ state.queueOf other := by
  rw [getD_put]
  split_ifs with hother
  · exact hother ▸ h
  · exact List.Subset.refl _

section

variable (state : CriticalState) (hfree : state.held[name]? = none)
  (hqu : state.queueOf name = front :: rest)

include state hfree hqu

theorem mem_freeQueues : (name, front :: rest) ∈ freeQueues state := by
  have hget := get?_queueOf (show state.queueOf name ≠ [] by simp [hqu])
  rw [hqu, ← ExtTreeMap.mem_toList_iff_getElem?_eq_some] at hget
  exact mem_filter.mpr ⟨hget, by simp [hfree]⟩

/-- The front of every free queue is woken if there are slots for all of them. -/
theorem mem_wakers (hslots : (freeQueues state).length + state.held.size ≤ limits.maxHeld) :
    front.waker ∈ availableWaiterWakers state limits.maxHeld := by
  have hlength : ((freeQueues state).filterMap fun entry => entry.2.head?.map (·.waker)).length ≤
      limits.maxHeld - state.held.size := by
    have := length_filterMap_le (fun entry : String × List CriticalWaiter =>
      entry.2.head?.map (·.waker)) (freeQueues state)
    omega
  rw [availableWaiterWakers, if_neg (by omega), take_of_length_le hlength, mem_filterMap]
  exact ⟨_, mem_freeQueues state hfree hqu, rfl⟩

end

/-- Before a successful release that wakes all it has to, everybody who will be able to acquire is
woken by it or has been notified. -/
theorem attended_release (hs : Attended limits system) {call : Call} {held : HeldLock}
    {waitGeneration : CoordinationGeneration} (hwakes : WakesAll limits system.state call)
    (hrelease : call.isRelease) (htarget : call.target = some (name, held.owner))
    (hheld : system.state.held[name]? = some held) {other : String}
    (hfree : (system.state.held.erase name)[other]? = none)
    (hqu : system.state.queueOf other = front :: rest) :
    Notified system other front.owner ∨ front.waker ∈ call.releaseWakes limits
      { system.state with waitGeneration, held := system.state.held.erase name } := by
  have hsize : (system.state.held.erase name).size = system.state.held.size - 1 := by
    rw [ExtTreeMap.size_erase, ExtTreeMap.contains_eq_isSome_getElem?, hheld]
    rfl
  have huncontended : Uncontended limits system.state name →
      Notified system other front.owner := by
    rintro ⟨hslot, hempty⟩
    have hne : name ≠ other := by
      rintro rfl
      rw [hempty] at hqu
      cases hqu
    rw [ExtTreeMap.getElem?_erase, if_neg (by simpa using hne)] at hfree
    exact hs.attended other front rest hfree hqu hslot
  cases call with
  | release target id =>
    obtain ⟨rfl, rfl⟩ : target = name ∧ id = held.owner := by simpa [Call.target] using htarget
    rcases hwakes (by simp [hheld]) with hslots | h
    · right
      refine mem_wakers
        { system.state with waitGeneration, held := system.state.held.erase target } hfree hqu ?_
      rw [← hsize] at hslots
      exact hslots
    · exact .inl (huncontended h)
  | releaseGeneration target id generation =>
    obtain ⟨rfl, rfl⟩ : target = name ∧ id = held.owner := by simpa [Call.target] using htarget
    rcases hwakes (by simp [hheld]) with hnone | h
    · exfalso
      have hmem : (other, front :: rest) ∈ freedQueues system.state target :=
        mem_freeQueues { system.state with held := system.state.held.erase target } hfree hqu
      rw [hnone] at hmem
      cases hmem
    · exact .inl (huncontended h)
  | _ => simp [Call.isRelease] at hrelease

/-- **One call.**  If its release wakes all it has to, nobody is forgotten. -/
theorem Attended.call (hs : Attended limits system) {call : Call}
    (hwakes : WakesAll limits system.state call) :
    Attended limits (system.act limits (.call call)) := by
  have hdoes := does_perform hs.sound call
  have hsou := hs.sound.does hdoes
  simp only [System.act]
  generalize perform limits system.state call = outcome at hdoes hsou ⊢
  cases hdoes with
  | refuse herror | absent | advance hheld hcount =>
    rw [registers_none (by simp)]
    exact hs.unregistered hsou [] (fun _ => List.Subset.refl _)
      fun name front rest hfree hqu hslot =>
        .inl (hs.attended name front rest hfree hqu hslot)
  | acquire htarget hfree hqu hslot =>
    rw [registers_none (by simp)]
    refine hs.unregistered hsou [] (fun _ => List.Subset.refl _) ?_
    intro other front rest hother hqu hslot
    exact .inl (hs.attended other front rest (get?_held hother).2 hqu (size_lt_insert hslot))
  | @grant name owner first remaining _ htarget hfree hqu hfront hslot =>
    rw [registers_none (by simp)]
    refine hs.unregistered hsou [] (queueOf_subset (hqu ▸ subset_cons_self ..)) ?_
    intro other front rest hother hqueueOther hslotOther
    obtain ⟨hne, hfreeOther⟩ := get?_held hother
    simp only [queueOf, getD_put, if_neg hne] at hqueueOther
    exact .inl (hs.attended other front rest hfreeOther hqueueOther (size_lt_insert hslotOther))
  | @join name owner waker _ htarget hwaker hnew hheld hbehind hcount =>
    rw [registers_pending htarget hwaker]
    refine hs.registers hsou rfl (getD_queue _ · _) (fun waiter hwaiter => ?_)
      fun front rest hfree hqu hslot => ?_
    · rcases mem_append.mp hwaiter with hold | hlast
      · right
        refine ⟨fun howner => hnew ?_, hold⟩
        exact howner ▸ mem_map_of_mem hold
      · left
        rw [mem_singleton.mp hlast]
        exact ⟨rfl, rfl⟩
    · -- the name is free, so the new request is behind an older one
      have hne : system.state.queueOf name ≠ [] := hbehind.resolve_left fun h => h hfree
      obtain ⟨old, older, hold⟩ := exists_cons_of_ne_nil hne
      rw [hold, cons_append, List.cons.injEq] at hqu
      obtain ⟨rfl, -⟩ := hqu
      refine ⟨fun howner => hnew ?_, older, hold⟩
      rw [← howner, owners, hold]
      exact .head _
  | @renew name waiter before after waker htarget hwaker hqu hbehind =>
    rw [registers_pending htarget hwaker]
    have hnodup := hs.sound.nodup name
    rw [owners, hqu, map_append, map_cons, nodup_middle, nodup_cons, ← map_append] at hnodup
    have hother : ∀ other ∈ before ++ after, other.owner ≠ waiter.owner := by
      intro other hmem howner
      exact hnodup.1 (howner ▸ mem_map_of_mem hmem)
    refine hs.registers hsou rfl (getD_queue _ · _) (fun other hmem => ?_)
      fun front rest hfree hfront hslot => ?_
    · rw [mem_append, mem_cons] at hmem
      rcases hmem with hmem | rfl | hmem
      · exact .inr ⟨hother other (mem_append_left _ hmem), by rw [hqu]; simp [hmem]⟩
      · exact .inl ⟨rfl, rfl⟩
      · exact .inr ⟨hother other (mem_append_right _ hmem), by rw [hqu]; simp [hmem]⟩
    · -- the request at the front is renewed only when the name cannot be acquired
      have hbefore : before ≠ [] := by
        rcases hbehind with h | h | h
        · exact absurd hfree h
        · exact h
        · exact absurd hslot (Nat.not_lt.mpr h)
      obtain ⟨old, older, rfl⟩ := exists_cons_of_ne_nil hbefore
      rw [cons_append, List.cons.injEq] at hfront
      obtain ⟨rfl, -⟩ := hfront
      exact ⟨hother old (by simp), older ++ waiter :: after, hqu⟩
  | @leave name waiter before after _ htarget hqu =>
    rw [registers_none (by simp)]
    have hsub : before ++ after ⊆ system.state.queueOf name := by
      rw [hqu]
      exact append_subset.mpr ⟨subset_append_left ..,
        fun _ hmem => mem_append_right _ (.tail _ hmem)⟩
    refine hs.unregistered hsou _ (queueOf_subset hsub)
      fun other front rest hfree hfront hslot => ?_
    simp only [queueOf, getD_put] at hfront
    split_ifs at hfront with hother
    · right
      simp [hfront]
    · exact .inl (hs.attended other front rest hfree hfront hslot)
  | release hrelease htarget hheld =>
    rw [registers_none (by simp)]
    refine hs.unregistered hsou _ (fun _ => List.Subset.refl _) ?_
    intro other front rest hfree hqu hslot
    exact attended_release hs hwakes hrelease htarget hheld hfree hqu

end

variable {limits : Limits} {system : System}

theorem attended_run (hs : Attended limits system) {actions : List Action}
    (h : WakesAllAlong limits system actions) : Attended limits (system.run limits actions) := by
  induction actions generalizing system with
  | nil => exact hs
  | cons action actions ih =>
    cases action with
    | wake waker => exact ih (hs.wake waker) h
    | call call => exact ih (hs.call h.1) h.2

/-- **No wake-up is lost** in a run whose releases wake all they have to: whenever a name is free,
somebody waits for it and there is a free slot, the waker its front waiter registered last has been
woken since, or the call that took it out of the queue is about to wake it. -/
theorem noLostWakeUp_of_wakesAll (limits : Limits) (actions : List Action)
    (h : WakesAllAlong limits .initial actions) :
    NoLostWakeUp limits (System.initial.run limits actions) :=
  (attended_run attended_initial h).attended

/-- The race for the only slot: user 2 is woken, user 3 takes the slot with another name, and its
release wakes user 2 again. -/
theorem noLostWakeUp_of_wakesAll_race :
    NoLostWakeUp (.withLimits 1 2) (System.initial.run (.withLimits 1 2)
      [.call (.tryAcquire "gate" 1), .call (.pollAcquire "gate" 2 20),
        .call (.release "gate" 1), .wake 20, .call (.tryAcquire "other" 3),
        .call (.pollAcquire "gate" 2 21), .call (.release "other" 3), .wake 21]) :=
  noLostWakeUp_of_wakesAll _ _ (by decide +kernel)

theorem not_noLostWakeUp (name : String) (front : CriticalWaiter) (rest : List CriticalWaiter)
    (waker : Waker) (hfree : system.state.held[name]? = none)
    (hqu : system.state.queueOf name = front :: rest)
    (hslot : system.state.held.size < limits.maxHeld)
    (hlast : lastWaker name front.owner system.log = some waker)
    (hwoken : .woken waker ∉ sinceRegistration name front.owner system.log)
    (hflight : waker ∉ system.inFlight) : ¬ NoLostWakeUp limits system := by
  intro h
  obtain ⟨other, hother, hnotified⟩ := h name front rest hfree hqu hslot
  rw [hlast, Option.some.injEq] at hother
  subst hother
  exact hnotified.elim hwoken hflight

/-- `release_generation` wakes nobody; and a `release` wakes for as many names as there are free
slots, so that user 4 is never told that `b` is free when user 2, who was told that `a` is free,
cancels. -/
theorem wakeUps_lost : ¬ NoLostWakeUp (.withLimits 1 2) (System.initial.run (.withLimits 1 2)
      [.call (.tryAcquire "gate" 1), .call (.pollAcquire "gate" 2 20),
        .call (.releaseGeneration "gate" 1 .initial)]) ∧
    ¬ NoLostWakeUp (.withLimits 1 2) (System.initial.run (.withLimits 1 2)
      [.call (.tryAcquire "a" 1), .call (.pollAcquire "a" 2 20), .call (.release "a" 1), .wake 20,
        .call (.tryAcquire "b" 3), .call (.pollAcquire "b" 4 40), .call (.pollAcquire "a" 2 21),
        .call (.release "b" 3), .wake 21, .call (.cancelAcquire "a" 2)]) := by
  constructor
  · exact not_noLostWakeUp "gate" ⟨2, .initial, 20⟩ [] 20 (by decide +kernel) (by decide +kernel)
      (by decide +kernel) (by decide +kernel) (by decide +kernel) (by decide +kernel)
  · exact not_noLostWakeUp "b" ⟨4, .initial, 40⟩ [] 40 (by decide +kernel) (by decide +kernel)
      (by decide +kernel) (by decide +kernel) (by decide +kernel) (by decide +kernel)

end JmeterRs.Coordination
