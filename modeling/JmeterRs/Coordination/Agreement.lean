import JmeterRs.Lib.Log
import JmeterRs.Coordination.Arrival

/-!
# Agreement at a barrier

A run of the coordinator is a sequence of calls.  `BarrierWorld` keeps, beside the state, what has
happened at each key: a generation is opened, participants arrive in it, are told an outcome, and
leave it.  In every run whose participants complete only with an outcome that they were told in
their generation, all participants of a generation are told the same, and `Released` is told only
when exactly the expected participants have arrived in time and none of them was cancelled.
-/

namespace JmeterRs.Coordination

open Std List ExtTreeMap
open Execution (ComponentError)

/-! ## Histories -/

inductive BarrierEvent
  | opened (generation : CoordinationGeneration) (expected : ℕ) (deadline : Option ℕ)
  | arrived (generation : CoordinationGeneration) (participant : String) (now : ℕ)
  | told (generation : CoordinationGeneration) (participant : String)
      (outcome : SynchronizingOutcome)
  | cancelled (generation : CoordinationGeneration) (participant : String)
  | completed (generation : CoordinationGeneration) (participant : String)
  deriving DecidableEq

def BarrierEvent.generation : BarrierEvent → CoordinationGeneration
  | .opened generation .. | .arrived generation .. | .told generation ..
  | .cancelled generation .. | .completed generation .. => generation

inductive BarrierCall
  | register (group : String) (size : NonZeroUsize)
  | unregister (group : String)
  | poll (request : SynchronizingRequest) (waker : Waker)
  | cancel (request : SynchronizingRequest)
  | complete (request : SynchronizingRequest) (outcome : SynchronizingOutcome)

/-- The state, and what has happened at each key. -/
structure BarrierWorld where
  state : BarrierState
  log : BarrierKey → List BarrierEvent

open BarrierWorld

def BarrierWorld.initial : BarrierWorld := ⟨.empty, fun _ => []⟩

/-- What a poll adds to the history of its key: it can be seen from the state before and after it
and from what it returns. -/
def pollEvents (participant : String) (now : ℕ) (before after : BarrierView)
    (outcome : Option SynchronizingOutcome) : List BarrierEvent :=
  (match before.slot, after.slot with
    | none, some slot => [.opened slot.generation slot.expected slot.deadline]
    | _, _ => []) ++
  (match before.lease participant, after.lease participant with
    | none, some lease => [.arrived lease.generation participant now]
    | _, _ => []) ++
  (outcome.map (.told after.next participant)).toList

/-- The history of a key goes on. -/
def BarrierWorld.note (w : BarrierWorld) (key : BarrierKey) (state : BarrierState)
    (events : List BarrierEvent) : BarrierWorld :=
  ⟨state, Function.update w.log key (w.log key ++ events)⟩

def BarrierWorld.step (limits : BarrierLimits) (w : BarrierWorld) : BarrierCall → BarrierWorld
  | .register group size =>
    match registerThreadGroup limits group size w.state with
    | .ok _ state => { w with state }
    | .error _ state => { w with state }
  | .unregister group => { w with state := unregisterThreadGroup group w.state }
  | .poll request waker =>
    match keyFor request, pollArrival limits request waker w.state with
    | .ok key, .ok arrival state =>
      w.note key state (pollEvents request.participant request.now (w.state.view key)
        (state.view key) arrival.1)
    | _, .ok _ state => { w with state }
    | _, .error _ state => { w with state }
  | .cancel request =>
    match keyFor request with
    | .ok key =>
      w.note key (cancel request w.state).1
        (((w.state.view key).lease request.participant).map
          fun lease => .cancelled lease.generation request.participant).toList
    | .error _ => { w with state := (cancel request w.state).1 }
  | .complete request outcome =>
    match keyFor request with
    | .ok key =>
      w.note key (complete request outcome w.state)
        (((w.state.view key).lease request.participant).map
          fun lease => .completed lease.generation request.participant).toList
    | .error _ => { w with state := complete request outcome w.state }

/-- A participant that holds a lease completes only with an outcome it was told in its
generation. -/
def BarrierWorld.Allowed (w : BarrierWorld) : BarrierCall → Prop
  | .complete request outcome => ∀ key lease, keyFor request = .ok key →
      (w.state.view key).lease request.participant = some lease →
      .told lease.generation request.participant outcome ∈ w.log key
  | _ => True

/-- The worlds that allowed calls lead to. -/
inductive BarrierReachable (limits : BarrierLimits) : BarrierWorld → Prop
  | initial : BarrierReachable limits .initial
  | step {w : BarrierWorld} {call : BarrierCall} (h : BarrierReachable limits w)
      (hallowed : w.Allowed call) : BarrierReachable limits (w.step limits call)

/-! ## The law of a key -/

/-- Exactly the expected participants have arrived in a generation, in time, and none was
cancelled. -/
def Gathered (generation : CoordinationGeneration) (log : List BarrierEvent) : Prop :=
  ∃ (expected : ℕ) (deadline : Option ℕ) (participants : List String),
    .opened generation expected deadline ∈ log ∧
    participants.Nodup ∧ participants.length = expected ∧
    (∀ participant, participant ∈ participants ↔ ∃ now, .arrived generation participant now ∈ log) ∧
    (∀ participant now time, .arrived generation participant now ∈ log → deadline = some time →
      now < time) ∧
    ∀ participant, .cancelled generation participant ∉ log

/-- What may happen at a key after `log`. -/
def BarrierAllowed (log : List BarrierEvent) : BarrierEvent → Prop
  | .opened generation .. => ∀ event ∈ log, event.generation.get < generation.get
  | .arrived generation .. => ∀ other told, .told generation other told ∉ log
  | .told generation _ outcome =>
    (∀ other told, .told generation other told ∈ log → told = outcome) ∧
    (outcome = .released →
      (∃ other, .told generation other .released ∈ log) ∨ Gathered generation log)
  | _ => True

/-- What is known about the slot of a key, whatever its outcome. -/
structure SlotBase (v : BarrierView) (log : List BarrierEvent) (slot : BarrierSlot) : Prop where
  next : v.next = slot.generation
  overflow : v.overflow = false
  leases : ∀ {participant lease}, v.lease participant = some lease →
    lease.generation = slot.generation
  arrivals : ∀ {participant}, slot.arrivals.contains participant = true →
    v.lease participant ≠ none
  came : ∀ {participant}, v.lease participant ≠ none →
    ∃ now, .arrived slot.generation participant now ∈ log
  past : ∀ event ∈ log, event.generation.get ≤ slot.generation.get
  opened : .opened slot.generation slot.expected slot.deadline ∈ log

structure Waiting (log : List BarrierEvent) (slot : BarrierSlot) : Prop where
  untold : ∀ participant outcome, .told slot.generation participant outcome ∉ log
  room : slot.arrivals.size < slot.expected
  arrived : ∀ participant, slot.arrivals.contains participant = true ↔
    ∃ now, .arrived slot.generation participant now ∈ log
  inTime : ∀ participant now time, .arrived slot.generation participant now ∈ log →
    slot.deadline = some time → now < time
  uncancelled : ∀ participant, .cancelled slot.generation participant ∉ log

structure Decided (log : List BarrierEvent) (generation : CoordinationGeneration)
    (outcome : SynchronizingOutcome) : Prop where
  agreed : ∀ participant told, .told generation participant told ∈ log → told = outcome
  released : outcome = .released → ∃ participant, .told generation participant .released ∈ log

structure SlotLaw (v : BarrierView) (log : List BarrierEvent) (slot : BarrierSlot) : Prop where
  base : SlotBase v log slot
  held : ∃ participant, v.lease participant ≠ none
  waiting : slot.outcome = none → Waiting log slot
  decided : ∀ outcome, slot.outcome = some outcome → Decided log slot.generation outcome

structure KeyLaw (v : BarrierView) (log : List BarrierEvent) : Prop where
  stepwise : Stepwise BarrierAllowed log
  slot : ∀ slot, v.slot = some slot → SlotLaw v log slot
  free : v.slot = none → (∀ participant, v.lease participant = none) ∧
    (v.overflow = false → ∀ event ∈ log, event.generation.get < v.next.get)

variable {v v' : BarrierView} {log : List BarrierEvent} {slot : BarrierSlot} {participant : String}
  {now : ℕ}

/-! ## More history -/

variable {events : List BarrierEvent} {outcome : SynchronizingOutcome}

section

variable (h : SlotBase v log slot)

include h

/-- The events of the current generation go on. -/
theorem SlotBase.append (hevents : ∀ event ∈ events, event.generation = slot.generation) :
    SlotBase v (log ++ events) slot where
  __ := h
  came hlease := by
    obtain ⟨now, hmem⟩ := h.came hlease
    exact ⟨now, mem_append_left _ hmem⟩
  past event hev := by
    rcases mem_append.mp hev with hev | hev
    · exact h.past event hev
    · exact Nat.le_of_eq (congrArg CoordinationGeneration.get (hevents event hev))
  opened := mem_append_left _ h.opened

/-- Only the outcome, the arrivals or the retired participants of a slot differ. -/
theorem SlotBase.replace {slot' : BarrierSlot}
    (hgen : slot'.generation = slot.generation) (hexpected : slot'.expected = slot.expected)
    (hdeadline : slot'.deadline = slot.deadline)
    (harrivals : ∀ {participant}, slot'.arrivals.contains participant = true →
      v.lease participant ≠ none) :
    SlotBase { v with slot := some slot' } log slot' where
  next := h.next.trans hgen.symm
  overflow := h.overflow
  leases hlease := (h.leases hlease).trans hgen.symm
  arrivals := harrivals
  came hlease := by
    rw [hgen]
    exact h.came hlease
  past event hev := by
    rw [hgen]
    exact h.past event hev
  opened := by
    rw [hgen, hexpected, hdeadline]
    exact h.opened

theorem SlotBase.lease (participant : String) (now : ℕ) :
    SlotBase { v with lease := Function.update v.lease participant (some ⟨v.next⟩) }
      (log ++ [.arrived slot.generation participant now]) slot where
  __ := h
  leases {other lease} hlease := by
    dsimp only at hlease
    rw [Function.update_apply] at hlease
    split_ifs at hlease
    · cases hlease
      exact h.next
    · exact h.leases hlease
  arrivals {other} hother hnone := by
    dsimp only at hnone
    rw [Function.update_apply] at hnone
    split_ifs at hnone
    exact h.arrivals hother hnone
  came {other} hlease := by
    dsimp only at hlease
    rw [Function.update_apply] at hlease
    split_ifs at hlease with hother
    · exact hother ▸ ⟨now, mem_append_right _ (mem_singleton_self _)⟩
    · obtain ⟨when_, hmem⟩ := h.came hlease
      exact ⟨when_, mem_append_left _ hmem⟩
  past event hev := by
    rcases mem_append.mp hev with hev | hev
    · exact h.past event hev
    · rw [mem_singleton] at hev
      subst hev
      exact Nat.le_refl _
  opened := mem_append_left _ h.opened

/-- A participant gives its lease back. -/
theorem SlotBase.unlease (harrivals : slot.arrivals.contains participant = false) :
    SlotBase { v with lease := Function.update v.lease participant none } log slot := by
  have hsome : ∀ {other}, Function.update v.lease participant none other ≠ none →
      v.lease other ≠ none ∧ other ≠ participant := by
    intro other hother
    by_cases hsame : other = participant
    · subst hsame
      exact absurd (Function.update_self ..) hother
    · rw [Function.update_of_ne hsame] at hother
      exact ⟨hother, hsame⟩
  refine ⟨h.next, h.overflow, fun {other lease} hlease => ?_, fun {other} hother hnone => ?_,
    fun {other} hlease => h.came (hsome hlease).1, h.past, h.opened⟩
  · obtain ⟨-, hother⟩ := hsome (Option.ne_none_iff_exists'.mpr ⟨lease, hlease⟩)
    dsimp only at hlease
    rw [Function.update_of_ne hother] at hlease
    exact h.leases hlease
  · have hne : other ≠ participant := by
      rintro rfl
      rw [harrivals] at hother
      cases hother
    dsimp only at hnone
    rw [Function.update_of_ne hne] at hnone
    exact h.arrivals hother hnone

end

variable {generation : CoordinationGeneration}

theorem Decided.append (h : Decided log generation outcome)
    (hevents : ∀ participant told, .told generation participant told ∈ events → told = outcome) :
    Decided (log ++ events) generation outcome where
  agreed participant told htold := by
    rcases mem_append.mp htold with htold | htold
    · exact h.agreed participant told htold
    · exact hevents participant told htold
  released hout := by
    obtain ⟨participant, htold⟩ := h.released hout
    exact ⟨participant, mem_append_left _ htold⟩

/-- The first who is told an outcome. -/
theorem decided_first (huntold : ∀ other told, .told generation other told ∉ log) :
    Decided (log ++ [.told generation participant outcome]) generation outcome where
  agreed other told htold := by
    rcases mem_append.mp htold with htold | htold
    · exact absurd htold (huntold other told)
    · cases mem_singleton.mp htold
      rfl
  released hout := ⟨participant, by simp [hout]⟩

theorem SlotLaw.of_outcome (hbase : SlotBase v log slot)
    (hheld : ∃ participant, v.lease participant ≠ none) (hout : slot.outcome = some outcome)
    (hdec : Decided log slot.generation outcome) : SlotLaw v log slot := by
  refine ⟨hbase, hheld, fun hnone => ?_, fun other hother => ?_⟩
  · cases hout.symm.trans hnone
  · cases hout.symm.trans hother
    exact hdec

/-- What is told once the outcome is known. -/
theorem Decided.allowed (h : Decided log generation outcome) (participant : String) :
    BarrierAllowed log (.told generation participant outcome) :=
  ⟨h.agreed, fun hout => .inl (h.released hout)⟩

theorem held_update (participant : String) (generation : CoordinationGeneration) :
    ∃ other, Function.update v.lease participant (some ⟨generation⟩) other ≠ none :=
  ⟨participant, by rw [Function.update_self]; nofun⟩

/-! ## One more participant -/

theorem size_joined (hnew : slot.arrivals.contains participant = false) (waker : Waker) :
    (slot.arrivals.insert participant waker).size = slot.arrivals.size + 1 := by
  apply size_insert_new
  rw [← Option.not_isSome_iff_eq_none, ← contains_eq_isSome_getElem?, hnew]
  exact Bool.false_ne_true

theorem contains_joined (slot : BarrierSlot) (participant other : String) (waker : Waker) :
    (slot.arrivals.insert participant waker).contains other = true ↔
      other = participant ∨ slot.arrivals.contains other = true := by
  rw [ExtTreeMap.contains_insert, Bool.or_eq_true, beq_iff_eq, compare_iff]
  exact or_congr eq_comm Iff.rfl

/-- What the history says after an arrival in time. -/
theorem Waiting.arrive (h : Waiting log slot) (participant : String)
    (htime : slot.expired now = false) (waker : Waker) :
    let log' := log ++ [.arrived slot.generation participant now]
    (∀ other, (slot.arrivals.insert participant waker).contains other = true ↔
      ∃ now, .arrived slot.generation other now ∈ log') ∧
    (∀ other now time, .arrived slot.generation other now ∈ log' → slot.deadline = some time →
      now < time) ∧
    (∀ other, .cancelled slot.generation other ∉ log') ∧
    ∀ other outcome, .told slot.generation other outcome ∉ log' := by
  refine ⟨fun other => ?_, fun other at_ time hmem hdeadline => ?_, fun other hmem => ?_,
    fun other outcome hmem => ?_⟩
  · rw [contains_joined, h.arrived]
    simp only [mem_append, mem_singleton, BarrierEvent.arrived.injEq, true_and]
    constructor
    · rintro (rfl | ⟨when_, hmem⟩)
      · exact ⟨now, .inr ⟨rfl, rfl⟩⟩
      · exact ⟨when_, .inl hmem⟩
    · rintro ⟨when_, hmem | ⟨rfl, -⟩⟩
      · exact .inr ⟨when_, hmem⟩
      · exact .inl rfl
  · simp only [mem_append, mem_singleton, BarrierEvent.arrived.injEq, true_and] at hmem
    rcases hmem with hmem | ⟨-, rfl⟩
    · exact h.inTime other at_ time hmem hdeadline
    · unfold BarrierSlot.expired at htime
      rw [hdeadline] at htime
      simpa using htime
  · simp only [mem_append, mem_singleton, reduceCtorEq, or_false] at hmem
    exact h.uncancelled other hmem
  · simp only [mem_append, mem_singleton, reduceCtorEq, or_false] at hmem
    exact h.untold other outcome hmem

/-- A new participant joins a waiting slot; the last one releases it. -/
theorem joined_law (hstepwise : Stepwise BarrierAllowed log) (hbase : SlotBase v log slot)
    (hwait : Waiting log slot) (hlease : v.lease participant = none)
    (htime : slot.expired now = false) (waker : Waker) :
    let slot' := slot.joined participant waker
    let log' := log ++ .arrived slot.generation participant now ::
      (slot'.outcome.map (.told slot.generation participant)).toList
    let v' : BarrierView := { v with
      slot := some slot', lease := Function.update v.lease participant (some ⟨v.next⟩) }
    Stepwise BarrierAllowed log' ∧ SlotLaw v' log' slot' := by
  intro slot' log' v'
  have hnew : slot.arrivals.contains participant = false := by
    by_contra hcontains
    exact hbase.arrivals (by simpa using hcontains) hlease
  have hsize := size_joined hnew waker
  obtain ⟨harrived, hinTime, huncancelled, huntold⟩ := hwait.arrive participant htime waker
  have harrive : Stepwise BarrierAllowed (log ++ [.arrived slot.generation participant now]) :=
    hstepwise.concat hwait.untold
  have hbase' : SlotBase v' (log ++ [.arrived slot.generation participant now]) slot' := by
    refine (hbase.lease participant now).replace rfl rfl rfl ?_
    intro other hother hnone
    rcases (contains_joined slot participant other waker).mp hother with rfl | hother
    · dsimp only at hnone
      rw [Function.update_self] at hnone
      cases hnone
    · exact (hbase.lease participant now).arrivals hother hnone
  have hroom := hwait.room
  by_cases hfull : slot.expected ≤ (slot.arrivals.insert participant waker).size
  · -- The last participant: exactly the expected ones have arrived.
    have hrel : slot'.outcome = some .released := if_pos hfull
    have hlog : log' = log ++ [.arrived slot.generation participant now] ++
        [.told slot.generation participant .released] := by
      show log ++ _ :: (Option.map _ slot'.outcome).toList = _
      rw [hrel]
      simp
    have hgathered : Gathered slot.generation
        (log ++ [.arrived slot.generation participant now]) := by
      refine ⟨slot.expected, slot.deadline, (slot.arrivals.insert participant waker).keys,
        mem_append_left _ hbase.opened, nodup_keys, ?_, fun other => ?_, hinTime,
        huncancelled⟩
      · rw [length_keys]
        omega
      · rw [ExtTreeMap.mem_keys, ← harrived other, ExtTreeMap.contains_iff_mem]
    rw [hlog]
    refine ⟨harrive.concat ⟨fun other told htold => ?_, fun _ => .inr hgathered⟩,
      .of_outcome (hbase'.append (forall_mem_singleton.mpr rfl)) (held_update participant _)
        hrel (decided_first huntold)⟩
    exact absurd htold (huntold other told)
  · have hopen : slot'.outcome = none := if_neg hfull
    have hlog : log' = log ++ [.arrived slot.generation participant now] := by
      show log ++ _ :: (Option.map _ slot'.outcome).toList = _
      rw [hopen]
      rfl
    refine ⟨by rw [hlog]; exact harrive, ?_, held_update participant _, fun _ => ?_,
      fun outcome hsome => ?_⟩
    · rw [hlog]
      exact hbase'
    · rw [hlog]
      exact ⟨huntold, Nat.lt_of_not_le hfull, harrived, hinTime, huncancelled⟩
    · rw [hopen] at hsome
      cases hsome

/-! ## Steps at a key -/

theorem KeyLaw.of_slot (hstepwise : Stepwise BarrierAllowed log)
    (hslot : v.slot = some slot) (h : SlotLaw v log slot) : KeyLaw v log where
  stepwise := hstepwise
  slot other hother := by
    rw [hslot] at hother
    cases hother
    exact h
  free hnone := by
    rw [hslot] at hnone
    cases hnone

/-- The outcome of a generation is told once more. -/
theorem SlotLaw.tell (h : SlotLaw v log slot) (hstepwise : Stepwise BarrierAllowed log)
    (hout : slot.outcome = some outcome) :
    let log' := log ++ [.told slot.generation participant outcome]
    Stepwise BarrierAllowed log' ∧ SlotLaw v log' slot := by
  intro log'
  have hdec := h.decided outcome hout
  refine ⟨hstepwise.concat (hdec.allowed participant),
    .of_outcome (h.base.append (forall_mem_singleton.mpr rfl)) h.held hout ?_⟩
  refine hdec.append fun other told htold => ?_
  cases mem_singleton.mp htold
  rfl

/-- A waiting slot times out, and that is told. -/
theorem expired_law (hstepwise : Stepwise BarrierAllowed log) (hbase : SlotBase v log slot)
    (hheld : ∃ participant, v.lease participant ≠ none)
    (huntold : ∀ participant outcome, .told slot.generation participant outcome ∉ log)
    (participant : String) :
    let slot' := { slot with outcome := some .timedOut }
    let log' := log ++ [.told slot.generation participant .timedOut]
    Stepwise BarrierAllowed log' ∧ SlotLaw { v with slot := some slot' } log' slot' := by
  intro slot' log'
  have hbase' : SlotBase { v with slot := some slot' } log slot' :=
    hbase.replace rfl rfl rfl hbase.arrivals
  refine ⟨hstepwise.concat ⟨fun other told htold => absurd htold (huntold other told), nofun⟩,
    .of_outcome (hbase'.append (forall_mem_singleton.mpr rfl)) hheld rfl (decided_first huntold)⟩

/-- A participant of a waiting slot polls again: its waker is replaced. -/
theorem SlotLaw.again (h : SlotLaw v log slot) (hout : slot.outcome = none)
    (harrived : slot.arrivals.contains participant = true) (waker : Waker) :
    let slot' := { slot with arrivals := slot.arrivals.insert participant waker }
    SlotLaw { v with slot := some slot' } log slot' := by
  intro slot'
  have hwait := h.waiting hout
  have hcontains : ∀ other, slot'.arrivals.contains other = true ↔
      slot.arrivals.contains other = true := by
    intro other
    rw [contains_joined]
    refine ⟨?_, .inr⟩
    rintro (rfl | hother)
    · exact harrived
    · exact hother
  refine ⟨h.base.replace rfl rfl rfl fun hother => h.base.arrivals ((hcontains _).mp hother),
    h.held, fun _ => ?_, fun outcome hsome => ?_⟩
  · refine ⟨hwait.untold, ?_, fun other => ?_, hwait.inTime, hwait.uncancelled⟩
    · show (slot.arrivals.insert participant waker).size < slot.expected
      rw [size_insert, if_pos harrived]
      exact hwait.room
    · rw [hcontains, hwait.arrived]
  · exact absurd (hout.symm.trans hsome) nofun

/-- The first participant of a generation. -/
theorem KeyLaw.fresh {expected : ℕ} {deadline : Option ℕ} (h : KeyLaw v log)
    (hslot : v.slot = none) (hoverflow : v.overflow = false) (hexpected : 0 < expected) :
    let slot := freshSlot v.next expected deadline
    let log' := log ++ [.opened v.next expected deadline]
    Stepwise BarrierAllowed log' ∧ SlotBase v log' slot ∧ Waiting log' slot := by
  intro slot log'
  obtain ⟨hfree, hpast⟩ := h.free hslot
  have hold : ∀ event ∈ log, event.generation ≠ v.next := by
    intro event hev hsame
    have hlt := hpast hoverflow event hev
    rw [hsame] at hlt
    exact Nat.lt_irrefl _ hlt
  have hempty : ∀ participant, slot.arrivals.contains participant = false := fun _ => contains_empty
  have hnot : ∀ event : BarrierEvent, event.generation = v.next →
      event ≠ .opened v.next expected deadline → event ∉ log' := by
    intro event hgen hne hmem
    rcases mem_append.mp hmem with hmem | hmem
    · exact hold event hmem hgen
    · exact hne (mem_singleton.mp hmem)
  refine ⟨h.stepwise.concat (hpast hoverflow), ⟨rfl, hoverflow, ?_, ?_, ?_, ?_, ?_⟩,
    fun _ _ => hnot _ rfl nofun, ?_, fun participant => ?_, fun _ _ _ hmem =>
      absurd hmem (hnot _ rfl nofun), fun _ => hnot _ rfl nofun⟩
  · intro participant lease hlease
    rw [hfree] at hlease
    cases hlease
  · intro participant hcontains
    rw [hempty] at hcontains
    cases hcontains
  · intro participant hlease
    exact absurd (hfree participant) hlease
  · intro event hev
    rcases mem_append.mp hev with hev | hev
    · exact Nat.le_of_lt (hpast hoverflow event hev)
    · rw [mem_singleton] at hev
      subst hev
      exact Nat.le_refl _
  · exact mem_append_right _ (mem_singleton_self _)
  · show (∅ : ExtTreeMap String Waker).size < expected
    rwa [size_empty]
  · rw [hempty]
    refine ⟨nofun, ?_⟩
    rintro ⟨now, hmem⟩
    exact absurd hmem (hnot _ rfl nofun)

/-! ### The events of a poll -/

section

variable {outcome : Option SynchronizingOutcome} {after : Option BarrierSlot}

/-- Nobody arrives. -/
theorem pollEvents_same (hslot : v.slot = some slot) (hnext : v.next = slot.generation) :
    pollEvents participant now v { v with slot := after } outcome =
      (outcome.map (.told slot.generation participant)).toList := by
  unfold pollEvents
  rw [hslot, hnext]
  cases v.lease participant <;> rfl

/-- Somebody arrives. -/
theorem pollEvents_new (hslot : v.slot = some slot) (hlease : v.lease participant = none)
    (hnext : v.next = slot.generation) : pollEvents participant now v
        { v with slot := after, lease := Function.update v.lease participant (some ⟨v.next⟩) }
        outcome =
      .arrived slot.generation participant now ::
        (outcome.map (.told slot.generation participant)).toList := by
  unfold pollEvents
  dsimp only
  rw [hlease, hslot, hnext, Function.update_self]
  rfl

/-- Somebody opens a slot. -/
theorem events_opened (hslot : v.slot = none) (hlease : v.lease participant = none) :
    pollEvents participant now v
        { v with slot := some slot,
                 lease := Function.update v.lease participant (some ⟨v.next⟩) } outcome =
      .opened slot.generation slot.expected slot.deadline :: .arrived v.next participant now ::
        (outcome.map (.told v.next participant)).toList := by
  unfold pollEvents
  dsimp only
  rw [hlease, hslot, Function.update_self]
  rfl

theorem KeyLaw.poll (h : KeyLaw v log) (hstep : PollStep participant now v outcome v') :
    KeyLaw v' (log ++ pollEvents participant now v v' outcome) := by
  cases hstep with
  | @again slot waker hslot hlease hout harrived =>
    have hlaw := (h.slot slot hslot).again hout harrived waker
    rw [pollEvents_same hslot (h.slot slot hslot).base.next, Option.map_none, Option.toList_none,
      append_nil]
    exact .of_slot h.stepwise rfl hlaw
  | @told slot outcome hslot hlease hout =>
    have hlaw := h.slot slot hslot
    obtain ⟨hstepwise, hlaw'⟩ := hlaw.tell h.stepwise hout
    rw [pollEvents_same hslot hlaw.base.next]
    exact .of_slot hstepwise hslot hlaw'
  | @expired slot hslot hlease hout =>
    have hlaw := h.slot slot hslot
    obtain ⟨hstepwise, hlaw'⟩ := expired_law h.stepwise hlaw.base hlaw.held
      (hlaw.waiting hout).untold participant
    rw [pollEvents_same hslot hlaw.base.next]
    exact .of_slot hstepwise rfl hlaw'
  | @late slot hslot hlease hout =>
    have hlaw := h.slot slot hslot
    obtain ⟨hstepwise, hlaw'⟩ := hlaw.tell h.stepwise hout
    rw [pollEvents_same hslot hlaw.base.next]
    exact .of_slot hstepwise rfl ⟨hlaw'.base.replace rfl rfl rfl hlaw'.base.arrivals, hlaw'.held,
      fun hnone => absurd hnone (hout ▸ nofun), hlaw'.decided⟩
  | @expiredNew slot hslot hlease hout =>
    -- The participant arrives after the deadline, and so the slot times out.
    have hlaw := h.slot slot hslot
    have hwait := hlaw.waiting hout
    have harrive : Stepwise BarrierAllowed (log ++ [.arrived slot.generation participant now]) :=
      h.stepwise.concat hwait.untold
    obtain ⟨hstepwise, hlaw'⟩ := expired_law harrive (hlaw.base.lease participant now)
      (held_update participant _)
      (fun other outcome hmem => by
        simp only [mem_append, mem_singleton, reduceCtorEq, or_false] at hmem
        exact hwait.untold other outcome hmem) participant
    rw [pollEvents_new hslot hlease hlaw.base.next, append_cons]
    exact .of_slot hstepwise rfl hlaw'
  | @joined slot waker hslot hlease hout htime =>
    have hlaw := h.slot slot hslot
    obtain ⟨hstepwise, hlaw'⟩ := joined_law h.stepwise hlaw.base (hlaw.waiting hout)
      hlease htime waker
    rw [pollEvents_new hslot hlease hlaw.base.next]
    exact .of_slot hstepwise rfl hlaw'
  | @opened expected deadline waker hslot hlease hoverflow hexpected htime =>
    obtain ⟨hopened, hbase, hwait⟩ := h.fresh hslot hoverflow hexpected
    obtain ⟨hstepwise, hlaw'⟩ := joined_law hopened hbase hwait hlease htime waker
    rw [events_opened hslot hlease, append_cons]
    exact .of_slot hstepwise rfl hlaw'

end

/-! ### Leaving -/

theorem get_lt_of_next {next : CoordinationGeneration} (h : generation.next = some next) :
    generation.get < next.get := by
  unfold CoordinationGeneration.next at h
  split_ifs at h
  cases h
  exact Nat.lt_succ_self _

theorem KeyLaw.leave {after : BarrierSlot} {event : BarrierEvent}
    {outcome : SynchronizingOutcome} (h : KeyLaw v log) (hslot : v.slot = some slot)
    (hstep : LeaveStep participant after v v')
    (hsame : after.generation = slot.generation ∧ after.expected = slot.expected ∧
      after.deadline = slot.deadline)
    (harrivals : ∀ other, after.arrivals.contains other = true →
      slot.arrivals.contains other = true ∧ other ≠ participant)
    (hout : after.outcome = some outcome) (hdec : Decided log slot.generation outcome)
    (hev : event = .cancelled slot.generation participant ∨
      event = .completed slot.generation participant) :
    KeyLaw v' (log ++ [event]) := by
  have hbase := (h.slot slot hslot).base
  have hgen : event.generation = slot.generation := by
    rcases hev with rfl | rfl <;> rfl
  have hstepwise : Stepwise BarrierAllowed (log ++ [event]) := by
    refine h.stepwise.concat ?_
    rcases hev with rfl | rfl <;> trivial
  have hbase' : SlotBase v (log ++ [event]) slot := hbase.append (forall_mem_singleton.mpr hgen)
  cases hstep with
  | @stays other hother hlease =>
    refine .of_slot hstepwise rfl (.of_outcome ?_ ⟨other, ?_⟩ hout ?_)
    · have hafter := hbase'.replace hsame.1 hsame.2.1 hsame.2.2
        fun hother => hbase.arrivals (harrivals _ hother).1
      refine hafter.unlease (Bool.eq_false_iff.mpr fun hcontains => ?_)
      exact (harrivals participant hcontains).2 rfl
    · dsimp only
      rwa [Function.update_of_ne hother]
    · rw [hsame.1]
      refine hdec.append fun other told htold => ?_
      rw [mem_singleton] at htold
      rcases hev with rfl | rfl <;> cases htold
  | @closes next overflow hothers hnext =>
    refine ⟨hstepwise, nofun, fun _ => ⟨fun other => ?_, fun hoverflow other hother => ?_⟩⟩
    · dsimp only
      rw [Function.update_apply]
      split_ifs with hsame
      · rfl
      · exact hothers other hsame
    · rcases hnext with hnext | htrue
      · have hpast := hbase'.past other hother
        rw [hbase.next] at hnext
        exact Nat.lt_of_le_of_lt hpast (get_lt_of_next hnext)
      · rw [htrue] at hoverflow
        cases hoverflow

/-! ## Runs -/

/-- What holds in every world that is reached. -/
structure WorldLaw (w : BarrierWorld) : Prop where
  key : ∀ key, KeyLaw (w.state.view key) (w.log key)
  counted : Counted w.state

variable {w : BarrierWorld} {limits : BarrierLimits} {key : BarrierKey}

theorem worldLaw_initial : WorldLaw .initial where
  key key := by
    have hview : initial.state.view key = ⟨none, .initial, false, fun _ => none⟩ := by
      refine BarrierView.ext ?_ ?_ ?_ (funext fun participant => ?_)
      · exact getElem?_empty
      · show (∅ : ExtTreeMap BarrierKey CoordinationGeneration).getD key .initial = .initial
        exact getD_empty
      · show (∅ : ExtTreeSet BarrierKey).contains key = false
        exact ExtTreeSet.contains_empty
      · exact getElem?_empty
    rw [hview]
    exact ⟨stepwise_nil, nofun, fun _ => ⟨fun _ => rfl, fun _ => nofun⟩⟩
  counted := size_empty.symm

section

variable (h : WorldLaw w)

include h

/-- Only what no view shows has changed. -/
theorem WorldLaw.unseen {state : BarrierState}
    (hview : ∀ k, state.view k = w.state.view k) (hcount : Counted state) :
    WorldLaw { w with state } where
  key k := by
    show KeyLaw (state.view k) (w.log k)
    rw [hview]
    exact h.key k
  counted := hcount

/-- One key has changed. -/
theorem WorldLaw.note {state : BarrierState}
    (hkey : KeyLaw (state.view key) (w.log key ++ events)) (helse : Elsewhere key w.state state)
    (hcount : Counted state) : WorldLaw (w.note key state events) where
  key other := by
    show KeyLaw (state.view other) (Function.update w.log key _ other)
    by_cases hother : other = key
    · subst hother
      rwa [Function.update_self]
    · rw [Function.update_of_ne hother, helse other hother]
      exact h.key other
  counted := hcount

theorem WorldLaw.register (group : String) (size : NonZeroUsize) :
    WorldLaw (w.step limits (.register group size)) := by
  unfold step registerThreadGroup
  dsimp only
  split_ifs <;> exact h.unseen (fun _ => rfl) h.counted

theorem WorldLaw.poll (request : SynchronizingRequest) (waker : Waker) :
    WorldLaw (w.step limits (.poll request waker)) := by
  cases hkey : keyFor request with
  | error e =>
    have hpoll : pollArrival limits request waker w.state = .error e w.state := by
      unfold pollArrival
      rw [hkey, run_bind_error liftExcept_error]
    simp only [step, hkey, hpoll]
    exact h
  | ok key =>
    have hspec := pollArrival_spec limits hkey waker w.state
    cases hpoll : pollArrival limits request waker w.state with
    | error e state =>
      rw [hpoll] at hspec
      simp only [step, hkey, hpoll]
      exact h.unseen hspec.1 (hspec.2 h.counted)
    | ok arrival state =>
      rw [hpoll] at hspec
      simp only [step, hkey, hpoll]
      obtain ⟨hstep, helse, hcount⟩ := hspec
      exact h.note ((h.key key).poll hstep) helse (hcount h.counted)

end

/-- A participant with a lease is in a slot of the generation of its lease. -/
theorem KeyLaw.slot_of_lease {lease : BarrierLease} (h : KeyLaw v log)
    (hlease : v.lease participant = some lease) :
    ∃ slot, v.slot = some slot ∧ slot.generation = lease.generation := by
  cases hslot : v.slot with
  | none =>
    rw [(h.free hslot).1] at hlease
    cases hlease
  | some slot => exact ⟨slot, rfl, ((h.slot slot hslot).base.leases hlease).symm⟩

/-- What `cancel` makes of the slot of a participant: the outcome is known. -/
theorem SlotLaw.afterCancel (h : SlotLaw v log slot) (hlease : v.lease participant ≠ none) :
    ∃ outcome, (slot.afterCancel participant).outcome = some outcome ∧
      Decided log slot.generation outcome := by
  unfold BarrierSlot.afterCancel
  cases hout : slot.outcome with
  | some outcome =>
    refine ⟨outcome, ?_, h.decided outcome hout⟩
    split_ifs
    · show some (slot.outcome.getD .timedOut) = some outcome
      rw [hout]
      rfl
    · exact hout
  | none =>
    have hwait := h.waiting hout
    rw [if_pos ((hwait.arrived participant).mpr (h.base.came hlease))]
    refine ⟨.timedOut, ?_, ⟨fun other told htold =>
      absurd htold (hwait.untold other told), nofun⟩⟩
    show some (slot.outcome.getD .timedOut) = some .timedOut
    rw [hout]
    rfl

theorem WorldLaw.cancel (h : WorldLaw w) (request : SynchronizingRequest) :
    WorldLaw (w.step limits (.cancel request)) := by
  cases hkey : keyFor request with
  | error e =>
    have hcancel : (Coordination.cancel request w.state).1 = w.state := by
      unfold Coordination.cancel
      rw [hkey]
    simp only [step, hkey, hcancel]
    exact h
  | ok key =>
    simp only [step, hkey]
    have hlaw := h.key key
    cases hlease : (w.state.view key).lease request.participant with
    | none =>
      rw [cancel_of_none hkey hlease]
      refine h.note ?_ (fun _ _ => rfl) h.counted
      rw [Option.map_none, Option.toList_none, append_nil]
      exact hlaw
    | some lease =>
      obtain ⟨slot, hslot, hgen⟩ := hlaw.slot_of_lease hlease
      have hslotLaw := hlaw.slot slot hslot
      obtain ⟨outcome, hout, hdec⟩ := hslotLaw.afterCancel
        (Option.ne_none_iff_exists'.mpr ⟨lease, hlease⟩)
      obtain ⟨hstep, helse, hcount⟩ :=
        cancel_spec hkey hlease hslot hgen fun _ => hslotLaw.base.arrivals
      refine h.note (hlaw.leave hslot hstep ?_
        (fun _ => contains_afterCancel) hout hdec (.inl ?_)) helse
        (hcount h.counted)
      · unfold BarrierSlot.afterCancel
        split_ifs <;> exact ⟨rfl, rfl, rfl⟩
      rw [hgen]

theorem completed_outcome (h : slot.outcome = some outcome) :
    (slot.completed participant outcome).outcome = some outcome := by
  unfold BarrierSlot.completed
  rw [h]
  dsimp only [Option.getD_some]
  split_ifs <;> rfl

/-- What a participant was told is the outcome of the slot. -/
theorem SlotLaw.outcome_of_told (h : SlotLaw v log slot)
    (htold : .told slot.generation participant outcome ∈ log) : slot.outcome = some outcome := by
  cases hsome : slot.outcome with
  | none => exact absurd htold ((h.waiting hsome).untold _ _)
  | some other => rw [(h.decided other hsome).agreed _ _ htold]

theorem WorldLaw.complete (h : WorldLaw w) {request : SynchronizingRequest}
    (hallowed : w.Allowed (.complete request outcome)) :
    WorldLaw (w.step limits (.complete request outcome)) := by
  cases hkey : keyFor request with
  | error e =>
    have hcomplete : Coordination.complete request outcome w.state = w.state := by
      unfold Coordination.complete
      rw [hkey]
    simp only [step, hkey, hcomplete]
    exact h
  | ok key =>
    simp only [step, hkey]
    have hlaw := h.key key
    cases hlease : (w.state.view key).lease request.participant with
    | none =>
      rw [complete_of_none hkey hlease]
      refine h.note ?_ (fun _ _ => rfl) h.counted
      rw [Option.map_none, Option.toList_none, append_nil]
      exact hlaw
    | some lease =>
      obtain ⟨slot, hslot, hgen⟩ := hlaw.slot_of_lease hlease
      have hslotLaw := hlaw.slot slot hslot
      have htold := hallowed key lease hkey hlease
      rw [← hgen] at htold
      have hout := hslotLaw.outcome_of_told htold
      obtain ⟨hstep, helse, hcount⟩ := complete_spec hkey hlease hslot hgen
        (fun _ => hslotLaw.base.arrivals) outcome
      refine h.note (hlaw.leave hslot hstep ?_ (fun other hother => ?_)
        (completed_outcome hout) (hslotLaw.decided outcome hout) (.inr ?_)) helse
        (hcount h.counted)
      · unfold BarrierSlot.completed
        dsimp only
        split_ifs <;> exact ⟨rfl, rfl, rfl⟩
      · rw [completed_arrivals] at hother
        exact contains_erase' hother
      · rw [hgen]

theorem BarrierReachable.law (h : BarrierReachable limits w) : WorldLaw w := by
  induction h with
  | initial => exact worldLaw_initial
  | @step w call _ hallowed ih =>
    cases call with
    | register group size => exact ih.register group size
    | unregister group => exact ih.unseen (fun _ => rfl) ih.counted
    | poll request waker => exact ih.poll request waker
    | cancel request => exact ih.cancel request
    | complete request outcome => exact ih.complete hallowed

/-! ## What the participants see -/

/-- All deliveries of a generation agree. -/
theorem told_agree {first second : String}
    {other : SynchronizingOutcome} (h : Stepwise BarrierAllowed log)
    (hfirst : .told generation first outcome ∈ log) (hsecond : .told generation second other ∈ log)
    : outcome = other := by
  rcases h.pair hfirst hsecond with hsame | ⟨before, hallowed, hmem⟩ | ⟨before, hallowed, hmem⟩
  · cases hsame
    rfl
  · exact hallowed.1 first outcome hmem
  · exact (hallowed.1 second other hmem).symm

/-- At the first delivery of `Released` the participants have gathered, and nobody arrives in that
generation afterwards. -/
theorem gathered_of_released (h : Stepwise BarrierAllowed log)
    (htold : .told generation participant .released ∈ log) :
    ∃ before first after, log = before ++ .told generation first .released :: after ∧
      Gathered generation before ∧ ∀ other now, .arrived generation other now ∉ after := by
  obtain ⟨before, event, after, rfl, ⟨first, rfl⟩, hbefore⟩ := exists_first
    (P := fun event => ∃ other, event = .told generation other .released) htold ⟨participant, rfl⟩
  refine ⟨before, first, after, rfl, ?_, fun other now harrived => ?_⟩
  · rcases (h before _ after rfl).2 rfl with ⟨other, hmem⟩ | hgathered
    · exact absurd ⟨other, rfl⟩ (hbefore _ hmem)
    · exact hgathered
  · obtain ⟨middle, hallowed⟩ := h.later harrived
    exact hallowed first .released (mem_append_right _ mem_cons_self)

/-- The slot of a key is there exactly while its generation has a lease. -/
theorem KeyLaw.slot_iff_lease (h : KeyLaw v log) (generation : CoordinationGeneration) :
    (∃ slot, v.slot = some slot ∧ slot.generation = generation) ↔
      ∃ participant, v.lease participant = some ⟨generation⟩ := by
  constructor
  · rintro ⟨slot, hslot, rfl⟩
    have hlaw := h.slot slot hslot
    obtain ⟨participant, hheld⟩ := hlaw.held
    obtain ⟨lease, hlease⟩ := Option.ne_none_iff_exists'.mp hheld
    refine ⟨participant, ?_⟩
    rw [hlease, ← hlaw.base.leases hlease]
  · rintro ⟨participant, hlease⟩
    exact h.slot_of_lease hlease

/-- In every run: the outcomes told in a generation agree; `Released` is told only when exactly
the expected participants have arrived before the deadline and none was cancelled; the leases are
counted; a slot is there exactly while its generation has a lease; and a generation is opened
only after all smaller ones. -/
theorem barrier_agreement (h : BarrierReachable limits w) :
    (∀ key generation first second outcome other,
      .told generation first outcome ∈ w.log key → .told generation second other ∈ w.log key →
      outcome = other) ∧
    (∀ key generation participant, .told generation participant .released ∈ w.log key →
      ∃ before first after, w.log key = before ++ .told generation first .released :: after ∧
        Gathered generation before ∧ ∀ other now, .arrived generation other now ∉ after) ∧
    w.state.participantCount = w.state.leases.size ∧ (∀ key generation,
      (∃ slot, w.state.slots[key]? = some slot ∧ slot.generation = generation) ↔
        ∃ participant, w.state.leases[(⟨key, participant⟩ : LeaseKey)]? = some ⟨generation⟩) ∧
    ∀ key before generation expected deadline after,
      w.log key = before ++ .opened generation expected deadline :: after →
      ∀ event ∈ before, event.generation.get < generation.get := by
  have hlaw := h.law
  refine ⟨fun key _ _ _ _ _ => told_agree (hlaw.key key).stepwise,
    fun key _ _ => gathered_of_released (hlaw.key key).stepwise, hlaw.counted,
    fun key => (hlaw.key key).slot_iff_lease, fun key before _ _ _ after hlog => ?_⟩
  exact (hlaw.key key).stepwise before _ after hlog

/-- A poll of a barrier for two. -/
def pairRequest (participant : String) : SynchronizingRequest :=
  ⟨"pair", .explicit ⟨2, by decide⟩, 0, 0, participant, none, none, none, Nat.zero_le _⟩

def pairMet : BarrierWorld :=
  (initial.step (.withLimits 1 2) (.poll (pairRequest "a") 0)).step
    (.withLimits 1 2) (.poll (pairRequest "b") 1)

/-- Two participants meet and the second one leaves. -/
theorem pairMet_agreement :
    let w := pairMet.step (.withLimits 1 2) (.complete (pairRequest "b") .released)
    .told .initial "b" .released ∈ w.log ⟨"pair", none⟩ ∧
    (∃ before first after,
      w.log ⟨"pair", none⟩ = before ++ .told .initial first .released :: after ∧
        Gathered .initial before ∧ ∀ other now, .arrived .initial other now ∉ after) ∧
    w.state.participantCount = w.state.leases.size := by
  intro w
  have htold : .told .initial "b" .released ∈ w.log ⟨"pair", none⟩ := by decide +kernel
  have hreached : BarrierReachable (.withLimits 1 2) w := by
    refine .step (.step (.step .initial trivial) trivial) fun key lease hkey hlease => ?_
    cases hkey
    have hheld : (pairMet.state.view ⟨"pair", none⟩).lease "b" = some ⟨.initial⟩ := by
      decide +kernel
    cases hheld.symm.trans hlease
    show .told .initial "b" .released ∈ pairMet.log ⟨"pair", none⟩
    decide +kernel
  obtain ⟨-, hreleased, hcounted, -⟩ := barrier_agreement hreached
  exact ⟨htold, hreleased _ _ _ htold, hcounted⟩

end JmeterRs.Coordination
