import JmeterRs.Router.Order

/-!
# Deliveries among the other futures

There is one delivery at a time.  While its write waits, the router may admit, flush and fail sinks;
it may also be cancelled, and then nothing is queued any more when the write returns.
-/

namespace JmeterRs.Router

open SinkState RouterPhase

section

variable {Data : Type}

/-- The phases in which a delivery can begin. -/
def RouterPhase.isOpen : RouterPhase → Bool
  | .started | .admissionStopped | .draining => true
  | .new | .flushed | .finished | .cancelled | .failed => false

/-- The phases in which a cancellation ends. -/
def RouterPhase.isOver : RouterPhase → Bool
  | .cancelled | .failed => true
  | .new | .started | .admissionStopped | .draining | .flushed | .finished => false

theorem RouterPhase.isOver_iff {phase : RouterPhase} :
    phase.isOver ↔ phase = .cancelled ∨ phase = .failed := by
  cases phase <;> simp [isOver]

def Await.isWriting : Await → Bool
  | .writing .. => true
  | .starting _ | .rollingBack .. | .flushing .. | .finishing .. => false

/-- The writes so far, when `issued` futures have been made. -/
structure Written (issued : ℕ) (s : RouterState Data) : Prop where
  order : Stepwise WriteAllowed s.log
  below : ∀ {d i q : ℕ}, .wrote d i q ∈ s.log → d < issued ∧ q < s.nextSequence
  new : s.phase = .new → NoQueue s

/-- A delivery waits for a write, or it has been cancelled under it. -/
def Writer (task sequence index : ℕ) (s : RouterState Data) : Prop :=
  s.deliveryActive = true ∧ Pending task sequence index s ∨
    s.deliveryActive = false ∧ s.phase.isOver ∧ NoQueue s ∧ index < s.sinks.length

structure Flow (w : World Data) : Prop where
  written : Written w.issued w.state
  tasks : ∀ {task : ℕ} {await : Await}, w.tasks task = some await → task < w.issued
  writer : ∀ {task sequence index : ℕ} {caller : Caller} {failure : Option RouterError},
    w.tasks task = some (.writing caller sequence index failure) →
    Writer task sequence index w.state
  unique : ∀ {task task' : ℕ} {await await' : Await}, w.tasks task = some await →
    await.isWriting → w.tasks task' = some await' → await'.isWriting → task = task'
  idle : (∀ task await, w.tasks task = some await → await.isWriting = false) →
    w.state.phase.isOpen → Fresh w.state

/-- What futures do that do not deliver. -/
structure Quiet (s s' : RouterState Data) : Prop extends Still s s' where
  deliveryActive : s'.deliveryActive = s.deliveryActive
  ended : s.phase.isOver → s'.phase.isOver
  opens : s'.phase.isOpen → s.phase.isOpen ∨ s.phase = .new
  new : s'.phase = .new → s.phase = .new

variable {s s' : RouterState Data} {w : World Data}

theorem Closing.quiet (h : Closing s s') : Quiet s s' := by
  refine ⟨h.toStill, h.deliveryActive, ?_, ?_, ?_⟩
  · intro hover
    rcases h.phase with heq | ⟨hcancelled, heq | ⟨hfailed, -⟩⟩
    · rwa [heq]
    · rw [heq]
      rfl
    · rcases isOver_iff.mp hover with hphase | hphase
      · exact absurd hphase hcancelled
      · exact absurd hphase hfailed
  · intro hopen
    rcases h.phase with heq | ⟨-, heq | ⟨-, heq | heq⟩⟩
    · exact .inl (heq ▸ hopen)
    all_goals
      rw [heq] at hopen
      cases hopen
  · intro hnew
    rcases h.phase with heq | ⟨-, heq | ⟨-, heq | heq⟩⟩
    · exact heq.symm.trans hnew
    all_goals
      rw [heq] at hnew
      cases hnew

theorem Starting.quiet (h : Starting s s') : Quiet s s' := by
  refine ⟨h.toStill, h.deliveryActive, ?_, ?_, ?_⟩
  · intro hover
    rcases h.phase with heq | ⟨hnew, -⟩
    · rwa [heq]
    · rw [hnew] at hover
      cases hover
  · intro hopen
    rcases h.phase with heq | ⟨hnew, -⟩
    · exact .inl (heq ▸ hopen)
    · exact .inr hnew
  · intro hnew
    rcases h.phase with heq | ⟨hold, -⟩
    · exact heq.symm.trans hnew
    · exact hold

theorem quiet_stop (s : RouterState Data) : Quiet s (stopAdmission s).2 := by
  refine ⟨(shifted_stop s).still, ?_, ?_, ?_, (shifted_stop s).phase⟩
  · unfold stopAdmission
    cases s.phase <;> rfl
  · unfold stopAdmission
    cases hphase : s.phase <;> simp [isOver, hphase]
  · unfold stopAdmission
    cases hphase : s.phase <;> simp [isOpen, hphase]

variable {issued index sequence task i : ℕ} {tasks : ℕ → Option Await} {admission : Admission Data}

theorem Written.still {issued' : ℕ} (h : Written issued s) (hstill : Still s s')
    (hissued : issued ≤ issued') (hnew : s'.phase = .new → s.phase = .new) :
    Written issued' s' where
  order := by
    obtain ⟨notes, hlog, hnotes⟩ := hstill.log
    rw [hlog]
    refine h.order.append fun event hmem before d i q he => ?_
    have hnote := hnotes event hmem
    rw [he] at hnote
    cases hnote
  below hmem := by
    obtain ⟨hd, hq⟩ := h.below (hstill.wrote_iff.mp hmem)
    rw [hstill.nextSequence]
    exact ⟨by omega, hq⟩
  new hphase := hstill.noQueue_iff.mpr (h.new (hnew hphase))

theorem Writer.quiet (h : Writer task sequence index s) (hquiet : Quiet s s') :
    Writer task sequence index s' := by
  rcases h with ⟨hact, hpend⟩ | ⟨hact, hover, hnone, hlt⟩
  · exact .inl ⟨hquiet.deliveryActive.trans hact, hpend.still hquiet.toStill⟩
  · exact .inr ⟨hquiet.deliveryActive.trans hact, hquiet.ended hover,
      hquiet.noQueue_iff.mpr hnone, hquiet.length ▸ hlt⟩

theorem Writer.lt (h : Writer task sequence index s) : index < s.sinks.length := by
  rcases h with ⟨-, hpend⟩ | ⟨-, -, -, hlt⟩
  · obtain ⟨sink, hsink, -⟩ := hpend.front
    exact (List.getElem?_eq_some_iff.mp hsink).1
  · exact hlt

theorem Fresh.still (h : Fresh s) (hstill : Still s s') : Fresh s' := by
  intro i b hb q hq d q' hmem
  obtain ⟨a, ha, hab⟩ := hstill.sinks hb
  exact h i a ha q (hab.sequences ▸ hq) d q' (hstill.wrote_iff.mp hmem)

/-- A step of a future that does not deliver. -/
theorem Flow.frame (h : Flow w) (hquiet : Quiet w.state s') (hissued : w.issued ≤ issued)
    (htasks : ∀ {task : ℕ} {await : Await}, tasks task = some await → task < issued)
    (hwriting : ∀ {task : ℕ} {await : Await}, await.isWriting →
      (tasks task = some await ↔ w.tasks task = some await)) : Flow ⟨s', tasks, issued⟩ where
  written := h.written.still hquiet.toStill hissued hquiet.new
  tasks := htasks
  writer htask := (h.writer ((hwriting rfl).mp htask)).quiet hquiet
  unique htask hwrites htask' hwrites' :=
    h.unique ((hwriting hwrites).mp htask) hwrites ((hwriting hwrites').mp htask') hwrites'
  idle hnone hopen := by
    have hnone' : ∀ task await, w.tasks task = some await → await.isWriting = false := by
      intro task await htask
      by_contra hwrites
      rw [Bool.not_eq_false] at hwrites
      rw [hnone task await ((hwriting hwrites).mpr htask)] at hwrites
      cases hwrites
    rcases hquiet.opens hopen with hopen | hnew
    · exact (h.idle hnone' hopen).still hquiet.toStill
    · exact (ready_of_noQueue (hquiet.noQueue_iff.mpr (h.written.new hnew)) 0).fresh

theorem Flow.state (h : Flow w) (hquiet : Quiet w.state s') : Flow { w with state := s' } :=
  h.frame hquiet (Nat.le_refl _) h.tasks fun _ => Iff.rfl

/-- A poll that does not wait for a write. -/
def Poll.NoWrite (poll : Poll) : Prop := ∀ await, poll = .pending await → await.isWriting = false

/-- A future that does not deliver has run. -/
theorem Flow.piece (h : Flow w) {piece : Piece Data} (hquiet : Quiet w.state piece.2)
    (hpoll : piece.1.NoWrite) (hissued : w.issued ≤ issued) (htask : task < issued)
    (hother : ∀ await, w.tasks task = some await → await.isWriting = false) :
    Flow ({ w with issued }.store task piece) := by
  refine h.frame hquiet hissued (fun {other await} hstored => ?_) fun {other await} hwrites => ?_
  · rcases store_tasks hstored with ⟨rfl, -⟩ | ⟨-, hold⟩
    · exact htask
    · exact Nat.lt_of_lt_of_le (h.tasks hold) hissued
  · constructor
    · intro hstored
      rcases store_tasks hstored with ⟨-, hpend⟩ | ⟨-, hold⟩
      · rw [hpoll await hpend] at hwrites
        cases hwrites
      · exact hold
    · intro hold
      have hne : other ≠ task := by
        rintro rfl
        rw [hother await hold] at hwrites
        cases hwrites
      show Function.update w.tasks task _ other = some await
      rw [Function.update_of_ne hne, hold]

theorem Poll.Closes.noWrite {poll : Poll} {clean : Prop} (h : poll.Closes clean) :
    poll.NoWrite := by
  rintro await rfl
  have hclosing : await.isClosing = true := h.1
  cases await <;> first | rfl | cases hclosing

/-! ## Deliveries -/

theorem noWrite_return (caller : Caller) (failure : Option RouterError) :
    (deliveryReturn caller failure s).1.NoWrite := by
  cases caller with
  | deliver => exact nofun
  | drain => exact nofun
  | finish earlier => exact (closing_flush _ _).2.noWrite

/-- Only the delivery itself may be writing. -/
def Sole (w : World Data) (task : ℕ) : Prop :=
  ∀ other await, other ≠ task → w.tasks other = some await → await.isWriting = false

theorem Flow.sole (h : Flow w) {await : Await} (htask : w.tasks task = some await)
    (hwrites : await.isWriting) : Sole w task := by
  intro other await' hne hother
  by_contra hwrites'
  rw [Bool.not_eq_false] at hwrites'
  exact hne (h.unique hother hwrites' htask hwrites)

/-- A delivery has come to its next write or to its end. -/
theorem Flow.deliverQueued (hsole : Sole w task)
    (htasks : ∀ {other : ℕ} {await : Await}, w.tasks other = some await → other < issued)
    (htask : task < issued) (hwritten : Written issued s) (hbooks : Books s) (hready : Ready task s)
    {target : Option (ℕ × ℕ)} (hnext : Next s target)
    (hact : s.deliveryActive = true ∨ NoQueue s) (caller : Caller) (failure : Option RouterError)
    :
    Flow ({ w with issued }.store task (deliverQueued task caller failure target s)) := by
  have hbound : ∀ {other : ℕ} {await : Await}, ({ w with issued }.store task
      (Router.deliverQueued task caller failure target s)).tasks other = some await →
      other < issued := by
    intro other await hstored
    rcases store_tasks hstored with ⟨rfl, -⟩ | ⟨-, hold⟩
    · exact htask
    · exact htasks hold
  cases target with
  | none =>
    have hnone : ∀ other await, ({ w with issued }.store task
        (deliveryReturn caller failure s)).tasks other = some await → await.isWriting = false := by
      intro other await hstored
      rcases store_tasks hstored with ⟨-, hpend⟩ | ⟨hne, hold⟩
      · exact noWrite_return caller failure await hpend
      · exact hsole other await hne hold
    have hstill := still_return caller failure s
    have hphase : (deliveryReturn caller failure s).2.phase = .new → s.phase = .new :=
      (carried_queued (carried_new s) task caller failure none (.refl s)).1.phase
    refine ⟨hwritten.still hstill (Nat.le_refl _) hphase, hbound, fun hwrites => ?_,
      fun hold hwrites => ?_, fun _ _ => hready.fresh.still hstill⟩
    · cases hnone _ _ hwrites
    · rw [hnone _ _ hold] at hwrites
      cases hwrites
  | some target =>
    obtain ⟨sequence, index⟩ := target
    obtain ⟨hallowed, hpend⟩ := hready.write hbooks hnext
    obtain ⟨⟨sink, hsink, -, hfront⟩, -⟩ := hnext
    have hqueue : ¬ NoQueue s := by
      intro hnone
      have hempty := hnone sink (List.mem_of_getElem? hsink)
      rw [front, hempty] at hfront
      cases hfront
    have hself : ∀ {other : ℕ} {await : Await}, ({ w with issued }.store task
        (Router.deliverQueued task caller failure (some (sequence, index)) s)).tasks other =
          some await → await.isWriting →
        other = task ∧ await = .writing caller sequence index failure := by
      intro other await hstored hwrites
      obtain ⟨hsame, hpoll⟩ := store_only (w := { w with issued }) hsole hstored hwrites
      cases hpoll
      exact ⟨hsame, rfl⟩
    refine ⟨⟨hwritten.order.concat hallowed, fun hmem => ?_, hwritten.new⟩, hbound,
      fun hwrites => ?_, fun hold hwrites hold' hwrites' => ?_, fun hnone _ => ?_⟩
    · rcases List.mem_append.mp hmem with hmem | hmem
      · exact hwritten.below hmem
      · cases List.mem_singleton.mp hmem
        exact ⟨htask, (hbooks.sinks hsink).below _ (front_mem hfront)⟩
    · obtain ⟨rfl, heq⟩ := hself hwrites rfl
      cases heq
      exact .inl ⟨hact.resolve_right hqueue, hpend⟩
    · rw [(hself hold hwrites).1, (hself hold' hwrites').1]
    · have hstored := hnone task (.writing caller sequence index failure) (by
        simp [World.store, Router.deliverQueued])
      cases hstored

/-- A future that has not been made yet has written nothing. -/
theorem Written.ready (h : Written issued s) (hfresh : Fresh s) : Ready issued s := by
  refine ⟨hfresh, ?_⟩
  intro i b hb _ q hq i' q' hmem
  have hlt := (h.below hmem).1
  omega

/-- A delivery that can begin is alone, and nothing queued has been written. -/
theorem Flow.begin (h : Flow w) (hopen : w.state.phase.isOpen)
    (hact : w.state.deliveryActive = false) :
    (∀ task await, w.tasks task = some await → await.isWriting = false) ∧
      Ready w.issued w.state := by
  have hnone : ∀ task await, w.tasks task = some await → await.isWriting = false := by
    intro task await htask
    cases await with
    | writing caller sequence index failure =>
      rcases h.writer htask with ⟨hact', -⟩ | ⟨-, hover, -, -⟩
      · rw [hact] at hact'
        cases hact'
      · rcases isOver_iff.mp hover with hphase | hphase
        · rw [hphase] at hopen
          cases hopen
        · rw [hphase] at hopen
          cases hopen
    | starting | rollingBack | flushing | finishing => rfl
  exact ⟨hnone, h.written.ready (h.idle hnone hopen)⟩

theorem drain_none (h : drainRefused s = none) : s.phase.isOpen ∧ s.deliveryActive = false := by
  unfold drainRefused at h
  cases hphase : s.phase <;> rw [hphase] at h <;> simp only at h
  all_goals
    first
    | cases h
    | exact ⟨rfl, by simpa using h⟩

theorem deliver_none (h : deliverRefused s = none) :
    s.phase = .started ∧ s.deliveryActive = false := by
  unfold deliverRefused at h
  cases hphase : s.phase <;> rw [hphase] at h <;> simp only at h
  all_goals
    first
    | cases h
    | exact ⟨rfl, by simpa using h⟩

theorem Flow.beginDelivery (h : Flow w) (hbooks : Books w.state) (hopen : w.state.phase.isOpen)
    (hidle : w.state.deliveryActive = false) (hshift : Shifted w.state s')
    (hact : s'.deliveryActive = true) (caller : Caller) (failure : Option RouterError) :
    Flow ({ w with issued := w.issued + 1 }.store w.issued
      (Router.deliverQueued w.issued caller failure (firstWrite s') s')) := by
  obtain ⟨hnone, hready⟩ := h.begin hopen hidle
  have hbooks' : Books s' := hbooks.still hshift.still
  refine Flow.deliverQueued (fun other await _ hold => hnone other await hold)
    (fun hold => Nat.lt_succ_of_lt (h.tasks hold)) (Nat.lt_succ_self _)
    (h.written.still hshift.still (Nat.le_succ _) hshift.phase) hbooks'
    (hready.still hshift.still) (next_first hbooks') (.inl hact) caller failure

/-- A new future that does not wait for a write. -/
theorem Flow.newPiece (h : Flow w) {piece : Piece Data} (hquiet : Quiet w.state piece.2)
    (hpoll : piece.1.NoWrite) : Flow ({ w with issued := w.issued + 1 }.store w.issued piece) := by
  refine h.piece hquiet hpoll (Nat.le_succ _) (Nat.lt_succ_self _) fun await htask => ?_
  exact absurd (h.tasks htask) (Nat.lt_irrefl _)

theorem Quiet.refl (s : RouterState Data) : Quiet s s :=
  ⟨.refl s, rfl, id, fun h => .inl h, id⟩

theorem noWrite_ready {result : Except RouterError Unit} : (Poll.ready result).NoWrite :=
  nofun

theorem Poll.Starts.noWrite {poll : Poll} (h : poll.Starts) : poll.NoWrite := by
  rintro await rfl
  have hstart := h await rfl
  cases await <;> first | rfl | cases hstart

theorem Flow.firstPoll (h : Flow w) (hbooks : Books w.state) (operation : Operation) :
    Flow ({ w with issued := w.issued + 1 }.store w.issued
      (firstPoll w.issued operation w.state)) := by
  cases operation with
  | start => exact h.newPiece (begins_start w.state).1.quiet (begins_start w.state).2.noWrite
  | deliver =>
    show Flow (World.store _ _ (deliver w.issued w.state))
    unfold deliver
    cases hrefused : deliverRefused w.state with
    | some result => exact h.newPiece (.refl _) noWrite_ready
    | none =>
      obtain ⟨hphase, hidle⟩ := deliver_none hrefused
      exact h.beginDelivery hbooks (by rw [hphase]; rfl) hidle shifted_activate rfl _ _
  | drain =>
    show Flow (World.store _ _ (drain w.issued w.state))
    unfold drain
    cases hrefused : drainRefused w.state with
    | some result => exact h.newPiece (.refl _) noWrite_ready
    | none =>
      obtain ⟨hopen, hidle⟩ := drain_none hrefused
      exact h.beginDelivery hbooks hopen hidle shifted_drain rfl _ _
  | flush =>
    exact h.newPiece (closing_flush .flush w.state).1.quiet (closing_flush .flush w.state).2.noWrite
  | finish =>
    show Flow (World.store _ _ (finish w.issued w.state))
    unfold finish
    by_cases hphase : w.state.phase = .finished
    · rw [if_pos hphase]
      exact h.newPiece (ends_closing _ _ (.refl w.state) (.inl rfl)).quiet noWrite_ready
    · rw [if_neg hphase]
      have hstopped := h.state (quiet_stop w.state)
      have hbooks' : Books (stopAdmission w.state).2 := hbooks.still (quiet_stop w.state).toStill
      unfold drainForFinish
      simp only
      cases hrefused : drainRefused (stopAdmission w.state).2 with
      | some result =>
        exact hstopped.newPiece (closing_flush _ _).1.quiet (closing_flush _ _).2.noWrite
      | none =>
        obtain ⟨hopen, hidle⟩ := drain_none hrefused
        exact hstopped.beginDelivery hbooks' hopen hidle shifted_drain rfl _ _

/-! ## A write returns -/

/-- What is left when a write has returned. -/
theorem Pending.ready (h : Pending task sequence index s)
    (hsinks : ∀ {i : ℕ} {b : SinkState Data}, s'.sinks[i]? = some b → ∃ a, s.sinks[i]? = some a ∧
      (∀ q ∈ b.sequences, q ∈ if i = index then a.sequences.tail else a.sequences) ∧
      (b.healthy → a.healthy)) (hlog : ∀ d i q, .wrote d i q ∈ s'.log ↔ .wrote d i q ∈ s.log) :
    Ready task s' ∧ ∀ {i : ℕ} {b : SinkState Data}, s'.sinks[i]? = some b → b.healthy →
      ∀ q ∈ b.sequences, sequence < q ∨ sequence = q ∧ index < i := by
  have hready : Ready task s' := by
    apply h.rest.frame
    · intro i b hb
      obtain ⟨a, ha, hsub, hwell⟩ := hsinks hb
      refine ⟨_, modify_get? ha, ?_⟩
      split_ifs at hsub ⊢ with hi
      · simp only [sequences, dropFront, ← List.map_tail] at hsub ⊢
        exact ⟨hsub, hwell⟩
      · exact ⟨hsub, hwell⟩
    · exact fun d i q hmem => (hlog d i q).mp hmem
  refine ⟨hready, fun {i b} hb hwell q hq => ?_⟩
  exact hready.ahead i b hb hwell q hq index sequence ((hlog _ _ _).mpr h.wrote)

variable {b : SinkState Data} {source : SinkError} {a : SinkState Data}

theorem get?_failWrite (hb : (failWrite index source s).sinks[i]? = some b) :
    ∃ a, s.sinks[i]? = some a ∧
      b = if i = index then
        { a with queue := [], queuedBytes := 0, failed := some source } else a := by
  obtain ⟨c, hc, hb⟩ := of_modify hb
  obtain ⟨a, ha, hc⟩ := of_modify hc
  refine ⟨a, ha, ?_⟩
  rcases hb with ⟨rfl, rfl⟩ | ⟨hi, rfl⟩
  · rw [if_pos rfl, (hc.resolve_right fun h => h.1 rfl).2]
  · rw [if_neg hi, (hc.resolve_left fun h => hi h.1).2]

theorem get?_popFront {item : QueuedEnvelope Data}
    (hb : (popFront index item s).sinks[i]? = some b) :
    ∃ a, s.sinks[i]? = some a ∧ b = if i = index then
      { a with queue := a.queue.tail, queuedBytes := a.queuedBytes - item.bytes } else a := by
  obtain ⟨a, ha, ⟨hi, rfl⟩ | ⟨hi, rfl⟩⟩ := of_modify hb
  · exact ⟨a, ha, by rw [if_pos hi]⟩
  · exact ⟨b, ha, by rw [if_neg hi]⟩

theorem wrote_fail (d i q : ℕ) :
    .wrote d i q ∈ (failWrite index source s).log ↔ .wrote d i q ∈ s.log := by
  simp [failWrite, failSink, RouterState.emit, RouterState.modifySink]

theorem SinkState.sequences_tail (bytes : ℕ) :
    sequences { a with queue := a.queue.tail, queuedBytes := bytes } =
      a.sequences.tail := by
  simp [sequences]

theorem Pending.failWrite (h : Pending task sequence index s) (source : SinkError) :
    Ready task (failWrite index source s) ∧ ∀ {i : ℕ} {b : SinkState Data},
      (Router.failWrite index source s).sinks[i]? = some b → b.healthy →
      ∀ q ∈ b.sequences, sequence < q ∨ sequence = q ∧ index < i := by
  refine h.ready (fun {i b} hb => ?_) wrote_fail
  obtain ⟨a, ha, rfl⟩ := get?_failWrite hb
  refine ⟨a, ha, ?_, ?_⟩
  · split_ifs
    · intro q hq
      cases hq
    · exact fun q hq => hq
  · split_ifs
    · intro hwell
      simp [healthy] at hwell
    · exact fun hwell => hwell

theorem Pending.pop (h : Pending task sequence index s) {item : QueuedEnvelope Data}
    (t : RouterState Data) (hsinks : t.sinks = (popFront index item s).sinks) (hlog : t.log = s.log)
    : Ready task t ∧ ∀ {i : ℕ} {b : SinkState Data}, t.sinks[i]? = some b → b.healthy →
      ∀ q ∈ b.sequences, sequence < q ∨ sequence = q ∧ index < i := by
  refine h.ready (fun {i b} hb => ?_) fun d i q => by rw [hlog]
  rw [hsinks] at hb
  obtain ⟨a, ha, rfl⟩ := get?_popFront hb
  refine ⟨a, ha, ?_, ?_⟩
  · split_ifs
    · intro q hq
      rwa [sequences_tail] at hq
    · exact fun q hq => hq
  · split_ifs <;> exact fun hwell => hwell

theorem noQueue_get? (h : ∀ {i : ℕ} {b : SinkState Data}, s.sinks[i]? = some b →
    b.queue = []) : NoQueue s := by
  intro b hb
  obtain ⟨i, hi⟩ := List.mem_iff_getElem?.mp hb
  exact h hi

theorem NoQueue.getElem? (h : NoQueue s) (hb : s.sinks[i]? = some b) : b.queue = [] :=
  h b (List.mem_of_getElem? hb)

theorem noQueue_fail (h : NoQueue s) (index : ℕ) (source : SinkError) :
    NoQueue (failWrite index source s) := by
  refine noQueue_get? fun hb => ?_
  obtain ⟨a, ha, rfl⟩ := get?_failWrite hb
  split_ifs
  · rfl
  · exact h.getElem? ha

theorem NoQueue.not_mem (h : NoQueue s) {q : ℕ} (hb : s.sinks[i]? = some b) : q ∉ b.sequences := by
  intro hq
  rw [sequences, h.getElem? hb] at hq
  cases hq

theorem Flow.sinkWrote (h : Flow w) (hbooks : Books w.state) {caller : Caller}
    {failure : Option RouterError}
    (htask : w.tasks task = some (.writing caller sequence index failure)) (reply : Reply) :
    Flow (w.store task (sinkWrote task caller sequence index failure reply w.state)) := by
  have hsole := h.sole htask rfl
  have hgo : ∀ {s' : RouterState Data} {target : Option (ℕ × ℕ)} (failure' : Option RouterError),
      Written w.issued s' → Books s' → Ready task s' → Next s' target →
      s'.deliveryActive = true ∨ NoQueue s' →
      Flow (w.store task (Router.deliverQueued task caller failure' target s')) :=
    fun failure' hwritten hbooks' hready hnext hact =>
      Flow.deliverQueued hsole h.tasks (h.tasks htask) hwritten hbooks' hready hnext hact
        caller failure'
  unfold Router.sinkWrote
  cases reply with
  | error source =>
    have hbooks' := hbooks.failWrite index source
    have hwritten : Written w.issued (failWrite index source w.state) := by
      refine ⟨?_, fun hmem => h.written.below ((wrote_fail _ _ _).mp hmem), fun hnew => ?_⟩
      · exact h.written.order.concat nofun
      · cases hnew
    rcases h.writer htask with ⟨hact, hpend⟩ | ⟨-, -, hnone, -⟩
    · obtain ⟨hready, hlater⟩ := hpend.failWrite source
      exact hgo _ hwritten hbooks' hready (next_write hbooks' hlater) (.inl hact)
    · have hnone' := noQueue_fail hnone index source
      exact hgo _ hwritten hbooks' (ready_of_noQueue hnone' task)
        (next_write hbooks' fun hb _ q hq => absurd hq (hnone'.not_mem hb)) (.inr hnone')
  | ok value =>
    cases hitem : (w.state.sinks[index]?).bind (·.queue.head?) with
    | none =>
      rcases h.writer htask with ⟨-, hpend⟩ | ⟨-, -, hnone, -⟩
      · -- a write that waits has its envelope at the front of the queue
        obtain ⟨sink, hsink, hfront⟩ := hpend.front
        rw [hsink] at hitem
        rw [front, show sink.queue.head? = none from hitem] at hfront
        cases hfront
      · exact hgo _ h.written hbooks (ready_of_noQueue hnone task)
          (next_write hbooks fun hb _ q hq => absurd hq (hnone.not_mem hb)) (.inr hnone)
    | some item =>
      obtain ⟨sink, hsink, hhead⟩ := Option.bind_eq_some_iff.mp hitem
      rcases h.writer htask with ⟨hact, hpend⟩ | ⟨-, -, hnone, -⟩
      · simp only
        cases checkedAdd usizeMax w.state.deliveredItems 1 with
        | some deliveredItems =>
          have hbooks' := hbooks.pop hsink hhead deliveredItems w.state.phase
          obtain ⟨hready, hlater⟩ := hpend.pop
            { popFront index item w.state with deliveredItems } rfl rfl
          refine hgo _ ⟨h.written.order, h.written.below, fun hnew => ?_⟩ hbooks' hready
            (next_write hbooks' hlater) (.inl hact)
          have hempty := (h.written.new hnew).getElem? hsink
          rw [hempty] at hhead
          cases hhead
        | none =>
          have hbooks' := hbooks.pop hsink hhead w.state.deliveredItems .failed
          obtain ⟨hready, -⟩ := hpend.pop
            { popFront index item w.state with phase := .failed } rfl rfl
          refine hgo _ ⟨h.written.order, h.written.below, fun hnew => ?_⟩ hbooks' hready
            (next_first hbooks') (.inl hact)
          cases hnew
      · rw [hnone.getElem? hsink] at hhead
        cases hhead

theorem Flow.resume (h : Flow w) (hbooks : Books w.state) {await : Await}
    (htask : w.tasks task = some await) (reply cancelReply : Reply) :
    Flow (w.store task (resume task await reply cancelReply w.state)) := by
  have hpiece : ∀ {piece : Piece Data}, await.isWriting = false →
      Quiet w.state piece.2 ∧ piece.1.NoWrite → Flow (w.store task piece) := by
    intro piece hwrites hquiet
    refine h.piece hquiet.1 hquiet.2 (Nat.le_refl _) (h.tasks htask) fun other hother => ?_
    rw [htask] at hother
    cases hother
    exact hwrites
  cases await with
  | starting index =>
    exact hpiece rfl ((begins_started _ _ _ _).imp (·.quiet) (·.noWrite))
  | rollingBack index primary failure =>
    exact hpiece rfl ((begins_rolled _ _ _ _ _).imp (·.quiet) (·.noWrite))
  | writing caller sequence index failure => exact h.sinkWrote hbooks htask reply
  | flushing caller index failure =>
    exact hpiece rfl ((closing_flushed _ _ _).imp (·.quiet) (·.noWrite))
  | finishing index failure =>
    exact hpiece rfl ((closing_finished _ _).imp (·.quiet) (·.noWrite))

/-! ## The methods that take the lock once -/

theorem get?_admitted (hb : (admitted admission s).sinks[i]? = some b) : ∃ a, s.sinks[i]? = some a ∧
      b = if i ∈ admission.selected then a.push admission.envelope else a := by
  rw [admitted, get?_enqueued] at hb
  obtain ⟨a, ha, rfl⟩ := Option.map_eq_some_iff.mp hb
  exact ⟨a, ha, rfl⟩

theorem wrote_admitted {d q : ℕ} (hmem : .wrote d i q ∈ (admitted admission s).log) :
    .wrote d i q ∈ s.log :=
  mem_of_concat hmem (by simp)

/-- A queue with at most one more envelope at its end. -/
theorem SinkState.push_cases (p : Prop) [Decidable p] (envelope : ResultEnvelope Data)
    {b : SinkState Data} (hb : b = if p then a.push envelope else a) :
    (b.healthy → a.healthy) ∧ (∀ q ∈ b.sequences, q ∈ a.sequences ∨ q = envelope.sequence) ∧
      (∀ q ∈ b.sequences.tail, q ∈ a.sequences.tail ∨ q = envelope.sequence) ∧
      (∀ q, a.front = some q → b.front = some q) := by
  subst hb
  by_cases hp : p
  · rw [if_pos hp]
    refine ⟨id, fun q hq => ?_, fun q hq => ?_, fun q hfront => ?_⟩
    · simpa [sequences, push] using hq
    · cases hqueue : a.queue with
      | nil => simp [sequences, push, hqueue] at hq
      | cons item rest => simpa [sequences, push, hqueue] using hq
    · cases hqueue : a.queue with
      | nil =>
        rw [front, hqueue] at hfront
        cases hfront
      | cons item rest => simpa [front, push, hqueue] using hfront
  · rw [if_neg hp]
    exact ⟨id, fun q hq => .inl hq, fun q hq => .inl hq, fun q h => h⟩

theorem Ready.push {delivery : ℕ} (h : Ready delivery s)
    (hbelow : ∀ d i q, .wrote d i q ∈ s.log → q < admission.envelope.sequence) :
    Ready delivery (Router.admitted admission s) := by
  refine h.admitted hbelow (fun {i b} hb => ?_) fun d i q hmem => wrote_admitted hmem
  obtain ⟨a, ha, hb⟩ := get?_admitted hb
  obtain ⟨hwell, hmem, -⟩ := a.push_cases _ _ hb
  exact ⟨a, ha, hmem, hwell⟩

theorem Pending.admitted (h : Pending task sequence index s)
    (hbelow : ∀ d i q, .wrote d i q ∈ s.log → q < admission.envelope.sequence) :
    Pending task sequence index (admitted admission s) where
  wrote := List.mem_append_left _ h.wrote
  front := by
    obtain ⟨a, ha, hfront⟩ := h.front
    refine ⟨_, by rw [Router.admitted, get?_enqueued, ha]; rfl, ?_⟩
    obtain ⟨-, -, -, hkept⟩ := a.push_cases (index ∈ admission.selected) admission.envelope rfl
    exact hkept sequence hfront
  rest := by
    refine h.rest.admitted hbelow (fun {i b} hb => ?_) fun d i q hmem => wrote_admitted hmem
    obtain ⟨c, hc, hb⟩ := of_modify hb
    obtain ⟨a, ha, hca⟩ := get?_admitted hc
    obtain ⟨hwell, hmem, htail, -⟩ := a.push_cases _ _ hca
    refine ⟨_, modify_get? ha, ?_⟩
    rcases hb with ⟨hi, rfl⟩ | ⟨hi, rfl⟩
    · rw [if_pos hi]
      simp only [sequences, dropFront, ← List.map_tail] at htail ⊢
      exact ⟨htail, hwell⟩
    · rw [if_neg hi]
      exact ⟨hmem, hwell⟩

theorem Flow.admitted (h : Flow w) (hadm : Admits w.state admission) :
    Flow { w with state := admitted admission w.state } := by
  have hbelow : ∀ d i q, .wrote d i q ∈ w.state.log → q < admission.envelope.sequence := by
    intro d i q hmem
    rw [hadm.sequence]
    exact (h.written.below hmem).2
  refine ⟨⟨?_, fun hmem => ?_, fun hnew => ?_⟩, h.tasks, fun htask => ?_, h.unique,
    fun hnone hopen => ?_⟩
  · exact h.written.order.concat nofun
  · obtain ⟨hd, hq⟩ := h.written.below (wrote_admitted hmem)
    refine ⟨hd, ?_⟩
    show _ < admission.nextSequence
    rw [hadm.nextSequence]
    omega
  · have hphase : w.state.phase = .new := hnew
    rw [hadm.phase] at hphase
    cases hphase
  · rcases h.writer htask with ⟨hact, hpend⟩ | ⟨-, hover, -⟩
    · exact .inl ⟨hact, hpend.admitted hbelow⟩
    · rw [hadm.phase] at hover
      cases hover
  · exact ((h.written.ready (h.idle hnone hopen)).push hbelow).fresh

theorem noQueue_free : NoQueue (releaseAll s) := by
  refine noQueue_get? fun hb => ?_
  rw [get?_release] at hb
  obtain ⟨a, -, rfl⟩ := Option.map_eq_some_iff.mp hb
  rfl

section

variable (cancels : ℕ → Reply)

theorem length_cancel : (cancelInner cancels s).2.sinks.length = s.sinks.length := by
  rcases cancel_cases cancels s with ⟨hsame, -⟩ | ⟨-, dropError, phase, -, heq⟩
  · rw [hsame]
  · rw [heq]
    simp [releaseAll]

/-- A cancellation leaves a phase in which nothing begins. -/
theorem cancel_closed (s : RouterState Data) :
    (cancelInner cancels s).2.phase.isOpen = false ∧ ((cancelInner cancels s).2 = s ∨
        (cancelInner cancels s).2.phase.isOver ∧ (cancelInner cancels s).2.deliveryActive = false ∧
          NoQueue (cancelInner cancels s).2) := by
  rcases cancel_cases cancels s with ⟨hsame, hphase⟩ | ⟨-, dropError, phase, hphase, heq⟩
  · refine ⟨?_, .inl hsame⟩
    rw [hsame]
    rcases hphase with hphase | hphase <;> rw [hphase] <;> rfl
  · have hover : phase.isOver := by
      rcases hphase with hphase | hphase
      · rw [hphase]
        show isOver (if s.phase = .failed then .failed else .cancelled)
        split_ifs <;> rfl
      · rw [hphase]
        rfl
    rw [heq]
    refine ⟨?_, .inr ⟨hover, rfl, noQueue_free⟩⟩
    rcases isOver_iff.mp hover with hphase | hphase <;> rw [hphase] <;> rfl

theorem Flow.cancelInner (s : RouterState Data) (h : Flow ⟨s, tasks, issued⟩)
    : Flow ⟨(cancelInner cancels s).2, tasks, issued⟩ := by
  obtain ⟨hclosed, hsame | ⟨hover, hact, hnone⟩⟩ := cancel_closed cancels s
  · rw [hsame]
    exact h
  · have hwritten : Written issued (Router.cancelInner cancels s).2 := by
      rcases cancel_cases cancels s with ⟨hsame, -⟩ | ⟨-, dropError, phase, -, heq⟩
      · rw [hsame]
        exact h.written
      · rw [heq] at hnone ⊢
        refine ⟨h.written.order.append fun event hmem before d i q he => ?_,
          fun hmem => h.written.below (mem_releaseAll hmem rfl), fun _ => hnone⟩
        obtain ⟨_, -, rfl⟩ := List.mem_map.mp hmem
        cases he
    refine ⟨hwritten, h.tasks, fun htask => ?_, h.unique, fun _ hopen => ?_⟩
    · refine .inr ⟨hact, hover, hnone, ?_⟩
      rw [length_cancel]
      exact (h.writer htask).lt
    · rw [hclosed] at hopen
      cases hopen

end

/-- Futures are dropped when no delivery can begin. -/
theorem Flow.drop (h : Flow w) (hclosed : w.state.phase.isOpen = false)
    (htasks : ∀ {task : ℕ} {await : Await}, tasks task = some await → w.tasks task = some await) :
    Flow { w with tasks } where
  written := h.written
  tasks htask := h.tasks (htasks htask)
  writer htask := h.writer (htasks htask)
  unique htask hwrites htask' hwrites' := h.unique (htasks htask) hwrites (htasks htask') hwrites'
  idle _ hopen := by
    rw [hclosed] at hopen
    cases hopen

theorem Await.guards_pos (await : Await) : ∃ n, await.guards = n + 1 := by
  unfold Await.guards
  split
  · exact ⟨1, rfl⟩
  · exact ⟨1, rfl⟩
  · exact ⟨0, rfl⟩

theorem Flow.step (h : Flow w) (hbooks : Books w.state) (ops : ResultOps Data) (run : String)
    (act : Act Data) : Flow (w.step ops run act) := by
  cases act with
  | admitEvent event metadata =>
    show Flow { w with state := (admitEvent ops run event metadata w.state).2 }
    rcases admit_cases ops run event metadata w.state with ⟨-, n, heq⟩ | ⟨admission, hadm, heq⟩
    · rw [heq]
      exact h.state ⟨still_of_eq rfl rfl rfl rfl rfl, rfl, id, .inl, id⟩
    · rw [heq]
      exact h.admitted hadm
  | stopAdmission => exact h.state (quiet_stop w.state)
  | cancel cancels => exact Flow.cancelInner cancels w.state h
  | call operation => exact h.firstPoll hbooks operation
  | resume task reply cancelReply =>
    exact World.step_waiting h fun htask => h.resume hbooks htask reply cancelReply
  | drop task cancels =>
    refine World.step_waiting h fun {await} _ => ?_
    have hcancelled := Function.Iterate.rec (fun s => Flow ⟨s, w.tasks, w.issued⟩) h
      (Flow.cancelInner cancels) await.guards
    refine hcancelled.drop ?_ tasks_of_dropped
    obtain ⟨n, hn⟩ := await.guards_pos
    rw [hn, Function.iterate_succ_apply']
    exact (cancel_closed cancels _).1

theorem flow_initial {specs : List SinkSpec} : Flow (World.initial specs : World Data) := by
  have hnone : NoQueue (RouterState.initial specs : RouterState Data) := by
    refine noQueue_get? fun hb => ?_
    simp only [RouterState.initial, List.getElem?_map] at hb
    obtain ⟨spec, -, rfl⟩ := Option.map_eq_some_iff.mp hb
    rfl
  refine ⟨⟨stepwise_nil, fun h => ?_, fun _ => hnone⟩, fun h => ?_, fun h => ?_, fun h => ?_,
    fun _ h => ?_⟩ <;> cases h

end

end JmeterRs.Router
