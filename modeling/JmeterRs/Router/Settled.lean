import JmeterRs.Router.Balance

/-!
# A `finish` that returns `Ok`

A run is orderly if nothing is queued when a `flush` that is called directly reaches the sinks, no
delivery and no start is under way when `finish` is called, unless the router has finished or has
been cancelled, and no sink refuses a cancellation that releases queued envelopes.  In an orderly
run a `finish` that returns `Ok` has written every accepted event to all its sinks.
-/

namespace JmeterRs.Router

section

variable {Data : Type}

def Orderly (w : World Data) : Act Data → Prop
  | .call .flush => flushRefused w.state = none → NoQueue w.state
  | .call .finish => w.state.phase ≠ .finished → w.state.phase ≠ .cancelled →
    w.state.deliveryActive = false ∧ (w.state.phase = .new → w.state.startupActive = false)
  | .cancel cancels | .drop _ cancels => ¬ NoQueue w.state → ∀ sink, cancels sink = .ok ()
  | _ => True

/-- Every accepted event has been written to its sinks or is queued there. -/
def Held (s : RouterState Data) : Prop :=
  ∀ sequence selected, .accepted sequence selected ∈ s.log → ∀ i ∈ selected,
    (∃ delivery, .wrote delivery i sequence ∈ s.log) ∨
      ∃ b, s.sinks[i]? = some b ∧ sequence ∈ b.sequences

def Faulty (s : RouterState Data) : Prop :=
  ∃ i : ℕ, ∃ b : SinkState Data, s.sinks[i]? = some b ∧ b.failed ≠ none

def FinishAllowed (before : List RouterEvent) (event : RouterEvent) : Prop :=
  event = .finished → Complete before

/-- What holds of every state of an orderly run. -/
structure Settled (s : RouterState Data) : Prop where
  failed : ∀ {i : ℕ} {b : SinkState Data}, s.sinks[i]? = some b → b.failed ≠ none → b.queue = []
  held : Held s ∨ s.phase = .cancelled ∨ Faulty s
  stuck : s.phase = .failed → Faulty s ∨ NoQueue s
  ended : s.phase = .failed → s.deliveryActive = false → NoQueue s
  flushed : s.phase = .flushed → NoQueue s
  cancelled : s.phase = .cancelled → NoQueue s
  finished : s.phase = .finished → Complete s.log
  log : Stepwise FinishAllowed s.log

/-- What holds while a delivery waits for a write. -/
structure Delivering (caller : Caller) (failure : Option RouterError) (s : RouterState Data) :
    Prop where
  clean : failure = none → s.phase.isOpen ∧ s.deliveryActive ∨ s.phase = .cancelled
  dirty : failure ≠ none → s.phase = .failed
  finish : caller = .finish none → failure = none → Held s ∨ s.phase = .cancelled

/-- What holds while a flush or a finish waits. -/
structure Ended (s : RouterState Data) : Prop where
  noQueue : NoQueue s
  new : s.phase ≠ .new
  started : s.phase ≠ .started

def Await.Settled (s : RouterState Data) : Await → Prop
  | .writing caller _ _ failure => Delivering caller failure s
  | .flushing caller index failure =>
    Ended s ∧ ((Await.flushing caller index failure).isClean → Complete s.log)
  | .finishing index failure => Ended s ∧ ((Await.finishing index failure).isClean → Complete s.log)
  | .starting _ | .rollingBack .. => True

structure Tidy (w : World Data) : Prop where
  settled : Settled w.state
  tasks : ∀ {task : ℕ} {await : Await}, w.tasks task = some await → await.Settled w.state

variable {s s' : RouterState Data} {w : World Data}

/-! ## What steps keep -/

variable {await : Await} {caller : Caller} {failure : Option RouterError} {task : ℕ}
  {p p' : RouterPhase} {piece : Piece Data} {issued : ℕ}

theorem closing_settled (h : await.isClosing) :
    await.Settled s ↔ Ended s ∧ (await.isClean → Complete s.log) := by
  cases await <;> first | rfl | cases h

theorem settled_of_start (h : await.isStart) : await.Settled s := by
  cases await <;> trivial

/-- What a future that waits needs from a step. -/
theorem Await.Settled.imp (h : await.Settled s)
    (hwriting : ∀ caller sequence index failure, await = .writing caller sequence index failure →
      Delivering caller failure s → Delivering caller failure s')
    (hclosing : await.isClosing → Ended s → Ended s' ∧ (Complete s.log → Complete s'.log)) :
    await.Settled s' := by
  cases await with
  | writing caller sequence index failure => exact hwriting _ _ _ _ rfl h
  | flushing | finishing => exact (hclosing rfl h.1).imp_right fun hcomplete => hcomplete ∘ h.2
  | starting | rollingBack => trivial

theorem Held.complete (h : Held s) (hnone : NoQueue s) : Complete s.log := by
  intro sequence selected hmem i hi
  rcases h sequence selected hmem i hi with hwrote | ⟨b, hb, hq⟩
  · exact hwrote
  · exact absurd hq (hnone.not_mem hb)

theorem Complete.held (h : Complete s.log) : Held s :=
  fun sequence selected hmem i hi => .inl (h sequence selected hmem i hi)

theorem Held.still (h : Held s) (hstill : Still s s') : Held s' := by
  intro sequence selected hmem i hi
  rcases h sequence selected ((hstill.mem_iff rfl).mp hmem) i hi with ⟨d, hwrote⟩ | ⟨a, ha, hq⟩
  · exact .inl ⟨d, hstill.wrote_iff.mpr hwrote⟩
  · obtain ⟨b, hb, hab⟩ := hstill.forward ha
    exact .inr ⟨b, hb, hab.sequences ▸ hq⟩

theorem Faulty.still (h : Faulty s) (hstill : Still s s') : Faulty s' := by
  obtain ⟨i, a, ha, hfailed⟩ := h
  obtain ⟨b, hb, hab⟩ := hstill.forward ha
  exact ⟨i, b, hb, fun hnone => hfailed (hab.failed hnone)⟩

/-- With nothing queued there is little to say. -/
theorem noQueue_settled (hnone : NoQueue s) (hheld : Held s ∨ s.phase = .cancelled ∨ Faulty s)
    (hfin : s.phase = .finished → Complete s.log) (hlog : Stepwise FinishAllowed s.log) :
    Settled s :=
  ⟨fun hb _ => hnone.getElem? hb, hheld, fun _ => .inr hnone, fun _ _ => hnone, fun _ => hnone,
    fun _ => hnone, hfin, hlog⟩

theorem Closes.of_cancelled (h : Closes p p') (hp : p = .cancelled) : p' = .cancelled := by
  rcases h with heq | ⟨hne, -⟩
  · exact heq.trans hp
  · exact absurd hp hne

theorem Closes.of_failed (h : Closes p p') (hp : p = .failed) : p' = .failed := by
  rcases h with heq | ⟨-, heq | ⟨hne, -⟩⟩
  · exact heq.trans hp
  · exact heq
  · exact absurd hp hne

theorem Ended.closing (h : Ended s) (hclosing : Closing s s') : Ended s' := by
  refine ⟨hclosing.noQueue_iff.mpr h.noQueue, fun hnew => h.new (hclosing.quiet.new hnew), ?_⟩
  intro hstarted
  rcases hclosing.phase with heq | ⟨-, heq | ⟨-, heq | heq⟩⟩
  · exact h.started (heq.symm.trans hstarted)
  all_goals
    rw [heq] at hstarted
    cases hstarted

/-! ## Flush and finish -/

/-- What `flush` and `finish` do in an orderly run. -/
structure Closed (s s' : RouterState Data) : Prop extends Closing s s' where
  finished : s'.phase = .finished → Complete s'.log
  order : Stepwise FinishAllowed s'.log

theorem Closed.refl (h : Settled s) : Closed s s := ⟨.refl s, h.finished, h.log⟩

theorem Closed.mark (h : Closed s s') {s'' : RouterState Data} {event : RouterEvent}
    (hclosing : Closing s s'') (hstill : Still s' s'') (hphase : s''.phase = s'.phase)
    (hlog : s''.log = s'.log ++ [event]) (hevent : event ≠ .finished) : Closed s s'' where
  toClosing := hclosing
  finished hfin := hstill.complete_iff.mpr (h.finished (hphase ▸ hfin))
  order := hlog ▸ h.order.concat fun he => absurd he hevent

theorem kept_closed : Kept (Closed s) where
  close h hcloses hne := ⟨h.toClosing.close hcloses, fun hphase => absurd hphase hne, h.order⟩
  callFinish h hsink hunfinished :=
    h.mark (kept_closing.callFinish h.toClosing hsink hunfinished) (still_finish _ _) rfl rfl nofun
  callFlush h hsink hunflushed :=
    h.mark (kept_closing.callFlush h.toClosing hsink hunflushed) (still_flush _ _) rfl rfl nofun
  failSink index source h :=
    h.mark (kept_closing.failSink index source h.toClosing) (still_failSink _ _ _) rfl rfl nofun

theorem ends_closed (hcomplete : Complete s.log) : Finishes (Closed s) := by
  intro t phase h hcloses
  have hclosing := ends_closing t phase h.toClosing hcloses
  have hbefore : Complete t.log := h.toStill.complete_iff.mpr hcomplete
  exact ⟨hclosing, fun _ => hclosing.toStill.complete_iff.mpr hcomplete,
    h.order.concat fun _ => hbefore⟩

theorem Settled.closed (h : Settled s) (hnone : NoQueue s) (hclosed : Closed s s') :
    Settled s' := by
  refine noQueue_settled (hclosed.noQueue_iff.mpr hnone) ?_ hclosed.finished hclosed.order
  rcases h.held with hheld | hcancelled | hfaulty
  · exact .inl (hheld.still hclosed.toStill)
  · exact .inr (.inl (hclosed.phase.of_cancelled hcancelled))
  · exact .inr (.inr (hfaulty.still hclosed.toStill))

theorem Delivering.closing (h : Delivering caller failure s) (hidle : s.deliveryActive = false)
    (hclosing : Closing s s') :
    Delivering caller failure s' where
  clean hfailure := by
    rcases h.clean hfailure with ⟨-, hactive⟩ | hcancelled
    · rw [hidle] at hactive
      cases hactive
    · exact .inr (hclosing.phase.of_cancelled hcancelled)
  dirty hfailure := hclosing.phase.of_failed (h.dirty hfailure)
  finish hcaller hfailure := by
    rcases h.finish hcaller hfailure with hheld | hcancelled
    · exact .inl (hheld.still hclosing.toStill)
    · exact .inr (hclosing.phase.of_cancelled hcancelled)

theorem Await.Settled.closing (h : await.Settled s)
    (hidle : await.isWriting → s.deliveryActive = false) (hclosing : Closing s s') :
    await.Settled s' := by
  refine h.imp ?_ fun _ hended => ⟨hended.closing hclosing, hclosing.complete_iff.mpr⟩
  rintro _ _ _ _ rfl hdelivering
  exact hdelivering.closing (hidle rfl) hclosing

/-- No delivery waits for a write when the router has finished. -/
theorem Await.Settled.not_finished (h : await.Settled s) (hwrites : await.isWriting) :
    s.phase ≠ .finished := by
  intro hphase
  cases await with
  | writing caller sequence index failure =>
    by_cases hfailure : failure = none
    · rcases h.clean hfailure with ⟨hopen, -⟩ | hcancelled
      · rw [hphase] at hopen
        cases hopen
      · cases hphase.symm.trans hcancelled
    · cases hphase.symm.trans (h.dirty hfailure)
  | starting | rollingBack | flushing | finishing => cases hwrites

theorem tidy_store (hset : Settled piece.2)
    (hothers : ∀ {other : ℕ} {await : Await}, other ≠ task → w.tasks other = some await →
      await.Settled piece.2)
    (howner : ∀ {await : Await}, piece.1 = .pending await → await.Settled piece.2) :
    Tidy ({ w with issued }.store task piece) := by
  refine ⟨hset, fun {other await} hstored => ?_⟩
  rcases store_tasks hstored with ⟨-, hpend⟩ | ⟨hne, hold⟩
  · exact howner hpend
  · exact hothers hne hold

theorem Poll.Closes.settled {poll : Poll} (h : poll.Closes (Complete s.log)) (hended : Ended s)
    (hclosing : Closing s s') (hawait : poll = .pending await) : await.Settled s' := by
  subst hawait
  refine (closing_settled h.1).mpr ⟨hended.closing hclosing, fun hclean => ?_⟩
  exact hclosing.complete_iff.mpr (h.2 hclean)

/-- A flush or a finish has run in a state with nothing queued. -/
theorem tidy_close (h : Settled s) (hended : Ended s)
    (hcomes : Comes (Closed s) (Complete s.log) piece)
    (hothers : ∀ {other : ℕ} {await : Await}, other ≠ task → w.tasks other = some await →
      await.Settled s ∧ (await.isWriting → s.deliveryActive = false)) :
    Tidy ({ w with issued }.store task piece) := by
  apply tidy_store
  · exact h.closed hended.noQueue hcomes.1
  · intro other await hne hold
    obtain ⟨hawait, hidle⟩ := hothers hne hold
    exact hawait.closing hidle hcomes.1.toClosing
  · exact fun hpend => hcomes.2.settled hended hcomes.1.toClosing hpend

/-- Nothing is queued, so a write that waits has been cancelled. -/
theorem Flow.idle_of_noQueue (h : Flow w) (hnone : NoQueue w.state)
    (htask : w.tasks task = some await) (hwrites : await.isWriting) :
    w.state.deliveryActive = false := by
  cases await with
  | writing caller sequence index failure =>
    rcases h.writer htask with ⟨-, hpend⟩ | ⟨hidle, -⟩
    · obtain ⟨sink, hsink, hfront⟩ := hpend.front
      exact absurd (SinkState.front_mem hfront) (hnone.not_mem hsink)
    · exact hidle
  | starting | rollingBack | flushing | finishing => cases hwrites

/-! ## Deliveries -/

/-- The other futures while a delivery runs. -/
def Beside (w : World Data) (task : ℕ) (caller : Caller) (s : RouterState Data) : Prop :=
  ∀ {other : ℕ} {await : Await}, other ≠ task → w.tasks other = some await →
    await.isWriting = false ∧ await.Settled s ∧
      (await.isClosing → caller = .deliver → s.phase.isOver)

/-- A delivery that ends leaves its phase, or leaves it open. -/
theorem phase_drainEnd (h : Delivering caller failure s) :
    (drainEnd failure s).phase = s.phase ∧ s.phase.isOver ∨
      (drainEnd failure s).phase = .admissionStopped ∧ s.phase.isOpen ∧ failure = none := by
  unfold drainEnd
  cases failure with
  | some error =>
    left
    rw [if_neg (fun hboth => by cases hboth.2), h.dirty (nofun)]
    exact ⟨rfl, rfl⟩
  | none =>
    rcases h.clean rfl with ⟨hopen, -⟩ | hcancelled
    · have hne : s.phase ≠ .cancelled := by
        intro hcancelled
        rw [hcancelled] at hopen
        cases hopen
      exact .inr ⟨if_pos ⟨hne, rfl⟩, hopen, rfl⟩
    · left
      rw [if_neg (fun hboth => hboth.1 hcancelled), hcancelled]
      exact ⟨rfl, rfl⟩

theorem phase_deliverEnd (h : Delivering caller failure s) :
    (deliverEnd failure s).phase = s.phase ∧ (s.phase.isOver ∨ s.phase.isOpen) ∨
      (deliverEnd failure s).phase = .started ∧ s.phase.isOpen := by
  unfold deliverEnd
  cases failure with
  | some error =>
    left
    rw [if_neg (fun hboth => by cases hboth.2.1), h.dirty (nofun)]
    exact ⟨rfl, .inl rfl⟩
  | none =>
    rcases h.clean rfl with ⟨hopen, -⟩ | hcancelled
    · split_ifs
      · exact .inr ⟨rfl, hopen⟩
      · exact .inl ⟨rfl, .inr hopen⟩
    · left
      rw [if_neg (fun hboth => hboth.1 hcancelled), hcancelled]
      exact ⟨rfl, .inl rfl⟩

theorem RouterPhase.not_over_of_open {phase : RouterPhase} (h : phase.isOpen) :
    phase.isOver = false := by
  cases phase <;> first | rfl | cases h

/-- The end of a delivery keeps what was held. -/
theorem Settled.shift (h : Settled s) (hnone : NoQueue s) (hshift : Shifted s s')
    (hphase : s'.phase = s.phase ∨ s.phase.isOpen ∧ s'.phase ≠ .finished) : Settled s' := by
  have hstill := hshift.still
  refine noQueue_settled (hstill.noQueue_iff.mpr hnone) ?_ ?_ ?_
  · rcases h.held with hheld | hcancelled | hfaulty
    · exact .inl (hheld.still hstill)
    · rcases hphase with heq | ⟨hopen, -⟩
      · exact .inr (.inl (heq.trans hcancelled))
      · rw [hcancelled] at hopen
        cases hopen
    · exact .inr (.inr (hfaulty.still hstill))
  · intro hfin
    rcases hphase with heq | ⟨-, hne⟩
    · exact hstill.complete_iff.mpr (h.finished (heq.symm.trans hfin))
    · exact absurd hfin hne
  · rw [hshift.log]
    exact h.log

theorem settled_drainEnd (h : Settled s) (hnone : NoQueue s)
    (hdelivering : Delivering caller failure s) :
    Settled (drainEnd failure s) ∧ Ended (drainEnd failure s) := by
  have hshift := shifted_drained failure s
  have hnone' : NoQueue (drainEnd failure s) := hshift.still.noQueue_iff.mpr hnone
  rcases phase_drainEnd hdelivering with ⟨heq, hover⟩ | ⟨heq, hopen, -⟩
  · refine ⟨h.shift hnone hshift (.inl heq), hnone', ?_, ?_⟩ <;> rw [heq] <;>
      rcases RouterPhase.isOver_iff.mp hover with hphase | hphase <;> rw [hphase] <;>
      exact nofun
  · refine ⟨h.shift hnone hshift (.inr ⟨hopen, ?_⟩), hnone', ?_, ?_⟩ <;> rw [heq] <;> exact nofun

theorem Await.Settled.shift (h : await.Settled s) (hwrites : await.isWriting = false)
    (hshift : Shifted s s') (hstarted : await.isClosing → s'.phase ≠ .started) :
    await.Settled s' := by
  refine h.imp ?_ fun hclosing hended => ⟨?_, hshift.still.complete_iff.mpr⟩
  · rintro _ _ _ _ rfl
    cases hwrites
  · exact ⟨hshift.still.noQueue_iff.mpr hended.noQueue, fun hnew => hended.new (hshift.phase hnew),
      hstarted hclosing⟩

theorem delivery_ok {operation : String} (h : deliveryResult operation failure s = .ok ()) :
    s.phase ≠ .cancelled ∧ failure = none := by
  unfold deliveryResult at h
  by_cases hcancelled : s.phase = .cancelled
  · rw [if_pos hcancelled] at h
    cases h
  · rw [if_neg hcancelled] at h
    refine ⟨hcancelled, ?_⟩
    cases failure with
    | none => rfl
    | some error => cases h

/-- A delivery has nothing left to write. -/
theorem tidy_return (h : Settled s) (hnone : NoQueue s)
    (hdelivering : Delivering caller failure s) (hbeside : Beside w task caller s) :
    Tidy ({ w with issued }.store task (deliveryReturn caller failure s)) := by
  have hdrained : ∀ {other : ℕ} {await : Await}, other ≠ task → w.tasks other = some await →
      await.isWriting = false ∧ await.Settled (drainEnd failure s) := by
    intro other await hne hold
    obtain ⟨hwrites, hawait, -⟩ := hbeside hne hold
    exact ⟨hwrites, hawait.shift hwrites (shifted_drained failure s)
      fun _ => (settled_drainEnd h hnone hdelivering).2.started⟩
  cases caller with
  | deliver =>
    have hphase := phase_deliverEnd hdelivering
    apply tidy_store
    · apply h.shift hnone shifted_end
      rcases hphase with ⟨heq, -⟩ | ⟨heq, hopen⟩
      · exact .inl heq
      · exact .inr ⟨hopen, by rw [heq]; exact nofun⟩
    · intro other await hne hold
      obtain ⟨hwrites, hawait, hover⟩ := hbeside hne hold
      refine hawait.shift hwrites shifted_end fun hclosing => ?_
      have hover' := hover hclosing rfl
      show (deliverEnd failure s).phase ≠ .started
      rcases hphase with ⟨heq, -⟩ | ⟨-, hopen⟩
      · rw [heq]
        rcases RouterPhase.isOver_iff.mp hover' with hphase | hphase <;> rw [hphase] <;> exact nofun
      · rw [RouterPhase.not_over_of_open hopen] at hover'
        cases hover'
    · exact nofun
  | drain =>
    apply tidy_store
    · exact (settled_drainEnd h hnone hdelivering).1
    · exact fun hne hold => (hdrained hne hold).2
    · exact nofun
  | finish earlier =>
    obtain ⟨hset, hended⟩ := settled_drainEnd h hnone hdelivering
    have hclean : collect earlier (deliveryResult "drain" failure s) = none →
        Complete (drainEnd failure s).log := by
      intro hcollected
      obtain ⟨rfl, hresult⟩ := collect_none hcollected
      obtain ⟨hcancelled, hfailure⟩ := delivery_ok hresult
      exact ((hdelivering.finish rfl hfailure).resolve_right hcancelled).complete hnone
    refine tidy_close hset hended ?_ fun hne hold => ⟨(hdrained hne hold).2, fun _ => rfl⟩
    exact kept_flush kept_closed ends_closed (.refl hset)
      fun hcaller => hclean (FlushCaller.finish.inj hcaller)

end

end JmeterRs.Router
