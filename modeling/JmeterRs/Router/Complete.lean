import Mathlib.Data.List.Basic
import JmeterRs.Router.Settled

/-!
# The law of the result router

The steps of an orderly run keep `Tidy`.  Together with the order of the writes, the calls of the
sinks and the accounts of the queues this is what the router promises.
-/

namespace JmeterRs.Router

open SinkState List World

section

variable {Data : Type} {s s' : RouterState Data} {w : World Data}

/-! ## Writes -/

theorem Complete.wrote {log : List RouterEvent} (h : Complete log) (delivery index sequence : ℕ) :
    Complete (log ++ [.wrote delivery index sequence]) := by
  intro q selected hmem i hi
  obtain ⟨d, hwrote⟩ := h q selected (mem_of_concat hmem (by simp)) i hi
  exact ⟨d, mem_append_left _ hwrote⟩

theorem Held.wrote (h : Held s) (delivery index sequence : ℕ) :
    Held (s.emit (.wrote delivery index sequence)) := by
  intro q selected hmem i hi
  rcases h q selected (mem_of_concat hmem (by simp)) i hi with ⟨d, hwrote⟩ | hqueued
  · exact .inl ⟨d, mem_append_left _ hwrote⟩
  · exact .inr hqueued

theorem Settled.wrote (h : Settled s) (delivery index sequence : ℕ) :
    Settled (s.emit (.wrote delivery index sequence)) where
  __ := h
  held := by
    rcases h.held with hheld | hrest
    · exact .inl (hheld.wrote _ _ _)
    · exact .inr hrest
  finished hphase := (h.finished hphase).wrote _ _ _
  log := h.log.concat nofun

variable {caller : Caller} {failure : Option RouterError} {await : Await} {task index sequence : ℕ}
  {cancels : ℕ → Reply} {ops : ResultOps Data}

theorem Delivering.wrote (h : Delivering caller failure s) (delivery index sequence : ℕ) :
    Delivering caller failure (s.emit (.wrote delivery index sequence)) where
  __ := h
  finish hcaller hfailure := by
    rcases h.finish hcaller hfailure with hheld | hcancelled
    · exact .inl (hheld.wrote _ _ _)
    · exact .inr hcancelled

theorem Await.Settled.wrote (h : await.Settled s) (delivery index sequence : ℕ) :
    await.Settled (s.emit (.wrote delivery index sequence)) :=
  h.imp (fun _ _ _ _ _ hdelivering => hdelivering.wrote _ _ _)
    fun _ hended => ⟨{ hended with }, fun hcomplete => hcomplete.wrote _ _ _⟩

variable {issued : ℕ} {specs : List SinkSpec}

theorem tidy_deliver {target : Option (ℕ × ℕ)} (h : Settled s) (hbooks : Books s)
    (hnext : Next s target) (hdelivering : Delivering caller failure s)
    (hbeside : Beside w task caller s) :
    Tidy ({ w with issued }.store task (deliverQueued task caller failure target s)) := by
  cases target with
  | none =>
    refine tidy_return h (noQueue_get? fun {i b} hb => ?_) hdelivering hbeside
    by_cases hfail : b.failed = none
    · by_cases henb : b.spec.route.enabled
      · exact hnext hb (by simp [healthy, henb, hfail])
      · exact (hbooks.sinks hb).disabled (by simpa using henb)
    · exact h.failed hb hfail
  | some target =>
    apply tidy_store
    · exact h.wrote _ _ _
    · exact fun hne hold => (hbeside hne hold).2.1.wrote _ _ _
    · intro await hpend
      cases hpend
      exact hdelivering.wrote _ _ _

theorem noQueue_pending (h : Pending task sequence index s) : ¬ NoQueue s := by
  intro hnone
  obtain ⟨sink, hsink, hfront⟩ := h.front
  exact hnone.not_mem hsink (front_mem hfront)

theorem Settled.failWrite (h : Settled s) (hindex : index < s.sinks.length) (source : SinkError)
    (hended : s.deliveryActive = false → NoQueue s) : Settled (failWrite index source s) := by
  have hfaulty : Faulty (Router.failWrite index source s) := by
    have hlength : (Router.failWrite index source s).sinks.length = s.sinks.length := by
      simp [Router.failWrite, failSink, RouterState.emit]
    have hat := getElem?_eq_getElem (hlength ▸ hindex)
    obtain ⟨a, -, hb⟩ := get?_failWrite hat
    refine ⟨index, _, hat, ?_⟩
    rw [hb, if_pos rfl]
    exact Option.some_ne_none source
  refine ⟨fun {i b} hb hfail => ?_, .inr (.inr hfaulty), fun _ => .inl hfaulty,
    fun _ hidle => noQueue_fail (hended hidle) index source, fun hphase => ?_,
    fun hphase => ?_, fun hphase => ?_, ?_⟩
  · obtain ⟨a, ha, rfl⟩ := get?_failWrite hb
    split_ifs at hfail ⊢
    · rfl
    · exact h.failed ha hfail
  · cases hphase
  · cases hphase
  · cases hphase
  · exact h.log.concat fun h => by cases h

/-- The envelope that leaves the queue has been written. -/
theorem Held.pop (h : Held s) {deliveredItems : ℕ} (hpend : Pending task sequence index s)
    {sink : SinkState Data} {item : QueuedEnvelope Data} (hsink : s.sinks[index]? = some sink)
    (hhead : sink.queue.head? = some item) :
    Held { popFront index item s with deliveredItems } := by
  intro q selected hmem i hi
  rcases h q selected hmem i hi with hwrote | ⟨a, ha, hq⟩
  · exact .inl hwrote
  · by_cases hindex : index = i
    · subst hindex
      rw [hsink] at ha
      cases ha
      obtain ⟨front, hfront, hseq⟩ := hpend.front
      rw [hsink] at hfront
      cases hfront
      rw [front, hhead] at hseq
      cases hseq
      obtain ⟨rest, hqueue⟩ := head?_eq_some_iff.mp hhead
      rw [sequences, hqueue, map_cons] at hq
      rcases mem_cons.mp hq with rfl | hq
      · exact .inl ⟨task, hpend.wrote⟩
      · refine .inr ⟨_, modify_get? hsink, ?_⟩
        rw [if_pos rfl, sequences_tail, sequences, hqueue]
        exact hq
    · refine .inr ⟨_, modify_get? ha, ?_⟩
      rw [if_neg (Ne.symm hindex)]
      exact hq

theorem Settled.pop (h : Settled s) {deliveredItems : ℕ} (hact : s.deliveryActive = true)
    (hpend : Pending task sequence index s) {sink : SinkState Data} {item : QueuedEnvelope Data}
    (hsink : s.sinks[index]? = some sink) (hhead : sink.queue.head? = some item) :
    Settled { popFront index item s with deliveredItems } := by
  have hqueue := noQueue_pending hpend
  have hfaulty : Faulty s → Faulty { popFront index item s with deliveredItems } := by
    rintro ⟨i, a, ha, hfail⟩
    refine ⟨i, _, modify_get? ha, ?_⟩
    split_ifs <;> exact hfail
  refine ⟨fun {i b} hb hfail => ?_, ?_, fun hphase => ?_, fun _ hidle => ?_, fun hphase => ?_,
    fun hphase => ?_, h.finished, h.log⟩
  · obtain ⟨a, ha, rfl⟩ := get?_popFront hb
    split_ifs at hfail ⊢
    · show a.queue.tail = []
      rw [h.failed ha hfail]
      rfl
    · exact h.failed ha hfail
  · rcases h.held with hheld | hcancelled | hfault
    · exact .inl (hheld.pop hpend hsink hhead)
    · exact absurd (h.cancelled hcancelled) hqueue
    · exact .inr (.inr (hfaulty hfault))
  · exact .inl (hfaulty ((h.stuck hphase).resolve_right hqueue))
  · have hidle' : s.deliveryActive = false := hidle
    rw [hact] at hidle'
    cases hidle'
  · exact absurd (h.flushed hphase) hqueue
  · exact absurd (h.cancelled hphase) hqueue

theorem writeFailure_ne {source : SinkError} : writeFailure index source failure s ≠ none := by
  exact nofun

theorem Await.isStart_of (hwrites : await.isWriting = false) (hclosing : await.isClosing = false) :
    await.isStart := by
  cases await with
  | starting | rollingBack => rfl
  | writing => cases hwrites
  | flushing | finishing => cases hclosing

theorem Tidy.sinkWrote (h : Tidy w) (hflow : Flow w) (hbooks : Books w.state)
    (hbal : Balanced w.state)
    (htask : w.tasks task = some (.writing caller sequence index failure)) (reply : Reply) :
    Tidy (w.store task (sinkWrote task caller sequence index failure reply w.state)) := by
  have hdelivering : Delivering caller failure w.state := h.tasks htask
  have hwriter := hflow.writer htask
  have hsole := hflow.sole htask rfl
  -- beside an active write nothing is being flushed or finished
  have hquiet : Pending task sequence index w.state → ∀ {other : ℕ} {await : Await},
      w.tasks other = some await → await.isClosing = false := by
    intro hpend other await hold
    by_contra hclosing
    rw [Bool.not_eq_false] at hclosing
    exact noQueue_pending hpend ((closing_settled hclosing).mp (h.tasks hold)).1.noQueue
  have hbeside : ∀ {s' : RouterState Data}, Pending task sequence index w.state →
      Beside w task caller s' := by
    intro s' hpend other await hne hold
    have hwrites := hsole other await hne hold
    have hclosing := hquiet hpend hold
    refine ⟨hwrites, settled_of_start (Await.isStart_of hwrites hclosing), fun h => ?_⟩
    rw [hclosing] at h
    cases h
  unfold Router.sinkWrote
  cases reply with
  | error source =>
    have hbooks' := hbooks.failWrite index source
    have hdelivering' : Delivering caller (writeFailure index source failure w.state)
          (failWrite index source w.state) :=
      ⟨fun hnone => absurd hnone writeFailure_ne, fun _ => rfl,
        fun _ hnone => absurd hnone writeFailure_ne⟩
    rcases hwriter with ⟨hact, hpend⟩ | ⟨-, hover, hnone, hlt⟩
    · obtain ⟨-, hlater⟩ := hpend.failWrite source
      refine tidy_deliver (h.settled.failWrite (hflow.writer htask).lt source ?_) hbooks'
        (next_write hbooks' hlater) hdelivering' (hbeside hpend)
      intro hidle
      rw [hact] at hidle
      cases hidle
    · have hnone' := noQueue_fail hnone index source
      refine tidy_deliver (h.settled.failWrite hlt source fun _ => hnone) hbooks'
        (next_write hbooks' fun hb _ q hq => absurd hq (hnone'.not_mem hb)) hdelivering' ?_
      intro other await hne hold
      have hwrites := hsole other await hne hold
      refine ⟨hwrites, ?_, fun _ _ => rfl⟩
      cases hclosing : await.isClosing with
      | false => exact settled_of_start (Await.isStart_of hwrites hclosing)
      | true =>
        obtain ⟨hended, hcomplete⟩ := (closing_settled hclosing).mp (h.tasks hold)
        refine (closing_settled hclosing).mpr ⟨⟨hnone', ?_, ?_⟩, fun hclean => ?_⟩
        · exact nofun
        · exact nofun
        · intro q selected hmem i hi
          obtain ⟨d, hwrote⟩ := hcomplete hclean q selected (mem_of_concat hmem (by simp)) i hi
          exact ⟨d, (wrote_fail d i q).mpr hwrote⟩
  | ok value =>
    cases hitem : (w.state.sinks[index]?).bind (·.queue.head?) with
    | none =>
      rcases hwriter with ⟨-, hpend⟩ | ⟨-, hover, hnone, -⟩
      · obtain ⟨sink, hsink, hfront⟩ := hpend.front
        rw [hsink] at hitem
        rw [front, show sink.queue.head? = none from hitem] at hfront
        cases hfront
      · refine tidy_deliver h.settled hbooks
          (next_write hbooks fun hb _ q hq => absurd hq (hnone.not_mem hb)) hdelivering ?_
        exact fun hne hold => ⟨hsole _ _ hne hold, h.tasks hold, fun _ _ => hover⟩
    | some item =>
      obtain ⟨sink, hsink, hhead⟩ := Option.bind_eq_some_iff.mp hitem
      rcases hwriter with ⟨hact, hpend⟩ | ⟨-, -, hnone, -⟩
      · obtain ⟨hcount, -⟩ := hbal.delivered hsink hhead
        simp only [hcount]
        have hbooks' := hbooks.pop hsink hhead (w.state.deliveredItems + 1) w.state.phase
        obtain ⟨-, hlater⟩ := hpend.pop
          { popFront index item w.state with deliveredItems := w.state.deliveredItems + 1 } rfl rfl
        refine tidy_deliver (h.settled.pop hact hpend hsink hhead) hbooks'
          (next_write hbooks' hlater) ⟨hdelivering.clean, hdelivering.dirty, ?_⟩
          (hbeside hpend)
        intro hcaller hfailure
        rcases hdelivering.finish hcaller hfailure with hheld | hcancelled
        · exact .inl (hheld.pop hpend hsink hhead)
        · exact .inr hcancelled
      · rw [hnone.getElem? hsink] at hhead
        cases hhead

/-! ## Calls -/

theorem settled_of_open (hopen : s.phase.isOpen)
    (hfail : ∀ {i : ℕ} {b : SinkState Data}, s.sinks[i]? = some b → b.failed ≠ none → b.queue = [])
    (hheld : Held s ∨ Faulty s) (hlog : Stepwise FinishAllowed s.log) : Settled s := by
  have hphase : ∀ {phase : RouterPhase}, s.phase = phase → phase.isOpen := by
    intro phase heq
    rwa [heq] at hopen
  refine ⟨hfail, hheld.imp_right .inr, fun h => ?_, fun h _ => ?_, fun h => ?_, fun h => ?_,
    fun h => ?_, hlog⟩ <;> cases hphase h

theorem Settled.not_lost (h : Settled s) (hphase : s.phase ≠ .cancelled) : Held s ∨ Faulty s := by
  rcases h.held with hheld | hcancelled | hfaulty
  · exact .inl hheld
  · exact absurd hcancelled hphase
  · exact .inr hfaulty

/-- From one open phase to another. -/
theorem Settled.reopen (h : Settled s) (hshift : Shifted s s') (hopen : s.phase.isOpen)
    (hopen' : s'.phase.isOpen) : Settled s' := by
  have hphase : s.phase ≠ .cancelled := by
    intro hcancelled
    rw [hcancelled] at hopen
    cases hopen
  refine settled_of_open hopen' (fun hb => ?_) ?_ ?_
  · rw [hshift.sinks] at hb
    exact h.failed hb
  · exact (h.not_lost hphase).imp (·.still hshift.still) (·.still hshift.still)
  · rw [hshift.log]
    exact h.log

theorem stop_cases (s : RouterState Data) :
    (s.phase = .started ∧ (stopAdmission s).2 = { s with phase := .admissionStopped } ∧
      (stopAdmission s).1 = .ok ()) ∨
    (s.phase ≠ .started ∧ (stopAdmission s).2 = s ∧
      ((stopAdmission s).1 = .ok () ↔ s.phase ≠ .new ∧ s.phase ≠ .cancelled)) := by
  unfold stopAdmission
  cases s.phase <;> simp

theorem settled_stop (h : Settled s) : Settled (stopAdmission s).2 := by
  rcases stop_cases s with ⟨hphase, heq, -⟩ | ⟨-, heq, -⟩
  · have hshift := shifted_stop s
    exact h.reopen hshift (by rw [hphase]; rfl) (by rw [heq]; rfl)
  · rwa [heq]

theorem Await.Settled.stop (h : await.Settled s) : await.Settled (stopAdmission s).2 := by
  rcases stop_cases s with ⟨hphase, heq, -⟩ | ⟨-, heq, -⟩
  · have hstill := (shifted_stop s).still
    rw [heq] at hstill ⊢
    refine h.imp (fun caller _ _ failure _ hdelivering => ?_)
      fun _ hended => absurd hphase hended.started
    refine ⟨fun hfailure => ?_, fun hfailure => ?_, fun hcaller hfailure => ?_⟩
    · rcases hdelivering.clean hfailure with ⟨-, hact⟩ | hcancelled
      · exact .inl ⟨rfl, hact⟩
      · rw [hphase] at hcancelled
        cases hcancelled
    · have hfail := hdelivering.dirty hfailure
      rw [hphase] at hfail
      cases hfail
    · rcases hdelivering.finish hcaller hfailure with hheld | hcancelled
      · exact .inl (hheld.still hstill)
      · rw [hphase] at hcancelled
        cases hcancelled
  · rwa [heq]

theorem Tidy.stop (h : Tidy w) : Tidy { w with state := (stopAdmission w.state).2 } :=
  ⟨settled_stop h.settled, fun htask => (h.tasks htask).stop⟩

theorem Tidy.beginDelivery (h : Tidy w) (hflow : Flow w) (hbooks : Books w.state)
    (hopen : w.state.phase.isOpen) (hidle : w.state.deliveryActive = false)
    (hshift : Shifted w.state s') (hopen' : s'.phase.isOpen) (hact : s'.deliveryActive = true)
    (hstarted : caller = .deliver → w.state.phase = .started)
    (hdrains : caller ≠ .deliver → s'.phase ≠ .started)
    (hheld : caller = .finish none → Held w.state) :
    Tidy ({ w with issued := w.issued + 1 }.store w.issued
      (deliverQueued w.issued caller none (firstWrite s') s')) := by
  obtain ⟨hnone, -⟩ := hflow.begin hopen hidle
  have hbooks' : Books s' := hbooks.still hshift.still
  refine tidy_deliver (h.settled.reopen hshift hopen hopen') hbooks' (next_first hbooks')
    ⟨fun _ => .inl ⟨hopen', hact⟩, fun h => absurd rfl h,
      fun hcaller _ => .inl ((hheld hcaller).still hshift.still)⟩ ?_
  intro other await hne hold
  have hwrites := hnone other await hold
  have hawait := h.tasks hold
  have hnotDeliver : await.isClosing → caller ≠ .deliver := by
    intro hclosing hcaller
    exact ((closing_settled hclosing).mp hawait).1.started (hstarted hcaller)
  exact ⟨hwrites, hawait.shift hwrites hshift fun hclosing => hdrains (hnotDeliver hclosing),
    fun hclosing hcaller => absurd hcaller (hnotDeliver hclosing)⟩

theorem flush_none (h : flushRefused s = none) : s.phase ≠ .new ∧ s.phase ≠ .started := by
  unfold flushRefused at h
  cases hphase : s.phase <;> simp [hphase] at h ⊢

theorem failures_none (h : priorSinkFailures s = none) : ¬ Faulty s := by
  rintro ⟨i, b, hb, hfail⟩
  have hnone := foldl_none (p := fun sink => sink.failed = none) (fun slot sink hslot => ?_) h
  · exact hfail (hnone.2 b (mem_of_getElem? hb))
  cases hsink : sink.failed with
  | none =>
    rw [hsink] at hslot
    exact ⟨hslot, rfl⟩
  | some source =>
    rw [hsink] at hslot
    cases hslot

theorem Tidy.flush (h : Tidy w) (hflow : Flow w)
    (horderly : flushRefused w.state = none → NoQueue w.state) :
    Tidy ({ w with issued := w.issued + 1 }.store w.issued (flush .flush w.state)) := by
  cases hrefused : flushRefused w.state with
  | some result =>
    have hpiece : Router.flush .flush w.state = (.ready result, w.state) := by
      unfold Router.flush
      rw [hrefused]
      rfl
    rw [hpiece]
    exact tidy_store h.settled (fun _ hold => h.tasks hold) nofun
  | none =>
    obtain ⟨hnew, hstarted⟩ := flush_none hrefused
    have hnone := horderly hrefused
    refine tidy_close h.settled ⟨hnone, hnew, hstarted⟩ ?_ fun _ hold =>
      ⟨h.tasks hold, hflow.idle_of_noQueue hnone hold⟩
    exact kept_flush kept_closed ends_closed (.refl h.settled) nofun

theorem Settled.starting (h : Settled s) (hnew : s.phase = .new → NoQueue s)
    (hstarting : Starting s s') : Settled s' := by
  have hstill := hstarting.toStill
  have hlog : Stepwise FinishAllowed s'.log := by
    obtain ⟨notes, heq, hcalls⟩ := hstarting.calls
    rw [heq]
    refine h.log.append fun event hmem before he => ?_
    have hcall := hcalls event hmem
    rw [he] at hcall
    cases hcall
  have hheld : s.phase ≠ .cancelled → Held s' ∨ Faulty s' := fun hphase =>
    (h.not_lost hphase).imp (·.still hstill) (·.still hstill)
  rcases hstarting.phase with heq | ⟨hphase, -⟩
  · refine ⟨fun {i b} hb hfail => ?_, ?_, fun hphase => ?_, fun hphase hidle => ?_,
      fun hphase => ?_, fun hphase => ?_, fun hphase => ?_, hlog⟩
    · obtain ⟨a, ha, hab⟩ := hstill.sinks hb
      have hsame := congrArg (fun failures => failures[i]?) hstarting.failures
      simp only [getElem?_map, ha, hb, Option.map_some, Option.some.injEq] at hsame
      rw [hab.queue]
      exact h.failed ha (hsame ▸ hfail)
    · by_cases hcancelled : s.phase = .cancelled
      · exact .inr (.inl (heq.trans hcancelled))
      · exact (hheld hcancelled).imp_right .inr
    · rcases h.stuck (heq.symm.trans hphase) with hfaulty | hnone
      · exact .inl (hfaulty.still hstill)
      · exact .inr (hstill.noQueue_iff.mpr hnone)
    · exact hstill.noQueue_iff.mpr
        (h.ended (heq.symm.trans hphase) (hstarting.deliveryActive.symm.trans hidle))
    · exact hstill.noQueue_iff.mpr (h.flushed (heq.symm.trans hphase))
    · exact hstill.noQueue_iff.mpr (h.cancelled (heq.symm.trans hphase))
    · exact hstill.complete_iff.mpr (h.finished (heq.symm.trans hphase))
  · refine noQueue_settled (hstill.noQueue_iff.mpr (hnew hphase))
      ((hheld fun hcancelled => ?_).imp_right .inr) (fun hfin => ?_) hlog
    · rw [hphase] at hcancelled
      cases hcancelled
    · rcases hstarting.phase with heq | ⟨-, heq | heq⟩
      · rw [heq, hphase] at hfin
        cases hfin
      · rw [heq] at hfin
        cases hfin
      · rw [heq] at hfin
        cases hfin

theorem Await.Settled.starting (h : await.Settled s) (hstarting : Starting s s') :
    await.Settled s' := by
  have hstill := hstarting.toStill
  have hkept : s.phase ≠ .new → s'.phase = s.phase := fun hne =>
    hstarting.phase.resolve_right fun hnew => hne hnew.1
  refine h.imp (fun caller _ _ failure _ hdelivering => ?_)
    fun _ hended => ⟨?_, hstill.complete_iff.mpr⟩
  · have hphase : s'.phase = s.phase := by
      apply hkept
      intro hnew
      cases failure with
      | none =>
        rcases hdelivering.clean rfl with ⟨hopen, -⟩ | hcancelled
        · rw [hnew] at hopen
          cases hopen
        · rw [hnew] at hcancelled
          cases hcancelled
      | some error =>
        have hfail := hdelivering.dirty nofun
        rw [hnew] at hfail
        cases hfail
    refine ⟨?_, ?_, fun hcaller hfailure => ?_⟩
    · rw [hphase, hstarting.deliveryActive]
      exact hdelivering.clean
    · rw [hphase]
      exact hdelivering.dirty
    · rw [hphase]
      exact (hdelivering.finish hcaller hfailure).imp_left (·.still hstill)
  · have hphase := hkept hended.new
    exact ⟨hstill.noQueue_iff.mpr hended.noQueue, hphase ▸ hended.new, hphase ▸ hended.started⟩

theorem Tidy.starting (h : Tidy w) (hflow : Flow w) {piece : Piece Data}
    (hbegins : Begins w.state piece) : Tidy ({ w with issued }.store task piece) := by
  apply tidy_store
  · exact h.settled.starting hflow.written.new hbegins.1
  · exact fun _ hold => (h.tasks hold).starting hbegins.1
  · exact fun hpend => settled_of_start (hbegins.2 _ hpend)

/-- A `finish` before the start finds no sink to finish. -/
theorem finish_of_new (hphase : s.phase = .new)
    (hunstarted : ∀ {i : ℕ} {b : SinkState Data}, s.sinks[i]? = some b → b.started = false)
    (delivery : ℕ) :
    ∃ result, finish delivery s = (.ready result, { s with phase := .failed }) := by
  have hnext : nextSink unfinished s 0 = none := by
    cases hfound : nextSink unfinished s 0 with
    | none => rfl
    | some index =>
      obtain ⟨-, ⟨sink, hsink, hunfinished⟩, -⟩ := nextSink_some hfound
      simp [unfinished, hunstarted hsink] at hunfinished
  have hstop : stopAdmission s = (.error (.invalidState .new "stop-admission"), s) := by
    unfold stopAdmission
    simp [hphase]
  have hdrain : drainRefused s = some (.error (.invalidState .new "drain")) := by
    unfold drainRefused
    simp [hphase]
  have hflush : flushRefused s = some (.error (.invalidState .new "flush")) := by
    unfold flushRefused
    simp [hphase]
  unfold finish
  rw [if_neg (by rw [hphase]; decide), hstop]
  simp only [drainForFinish, hdrain, flush, hflush, flushReturn, finishNext, hnext, collect]
  unfold finishEnd
  rw [if_neg (by rw [hphase]; decide)]
  exact ⟨_, rfl⟩

theorem drain_some {result : Except RouterError Unit}
    (h : drainRefused s = some result) (hidle : s.phase ≠ .cancelled → s.deliveryActive = false) :
    (result ≠ .ok () ∧ (s.phase = .new ∨ s.phase = .cancelled)) ∨
      (result = .ok () ∧ (s.phase = .failed ∨ s.phase = .flushed ∨ s.phase = .finished)) := by
  unfold drainRefused at h
  by_cases hcancelled : s.phase = .cancelled
  · rw [hcancelled] at h
    cases h
    exact .inl ⟨nofun, .inr hcancelled⟩
  · cases hphase : s.phase <;> simp [hphase, hidle hcancelled] at h ⊢ <;> subst h <;> simp

theorem Settled.emitFinished (h : Settled s) (hphase : s.phase = .finished) :
    Settled (s.emit .finished) := by
  have hstill : Still s (s.emit .finished) := still_emit s .finished rfl nofun
  refine ⟨h.failed, ?_, h.stuck, h.ended, h.flushed, h.cancelled,
    fun _ => hstill.complete_iff.mpr (h.finished hphase),
    h.log.concat fun _ => h.finished hphase⟩
  exact h.held.imp (·.still hstill) id

theorem Tidy.finish (h : Tidy w) (hflow : Flow w) (hbooks : Books w.state) (hcalled : Called w)
    (horderly : w.state.phase ≠ .finished → w.state.phase ≠ .cancelled →
      w.state.deliveryActive = false ∧ (w.state.phase = .new → w.state.startupActive = false)) :
    Tidy ({ w with issued := w.issued + 1 }.store w.issued (finish w.issued w.state)) := by
  by_cases hphase : w.state.phase = .new
  · obtain ⟨-, hnew⟩ := horderly (by rw [hphase]; nofun) (by rw [hphase]; nofun)
    obtain ⟨-, hunt⟩ := hcalled.startup.fresh hphase (hnew hphase)
    obtain ⟨result, heq⟩ := finish_of_new (s := w.state) hphase
      (fun hb => (hunt (Nat.zero_le _) hb).1) w.issued
    rw [heq]
    exact h.starting hflow ⟨⟨still_of_eq rfl rfl rfl rfl rfl, rfl, .inr ⟨hphase, .inr rfl⟩, rfl,
      no_calls rfl⟩, starts_ready result⟩
  unfold Router.finish
  by_cases hfin : w.state.phase = .finished
  · rw [if_pos hfin]
    have hclosing : Closing w.state (w.state.emit .finished) :=
      ends_closing _ _ (.refl w.state) (.inl rfl)
    apply tidy_store
    · exact h.settled.emitFinished hfin
    · exact fun _ hold => (h.tasks hold).closing (fun hwrites =>
        absurd hfin ((h.tasks hold).not_finished hwrites)) hclosing
    · exact nofun
  rw [if_neg hfin]
  have htidy := h.stop
  have hflow' := hflow.state (quiet_stop w.state)
  have hquiet := quiet_stop w.state
  have hshift := shifted_stop w.state
  have hidle : (stopAdmission w.state).2.phase ≠ .cancelled →
      (stopAdmission w.state).2.deliveryActive = false := by
    intro hne
    refine hquiet.deliveryActive.trans (horderly hfin fun hcancelled => hne ?_).1
    simp [stopAdmission, hcancelled]
  -- without an earlier failure nothing has been lost, unless the router has been cancelled
  have hheld : ∀ {result : Except RouterError Unit},
      collect (priorSinkFailures w.state) result = none →
      (stopAdmission w.state).2.phase ≠ .cancelled → Held (stopAdmission w.state).2 := by
    intro result hcollected hcancelled
    refine (htidy.settled.not_lost hcancelled).resolve_right ?_
    rintro ⟨i, b, hb, hfail⟩
    refine failures_none (collect_none hcollected).1 ⟨i, b, ?_, hfail⟩
    rw [← hshift.sinks]
    exact hb
  unfold drainForFinish
  simp only
  cases hrefused : drainRefused (stopAdmission w.state).2 with
  | none =>
    obtain ⟨hopen, -⟩ := drain_none hrefused
    have hne : (stopAdmission w.state).2.phase ≠ .cancelled := fun hcancelled => by
      rw [hcancelled] at hopen
      cases hopen
    refine htidy.beginDelivery hflow' (hbooks.still hquiet.toStill) hopen (hidle hne)
      shifted_drain rfl rfl (nofun)
      (fun _ => nofun) fun hcaller => ?_
    exact hheld (Caller.finish.inj hcaller) hne
  | some result =>
    have hcases := drain_some hrefused hidle
    have hended : Ended (stopAdmission w.state).2 := by
      have hnew' : (stopAdmission w.state).2.phase ≠ .new := fun h => hphase (hshift.phase h)
      rcases hcases with ⟨-, hnew' | hcancelled⟩ | ⟨-, hfail | hflushed | hdone⟩
      · exact absurd (hshift.phase hnew') hphase
      · exact ⟨htidy.settled.cancelled hcancelled, hnew', by rw [hcancelled]; exact nofun⟩
      · exact ⟨htidy.settled.ended hfail (hidle (by rw [hfail]; nofun)), hnew',
          by rw [hfail]; exact nofun⟩
      · exact ⟨htidy.settled.flushed hflushed, hnew', by rw [hflushed]; exact nofun⟩
      · rcases stop_cases w.state with ⟨-, heq, -⟩ | ⟨-, heq, -⟩
        · rw [heq] at hdone
          cases hdone
        · rw [heq] at hdone
          exact absurd hdone hfin
    have hclean : collect (collect (priorSinkFailures w.state) (stopAdmission w.state).1) result =
        none → Complete (stopAdmission w.state).2.log := by
      intro hcollected
      obtain ⟨hfailure, rfl⟩ := collect_none hcollected
      rcases hcases with ⟨hne, -⟩ | ⟨-, hphases⟩
      · exact absurd rfl hne
      · refine (hheld hfailure fun hcancelled => ?_).complete hended.noQueue
        rcases hphases with hphase | hphase | hphase <;> rw [hphase] at hcancelled <;>
          cases hcancelled
    refine tidy_close htidy.settled hended ?_ fun _ hold =>
      ⟨htidy.tasks hold, hflow'.idle_of_noQueue hended.noQueue hold⟩
    exact kept_flush kept_closed ends_closed (.refl htidy.settled)
      fun hcaller => hclean (FlushCaller.finish.inj hcaller)

theorem Tidy.resume (h : Tidy w) (hflow : Flow w) (hbooks : Books w.state)
    (hbal : Balanced w.state) (htask : w.tasks task = some await) (reply cancelReply : Reply) :
    Tidy (w.store task (resume task await reply cancelReply w.state)) := by
  have hothers : NoQueue w.state → ∀ {other : ℕ} {await : Await}, other ≠ task →
      w.tasks other = some await →
      await.Settled w.state ∧ (await.isWriting → w.state.deliveryActive = false) :=
    fun hnone _ _ _ hold => ⟨h.tasks hold, hflow.idle_of_noQueue hnone hold⟩
  cases await with
  | starting index => exact h.starting hflow (begins_started _ _ _ _)
  | rollingBack index primary failure => exact h.starting hflow (begins_rolled _ _ _ _ _)
  | writing caller sequence index failure =>
    exact h.sinkWrote hflow hbooks hbal htask reply
  | flushing caller index failure =>
    obtain ⟨hended, hcomplete⟩ := h.tasks htask
    refine tidy_close h.settled hended ?_ (hothers hended.noQueue)
    refine kept_sinkFlushed kept_closed ends_closed (.refl h.settled) ?_ _ _ _
    rintro rfl
    exact hcomplete rfl
  | finishing index failure =>
    obtain ⟨hended, hcomplete⟩ := h.tasks htask
    refine tidy_close h.settled hended ?_ (hothers hended.noQueue)
    refine kept_finished kept_closed ends_closed (.refl h.settled) ?_ _ _
    rintro rfl
    exact hcomplete rfl

/-! ## Admission and cancellation -/

theorem Held.admitted (h : Held s) {admission : Admission Data} (hadm : Admits s admission) :
    Held (admitted admission s) := by
  intro q selected hmem i hi
  rcases mem_append.mp hmem with hmem | hmem
  · rcases h q selected hmem i hi with ⟨d, hwrote⟩ | ⟨a, ha, hq⟩
    · exact .inl ⟨d, mem_append_left _ hwrote⟩
    · refine .inr ⟨_, by rw [Router.admitted, get?_enqueued, ha]; rfl, ?_⟩
      split_ifs
      · simp only [sequences, push, map_append]
        exact mem_append_left _ hq
      · exact hq
  · cases mem_singleton.mp hmem
    obtain ⟨sink, hsink, -⟩ := hadm.selected i hi
    refine .inr ⟨_, by rw [Router.admitted, get?_enqueued, hsink]; rfl, ?_⟩
    simp [hi, sequences, push]

theorem Tidy.admitted (h : Tidy w) {admission : Admission Data}
    (hadm : Admits w.state admission) : Tidy { w with state := admitted admission w.state } := by
  have hphase : (Router.admitted admission w.state).phase = .started := hadm.phase
  constructor
  · refine settled_of_open (by rw [hphase]; rfl) (fun {i b} hb hfail => ?_) ?_ ?_
    · obtain ⟨a, ha, rfl⟩ := get?_admitted hb
      by_cases hi : i ∈ admission.selected
      · obtain ⟨sink, hsink, hhealthy, -⟩ := hadm.selected i hi
        rw [ha] at hsink
        cases hsink
        rw [if_pos hi] at hfail
        simp only [healthy, Bool.and_eq_true, Option.isNone_iff_eq_none] at hhealthy
        exact absurd hhealthy.2 hfail
      · rw [if_neg hi] at hfail ⊢
        exact h.settled.failed ha hfail
    · have hnot : w.state.phase ≠ .cancelled := by
        rw [hadm.phase]
        decide
      rcases h.settled.not_lost hnot with hheld | ⟨i, a, ha, hfail⟩
      · exact .inl (hheld.admitted hadm)
      · refine .inr ⟨i, _, by rw [Router.admitted, get?_enqueued, ha]; rfl, ?_⟩
        split_ifs <;> exact hfail
    · exact h.settled.log.concat fun h => by cases h
  · intro task await htask
    refine (h.tasks htask).imp (fun caller _ _ failure _ hdelivering => ?_)
      fun _ hended => absurd hadm.phase hended.started
    refine ⟨hdelivering.clean, hdelivering.dirty, fun hcaller hfailure => ?_⟩
    exact (hdelivering.finish hcaller hfailure).imp_left (·.admitted hadm)

theorem le_foldl_max : ∀ (l : List ℕ) (a : ℕ), a ≤ l.foldl max a ∧ ∀ x ∈ l, x ≤ l.foldl max a
  | [], a => ⟨Nat.le_refl a, nofun⟩
  | first :: rest, a => by
    obtain ⟨hstart, hrest⟩ := le_foldl_max rest (max a first)
    rw [foldl_cons]
    refine ⟨by omega, fun x hx => ?_⟩
    rcases mem_cons.mp hx with rfl | hx
    · omega
    · exact hrest x hx

/-- A cancellation that no sink refuses reports what it has released, and nothing else. -/
theorem phase_cancel (hbal : Balanced s) (hqueue : ¬ NoQueue s)
    (hphase : s.phase ≠ .finished ∧ s.phase ≠ .cancelled)
    (hcancels : ∀ sink, cancels sink = .ok ()) :
    (cancelInner cancels s).2.phase = if s.phase = .failed then .failed else .cancelled := by
  obtain ⟨hrel, hdrops⟩ := hbal.released
  have hpend : 0 < (s.sinks.map (·.queue.length)).foldl max 0 := by
    by_contra hzero
    apply hqueue
    intro sink hsink
    have hle := (le_foldl_max (s.sinks.map (·.queue.length)) 0).2 _ (mem_map_of_mem hsink)
    exact length_eq_zero_iff.mp (by omega)
  have herror : ∃ items bytes, releaseError s = some (.cancelled items bytes) := by
    unfold releaseError
    simp only [hrel, Option.bind_some, hdrops]
    rw [if_pos (.inl hpend)]
    exact ⟨_, _, rfl⟩
  obtain ⟨items, bytes, herror⟩ := herror
  unfold cancelInner
  rw [if_neg (not_or.mpr hphase)]
  rw [foldl_fixed', herror]
  · rfl
  · intro index
    rw [hcancels]

/-- A log that only notes calls of sinks. -/
theorem Complete.releaseAll (h : Complete s.log) : Complete (releaseAll s).log := by
  intro q selected hmem i hi
  obtain ⟨d, hwrote⟩ := h q selected (mem_releaseAll hmem rfl) i hi
  exact ⟨d, mem_append_left _ hwrote⟩

/-- What is kept of a future when everything is released. -/
structure Released (s s' : RouterState Data) : Prop where
  noQueue : NoQueue s'
  ended : s'.phase.isOver
  cancelled : ¬ NoQueue s → s.phase ≠ .failed → s'.phase = .cancelled
  failed : s.phase = .failed → s'.phase = .failed
  complete : Complete s.log → Complete s'.log
  faulty : Faulty s → Faulty s'
  log : Stepwise FinishAllowed s.log → Stepwise FinishAllowed s'.log

theorem released_cancel (hbal : Balanced s)
    (hcancels : ¬ NoQueue s → ∀ sink, cancels sink = .ok ()) :
    (cancelInner cancels s).2 = s ∨ Released s (cancelInner cancels s).2 := by
  rcases cancel_cases cancels s with ⟨hsame, -⟩ | ⟨hphase, dropError, phase, hcases, heq⟩
  · exact .inl hsame
  right
  have hover : (cancelInner cancels s).2.phase.isOver := by
    rw [heq]
    rcases hcases with rfl | rfl
    · show RouterPhase.isOver (if s.phase = .failed then .failed else .cancelled)
      split_ifs <;> rfl
    · rfl
  refine ⟨?_, hover, fun hqueue hne => ?_, fun hfail => ?_, fun hcomplete => ?_,
    fun hfaulty => ?_, fun hlog => ?_⟩
  · rw [heq]
    exact noQueue_free
  · rw [phase_cancel hbal hqueue hphase (hcancels hqueue), if_neg hne]
  · rw [heq]
    rcases hcases with rfl | rfl
    · exact if_pos hfail
    · rfl
  · rw [heq]
    exact hcomplete.releaseAll
  · obtain ⟨i, a, ha, hfail⟩ := hfaulty
    refine ⟨i, { a with
      queue := []
      queuedBytes := 0
      cancelCalled := a.cancelCalled || a.started }, ?_, hfail⟩
    rw [heq]
    show (releaseAll s).sinks[i]? = _
    rw [get?_release, ha]
    rfl
  · rw [heq]
    refine hlog.append fun event hmem before he => ?_
    obtain ⟨_, -, rfl⟩ := mem_map.mp hmem
    cases he

theorem Tidy.released {tasks : ℕ → Option Await} (h : Tidy ⟨s, tasks, issued⟩)
    (hflow : Flow ⟨s, tasks, issued⟩) (hphase : s.phase ≠ .cancelled) (hrel : Released s s') :
    Tidy ⟨s', tasks, issued⟩ := by
  have hover := hrel.ended
  constructor
  · refine noQueue_settled hrel.noQueue ?_ (fun hfin => ?_) (hrel.log h.settled.log)
    · by_cases hqueue : NoQueue s
      · rcases h.settled.not_lost hphase with hheld | hfaulty
        · exact .inl (hrel.complete (hheld.complete hqueue)).held
        · exact .inr (.inr (hrel.faulty hfaulty))
      · by_cases hfail : s.phase = .failed
        · exact .inr (.inr (hrel.faulty ((h.settled.stuck hfail).resolve_right hqueue)))
        · exact .inr (.inl (hrel.cancelled hqueue hfail))
    · have hfin' : s'.phase = .finished := hfin
      rw [hfin'] at hover
      cases hover
  · intro task await htask
    refine (h.tasks htask).imp ?_ fun _ _ => ⟨?_, hrel.complete⟩
    · rintro caller sequence index failure rfl hdelivering
      have hcancelled : failure = none → s'.phase = .cancelled := by
        intro hfailure
        obtain ⟨hopen, hact⟩ := (hdelivering.clean hfailure).resolve_right hphase
        apply hrel.cancelled
        · intro hnone
          have hidle := hflow.idle_of_noQueue hnone htask rfl
          rw [show s.deliveryActive = false from hidle] at hact
          cases hact
        · intro hfail
          rw [hfail] at hopen
          cases hopen
      exact ⟨fun hfailure => .inr (hcancelled hfailure),
        fun hfailure => hrel.failed (hdelivering.dirty hfailure),
        fun _ hfailure => .inr (hcancelled hfailure)⟩
    · refine ⟨hrel.noQueue, fun hnew => ?_, fun hstarted => ?_⟩
      · rw [hnew] at hover
        cases hover
      · rw [hstarted] at hover
        cases hover

/-- A cancellation in which no sink refuses to release what is queued. -/
theorem Tidy.cancelInner {tasks : ℕ → Option Await} (s : RouterState Data)
    (h : Tidy ⟨s, tasks, issued⟩ ∧ Flow ⟨s, tasks, issued⟩ ∧ Balanced s ∧
      (¬ NoQueue s → ∀ sink, cancels sink = .ok ())) :
    Tidy ⟨(cancelInner cancels s).2, tasks, issued⟩ ∧
      Flow ⟨(Router.cancelInner cancels s).2, tasks, issued⟩ ∧
      Balanced (Router.cancelInner cancels s).2 ∧
      (¬ NoQueue (Router.cancelInner cancels s).2 → ∀ sink, cancels sink = .ok ()) := by
  obtain ⟨htidy, hflow, hbal, hcancels⟩ := h
  refine ⟨?_, Flow.cancelInner cancels s hflow, stable_balanced.cancelInner cancels hbal, ?_⟩
  · rcases cancel_cases cancels s with ⟨hsame, -⟩ | ⟨hphase, -⟩
    · rwa [hsame]
    · rcases released_cancel hbal hcancels with hsame | hrel
      · rwa [hsame]
      · exact htidy.released hflow hphase.2 hrel
  · rcases released_cancel hbal hcancels with hsame | hrel
    · rwa [hsame]
    · exact fun hqueue => absurd hrel.noQueue hqueue

/-! ## Runs -/

/-- What holds in every reachable state. -/
structure Lawful (w : World Data) : Prop where
  called : Called w
  books : Books w.state
  flow : Flow w

theorem Lawful.step (h : Lawful w) (ops : ResultOps Data) (name : String) (act : Act Data) :
    Lawful (w.step ops name act) :=
  ⟨h.called.step ops name act, h.books.step ops name act, h.flow.step h.books ops name act⟩

theorem Tidy.step (h : Tidy w) (hlaw : Lawful w) (hbal : Balanced w.state)
    (ops : ResultOps Data) (name : String) (act : Act Data) (horderly : Orderly w act) :
    Tidy (w.step ops name act) := by
  have hflow := hlaw.flow
  have hbooks := hlaw.books
  cases act with
  | admitEvent event metadata =>
    show Tidy { w with state := (admitEvent ops name event metadata w.state).2 }
    rcases admit_cases ops name event metadata w.state with ⟨-, n, heq⟩ | ⟨admission, hadm, heq⟩
    · rw [heq]
      exact ⟨{ h.settled with }, fun htask => (h.tasks htask).imp
        (fun _ _ _ _ _ hdelivering => { hdelivering with }) fun _ hended => ⟨{ hended with }, id⟩⟩
    · rw [heq]
      exact h.admitted hadm
  | stopAdmission => exact h.stop
  | cancel cancels =>
    exact (Tidy.cancelInner w.state ⟨h, hflow, hbal, horderly⟩).1
  | call operation =>
    show Tidy ({ w with issued := w.issued + 1 }.store w.issued
      (firstPoll w.issued operation w.state))
    cases operation with
    | start => exact h.starting hflow (begins_start w.state)
    | deliver =>
      show Tidy (store _ _ (deliver w.issued w.state))
      unfold deliver
      cases hrefused : deliverRefused w.state with
      | some result =>
        exact tidy_store h.settled (fun _ hold => h.tasks hold) nofun
      | none =>
        obtain ⟨hphase, hidle⟩ := deliver_none hrefused
        have hopen : w.state.phase.isOpen := by rw [hphase]; rfl
        exact h.beginDelivery hflow hbooks hopen hidle shifted_activate hopen rfl
          (fun _ => hphase) (fun hne => absurd rfl hne) nofun
    | drain =>
      show Tidy (store _ _ (drain w.issued w.state))
      unfold drain
      cases hrefused : drainRefused w.state with
      | some result =>
        exact tidy_store h.settled (fun _ hold => h.tasks hold) nofun
      | none =>
        obtain ⟨hopen, hidle⟩ := drain_none hrefused
        exact h.beginDelivery hflow hbooks hopen hidle shifted_drain rfl rfl
          (nofun) (fun _ => nofun) nofun
    | flush => exact h.flush hflow horderly
    | finish => exact h.finish hflow hbooks hlaw.called horderly
  | resume task reply cancelReply =>
    exact step_waiting h fun htask =>
      h.resume hflow hbooks hbal htask reply cancelReply
  | drop task cancels =>
    refine step_waiting h fun {await} _ => ?_
    have hcancelled := (Function.Iterate.rec
      (fun s => Tidy ⟨s, w.tasks, w.issued⟩ ∧ Flow ⟨s, w.tasks, w.issued⟩ ∧ Balanced s ∧
        (¬ NoQueue s → ∀ sink, cancels sink = .ok ()))
      ⟨h, hflow, hbal, horderly⟩ Tidy.cancelInner await.guards).1
    exact ⟨hcancelled.settled, fun hother => hcancelled.tasks (tasks_of_dropped hother)⟩

theorem lawful_initial : Lawful (initial specs : World Data) :=
  ⟨called_initial, books_initial, flow_initial⟩

theorem tidy_initial : Tidy (initial specs : World Data) := by
  refine ⟨noQueue_settled (flow_initial.written.new rfl) (.inl ?_) nofun stepwise_nil, nofun⟩
  exact nofun

/-- Every step of a run meets a condition on the state before it. -/
def Always (P : World Data → Act Data → Prop) (ops : ResultOps Data) (name : String) :
    World Data → List (Act Data) → Prop
  | _, [] => True
  | w, act :: acts => P w act ∧ Always P ops name (w.step ops name act) acts

theorem Lawful.run {name : String} :
    ∀ {acts : List (Act Data)} {w : World Data}, Lawful w → Lawful (w.run ops name acts)
  | [], _, h => h
  | act :: _, _, h => (h.step ops name act).run

theorem Balanced.run {name : String} :
    ∀ {acts : List (Act Data)} {w : World Data}, Balanced w.state →
      Always (Fits ops name) ops name w acts → Balanced (w.run ops name acts).state
  | [], _, h, _ => h
  | act :: _, _, h, hfits => (h.step ops name act hfits.1).run hfits.2

theorem Tidy.run {name : String} :
    ∀ {acts : List (Act Data)} {w : World Data}, Tidy w → Lawful w → Balanced w.state →
      Always (fun w act => Fits ops name w act ∧ Orderly w act) ops name w acts →
      Tidy (w.run ops name acts)
  | [], _, h, _, _, _ => h
  | act :: _, _, h, hlaw, hbal, hmeets =>
    (h.step hlaw hbal ops name act hmeets.1.2).run (hlaw.step ops name act)
      (hbal.step ops name act hmeets.1.1) hmeets.2

theorem Lawful.allowed (h : Lawful w) : Stepwise Allowed w.state.log := by
  intro before event after hsplit
  cases event with
  | accepted sequence selected => exact h.books.order before _ after hsplit sequence selected rfl
  | called sink operation => exact h.called.calls.once before _ after hsplit sink operation rfl
  | wrote delivery sink sequence =>
    exact h.flow.written.order before _ after hsplit delivery sink sequence rfl
  | failed sink => trivial
  | finished => trivial

/-- In every run the log is as allowed, sequences are consecutive, the queues are within their
limits, and a refused admission leaves the queues and the sequence as they are.  If the counters
never overflow, nothing gets lost in the accounts; if the run is orderly as well, a `finish` that
returns `Ok` has written every accepted event to all its sinks. -/
theorem router_law (ops : ResultOps Data) (name : String) (specs : List SinkSpec)
    (acts : List (Act Data)) :
    let w := (initial specs).run ops name acts
    Stepwise Allowed w.state.log ∧ w.state.nextSequence = (accepted w.state.log).length + 1 ∧
      (∀ sink ∈ w.state.sinks, sink.Bounded) ∧
      (∀ event metadata, (admitEvent ops name event metadata w.state).1.isAccepted = false →
        (admitEvent ops name event metadata w.state).2.sinks = w.state.sinks ∧
        (admitEvent ops name event metadata w.state).2.nextSequence = w.state.nextSequence) ∧
      (Always (Fits ops name) ops name (initial specs) acts → Conserved w.state) ∧
      (Always (fun w act => Fits ops name w act ∧ Orderly w act) ops name (initial specs) acts →
        ∀ before after, w.state.log = before ++ .finished :: after → Complete before) := by
  intro w
  have hlawful : Lawful w := lawful_initial.run
  refine ⟨hlawful.allowed, hlawful.books.sequence, fun sink hmem => ?_,
    fun event metadata hrefused => ?_, fun hfits => ?_, fun hmeets before after hsplit => ?_⟩
  · obtain ⟨i, hi⟩ := mem_iff_getElem?.mp hmem
    exact (hlawful.books.sinks hi).toBounded
  · rcases admit_cases ops name event metadata w.state with ⟨-, n, heq⟩ | ⟨admission, -, heq⟩
    · rw [heq]
      exact ⟨rfl, rfl⟩
    · rw [heq] at hrefused
      cases hrefused
  · exact (balanced_initial.run hfits).conserved
  · have htidy := tidy_initial.run lawful_initial balanced_initial hmeets
    exact htidy.settled.log before _ after hsplit rfl

def twoSinks : List SinkSpec := [⟨1, ⟨10, 65536⟩, .default⟩, ⟨2, ⟨10, 65536⟩, .default⟩]

/-- Events of 1159 bytes, with one node in their path. -/
def plainOps : ResultOps Unit := ⟨fun _ => .ok (), fun _ => 807, 344, id⟩

def admitPlain (node : ℕ) : Act Unit :=
  .admitEvent ⟨⟨some true, [], ⟨false, false, false, false, none, false⟩, ()⟩, ⟨"r", "t", "h"⟩, []⟩
    ⟨node, [node], 1, 0, .sampler node none, .main⟩

def answer (task : ℕ) : Act Unit := .resume task (.ok ()) (.ok ())

/-- An orderly run in which the accepted events are written before `finish` returns `Ok`. -/
theorem router_law_written :
    let acts := [.call .start, answer 0, answer 0, admitPlain 1, admitPlain 2, .call .finish,
      answer 1, answer 1, answer 1, answer 1, answer 1, answer 1, answer 1, answer 1]
    Complete [.called 0 .start, .called 1 .start, .accepted 1 [0, 1], .accepted 2 [0, 1],
        .wrote 1 0 1, .wrote 1 1 1, .wrote 1 0 2, .wrote 1 1 2, .called 0 .flush,
        .called 1 .flush, .called 0 .finish, .called 1 .finish] ∧
      ((initial twoSinks).run plainOps "r" acts).state.phase = .finished := by
  intro acts
  refine ⟨(router_law plainOps "r" twoSinks acts).2.2.2.2.2 ?_ _ [] (by decide +kernel),
    by decide +kernel⟩
  refine ⟨⟨trivial, trivial⟩, ⟨trivial, trivial⟩, ⟨trivial, trivial⟩,
    ⟨fun _ => by decide +kernel, trivial⟩, ⟨fun _ => by decide +kernel, trivial⟩,
    ⟨trivial, fun _ _ => ⟨by decide +kernel, fun _ => by decide +kernel⟩⟩,
    ⟨trivial, trivial⟩, ⟨trivial, trivial⟩, ⟨trivial, trivial⟩, ⟨trivial, trivial⟩,
    ⟨trivial, trivial⟩, ⟨trivial, trivial⟩, ⟨trivial, trivial⟩, ⟨trivial, trivial⟩, trivial⟩

/-- A `flush` before the drain leaves the accepted events in their queues, and `finish` returns
`Ok`. -/
theorem finish_ok_before_write :
    ∃ (ops : ResultOps Unit) (name : String) (specs : List SinkSpec) (acts : List (Act Unit)),
      ∃ before after, ((initial specs).run ops name acts).state.log =
        before ++ .finished :: after ∧ ¬ Complete before := by
  refine ⟨plainOps, "r", twoSinks,
    [.call .start, answer 0, answer 0, admitPlain 1, admitPlain 2, .stopAdmission, .call .flush,
      answer 1, answer 1, .call .finish, answer 2, answer 2],
    [.called 0 .start, .called 1 .start, .accepted 1 [0, 1], .accepted 2 [0, 1],
      .called 0 .flush, .called 1 .flush, .called 0 .finish, .called 1 .finish], [],
    by decide +kernel, ?_⟩
  intro hcomplete
  obtain ⟨delivery, hwrote⟩ := hcomplete 1 [0, 1] (by decide) 0 (by decide)
  simp at hwrote

end

end JmeterRs.Router
