import JmeterRs.Router.Law

/-!
# Flush, finish and deliveries

What `flush` and `finish` do between two calls of sinks: they mark and call sinks, note failures and
move the phase towards its end.  A delivery takes envelopes from the queues or releases them.  An
invariant is kept by these futures if it is kept by each of the changes they make.
-/

namespace JmeterRs.Router

section

variable {Data : Type}

/-- How `flush` and `finish` may change the phase. -/
def Closes (p p' : RouterPhase) : Prop :=
  p' = p ∨ p ≠ .cancelled ∧ (p' = .failed ∨ p ≠ .failed ∧ (p' = .flushed ∨ p' = .finished))

theorem Closes.trans {p p' p'' : RouterPhase} (h : Closes p p') (h' : Closes p' p'') :
    Closes p p'' := by
  rcases h with rfl | ⟨hp, rfl | ⟨hf, rfl | rfl⟩⟩
  · exact h'
  · rcases h' with rfl | ⟨-, rfl | ⟨hf, -⟩⟩
    · exact .inr ⟨hp, .inl rfl⟩
    · exact .inr ⟨hp, .inl rfl⟩
    · exact absurd rfl hf
  · rcases h' with rfl | ⟨-, rfl | ⟨-, h'⟩⟩
    · exact .inr ⟨hp, .inr ⟨hf, .inl rfl⟩⟩
    · exact .inr ⟨hp, .inl rfl⟩
    · exact .inr ⟨hp, .inr ⟨hf, h'⟩⟩
  · rcases h' with rfl | ⟨-, rfl | ⟨-, h'⟩⟩
    · exact .inr ⟨hp, .inr ⟨hf, .inr rfl⟩⟩
    · exact .inr ⟨hp, .inl rfl⟩
    · exact .inr ⟨hp, .inr ⟨hf, h'⟩⟩

/-- `finish` returns `Ok`. -/
def Finishes (I : RouterState Data → Prop) : Prop :=
  ∀ (s : RouterState Data) (phase : RouterPhase), I s → Closes s.phase phase →
    I ({ s with phase }.emit .finished)

/-- What has to be shown of an invariant. -/
structure Kept (I : RouterState Data → Prop) : Prop where
  close : ∀ {s : RouterState Data} {phase : RouterPhase}, I s → Closes s.phase phase →
    phase ≠ .finished → I { s with phase }
  callFinish : ∀ {s : RouterState Data} {index : ℕ} {sink : SinkState Data}, I s →
    s.sinks[index]? = some sink → sink.unfinished → I (callFinish index s)
  callFlush : ∀ {s : RouterState Data} {index : ℕ} {sink : SinkState Data}, I s →
    s.sinks[index]? = some sink → sink.unflushed → I (callFlush index s)
  failSink : ∀ {s : RouterState Data} (index : ℕ) (source : SinkError), I s →
    I (failSink index source s)

/-! ## Where they wait -/

/-- A future that is past its deliveries. -/
def Await.isClosing : Await → Bool
  | .flushing .. | .finishing .. => true
  | .starting _ | .rollingBack .. | .writing .. => false

/-- A `finish` whose drain has not seen an error, and that has not failed in its own loop. -/
def Await.isClean : Await → Bool
  | .flushing (.finish none) .. | .finishing _ none => true
  | _ => false

/-- What `flush` and `finish` wait for; they are clean only if `clean`. -/
def Poll.Closes (clean : Prop) : Poll → Prop
  | .ready _ => True
  | .pending await => await.isClosing ∧ (await.isClean → clean)

/-- An invariant holds after a piece of `flush` or `finish`, and this is what it waits for. -/
def Comes (I : RouterState Data → Prop) (clean : Prop) (piece : Piece Data) : Prop :=
  I piece.2 ∧ piece.1.Closes clean

variable {failure : Option RouterError} {caller : FlushCaller}

theorem collect_none {result : Except RouterError Unit} (h : collect failure result = none) :
    failure = none ∧ result = .ok () := by
  cases result with
  | ok value => exact ⟨h, rfl⟩
  | error error => cases h

variable {I : RouterState Data → Prop} {clean : Prop} {s : RouterState Data} (hinv : Kept I)

include hinv

theorem kept_flushEnd (failure : Option RouterError) (hs : I s) : I (flushEnd failure s).2 := by
  unfold flushEnd
  by_cases hcancelled : s.phase = .cancelled
  · rw [if_pos hcancelled]
    exact hs
  · rw [if_neg hcancelled]
    cases failure with
    | some error => exact hinv.close hs (.inr ⟨hcancelled, .inl rfl⟩) nofun
    | none =>
      by_cases hphase : s.phase = .finished ∨ s.phase = .failed
      · simp only [hphase, if_true]
        exact hs
      · simp only [hphase, if_false]
        exact hinv.close hs (.inr ⟨hcancelled, .inr ⟨fun h => hphase (.inr h), .inl rfl⟩⟩) nofun

variable (hfins : clean → Finishes I) (hs : I s)

include hfins hs

section

variable (hclean : failure = none → clean) (index : ℕ) (reply : Reply)

include hclean

theorem kept_finishEnd : Comes I clean (finishEnd failure s) := by
  unfold finishEnd
  by_cases hcancelled : s.phase = .cancelled
  · rw [if_pos hcancelled]
    exact ⟨hs, trivial⟩
  · rw [if_neg hcancelled]
    cases failure with
    | some error => exact ⟨hinv.close hs (.inr ⟨hcancelled, .inl rfl⟩) nofun, trivial⟩
    | none =>
      refine ⟨hfins (hclean rfl) s _ hs ?_, trivial⟩
      split_ifs with hfailed
      · exact .inl hfailed.symm
      · exact .inr ⟨hcancelled, .inr ⟨hfailed, .inr rfl⟩⟩

theorem kept_finish : Comes I clean (finishNext failure index s) := by
  unfold finishNext
  cases hnext : nextSink SinkState.unfinished s index with
  | none => exact kept_finishEnd hinv hfins hs hclean
  | some index =>
    obtain ⟨-, ⟨sink, hsink, hunfinished⟩, -⟩ := nextSink_some hnext
    refine ⟨hinv.callFinish hs hsink hunfinished, rfl, fun h => hclean ?_⟩
    cases failure with
    | none => rfl
    | some error => cases h

theorem kept_finished : Comes I clean (sinkFinished index failure reply s) := by
  cases reply with
  | ok value => exact kept_finish hinv hfins hs hclean (index + 1)
  | error source =>
    exact kept_finish hinv hfins (hinv.failSink index source hs) (fun h => by cases h)
      (index + 1)

end

variable (hclean : caller = .finish none → clean)

include hclean

theorem kept_flushReturn {result : Except RouterError Unit} :
    Comes I clean (flushReturn caller (result, s)) := by
  cases caller with
  | flush => exact ⟨hs, trivial⟩
  | finish failure =>
    refine kept_finish hinv hfins hs (fun h => hclean ?_) 0
    rw [(collect_none h).1]

theorem kept_flushNext (failure : Option RouterError) (index : ℕ) :
    Comes I clean (flushNext caller failure index s) := by
  unfold flushNext
  cases hnext : nextSink SinkState.unflushed s index with
  | none => exact kept_flushReturn hinv hfins (kept_flushEnd hinv failure hs) hclean
  | some index =>
    obtain ⟨-, ⟨sink, hsink, hunflushed⟩, -⟩ := nextSink_some hnext
    refine ⟨hinv.callFlush hs hsink hunflushed, rfl, fun h => hclean ?_⟩
    match caller with
    | .finish none => rfl
    | .finish (some _) => cases h
    | .flush => cases h

theorem kept_sinkFlushed (index : ℕ) (failure : Option RouterError) (reply : Reply) :
    Comes I clean (sinkFlushed caller index failure reply s) := by
  cases reply with
  | ok value => exact kept_flushNext hinv hfins hs hclean failure (index + 1)
  | error source =>
    exact kept_flushNext hinv hfins (hinv.failSink index source hs) hclean _ (index + 1)

theorem kept_flush : Comes I clean (flush caller s) := by
  unfold flush
  cases flushRefused s with
  | some result => exact kept_flushReturn hinv hfins hs hclean
  | none => exact kept_flushNext hinv hfins hs hclean none 0

end

section

variable {Data : Type} {s s' s'' : RouterState Data} {failure : Option RouterError}

/-- What `flush` and `finish` do to a state. -/
structure Closing (s s' : RouterState Data) : Prop extends Still s s' where
  startupActive : s'.startupActive = s.startupActive
  deliveryActive : s'.deliveryActive = s.deliveryActive
  phase : Closes s.phase s'.phase

theorem Closing.refl (s : RouterState Data) : Closing s s := ⟨.refl s, rfl, rfl, .inl rfl⟩

/-- One more mark or note. -/
theorem Closing.mark (h : Closing s s') (hstill : Still s' s'')
    (hstartup : s''.startupActive = s'.startupActive)
    (hdelivery : s''.deliveryActive = s'.deliveryActive) (hphase : s''.phase = s'.phase) :
    Closing s s'' :=
  ⟨h.toStill.trans hstill, hstartup.trans h.startupActive, hdelivery.trans h.deliveryActive,
    hphase ▸ h.phase⟩

theorem Closing.close (h : Closing s s') {phase : RouterPhase} (hcloses : Closes s'.phase phase) :
    Closing s { s' with phase } :=
  ⟨h.toStill.trans (still_of_eq rfl rfl rfl rfl rfl), h.startupActive, h.deliveryActive,
    h.phase.trans hcloses⟩

theorem kept_closing : Kept (Closing s) where
  close h hcloses _ := h.close hcloses
  callFinish h _ _ := h.mark (still_finish _ _) rfl rfl rfl
  callFlush h _ _ := h.mark (still_flush _ _) rfl rfl rfl
  failSink index source h := h.mark (still_failSink _ index source) rfl rfl rfl

theorem ends_closing : Finishes (Closing s) := by
  intro t phase h hcloses
  exact (h.close hcloses).mark (still_emit _ .finished rfl nofun) rfl rfl rfl

theorem closing_flush (caller : FlushCaller) (s : RouterState Data) :
    Comes (Closing s) True (flush caller s) :=
  kept_flush kept_closing (fun _ => ends_closing) (.refl s) fun _ => trivial

theorem closing_flushed (caller : FlushCaller) (index : ℕ) (reply : Reply) :
    Comes (Closing s) True (sinkFlushed caller index failure reply s) :=
  kept_sinkFlushed kept_closing (fun _ => ends_closing) (.refl s) (fun _ => trivial) index
    failure reply

theorem closing_finished (index : ℕ) (reply : Reply) :
    Comes (Closing s) True (sinkFinished index failure reply s) :=
  kept_finished kept_closing (fun _ => ends_closing) (.refl s) (fun _ => trivial) index reply

/-! ## Deliveries -/

/-- Only the phase and the flag of the active delivery may differ. -/
structure Shifted (s s' : RouterState Data) : Prop where
  sinks : s'.sinks = s.sinks
  nextSequence : s'.nextSequence = s.nextSequence
  deliveredItems : s'.deliveredItems = s.deliveredItems
  terminalDrops : s'.terminalDrops = s.terminalDrops
  log : s'.log = s.log
  startupActive : s'.startupActive = s.startupActive
  phase : s'.phase = .new → s.phase = .new

theorem Shifted.still (h : Shifted s s') : Still s s' :=
  still_of_eq h.sinks h.nextSequence h.deliveredItems h.terminalDrops h.log

/-- A future of `start`. -/
def Await.isStart : Await → Bool
  | .starting _ | .rollingBack .. => true
  | .writing .. | .flushing .. | .finishing .. => false

/-- A poll that does not wait for the start of a sink. -/
def Poll.NoStart (poll : Poll) : Prop := ∀ await, poll = .pending await → await.isStart = false

theorem noStart_ready {result : Except RouterError Unit} : (Poll.ready result).NoStart :=
  nofun

theorem Poll.Closes.noStart {poll : Poll} {clean : Prop} (h : poll.Closes clean) :
    poll.NoStart := by
  rintro await rfl
  have hclosing : await.isClosing = true := h.1
  cases await <;> first | rfl | cases hclosing

/-- What has to be shown of an invariant that deliveries keep too. -/
structure Carried (I : RouterState Data → Prop) : Prop extends Kept I where
  finished : Finishes I
  shift : ∀ {s s' : RouterState Data}, I s → Shifted s s' → I s'
  wrote : ∀ {s : RouterState Data} (delivery index sequence : ℕ), I s →
    I (s.emit (.wrote delivery index sequence))
  failWrite : ∀ {s : RouterState Data} (index : ℕ) (source : SinkError), I s →
    I (failWrite index source s)
  pop : ∀ {s : RouterState Data} {index : ℕ} {sink : SinkState Data} {item : QueuedEnvelope Data},
    I s → s.sinks[index]? = some sink → sink.queue.head? = some item →
    (checkedAdd usizeMax s.deliveredItems 1).elim
      (I { popFront index item s with phase := .failed })
      fun deliveredItems => I { popFront index item s with deliveredItems }

theorem shifted_phase {deliveryActive : Bool} {phase : RouterPhase}
    (h : phase = .new → s.phase = .new) : Shifted s { s with deliveryActive, phase } :=
  ⟨rfl, rfl, rfl, rfl, rfl, rfl, h⟩

theorem shifted_drained (failure : Option RouterError) (s : RouterState Data) :
    Shifted s (drainEnd failure s) := by
  apply shifted_phase
  split_ifs
  · exact nofun
  · exact id

theorem shifted_end : Shifted s (deliverEnd failure s) := by
  apply shifted_phase
  split_ifs
  · exact nofun
  · exact id

theorem shifted_drain : Shifted s (beginDrain s) :=
  shifted_phase nofun

theorem shifted_activate : Shifted s { s with deliveryActive := true } :=
  shifted_phase id

theorem shifted_stop (s : RouterState Data) : Shifted s (stopAdmission s).2 := by
  unfold stopAdmission
  cases hphase : s.phase <;> refine ⟨rfl, rfl, rfl, rfl, rfl, rfl, fun h => ?_⟩ <;>
    first | exact h | cases h

/-- An invariant holds after a piece that does not wait for the start of a sink. -/
def Carries (I : RouterState Data → Prop) (piece : Piece Data) : Prop := I piece.2 ∧ piece.1.NoStart

variable {I : RouterState Data → Prop} (hinv : Carried I)

include hinv

theorem carried_flush (caller : FlushCaller) (hs : I s) : Carries I (flush caller s) :=
  (kept_flush hinv.toKept (fun _ : True => hinv.finished) hs fun _ => trivial).imp_right (·.noStart)

theorem carried_flushed (caller : FlushCaller) (index : ℕ) (failure : Option RouterError)
    (reply : Reply) (hs : I s) : Carries I (sinkFlushed caller index failure reply s) :=
  (kept_sinkFlushed hinv.toKept (fun _ : True => hinv.finished) hs (fun _ => trivial) index failure
    reply).imp_right (·.noStart)

theorem carried_finished (index : ℕ) (failure : Option RouterError) (reply : Reply)
    (hs : I s) : Carries I (sinkFinished index failure reply s) :=
  (kept_finished hinv.toKept (fun _ : True => hinv.finished) hs (fun _ => trivial) index
    reply).imp_right (·.noStart)

section

variable (delivery : ℕ)

theorem carried_queued (caller : Caller) (failure : Option RouterError)
    (target : Option (ℕ × ℕ)) (hs : I s) :
    Carries I (deliverQueued delivery caller failure target s) := by
  cases target with
  | some target =>
    refine ⟨hinv.wrote delivery target.2 target.1 hs, ?_⟩
    rintro await ⟨⟩
    rfl
  | none =>
    cases caller with
    | deliver => exact ⟨hinv.shift hs shifted_end, noStart_ready⟩
    | drain => exact ⟨hinv.shift hs (shifted_drained failure s), noStart_ready⟩
    | finish earlier => exact carried_flush hinv _ (hinv.shift hs (shifted_drained failure s))

theorem carried_wrote (caller : Caller) (sequence index : ℕ)
    (failure : Option RouterError) (reply : Reply) (hs : I s) :
    Carries I (sinkWrote delivery caller sequence index failure reply s) := by
  unfold sinkWrote
  cases reply with
  | error source => exact carried_queued hinv _ _ _ _ (hinv.failWrite index source hs)
  | ok value =>
    cases hitem : (s.sinks[index]?).bind (·.queue.head?) with
    | none => exact carried_queued hinv _ _ _ _ hs
    | some item =>
      obtain ⟨sink, hsink, hhead⟩ := Option.bind_eq_some_iff.mp hitem
      have hpop := hinv.pop hs hsink hhead
      simp only
      cases hcount : checkedAdd usizeMax s.deliveredItems 1 <;> rw [hcount] at hpop <;>
        exact carried_queued hinv _ _ _ _ hpop

theorem carried_deliver (hs : I s) : Carries I (deliver delivery s) := by
  unfold deliver
  cases deliverRefused s with
  | some result => exact ⟨hs, noStart_ready⟩
  | none => exact carried_queued hinv _ _ _ _ (hinv.shift hs shifted_activate)

theorem carried_drain (hs : I s) : Carries I (drain delivery s) := by
  unfold drain
  cases drainRefused s with
  | some result => exact ⟨hs, noStart_ready⟩
  | none => exact carried_queued hinv _ _ _ _ (hinv.shift hs shifted_drain)

theorem carried_finish (hs : I s) : Carries I (finish delivery s) := by
  unfold finish
  by_cases hphase : s.phase = .finished
  · rw [if_pos hphase]
    exact ⟨hinv.finished s s.phase hs (.inl rfl), noStart_ready⟩
  · rw [if_neg hphase]
    have hstopped : I (stopAdmission s).2 := hinv.shift hs (shifted_stop s)
    unfold drainForFinish
    simp only
    cases drainRefused (stopAdmission s).2 with
    | some result => exact carried_flush hinv _ hstopped
    | none =>
      exact carried_queued hinv _ _ _ _ (hinv.shift hstopped shifted_drain)

end

end

end JmeterRs.Router
