import JmeterRs.Router.Calls

/-!
# The queues

Sequences are consecutive, a queue is in increasing order of sequence and within its limits, and a
sink that is noted as failed is marked as failed.
-/

namespace JmeterRs.Router

open List SinkState

section

variable {Data : Type}

structure SinkState.Sound (next : ℕ) (sink : SinkState Data) : Prop extends sink.Bounded where
  sorted : sink.sequences.Pairwise (· < ·)
  below : ∀ q ∈ sink.sequences, q < next
  disabled : sink.spec.route.enabled = false → sink.queue = []

/-- Accepted events are numbered from one on. -/
def AcceptAllowed (before : List RouterEvent) (event : RouterEvent) : Prop :=
  ∀ sequence selected, event = .accepted sequence selected → sequence = (accepted before).length + 1

structure Books (s : RouterState Data) : Prop where
  order : Stepwise AcceptAllowed s.log
  sequence : s.nextSequence = (accepted s.log).length + 1
  sinks : ∀ {i : ℕ} {b : SinkState Data}, s.sinks[i]? = some b → b.Sound s.nextSequence
  failed : ∀ {i : ℕ} {b : SinkState Data}, .failed i ∈ s.log → s.sinks[i]? = some b →
    b.failed ≠ none

variable {s s' : RouterState Data} {next : ℕ} {a b : SinkState Data} {index : ℕ}

/-! ## One queue -/

theorem SinkState.Sound.same (h : a.Sound next) (hab : a.Same b) : b.Sound next where
  bytes := by rw [hab.queuedBytes, hab.queue, h.bytes]
  maxBytes := by rw [hab.queuedBytes, hab.spec]; exact h.maxBytes
  maxItems := by rw [hab.queue, hab.spec]; exact h.maxItems
  sorted := by
    unfold SinkState.sequences
    rw [hab.queue]
    exact h.sorted
  below := by
    unfold SinkState.sequences
    rw [hab.queue]
    exact h.below
  disabled := by
    rw [hab.queue, hab.spec]
    exact h.disabled

/-- An empty queue of a sink with any limits. -/
theorem SinkState.sound_of_empty (hqueue : b.queue = []) (hbytes : b.queuedBytes = 0) :
    b.Sound next where
  bytes := by rw [hqueue, hbytes]; rfl
  maxBytes := by omega
  maxItems := by simp [hqueue]
  sorted := by simp [SinkState.sequences, hqueue]
  below := by simp [SinkState.sequences, hqueue]
  disabled _ := hqueue

theorem SinkState.Sound.tail (h : a.Sound next) {item : QueuedEnvelope Data}
    (hhead : a.queue.head? = some item) :
    SinkState.Sound next { a with
      queue := a.queue.tail
      queuedBytes := a.queuedBytes - item.bytes } := by
  obtain ⟨rest, hqueue⟩ := head?_eq_some_iff.mp hhead
  have hbytes := h.bytes
  have hmaxBytes := h.maxBytes
  have hmaxItems := h.maxItems
  have hsorted := h.sorted
  have hbelow := h.below
  simp only [SinkState.sequences, hqueue, map_cons, sum_cons, length_cons,
    pairwise_cons, mem_cons, forall_eq_or_imp] at hbytes hmaxItems hsorted hbelow
  constructor
  · constructor
    · show a.queuedBytes - item.bytes = (a.queue.tail.map (·.bytes)).sum
      rw [hqueue, hbytes, tail_cons]
      omega
    · show a.queuedBytes - item.bytes ≤ a.spec.limits.maxBytes
      omega
    · show a.queue.tail.length ≤ a.spec.limits.maxItems
      rw [hqueue, tail_cons]
      omega
  · simpa [SinkState.sequences, hqueue] using hsorted.2
  · simpa [SinkState.sequences, hqueue] using hbelow.2
  · intro hdisabled
    show a.queue.tail = []
    rw [h.disabled hdisabled]
    rfl

theorem SinkState.Sound.succ (h : a.Sound next) : a.Sound (next + 1) :=
  ⟨h.toBounded, h.sorted, fun q hq => Nat.lt_succ_of_lt (h.below q hq), h.disabled⟩

theorem SinkState.Sound.push (h : a.Sound next) {envelope : ResultEnvelope Data}
    (hroom : a.HasRoom envelope.byteSize) (henabled : a.spec.route.enabled)
    (hseq : envelope.sequence = next) : (a.push envelope).Sound (next + 1) where
  bytes := by
    show a.queuedBytes + envelope.byteSize = _
    simp [SinkState.push, h.bytes]
  maxBytes := hroom.maxBytes
  maxItems := by
    have hitems := hroom.maxItems
    simp only [SinkState.push, length_append, length_cons, length_nil]
    omega
  sorted := by
    simp only [SinkState.sequences, SinkState.push, map_append, map_cons, map_nil]
    rw [pairwise_append]
    refine ⟨h.sorted, pairwise_singleton .., fun q hq q' hq' => ?_⟩
    rw [mem_singleton.mp hq', hseq]
    exact h.below q hq
  below q hq := by
    simp only [SinkState.sequences, SinkState.push, map_append, map_cons, map_nil,
      mem_append, mem_singleton] at hq
    rcases hq with hq | rfl
    · exact Nat.lt_succ_of_lt (h.below q hq)
    · omega
  disabled hdisabled := by
    have : a.spec.route.enabled = false := hdisabled
    rw [henabled] at this
    cases this

/-! ## All queues -/

section

variable (h : Books s)

include h

theorem Books.still (hstill : Still s s') : Books s' where
  order := by
    obtain ⟨notes, hlog, hnotes⟩ := hstill.log
    rw [hlog]
    refine h.order.append fun event hmem before q selected he => ?_
    have hnote := hnotes event hmem
    rw [he] at hnote
    cases hnote
  sequence := by rw [hstill.nextSequence, hstill.accepted_eq, h.sequence]
  sinks hb := by
    obtain ⟨a, ha, hab⟩ := hstill.sinks hb
    rw [hstill.nextSequence]
    exact (h.sinks ha).same hab
  failed hmem hb := by
    rcases hstill.failed hmem hb with hfail | hmem
    · exact hfail
    · obtain ⟨a, ha, hab⟩ := hstill.sinks hb
      exact fun hnone => h.failed hmem ha (hab.failed hnone)

/-- The queue of one sink has changed. -/
theorem Books.queue {index : ℕ} {f : SinkState Data → SinkState Data}
    (hsinks : s'.sinks = (s.modifySink index f).sinks)
    (hf : ∀ a, s.sinks[index]? = some a → a.Sound s.nextSequence → (f a).Sound s.nextSequence)
    (hfail : ∀ a : SinkState Data, (f a).failed = a.failed)
    (hseq : s'.nextSequence = s.nextSequence) (hlog : s'.log = s.log) : Books s' where
  order := hlog ▸ h.order
  sequence := by rw [hseq, hlog, h.sequence]
  sinks {i b} hb := by
    rw [hsinks] at hb
    rw [hseq]
    obtain ⟨a, ha, ⟨rfl, rfl⟩ | ⟨-, rfl⟩⟩ := of_modify hb
    · exact hf a ha (h.sinks ha)
    · exact h.sinks ha
  failed {i b} hmem hb := by
    rw [hsinks] at hb
    rw [hlog] at hmem
    obtain ⟨a, ha, ⟨rfl, rfl⟩ | ⟨-, rfl⟩⟩ := of_modify hb
    · rw [hfail]
      exact h.failed hmem ha
    · exact h.failed hmem ha

theorem Books.wrote (delivery index sequence : ℕ) :
    Books (s.emit (.wrote delivery index sequence)) := by
  refine ⟨h.order.concat nofun, ?_, h.sinks, fun hmem hb => ?_⟩
  · show s.nextSequence = _
    rw [h.sequence]
    simp [RouterState.emit, accepted]
  · exact h.failed (mem_of_concat hmem (by simp)) hb

theorem Books.failWrite (index : ℕ) (source : SinkError) : Books (failWrite index source s) := by
  refine Books.still ?_ (still_failSink _ index source)
  refine h.queue (f := fun sink => { sink with queue := [], queuedBytes := 0 }) rfl ?_ ?_ rfl rfl
  · exact fun a _ _ => sound_of_empty rfl rfl
  · exact fun _ => rfl

theorem Books.pop {index : ℕ} {sink : SinkState Data} {item : QueuedEnvelope Data}
    (hsink : s.sinks[index]? = some sink) (hhead : sink.queue.head? = some item)
    (deliveredItems : ℕ) (phase : RouterPhase) :
    Books { popFront index item s with deliveredItems, phase } := by
  refine h.queue (f := fun sink =>
    { sink with
      queue := sink.queue.tail
      queuedBytes := sink.queuedBytes - item.bytes }) rfl ?_ ?_ rfl rfl
  · intro a ha hsound
    rw [hsink] at ha
    cases ha
    exact hsound.tail hhead
  · exact fun _ => rfl

end

theorem accepted_admitted (admission : Admission Data) : accepted (admitted admission s).log =
      accepted s.log ++ [(admission.envelope.sequence, admission.selected)] := by
  simp [admitted, accepted]

theorem Books.admitted (h : Books s) {admission : Admission Data} (hadm : Admits s admission) :
    Books (admitted admission s) where
  order := by
    refine h.order.concat fun q selected he => ?_
    cases he
    rw [hadm.sequence, h.sequence]
  sequence := by
    rw [accepted_admitted]
    show admission.nextSequence = _
    rw [hadm.nextSequence, h.sequence]
    simp
  sinks {i b} hb := by
    show b.Sound admission.nextSequence
    rw [hadm.nextSequence]
    rw [Router.admitted, get?_enqueued] at hb
    obtain ⟨a, ha, rfl⟩ := Option.map_eq_some_iff.mp hb
    by_cases hi : i ∈ admission.selected
    · obtain ⟨sink, hsink, hhealthy, hroom⟩ := hadm.selected i hi
      rw [ha] at hsink
      cases hsink
      rw [if_pos hi]
      simp only [healthy, Bool.and_eq_true] at hhealthy
      exact (h.sinks ha).push hroom hhealthy.1 hadm.sequence
    · rw [if_neg hi]
      exact (h.sinks ha).succ
  failed {i b} hmem hb := by
    rw [Router.admitted, get?_enqueued] at hb
    obtain ⟨a, ha, rfl⟩ := Option.map_eq_some_iff.mp hb
    have hfail := h.failed (mem_of_concat hmem (by simp)) ha
    split_ifs
    · exact hfail
    · exact hfail

theorem accepted_release : accepted (releaseAll s).log = accepted s.log := by
  have hnone : accepted ((cancelTargets s).map (.called · .cancel)) = [] := by
    apply filterMap_eq_nil_iff.mpr
    intro event hmem
    obtain ⟨_, -, rfl⟩ := mem_map.mp hmem
    rfl
  show accepted (s.log ++ _) = _
  rw [accepted, filterMap_append]
  exact (congrArg _ hnone).trans (append_nil _)

theorem mem_releaseAll {event : RouterEvent} (h : event ∈ (releaseAll s).log)
    (hcall : event.isCall = false) : event ∈ s.log := by
  rcases mem_append.mp h with h | h
  · exact h
  · obtain ⟨_, -, rfl⟩ := mem_map.mp h
    cases hcall

theorem Books.releaseAll (h : Books s) : Books (releaseAll s) := by
  refine ⟨?_, ?_, fun hb => ?_, fun hmem hb => ?_⟩
  · refine h.order.append fun event hmem before q selected he => ?_
    obtain ⟨_, -, rfl⟩ := mem_map.mp hmem
    cases he
  · rw [accepted_release]
    exact h.sequence
  · rw [get?_release] at hb
    obtain ⟨a, ha, rfl⟩ := Option.map_eq_some_iff.mp hb
    exact sound_of_empty rfl rfl
  · have hbefore := mem_releaseAll hmem rfl
    rw [get?_release] at hb
    obtain ⟨a, ha, rfl⟩ := Option.map_eq_some_iff.mp hb
    have hfail : a.failed ≠ none := h.failed hbefore ha
    exact hfail

/-! ## The futures of `start` -/

/-- What the futures of `start` do to a state. -/
structure Starting (s s' : RouterState Data) : Prop extends Still s s' where
  deliveryActive : s'.deliveryActive = s.deliveryActive
  phase : s'.phase = s.phase ∨ s.phase = .new ∧ (s'.phase = .started ∨ s'.phase = .failed)
  failures : s'.sinks.map (·.failed) = s.sinks.map (·.failed)
  calls : ∃ notes, s'.log = s.log ++ notes ∧ ∀ event ∈ notes, event.isCall

theorem failures_modify {f : SinkState Data → SinkState Data}
    (hf : ∀ a : SinkState Data, (f a).failed = a.failed) :
    (s.modifySink index f).sinks.map (·.failed) = s.sinks.map (·.failed) := by
  apply ext_getElem?
  intro i
  rw [getElem?_map, getElem?_map, get?_modifySink]
  split_ifs
  · cases s.sinks[i]? with
    | none => rfl
    | some a => exact congrArg some (hf a)
  · rfl

theorem no_calls (hlog : s'.log = s.log) :
    ∃ notes, s'.log = s.log ++ notes ∧ ∀ event ∈ notes, event.isCall :=
  ⟨[], by rw [hlog, append_nil], nofun⟩

theorem one_call {operation : SinkOperation} (hlog : s'.log = s.log ++ [.called index operation]) :
    ∃ notes, s'.log = s.log ++ notes ∧ ∀ event ∈ notes, event.isCall := by
  refine ⟨_, hlog, fun event hmem => ?_⟩
  rw [mem_singleton.mp hmem]
  rfl

/-- A poll that waits for the start of a sink, or for a rollback. -/
def Poll.Starts (poll : Poll) : Prop := ∀ await, poll = .pending await → await.isStart

theorem starts_ready (result : Except RouterError Unit) : (Poll.ready result).Starts :=
  nofun

/-- What a piece of a future of `start` does, and what it waits for. -/
def Begins (s : RouterState Data) (piece : Piece Data) : Prop := Starting s piece.2 ∧ piece.1.Starts

theorem starting_active (startupActive : Bool) : Starting s { s with startupActive } :=
  ⟨still_of_eq rfl rfl rfl rfl rfl, rfl, .inl rfl, rfl, no_calls rfl⟩

theorem begins_startEnd : Begins s (startEnd s) := by
  unfold startEnd
  by_cases hphase : s.phase = .new
  · rw [if_neg (not_not.mpr hphase)]
    exact ⟨{ starting_active false with phase := .inr ⟨hphase, .inl rfl⟩ }, starts_ready _⟩
  · rw [if_pos hphase]
    exact ⟨starting_active false, starts_ready _⟩

theorem begins_startNext : Begins s (startNext index s) := by
  unfold startNext
  split_ifs
  · exact ⟨starting_active false, starts_ready _⟩
  · cases nextSink (·.spec.route.enabled) s index with
    | none => exact begins_startEnd
    | some next =>
      refine ⟨⟨still_emit s _ rfl nofun, rfl, .inl rfl, rfl, one_call rfl⟩, ?_⟩
      rintro await ⟨⟩
      rfl
  · exact begins_startEnd

/-- Before the phase changes, only marks and flags do. -/
theorem Begins.after {t : RouterState Data} {piece : Piece Data} (h : Begins t piece)
    (hstill : Still s t) (hdelivery : t.deliveryActive = s.deliveryActive)
    (hphase : t.phase = s.phase) (hfailures : t.sinks.map (·.failed) = s.sinks.map (·.failed))
    (hlog : t.log = s.log) : Begins s piece :=
  ⟨⟨hstill.trans h.1.toStill, h.1.deliveryActive.trans hdelivery, hphase ▸ h.1.phase,
    h.1.failures.trans hfailures, hlog ▸ h.1.calls⟩, h.2⟩

theorem begins_start (s : RouterState Data) : Begins s (start s) := by
  unfold start
  split_ifs
  · exact ⟨starting_active s.startupActive, starts_ready _⟩
  · exact begins_startNext.after (still_of_eq rfl rfl rfl rfl rfl) rfl rfl rfl rfl

theorem begins_next {primary : RouterError} {failure : Option RouterError} :
    Begins s (rollbackNext primary failure index s) := by
  unfold rollbackNext
  cases nextSink unfinished s index with
  | some index =>
    refine ⟨⟨still_finish s index, rfl, .inl rfl, failures_modify fun _ => rfl,
      one_call rfl⟩, ?_⟩
    rintro await ⟨⟩
    rfl
  | none =>
    refine ⟨{ starting_active false with phase := ?_ }, starts_ready _⟩
    by_cases hphase : s.phase = .new
    · rw [if_pos hphase]
      exact .inr ⟨hphase, .inr rfl⟩
    · rw [if_neg hphase]
      exact .inl rfl

theorem begins_rolled (index : ℕ) (primary : RouterError) (failure : Option RouterError)
    (reply : Reply) (s : RouterState Data) :
    Begins s (rolledBack index primary failure reply s) := by
  cases reply <;> exact begins_next

theorem begins_started (index : ℕ) (reply cancelReply : Reply) (s : RouterState Data) :
    Begins s (sinkStarted index reply cancelReply s) := by
  unfold sinkStarted
  cases reply with
  | error source => exact begins_next
  | ok value =>
    simp only
    split_ifs
    · refine ⟨⟨(starting_active false).toStill.trans ?_, rfl, .inl rfl,
        failures_modify fun _ => rfl, one_call rfl⟩, starts_ready _⟩
      apply still_mark
      · exact fun _ => ⟨rfl, rfl, rfl, id⟩
      · rfl
      · exact nofun
    · exact begins_startNext.after (still_modify s index fun _ => ⟨rfl, rfl, rfl, id⟩) rfl rfl
        (failures_modify fun _ => rfl) rfl

/-! ## Runs -/

theorem still_return (caller : Caller) (failure : Option RouterError)
    (s : RouterState Data) : Still s (deliveryReturn caller failure s).2 := by
  cases caller with
  | deliver => exact shifted_end.still
  | drain => exact (shifted_drained failure s).still
  | finish earlier => exact (shifted_drained failure s).still.trans (closing_flush _ _).1.toStill

/-- What has to be shown of an invariant of the queues. -/
structure Stable (I : RouterState Data → Prop) : Prop where
  still : ∀ {s s' : RouterState Data}, I s → Still s s' → I s'
  wrote : ∀ {s : RouterState Data} (delivery index sequence : ℕ), I s →
    I (s.emit (.wrote delivery index sequence))
  failWrite : ∀ {s : RouterState Data} (index : ℕ) (source : SinkError), I s →
    I (failWrite index source s)
  pop : ∀ {s : RouterState Data} {index : ℕ} {sink : SinkState Data} {item : QueuedEnvelope Data},
    I s → s.sinks[index]? = some sink → sink.queue.head? = some item →
    (checkedAdd usizeMax s.deliveredItems 1).elim
      (I { popFront index item s with phase := .failed })
      fun deliveredItems => I { popFront index item s with deliveredItems }
  releaseAll : ∀ {s : RouterState Data}, I s → I (releaseAll s)

section

variable {I : RouterState Data → Prop} (hinv : Stable I)

include hinv

theorem Stable.carried : Carried I where
  close h _ _ := hinv.still h (still_of_eq rfl rfl rfl rfl rfl)
  callFinish h _ _ := hinv.still h (still_finish _ _)
  callFlush h _ _ := hinv.still h (still_flush _ _)
  failSink index source h := hinv.still h (still_failSink _ index source)
  finished s phase h hcloses := hinv.still h (ends_closing s phase (.refl s) hcloses).toStill
  shift h hshift := hinv.still h hshift.still
  wrote := hinv.wrote
  failWrite := hinv.failWrite
  pop := hinv.pop

theorem Stable.firstPoll (task : ℕ) (operation : Operation) (hs : I s) :
    I (firstPoll task operation s).2 := by
  cases operation with
  | start => exact hinv.still hs (begins_start s).1.toStill
  | deliver => exact (carried_deliver hinv.carried task hs).1
  | drain => exact (carried_drain hinv.carried task hs).1
  | flush => exact (carried_flush hinv.carried .flush hs).1
  | finish => exact (carried_finish hinv.carried task hs).1

theorem Stable.resume (task : ℕ) (await : Await) (reply cancelReply : Reply) (hs : I s) :
    I (resume task await reply cancelReply s).2 := by
  cases await with
  | starting index => exact hinv.still hs (begins_started index reply cancelReply s).1.toStill
  | rollingBack index primary failure =>
    exact hinv.still hs (begins_rolled index primary failure reply s).1.toStill
  | writing caller sequence index failure =>
    exact (carried_wrote hinv.carried _ _ _ _ _ _ hs).1
  | flushing caller index failure => exact (carried_flushed hinv.carried _ _ _ _ hs).1
  | finishing index failure => exact (carried_finished hinv.carried _ _ _ hs).1

theorem Stable.cancelInner (cancels : ℕ → Reply) (hs : I s) : I (cancelInner cancels s).2 := by
  rcases cancel_cases cancels s with ⟨hsame, -⟩ | ⟨-, dropError, phase, -, heq⟩
  · rwa [hsame]
  · rw [heq]
    exact hinv.still (hinv.releaseAll hs) (still_of_eq rfl rfl rfl rfl rfl)

theorem Stable.step {w : World Data} {ops : ResultOps Data} {run : String} {act : Act Data}
    (hentry : ∀ event metadata admission, act = .admitEvent event metadata →
      Admits w.state admission → (admitEvent ops run event metadata w.state).1 =
        .accepted admission.envelope.sequence admission.envelope.byteSize
          admission.selected.length →
      I (admitted admission w.state)) (hs : I w.state) : I (w.step ops run act).state := by
  cases act with
  | admitEvent event metadata =>
    show I (admitEvent ops run event metadata w.state).2
    rcases admit_cases ops run event metadata w.state with ⟨-, n, heq⟩ | ⟨admission, hadm, heq⟩
    · rw [heq]
      exact hinv.still hs (still_of_eq rfl rfl rfl rfl rfl)
    · have hroom := hentry event metadata admission rfl hadm (congrArg Prod.fst heq)
      rwa [heq]
  | stopAdmission => exact hinv.still hs (shifted_stop w.state).still
  | cancel cancels => exact hinv.cancelInner cancels hs
  | call operation => exact hinv.firstPoll w.issued operation hs
  | resume task reply cancelReply =>
    exact World.step_waiting (P := fun w => I w.state) hs fun {await} _ =>
      hinv.resume task await reply cancelReply hs
  | drop task cancels =>
    exact World.step_waiting (P := fun w => I w.state) hs fun {await} _ =>
      Function.Iterate.rec I hs (fun _ => hinv.cancelInner cancels) await.guards

end

theorem stable_books : Stable fun s : RouterState Data => Books s where
  still := Books.still
  wrote delivery index sequence h := h.wrote delivery index sequence
  failWrite index source h := h.failWrite index source
  pop {s index sink item} h hsink hhead := by
    cases checkedAdd usizeMax s.deliveredItems 1 <;> exact h.pop hsink hhead _ _
  releaseAll := Books.releaseAll

theorem Books.step {w : World Data} (h : Books w.state) (ops : ResultOps Data) (run : String)
    (act : Act Data) : Books (w.step ops run act).state :=
  stable_books.step (fun _ _ _ _ hadm _ => h.admitted hadm) h

theorem books_initial {specs : List SinkSpec} :
    Books (RouterState.initial specs : RouterState Data) where
  order := stepwise_nil
  sequence := rfl
  sinks hb := by
    simp only [RouterState.initial, getElem?_map] at hb
    obtain ⟨spec, -, rfl⟩ := Option.map_eq_some_iff.mp hb
    exact sound_of_empty rfl rfl
  failed h := by cases h

end

end JmeterRs.Router
