import JmeterRs.Lib.Log
import JmeterRs.Router.Futures

/-!
# What the router keeps

The laws of the result router over its log, and what the steps that leave the queues alone have in
common.
-/

namespace JmeterRs.Router

open List

open Execution (SampleEvent SampleResult)

/-- The accepted events with their sinks. -/
def accepted (log : List RouterEvent) : List (ℕ × List ℕ) :=
  log.filterMap fun
    | .accepted sequence selected => some (sequence, selected)
    | _ => none

/-- What must have happened before an event: sequences are consecutive; a sink is called once for
each operation; an envelope goes to a sink after those of lower sequence, in each delivery also
after those of lower sequence or position of the other sinks, and never to a failed sink. -/
def Allowed (before : List RouterEvent) : RouterEvent → Prop
  | .accepted sequence _ => sequence = (accepted before).length + 1
  | .called sink operation => .called sink operation ∉ before
  | .wrote delivery sink sequence =>
    (∀ d q, .wrote d sink q ∈ before → q < sequence) ∧
      (∀ i q, .wrote delivery i q ∈ before → q < sequence ∨ q = sequence ∧ i < sink) ∧
      .failed sink ∉ before
  | .failed _ | .finished => True

/-- Every accepted event has been written to all its sinks. -/
def Complete (log : List RouterEvent) : Prop :=
  ∀ sequence selected, .accepted sequence selected ∈ log →
    ∀ sink ∈ selected, ∃ delivery, .wrote delivery sink sequence ∈ log

section

variable {Data : Type} {f : SinkState Data → SinkState Data} {s : RouterState Data} {index : ℕ}
  {i : ℕ} {p : SinkState Data → Bool}

/-- A future that is answered or dropped waits, or nothing happens. -/
theorem World.step_waiting {P : World Data → Prop} {w : World Data} (h : P w) {task : ℕ}
    {f : Await → World Data} (hsome : ∀ {await}, w.tasks task = some await → P (f await)) :
    P (match w.tasks task with | none => w | some await => f await) := by
  cases htask : w.tasks task with
  | none => exact h
  | some await => exact hsome htask

def SinkState.sequences (sink : SinkState Data) : List ℕ := sink.queue.map (·.envelope.sequence)

/-- The accounting of a queue. -/
structure SinkState.Bounded (sink : SinkState Data) : Prop where
  bytes : sink.queuedBytes = (sink.queue.map (·.bytes)).sum
  maxBytes : sink.queuedBytes ≤ sink.spec.limits.maxBytes
  maxItems : sink.queue.length ≤ sink.spec.limits.maxItems

def queuedItems (s : RouterState Data) : ℕ := (s.sinks.map (·.queue.length)).sum

/-- The pairs of an accepted event and a selected sink, by what became of them. -/
def load (s : RouterState Data) : ℕ := s.deliveredItems + s.terminalDrops + queuedItems s

def Conserved (s : RouterState Data) : Prop := ((accepted s.log).map (·.2.length)).sum = load s

def NoQueue (s : RouterState Data) : Prop := ∀ sink ∈ s.sinks, sink.queue = []

/-! ## Positions -/

theorem get?_modifySink : (s.modifySink index f).sinks[i]? =
      if index = i then (s.sinks[i]?).map f else s.sinks[i]? := by
  unfold RouterState.modifySink
  rw [getElem?_modify]
  split_ifs <;> simp

@[simp] theorem length_modifySink (s : RouterState Data) (index : ℕ)
    (f : SinkState Data → SinkState Data) : (s.modifySink index f).sinks.length = s.sinks.length :=
  length_modify ..

/-- A sink after one of them has changed. -/
theorem of_modify {b : SinkState Data} (h : (s.modifySink index f).sinks[i]? = some b) :
    ∃ a, s.sinks[i]? = some a ∧ (i = index ∧ b = f a ∨ i ≠ index ∧ b = a) := by
  rw [get?_modifySink] at h
  split_ifs at h with hi
  · obtain ⟨a, ha, rfl⟩ := Option.map_eq_some_iff.mp h
    exact ⟨a, ha, .inl ⟨hi.symm, rfl⟩⟩
  · exact ⟨b, h, .inr ⟨Ne.symm hi, rfl⟩⟩

theorem modify_get? {a : SinkState Data} (ha : s.sinks[i]? = some a) :
    (s.modifySink index f).sinks[i]? = some (if i = index then f a else a) := by
  rw [get?_modifySink, ha]
  by_cases hi : index = i
  · rw [if_pos hi, if_pos hi.symm, Option.map_some]
  · rw [if_neg hi, if_neg (Ne.symm hi)]

theorem mem_emit {event other : RouterEvent} :
    other ∈ (s.emit event).log ↔ other ∈ s.log ∨ other = event := by
  simp [RouterState.emit]

theorem nextSink_some (h : nextSink p s index = some i) :
    index ≤ i ∧ (∃ sink, s.sinks[i]? = some sink ∧ p sink) ∧
      ∀ j sink, index ≤ j → j < i → s.sinks[j]? = some sink → p sink = false := by
  obtain ⟨hi, m, hm, hat, hbefore⟩ := find?_eq_some_iff_getElem.mp h
  simp only [getElem_drop, getElem_range] at hat hbefore
  have hfound : ∃ sink, s.sinks[i]? = some sink ∧ p sink := by
    cases hsink : s.sinks[i]? with
    | none =>
      rw [hsink] at hi
      cases hi
    | some sink =>
      rw [hsink] at hi
      exact ⟨sink, rfl, hi⟩
  refine ⟨by omega, hfound, ?_⟩
  intro j sink hj hlt hsink
  have hnone := hbefore (j - index) (by omega)
  have hplus : index + (j - index) = j := by omega
  rw [hplus, hsink] at hnone
  simpa using hnone

theorem nextSink_none (h : nextSink p s index = none) {j : ℕ} {sink : SinkState Data}
    (hj : index ≤ j) (hsink : s.sinks[j]? = some sink) : p sink = false := by
  have hlt : j < s.sinks.length := (List.getElem?_eq_some_iff.mp hsink).1
  have hmem : j ∈ (List.range s.sinks.length).drop index := by
    rw [mem_iff_getElem]
    refine ⟨j - index, by simp; omega, ?_⟩
    simp only [getElem_drop, getElem_range]
    omega
  have hnone := find?_eq_none.mp h j hmem
  rw [hsink] at hnone
  simpa using hnone

/-! ## Steps that leave the queues alone -/

/-- The same sink with the same queue; it may have been called, and it may have failed. -/
structure SinkState.Same (a b : SinkState Data) : Prop where
  spec : b.spec = a.spec
  queue : b.queue = a.queue
  queuedBytes : b.queuedBytes = a.queuedBytes
  failed : b.failed = none → a.failed = none

/-- An entry of the log that says nothing about the queues. -/
def RouterEvent.isNote : RouterEvent → Bool
  | .called .. | .failed _ | .finished => true
  | .accepted .. | .wrote .. => false

/-- The queues and the accounts are as before. -/
structure Still (s s' : RouterState Data) : Prop where
  length : s'.sinks.length = s.sinks.length
  sinks : ∀ {i : ℕ} {b : SinkState Data}, s'.sinks[i]? = some b →
    ∃ a, s.sinks[i]? = some a ∧ a.Same b
  nextSequence : s'.nextSequence = s.nextSequence
  deliveredItems : s'.deliveredItems = s.deliveredItems
  terminalDrops : s'.terminalDrops = s.terminalDrops
  log : ∃ notes, s'.log = s.log ++ notes ∧ ∀ event ∈ notes, event.isNote
  failed : ∀ {i : ℕ} {b : SinkState Data}, .failed i ∈ s'.log → s'.sinks[i]? = some b →
    b.failed ≠ none ∨ .failed i ∈ s.log

theorem SinkState.Same.refl (a : SinkState Data) : a.Same a := ⟨rfl, rfl, rfl, id⟩

theorem SinkState.Same.trans {a b c : SinkState Data} (hab : a.Same b) (hbc : b.Same c) :
    a.Same c :=
  ⟨hbc.spec.trans hab.spec, hbc.queue.trans hab.queue, hbc.queuedBytes.trans hab.queuedBytes,
    fun h => hab.failed (hbc.failed h)⟩

variable {s s' s'' : RouterState Data}

theorem still_of_eq (hsinks : s'.sinks = s.sinks) (hsequence : s'.nextSequence = s.nextSequence)
    (hdelivered : s'.deliveredItems = s.deliveredItems)
    (hdrops : s'.terminalDrops = s.terminalDrops) (hlog : s'.log = s.log) : Still s s' where
  length := by rw [hsinks]
  sinks {i b} h := ⟨b, by rwa [hsinks] at h, .refl b⟩
  nextSequence := hsequence
  deliveredItems := hdelivered
  terminalDrops := hdrops
  log := ⟨[], by rw [hlog, append_nil], nofun⟩
  failed hmem _ := .inr (hlog ▸ hmem)

theorem Still.refl (s : RouterState Data) : Still s s := still_of_eq rfl rfl rfl rfl rfl

theorem Still.trans (h : Still s s') (h' : Still s' s'') : Still s s'' where
  length := h'.length.trans h.length
  sinks hc := by
    obtain ⟨b, hb, hbc⟩ := h'.sinks hc
    obtain ⟨a, ha, hab⟩ := h.sinks hb
    exact ⟨a, ha, hab.trans hbc⟩
  nextSequence := h'.nextSequence.trans h.nextSequence
  deliveredItems := h'.deliveredItems.trans h.deliveredItems
  terminalDrops := h'.terminalDrops.trans h.terminalDrops
  log := by
    obtain ⟨notes, hlog, hnotes⟩ := h.log
    obtain ⟨more, hlog', hmore⟩ := h'.log
    refine ⟨notes ++ more, by rw [hlog', hlog, append_assoc], fun event hmem => ?_⟩
    rcases mem_append.mp hmem with hmem | hmem
    · exact hnotes event hmem
    · exact hmore event hmem
  failed hmem hc := by
    rcases h'.failed hmem hc with hfail | hmem
    · exact .inl hfail
    · obtain ⟨b, hb, hbc⟩ := h'.sinks hc
      rcases h.failed hmem hb with hfail | hmem
      · exact .inl fun hnone => hfail (hbc.failed hnone)
      · exact .inr hmem

section

variable (s) (index : ℕ)

section

variable {f : SinkState Data → SinkState Data} (hf : ∀ a : SinkState Data, a.Same (f a))

include hf

theorem still_modify : Still s (s.modifySink index f) where
  length := length_modifySink s index f
  sinks {i b} h := by
    obtain ⟨a, ha, ⟨-, rfl⟩ | ⟨-, rfl⟩⟩ := of_modify h
    · exact ⟨a, ha, hf a⟩
    · exact ⟨b, ha, .refl b⟩
  nextSequence := rfl
  deliveredItems := rfl
  terminalDrops := rfl
  log := ⟨[], (append_nil _).symm, fun _ hmem => absurd hmem not_mem_nil⟩
  failed hmem _ := .inr hmem

/-- A sink is called or fails, and this is noted. -/
theorem still_mark (event : RouterEvent) (hnote : event.isNote)
    (hfail : ∀ i, event = .failed i → i = index ∧ ∀ a : SinkState Data, (f a).failed ≠ none) :
    Still s ((s.modifySink index f).emit event) where
  __ := still_modify s index hf
  log := ⟨[event], rfl, fun other hmem => by rwa [mem_singleton.mp hmem]⟩
  failed {i b} hmem hb := by
    rcases mem_emit.mp hmem with hmem | hev
    · exact .inr hmem
    · obtain ⟨rfl, hmarked⟩ := hfail i hev.symm
      obtain ⟨a, -, ⟨-, rfl⟩ | ⟨hne, -⟩⟩ := of_modify hb
      · exact .inl (hmarked a)
      · exact absurd rfl hne

end

theorem still_emit (event : RouterEvent) (hnote : event.isNote)
    (hfail : ∀ i, event ≠ .failed i) : Still s (s.emit event) where
  __ := Still.refl s
  log := ⟨[event], rfl, fun other hmem => by rwa [mem_singleton.mp hmem]⟩
  failed {i b} hmem _ := by
    rcases mem_emit.mp hmem with hmem | hev
    · exact .inr hmem
    · exact absurd hev.symm (hfail i)

theorem still_call (operation : SinkOperation) (hf : ∀ a : SinkState Data, a.Same (f a)) :
    Still s ((s.modifySink index f).emit (.called index operation)) :=
  still_mark s index hf _ rfl nofun

theorem still_finish : Still s (callFinish index s) :=
  still_call s index .finish fun _ => ⟨rfl, rfl, rfl, id⟩

theorem still_flush : Still s (callFlush index s) :=
  still_call s index .flush fun _ => ⟨rfl, rfl, rfl, id⟩

theorem still_failSink (source : SinkError) : Still s (failSink index source s) := by
  apply still_mark
  · intro a
    refine ⟨rfl, rfl, rfl, ?_⟩
    intro h
    cases h
  · rfl
  · intro i h
    cases h
    exact ⟨rfl, fun _ => Option.some_ne_none source⟩

end

namespace Still

variable (h : Still s s')

include h

theorem accepted_eq : accepted s'.log = accepted s.log := by
  obtain ⟨notes, hlog, hnotes⟩ := h.log
  have hnone : accepted notes = [] := by
    apply filterMap_eq_nil_iff.mpr
    intro event hmem
    cases event <;> first | rfl | cases hnotes _ hmem
  rw [hlog, accepted, filterMap_append]
  exact (congrArg _ hnone).trans (append_nil _)

theorem mem_iff {event : RouterEvent} (hnote : event.isNote = false) :
    event ∈ s'.log ↔ event ∈ s.log := by
  obtain ⟨notes, hlog, hnotes⟩ := h.log
  rw [hlog, mem_append, or_iff_left]
  intro hmem
  rw [hnotes event hmem] at hnote
  cases hnote

theorem wrote_iff {delivery sink sequence : ℕ} :
    .wrote delivery sink sequence ∈ s'.log ↔ .wrote delivery sink sequence ∈ s.log :=
  h.mem_iff rfl

theorem complete_iff : Complete s'.log ↔ Complete s.log := by
  have haccepted : ∀ sequence selected,
      .accepted sequence selected ∈ s'.log ↔ .accepted sequence selected ∈ s.log :=
    fun _ _ => h.mem_iff rfl
  simp only [Complete, haccepted, h.wrote_iff]

theorem map_eq {α : Type} {g : SinkState Data → α}
    (hg : ∀ a b : SinkState Data, a.Same b → g b = g a) : s'.sinks.map g = s.sinks.map g := by
  apply ext_getElem?
  intro i
  rw [getElem?_map, getElem?_map]
  cases hb : s'.sinks[i]? with
  | none =>
    have hlength : s'.sinks.length ≤ i := List.getElem?_eq_none_iff.mp hb
    rw [List.getElem?_eq_none_iff.mpr (h.length ▸ hlength)]
  | some b =>
    obtain ⟨a, ha, hab⟩ := h.sinks hb
    rw [ha, Option.map_some, Option.map_some, hg a b hab]

theorem queuedItems_eq : queuedItems s' = queuedItems s := by
  unfold queuedItems
  rw [h.map_eq fun a b hab => by rw [hab.queue]]

theorem load_eq : load s' = load s := by
  unfold load
  rw [h.queuedItems_eq, h.deliveredItems, h.terminalDrops]

theorem noQueue_iff : NoQueue s' ↔ NoQueue s := by
  have hqueues := h.map_eq (g := SinkState.queue) fun _ _ hab => hab.queue
  have hall : ∀ t : RouterState Data,
      NoQueue t ↔ ∀ queue ∈ t.sinks.map SinkState.queue, queue = [] := by
    intro t
    simp [NoQueue]
  rw [hall, hall, hqueues]

end Still

end

end JmeterRs.Router
