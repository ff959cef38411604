import JmeterRs.Router.Books

/-!
# The order of the writes

A delivery always takes the queued envelope of the lowest sequence among the healthy sinks, and of
the lowest position for that sequence.  While a write waits, its envelope is still at the front of
its queue; everything behind it, and everything that is admitted meanwhile, comes later.
-/

namespace JmeterRs.Router

open SinkState List

section

variable {Data : Type}

/-- What must have happened before a write. -/
def WriteAllowed (before : List RouterEvent) (event : RouterEvent) : Prop :=
  ∀ delivery sink sequence, event = .wrote delivery sink sequence →
    (∀ d q, .wrote d sink q ∈ before → q < sequence) ∧
      (∀ i q, .wrote delivery i q ∈ before → q < sequence ∨ q = sequence ∧ i < sink) ∧
      .failed sink ∉ before

/-- Nothing queued has been written. -/
def Fresh (s : RouterState Data) : Prop :=
  ∀ (i : ℕ) (b : SinkState Data), s.sinks[i]? = some b → ∀ q ∈ b.sequences,
    ∀ d q', .wrote d i q' ∈ s.log → q' < q

/-- What healthy sinks have queued comes after the writes of a delivery. -/
def Ahead (delivery : ℕ) (s : RouterState Data) : Prop :=
  ∀ (i : ℕ) (b : SinkState Data), s.sinks[i]? = some b → b.healthy → ∀ q ∈ b.sequences,
    ∀ i' q', .wrote delivery i' q' ∈ s.log → q' < q ∨ q' = q ∧ i' < i

/-- The next write of a delivery is the least one. -/
def Next (s : RouterState Data) : Option (ℕ × ℕ) → Prop
  | none => ∀ {i : ℕ} {b : SinkState Data}, s.sinks[i]? = some b → b.healthy → b.queue = []
  | some (sequence, index) =>
    (∃ b, s.sinks[index]? = some b ∧ b.healthy ∧ b.front = some sequence) ∧
      ∀ {i : ℕ} {b : SinkState Data}, s.sinks[i]? = some b → b.healthy → ∀ q ∈ b.sequences,
        sequence < q ∨ sequence = q ∧ index ≤ i

structure Ready (delivery : ℕ) (s : RouterState Data) : Prop where
  fresh : Fresh s
  ahead : Ahead delivery s

def SinkState.dropFront (sink : SinkState Data) : SinkState Data :=
  { sink with queue := sink.queue.tail }

/-- A write of a delivery waits for its sink. -/
structure Pending (delivery sequence index : ℕ) (s : RouterState Data) : Prop where
  wrote : .wrote delivery index sequence ∈ s.log
  front : ∃ b, s.sinks[index]? = some b ∧ b.front = some sequence
  rest : Ready delivery (s.modifySink index dropFront)

variable {s s' : RouterState Data} {delivery sequence index : ℕ}

/-! ## The least write -/

variable {b : SinkState Data}

theorem SinkState.front_none : b.front = none ↔ b.queue = [] := by
  simp [SinkState.front]

theorem SinkState.front_mem (h : b.front = some sequence) : sequence ∈ b.sequences := by
  obtain ⟨item, hitem, rfl⟩ := Option.map_eq_some_iff.mp h
  exact mem_map_of_mem (mem_of_mem_head? hitem)

/-- The front of a queue in order is its least sequence. -/
theorem SinkState.front_le (hsorted : b.sequences.Pairwise (· < ·)) {q : ℕ}
    (hq : q ∈ b.sequences) : ∃ first, b.front = some first ∧ first ≤ q := by
  unfold SinkState.sequences at hsorted hq
  unfold SinkState.front
  cases hqueue : b.queue with
  | nil =>
    rw [hqueue] at hq
    cases hq
  | cons item rest =>
    rw [hqueue, map_cons] at hsorted hq
    refine ⟨item.envelope.sequence, rfl, ?_⟩
    rcases mem_cons.mp hq with rfl | hq
    · exact Nat.le_refl _
    · exact Nat.le_of_lt ((pairwise_cons.mp hsorted).1 q hq)

theorem SinkState.offers_iff : b.offers sequence ↔ b.healthy ∧ b.front = some sequence := by
  simp [offers]

theorem mem_fronts {q : ℕ} : q ∈ (s.sinks.filter SinkState.healthy).filterMap SinkState.front ↔
    ∃ i : ℕ, ∃ b : SinkState Data, s.sinks[i]? = some b ∧ b.healthy ∧ b.front = some q := by
  rw [mem_filterMap]
  constructor
  · rintro ⟨b, hb, hfront⟩
    obtain ⟨hmem, hwell⟩ := mem_filter.mp hb
    obtain ⟨i, hi⟩ := mem_iff_getElem?.mp hmem
    exact ⟨i, b, hi, hwell, hfront⟩
  · rintro ⟨i, b, hb, hwell, hfront⟩
    exact ⟨b, mem_filter.mpr ⟨mem_of_getElem? hb, hwell⟩, hfront⟩

theorem next_first (h : Books s) : Next s (firstWrite s) := by
  unfold firstWrite
  cases hlowest : lowestSequence s with
  | none =>
    have hnil := min?_eq_none_iff.mp hlowest
    intro i b hb hwell
    rw [← front_none]
    cases hfront : b.front with
    | none => rfl
    | some q =>
      have hmem := mem_fronts.mpr ⟨i, b, hb, hwell, hfront⟩
      rw [hnil] at hmem
      cases hmem
  | some lowest =>
    obtain ⟨hmem, hleast⟩ := min?_eq_some_iff.mp hlowest
    obtain ⟨i, b, hb, hwell, hfront⟩ := mem_fronts.mp hmem
    have hoffers := offers_iff.mpr ⟨hwell, hfront⟩
    simp only
    cases hnext : nextSink (offers lowest) s 0 with
    | none =>
      rw [nextSink_none hnext (Nat.zero_le i) hb] at hoffers
      cases hoffers
    | some index =>
      obtain ⟨-, ⟨sink, hsink, hoffered⟩, hbefore⟩ := nextSink_some hnext
      obtain ⟨hwell', hfront'⟩ := offers_iff.mp hoffered
      refine ⟨⟨sink, hsink, hwell', hfront'⟩, fun {j c} hc hc' q hq => ?_⟩
      obtain ⟨first, hfirst, hle⟩ := front_le (h.sinks hc).sorted hq
      have hlowest_le : lowest ≤ first := hleast first (mem_fronts.mpr ⟨j, c, hc, hc', hfirst⟩)
      rcases Nat.lt_or_ge lowest q with hlt | hge
      · exact .inl hlt
      · -- the sequence is at the front there too, so that sink was not passed over
        have hfirst_eq : first = lowest := by omega
        refine .inr ⟨by omega, ?_⟩
        by_contra hlt
        have hoffers' := offers_iff.mpr ⟨hc', hfirst_eq ▸ hfirst⟩
        rw [hbefore j c (Nat.zero_le j) (by omega) hc] at hoffers'
        cases hoffers'

/-- After a write, everything healthy comes later, so the sinks behind are looked at first. -/
theorem next_write (h : Books s) (hahead : ∀ {i : ℕ} {b : SinkState Data},
      s.sinks[i]? = some b → b.healthy → ∀ q ∈ b.sequences,
        sequence < q ∨ sequence = q ∧ index < i) : Next s (nextWrite sequence (index + 1) s) := by
  unfold nextWrite
  cases hnext : nextSink (offers sequence) s (index + 1) with
  | none => exact next_first h
  | some next =>
    obtain ⟨-, ⟨sink, hsink, hoffered⟩, hbefore⟩ := nextSink_some hnext
    obtain ⟨hwell, hfront⟩ := offers_iff.mp hoffered
    refine ⟨⟨sink, hsink, hwell, hfront⟩, fun {j c} hc hc' q hq => ?_⟩
    rcases hahead hc hc' q hq with hlt | ⟨rfl, hlt⟩
    · exact .inl hlt
    · refine .inr ⟨rfl, ?_⟩
      by_contra hpassed
      obtain ⟨first, hfirst, hle⟩ := front_le (h.sinks hc).sorted hq
      have hfirst_eq : first = sequence := by
        rcases hahead hc hc' first (front_mem hfirst) with hlt' | ⟨heq, -⟩ <;> omega
      have hoffers' := offers_iff.mpr ⟨hc', hfirst_eq ▸ hfirst⟩
      rw [hbefore j c (by omega) (by omega) hc] at hoffers'
      cases hoffers'

/-! ## What keeps a delivery ready -/

/-- Queues may lose envelopes, and sinks may fail. -/
theorem Ready.frame (h : Ready delivery s)
    (hsinks : ∀ {i : ℕ} {b : SinkState Data}, s'.sinks[i]? = some b → ∃ a, s.sinks[i]? = some a ∧
      (∀ q ∈ b.sequences, q ∈ a.sequences) ∧ (b.healthy → a.healthy))
    (hlog : ∀ d i q, .wrote d i q ∈ s'.log → .wrote d i q ∈ s.log) : Ready delivery s' where
  fresh i b hb q hq d q' hmem := by
    obtain ⟨a, ha, hsub, -⟩ := hsinks hb
    exact h.fresh _ _ ha q (hsub q hq) d q' (hlog d i q' hmem)
  ahead i b hb hwell q hq i' q' hmem := by
    obtain ⟨a, ha, hsub, hwell'⟩ := hsinks hb
    exact h.ahead _ _ ha (hwell' hwell) q (hsub q hq) i' q' (hlog delivery i' q' hmem)

theorem ready_of_noQueue (h : NoQueue s) (delivery : ℕ) : Ready delivery s := by
  have hnone : ∀ {i : ℕ} {b : SinkState Data}, s.sinks[i]? = some b → b.sequences = [] := by
    intro i b hb
    unfold SinkState.sequences
    rw [h b (mem_of_getElem? hb)]
    rfl
  constructor
  · intro i b hb q hq
    rw [hnone hb] at hq
    cases hq
  · intro i b hb _ q hq
    rw [hnone hb] at hq
    cases hq

variable {a : SinkState Data}

theorem SinkState.Same.healthy (h : a.Same b) (hb : b.healthy) : a.healthy := by
  simp only [SinkState.healthy, Bool.and_eq_true, Option.isNone_iff_eq_none] at hb ⊢
  rw [← h.spec]
  exact ⟨hb.1, h.failed hb.2⟩

theorem SinkState.Same.sequences (h : a.Same b) : b.sequences = a.sequences := by
  unfold SinkState.sequences
  rw [h.queue]

theorem Ready.still (h : Ready delivery s) (hstill : Still s s') : Ready delivery s' := by
  apply h.frame
  · intro i b hb
    obtain ⟨a, ha, hab⟩ := hstill.sinks hb
    exact ⟨a, ha, fun q hq => hab.sequences ▸ hq, hab.healthy⟩
  · exact fun d i q hmem => hstill.wrote_iff.mp hmem

theorem Still.forward (h : Still s s') (ha : s.sinks[index]? = some a) :
    ∃ b, s'.sinks[index]? = some b ∧ a.Same b := by
  have hlt : index < s'.sinks.length := h.length ▸ (List.getElem?_eq_some_iff.mp ha).1
  obtain ⟨a', ha', hab⟩ := h.sinks (getElem?_eq_getElem hlt)
  rw [ha] at ha'
  cases ha'
  exact ⟨_, getElem?_eq_getElem hlt, hab⟩

theorem Pending.still (h : Pending delivery sequence index s) (hstill : Still s s') :
    Pending delivery sequence index s' where
  wrote := hstill.wrote_iff.mpr h.wrote
  front := by
    obtain ⟨a, ha, hfront⟩ := h.front
    obtain ⟨b, hb, hab⟩ := hstill.forward ha
    refine ⟨b, hb, ?_⟩
    unfold SinkState.front at hfront ⊢
    rw [hab.queue, hfront]
  rest := by
    apply h.rest.frame
    · intro i b hb
      obtain ⟨c, hc, hb⟩ := of_modify hb
      obtain ⟨a, ha, hac⟩ := hstill.sinks hc
      refine ⟨_, modify_get? ha, ?_⟩
      rcases hb with ⟨hi, rfl⟩ | ⟨hi, rfl⟩
      · rw [if_pos hi]
        refine ⟨fun q hq => ?_, hac.healthy⟩
        simpa only [SinkState.sequences, dropFront, hac.queue] using hq
      · rw [if_neg hi]
        exact ⟨fun q hq => hac.sequences ▸ hq, hac.healthy⟩
    · exact fun d i q hmem => hstill.wrote_iff.mp hmem

/-- A healthy sink is given the least envelope of a delivery. -/
theorem Ready.write (h : Ready delivery s) (hbooks : Books s)
    (hnext : Next s (some (sequence, index))) :
    WriteAllowed s.log (.wrote delivery index sequence) ∧
      Pending delivery sequence index (s.emit (.wrote delivery index sequence)) := by
  obtain ⟨⟨sink, hsink, hwell, hfront⟩, hleast⟩ := hnext
  have hmem := front_mem hfront
  constructor
  · rintro d i q ⟨⟩
    refine ⟨fun d q hwrote => h.fresh _ _ hsink sequence hmem d q hwrote,
      fun i q hwrote => h.ahead _ _ hsink hwell sequence hmem i q hwrote, fun hfailed => ?_⟩
    have hmarked := hbooks.failed hfailed hsink
    simp only [SinkState.healthy, Bool.and_eq_true, Option.isNone_iff_eq_none] at hwell
    exact hmarked hwell.2
  · -- what is left in the queue of the sink is behind its front
    have hbehind : ∀ q ∈ sink.sequences.tail, sequence < q := by
      intro q hq
      have hsorted := (hbooks.sinks hsink).sorted
      obtain ⟨item, hhead, rfl⟩ := Option.map_eq_some_iff.mp hfront
      obtain ⟨rest, hqueue⟩ := head?_eq_some_iff.mp hhead
      rw [SinkState.sequences, hqueue, map_cons] at hsorted hq
      exact (pairwise_cons.mp hsorted).1 q hq
    have hrest : ∀ {i : ℕ} {b : SinkState Data},
        ((s.emit (.wrote delivery index sequence)).modifySink index dropFront).sinks[i]? = some b →
        ∃ a, s.sinks[i]? = some a ∧ (b.healthy → a.healthy) ∧ ∀ q ∈ b.sequences,
          q ∈ a.sequences ∧ (i = index → sequence < q) := by
      intro i b hb
      obtain ⟨a, ha, ⟨rfl, rfl⟩ | ⟨hi, rfl⟩⟩ := of_modify hb
      · cases hsink.symm.trans ha
        refine ⟨sink, hsink, id, fun q hq => ?_⟩
        have hq' : q ∈ sink.sequences.tail := by
          simpa only [SinkState.sequences, dropFront, map_tail] using hq
        exact ⟨mem_of_mem_tail hq', fun _ => hbehind q hq'⟩
      · exact ⟨b, ha, id, fun q hq => ⟨hq, fun h => absurd h hi⟩⟩
    refine ⟨mem_append_right _ mem_cons_self, ⟨sink, hsink, hfront⟩, ?_, ?_⟩
    · intro i b hb q hq d q' hwrote
      obtain ⟨a, ha, -, hsub⟩ := hrest hb
      rcases mem_append.mp hwrote with hwrote | hwrote
      · exact h.fresh _ _ ha q (hsub q hq).1 d q' hwrote
      · cases mem_singleton.mp hwrote
        exact (hsub q hq).2 rfl
    · intro i b hb hb' q hq i' q' hwrote
      obtain ⟨a, ha, hwell', hsub⟩ := hrest hb
      rcases mem_append.mp hwrote with hwrote | hwrote
      · exact h.ahead _ _ ha (hwell' hb') q (hsub q hq).1 i' q' hwrote
      · cases mem_singleton.mp hwrote
        rcases hleast ha (hwell' hb') q (hsub q hq).1 with hlt | ⟨rfl, hle⟩
        · exact .inl hlt
        · rcases Nat.lt_or_eq_of_le hle with hlt | rfl
          · exact .inr ⟨rfl, hlt⟩
          · exact .inl ((hsub _ hq).2 rfl)

/-- An envelope that is admitted has a higher sequence than all written ones. -/
theorem Ready.admitted (h : Ready delivery s) {admission : Admission Data}
    (hbelow : ∀ d i q, .wrote d i q ∈ s.log → q < admission.envelope.sequence)
    (hsinks : ∀ {i : ℕ} {b : SinkState Data}, s'.sinks[i]? = some b → ∃ a, s.sinks[i]? = some a ∧
      (∀ q ∈ b.sequences, q ∈ a.sequences ∨ q = admission.envelope.sequence) ∧
      (b.healthy → a.healthy))
    (hlog : ∀ d i q, .wrote d i q ∈ s'.log → .wrote d i q ∈ s.log) : Ready delivery s' where
  fresh i b hb q hq d q' hmem := by
    obtain ⟨a, ha, hsub, -⟩ := hsinks hb
    rcases hsub q hq with hq | rfl
    · exact h.fresh _ _ ha q hq d q' (hlog d i q' hmem)
    · exact hbelow d i q' (hlog d i q' hmem)
  ahead i b hb hwell q hq i' q' hmem := by
    obtain ⟨a, ha, hsub, hwell'⟩ := hsinks hb
    rcases hsub q hq with hq | rfl
    · exact h.ahead _ _ ha (hwell' hwell) q hq i' q' (hlog delivery i' q' hmem)
    · exact .inl (hbelow delivery i' q' (hlog delivery i' q' hmem))

end

end JmeterRs.Router
