import JmeterRs.Router.Law

/-!
# Admission

An event is admitted to all its sinks or to none: the capacity of every selected sink is checked
before any of them gets the envelope, and putting it into the queues cannot fail after that.
-/

namespace JmeterRs.Router

open List

open Execution (SampleEvent SampleResult)

variable {Data : Type} {envelope : ResultEnvelope Data} {selected : List ℕ}
  {sinks : List (SinkState Data)}

/-- A sink with one more envelope in its queue. -/
def SinkState.push (envelope : ResultEnvelope Data) (sink : SinkState Data) : SinkState Data :=
  { sink with
    queuedBytes := sink.queuedBytes + envelope.byteSize
    queue := sink.queue ++ [⟨envelope, envelope.byteSize⟩] }

/-- A sink that can take `bytes` more. -/
structure SinkState.HasRoom (sink : SinkState Data) (bytes : ℕ) : Prop where
  fits : sink.queuedBytes + bytes ≤ usizeMax
  maxItems : sink.queue.length < sink.spec.limits.maxItems
  maxBytes : sink.queuedBytes + bytes ≤ sink.spec.limits.maxBytes

/-- What holds of an admission that is carried out. -/
structure Admits (s : RouterState Data) (admission : Admission Data) : Prop where
  phase : s.phase = .started
  nodup : admission.selected.Nodup
  selected : ∀ index ∈ admission.selected, ∃ sink, s.sinks[index]? = some sink ∧ sink.healthy ∧
    sink.HasRoom admission.envelope.byteSize
  sequence : admission.envelope.sequence = s.nextSequence
  nextSequence : admission.nextSequence = s.nextSequence + 1

/-- The queues after an admission. -/
def enqueued (envelope : ResultEnvelope Data) (selected : List ℕ) (sinks : List (SinkState Data)) :
    List (SinkState Data) :=
  sinks.mapIdx fun index sink => if index ∈ selected then sink.push envelope else sink

/-- The state after an admission. -/
def admitted (admission : Admission Data) (s : RouterState Data) : RouterState Data :=
  { s with
    nextSequence := admission.nextSequence
    nextSample := admission.nextSample
    admittedEvents := admission.admittedEvents
    filteredRoutes := admission.filteredRoutes
    sinks := enqueued admission.envelope admission.selected s.sinks
    log := s.log ++ [.accepted admission.envelope.sequence admission.selected] }

def AdmissionOutcome.isAccepted : AdmissionOutcome → Bool
  | .accepted .. => true
  | _ => false

theorem get?_enqueued (i : ℕ) : (enqueued envelope selected sinks)[i]? =
      (sinks[i]?).map fun sink => if i ∈ selected then sink.push envelope else sink := by
  simp [enqueued]

theorem modify_enqueued {index : ℕ} (hindex : index ∉ selected) :
    enqueued envelope selected (sinks.modify index (SinkState.push envelope)) =
      enqueued envelope (index :: selected) sinks := by
  apply ext_getElem?
  intro i
  rw [get?_enqueued, get?_enqueued, getElem?_modify]
  by_cases hi : index = i
  · subst hi
    cases sinks[index]? <;> simp [hindex]
  · cases sinks[i]? <;> simp [hi, Ne.symm hi]

theorem enqueue_eq : ∀ {selected : List ℕ} {s : RouterState Data}, selected.Nodup →
      (∀ index ∈ selected, ∃ sink, s.sinks[index]? = some sink ∧
        sink.queuedBytes + envelope.byteSize ≤ usizeMax) → enqueue envelope selected s =
        (true, { s with sinks := enqueued envelope selected s.sinks })
  | [], s, _, _ => by
    have hsame : enqueued envelope [] s.sinks = s.sinks := by
      apply ext_getElem?
      intro i
      rw [get?_enqueued]
      cases s.sinks[i]? <;> simp
    rw [hsame]
    rfl
  | index :: rest, s, hnodup, hroom => by
    obtain ⟨hindex, hrest⟩ := nodup_cons.mp hnodup
    obtain ⟨sink, hsink, hfits⟩ := hroom index mem_cons_self
    -- the model stores the sum that was checked, `push` adds again
    have hstored : (s.modifySink index fun other =>
        { other with
          queuedBytes := sink.queuedBytes + envelope.byteSize
          queue := other.queue ++ [⟨envelope, envelope.byteSize⟩] }) =
        s.modifySink index (SinkState.push envelope) := by
      unfold RouterState.modifySink
      congr 1
      apply ext_getElem?
      intro i
      rw [getElem?_modify, getElem?_modify]
      by_cases hi : index = i
      · subst hi
        rw [hsink]
        rfl
      · cases s.sinks[i]? <;> simp [hi]
    rw [enqueue, hsink]
    simp only [checkedAdd_le hfits]
    rw [hstored, enqueue_eq hrest]
    · rw [← modify_enqueued hindex]
      rfl
    · intro other hother
      obtain ⟨sink', hsink', hfits'⟩ := hroom other (.tail _ hother)
      refine ⟨sink', ?_, hfits'⟩
      rw [get?_modifySink, if_neg, hsink']
      rintro rfl
      exact hindex hother

/-! ## The checks -/

section

variable {ops : ResultOps Data} {event : SampleEvent Data} {metadata : ResultEventMetadata}
  {sinks : List (SinkState Data)} {message : String}

/-- The loop over the sinks: `start` of them have been looked at. -/
theorem selectSinks_ok {all : List (SinkState Data)} :
    ∀ {rest : List (SinkState Data)} {start enabled enabled' : ℕ} {selected selected' : List ℕ},
      all.drop start = rest → selected.Nodup →
      (∀ index ∈ selected, index < start ∧ ∃ sink, all[index]? = some sink ∧ sink.healthy) →
      selectSinks ops event metadata start enabled selected rest = .ok (selected', enabled') →
      selected'.Nodup ∧ ∀ index ∈ selected', ∃ sink, all[index]? = some sink ∧ sink.healthy
  | [], start, enabled, enabled', selected, selected', _, hnodup, hbefore, h => by
    cases h
    exact ⟨hnodup, fun index hmem => (hbefore index hmem).2⟩
  | sink :: rest, start, enabled, enabled', selected, selected', hdrop, hnodup, hbefore, h => by
    have hsink : all[start]? = some sink := by
      rw [← head?_drop, hdrop]
      rfl
    have hrest : all.drop (start + 1) = rest := by
      rw [← tail_drop, hdrop]
      rfl
    have hskip : ∀ index ∈ selected,
        index < start + 1 ∧ ∃ sink, all[index]? = some sink ∧ sink.healthy := by
      intro index hmem
      obtain ⟨hlt, hwell⟩ := hbefore index hmem
      exact ⟨by omega, hwell⟩
    unfold selectSinks at h
    split at h
    · exact selectSinks_ok hrest hnodup hskip h
    · next henabled =>
      split at h
      · cases h
      · split at h
        · cases h
        · exact selectSinks_ok hrest hnodup hskip h
        · split at h
          · cases h
          · next hfailed =>
            refine selectSinks_ok hrest ?_ ?_ h
            · rw [nodup_append]
              refine ⟨hnodup, by simp, fun index hmem other hother => ?_⟩
              rw [mem_singleton.mp hother]
              have hlt := (hbefore index hmem).1
              omega
            · intro index hmem
              rcases mem_append.mp hmem with hmem | hmem
              · exact hskip index hmem
              · cases mem_singleton.mp hmem
                refine ⟨by omega, sink, hsink, ?_⟩
                simpa [SinkState.healthy, hfailed] using henabled

theorem checkCapacity_ok {bytes : ℕ} :
    ∀ {selected : List ℕ}, checkCapacity ops sinks bytes selected = .ok () →
      ∀ index ∈ selected, ∀ sink, sinks[index]? = some sink → sink.HasRoom bytes
  | [], _, index, hmem, _, _ => by cases hmem
  | first :: rest, h, index, hmem, sink, hsink => by
    unfold checkCapacity at h
    split at h
    · next hfirst =>
      rcases mem_cons.mp hmem with rfl | hmem
      · cases hfirst.symm.trans hsink
      · exact checkCapacity_ok h index hmem sink hsink
    · next other hfirst =>
      split at h
      · cases h
      · next queuedBytes hbytes =>
        obtain ⟨rfl, hfits⟩ := checkedAdd_some.mp hbytes
        obtain ⟨hfull, h⟩ := ite_error_ok.mp h
        rw [not_or] at hfull
        rcases mem_cons.mp hmem with rfl | hmem
        · cases hfirst.symm.trans hsink
          exact ⟨hfits, by omega, by omega⟩
        · exact checkCapacity_ok h index hmem sink hsink

theorem orExhausted_ok {α : Type} {value : Option α} {a : α}
    (h : orExhausted ops value message = .ok a) : value = some a := by
  cases value with
  | none => cases h
  | some value =>
    cases h
    rfl

variable {run : String} {s : RouterState Data} {admission : Admission Data}

theorem admits_of_prepare (hphase : s.phase = .started)
    (h : prepare ops run event metadata s = .ok admission) : Admits s admission := by
  obtain ⟨⟨selected, enabledSinks⟩, hselect, h⟩ := bind_ok.mp h
  obtain ⟨bytes, hbytes, h⟩ := bind_ok.mp h
  obtain ⟨admittedEvents, -, h⟩ := bind_ok.mp h
  obtain ⟨filteredRoutes, -, h⟩ := bind_ok.mp h
  obtain ⟨_, hcapacity, h⟩ := bind_ok.mp h
  obtain ⟨nextSequence, hnext, h⟩ := bind_ok.mp h
  obtain ⟨⟨sample, nextSample⟩, -, h⟩ := bind_ok.mp h
  cases henvelope : newEnvelope ops s.nextSequence sample run metadata event with
  | error detail =>
    simp only [henvelope] at h
    cases h
  | ok envelope =>
    simp only [henvelope] at h
    cases h
    have hall : s.sinks.drop 0 = s.sinks := drop_zero
    obtain ⟨hnodup, hselected⟩ := selectSinks_ok hall nodup_nil (nofun) hselect
    refine ⟨hphase, hnodup, fun index hmem => ?_, envelope_sequence henvelope,
      (checkedAdd_some.mp (orExhausted_ok hnext)).1⟩
    obtain ⟨sink, hsink, hwell⟩ := hselected index hmem
    refine ⟨sink, hsink, hwell, ?_⟩
    rw [envelope_byteSize (orExhausted_ok hbytes) henvelope]
    exact checkCapacity_ok hcapacity index hmem sink hsink

theorem commit_eq (h : Admits s admission) : commitAdmission ops admission s =
      (.accepted admission.envelope.sequence admission.envelope.byteSize admission.selected.length,
        admitted admission s) := by
  unfold commitAdmission
  dsimp only
  rw [enqueue_eq h.nodup]
  · rfl
  · intro index hmem
    obtain ⟨sink, hsink, -, hroom⟩ := h.selected index hmem
    exact ⟨sink, hsink, hroom.fits⟩

theorem closed_cases (s : RouterState Data) : admissionClosed s = none ∧ s.phase = .started ∨
      ∃ outcome, admissionClosed s = some outcome ∧ outcome.isAccepted = false := by
  unfold admissionClosed
  split
  · exact .inl ⟨rfl, by assumption⟩
  · exact .inr ⟨_, rfl, rfl⟩
  · split <;> exact .inr ⟨_, rfl, rfl⟩
  all_goals exact .inr ⟨_, rfl, rfl⟩

variable {outcome : AdmissionOutcome}

theorem accepted_select : ∀ {rest : List (SinkState Data)} {start enabled : ℕ} {selected : List ℕ},
      selectSinks ops event metadata start enabled selected rest = .error outcome →
      outcome.isAccepted = false
  | [], _, _, _, h => by cases h
  | sink :: rest, start, enabled, selected, h => by
    unfold selectSinks at h
    split at h
    · exact accepted_select h
    · split at h
      · cases h
        rfl
      · split at h
        · cases h
          rfl
        · exact accepted_select h
        · split at h
          · cases h
            rfl
          · exact accepted_select h

theorem accepted_capacity {bytes : ℕ} : ∀ {selected : List ℕ},
      checkCapacity ops sinks bytes selected = .error outcome → outcome.isAccepted = false
  | [], h => by cases h
  | index :: rest, h => by
    unfold checkCapacity at h
    split at h
    · exact accepted_capacity h
    · split at h
      · cases h
        rfl
      · split at h
        · cases h
          rfl
        · exact accepted_capacity h

theorem accepted_room {α : Type} {value : Option α}
    (h : orExhausted ops value message = .error outcome) : outcome.isAccepted = false := by
  cases value with
  | none =>
    cases h
    rfl
  | some value => cases h

theorem accepted_prepare (h : prepare ops run event metadata s = .error outcome) :
    outcome.isAccepted = false := by
  rcases bind_error.mp h with h | ⟨⟨selected, enabledSinks⟩, -, h⟩
  · exact accepted_select h
  rcases bind_error.mp h with h | ⟨bytes, -, h⟩
  · exact accepted_room h
  rcases bind_error.mp h with h | ⟨admittedEvents, -, h⟩
  · exact accepted_room h
  rcases bind_error.mp h with h | ⟨filteredRoutes, -, h⟩
  · exact accepted_room h
  rcases bind_error.mp h with h | ⟨_, -, h⟩
  · exact accepted_capacity h
  rcases bind_error.mp h with h | ⟨nextSequence, -, h⟩
  · exact accepted_room h
  rcases bind_error.mp h with h | ⟨⟨sample, nextSample⟩, -, h⟩
  · exact accepted_room h
  cases henvelope : newEnvelope ops s.nextSequence sample run metadata event with
  | error detail =>
    simp only [henvelope] at h
    cases h
    rfl
  | ok envelope =>
    simp only [henvelope] at h
    cases h

/-- An event is refused and at most counted, or it gets the next sequence and reaches the queues of
all its sinks. -/
theorem admit_cases (ops : ResultOps Data) (run : String) (event : SampleEvent Data)
    (metadata : ResultEventMetadata) (s : RouterState Data) :
    ((admitEvent ops run event metadata s).1.isAccepted = false ∧
      ∃ ignoredEvents, (admitEvent ops run event metadata s).2 = { s with ignoredEvents }) ∨
    ∃ admission, Admits s admission ∧ admitEvent ops run event metadata s =
        (.accepted admission.envelope.sequence admission.envelope.byteSize
          admission.selected.length, admitted admission s) := by
  unfold admitEvent
  rcases closed_cases s with ⟨hclosed, hphase⟩ | ⟨outcome, hclosed, hrefused⟩
  · rw [hclosed]
    cases ops.validate event.result with
    | error source => exact .inl ⟨rfl, s.ignoredEvents, rfl⟩
    | ok value =>
      by_cases hignored : event.result.flags.ignored
      · simp only [hignored, if_true]
        cases checkedAdd usizeMax s.ignoredEvents 1 with
        | none => exact .inl ⟨rfl, s.ignoredEvents, rfl⟩
        | some ignoredEvents => exact .inl ⟨rfl, ignoredEvents, rfl⟩
      · simp only [hignored]
        cases hprepare : prepare ops run event metadata s with
        | error outcome => exact .inl ⟨accepted_prepare hprepare, s.ignoredEvents, rfl⟩
        | ok admission =>
          have hadmits := admits_of_prepare hphase hprepare
          exact .inr ⟨admission, hadmits, commit_eq hadmits⟩
  · rw [hclosed]
    exact .inl ⟨hrefused, s.ignoredEvents, rfl⟩

end

end JmeterRs.Router
