import JmeterRs.Router.Flow

/-!
# Conservation

Every pair of an accepted event and a selected sink is delivered, dropped or queued, as long as the
counters of the router do not overflow.
-/

namespace JmeterRs.Router

open List RouterState

open Execution (SampleEvent)

section

variable {Data : Type}

structure Balanced (s : RouterState Data) : Prop where
  conserved : Conserved s
  load : load s ≤ usizeMax

/-- An enabled sink whose route an event matches. -/
def SinkState.takes (ops : ResultOps Data) (event : SampleEvent Data)
    (metadata : ResultEventMetadata) (sink : SinkState Data) : Bool :=
  sink.spec.route.enabled &&
    (sink.spec.route.matchesMetadata ops event metadata).toOption = some true

/-- The router has no ground to refuse an event. -/
structure Admissible (ops : ResultOps Data) (run : String) (event : SampleEvent Data)
    (metadata : ResultEventMetadata) (s : RouterState Data) : Prop where
  phase : s.phase = .started
  valid : ops.validate event.result = .ok ()
  counted : event.result.flags.ignored = false
  routes : ∀ sink ∈ s.sinks, sink.spec.route.enabled →
    ∃ taken, sink.spec.route.matchesMetadata ops event metadata = .ok taken
  room : ∀ sink ∈ s.sinks, sink.takes ops event metadata → sink.failed = none ∧
    ∃ bytes, checkedEventBytes ops event metadata.planPath.length = some bytes ∧ sink.HasRoom bytes
  envelope : ∃ sample, checkEnvelope ops s.nextSequence sample run metadata event = .ok ()
  admittedEvents : s.admittedEvents + 1 ≤ usizeMax
  nextSequence : s.nextSequence + 1 ≤ u64Max

/-- The counters hold what an admission adds. -/
def Fits (ops : ResultOps Data) (run : String) (w : World Data) : Act Data → Prop
  | .admitEvent event metadata => Admissible ops run event metadata w.state →
    load w.state + w.state.sinks.countP (·.takes ops event metadata) ≤ usizeMax
  | _ => True

variable {s s' : RouterState Data}

/-! ## Counting -/

theorem sum_map_modify {α : Type} (g : α → ℕ) (f : α → α) :
    ∀ {l : List α} {i : ℕ} {a : α}, l[i]? = some a →
      ((l.modify i f).map g).sum + g a = (l.map g).sum + g (f a)
  | first :: rest, 0, a, h => by
    cases h
    simp only [modify_zero_cons, map_cons, sum_cons]
    omega
  | first :: rest, i + 1, a, h => by
    have ih := sum_map_modify g f (l := rest) (i := i) (a := a) (by simpa using h)
    simp only [modify_succ_cons, map_cons, sum_cons]
    omega

variable {sink : SinkState Data}

theorem queued_modify {index : ℕ} {f : SinkState Data → SinkState Data}
    (hsink : s.sinks[index]? = some sink) : queuedItems (s.modifySink index f) + sink.queue.length =
      queuedItems s + (f sink).queue.length :=
  sum_map_modify (·.queue.length) f hsink

theorem length_le_queued {index : ℕ} (hsink : s.sinks[index]? = some sink) :
    sink.queue.length ≤ queuedItems s := by
  have hcleared := queued_modify (f := fun sink => { sink with queue := [] }) hsink
  simp only [length_nil] at hcleared
  omega

theorem queued_eq_zero : queuedItems s = 0 ↔ NoQueue s := by
  unfold queuedItems NoQueue
  induction s.sinks with
  | nil => simp
  | cons sink rest ih => simp [ih]

theorem foldlM_add {max : ℕ} : ∀ {sinks : List (SinkState Data)} {total : ℕ},
      total + (sinks.map (·.queue.length)).sum ≤ max →
      sinks.foldlM (fun total sink => checkedAdd max total sink.queue.length) total =
        some (total + (sinks.map (·.queue.length)).sum)
  | [], total, _ => by simp
  | sink :: rest, total, h => by
    rw [map_cons, sum_cons] at h ⊢
    rw [foldlM_cons, checkedAdd_le (by omega)]
    show rest.foldlM _ (total + sink.queue.length) = _
    rw [foldlM_add (by omega)]
    congr 1
    omega

theorem queued_enqueued {envelope : ResultEnvelope Data} :
    ∀ {selected : List ℕ} {sinks : List (SinkState Data)}, selected.Nodup →
      (∀ index ∈ selected, index < sinks.length) →
      ((enqueued envelope selected sinks).map (·.queue.length)).sum =
        (sinks.map (·.queue.length)).sum + selected.length
  | [], sinks, _, _ => by
    have hsame : enqueued envelope [] sinks = sinks := by
      apply ext_getElem?
      intro i
      rw [get?_enqueued]
      cases sinks[i]? <;> simp
    rw [hsame]
    rfl
  | index :: rest, sinks, hnodup, hrange => by
    obtain ⟨hindex, hrest⟩ := nodup_cons.mp hnodup
    have hlt := hrange index mem_cons_self
    have hpush := sum_map_modify (fun sink : SinkState Data => sink.queue.length)
      (SinkState.push envelope) (getElem?_eq_getElem hlt)
    have hkept : ∀ other ∈ rest, other < (sinks.modify index (SinkState.push envelope)).length := by
      intro other hother
      rw [length_modify]
      exact hrange other (.tail _ hother)
    have ih := @queued_enqueued envelope rest _ hrest hkept
    rw [← modify_enqueued hindex, ih, length_cons]
    have hlength : (sinks[index].push envelope).queue.length = sinks[index].queue.length + 1 := by
      simp [SinkState.push]
    omega

/-! ## Steps -/

section

variable (h : Balanced s)

include h

theorem Balanced.still (hstill : Still s s') : Balanced s' where
  conserved := by
    unfold Conserved
    rw [hstill.accepted_eq, hstill.load_eq]
    exact h.conserved
  load := by
    rw [hstill.load_eq]
    exact h.load

/-- Nothing is accepted, and what leaves the queues is counted. -/
theorem Balanced.frame (hacc : accepted s'.log = accepted s.log)
    (hload : Router.load s' = Router.load s) : Balanced s' where
  conserved := by
    unfold Conserved
    rw [hacc, hload]
    exact h.conserved
  load := by
    rw [hload]
    exact h.load

theorem Balanced.failWrite (index : ℕ) (source : SinkError) :
    Balanced (failWrite index source s) := by
  refine h.frame ?_ ?_
  · simp [Router.failWrite, failSink, emit, modifySink, accepted]
  have hload := h.load
  unfold Router.load at hload
  set cleared := s.modifySink index fun sink => { sink with queue := [], queuedBytes := 0 }
    with hcleared
  set dropped := (s.sinks[index]?).elim 0 (·.queue.length) with hdropped
  have hitems : queuedItems cleared + dropped = queuedItems s := by
    cases hsink : s.sinks[index]? with
    | none =>
      have hsame : cleared.sinks = s.sinks := by
        apply ext_getElem?
        intro i
        rw [hcleared, get?_modifySink]
        by_cases hi : index = i
        · rw [if_pos hi, ← hi, hsink]
          rfl
        · rw [if_neg hi]
      rw [hdropped, hsink]
      unfold queuedItems
      rw [hsame]
      rfl
    | some sink =>
      have hmodified := queued_modify (f := fun sink =>
        { sink with queue := [], queuedBytes := 0 }) hsink
      rw [hdropped, hsink]
      exact hmodified
  have hdrops : checkedAdd usizeMax s.terminalDrops dropped = some (s.terminalDrops + dropped) :=
    checkedAdd_le (by omega)
  have hstill := still_failSink { cleared with
    terminalDrops := (checkedAdd usizeMax s.terminalDrops dropped).getD s.terminalDrops
    phase := .failed } index source
  show Router.load (failSink index source _) = _
  rw [hstill.load_eq]
  unfold Router.load
  show s.deliveredItems + (checkedAdd usizeMax s.terminalDrops dropped).getD s.terminalDrops +
    queuedItems cleared = _
  rw [hdrops, Option.getD_some]
  omega

/-- The envelope at the front of a queue leaves room in the counter of the delivered ones. -/
theorem Balanced.delivered {index : ℕ} {item : QueuedEnvelope Data}
    (hsink : s.sinks[index]? = some sink) (hhead : sink.queue.head? = some item) :
    checkedAdd usizeMax s.deliveredItems 1 = some (s.deliveredItems + 1) ∧
      Balanced { popFront index item s with deliveredItems := s.deliveredItems + 1 } := by
  have hload := h.load
  unfold Router.load at hload
  have hpositive : 0 < sink.queue.length := by
    obtain ⟨rest, hqueue⟩ := head?_eq_some_iff.mp hhead
    simp [hqueue]
  have hle := length_le_queued hsink
  have hitems := queued_modify (f := fun sink =>
    { sink with queue := sink.queue.tail, queuedBytes := sink.queuedBytes - item.bytes }) hsink
  rw [length_tail] at hitems
  refine ⟨checkedAdd_le (by omega), h.frame rfl ?_⟩
  unfold Router.load
  show s.deliveredItems + 1 + s.terminalDrops + queuedItems (s.modifySink index _) = _
  omega

/-- The counts of a release do not overflow. -/
theorem Balanced.released :
    s.sinks.foldlM (fun total sink => checkedAdd usizeMax total sink.queue.length) 0 =
        some (0 + queuedItems s) ∧ checkedAdd usizeMax s.terminalDrops (0 + queuedItems s) =
        some (s.terminalDrops + (0 + queuedItems s)) := by
  have hload := h.load
  unfold Router.load at hload
  exact ⟨foldlM_add (by unfold queuedItems at hload; omega), checkedAdd_le (by omega)⟩

theorem Balanced.releaseAll : Balanced (releaseAll s) := by
  refine h.frame accepted_release ?_
  obtain ⟨hreleased, hdrops⟩ := h.released
  have hitems : queuedItems (Router.releaseAll s) = 0 := queued_eq_zero.mpr noQueue_free
  unfold Router.load
  rw [hitems]
  show s.deliveredItems + ((s.sinks.foldlM (fun total sink =>
    checkedAdd usizeMax total sink.queue.length) 0).bind
      (checkedAdd usizeMax s.terminalDrops)).getD s.terminalDrops + 0 = _
  rw [hreleased, Option.bind_some, hdrops, Option.getD_some]
  omega

theorem Balanced.admitted {admission : Admission Data}
    (hadm : Admits s admission) (hfits : Router.load s + admission.selected.length ≤ usizeMax) :
    Balanced (admitted admission s) := by
  have hitems : queuedItems (Router.admitted admission s) =
      queuedItems s + admission.selected.length := by
    refine queued_enqueued hadm.nodup fun index hmem => ?_
    obtain ⟨sink, hsink, -⟩ := hadm.selected index hmem
    exact (List.getElem?_eq_some_iff.mp hsink).1
  have hload : Router.load (Router.admitted admission s) =
      Router.load s + admission.selected.length := by
    unfold Router.load
    rw [hitems]
    show s.deliveredItems + s.terminalDrops + _ = _
    omega
  refine ⟨?_, by omega⟩
  have hconserved := h.conserved
  unfold Conserved at hconserved ⊢
  rw [accepted_admitted, hload, map_append, sum_append, hconserved]
  simp

end

/-! ## Admissible events -/

section

variable {ops : ResultOps Data} {event : SampleEvent Data} {metadata : ResultEventMetadata}

/-- The sinks from `start` on that take an event. -/
def takers (ops : ResultOps Data) (event : SampleEvent Data) (metadata : ResultEventMetadata)
    (start : ℕ) (rest : List (SinkState Data)) : List ℕ :=
  ((rest.zipIdx start).filter (·.1.takes ops event metadata)).map (·.2)

theorem length_takers {start : ℕ} {rest : List (SinkState Data)} :
    (takers ops event metadata start rest).length =
      rest.countP (·.takes ops event metadata) := by
  unfold takers
  induction rest generalizing start with
  | nil => rfl
  | cons sink rest ih =>
    rw [zipIdx_cons, filter_cons, countP_cons]
    split <;> simp [ih]

theorem mem_takers {index : ℕ} {sink : SinkState Data} {sinks : List (SinkState Data)}
    (hsink : sinks[index]? = some sink) (htakes : sink.takes ops event metadata) :
    index ∈ takers ops event metadata 0 sinks := by
  refine mem_map.mpr ⟨(sink, index), mem_filter.mpr ⟨?_, htakes⟩, rfl⟩
  exact mk_mem_zipIdx_iff_getElem?.mpr hsink

theorem selectSinks_takers {rest : List (SinkState Data)} {start enabled enabled' : ℕ}
    {selected selected' : List ℕ}
    (h : selectSinks ops event metadata start enabled selected rest = .ok (selected', enabled')) :
    selected' = selected ++ takers ops event metadata start rest ∧
      ∀ sink ∈ rest, sink.spec.route.enabled →
        ∃ taken, sink.spec.route.matchesMetadata ops event metadata = .ok taken ∧
          (taken → sink.failed = none) := by
  induction rest generalizing start enabled selected with
  | nil =>
    cases h
    exact ⟨(append_nil _).symm, fun _ hmem => absurd hmem not_mem_nil⟩
  | cons sink rest ih =>
    have hskip (hnot : sink.takes ops event metadata = false) :
        takers ops event metadata start (sink :: rest) =
          takers ops event metadata (start + 1) rest := by
      unfold takers
      rw [zipIdx_cons, filter_cons_of_neg (by simp [hnot])]
    unfold selectSinks at h
    split at h
    · next hdisabled =>
      obtain ⟨hselected, hroutes⟩ := ih h
      have hoff : sink.spec.route.enabled = false := by simpa using hdisabled
      rw [hskip (by simp [SinkState.takes, hoff])]
      exact ⟨hselected, forall_mem_cons.mpr ⟨fun hon => by simp [hoff] at hon, hroutes⟩⟩
    · next henabled =>
      have hon : sink.spec.route.enabled = true := by simpa using henabled
      split at h
      · cases h
      · split at h
        · cases h
        · next hmatch =>
          obtain ⟨hselected, hroutes⟩ := ih h
          rw [hskip (by simp [SinkState.takes, hmatch, Except.toOption])]
          refine ⟨hselected, forall_mem_cons.mpr ⟨fun _ => ⟨false, hmatch, ?_⟩, hroutes⟩⟩
          exact (absurd · Bool.false_ne_true)
        · next hmatch =>
          split at h
          · cases h
          · next hfailed =>
            obtain ⟨hselected, hroutes⟩ := ih h
            refine ⟨?_, forall_mem_cons.mpr ⟨fun _ => ⟨true, hmatch, fun _ => hfailed⟩, hroutes⟩⟩
            rw [hselected, append_assoc, singleton_append]
            unfold takers
            rw [zipIdx_cons, filter_cons_of_pos]
            · rfl
            · simp [SinkState.takes, hon, hmatch, Except.toOption]

theorem prepare_of_accepted {run : String} {sequence bytes count : ℕ}
    (h : (admitEvent ops run event metadata s).1 = .accepted sequence bytes count) :
    s.phase = .started ∧ ops.validate event.result = .ok () ∧
      event.result.flags.ignored = false ∧
      ∃ admission, prepare ops run event metadata s = .ok admission ∧
        count = admission.selected.length := by
  unfold admitEvent at h
  rcases closed_cases s with ⟨hopen, hphase⟩ | ⟨outcome, hclosed, hrefused⟩
  · rw [hopen] at h
    refine ⟨hphase, ?_⟩
    cases hvalid : ops.validate event.result with
    | error source =>
      rw [hvalid] at h
      cases h
    | ok value =>
      rw [hvalid] at h
      cases hignored : event.result.flags.ignored with
      | true =>
        simp only [hignored, if_true] at h
        cases hroom : checkedAdd usizeMax s.ignoredEvents 1 <;> rw [hroom] at h <;> cases h
      | false =>
        simp only [hignored, Bool.false_eq_true, if_false] at h
        refine ⟨rfl, rfl, ?_⟩
        cases hprepare : prepare ops run event metadata s with
        | error outcome =>
          have hrefused := accepted_prepare hprepare
          simp only [hprepare] at h
          rw [h] at hrefused
          cases hrefused
        | ok admission =>
          simp only [hprepare, commit_eq (admits_of_prepare hphase hprepare)] at h
          cases h
          exact ⟨admission, rfl, rfl⟩
  · rw [hclosed] at h
    simp only at h
    rw [h] at hrefused
    cases hrefused

/-- Only an admissible event is accepted, and by all the sinks that take it. -/
theorem admissible_of_accepted {run : String} {sequence bytes count : ℕ}
    (h : (admitEvent ops run event metadata s).1 = .accepted sequence bytes count) :
    Admissible ops run event metadata s ∧
      count = s.sinks.countP (·.takes ops event metadata) := by
  obtain ⟨hphase, hvalid, hcounted, admission, hprepare, rfl⟩ := prepare_of_accepted h
  obtain ⟨⟨selected, enabledSinks⟩, hselect, hnext⟩ := bind_ok.mp hprepare
  obtain ⟨bytes, hbytes, hnext⟩ := bind_ok.mp hnext
  obtain ⟨admittedEvents, hadmitted, hnext⟩ := bind_ok.mp hnext
  obtain ⟨filteredRoutes, -, hnext⟩ := bind_ok.mp hnext
  obtain ⟨_, hcapacity, hnext⟩ := bind_ok.mp hnext
  obtain ⟨nextSequence, hsequence, hnext⟩ := bind_ok.mp hnext
  obtain ⟨⟨sample, nextSample⟩, -, hnext⟩ := bind_ok.mp hnext
  obtain ⟨hselected, hroutes⟩ := selectSinks_takers hselect
  cases henvelope : newEnvelope ops s.nextSequence sample run metadata event with
  | error detail =>
    simp only [henvelope] at hnext
    cases hnext
  | ok envelope =>
    simp only [henvelope] at hnext
    cases hnext
    refine ⟨⟨hphase, hvalid, hcounted, fun sink hmem hon => ?_, fun sink hmem htakes => ?_,
      ⟨sample, ?_⟩, ?_, ?_⟩, ?_⟩
    · obtain ⟨taken, hmatch, -⟩ := hroutes sink hmem hon
      exact ⟨taken, hmatch⟩
    · obtain ⟨hon, hmatch⟩ := Bool.and_eq_true_iff.mp htakes
      obtain ⟨taken, hequal, hfailed⟩ := hroutes sink hmem hon
      rw [hequal] at hmatch
      obtain ⟨index, hsink⟩ := mem_iff_getElem?.mp hmem
      refine ⟨hfailed (by simpa [Except.toOption] using hmatch), bytes,
        orExhausted_ok hbytes, checkCapacity_ok hcapacity index ?_ sink hsink⟩
      rw [hselected]
      exact mem_takers hsink htakes
    · obtain ⟨_, hcheck, -⟩ := bind_ok.mp henvelope
      exact hcheck
    · have hsum := checkedAdd_some.mp (orExhausted_ok hadmitted)
      omega
    · have hsum := checkedAdd_some.mp (orExhausted_ok hsequence)
      omega
    · rw [hselected, nil_append, length_takers]

end

theorem stable_balanced : Stable fun s : RouterState Data => Balanced s where
  still h hstill := h.still hstill
  wrote _ _ _ h := h.frame (by simp [emit, accepted]) rfl
  failWrite index source h := h.failWrite index source
  pop h hsink hhead := by
    obtain ⟨hcount, hpopped⟩ := h.delivered hsink hhead
    rw [hcount]
    exact hpopped
  releaseAll h := h.releaseAll

theorem Balanced.step {w : World Data} (h : Balanced w.state) (ops : ResultOps Data) (run : String)
    (act : Act Data) (hfits : Fits ops run w act) : Balanced (w.step ops run act).state := by
  refine stable_balanced.step (fun event metadata admission hact hadm hacc => ?_) h
  subst hact
  obtain ⟨hadmissible, hcount⟩ := admissible_of_accepted hacc
  refine h.admitted hadm ?_
  rw [hcount]
  exact hfits hadmissible

theorem balanced_initial {specs : List SinkSpec} : Balanced (initial specs : RouterState Data) := by
  have hitems : queuedItems (initial specs : RouterState Data) = 0 :=
    queued_eq_zero.mpr (flow_initial.written.new rfl)
  have hload : load (initial specs : RouterState Data) = 0 := by
    unfold load
    rw [hitems]
    rfl
  refine ⟨?_, by omega⟩
  unfold Conserved
  rw [hload]
  rfl

end

end JmeterRs.Router
