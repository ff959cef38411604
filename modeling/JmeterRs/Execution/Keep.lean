import JmeterRs.Execution.Pipeline

/-!
# What a pipeline run keeps

Every run of a component with a checkpoint is on record from where it is called.  A component that
returns an error or a control signal is rolled back before the pipeline goes on, so the record shows
the state that it found; what a cut leaves behind is what the component had done.
-/

namespace JmeterRs.Execution

open Std
open Controllers (ControlSignal)

section

variable {P : Payload}

/-! ## Records -/

/-- The same state, but for properties that others have written. -/
def View.Same (touched : List String) (before after : View P) : Prop :=
  after.owned = before.owned ∧ ∀ key ∉ touched, after.base key = before.base key

/-- Everything is as it was when the component was entered. -/
def Ended.Restored (record : Ended P) : Prop := record.before.Same record.touched record.after

/-- The component came to its end, or had not changed anything. -/
def Ended.Undoable (record : Ended P) : Prop :=
  record.how = .returned ∨ record.before.Same record.touched record.atEnd

def Ended.Sound (record : Ended P) : Prop :=
  record.how ≠ .ok → (record.Restored ↔ record.Undoable)

/-- The component that is entered with a checkpoint. -/
def PipelineEvent.guarded : PipelineEvent P → Option Component
  | .enter .sampler => none
  | .enter component => some component
  | _ => none

/-- What holds wherever the future is left. -/
structure Accounted (s : Invocation P) : Prop where
  sound : ∀ record ∈ s.close.ended, record.Sound
  entered : s.ended.map (·.component) ++ s.current.toList.map (·.component) =
    s.log.filterMap PipelineEvent.guarded

/-- What holds between the steps of the phases. -/
structure Between (s : Invocation P) : Prop extends Accounted s where
  current : ∀ called, s.current = some called → called.how ≠ .cut

/-- No run of a component is waiting for the pipeline; those of `running` have not ended. -/
structure Idle (running : List Component) (s : Invocation P) : Prop where
  current : s.current = none
  sound : ∀ record ∈ s.ended, record.Sound
  entered : s.ended.map (·.component) ++ running = s.log.filterMap PipelineEvent.guarded

/-- The checkpoint is that of the state. -/
structure Ready (checkpoint : InvocationCheckpoint P) (s : Invocation P) : Prop
    extends Between s where
  view : s.view = ⟨checkpoint.toOwned, checkpoint.properties.base⟩
  tracks : Tracks checkpoint.properties [] s.sample.execution.propertyTransaction s.shared

/-- A component has returned, and its checkpoint tells how to undo it. -/
structure Guarded (checkpoint : InvocationCheckpoint P) (how : HowEnded) (s : Invocation P) :
    Prop where
  called : ∃ called, s.current = some called ∧ called.how = how ∧
    called.before = ⟨checkpoint.toOwned, checkpoint.properties.base⟩
  sound : ∀ record ∈ s.ended, record.Sound
  entered : s.ended.map (·.component) ++ s.current.toList.map (·.component) =
    s.log.filterMap PipelineEvent.guarded
  tracks : Tracks checkpoint.properties s.touched s.sample.execution.propertyTransaction s.shared

/-- A step that leaves the records, and for the last component the state, as they are. -/
structure Still (s s' : Invocation P) : Prop where
  current : s'.current = s.current
  ended : s'.ended = s.ended
  log : s'.log = s.log
  touched : s.touched ⊆ s'.touched
  owned : s'.sample.owned = s.sample.owned
  base : ∀ key ∉ s'.touched, s'.shared.base key = s.shared.base key

variable {s s' : Invocation P} {record : Ended P} {running : List Component}
  {component : Component} {event : PipelineEvent P} {checkpoint : InvocationCheckpoint P}
  {how : HowEnded}

theorem mem_close : record ∈ s.close.ended ↔ record ∈ s.ended ∨
    ∃ called, s.current = some called ∧ record = ⟨called, s.view, s.touched⟩ := by
  simp [Invocation.close, eq_comm]

theorem Between.still (h : Between s) (hstill : Still s s') : Between s' := by
  refine ⟨⟨fun record hrecord => ?_, ?_⟩, ?_⟩
  · rcases mem_close.mp hrecord with hold | ⟨called, hcalled, rfl⟩
    · exact h.sound record (mem_close.mpr (.inl (hstill.ended ▸ hold)))
    · rw [hstill.current] at hcalled
      have hsound := h.sound _ (mem_close.mpr (.inr ⟨called, hcalled, rfl⟩))
      intro hnot
      have hreturned : called.how = .returned := by
        have hcut := h.current called hcalled
        cases hhow : called.how <;> simp_all
      obtain ⟨howned, hbase⟩ := (hsound hnot).mpr (.inl hreturned)
      refine iff_of_true ⟨hstill.owned.trans howned, fun key hkey => ?_⟩ (.inl hreturned)
      exact (hstill.base key hkey).trans (hbase key fun hmem => hkey (hstill.touched hmem))
  · rw [hstill.ended, hstill.current, hstill.log]
    exact h.entered
  · rw [hstill.current]
    exact h.current

theorem close_of_none (h : s.current = none) : s.close.ended = s.ended := by
  simp [Invocation.close, h]

theorem Idle.accounted (h : Idle [] s) : Accounted s := by
  refine ⟨fun record hrecord => h.sound record (close_of_none h.current ▸ hrecord), ?_⟩
  rw [h.current]
  exact h.entered

theorem Idle.between (h : Idle [] s) : Between s :=
  ⟨h.accounted, fun called hcalled => by cases h.current.symm.trans hcalled⟩

theorem Idle.of_eq (h : Idle running s) (hcurrent : s'.current = s.current)
    (hended : s'.ended = s.ended) (hlog : s'.log = s.log) : Idle running s' :=
  ⟨hcurrent.trans h.current, hended ▸ h.sound, by rw [hended, hlog]; exact h.entered⟩

theorem Idle.emit (h : Idle running s) (hevent : event.guarded = none) :
    Idle running (s.emit event) := by
  have hended : (s.emit event).ended = s.ended := close_of_none h.current
  refine ⟨rfl, hended ▸ h.sound, ?_⟩
  rw [hended, h.entered]
  show _ = (s.log ++ [event]).filterMap _
  simp [List.filterMap_append, hevent]

/-- The pipeline goes on: the last component is dealt with. -/
theorem Accounted.emit (h : Accounted s) (hevent : event.guarded = none) :
    Idle [] (s.emit event) := by
  refine ⟨rfl, h.sound, ?_⟩
  show s.close.ended.map _ ++ [] = (s.log ++ [event]).filterMap _
  rw [List.filterMap_append, ← h.entered]
  simp [Invocation.close, hevent]

theorem Guarded.between (h : Guarded checkpoint .ok s) : Between s := by
  obtain ⟨called, hcurrent, hhow, -⟩ := h.called
  refine ⟨⟨fun record hrecord => ?_, h.entered⟩, fun other hother => ?_⟩
  · rcases mem_close.mp hrecord with hold | ⟨other, hother, rfl⟩
    · exact h.sound record hold
    · cases hcurrent.symm.trans hother
      exact fun hnot => absurd hhow hnot
  · cases hcurrent.symm.trans hother
    rw [hhow]
    nofun

/-! ## Steps -/

theorem Tracks.surround
    (h : Tracks checkpoint.properties s.touched s.sample.execution.propertyTransaction s.shared)
    (change : Surrounding) : Tracks checkpoint.properties (s.surround change).touched
      (s.surround change).sample.execution.propertyTransaction (s.surround change).shared := by
  cases change with
  | request signal => exact h
  | requestToken signal => exact h
  | clock now => exact h
  | write key base epoch => exact (h.put key base).of_base fun _ => rfl

theorem still_surround (s : Invocation P) (change : Surrounding) : Still s (s.surround change) := by
  cases change with
  | request signal | requestToken signal | clock now =>
    exact ⟨rfl, rfl, rfl, fun _ h => h, rfl, fun _ _ => rfl⟩
  | write key base epoch =>
    refine ⟨rfl, rfl, rfl, List.subset_cons_self key s.touched, rfl, fun other hother => ?_⟩
    have hne : key ≠ other := fun heq => hother (heq ▸ List.mem_cons_self)
    exact (base_put base).trans (if_neg hne)

theorem Idle.surround (h : Idle running s) (change : Surrounding) :
    Idle running (s.surround change) :=
  h.of_eq (still_surround s change).current (still_surround s change).ended
    (still_surround s change).log

theorem Guarded.surround (h : Guarded checkpoint how s) (change : Surrounding) :
    Guarded checkpoint how (s.surround change) := by
  obtain ⟨hcurrent, hended, hlog, -⟩ := still_surround s change
  refine ⟨hcurrent ▸ h.called, hended ▸ h.sound, ?_, h.tracks.surround change⟩
  rw [hended, hcurrent, hlog]
  exact h.entered

theorem Idle.perform (h : Idle running s) (op : ComponentOp P) : Idle running (s.perform op) := by
  have hchanged (sample : SampleContext P) (shared : SharedProperties) :
      Idle running { s with sample, shared } := h.of_eq rfl rfl rfl
  cases op with
  | setResult result | commit staged => exact (hchanged _ _).emit rfl
  | context op | configure settings | setMutationLimits limits | requestControl signal
  | setRequestValue name value | setRequestState request => exact h.of_eq rfl rfl rfl

theorem Idle.performHook (h : Idle running s) (op : ComponentOp P) :
    Idle running (s.performHook op) := by
  cases op with
  | context op => exact h.perform (.context op)
  | configure settings => exact h.perform (.configure settings)
  | setMutationLimits limits => exact h.perform (.setMutationLimits limits)
  | requestControl signal => exact h.perform (.requestControl signal)
  | setRequestValue name value | setRequestState request | setResult result | commit staged =>
    exact h

section

variable {I : Invocation P → Prop} (hsurround : ∀ s change, I s → I (s.surround change))
  (hscript : ∀ s script, I s → I { s with script })

include hsurround hscript

/-- What the surroundings keep is kept while they settle. -/
theorem settle_keeps (hs : I s) : I s.settle := by
  unfold Invocation.settle
  generalize s.script = script
  induction script generalizing s with
  | nil => exact hscript s [] hs
  | cons act rest ih =>
    cases act with
    | surrounding change => exact ih (hsurround s change hs)
    | proceed | own op | returns result | slept result | poll | drop => exact hscript s _ hs

theorem firstPoll_keeps (script : List (Act P)) : Invariant I (firstPoll script) := by
  intro s hs
  induction script generalizing s with
  | nil => exact hscript s [] hs
  | cons act rest ih =>
    cases act with
    | surrounding change => exact ih _ (hsurround s change hs)
    | proceed | own op | returns result | slept result => exact ih _ hs
    | poll =>
      simp only [firstPoll]
      split_ifs <;> exact hscript s rest hs
    | drop => exact hscript s rest hs

end

theorem Between.settle (h : Between s) : Between s.settle :=
  settle_keeps (fun s change h => h.still (still_surround s change))
    (fun _ _ h => h.still ⟨rfl, rfl, rfl, fun _ h => h, rfl, fun _ _ => rfl⟩) h

theorem Idle.settle (h : Idle running s) : Idle running s.settle :=
  settle_keeps (fun _ change h => h.surround change) (fun _ _ h => h.of_eq rfl rfl rfl) h

theorem Guarded.settle (h : Guarded checkpoint how s) : Guarded checkpoint how s.settle :=
  settle_keeps (fun _ change h => h.surround change)
    (fun _ _ h => ⟨h.called, h.sound, h.entered, h.tracks⟩) h

/-- A part of the phases that keeps the accounts. -/
def Keeps {α : Type} (m : Pipe P α) : Prop :=
  Triple Between m (fun _ => Between) fun _ => Accounted

variable {phase : Phase} {detail : String} {wrap : ComponentError → PipelineError}
  {totalDelay n : ℕ} {start finish : ClockReading} {output : SamplerOutput P}

theorem guarded_take : Triple Between (takeCheckpoint (P := P)) Ready fun _ => Accounted :=
  fun _ hs => ⟨hs.settle.still ⟨rfl, rfl, rfl, fun _ h => h, rfl, fun _ _ => rfl⟩, rfl,
    tracks_checkpoint⟩

section

variable {apply : Invocation P → ComponentOp P → Invocation P} {entered : PipelineEvent P}

theorem call_ok {result : Except ComponentError (Returned P)}
    (h : runActs apply s.script (s.emit entered) = .ok result s') :
    call apply entered component s = .ok result (s'.emit (.left component (isControl result))) := by
  unfold call
  rw [h]

theorem call_error {cut : Cut} (h : runActs apply s.script (s.emit entered) = .error cut s') :
    call apply entered component s = .error cut s' := by
  unfold call
  rw [h]

end

/-- **A component is run.**  From its call on it is on record with the state that it found. -/
theorem guarded_call (hguarded : PipelineEvent.guarded (.enter component : PipelineEvent P) =
      some component) (checkpoint : InvocationCheckpoint P) :
    Triple (Ready checkpoint) (callGuarded component)
      (fun result => Guarded checkpoint (howReturned result)) fun _ => Accounted := by
  intro s hs
  let entered := ({ s.close with touched := [] } : Invocation P).emit (.enter component)
  have hentered : Idle [component] entered := by
    refine ⟨rfl, fun record hrecord => ?_, ?_⟩
    · have hended : entered.ended = s.close.ended := close_of_none rfl
      exact hs.sound record (hended ▸ hrecord)
    · show (s.close.ended ++ []).map _ ++ [component] =
        (s.log ++ [PipelineEvent.enter component]).filterMap _
      rw [List.filterMap_append, ← hs.entered]
      simp [Invocation.close, hguarded]
  have hrun := inv_runActs (fun t : Invocation P => Idle [component] t ∧
      Tracks checkpoint.properties t.touched t.sample.execution.propertyTransaction t.shared)
    (fun _ _ h => ⟨h.1.of_eq rfl rfl rfl, h.2⟩)
    (fun _ change h => ⟨h.1.surround change, h.2.surround change⟩)
    (fun t op h => ⟨h.1.perform op, by
      have htracks := h.2.perform op
      cases op <;> exact htracks⟩) s.script entered ⟨hentered, hs.tracks⟩
  unfold callGuarded
  cases hactions : runActs Invocation.perform s.script entered with
  | ok result s' =>
    rw [hactions] at hrun
    have hleft : Idle [component] (s'.emit (.left component (isControl result))) :=
      hrun.1.emit rfl
    rw [call_ok hactions]
    exact ⟨⟨_, rfl, rfl, hs.view⟩, hleft.sound, hleft.entered, hrun.2⟩
  | error cut s' =>
    rw [hactions] at hrun
    rw [call_error hactions]
    refine ⟨fun record hrecord => ?_, hrun.1.entered⟩
    rcases mem_close.mp hrecord with hold | ⟨called, hcalled, rfl⟩
    · exact hrun.1.sound record hold
    · cases hcalled
      exact fun _ => ⟨.inr, fun h => h.resolve_left (by simp)⟩

/-- **A component is undone.** -/
theorem guarded_rollback {result : Except ComponentError (Returned P)} :
    Triple (Guarded checkpoint (howReturned result)) (rollback checkpoint) (fun _ => Between)
      fun _ => Accounted := by
  intro s hs
  have hsettled := hs.settle
  obtain ⟨called, hcurrent, hhow, hbefore⟩ := hsettled.called
  have hcut : called.how ≠ .cut := by
    rw [hhow]
    cases result <;> nofun
  refine ⟨⟨fun record hrecord => ?_, hsettled.entered⟩, fun other hother => ?_⟩
  · rcases mem_close.mp hrecord with hold | ⟨other, hother, rfl⟩
    · exact hsettled.sound record hold
    · cases hcurrent.symm.trans hother
      intro hnot
      have hreturned : called.how = .returned := by
        cases hcase : called.how <;> first | rfl | exact absurd hcase ‹_›
      refine iff_of_true ⟨?_, fun key hkey => ?_⟩ (.inl hreturned)
      · show _ = called.before.owned
        rw [hbefore]
        rfl
      · show _ = called.before.base key
        rw [hbefore]
        exact hsettled.tracks.rollback hkey
  · cases hcurrent.symm.trans hother
    exact hcut

/-- A step that leaves the records and the state of the component as they are. -/
theorem kept_of_still {α : Type} {m : Pipe P α}
    (h : ∀ s, match m s with
      | .ok _ s' => Still s s'
      | .error _ s' => Still s s') : Keeps m := by
  intro s hs
  have hstill := h s
  cases hm : m s with
  | ok a s' =>
    rw [hm] at hstill
    exact hs.still hstill
  | error e s' =>
    rw [hm] at hstill
    exact (hs.still hstill).toAccounted

theorem kept_signal : Keeps (controlSignal (P := P)) :=
  fun _ hs => (hs.settle.toAccounted.emit rfl).between

theorem kept_request (signal : ControlSignal) : Keeps (requestControl (P := P) signal) :=
  kept_of_still fun _ => ⟨rfl, rfl, rfl, fun _ h => h, rfl, fun _ _ => rfl⟩

theorem idle_request (signal : ControlSignal) :
    Triple (Idle []) (requestControl (P := P) signal) (fun _ => Idle []) fun _ => Accounted :=
  fun _ hs => hs.of_eq rfl rfl rfl

theorem kept_return {α : Type} : Keeps (returnControlled (P := P) (α := α)) :=
  kept_signal.bind fun _ => .throw fun _ h => h.toAccounted

theorem kept_stop : Keeps (checkStop (P := P)) :=
  kept_signal.bind fun _ => .ite (fun _ => kept_return) fun _ => .pure fun _ h => h

theorem kept_clock : Keeps (readClock (P := P)) := fun _ hs => hs.settle

theorem idle_clock : Triple (Idle []) (readClock (P := P)) (fun _ => Idle []) fun _ => Accounted :=
  fun _ hs => hs.settle

theorem kept_deadline (samplerId : ℕ) : Keeps (checkPhaseDeadline (P := P) samplerId) := by
  refine kept_clock.bind fun now => .get fun s hs => .ite (fun _ => ?_) fun _ => ?_
  · exact .throw fun t ht => ht ▸ hs.toAccounted
  · exact .pure fun t ht => ht ▸ hs

theorem kept_record (phase : Phase) (detail : String) (wrap : ComponentError → PipelineError) :
    Keeps (Execution.record (P := P) phase detail wrap) := by
  apply kept_of_still
  intro s
  unfold Execution.record pushTrace
  split_ifs <;> exact ⟨rfl, rfl, rfl, fun _ h => h, rfl, fun _ _ => rfl⟩

theorem kept_begin (samplerId : ℕ) : Keeps (beginPhase (P := P) samplerId phase detail wrap) :=
  (kept_deadline samplerId).bind fun _ => kept_record phase detail wrap

/-- Something that runs without a checkpoint. -/
theorem idle_call {apply : Invocation P → ComponentOp P → Invocation P}
    (happly : ∀ s op, Idle [] s → Idle [] (apply s op)) (hevent : event.guarded = none)
    (component : Component) : Triple Between (liftCut (call apply event component))
      (fun _ => Idle []) fun _ => Accounted := by
  apply triple_liftCut
  intro s hs
  have hrun := inv_runActs (Idle []) (fun _ _ h => h.of_eq rfl rfl rfl)
    (fun _ change h => h.surround change) happly s.script (s.emit event)
    (hs.toAccounted.emit hevent)
  cases hactions : runActs apply s.script (s.emit event) with
  | ok result s' =>
    rw [hactions] at hrun
    rw [call_ok hactions]
    exact hrun.emit rfl
  | error cut s' =>
    rw [hactions] at hrun
    rw [call_error hactions]
    exact hrun.accounted

/-! ## Phases -/

theorem kept_undo {α : Type} (result : Except ComponentError (Returned P)) {m : Pipe P α}
    (hm : Keeps m) : Triple (Guarded checkpoint (howReturned result)) (do rollback checkpoint; m)
      (fun _ => Between) fun _ => Accounted :=
  guarded_rollback.bind fun _ => hm

theorem kept_component {α : Type} {samplerId : ℕ}
    (hguarded : PipelineEvent.guarded (.enter component : PipelineEvent P) = some component)
    {f : InvocationCheckpoint P → Except ComponentError (Returned P) → Pipe P α}
    (h : ∀ checkpoint result, Triple (Guarded checkpoint (howReturned result))
      (f checkpoint result) (fun _ => Between) fun _ => Accounted) :
    Keeps (do
      beginPhase samplerId phase detail wrap
      let checkpoint ← takeCheckpoint
      let result ← callGuarded component
      f checkpoint result) :=
  (kept_begin _).bind fun _ => guarded_take.bind fun checkpoint =>
    (guarded_call hguarded checkpoint).bind fun result => h checkpoint result

theorem kept_prepareLoop (samplerId : ℕ) (label : String) {component : ℕ → Component}
    (hguarded : ∀ index, PipelineEvent.guarded (.enter (component index) : PipelineEvent P) =
      some (component index)) (index : ℕ) :
    Keeps (prepareLoop (P := P) samplerId phase label component wrap n index) := by
  induction n generalizing index with
  | zero => exact .pure fun _ h => h
  | succ n ih =>
    refine kept_component (hguarded index) fun checkpoint result => ?_
    cases result with
    | ok _ => exact (kept_stop.bind fun _ => ih (index + 1)).narrow fun _ h => h.between
    | error error =>
      cases error with
      | control signal => exact kept_undo _ ((kept_request signal).bind fun _ => kept_return)
      | _ => exact kept_undo _ (.throw fun _ h => h.toAccounted)

theorem kept_timerLoop (samplerId : ℕ) (timers : List Bool) (index total : ℕ) :
    Keeps (timerLoop (P := P) samplerId timers index total) := by
  induction timers generalizing index total with
  | nil => exact .pure fun _ h => h
  | cons modifiable rest ih =>
    refine kept_component rfl fun checkpoint result => ?_
    cases result with
    | ok returned =>
      refine .get fun s hs => ?_
      cases hsum : addDelay s.settings modifiable total returned.delay with
      | none =>
        exact (kept_undo (.ok returned) (.throw fun _ h => h.toAccounted)).narrow
          fun t ht => ht ▸ hs
      | some sum =>
        have hrest : Keeps (do
            modify fun s => s.emit (.delayed (sum - total))
            checkStop
            timerLoop (P := P) samplerId rest (index + 1) sum) :=
          Triple.bind (Triple.modify fun _ h => (h.toAccounted.emit rfl).between) fun _ =>
            kept_stop.bind fun _ => ih (index + 1) sum
        exact hrest.narrow fun t ht => ht ▸ hs.between
    | error error =>
      cases error with
      | control signal => exact kept_undo _ ((kept_request signal).bind fun _ => kept_return)
      | _ => exact kept_undo _ (.throw fun _ h => h.toAccounted)

theorem kept_sleepPhase (samplerId : ℕ) : Keeps (sleepPhase (P := P) samplerId totalDelay) := by
  have hsleep : Keeps (liftCut fun s : Invocation P =>
      sleepActs false s.script (s.emit (.sleep totalDelay))) := by
    apply triple_liftCut
    intro s hs
    have hrun := inv_sleepActs (Idle []) (fun _ _ h => h.of_eq rfl rfl rfl)
      (fun _ change h => h.surround change) false s.script (s.emit (.sleep totalDelay))
      (hs.toAccounted.emit rfl)
    show Meets _ _ (sleepActs false s.script (s.emit (.sleep totalDelay)))
    cases hactions : sleepActs false s.script (s.emit (.sleep totalDelay)) with
    | ok result s' =>
      rw [hactions] at hrun
      exact hrun.between
    | error cut s' =>
      rw [hactions] at hrun
      exact hrun.accounted
  refine .ite (fun _ => .pure fun _ h => h) fun _ => ?_
  refine (kept_deadline samplerId).bind fun _ => hsleep.bind fun result => ?_
  match result with
  | .ok _ => exact .pure fun _ h => h
  | .error (.control signal) => exact (kept_request signal).bind fun _ => kept_return
  | .error (.failure _) | .error (.unsupported _) | .error (.resourceLimit _) =>
    exact .throw fun _ h => h.toAccounted

theorem kept_continue : Keeps (checkContinue (P := P)) :=
  kept_signal.bind fun _ => .ite (fun _ => .throw fun _ h => h.toAccounted) fun _ =>
    .pure fun _ h => h

theorem idle_sampler (samplerId : ℕ) : Triple Between (samplerPhase (P := P) samplerId)
      (fun _ => Idle []) fun _ => Accounted := by
  refine kept_clock.bind fun start => (kept_begin _).bind fun _ =>
    (idle_call (fun _ op h => h.perform op) rfl _).bind fun result => ?_
  cases result with
  | ok returned =>
    refine idle_clock.bind fun _ => (idle_request _).bind fun _ =>
      Triple.bind (Triple.modify fun s hs => ?_) fun _ => .pure fun _ h => h
    exact Idle.emit (s := { s with sample.result := returned.output.result })
      (hs.of_eq rfl rfl rfl) rfl
  | error error =>
    cases error with
    | control signal =>
      refine (idle_request signal).bind fun _ => kept_signal.narrow (fun _ h => h.between) |>.bind
        fun _ => .throw fun _ h => h.toAccounted
    | _ => exact .throw fun _ h => h.accounted

theorem kept_timing (samplerId : ℕ) :
    Triple (Idle []) (updateResultTiming (P := P) samplerId start finish) (fun _ => Between)
      fun _ => Accounted := by
  intro s hs
  unfold updateResultTiming
  cases timedResult s.settings s.sample.result start finish with
  | error source => exact hs.accounted
  | ok result =>
    have htimed : Idle [] { s with sample.result := some result } := hs.of_eq rfl rfl rfl
    exact htimed.between

theorem kept_post (samplerId index : ℕ) :
    Keeps (postprocessorLoop (P := P) samplerId n index) := by
  induction n generalizing index with
  | zero => exact .pure fun _ h => h
  | succ n ih =>
    refine kept_component rfl fun checkpoint result => ?_
    cases result with
    | ok _ => exact (ih (index + 1)).narrow fun _ h => h.between
    | error error =>
      cases error with
      | control signal => exact kept_undo _ (kept_request signal)
      | _ => exact kept_undo _ (.throw fun _ h => h.toAccounted)

theorem kept_assertions (samplerId index : ℕ) :
    Keeps (assertionLoop (P := P) samplerId n index) := by
  induction n generalizing index with
  | zero => exact .pure fun _ h => h
  | succ n ih =>
    refine kept_component rfl fun checkpoint result => ?_
    cases result with
    | ok returned =>
      refine .get fun s hs => ?_
      cases hresult : s.sample.result with
      | none =>
        exact (kept_undo (.ok returned) (.throw fun _ h => h.toAccounted)).narrow
          fun t ht => ht ▸ hs
      | some result =>
        -- the component has returned `Ok`, so what the pipeline adds is not its own
        have hadded : Guarded checkpoint .ok { s with
            sample.result := some (appendAssertionResult result returned.assertion) } :=
          ⟨hs.called, hs.sound, hs.entered, hs.tracks⟩
        exact Triple.bind (Triple.set fun _ _ => (hadded.between.toAccounted.emit rfl).between)
          fun _ => ih (index + 1)
    | error error =>
      cases error with
      | control signal => exact kept_undo _ (kept_request signal)
      | _ => exact kept_undo _ (.throw fun _ h => h.toAccounted)

theorem kept_snapshot (samplerId : ℕ) : Keeps (snapshotEvent (P := P) samplerId) := by
  intro s hs
  unfold snapshotEvent
  cases eventOf s with
  | error source => exact hs.toAccounted
  | ok event => exact (hs.toAccounted.emit rfl).between

theorem kept_listeners (samplerId index : ℕ) (event : P.Event) :
    Keeps (listenerLoop samplerId event n index) := by
  induction n generalizing index with
  | zero => exact .pure fun _ h => h
  | succ n ih =>
    refine (kept_begin _).bind fun _ =>
      ((idle_call (fun _ _ h => h) rfl _).weaken (fun _ h => h) (fun _ _ h => h.between)
        fun _ _ h => h).bind fun result => ?_
    cases result with
    | ok _ => exact ih (index + 1)
    | error error =>
      cases error with
      | control signal => exact kept_request signal
      | _ => exact .throw fun _ h => h.toAccounted

theorem kept_currentResult : Keeps (currentResult (P := P)) :=
  kept_of_still fun _ => ⟨rfl, rfl, rfl, fun _ h => h, rfl, fun _ _ => rfl⟩

section

variable (package : SamplePackage)

theorem kept_finalReport (event : P.Event) :
    Keeps (finalReport package totalDelay output event) :=
  kept_currentResult.bind fun _ => (kept_request _).bind fun _ =>
    kept_signal.bind fun _ => .pure fun _ h => h

theorem kept_results : Triple (Idle []) (resultPhases package totalDelay output start finish)
      (fun _ => Between) fun _ => Accounted :=
  (kept_timing _).bind fun _ => (kept_post _ _).bind fun _ => (kept_assertions _ _).bind fun _ =>
    (kept_snapshot _).bind fun event => (kept_listeners _ _ event).bind fun _ =>
    kept_finalReport _ event

theorem kept_execute : Triple (Idle []) (executePhases (P := P) package) (fun _ => Between)
      fun _ => Accounted := by
  have hnew : Triple (Idle []) (modify fun s : Invocation P =>
      { s with sample := .new s.sample.execution }) (fun _ => Between)
      fun (_ : Exit) => Accounted :=
    .modify fun s hs => Idle.between (hs.of_eq rfl rfl rfl)
  refine hnew.bind fun _ => (kept_deadline _).bind fun _ => kept_stop.bind fun _ =>
    (kept_prepareLoop _ _ (fun _ => rfl) _).bind fun _ =>
    (kept_prepareLoop _ _ (fun _ => rfl) _).bind fun _ =>
    (kept_timerLoop _ _ _ _).bind fun totalDelay => kept_stop.bind fun _ =>
    (kept_sleepPhase _).bind fun _ => kept_continue.bind fun _ =>
    (idle_sampler _).bind fun (output, start, finish) => ?_
  dsimp only
  cases hresult : output.result with
  | none =>
    exact (kept_signal.narrow fun _ h => h.between).bind fun _ => .pure fun _ h => h
  | some result => exact (idle_request _).bind fun _ => kept_results _

end

/-! ## The future -/

theorem idle_attempt (package : SamplePackage) :
    Triple (Idle []) (attempt (P := P) package (executePhases package)) (fun _ => Idle [])
      fun _ => Accounted := by
  intro s hs
  have hrun := kept_execute package s hs
  unfold attempt
  cases hphases : executePhases package s with
  | ok report s' =>
    rw [hphases] at hrun
    exact hrun.toAccounted.emit rfl
  | error exit s' =>
    rw [hphases] at hrun
    cases exit with
    | controlled signal | failed error => exact hrun.emit rfl
    | cut cut => exact hrun

theorem idle_hook (phase : Phase) (hevent : event.guarded = none) :
    Triple (Idle []) (hook phase detail event) (fun _ => Idle []) fun _ => Accounted := by
  have hhook : Triple (Idle []) (hook phase detail event) (fun _ => Idle []) fun _ => Idle [] := by
    refine triple_hook (fun _ _ h => h.of_eq rfl rfl rfl) fun s hs => ?_
    rintro _ rfl
    exact inv_runActs (Idle []) (fun _ _ h => h.of_eq rfl rfl rfl)
      (fun _ change h => h.surround change) (fun _ op h => h.performHook op) s.script
      (s.emit event) (hs.emit hevent)
  exact hhook.weaken (fun _ h => h) (fun _ _ h => h) fun _ _ h => h.accounted

theorem idle_inner (package : SamplePackage) :
    Triple (Idle []) (inner (P := P) package) (fun _ => Idle []) fun _ => Accounted := by
  refine (idle_attempt package).bind fun primary => ?_
  cases primary with
  | ok report =>
    exact (idle_hook _ rfl).bind fun _ => (idle_hook _ rfl).bind fun _ => .pure fun _ h => h
  | error error =>
    exact Triple.bind (Triple.pure fun _ h => h) fun _ => (idle_hook _ rfl).bind fun _ =>
      .pure fun _ h => h

theorem idle_polled (package : SamplePackage) :
    Triple (Idle []) (do (fun s => firstPoll s.script s : Future P Unit); inner package)
      (fun _ => Idle []) fun _ => Accounted := by
  have hfirst : Triple (Idle []) (fun s => firstPoll s.script s : Future P Unit)
      (fun _ => Idle []) fun _ => Accounted := by
    intro s hs
    have hpoll := firstPoll_keeps (fun _ change h => h.surround change)
      (fun _ _ h => h.of_eq rfl rfl rfl) s.script s hs
    show Meets _ _ (firstPoll s.script s)
    cases hresult : firstPoll s.script s with
    | ok value s' =>
      rw [hresult] at hpoll
      exact hpoll
    | error cut s' =>
      rw [hresult] at hpoll
      exact hpoll.accounted
  exact hfirst.bind fun _ => idle_inner package

end

end JmeterRs.Execution
