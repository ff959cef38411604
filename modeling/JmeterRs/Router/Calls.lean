import JmeterRs.Router.Admission
import JmeterRs.Router.Closing

/-!
# Every sink is called once for each operation

`flush`, `finish` and `cancel` have a flag in the state of a sink.  `start` has none: a start is
tried by one future only, which goes through the sinks in order.
-/

namespace JmeterRs.Router

open List SinkState

section

variable {Data : Type}

def OnceCalled (before : List RouterEvent) (event : RouterEvent) : Prop :=
  ∀ sink operation, event = .called sink operation → .called sink operation ∉ before

def SinkState.flag (sink : SinkState Data) : SinkOperation → Bool
  | .start => true
  | .flush => sink.flushCalled
  | .finish => sink.finishCalled
  | .cancel => sink.cancelCalled

def RouterEvent.isCall : RouterEvent → Bool
  | .called .. => true
  | _ => false

/-- No call comes twice, and the flags know of the calls so far. -/
structure Calls (s : RouterState Data) : Prop where
  once : Stepwise OnceCalled s.log
  flagged : ∀ {index operation sink}, .called index operation ∈ s.log →
    s.sinks[index]? = some sink → sink.flag operation

/-- The flags are kept. -/
def Flagged (s s' : RouterState Data) : Prop :=
  ∀ {i : ℕ} {b : SinkState Data}, s'.sinks[i]? = some b →
    ∃ a, s.sinks[i]? = some a ∧ ∀ operation, a.flag operation → b.flag operation

variable {s s' : RouterState Data}

theorem flagged_of_eq (h : s'.sinks = s.sinks) : Flagged s s' := by
  intro i b hb
  exact ⟨b, h ▸ hb, fun _ h => h⟩

variable {f : SinkState Data → SinkState Data} {index task : ℕ} {w : World Data}

theorem flagged_modify (s : RouterState Data) (index : ℕ)
    (hf : ∀ a : SinkState Data, ∀ operation, a.flag operation → (f a).flag operation) :
    Flagged s (s.modifySink index f) := by
  intro i b hb
  obtain ⟨a, ha, ⟨-, rfl⟩ | ⟨-, rfl⟩⟩ := of_modify hb
  · exact ⟨a, ha, hf a⟩
  · exact ⟨b, ha, fun _ h => h⟩

theorem Calls.frame (h : Calls s) (hflags : Flagged s s') (hlog : s'.log = s.log) : Calls s' where
  once := hlog ▸ h.once
  flagged hcalled hb := by
    rw [hlog] at hcalled
    obtain ⟨a, ha, hab⟩ := hflags hb
    exact hab _ (h.flagged hcalled ha)

theorem Calls.note (h : Calls s) (hflags : Flagged s s') {event : RouterEvent}
    (hlog : s'.log = s.log ++ [event]) (hcall : event.isCall = false) : Calls s' where
  once := by
    rw [hlog]
    refine h.once.concat fun index operation he => ?_
    rw [he] at hcall
    cases hcall
  flagged {index operation b} hcalled hb := by
    rw [hlog, mem_append, mem_singleton] at hcalled
    rcases hcalled with hcalled | rfl
    · obtain ⟨a, ha, hab⟩ := hflags hb
      exact hab _ (h.flagged hcalled ha)
    · cases hcall

theorem Calls.mark (h : Calls s) {operation : SinkOperation}
    (hf : ∀ (a : SinkState Data) other, (f a).flag other ↔ a.flag other ∨ other = operation)
    (hfresh : .called index operation ∉ s.log) :
    Calls ((s.modifySink index f).emit (.called index operation)) where
  once := h.once.concat fun i o he => by
    cases he
    exact hfresh
  flagged {i o b} hcalled hb := by
    have hmod : (s.modifySink index f).sinks[i]? = some b := hb
    rcases mem_emit.mp hcalled with hcalled | hcalled
    · obtain ⟨a, ha, hab⟩ := flagged_modify s index (fun a o h => (hf a o).mpr (.inl h)) hmod
      exact hab _ (h.flagged hcalled ha)
    · cases hcalled
      obtain ⟨a, -, ⟨-, rfl⟩ | ⟨hne, -⟩⟩ := of_modify hmod
      · exact (hf a operation).mpr (.inr rfl)
      · exact absurd rfl hne

theorem Calls.fresh (h : Calls s) {operation : SinkOperation} {sink : SinkState Data}
    (hsink : s.sinks[index]? = some sink) (hflag : sink.flag operation = false) :
    .called index operation ∉ s.log := by
  intro hcalled
  rw [h.flagged hcalled hsink] at hflag
  cases hflag

theorem carried_calls : Carried fun s : RouterState Data => Calls s where
  close h _ _ := h.frame (flagged_of_eq rfl) rfl
  callFinish {s index sink} h hsink hunfinished := by
    simp only [unfinished, Bool.and_eq_true, Bool.not_eq_true'] at hunfinished
    refine h.mark (fun a other => ?_) (h.fresh hsink hunfinished.2)
    cases other <;> simp [flag]
  callFlush {s index sink} h hsink hunflushed := by
    simp only [unflushed, Bool.and_eq_true, Bool.not_eq_true'] at hunflushed
    refine h.mark (fun a other => ?_) (h.fresh hsink hunflushed.1.2)
    cases other <;> simp [flag]
  failSink {s} index source h := by
    refine h.note ?_ rfl rfl
    exact flagged_modify s index fun a operation => by cases operation <;> exact id
  finished s phase h _ := h.note (flagged_of_eq rfl) rfl rfl
  shift h hshift := h.frame (flagged_of_eq hshift.sinks) hshift.log
  wrote delivery index sequence h := h.note (flagged_of_eq rfl) rfl rfl
  failWrite {s} index source h := by
    refine h.note ?_ rfl rfl
    intro i b hb
    have hfailed := flagged_modify (s.modifySink index fun sink =>
      { sink with queue := [], queuedBytes := 0 }) index
      (f := fun sink => { sink with failed := some source })
      (fun a operation => by cases operation <;> exact id) hb
    obtain ⟨c, hc, hcb⟩ := hfailed
    obtain ⟨a, ha, hac⟩ := flagged_modify s index
      (f := fun sink => { sink with queue := [], queuedBytes := 0 })
      (fun a operation => by cases operation <;> exact id) hc
    exact ⟨a, ha, fun operation h => hcb operation (hac operation h)⟩
  pop {s index sink item} h _ _ := by
    have hflags : Flagged s (popFront index item s) :=
      flagged_modify s index fun a operation => by cases operation <;> exact id
    cases checkedAdd usizeMax s.deliveredItems 1 <;> exact h.frame hflags rfl

theorem Calls.callStart (h : Calls s) (hfresh : .called index .start ∉ s.log) :
    Calls (s.emit (.called index .start)) where
  once := h.once.concat fun i o he => by
    cases he
    exact hfresh
  flagged {i o b} hcalled hb := by
    rcases mem_emit.mp hcalled with hcalled | hcalled
    · exact h.flagged hcalled hb
    · cases hcalled
      rfl

/-- Many sinks are cancelled at once. -/
theorem once_cancels {log : List RouterEvent} (h : Stepwise OnceCalled log)
    {targets : List ℕ} (hnodup : targets.Nodup)
    (hfresh : ∀ index ∈ targets, .called index .cancel ∉ log) :
    Stepwise OnceCalled (log ++ targets.map (.called · .cancel)) := by
  induction targets using List.reverseRecOn with
  | nil => simpa using h
  | append_singleton front last ih =>
    rw [nodup_append] at hnodup
    rw [map_append, ← append_assoc]
    refine (ih hnodup.1 fun index hmem => hfresh index (mem_append_left _ hmem)).concat ?_
    intro index operation he hmem
    cases he
    rcases mem_append.mp hmem with hmem | hmem
    · exact hfresh last (by simp) hmem
    · obtain ⟨other, hother, he⟩ := mem_map.mp hmem
      cases he
      exact hnodup.2.2 last hother last (by simp) rfl

theorem mem_targets : index ∈ cancelTargets s ↔
    ∃ sink, s.sinks[index]? = some sink ∧ sink.started ∧ sink.cancelCalled = false := by
  unfold cancelTargets
  rw [mem_filter, mem_range]
  constructor
  · rintro ⟨hlt, hany⟩
    rw [getElem?_eq_getElem hlt] at hany
    exact ⟨s.sinks[index], getElem?_eq_getElem hlt, by simpa using hany⟩
  · rintro ⟨sink, hsink, hstarted, hcancel⟩
    refine ⟨(List.getElem?_eq_some_iff.mp hsink).1, ?_⟩
    simp [hsink, hstarted, hcancel]

theorem get?_release (i : ℕ) :
    (releaseAll s).sinks[i]? = (s.sinks[i]?).map fun sink =>
      { sink with
        queue := []
        queuedBytes := 0
        cancelCalled := sink.cancelCalled || sink.started } := by
  simp [releaseAll]

theorem Calls.releaseAll (h : Calls s) : Calls (releaseAll s) where
  once := by
    refine once_cancels h.once (nodup_range.filter _) fun index hmem => ?_
    obtain ⟨sink, hsink, -, hcancel⟩ := mem_targets.mp hmem
    exact h.fresh hsink hcancel
  flagged {i operation b} hcalled hb := by
    rw [get?_release] at hb
    obtain ⟨a, ha, rfl⟩ := Option.map_eq_some_iff.mp hb
    rcases mem_append.mp hcalled with hcalled | hcalled
    · have hflag := h.flagged hcalled ha
      cases operation with
      | start => rfl
      | flush => exact hflag
      | finish => exact hflag
      | cancel =>
        simp only [flag] at hflag ⊢
        simp [hflag]
    · obtain ⟨index, hmem, he⟩ := mem_map.mp hcalled
      cases he
      obtain ⟨sink, hsink, hstarted, -⟩ := mem_targets.mp hmem
      rw [ha] at hsink
      cases hsink
      simp [flag, hstarted]

/-- Cancelling is releasing everything, up to the reported error and a failure. -/
theorem cancel_cases (cancels : ℕ → Reply) (s : RouterState Data) :
    (cancelInner cancels s).2 = s ∧ (s.phase = .finished ∨ s.phase = .cancelled) ∨
      (s.phase ≠ .finished ∧ s.phase ≠ .cancelled) ∧
        ∃ dropError phase, (phase = (releaseAll s).phase ∨ phase = .failed) ∧
          (cancelInner cancels s).2 = { releaseAll s with dropError, phase } := by
  unfold cancelInner
  by_cases hphase : s.phase = .finished ∨ s.phase = .cancelled
  · left
    rw [if_pos hphase]
    exact ⟨rfl, hphase⟩
  · right
    rw [if_neg hphase]
    rw [not_or] at hphase
    refine ⟨hphase, ?_⟩
    simp only
    split
    · exact ⟨(releaseAll s).dropError, (releaseAll s).phase, .inl rfl, rfl⟩
    · refine ⟨_, _, ?_, rfl⟩
      split_ifs
      · exact .inl rfl
      · exact .inr rfl

theorem Calls.cancelInner (h : Calls s) (cancels : ℕ → Reply) :
    Calls (cancelInner cancels s).2 := by
  rcases cancel_cases cancels s with ⟨hsame, -⟩ | ⟨-, dropError, phase, -, heq⟩
  · rwa [hsame]
  · rw [heq]
    exact h.releaseAll.frame (flagged_of_eq rfl) rfl

/-! ## Starting -/

/-- Nothing that concerns the start of the sinks has changed. -/
structure Unstarted (s s' : RouterState Data) : Prop where
  length : s'.sinks.length = s.sinks.length
  sinks : ∀ {i : ℕ} {b : SinkState Data}, s'.sinks[i]? = some b →
    ∃ a, s.sinks[i]? = some a ∧ b.started = a.started ∧ b.cancelCalled = a.cancelCalled
  calls : ∀ i, .called i .start ∈ s'.log → .called i .start ∈ s.log
  startupActive : s'.startupActive = s.startupActive
  phase : s'.phase = .new → s.phase = .new

/-- From a position on, no sink has been started or cancelled. -/
def Untouched (s : RouterState Data) (index : ℕ) : Prop :=
  ∀ {i : ℕ} {sink : SinkState Data}, index ≤ i → s.sinks[i]? = some sink →
    sink.started = false ∧ sink.cancelCalled = false

theorem Unstarted.untouched (h : Unstarted s s') (hunt : Untouched s index) :
    Untouched s' index := by
  intro i b hi hb
  obtain ⟨a, ha, hstarted, hcancel⟩ := h.sinks hb
  rw [hstarted, hcancel]
  exact hunt hi ha

structure Startup (w : World Data) : Prop where
  fresh : w.state.phase = .new → w.state.startupActive = false →
    (∀ i, .called i .start ∉ w.state.log) ∧ Untouched w.state 0
  starting : ∀ {task index : ℕ}, w.tasks task = some (.starting index) →
    index < w.state.sinks.length ∧ (∀ i, .called i .start ∈ w.state.log → i ≤ index) ∧
      Untouched w.state index
  active : ∀ {task : ℕ} {await : Await}, w.tasks task = some await → await.isStart →
    w.state.startupActive ∨ w.state.phase ≠ .new
  unique : ∀ {task task' : ℕ} {await await' : Await}, w.tasks task = some await → await.isStart →
    w.tasks task' = some await' → await'.isStart → task = task'

theorem Unstarted.refl (s : RouterState Data) : Unstarted s s :=
  ⟨rfl, fun {_ b} h => ⟨b, h, rfl, rfl⟩, fun _ h => h, rfl, id⟩

section

variable (h : Unstarted s s')

include h

theorem Unstarted.modify (index : ℕ)
    (hf : ∀ a : SinkState Data, (f a).started = a.started ∧ (f a).cancelCalled = a.cancelCalled) :
    Unstarted s (s'.modifySink index f) where
  length := (length_modifySink s' index f).trans h.length
  sinks {i b} hb := by
    obtain ⟨c, hc, ⟨-, rfl⟩ | ⟨-, rfl⟩⟩ := of_modify hb
    · obtain ⟨a, ha, hstarted, hcancel⟩ := h.sinks hc
      exact ⟨a, ha, (hf c).1.trans hstarted, (hf c).2.trans hcancel⟩
    · exact h.sinks hc
  __ := h

theorem Unstarted.emit (event : RouterEvent)
    (hev : ∀ i, event ≠ .called i .start) : Unstarted s (s'.emit event) where
  __ := h
  calls i hmem := by
    rcases mem_emit.mp hmem with hmem | heq
    · exact h.calls i hmem
    · exact absurd heq.symm (hev i)

theorem Unstarted.mark {event : RouterEvent}
    (hf : ∀ a : SinkState Data, (f a).started = a.started ∧ (f a).cancelCalled = a.cancelCalled)
    (hev : ∀ i, event ≠ .called i .start) : Unstarted s ((s'.modifySink index f).emit event) :=
  (h.modify index hf).emit event hev

theorem Unstarted.close {phase : RouterPhase}
    (hcloses : Closes s'.phase phase) : Unstarted s { s' with phase } := by
  refine ⟨h.length, h.sinks, h.calls, h.startupActive, fun hnew => h.phase ?_⟩
  cases hnew
  rcases hcloses with heq | ⟨-, heq | ⟨-, heq | heq⟩⟩
  · exact heq.symm
  · cases heq
  · cases heq
  · cases heq

end

theorem carried_new (s : RouterState Data) : Carried (Unstarted s) where
  close h hcloses _ := h.close hcloses
  callFinish h _ _ := h.mark (fun _ => ⟨rfl, rfl⟩) nofun
  callFlush h _ _ := h.mark (fun _ => ⟨rfl, rfl⟩) nofun
  failSink index source h := h.mark (fun _ => ⟨rfl, rfl⟩) nofun
  finished t phase h hcloses := (h.close hcloses).emit _ nofun
  shift h hshift :=
    ⟨hshift.sinks ▸ h.length, fun hb => h.sinks (hshift.sinks ▸ hb),
      fun i hmem => h.calls i (hshift.log ▸ hmem), hshift.startupActive.trans h.startupActive,
      fun hnew => h.phase (hshift.phase hnew)⟩
  wrote delivery index sequence h := h.emit _ nofun
  failWrite {t} index source h := by
    have hcleared : Unstarted s
        { t.modifySink index fun sink => { sink with queue := [], queuedBytes := 0 } with
          terminalDrops := (checkedAdd usizeMax t.terminalDrops
            ((t.sinks[index]?).elim 0 (·.queue.length))).getD t.terminalDrops
          phase := .failed } := by
      have hmod := h.modify index (f := fun sink => { sink with queue := [], queuedBytes := 0 })
        fun _ => ⟨rfl, rfl⟩
      exact ⟨hmod.length, hmod.sinks, hmod.calls, hmod.startupActive, nofun⟩
    exact hcleared.mark (fun _ => ⟨rfl, rfl⟩) nofun
  pop {t index sink item} h _ _ := by
    have hpopped : Unstarted s (popFront index item t) := h.modify index fun _ => ⟨rfl, rfl⟩
    cases checkedAdd usizeMax t.deliveredItems 1 with
    | none => exact { hpopped with phase := nofun }
    | some deliveredItems => exact { hpopped with }

variable {tasks : ℕ → Option Await}

/-- A step that does not concern the start, of whatever future. -/
theorem Startup.frame (h : Startup w) (hstate : Unstarted w.state s') (issued : ℕ)
    (htasks : ∀ task await, tasks task = some await → await.isStart → w.tasks task = some await) :
    Startup ⟨s', tasks, issued⟩ where
  fresh hnew hidle := by
    obtain ⟨hcalls, hunt⟩ := h.fresh (hstate.phase hnew) (hstate.startupActive ▸ hidle)
    exact ⟨fun i hmem => hcalls i (hstate.calls i hmem), hstate.untouched hunt⟩
  starting htask := by
    obtain ⟨hlt, hcalls, hunt⟩ := h.starting (htasks _ _ htask rfl)
    exact ⟨hstate.length ▸ hlt, fun i hmem => hcalls i (hstate.calls i hmem), hstate.untouched hunt⟩
  active htask hstart := by
    rcases h.active (htasks _ _ htask hstart) hstart with hact | hphase
    · exact .inl (hstate.startupActive.trans hact)
    · exact .inr fun hnew => hphase (hstate.phase hnew)
  unique htask hstart htask' hstart' :=
    h.unique (htasks _ _ htask hstart) hstart (htasks _ _ htask' hstart') hstart'

variable {await : Await} {primary : RouterError} {failure : Option RouterError}

/-- The futures that wait after one of them has run. -/
theorem store_tasks {other : ℕ} {piece : Piece Data}
    (h : (w.store task piece).tasks other = some await) :
    other = task ∧ piece.1 = .pending await ∨ other ≠ task ∧ w.tasks other = some await := by
  simp only [World.store, Function.update_apply] at h
  by_cases hother : other = task
  · rw [if_pos hother] at h
    left
    cases hpoll : piece.1 with
    | pending await' =>
      rw [hpoll] at h
      cases h
      exact ⟨hother, rfl⟩
    | ready result =>
      rw [hpoll] at h
      cases h
  · rw [if_neg hother] at h
    exact .inr ⟨hother, h⟩

/-- If no other future is of a kind, the one that has run may be. -/
theorem store_only {p : Await → Bool} {other : ℕ} {piece : Piece Data}
    (hothers : ∀ other await, other ≠ task → w.tasks other = some await → p await = false)
    (h : (w.store task piece).tasks other = some await) (hp : p await = true) :
    other = task ∧ piece.1 = .pending await := by
  rcases store_tasks h with howner | ⟨hne, hother⟩
  · exact howner
  · rw [hothers other await hne hother] at hp
    cases hp

theorem tasks_of_dropped {other : ℕ}
    (h : Function.update tasks task none other = some await) : tasks other = some await := by
  rw [Function.update_apply] at h
  split_ifs at h
  exact h

/-- What holds of the calls in every reachable state. -/
structure Called (w : World Data) : Prop where
  calls : Calls w.state
  startup : Startup w

/-- A future that does not start sinks has run. -/
theorem Startup.other (h : Startup w) {piece : Piece Data} (hstate : Unstarted w.state piece.2)
    (hpoll : piece.1.NoStart) (task issued : ℕ) : Startup ({ w with issued }.store task piece) := by
  refine h.frame hstate _ fun other await hother hstart => ?_
  rcases store_tasks hother with ⟨-, hpending⟩ | ⟨-, hother⟩
  · rw [hpoll await hpending] at hstart
    cases hstart
  · exact hother

/-! ## The futures of `start` -/

/-- No future other than `task` is one of `start`. -/
def Alone (w : World Data) (task : ℕ) : Prop :=
  ∀ other await, other ≠ task → w.tasks other = some await → await.isStart = false

theorem Startup.alone (h : Startup w) (htask : w.tasks task = some await)
    (hstart : await.isStart) : Alone w task := by
  intro other await' hne hother
  by_contra hstart'
  rw [Bool.not_eq_false] at hstart'
  exact hne (h.unique hother hstart' htask hstart)

section

variable (halone : Alone w task)

include halone

/-- The future `task` of `start` has come to its end. -/
theorem Startup.ended {result : Except RouterError Unit}
    (hphase : s'.phase ≠ .new) : Startup (w.store task (.ready result, s')) := by
  have hnone : ∀ {other : ℕ} {await : Await},
      (w.store task (.ready result, s')).tasks other = some await → await.isStart → False := by
    intro other await hother hstart
    cases (store_only halone hother hstart).2
  exact ⟨fun hnew => absurd hnew hphase, fun h => (hnone h rfl).elim,
    fun h hstart => (hnone h hstart).elim, fun h hstart => (hnone h hstart).elim⟩

/-- The future `task` of `start` waits. -/
theorem Startup.waits (hact : s'.startupActive ∨ s'.phase ≠ .new)
    (hstarting : ∀ index, await = .starting index →
      index < s'.sinks.length ∧ (∀ i, .called i .start ∈ s'.log → i ≤ index) ∧ Untouched s' index) :
    Startup (w.store task (.pending await, s')) := by
  have hself : ∀ {other : ℕ} {other' : Await},
      (w.store task (.pending await, s')).tasks other = some other' → other'.isStart →
        other = task ∧ other' = await := by
    intro other other' hother hstart
    obtain ⟨hsame, hpoll⟩ := store_only halone hother hstart
    cases hpoll
    exact ⟨hsame, rfl⟩
  refine ⟨fun hnew hidle => ?_, fun h => ?_, fun h hstart => hact, fun h hstart h' hstart' => ?_⟩
  · rcases hact with hact | hphase
    · rw [show s'.startupActive = false from hidle] at hact
      cases hact
    · exact absurd hnew hphase
  · exact hstarting _ (hself h rfl).2.symm
  · rw [(hself h hstart).1, (hself h' hstart').1]

theorem startNext_sound (hcalls : Calls s) (hphase : s.phase = .new)
    (hact : s.startupActive) (hbelow : ∀ i, .called i .start ∈ s.log → i < index)
    (hunt : Untouched s index) : Called (w.store task (startNext index s)) := by
  have hend : Called (w.store task (startEnd s)) := by
    unfold startEnd
    rw [if_neg (not_not.mpr hphase)]
    exact ⟨hcalls.frame (flagged_of_eq rfl) rfl, .ended halone nofun⟩
  unfold startNext
  split_ifs with hlt hover
  · simp [hphase, hact] at hover
  · cases hnext : nextSink (·.spec.route.enabled) s index with
    | none => exact hend
    | some next =>
      obtain ⟨hle, ⟨sink, hsink, -⟩, -⟩ := nextSink_some hnext
      refine ⟨hcalls.callStart fun hmem => ?_, .waits halone (.inl hact) fun i hi => ?_⟩
      · have := hbelow next hmem
        omega
      · cases hi
        refine ⟨(List.getElem?_eq_some_iff.mp hsink).1, fun i hmem => ?_, fun hi hb => ?_⟩
        · rcases mem_emit.mp hmem with hmem | hmem
          · have := hbelow i hmem
            omega
          · cases hmem
            exact Nat.le_refl _
        · exact hunt (Nat.le_trans hle hi) hb
  · exact hend

theorem rollback_sound (hcalls : Calls s) (hact : s.startupActive ∨ s.phase ≠ .new) :
    Called (w.store task (rollbackNext primary failure index s)) := by
  unfold rollbackNext
  cases hnext : nextSink unfinished s index with
  | none =>
    refine ⟨hcalls.frame (flagged_of_eq rfl) rfl, .ended halone fun h => ?_⟩
    split_ifs at h with hnew
    exact hnew h
  | some next =>
    obtain ⟨-, ⟨sink, hsink, hunfinished⟩, -⟩ := nextSink_some hnext
    exact ⟨carried_calls.callFinish hcalls hsink hunfinished, .waits halone hact nofun⟩

end

theorem start_sound (h : Called w) : Called (w.store task (start w.state)) := by
  unfold start
  split_ifs with hrefused
  · exact ⟨h.calls, h.startup.other (.refl _) noStart_ready task w.issued⟩
  · rw [not_or, not_not, Bool.not_eq_true] at hrefused
    obtain ⟨hnew, hidle⟩ := hrefused
    obtain ⟨hnone, hunt⟩ := h.startup.fresh hnew hidle
    have halone : Alone w task := by
      intro other await _ hother
      by_contra hstart
      rw [Bool.not_eq_false] at hstart
      rcases h.startup.active hother hstart with hact | hphase
      · rw [hidle] at hact
        cases hact
      · exact hphase hnew
    exact startNext_sound halone (h.calls.frame (flagged_of_eq rfl) rfl) hnew rfl
      (fun i hmem => absurd hmem (hnone i)) hunt

theorem started_sound (h : Called w) (htask : w.tasks task = some (.starting index))
    (reply cancelReply : Reply) :
    Called (w.store task (sinkStarted index reply cancelReply w.state)) := by
  have halone := h.startup.alone htask rfl
  obtain ⟨hlt, hbelow, hunt⟩ := h.startup.starting htask
  have hact := h.startup.active htask rfl
  unfold sinkStarted
  cases reply with
  | error source => exact rollback_sound halone h.calls hact
  | ok value =>
    have hsink := getElem?_eq_getElem hlt
    simp only
    split_ifs with hrace
    · have hphase : w.state.phase ≠ .new := by
        rcases hrace with hphase | hidle
        · exact hphase
        · rcases hact with hact | hphase
          · rw [hact] at hidle
            cases hidle
          · exact hphase
      refine ⟨?_, .ended halone hphase⟩
      have hidle : Calls { w.state with startupActive := false } :=
        h.calls.frame (flagged_of_eq rfl) rfl
      refine hidle.mark (fun a other => ?_) (h.calls.fresh hsink (hunt (Nat.le_refl _) hsink).2)
      cases other <;> simp [flag]
    · rw [not_or, not_not] at hrace
      have hrunning : w.state.startupActive = true := by simpa using hrace.2
      refine startNext_sound halone ?_ hrace.1 hrunning ?_ ?_
      · refine h.calls.frame (flagged_modify _ _ fun a operation => ?_) rfl
        cases operation <;> exact id
      · intro i hmem
        have := hbelow i hmem
        omega
      · intro i sink hi hb
        rw [get?_modifySink, if_neg (by omega)] at hb
        exact hunt (by omega) hb

theorem rolledBack_sound (h : Called w)
    (htask : w.tasks task = some (.rollingBack index primary failure)) {reply : Reply} :
    Called (w.store task (rolledBack index primary failure reply w.state)) := by
  have halone := h.startup.alone htask rfl
  have hact := h.startup.active htask rfl
  cases reply with
  | ok value | error source => exact rollback_sound halone h.calls hact

/-! ## The other futures -/

theorem Called.piece (h : Called w) {piece : Piece Data}
    (hpiece : ∀ I : RouterState Data → Prop, Carried I → I w.state → Carries I piece)
    (task issued : ℕ) : Called ({ w with issued }.store task piece) := by
  obtain ⟨hstate, hpoll⟩ := hpiece _ (carried_new w.state) (.refl _)
  exact ⟨(hpiece _ carried_calls h.calls).1, h.startup.other hstate hpoll task issued⟩

theorem Called.firstPoll (h : Called w) (operation : Operation) :
    Called ({ w with issued := w.issued + 1 }.store w.issued
      (firstPoll w.issued operation w.state)) := by
  cases operation with
  | start =>
    have hnext : Called { w with issued := w.issued + 1 } :=
      ⟨h.calls, h.startup.frame (.refl _) _ fun _ _ h _ => h⟩
    exact start_sound hnext
  | deliver => exact h.piece (fun I hinv hs => carried_deliver hinv _ hs) _ _
  | drain => exact h.piece (fun I hinv hs => carried_drain hinv _ hs) _ _
  | flush => exact h.piece (fun I hinv hs => carried_flush hinv _ hs) _ _
  | finish => exact h.piece (fun I hinv hs => carried_finish hinv _ hs) _ _

theorem Called.resume (h : Called w) (htask : w.tasks task = some await)
    (reply cancelReply : Reply) :
    Called (w.store task (resume task await reply cancelReply w.state)) := by
  cases await with
  | starting index => exact started_sound h htask reply cancelReply
  | rollingBack index primary failure => exact rolledBack_sound h htask
  | writing caller sequence index failure =>
    exact h.piece (fun I hinv hs => carried_wrote hinv _ _ _ _ _ _ hs) task w.issued
  | flushing caller index failure =>
    exact h.piece (fun I hinv hs => carried_flushed hinv _ _ _ _ hs) task w.issued
  | finishing index failure =>
    exact h.piece (fun I hinv hs => carried_finished hinv _ _ _ hs) task w.issued

theorem Called.cancelInner {issued : ℕ} (cancels : ℕ → Reply)
    (s : RouterState Data) (h : Called ⟨s, tasks, issued⟩) :
    Called ⟨(cancelInner cancels s).2, tasks, issued⟩ := by
  refine ⟨h.calls.cancelInner cancels, ?_⟩
  rcases cancel_cases cancels s with ⟨hsame, -⟩ | ⟨-, dropError, phase, hphase, heq⟩
  · rw [hsame]
    exact h.startup
  · rw [heq]
    have hnew : phase ≠ .new := by
      rintro rfl
      rcases hphase with hphase | hphase
      · have : (if s.phase = .failed then RouterPhase.failed else .cancelled) = .new := hphase.symm
        split_ifs at this
      · cases hphase
    refine ⟨fun hphase => absurd hphase hnew, fun htask => ?_, fun _ _ => .inr hnew,
      fun htask hstart htask' hstart' => h.startup.unique htask hstart htask' hstart'⟩
    obtain ⟨hlt, hbelow, hunt⟩ := h.startup.starting htask
    refine ⟨?_, fun i hmem => ?_, fun hi hb => ?_⟩
    · simpa [releaseAll] using hlt
    · rcases mem_append.mp hmem with hmem | hmem
      · exact hbelow i hmem
      · obtain ⟨_, -, he⟩ := mem_map.mp hmem
        cases he
    · rw [get?_release] at hb
      obtain ⟨a, ha, rfl⟩ := Option.map_eq_some_iff.mp hb
      obtain ⟨hstarted, hcancel⟩ := hunt hi ha
      simp [hstarted, hcancel]

theorem Called.state (h : Called w) (hcalls : Calls s') (hstate : Unstarted w.state s') :
    Called { w with state := s' } :=
  ⟨hcalls, h.startup.frame hstate _ fun _ _ h _ => h⟩

theorem Called.admitEvent (h : Called w) (ops : ResultOps Data) (run : String)
    (event : Execution.SampleEvent Data) (metadata : ResultEventMetadata) :
    Called { w with state := (admitEvent ops run event metadata w.state).2 } := by
  rcases admit_cases ops run event metadata w.state with ⟨-, n, heq⟩ | ⟨admission, -, heq⟩
  · rw [heq]
    exact h.state (h.calls.frame (flagged_of_eq rfl) rfl)
      ⟨rfl, fun {_ b} hb => ⟨b, hb, rfl, rfl⟩, fun _ h => h, rfl, id⟩
  · rw [heq]
    have hsinks : ∀ {i : ℕ} {b : SinkState Data}, (admitted admission w.state).sinks[i]? = some b →
        ∃ a, w.state.sinks[i]? = some a ∧ (b = a ∨ b = a.push admission.envelope) := by
      intro i b hb
      rw [admitted, get?_enqueued] at hb
      obtain ⟨a, ha, rfl⟩ := Option.map_eq_some_iff.mp hb
      refine ⟨a, ha, ?_⟩
      split_ifs
      · exact .inr rfl
      · exact .inl rfl
    apply h.state
    · refine h.calls.note (fun hb => ?_) rfl rfl
      obtain ⟨a, ha, rfl | rfl⟩ := hsinks hb
      · exact ⟨_, ha, fun _ h => h⟩
      · exact ⟨_, ha, fun operation => by cases operation <;> exact id⟩
    · refine ⟨by simp [admitted, enqueued], fun hb => ?_, fun i hmem => ?_, rfl, id⟩
      · obtain ⟨a, ha, rfl | rfl⟩ := hsinks hb
        · exact ⟨_, ha, rfl, rfl⟩
        · exact ⟨_, ha, rfl, rfl⟩
      · exact mem_of_concat hmem (by simp)

theorem Called.step {w : World Data} (h : Called w) (ops : ResultOps Data) (run : String)
    (act : Act Data) : Called (w.step ops run act) := by
  cases act with
  | admitEvent event metadata => exact h.admitEvent ops run event metadata
  | stopAdmission =>
    have hshift := shifted_stop w.state
    exact h.state (carried_calls.shift h.calls hshift)
      ((carried_new w.state).shift (.refl _) hshift)
  | cancel cancels => exact Called.cancelInner cancels w.state h
  | call operation => exact h.firstPoll operation
  | resume task reply cancelReply =>
    exact World.step_waiting h fun htask => h.resume htask reply cancelReply
  | drop task cancels =>
    refine World.step_waiting h fun {await} _ => ?_
    refine Function.Iterate.rec (fun s => Called ⟨s, Function.update w.tasks task none, w.issued⟩)
      ?_ (Called.cancelInner cancels) await.guards
    exact ⟨h.calls, h.startup.frame (.refl _) _ fun other await hother _ => tasks_of_dropped hother⟩

theorem called_initial {specs : List SinkSpec} : Called (World.initial specs : World Data) where
  calls := ⟨stepwise_nil, nofun⟩
  startup := by
    refine ⟨fun _ _ => ⟨fun _ h => ?_, fun _ hb => ?_⟩, fun h => ?_, fun h => ?_, fun h => ?_⟩
    · cases h
    · simp only [World.initial, RouterState.initial, getElem?_map] at hb
      obtain ⟨spec, -, rfl⟩ := Option.map_eq_some_iff.mp hb
      exact ⟨rfl, rfl⟩
    · cases h
    · cases h
    · cases h

end

end JmeterRs.Router
