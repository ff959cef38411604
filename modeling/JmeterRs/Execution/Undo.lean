import JmeterRs.Execution.Keep

/-!
# What a component leaves behind

A component that returns an error or a control signal is undone by the pipeline.  A component that
is cut off, because the deadline passes or the future is dropped while it is suspended, is not.
-/

namespace JmeterRs.Execution

open Std
open Controllers (ControlSignal)

section

variable {P : Payload}

theorem accounted_cancel {s : Invocation P} (h : Accounted s) (package : SamplePackage) :
    Accounted (s.cancelGuard package).2 := by
  unfold Invocation.cancelGuard
  split_ifs
  · have hguard : Accounted { s with
        armed := false
        cancellationError := s.cancellationError.or package.cancelError } := ⟨h.sound, h.entered⟩
    exact (hguard.emit rfl).accounted
  · exact h

/-- **Undoing components.**  In every run of a pipeline future, each configuration, preprocessor,
timer, postprocessor and assertion that is entered is on record, in their order.  One that does not
return `Ok` leaves everything as it was when it was entered, but for properties that others have
written, exactly if it came to its end or had not changed anything. -/
theorem restored_iff_undoable (package : SamplePackage) (s : Invocation P) (script : List (Act P)) :
    let final := (life package (s.fresh script)).2
    final.close.ended.map (·.component) = final.log.filterMap PipelineEvent.guarded ∧
      ∀ record ∈ final.close.ended, record.how ≠ .ok → (record.Restored ↔ record.Undoable) := by
  have hfresh : Idle [] (s.fresh script) := ⟨rfl, fun _ h => absurd h List.not_mem_nil, rfl⟩
  have hlast := idle_polled package (s.fresh script) hfresh
  suffices h : Accounted (life package (s.fresh script)).2 by
    refine ⟨?_, h.sound⟩
    rw [← h.entered]
    simp [Invocation.close]
  unfold life
  cases hout : (do (fun s => firstPoll s.script s : Future P Unit); inner package)
      (s.fresh script) with
  | ok value s' =>
    rw [hout] at hlast
    have hdisarmed : Idle [] { s' with armed := false } := hlast.of_eq rfl rfl rfl
    exact accounted_cancel hdisarmed.accounted package
  | error cut s' =>
    rw [hout] at hlast
    cases cut with
    | deadline => exact accounted_cancel (accounted_cancel hlast package) package
    | dropped => exact accounted_cancel hlast package
    | unfinished => exact hlast

end

/-! ## A component that is cut off -/

/-- The invocation of a user that has done nothing yet. -/
def plainInvocation : Invocation plainPayload where
  sample := .new (freshContexts.users 0)
  shared := .initial ∅
  settings := ⟨none, some, [], ⟨"", "", ""⟩, none, none, 4096, 4096⟩
  trace := []
  now := ⟨0, 0⟩
  pollDeadline := none
  armed := true
  cancellationError := none
  script := []
  log := []
  touched := []
  current := none
  ended := []

/-- A configuration that sets a variable and returns an error is undone. -/
theorem variable_undone_by_error :
    let final := (life ⟨1, 1, 0, [], 0, 0, 0, none⟩ (plainInvocation.fresh
      [.poll, .own (.context (.setVariable "v" "1")), .returns (.error (.failure ""))])).2
    ∃ record ∈ final.close.ended,
      record.atEnd.owned.vars["v"]? = some "1" ∧ record.Restored := by
  intro final
  have hreturned : ∃ record ∈ final.close.ended,
      record.atEnd.owned.vars["v"]? = some "1" ∧ record.how = .returned := by decide +kernel
  obtain ⟨record, hrecord, hset, hhow⟩ := hreturned
  exact ⟨record, hrecord, hset,
    ((restored_iff_undoable _ _ _).2 record hrecord (by rw [hhow]; nofun)).mpr (.inl hhow)⟩

/-- A configuration sets a variable and suspends, and the future is dropped: the variable stays. -/
theorem variable_left_by_drop :
    let final := (life ⟨1, 1, 0, [], 0, 0, 0, none⟩ (plainInvocation.fresh
      [.poll, .own (.context (.setVariable "v" "1")), .drop])).2
    plainInvocation.sample.execution.vars["v"]? = none ∧
      final.sample.execution.vars["v"]? = some "1" ∧
      ∃ record ∈ final.close.ended, ¬ record.Restored := by
  have hchanged : ∃ record ∈ (life ⟨1, 1, 0, [], 0, 0, 0, none⟩ (plainInvocation.fresh
      [.poll, .own (.context (.setVariable "v" "1")), .drop])).2.close.ended,
      record.after.owned.vars["v"]? ≠ record.before.owned.vars["v"]? := by decide +kernel
  obtain ⟨record, hrecord, hne⟩ := hchanged
  refine ⟨by decide +kernel, by decide +kernel, record, hrecord, fun hrestored => hne ?_⟩
  rw [hrestored.1]

end JmeterRs.Execution
