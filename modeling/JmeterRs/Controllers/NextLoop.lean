import JmeterRs.Controllers.Retry

/-!
# Serving a next-loop request

`step_with_cancellation` peeks at the pending request, applies the next-loop action, selects the
next sampler, and acknowledges the request only if the whole call succeeds.  A call whose budget
ends after the action and before the selection therefore leaves the request pending, and the
retry applies the action again.  `servedOnce_iff` says exactly when this does not happen.
-/

namespace JmeterRs.Controllers

open ControllerRunner Cancellation

/-- Whether a next-loop request has anything to act on. -/
def NextLoopDue (r : ControllerRunner) : Prop := r.terminal = none ∧ r.finished = false

instance (r : ControllerRunner) : Decidable (NextLoopDue r) := by
  unfold NextLoopDue
  infer_instance

/-- Whether a call reaches `apply_next_loop`. -/
def appliesNextLoop (signal : ControlSignal) (r : ControllerRunner) (budget : StepBudget) : Bool :=
  decide (signal = .nextLoop ∧ NextLoopDue r ∧ 0 < budget.remaining)

/-- A user's runner and cancellation state, with the number of next-loop actions applied. -/
structure Service where
  runner : ControllerRunner
  cancellation : Cancellation
  actions : ℕ

open Service

/-- One call of `step_with_cancellation`. -/
def Service.call (s : Service) (budget : StepBudget) : Service :=
  ⟨(returned (stepWithCancellation s.cancellation s.runner budget).1).2,
    (stepWithCancellation s.cancellation s.runner budget).2,
    s.actions + if appliesNextLoop s.cancellation.signal s.runner budget then 1 else 0⟩

def Service.calls (s : Service) (budgets : List StepBudget) : Service := budgets.foldl .call s

/-! ## One call -/

/-- The run budget of `step_with_signal`. -/
def openRunBudget : RunBudget := RunBudget.new usizeMax usizeMax

/-- A call with a next-loop request: the action first, then the selection. -/
theorem step_nextLoop_eq {c : Call} (hdue : NextLoopDue c.runner) : stepWithRunBudget .nextLoop c =
      if 0 < c.budget.remaining then
        match applyNextLoop c.runner with
        | .error e => .error e ⟨c.runner, c.budget.pay 1, c.runBudget⟩
        | .ok r =>
          if r.finished then .ok .complete ⟨r, c.budget.pay 1, c.runBudget⟩
          else selectNextWithSampleBudget ⟨r, c.budget.pay 1, c.runBudget⟩
      else .error c.budget.refusal c := by
  obtain ⟨ht, hf⟩ := hdue
  have hstop : ControlSignal.nextLoop.isStop = false := rfl
  unfold stepWithRunBudget
  simp only [bind, EStateM.bind, getRunner, ht, hstop, hf, Bool.false_eq_true, if_false, if_true,
    Bool.not_false, spend]
  split_ifs with hpos
  · rw [StepBudget.spend_of_lt hpos]
    simp only [lift]
    cases applyNextLoop c.runner with
    | error e => rfl
    | ok r =>
      simp only [modifyRunner]
      split_ifs <;> rfl
  · rw [StepBudget.spend_of_eq (by omega)]

/-- Without anything to act on the request is acknowledged at once. -/
theorem nextLoop_idle (c : Call) (h : ¬ NextLoopDue c.runner) :
    ∃ step, stepWithRunBudget .nextLoop c = .ok step c := by
  have hstop : ControlSignal.nextLoop.isStop = false := rfl
  unfold stepWithRunBudget
  simp only [bind, EStateM.bind, getRunner, hstop]
  cases ht : c.runner.terminal with
  | some existing => exact ⟨_, rfl⟩
  | none =>
    have hf : c.runner.finished = true := by simpa [NextLoopDue, ht] using h
    refine ⟨.complete, ?_⟩
    simp only [hf, Bool.false_eq_true, if_false, if_true, Bool.not_true, EStateM.bind, getRunner]
    rfl

variable {r r' : ControllerRunner}

theorem nextLoop_keeps (h : applyNextLoop r = .ok r') :
    r'.program = r.program ∧ r'.terminal = r.terminal := by
  unfold applyNextLoop at h
  split_ifs at h
  · cases h
    exact ⟨rfl, rfl⟩
  · split at h
    · simp only [rootIdentity, bind, Except.bind] at h
      split at h
      · cases h
      · split at h <;> cases h
        exact ⟨rfl, rfl⟩
    · split at h
      · split at h <;> cases h
        exact ⟨rfl, rfl⟩
      · cases h

/-- Enough budget for the action and for everything up to the next outcome. -/
def Covers (budget : StepBudget) (r : ControllerRunner) : Prop :=
  ∃ r', applyNextLoop r = .ok r' ∧
    (r'.finished = true ∨ ∃ n step r'', Walk stepTick r' n (.ok step) r'' ∧ n < budget.remaining)

/-- A call that fails leaves an active traversal active. -/
theorem due_of_exec {n : ℕ} {os : List Outcome} (h : Exec stepTick r n os r') (hos : os = [])
    (hdue : NextLoopDue r) : NextLoopDue r' := by
  induction h with
  | refl => exact hdue
  | @silent r n os r' hout _ ih =>
    obtain ⟨hres, ht, hf⟩ := silent_inv hout
    have hround := round_call r
    exact ih hos ⟨hround.terminal.trans ht, (hround.finished (by simp [hres])).trans hf⟩
  | visible => cases hos

/-- What a call does that reaches the action: with enough budget it succeeds, and any larger
budget gives the same; otherwise it fails and the traversal is still active. -/
theorem step_nextLoop_cases (c : Call) (hb : c.runner.program.Bounded)
    (hdue : NextLoopDue c.runner) (hpos : 0 < c.budget.remaining)
    (hlim : c.budget.remaining ≤ c.runBudget.samplesLeft) :
    (Covers c.budget c.runner ∧ ∃ step c', stepWithRunBudget .nextLoop c = .ok step c') ∨
      (¬ Covers c.budget c.runner ∧
        ∃ e c', stepWithRunBudget .nextLoop c = .error e c' ∧ NextLoopDue c'.runner) := by
  rw [step_nextLoop_eq hdue, if_pos hpos]
  cases happly : applyNextLoop c.runner with
  | error e =>
    refine .inr ⟨?_, e, _, rfl, hdue⟩
    rintro ⟨r', h, -⟩
    simp [happly] at h
  | ok r =>
    obtain ⟨hprogram, hterm⟩ := nextLoop_keeps happly
    simp only
    split_ifs with hf
    · exact .inl ⟨⟨r, happly, .inl hf⟩, _, _, rfl⟩
    · have ht : r.terminal = none := hterm.trans hdue.1
      have hdue' : NextLoopDue r := ⟨ht, by simpa using hf⟩
      have hb' : r.program.Bounded := hprogram ▸ hb
      have hselect : selectNextWithSampleBudget ⟨r, c.budget.pay 1, c.runBudget⟩ =
          stepWithRunBudget .continue ⟨r, c.budget.pay 1, c.runBudget⟩ := by
        rw [step_continue_eq]
        simp only [ht]
      have hrem : (c.budget.pay 1).remaining = c.budget.remaining - 1 :=
        StepBudget.remaining_pay _ _
      rw [hselect]
      by_cases hcov : Covers c.budget c.runner
      · obtain ⟨r', hr', hcases⟩ := hcov
        obtain rfl : r = r' := by simpa [happly] using hr'
        obtain ⟨n, step, r'', w, hn⟩ := hcases.resolve_left hf
        obtain ⟨runBudget, hstep, -⟩ := step_of_walk ⟨r, c.budget.pay 1, c.runBudget⟩ w hb'
          (by rw [hrem]; omega) (by simp only; omega)
        exact .inl ⟨⟨r, happly, hcases⟩, step, _, hstep⟩
      · refine .inr ⟨hcov, ?_⟩
        have hatt := step_attempt ⟨r, c.budget.pay 1, c.runBudget⟩ hb'
        generalize stepWithRunBudget .continue ⟨r, c.budget.pay 1, c.runBudget⟩ = x at hatt
        cases hatt with
        | ok w hn =>
          exact absurd ⟨r, happly, .inr ⟨_, _, _, w, by simp only [hrem] at hn; omega⟩⟩ hcov
        | error he w =>
          obtain ⟨ht, hf⟩ := active_of_walk w (by simp)
          exact ⟨_, _, rfl, ht.trans hdue'.1, hf.trans hdue'.2⟩
        | interrupted he x => exact ⟨_, _, rfl, due_of_exec x rfl hdue'⟩

/-- Larger budgets do not change what a covered call returns. -/
theorem step_nextLoop_mono {budget larger : StepBudget} {runBudget runBudget' : RunBudget}
    (hb : r.program.Bounded) (hdue : NextLoopDue r) (hpos : 0 < budget.remaining)
    (hcov : Covers budget r) (hle : budget.remaining ≤ larger.remaining)
    (hlim : budget.remaining ≤ runBudget.samplesLeft)
    (hlim' : budget.remaining ≤ runBudget'.samplesLeft) :
    returned (stepWithRunBudget .nextLoop ⟨r, larger, runBudget'⟩) =
      returned (stepWithRunBudget .nextLoop ⟨r, budget, runBudget⟩) := by
  obtain ⟨r', happly, hcases⟩ := hcov
  obtain ⟨hprogram, hterm⟩ := nextLoop_keeps happly
  rw [step_nextLoop_eq hdue, step_nextLoop_eq hdue, if_pos hpos,
    if_pos (show 0 < larger.remaining by omega)]
  simp only [happly]
  split_ifs with hf
  · rfl
  · obtain ⟨n, step, r'', w, hn⟩ := hcases.resolve_left hf
    have hwalk {b : StepBudget} {rb : RunBudget} (h : budget.remaining ≤ b.remaining)
        (h' : budget.remaining ≤ rb.samplesLeft) :
        returned (selectNextWithSampleBudget ⟨r', b.pay 1, rb⟩) = (.ok step, r'') := by
      obtain ⟨rb', hstep, -⟩ := step_of_walk ⟨r', b.pay 1, rb⟩ w (hprogram ▸ hb)
        (by rw [StepBudget.remaining_pay]; omega) (by simp only; omega)
      rw [step_continue_eq] at hstep
      simp only [hterm.trans hdue.1] at hstep
      rw [hstep]
      rfl
    rw [hwalk hle hlim', hwalk le_rfl hlim]

/-! ## Successive calls -/

section

variable {s : Service}

/-- Without a request no call applies the action. -/
theorem call_of_continue (h : s.cancellation.signal = .continue) (budget : StepBudget) :
    (s.call budget).actions = s.actions ∧ (s.call budget).cancellation = s.cancellation := by
  unfold call stepWithCancellation
  simp only [h, appliesNextLoop]
  constructor
  · simp
  · split <;> simp_all

theorem calls_of_continue (h : s.cancellation.signal = .continue) (budgets : List StepBudget) :
    (s.calls budgets).actions = s.actions := by
  induction budgets generalizing s with
  | nil => rfl
  | cons budget rest ih =>
    obtain ⟨hactions, hcan⟩ := call_of_continue h budget
    exact (ih (by rw [hcan, h])).trans hactions

variable {budget : StepBudget}

/-- A pending request after a call: it is acknowledged if the call succeeds. -/
def acknowledged (cancellation : Cancellation) :
    EStateM.Result ControllerError Call ControllerStep → Cancellation
  | .ok _ _ => cancellation.takeSignal.2
  | .error _ _ => cancellation

theorem call_of_nextLoop (h : s.cancellation.signal = .nextLoop)
    {x : EStateM.Result ControllerError Call ControllerStep}
    (hx : stepWithRunBudget .nextLoop ⟨s.runner, budget, openRunBudget⟩ = x) :
    s.call budget =
      ⟨(returned x).2, acknowledged s.cancellation x,
        s.actions + if NextLoopDue s.runner ∧ 0 < budget.remaining then 1 else 0⟩ := by
  have hx' : stepWithSignal .nextLoop s.runner budget = x := hx
  unfold call stepWithCancellation
  simp only [h, appliesNextLoop, hx', true_and, decide_eq_true_eq]
  cases x <;> simp [acknowledged]

/-- A stopped or finished traversal stays as it is, with or without a request. -/
theorem call_idle (budget : StepBudget)
    (h : s.cancellation.signal = .nextLoop ∨ s.cancellation.signal = .continue)
    (hdue : ¬ NextLoopDue s.runner) :
    (s.call budget).runner = s.runner ∧ (s.call budget).actions = s.actions ∧
      ((s.call budget).cancellation.signal = .nextLoop ∨
        (s.call budget).cancellation.signal = .continue) := by
  rcases h with h | h
  · obtain ⟨step, hstep⟩ := nextLoop_idle ⟨s.runner, budget, openRunBudget⟩ hdue
    rw [call_of_nextLoop h hstep]
    exact ⟨rfl, by simp [hdue], .inr (signal_takeSignal_of_nextLoop h)⟩
  · obtain ⟨hactions, hcan⟩ := call_of_continue h budget
    refine ⟨?_, hactions, .inr (hcan ▸ h)⟩
    have hstep : ∃ step, stepWithRunBudget .continue ⟨s.runner, budget, openRunBudget⟩ =
        .ok step ⟨s.runner, budget, openRunBudget⟩ := by
      rw [step_continue_eq]
      cases ht : s.runner.terminal with
      | some existing => exact ⟨_, rfl⟩
      | none =>
        have hf : s.runner.finished = true := by simpa [NextLoopDue, ht] using hdue
        exact ⟨.complete, by simp [selectNextWithSampleBudget, hf]⟩
    obtain ⟨step, hstep⟩ := hstep
    have hstep' : stepWithSignal .continue s.runner budget = _ := hstep
    simp only [call, stepWithCancellation, h, hstep', returned]

theorem calls_idle (budgets : List StepBudget)
    (h : s.cancellation.signal = .nextLoop ∨ s.cancellation.signal = .continue)
    (hdue : ¬ NextLoopDue s.runner) :
    (s.calls budgets).runner = s.runner ∧ (s.calls budgets).actions = s.actions := by
  induction budgets generalizing s with
  | nil => exact ⟨rfl, rfl⟩
  | cons budget rest ih =>
    obtain ⟨hrunner, hactions, hcan⟩ := call_idle budget h hdue
    obtain ⟨hrunner', hactions'⟩ := ih hcan (hrunner ▸ hdue)
    exact ⟨hrunner'.trans hrunner, hactions'.trans hactions⟩

theorem call_exhausted (h : s.cancellation.signal = .nextLoop) (hdue : NextLoopDue s.runner)
    (hb : budget.remaining = 0) : s.call budget = s := by
  rw [call_of_nextLoop h (step_nextLoop_eq hdue)]
  simp [returned, acknowledged, hb]

theorem calls_exhausted (h : s.cancellation.signal = .nextLoop) (hdue : NextLoopDue s.runner)
    (idle : List StepBudget) (hidle : ∀ b ∈ idle, b.remaining = 0) (rest : List StepBudget) :
    s.calls (idle ++ rest) = s.calls rest := by
  induction idle with
  | nil => rfl
  | cons b idle ih =>
    show (s.call b).calls (idle ++ rest) = _
    rw [call_exhausted h hdue (hidle b (.head _))]
    exact ih fun b' hb' => hidle b' (.tail _ hb')

end

/-- A request is served once: whatever calls follow the first one that has any budget, the action
is applied as often as it is due, and that call leaves the runner where a call with any larger
budget leaves it. -/
def ServedOnce (r : ControllerRunner) (cancellation : Cancellation) (idle : List StepBudget)
    (budget : StepBudget) : Prop :=
  (∀ later, (calls ⟨r, cancellation, 0⟩ (idle ++ budget :: later)).actions =
      if NextLoopDue r then 1 else 0) ∧
    ∀ larger : StepBudget, budget.remaining ≤ larger.remaining →
      (calls ⟨r, cancellation, 0⟩ (idle ++ [budget])).runner =
        (calls ⟨r, cancellation, 0⟩ [larger]).runner

/-- **When a request is served once.**  A request on an active traversal is served once exactly
if the first call that has any budget also covers the way to the next outcome. -/
theorem servedOnce_iff {tree : ControllerNode} {limits : ControllerLimits}
    {program : ControllerProgram}
    (hc : ControllerProgram.compileWithLimits tree limits = .ok program)
    (r : ControllerRunner) (hr : r.program = program) (cancellation : Cancellation)
    (hp : cancellation.signal = .nextLoop) (idle : List StepBudget)
    (hidle : ∀ b ∈ idle, b.remaining = 0) (budget : StepBudget) (hpos : 0 < budget.remaining)
    (hlim : budget.limit ≤ usizeMax) :
    ServedOnce r cancellation idle budget ↔ (NextLoopDue r → Covers budget r) := by
  have hb : r.program.Bounded := hr ▸ (compile_represents hc).2
  have htaken := signal_takeSignal_of_nextLoop hp
  by_cases hdue : NextLoopDue r
  · have hskip := calls_exhausted (s := ⟨r, cancellation, 0⟩) hp hdue idle hidle
    have hleft : budget.remaining ≤ openRunBudget.samplesLeft := (Nat.sub_le _ _).trans hlim
    have hcases := step_nextLoop_cases ⟨r, budget, openRunBudget⟩ hb hdue hpos hleft
    unfold ServedOnce
    simp only [hskip, hdue, if_true, true_imp_iff]
    rcases hcases with ⟨hcov, step, c', hstep⟩ | ⟨hcov, e, c', hstep, hdue'⟩
    · refine iff_of_true ⟨fun later => ?_, fun larger hle => ?_⟩ hcov
      · show (calls (call _ budget) later).actions = 1
        rw [call_of_nextLoop hp hstep, calls_of_continue htaken]
        simp [hdue, hpos]
      · have hmono := step_nextLoop_mono hb hdue hpos hcov hle hleft hleft
        show (call _ budget).runner = (call _ larger).runner
        rw [call_of_nextLoop hp rfl, call_of_nextLoop hp rfl, hmono]
    · refine iff_of_false (fun h => ?_) hcov
      have htwice : (calls ⟨r, cancellation, 0⟩ (budget :: [⟨1, 0⟩])).actions = 2 := by
        show (call (call _ budget) ⟨1, 0⟩).actions = 2
        have hfirst := call_of_nextLoop (s := ⟨r, cancellation, 0⟩) hp hstep
        rw [hfirst, call_of_nextLoop hp rfl]
        have hone : 0 < StepBudget.remaining ⟨1, 0⟩ := by decide
        simp [hdue, hpos, returned, hdue', hone]
      simp [h.1 [⟨1, 0⟩]] at htwice
  · have hstay (budgets : List StepBudget) :=
      calls_idle budgets (s := ⟨r, cancellation, 0⟩) (.inl hp) hdue
    refine iff_of_true ⟨fun later => ?_, fun larger _ => ?_⟩ (fun h => absurd h hdue)
    · rw [(hstay _).2, if_neg hdue]
    · rw [(hstay _).1, (hstay _).1]

/-- A Loop controller with three iterations of one sampler. -/
def threeIterations : ControllerNode := .loop 1 (.finite 3) [.sample 2]

/-- Its compiled form. -/
def threeIterationsProgram : ControllerProgram := ⟨[.sample 2, .loop 1 (.finite 3) [0]], 1⟩

/-- The runner after the sample of the first iteration. -/
def afterFirstSample : ControllerRunner :=
  (returned (stepWithRunBudget .continue ⟨.new threeIterationsProgram, .new 8, openRunBudget⟩)).2

theorem servedOnce_iff_afterFirstSample :
    ServedOnce afterFirstSample (new.request .nextLoop) [.new 0] (.new 8) ↔
      (NextLoopDue afterFirstSample → Covers (.new 8) afterFirstSample) :=
  @servedOnce_iff threeIterations .default threeIterationsProgram (by decide +kernel)
    afterFirstSample (by decide +kernel)
    (new.request .nextLoop) (by decide) [.new 0] (by decide) (.new 8) (by decide)
    (by decide)

/-- One request, two actions: with one transition left the action is applied and the selection is
refused; the retry applies it again, and the sample of the second iteration is lost. -/
theorem nextLoop_applied_twice :
    ControllerProgram.compile threeIterations = .ok threeIterationsProgram ∧
      ¬ ServedOnce afterFirstSample (new.request .nextLoop) [] (.new 1) ∧
      (callAll (calls ⟨afterFirstSample, new.request .nextLoop, 0⟩
        [.new 1, .new 8]).runner [(.new 8, openRunBudget)]).1 = [.ok .complete] ∧
      (callAll (calls ⟨afterFirstSample, new.request .nextLoop, 0⟩
        [.new 8]).runner [(.new 8, openRunBudget)]).1 =
          [.ok (.sample ⟨2, 0, [⟨1, .loop, 2⟩]⟩)] := by
  refine ⟨by decide +kernel, fun h => ?_, by decide +kernel, by decide +kernel⟩
  have htwice : (calls ⟨afterFirstSample, new.request .nextLoop, 0⟩
      [.new 1, .new 8]).actions = 2 := by decide +kernel
  have honce := h.1 [.new 8]
  rw [List.nil_append, htwice] at honce
  split_ifs at honce
  omega

end JmeterRs.Controllers
