import JmeterRs.Controllers.Budget
import JmeterRs.Controllers.Represent

/-!
# Retrying after a budget failure

A caller splits the work of a runner into calls with whatever budgets it has and retries after a
failure.  The outcomes that are not budget failures are those of a run with unlimited budgets, in
order and without gaps, and the state left behind continues that run.
-/

namespace JmeterRs.Controllers

open ControllerRunner

/-- What a call returns to its caller. -/
abbrev Outcome := Except ControllerError ControllerStep

/-- Whether a call failed on one of its budgets. -/
def Outcome.isBudgetFailure : Outcome → Bool
  | .ok _ => false
  | .error e => e.isBudget

/-- The outcome of a call and the runner it leaves. -/
def returned : EStateM.Result ControllerError Call ControllerStep → Outcome × ControllerRunner
  | .ok step c => (.ok step, c.runner)
  | .error e c => (.error e, c.runner)

/-- The outcomes of successive calls with the Continue signal, and the runner after the last. -/
def callAll : ControllerRunner → List (StepBudget × RunBudget) → List Outcome × ControllerRunner
  | r, [] => ([], r)
  | r, (budget, runBudget) :: rest =>
    let (outcome, r') := returned (stepWithRunBudget .continue ⟨r, budget, runBudget⟩)
    let (outcomes, r'') := callAll r' rest
    (outcome :: outcomes, r'')

/-- The outcomes that are not budget failures. -/
def retained (outcomes : List Outcome) : List Outcome := outcomes.filter fun o => !o.isBudgetFailure

/-- An outcome that any call returns whose budgets are large enough. -/
def UnlimitedCall (r : ControllerRunner) (o : Outcome) (r' : ControllerRunner) : Prop :=
  o.isBudgetFailure = false ∧
    ∃ bound, ∀ budget runBudget, bound ≤ budget.remaining → bound ≤ runBudget.samplesLeft →
      returned (stepWithRunBudget .continue ⟨r, budget, runBudget⟩) = (o, r')

/-- A run with unlimited budgets. -/
inductive UnlimitedRun : ControllerRunner → List Outcome → ControllerRunner → Prop
  | nil (r : ControllerRunner) : UnlimitedRun r [] r
  | cons {r r' r'' : ControllerRunner} {o : Outcome} {os : List Outcome}
      (h : UnlimitedCall r o r') (rest : UnlimitedRun r' os r'') : UnlimitedRun r (o :: os) r''

variable {r r' : ControllerRunner}

theorem isBudget_of_walk {n : ℕ} {o : Outcome} (h : Walk stepTick r n o r') :
    o.isBudgetFailure = false := by
  induction h with
  | silent _ _ ih => exact ih
  | @visible r o hout =>
    cases o with
    | ok step => rfl
    | error e => exact (round_call r).error e (stepTick_error_inv hout)

/-- A call fails on a budget after some silent ticks, or returns what its walk shows. -/
theorem returned_cases (c : Call) (hb : c.runner.program.Bounded) :
    ∃ o r', returned (stepWithRunBudget .continue c) = (o, r') ∧
      ((o.isBudgetFailure = true ∧ ∃ n, Exec stepTick c.runner n [] r') ∨
        (o.isBudgetFailure = false ∧ ∃ n, Walk stepTick c.runner n o r')) := by
  have hatt := step_attempt c hb
  generalize stepWithRunBudget .continue c = x at hatt
  cases hatt with
  | ok w _ => exact ⟨_, _, rfl, .inr ⟨rfl, _, w⟩⟩
  | error he w => exact ⟨_, _, rfl, .inr ⟨he, _, w⟩⟩
  | interrupted he x => exact ⟨_, _, rfl, .inl ⟨he, _, x⟩⟩

/-- Calls with unlimited budgets are the walks of the machine without budgets. -/
theorem call_iff_walk {o : Outcome} (hb : r.program.Bounded) :
    UnlimitedCall r o r' ↔ ∃ n, Walk stepTick r n o r' := by
  constructor
  · rintro ⟨ho, bound, h⟩
    have hcall := h ⟨bound, 0⟩ ⟨bound, 0, 0, 0⟩ le_rfl le_rfl
    obtain ⟨o', s, hret, hcases⟩ := returned_cases ⟨r, ⟨bound, 0⟩, ⟨bound, 0, 0, 0⟩⟩ hb
    obtain ⟨rfl, rfl⟩ := Prod.mk.inj (hret.symm.trans hcall)
    rcases hcases with ⟨hfail, -⟩ | ⟨-, hwalk⟩
    · simp [ho] at hfail
    · exact hwalk
  · rintro ⟨n, w⟩
    refine ⟨isBudget_of_walk w, n, fun budget runBudget hn hs => ?_⟩
    obtain ⟨runBudget', hstep, -⟩ := step_of_walk ⟨r, budget, runBudget⟩ w hb hn hs
    rw [hstep]
    cases o <;> rfl

theorem unlimitedRun_iff_walks {os : List Outcome} (hb : r.program.Bounded) :
    UnlimitedRun r os r' ↔ Walks stepTick r os r' := by
  constructor
  · intro h
    induction h with
    | nil r => exact .nil r
    | cons h _ ih =>
      obtain ⟨n, w⟩ := (call_iff_walk hb).mp h
      exact .cons w (ih (program_of_exec w.exec ▸ hb))
  · intro h
    induction h with
    | nil r => exact .nil r
    | cons w _ ih =>
      exact .cons ((call_iff_walk hb).mpr ⟨_, w⟩) (ih (program_of_exec w.exec ▸ hb))

/-- Successive calls execute the machine; the outcomes that are not budget failures are what it
shows. -/
theorem callAll_exec (budgets : List (StepBudget × RunBudget)) (r : ControllerRunner)
    (hb : r.program.Bounded) :
    ∃ n, Exec stepTick r n (retained (callAll r budgets).1) (callAll r budgets).2 := by
  induction budgets generalizing r with
  | nil => exact ⟨0, .refl r⟩
  | cons first rest ih =>
    obtain ⟨budget, runBudget⟩ := first
    obtain ⟨o, s, hret, hcases⟩ := returned_cases ⟨r, budget, runBudget⟩ hb
    simp only [callAll, hret]
    rcases hcases with ⟨hfail, n, x⟩ | ⟨hfail, n, w⟩
    · obtain ⟨m, hrest⟩ := ih s (program_of_exec x ▸ hb)
      refine ⟨n + m, ?_⟩
      simpa [retained, hfail] using x.trans hrest
    · obtain ⟨m, hrest⟩ := ih s (program_of_exec w.exec ▸ hb)
      refine ⟨n + m, ?_⟩
      simpa [retained, hfail] using w.exec.trans hrest

/-- **Budget failures are safe to retry.**  Whatever budgets the calls have, the outcomes other
than budget failures are a prefix of the outcomes of a run with unlimited budgets, and an
unlimited run from the state left behind continues it: the same selections, random draws,
interleave turns and Once Only marks follow. -/
theorem budget_failures_retry_safe {tree : ControllerNode} {limits : ControllerLimits}
    {program : ControllerProgram}
    (hc : ControllerProgram.compileWithLimits tree limits = .ok program)
    (r : ControllerRunner) (hr : r.program = program)
    (budgets : List (StepBudget × RunBudget)) :
    (∃ s, UnlimitedRun r (retained (callAll r budgets).1) s) ∧
      ∀ o os s, UnlimitedRun (callAll r budgets).2 (o :: os) s →
        UnlimitedRun r (retained (callAll r budgets).1 ++ o :: os) s := by
  have hb : r.program.Bounded := hr ▸ (compile_represents hc).2
  obtain ⟨n, hexec⟩ := callAll_exec budgets r hb
  constructor
  · obtain ⟨s, -, hwalks, -⟩ := hexec.walks
    exact ⟨s, (unlimitedRun_iff_walks hb).mpr hwalks⟩
  · intro o os s hmore
    have hmore' := (unlimitedRun_iff_walks (program_of_exec hexec ▸ hb)).mp hmore
    exact (unlimitedRun_iff_walks hb).mpr (.of_exec hexec hmore')

/-- A Random Order controller over two samplers, in a call that cannot pay for its permutation and
one that has no sample left. -/
theorem budget_failures_retry_safe_randomOrder :
    ∃ program, ControllerProgram.compile (.randomOrder 1 7 [.sample 2, .sample 3]) = .ok program ∧
      ∃ s, UnlimitedRun (.new program)
        (retained (callAll (.new program) [(.new 1, .new 8 8), (.new 8, .new 0 8),
          (.new 8, .new 8 8)]).1) s :=
  ⟨⟨[.sample 2, .sample 3, .randomOrder 1 7 [0, 1]], 2⟩, by decide +kernel,
    (@budget_failures_retry_safe (.randomOrder 1 7 [.sample 2, .sample 3]) .default _
      (by decide +kernel) (.new _) rfl _).1⟩

end JmeterRs.Controllers
