import JmeterRs.Controllers.Simulate

/-!
# Whole traversals

From the root to `Complete`, and over any number of root traversals: `run_to_completion` returns
the selections of the recursive semantics.  `runAll_eq_denoteRuns` says so for every run that
returns, and that large enough budgets make it return unless a 64-bit counter overflows.
-/

namespace JmeterRs.Controllers

open ControllerRunner RunBudget

/-! ## One traversal of the machine without budgets -/

/-- A runner at the start of a traversal. -/
structure Ready (program : ControllerProgram) (r : ControllerRunner) : Prop where
  program : r.program = program
  stack : r.stack = []
  rootStarted : r.rootStarted = false
  finished : r.finished = false
  terminal : r.terminal = none

/-- The runner after a traversal that leaves the memory `m`. -/
def ControllerRunner.completed (r : ControllerRunner) (m : Memory) : ControllerRunner :=
  { r with
    toMemory := m, stack := [], rootStarted := true, finished := true,
    completedIterations := r.completedIterations + 1 }

section

variable {tree : ControllerNode} {program : ControllerProgram} {r : ControllerRunner}
  (hb : program.Bounded) (hrep : Represents program.nodes tree program.root)
  (hfin : tree.isFinite = true) (hr : Ready program r)

/-- The runner after the first tick, before any frame. -/
def ControllerRunner.started (r : ControllerRunner) : ControllerRunner :=
  { r with rootStarted := true }

include hb hr in
theorem active_started : Active r.started :=
  ⟨by rw [started, hr.program]; exact hb, rfl, hr.finished, hr.terminal⟩

include hr in
theorem callPlan_start : r.callPlan = r.startPlan.pay 1 := by
  unfold callPlan paidPlan
  simp [hr.terminal, hr.finished, hr.rootStarted]

include hb hrep hfin hr in
theorem sim_root : Sim r (denote r.completedIterations tree [] r.toMemory).1
      (r.started.at [] (denote r.completedIterations tree [] r.toMemory).2) := by
  have hplan := callPlan_start hr
  have hactive := active_started hb hr
  have hat : r.started.at [] r.toMemory = r.started := by
    have hstack := hr.stack
    cases r
    simp_all [started, ControllerRunner.at]
  obtain rfl := hr.program
  have hfollows := represents_follows r.program.root hrep hfin
  -- entering the root is silent
  have henter {node : CompiledNode} (hn : r.program.nodes[r.program.root]? = some node)
      (hnode : ∀ id, node ≠ .sample id) :
      Sim r (denote r.completedIterations tree [] r.toMemory).1
        (r.started.at [] (denote r.completedIterations tree [] r.toMemory).2) := by
    have hsta : r.startPlan = ⟨0, false, .ok none, r.started.entered r.program.root node⟩ := by
      unfold startPlan
      simp only [hn]
      rfl
    have hsim := hfollows r.started [] r.toMemory node hactive rfl hn hnode
    rw [hat] at hsim
    have hx : ∃ n, Exec stepTick r n [] (r.started.entered r.program.root node) :=
      Exec.of_silent (tick_silent (by rw [hplan, hsta]; rfl))
        (by rw [tick_next, hplan, hsta]; rfl)
    obtain ⟨n, hx⟩ := hx
    exact .after hx hsim
  cases hrep with
  | sample hn =>
    rename_i id
    have hsta : r.startPlan = ⟨0, true, .ok (some (.sample (r.selection id))), r.started⟩ := by
      unfold startPlan
      simp only [hn]
      rfl
    have hsel : r.selection id = ⟨id, r.completedIterations, []⟩ := by simp [selection, hr.stack]
    have hx : ∃ n, Exec stepTick r n [sampled (r.selection id)] r.started :=
      Exec.of_visible (stepTick_ok (by rw [hplan, hsta]; rfl))
        (by rw [tick_next, hplan, hsta]; rfl)
    rw [hsel, ← hat] at hx
    exact .inl hx
  | disabled hn => exact henter hn (by simp)
  | controller hs hc hn hchildren =>
    refine henter hn ?_
    rintro id rfl
    cases tree <;> simp [compiledController] at hc

omit hb hrep hfin hr in
theorem exists_identity (r : ControllerRunner) : ∃ controller, r.rootIdentity = .ok controller := by
  unfold rootIdentity nodeIdentity
  rcases r.program.nodes[r.program.root]? with _ | node
  · exact ⟨_, rfl⟩
  · cases node <;> exact ⟨_, rfl⟩

include hb hrep hfin hr in
/-- **A whole traversal** shows the selections of the tree and completes, unless a counter
overflows. -/
theorem traversal : (∃ n, Exec stepTick r n
      ((denote r.completedIterations tree [] r.toMemory).1.map sampled ++ [.ok .complete])
      (r.completed (denote r.completedIterations tree [] r.toMemory).2)) ∨
    (Fails r ∧ (r.completedIterations + 1 ≤ u64Max →
      ¬ (denote r.completedIterations tree [] r.toMemory).2.Fits)) := by
  rcases sim_root hb hrep hfin hr with ⟨n, hx⟩ | ⟨hf, hfit⟩
  · generalize (denote r.completedIterations tree [] r.toMemory).2 = m at hx ⊢
    have hend : (r.started.at [] m).callPlan = (r.started.at [] m).endPlan.pay 1 := by
      have ht : (r.started.at [] m).terminal = none := hr.terminal
      have hf : (r.started.at [] m).finished = false := hr.finished
      have hs : (r.started.at [] m).rootStarted = true := rfl
      unfold callPlan paidPlan
      simp [ht, hf, hs]
    obtain ⟨controller, hroot⟩ := exists_identity (r.started.at [] m)
    have hcount : (r.started.at [] m).completedIterations = r.completedIterations := rfl
    unfold endPlan at hend
    simp only [hroot, hcount] at hend
    by_cases hmax : r.completedIterations + 1 ≤ u64Max
    · rw [checkedAdd_le hmax] at hend
      have hx' : ∃ n, Exec stepTick (r.started.at [] m) n [.ok .complete] (r.completed m) :=
        Exec.of_visible (stepTick_ok (by rw [hend]; rfl)) (by rw [tick_next, hend]; rfl)
      obtain ⟨n', hx'⟩ := hx'
      exact .inl ⟨n + n', hx.trans hx'⟩
    · rw [checkedAdd_none.mpr (not_le.mp hmax)] at hend
      refine .inr ⟨⟨_, _, .iterationOverflow controller, _, hx.trans
        (Exec.visible (tick_error (by rw [hend]; rfl)) (.refl _))⟩, fun h => absurd h hmax⟩
  · exact .inr ⟨hf, fun _ => hfit⟩

end

/-! ## Outcomes in order -/

variable {r' : ControllerRunner} {run : Run} {r : ControllerRunner} {stuck : ControllerError}

/-- Silent ticks do not finish a runner, so nothing follows the outcome that did. -/
theorem exec_finished {n : ℕ} {os : List (Except ControllerError ControllerStep)}
    (h : Exec stepTick r n os r') (hos : os = []) (ht : r'.terminal = none)
    (hf : r'.finished = true) : r' = r := by
  induction h with
  | refl => rfl
  | @silent r n os r' hout _ ih =>
    have hnext := ih hos ht hf
    obtain ⟨hres, hr, hr'⟩ := silent_inv hout
    have := (round_call r).finished (by simp [hres])
    rw [hnext, tick_next, this] at hf
    rw [hf] at hr'
    cases hr'
  | visible => cases hos

/-- Two sequences of walks up to their first outcome that is not a selection agree. -/
theorem walks_unique {s s₁ s₂ : ControllerRunner} {a b : List SampleSelection}
    {o p : Except ControllerError ControllerStep} (ho : ∀ sel, o ≠ sampled sel)
    (hp : ∀ sel, p ≠ sampled sel) (h : Walks stepTick s (a.map sampled ++ [o]) s₁)
    (h' : Walks stepTick s (b.map sampled ++ [p]) s₂) : a = b ∧ o = p ∧ s₁ = s₂ := by
  induction a generalizing s b with
  | nil =>
    obtain _ | ⟨w, rest⟩ := h
    cases b with
    | nil =>
      obtain _ | ⟨w', rest'⟩ := h'
      obtain ⟨-, hop, rfl⟩ := w.unique w'
      cases rest
      cases rest'
      exact ⟨rfl, hop, rfl⟩
    | cons sel b =>
      obtain _ | ⟨w', -⟩ := h'
      exact absurd (w.unique w').2.1 (ho sel)
  | cons sel a ih =>
    obtain _ | ⟨w, rest⟩ := h
    cases b with
    | nil =>
      obtain _ | ⟨w', -⟩ := h'
      exact absurd (w.unique w').2.1.symm (hp sel)
    | cons sel' b =>
      obtain _ | ⟨w', rest'⟩ := h'
      obtain ⟨-, hsel, rfl⟩ := w.unique w'
      obtain ⟨rfl, rfl, rfl⟩ := ih rest rest'
      simp only [sampled, Except.ok.injEq, ControllerStep.sample.injEq] at hsel
      exact ⟨by rw [hsel], rfl, rfl⟩

/-! ## `run_to_completion` -/

theorem runRound_walk {run' : Run} {next : Option ExecutionTrace} (hb : run.runner.program.Bounded)
    (hs : run.signal = .continue) (h : runRound run = .ok next run') :
    ∃ n outcome, Walk stepTick run.runner n (.ok outcome) run'.runner ∧ run'.signal = .continue ∧
      ((∃ sel, outcome = .sample sel ∧ next = none ∧ run'.samples = run.samples ++ [sel]) ∨
        ((∀ sel, outcome ≠ .sample sel) ∧ next = some ⟨run.samples, outcome⟩)) := by
  unfold runRound at h
  cases hstep : run.budget.nextStepBudget with
  | error e => simp [hstep] at h
  | ok stepBudget =>
    have hatt := step_attempt ⟨run.runner, stepBudget, run.budget⟩ hb
    rw [hs] at h
    simp only [hstep] at h
    cases hcall : stepWithRunBudget .continue ⟨run.runner, stepBudget, run.budget⟩ with
    | error e c => simp [hcall] at h
    | ok outcome c =>
      rw [hcall] at hatt
      obtain ⟨w, -⟩ := hatt
      simp only [hcall] at h
      cases outcome with
      | sample sel =>
        cases h
        exact ⟨_, _, w, rfl, .inl ⟨sel, rfl, rfl, rfl⟩⟩
      | complete | stopped signal =>
        cases h
        exact ⟨_, _, w, rfl, .inr ⟨by simp, rfl⟩⟩

/-- The selections of a run are those of the machine without budgets, whatever its budget. -/
theorem walks_of_run {fuel : ℕ} {run' : Run} {trace : ExecutionTrace}
    (hb : run.runner.program.Bounded) (hs : run.signal = .continue)
    (h : loopM stuck runRound fuel run = .ok trace run') :
    ∃ rest, trace.samples = run.samples ++ rest ∧ (∀ sel, trace.terminal ≠ .sample sel) ∧
      Walks stepTick run.runner (rest.map sampled ++ [.ok trace.terminal]) run'.runner := by
  induction fuel generalizing run with
  | zero => cases h
  | succ fuel ih =>
    cases hround : runRound run with
    | error e run₁ =>
      rw [loopM_error hround] at h
      cases h
    | ok next run₁ =>
      obtain ⟨n, outcome, w, hs₁, ⟨sel, rfl, rfl, hsamples⟩ | ⟨hsel, rfl⟩⟩ :=
        runRound_walk hb hs hround
      · rw [loopM_continue hround] at h
        have hb₁ : run₁.runner.program.Bounded := (program_of_exec w.exec).symm ▸ hb
        obtain ⟨rest, htrace, hterm, hwalks⟩ := ih hb₁ hs₁ h
        exact ⟨sel :: rest, by simp [htrace, hsamples], hterm, .cons w hwalks⟩
      · rw [loopM_break hround] at h
        cases h
        exact ⟨[], by simp, hsel, .cons w (.nil _)⟩

def RunBudget.transitionsLeft (b : RunBudget) : ℕ := b.maxTransitions - b.transitions

/-- The result of a round that has seen `outcome`. -/
def seen (outcome : ControllerStep) (r : ControllerRunner) (budget : RunBudget)
    (samples : List SampleSelection) :
    EStateM.Result ControllerError Run (Option ExecutionTrace) :=
  match outcome with
  | .sample selection => .ok none ⟨r, budget, samples ++ [selection], .continue⟩
  | .complete | .stopped _ => .ok (some ⟨samples, outcome⟩) ⟨r, budget, samples, .continue⟩

theorem runRound_of_walk {k : ℕ} {outcome : ControllerStep} (hb : run.runner.program.Bounded)
    (hs : run.signal = .continue) (w : Walk stepTick run.runner k (.ok outcome) r') (hk : 1 ≤ k)
    (hsamples : k ≤ run.budget.samplesLeft) (htrans : k ≤ run.budget.transitionsLeft) :
    ∃ budget : RunBudget, run.budget.samplesLeft ≤ budget.samplesLeft + k ∧
      run.budget.transitionsLeft = budget.transitionsLeft + k ∧
      runRound run = seen outcome r' budget run.samples := by
  unfold transitionsLeft at htrans
  have hstep : run.budget.nextStepBudget =
      .ok (StepBudget.new (run.budget.maxTransitions - run.budget.transitions)) := by
    unfold nextStepBudget
    rw [if_neg (by omega)]
  obtain ⟨runBudget, hcall, hreserved⟩ := step_of_walk
    ⟨run.runner, StepBudget.new (run.budget.maxTransitions - run.budget.transitions), run.budget⟩
    w hb (by simpa [StepBudget.new, StepBudget.remaining] using htrans) hsamples
  refine ⟨runBudget.recordStep ((StepBudget.new
    (run.budget.maxTransitions - run.budget.transitions)).pay k), ?_, ?_, ?_⟩
  · have := hreserved.emitted
    have := hreserved.maxSamples
    simp only [samplesLeft, recordStep] at *
    omega
  · have := hreserved.transitions
    have := hreserved.maxTransitions
    simp only [transitionsLeft, recordStep, StepBudget.pay, StepBudget.new] at *
    omega
  · unfold runRound
    simp only [hs, hstep, hcall, walked]
    cases outcome <;> rfl

theorem run_of_exec {fuel : ℕ} {run : Run} {r' : ControllerRunner} {n : ℕ}
    {rest : List SampleSelection} (hb : run.runner.program.Bounded) (hs : run.signal = .continue)
    (ht : run.runner.terminal = none) (hf : run.runner.finished = false)
    (hx : Exec stepTick run.runner n (rest.map sampled ++ [.ok .complete]) r')
    (hsamples : n ≤ run.budget.samplesLeft) (htrans : n ≤ run.budget.transitionsLeft)
    (hfuel : run.budget.transitionsLeft < fuel) :
    ∃ run', loopM stuck runRound fuel run = .ok ⟨run.samples ++ rest, .complete⟩ run' := by
  induction rest generalizing run n fuel with
  | nil =>
    obtain ⟨k, m, r₁, w, -, rfl⟩ := hx.cons_inv
    obtain ⟨budget, -, -, hround⟩ := runRound_of_walk hb hs w (one_le_of_walk w ht hf)
      (by omega) (by omega)
    cases fuel with
    | zero => exact absurd hfuel (Nat.not_lt_zero _)
    | succ fuel =>
      rw [loopM_break hround]
      exact ⟨_, by rw [List.append_nil]⟩
  | cons sel rest ih =>
    obtain ⟨k, m, r₁, w, hrest, rfl⟩ := hx.cons_inv
    have hk := one_le_of_walk w ht hf
    obtain ⟨budget, hsamples₁, htrans₁, hround⟩ := runRound_of_walk hb hs w hk (by omega) (by omega)
    obtain ⟨ht₁, hf₁⟩ := active_of_walk w (by simp [sampled])
    cases fuel with
    | zero => exact absurd hfuel (Nat.not_lt_zero _)
    | succ fuel =>
      rw [loopM_continue hround]
      obtain ⟨run', hrun⟩ := @ih fuel ⟨r₁, budget, run.samples ++ [sel], .continue⟩ m
        ((program_of_exec w.exec).symm ▸ hb) rfl (ht₁.trans ht) (hf₁.trans hf) hrest
        (by dsimp only; omega) (by dsimp only; omega) (by dsimp only; omega)
      exact ⟨run', by simpa using hrun⟩

/-! ## Successive root traversals -/

/-- Successive root traversals, each run to completion under its own budget and followed by
`next_root_iteration`. -/
def runAll : List RunBudget → ControllerRunner →
    Except ControllerError (List ExecutionTrace × ControllerRunner)
  | [], r => .ok ([], r)
  | budget :: budgets, r =>
    match runToCompletion r budget with
    | .error e _ => .error e
    | .ok trace run =>
      match run.runner.nextRootIteration with
      | .error e => .error e
      | .ok r₁ =>
        match runAll budgets r₁ with
        | .error e => .error e
        | .ok (traces, r₂) => .ok (trace :: traces, r₂)

/-- The runner at the start of the traversal after one that leaves the memory `m`. -/
def ControllerRunner.again (r : ControllerRunner) (m : Memory) : ControllerRunner :=
  { r with
    toMemory := m, stack := [], rootStarted := false, finished := false, terminal := none,
    completedIterations := r.completedIterations + 1 }

/-- The trace of a traversal that completes. -/
def completeTrace (samples : List SampleSelection) : ExecutionTrace := ⟨samples, .complete⟩

theorem nextRoot_completed (m : Memory) : (r.completed m).nextRootIteration = .ok (r.again m) := rfl

section

variable {tree : ControllerNode} {program : ControllerProgram} {r : ControllerRunner}
  (hb : program.Bounded) (hrep : Represents program.nodes tree program.root)
  (hfin : tree.isFinite = true)

theorem ready_again (hr : Ready program r) (m : Memory) : Ready program (r.again m) :=
  ⟨hr.program, rfl, rfl, rfl, rfl⟩

include hb hrep hfin in
/-- A run that returns shows the selections of the tree. -/
theorem run_sound (hr : Ready program r) {budget : RunBudget} {trace : ExecutionTrace}
    (h : runToCompletion r budget = .ok trace run) :
    trace = completeTrace (denote r.completedIterations tree [] r.toMemory).1 ∧
      run.runner = r.completed (denote r.completedIterations tree [] r.toMemory).2 := by
  obtain ⟨rest, hsamples, hterm, hwalks⟩ := walks_of_run (hr.program.symm ▸ hb) rfl h
  have hlast : ∀ sel, (.ok trace.terminal : Except ControllerError ControllerStep) ≠ sampled sel :=
    fun sel heq => hterm sel (by simpa [sampled] using heq)
  rcases traversal hb hrep hfin hr with ⟨n, hx⟩ | ⟨⟨n, out, e, r', hx⟩, -⟩
  · obtain ⟨r'', m, hw, hx'⟩ := hx.walks
    have hend := exec_finished hx' rfl hr.terminal rfl
    subst hend
    obtain ⟨rfl, hok, hrunner⟩ := walks_unique hlast (by simp [sampled]) hwalks hw
    refine ⟨?_, hrunner⟩
    cases trace
    simp_all [completeTrace]
  · obtain ⟨r'', m, hw, -⟩ := hx.walks
    obtain ⟨-, hok, -⟩ := walks_unique hlast (by simp [sampled]) hwalks hw
    cases hok

include hb hrep hfin in
/-- A run with a large enough budget returns, unless a counter overflows. -/
theorem run_total (hr : Ready program r) (hcount : r.completedIterations + 1 ≤ u64Max)
    (hfits : (denote r.completedIterations tree [] r.toMemory).2.Fits) :
    ∃ bound, ∀ budget : RunBudget, bound ≤ budget.samplesLeft → bound ≤ budget.transitionsLeft →
      ∃ trace run, runToCompletion r budget = .ok trace run := by
  rcases traversal hb hrep hfin hr with ⟨n, hx⟩ | ⟨-, hover⟩
  · refine ⟨n, fun budget hsamples htrans => ?_⟩
    obtain ⟨run', hrun⟩ := @run_of_exec
      (.runBudgetExhausted budget.maxTransitions budget.maxTransitions)
      (budget.maxTransitions - budget.transitions + 1) ⟨r, budget, [], .continue⟩ _ n _
      (hr.program.symm ▸ hb) rfl hr.terminal hr.finished hx hsamples htrans (Nat.lt_succ_self _)
    exact ⟨_, run', hrun⟩
  · exact absurd hfits (hover hcount)

theorem le_denoteRuns (k execution : ℕ) (m : Memory) : m ≤ (denoteRuns tree k execution m).2 := by
  induction k generalizing execution m with
  | zero => exact le_refl m
  | succ k ih => exact le_trans (grows_denote execution tree [] m) (ih _ _)

include hb hrep hfin in
theorem runAll_sound (hr : Ready program r) {budgets : List RunBudget}
    {traces : List ExecutionTrace} (h : runAll budgets r = .ok (traces, r')) :
    traces = (denoteRuns tree budgets.length r.completedIterations r.toMemory).1.map
      completeTrace := by
  induction budgets generalizing r traces with
  | nil =>
    cases h
    rfl
  | cons budget budgets ih =>
    unfold runAll at h
    cases hrun : runToCompletion r budget with
    | error e run => simp [hrun] at h
    | ok trace run =>
      obtain ⟨rfl, hrunner⟩ := run_sound hb hrep hfin hr hrun
      simp only [hrun, hrunner, nextRoot_completed] at h
      cases hrest :
        runAll budgets (r.again (denote r.completedIterations tree [] r.toMemory).2) with
      | error e => simp [hrest] at h
      | ok result =>
        simp only [hrest] at h
        cases h
        rw [ih (ready_again hr _) hrest]
        rfl

include hb hrep hfin in
theorem runAll_total (hr : Ready program r) (k : ℕ) (hcount : r.completedIterations + k ≤ u64Max)
    (hfits : (denoteRuns tree k r.completedIterations r.toMemory).2.Fits) :
    ∃ bound, ∀ budgets : List RunBudget, budgets.length = k →
      (∀ b ∈ budgets, bound ≤ b.samplesLeft ∧ bound ≤ b.transitionsLeft) →
      ∃ traces r', runAll budgets r = .ok (traces, r') := by
  induction k generalizing r with
  | zero =>
    refine ⟨0, fun budgets hlen _ => ?_⟩
    rw [List.length_eq_zero_iff.mp hlen]
    exact ⟨_, _, rfl⟩
  | succ k ih =>
    have hfits₁ : (denote r.completedIterations tree [] r.toMemory).2.Fits :=
      hfits.of_le (le_denoteRuns k (r.completedIterations + 1) _)
    obtain ⟨first, hfirst⟩ := run_total hb hrep hfin hr (by omega) hfits₁
    obtain ⟨others, hothers⟩ := ih (ready_again hr _)
      (show r.completedIterations + 1 + k ≤ u64Max by omega) hfits
    refine ⟨max first others, fun budgets hlen hbudgets => ?_⟩
    obtain _ | ⟨budget, budgets⟩ := budgets
    · cases hlen
    obtain ⟨hs, ht⟩ := hbudgets budget (.head _)
    obtain ⟨trace, run, hrun⟩ := hfirst budget (le_trans (le_max_left ..) hs)
      (le_trans (le_max_left ..) ht)
    obtain ⟨-, hrunner⟩ := run_sound hb hrep hfin hr hrun
    obtain ⟨traces, r', hrest⟩ := hothers budgets (Nat.succ.inj hlen) fun b hb' =>
      ⟨le_trans (le_max_right ..) (hbudgets b (.tail _ hb')).1,
        le_trans (le_max_right ..) (hbudgets b (.tail _ hb')).2⟩
    refine ⟨trace :: traces, r', ?_⟩
    unfold runAll
    simp only [hrun, hrunner, nextRoot_completed, hrest]

end

theorem ready_new (program : ControllerProgram) : Ready program (.new program) :=
  ⟨rfl, rfl, rfl, rfl, rfl⟩

/-- **The runner computes the recursive semantics.**  For a tree that compiles and has no Forever
loop, and any number of root traversals: whatever the budgets, runs that return show exactly the
selections of `denoteRuns`; and from some budget on they do return, unless a 64-bit counter of the
runner overflows. -/
theorem runAll_eq_denoteRuns {tree : ControllerNode} {limits : ControllerLimits}
    {program : ControllerProgram}
    (hcompile : ControllerProgram.compileWithLimits tree limits = .ok program)
    (hfin : tree.isFinite = true) (k : ℕ) :
    (∀ budgets traces r, budgets.length = k → runAll budgets (.new program) = .ok (traces, r) →
      traces = (denoteRuns tree k 0 .empty).1.map completeTrace) ∧
    (k ≤ u64Max → (denoteRuns tree k 0 .empty).2.Fits →
      ∃ bound, ∀ budgets : List RunBudget, budgets.length = k →
        (∀ b ∈ budgets, bound ≤ b.samplesLeft ∧ bound ≤ b.transitionsLeft) →
        ∃ r, runAll budgets (.new program) =
          .ok ((denoteRuns tree k 0 .empty).1.map completeTrace, r)) := by
  obtain ⟨hrep, hb⟩ := compile_represents hcompile
  have hready := ready_new program
  refine ⟨?_, fun hk hfits => ?_⟩
  · rintro budgets traces r rfl h
    exact runAll_sound hb hrep hfin hready h
  · obtain ⟨bound, htotal⟩ := runAll_total hb hrep hfin hready k
      (show 0 + k ≤ u64Max by omega) hfits
    refine ⟨bound, ?_⟩
    rintro budgets rfl hbudgets
    obtain ⟨traces, r, hrun⟩ := htotal budgets rfl hbudgets
    exact ⟨r, hrun.trans (by rw [runAll_sound hb hrep hfin hready hrun]; rfl)⟩

/-- Three traversals of a Loop around an Interleave and a OnceOnly controller. -/
theorem runAll_eq_denoteRuns_interleave : ∃ program, ControllerProgram.compile
        (.loop 1 (.finite 2) [.interleave 2 [.sample 3, .sample 4], .onceOnly 5 [.sample 6]]) =
          .ok program ∧
      ∀ budgets traces r, budgets.length = 3 → runAll budgets (.new program) = .ok (traces, r) →
        traces.map (·.samples.map (·.samplerId)) = [[3, 6, 4], [3, 4], [3, 4]] := by
  have hcompile : ControllerProgram.compile
      (.loop 1 (.finite 2) [.interleave 2 [.sample 3, .sample 4], .onceOnly 5 [.sample 6]]) =
        .ok ⟨[.sample 3, .sample 4, .interleave 2 [0, 1], .sample 6, .onceOnly 5 [3],
          .loop 1 (.finite 2) [2, 4]], 5⟩ := by decide +kernel
  refine ⟨_, hcompile, fun budgets traces r hlen hrun => ?_⟩
  rw [(runAll_eq_denoteRuns hcompile (by decide) 3).1 budgets traces r hlen hrun]
  decide +kernel

end JmeterRs.Controllers
