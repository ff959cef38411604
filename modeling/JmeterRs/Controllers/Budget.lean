import JmeterRs.Controllers.FramePlan
import JmeterRs.Lib.Tick

/-!
# Calls under budgets

Without its budgets the runner is a machine that ticks once per round (`stepTick`).  A call under
any step and sample budget is an interrupted execution of that machine (`step_attempt`), and a
call whose budgets are large enough is a whole walk (`step_of_walk`).  A budget failure therefore
loses nothing, and nothing is drawn, turned or marked twice.
-/

namespace JmeterRs.Controllers

/-- The errors of an exhausted step or sample budget. -/
def ControllerError.isBudget : ControllerError → Bool
  | .stepBudgetExhausted _ _ | .sampleBudgetExhausted _ _ => true
  | _ => false

/-! ## What a plan keeps -/

/-- Runners at the same place of the same run, up to their frames and their memory. -/
structure ControllerRunner.Fixed (r r' : ControllerRunner) : Prop where
  program : r'.program = r.program
  rootStarted : r'.rootStarted = r.rootStarted
  finished : r'.finished = r.finished
  terminal : r'.terminal = r.terminal
  completedIterations : r'.completedIterations = r.completedIterations

/-- A plan that changes only frames and memory, and whose errors are not budget errors. -/
structure Plan.Local {α : Type} (r : ControllerRunner) (p : Plan α) : Prop where
  fixed : r.Fixed p.next
  error : ∀ e, p.result = .error e → e.isBudget = false

namespace ControllerRunner

theorem Fixed.refl (r : ControllerRunner) : r.Fixed r := ⟨rfl, rfl, rfl, rfl, rfl⟩

theorem Fixed.setTop {r r' : ControllerRunner} (h : r.Fixed r') (f : Frame → Frame) :
    r.Fixed (r'.setTop f) := by
  unfold ControllerRunner.setTop
  cases r'.stack with
  | nil => exact h
  | cons => exact { h with }

theorem Fixed.withMemory (r : ControllerRunner) (m : Memory) : r.Fixed (r.withMemory m) :=
  ⟨rfl, rfl, rfl, rfl, rfl⟩

variable (r : ControllerRunner) (frame : Frame) {e : ControllerError}

theorem local_done {α : Type} (a : α) : (Plan.done r (.ok a)).Local r :=
  ⟨.refl r, fun _ h => nomatch h⟩

theorem local_fail {α : Type} (he : e.isBudget = false) :
    (Plan.done r (.error e) : Plan α).Local r :=
  ⟨.refl r, fun _ h => by cases h; exact he⟩

theorem isBudget_overflow (node : NodeIndex) : (r.iterationOverflow node).isBudget = false := by
  unfold iterationOverflow
  split <;> rfl

theorem local_childPlan (child : NodeIndex) : (r.childPlan frame child).Local r := by
  unfold childPlan
  cases checkedAdd usizeMax frame.nextChild 1 with
  | none => exact ⟨.refl r, fun _ h => by cases h; rfl⟩
  | some next => exact ⟨(Fixed.refl r).setTop _, fun _ h => nomatch h⟩

theorem local_ordered (children : List NodeIndex) {atEnd : Except ControllerError FrameAction}
    (h : ∀ e, atEnd = .error e → e.isBudget = false) :
    (r.orderedPlan frame children atEnd).Local r := by
  unfold orderedPlan
  cases children[frame.nextChild]? with
  | none => exact ⟨.refl r, h⟩
  | some child => exact r.local_childPlan frame child

theorem local_interleave (id : ElementId) (children : List NodeIndex) :
    (r.interleavePlan frame id children).Local r := by
  simp only [interleavePlan]
  cases children[(r.interleaveNext id).getD 0 % children.length]? with
  | none => exact r.local_fail rfl
  | some child =>
    simp only
    cases checkedAdd usizeMax ((r.interleaveNext id).getD 0) 1 with
    | none => exact r.local_fail rfl
    | some next => exact ⟨(Fixed.withMemory r _).setTop _, fun _ h => by cases h⟩

theorem local_randomPlan (id : ElementId) (seed : UInt64) (children : List NodeIndex) :
    (r.randomPlan frame id seed children).Local r := by
  simp only [randomPlan]
  cases children[(r.drawIndex id seed children.length).index]? with
  | none => exact ⟨.withMemory r _, fun _ h => by cases h; rfl⟩
  | some child => exact ⟨(Fixed.withMemory r _).setTop _, fun _ h => by cases h⟩

theorem local_order (id : ElementId) (seed : UInt64) (children : List NodeIndex) :
    (r.randomOrderPlan frame id seed children).Local r := by
  simp only [randomOrderPlan]
  generalize Memory.shuffle id seed (children.length - 1) children r.toMemory = sh
  have hmode := (Fixed.withMemory r sh.memory).setTop
    ({ · with mode := .randomOrder (some sh.order) })
  cases sh.order[frame.nextChild]? with
  | none => exact ⟨hmode, fun _ h => by cases h⟩
  | some child =>
    simp only
    cases checkedAdd usizeMax frame.nextChild 1 with
    | none => exact ⟨hmode, fun _ h => by cases h; rfl⟩
    | some next => exact ⟨hmode.setTop _, fun _ h => by cases h⟩

theorem isBudget_loopEnd (count : UInt64) (e : ControllerError)
    (h : r.loopEnd frame count = .error e) : e.isBudget = false := by
  unfold loopEnd at h
  split at h
  · cases h
    exact r.isBudget_overflow frame.node
  · split_ifs at h

theorem local_framePlan : (r.framePlan frame).Local r := by
  have hok {a : FrameAction} (e : ControllerError) (h : (.ok a : Except _ _) = .error e) :
      e.isBudget = false := nomatch h
  unfold framePlan
  rcases r.program.nodes[frame.node]? with _ | node
  · exact r.local_fail rfl
  cases node with
  | sample => exact r.local_fail rfl
  | disabled => exact r.local_done _
  | simple id children => exact r.local_ordered frame children hok
  | loop id count children =>
    cases count with
    | forever => exact r.local_ordered frame children hok
    | finite count =>
      simp only
      split_ifs
      · exact r.local_done _
      · exact r.local_ordered frame children (r.isBudget_loopEnd frame count)
  | onceOnly id children =>
    simp only
    split_ifs
    · exact r.local_done _
    · exact r.local_ordered frame children hok
  | interleave id children =>
    simp only
    split_ifs
    · exact r.local_done _
    · split
      · exact r.local_done _
      · exact r.local_interleave frame id children
      · exact r.local_fail rfl
  | random id seed children =>
    simp only
    split_ifs
    · exact r.local_done _
    · split
      · exact r.local_done _
      · exact r.local_randomPlan frame id seed children
      · exact r.local_fail rfl
  | randomOrder id seed children =>
    simp only
    split_ifs
    · exact r.local_done _
    · split
      · exact r.local_ordered frame _ hok
      · exact r.local_order frame id seed children
      · exact r.local_fail rfl

theorem entered_fixed (child : NodeIndex) (node : CompiledNode) :
    r.Fixed (r.entered child node) := by
  unfold entered
  cases node <;> first
    | exact ⟨rfl, rfl, rfl, rfl, rfl⟩
    | (simp only; split_ifs <;> exact ⟨rfl, rfl, rfl, rfl, rfl⟩)

theorem local_follow (action : FrameAction) : r.Fixed (followAction frame action r).2 ∧
      ∀ e, (followAction frame action r).1 = .error e → e.isBudget = false := by
  unfold followAction
  cases action with
  | select child =>
    simp only
    rcases r.program.nodes[child]? with _ | node
    · exact ⟨.refl r, fun _ h => by cases h; rfl⟩
    · have he := r.entered_fixed child node
      cases node <;> first
        | exact ⟨he, fun _ h => nomatch h⟩
        | exact ⟨.refl r, fun _ h => nomatch h⟩
  | finish => exact ⟨⟨rfl, rfl, rfl, rfl, rfl⟩, fun _ h => nomatch h⟩
  | advanceLoop =>
    simp only
    cases checkedAdd u64Max frame.iteration 1 with
    | none => exact ⟨.refl r, fun _ h => by cases h; exact r.isBudget_overflow frame.node⟩
    | some iteration => exact ⟨(Fixed.refl r).setTop _, fun _ h => nomatch h⟩

theorem Fixed.trans {r r' r'' : ControllerRunner} (h : r.Fixed r') (h' : r'.Fixed r'') :
    r.Fixed r'' :=
  ⟨h'.program.trans h.program, h'.rootStarted.trans h.rootStarted, h'.finished.trans h.finished,
    h'.terminal.trans h.terminal, h'.completedIterations.trans h.completedIterations⟩

theorem local_andThen {p : Plan FrameAction} (hp : p.Local r) :
    (p.andThen (followAction frame)).Local r := by
  unfold Plan.andThen
  cases hr : p.result with
  | error e =>
    refine ⟨hp.fixed, fun e' h => ?_⟩
    cases h
    exact hp.error e hr
  | ok action =>
    obtain ⟨hfixed, herror⟩ := p.next.local_follow frame action
    exact ⟨hp.fixed.trans hfixed, herror⟩

/-- The rounds of a traversal: the program stays, errors are not budget errors, and only a round
that completes the traversal finishes the runner. -/
structure Round (r : ControllerRunner) (p : Plan (Option ControllerStep)) : Prop where
  program : p.next.program = r.program
  error : ∀ e, p.result = .error e → e.isBudget = false
  finished : p.result ≠ .ok (some .complete) → p.next.finished = r.finished
  terminal : p.next.terminal = r.terminal

theorem round_of_local {p : Plan (Option ControllerStep)} (h : p.Local r) : Round r p :=
  ⟨h.fixed.program, h.error, fun _ => h.fixed.finished, h.fixed.terminal⟩

theorem round_startPlan : Round r r.startPlan := by
  unfold startPlan
  rcases r.program.nodes[r.program.root]? with _ | node
  · exact r.round_of_local (r.local_fail rfl)
  · have h := entered_fixed { r with rootStarted := true } r.program.root node
    cases node with
    | sample => exact ⟨rfl, fun _ h => (nomatch h), fun _ => rfl, rfl⟩
    | _ => exact ⟨h.program, fun _ h => (nomatch h), fun _ => h.finished, h.terminal⟩

theorem round_endPlan : Round r r.endPlan := by
  unfold endPlan rootIdentity
  rcases r.nodeIdentity r.program.root with _ | controller
  · exact r.round_of_local (r.local_fail rfl)
  · simp only
    cases checkedAdd u64Max r.completedIterations 1 with
    | none => exact r.round_of_local (r.local_fail rfl)
    | some completed =>
      exact ⟨rfl, fun _ h => (nomatch h), fun h => absurd rfl h, rfl⟩

theorem round_paidPlan : Round r r.paidPlan := by
  unfold paidPlan
  split_ifs
  · exact r.round_startPlan
  · cases r.stack with
    | nil => exact r.round_endPlan
    | cons frame below =>
      exact r.round_of_local (r.local_andThen frame (r.local_framePlan frame))

theorem round_roundPlan : Round r r.roundPlan := by
  unfold roundPlan
  cases r.terminal with
  | some signal => exact r.round_of_local (r.local_done _)
  | none => exact { r.round_paidPlan with }

theorem one_le_cost (h : r.roundPlan.result = .ok none ∨ r.roundPlan.reserve = true) :
    1 ≤ r.roundPlan.cost := by
  unfold roundPlan at h ⊢
  cases ht : r.terminal with
  | some signal => simp [ht, Plan.done] at h
  | none => exact Nat.le_add_right 1 _

/-! ## The machine without budgets -/

/-- The plan of the next round of a call. -/
def callPlan : Plan (Option ControllerStep) :=
  match r.terminal with
  | some signal => .done r (.ok (some (.stopped signal)))
  | none => if r.finished then .done r (.ok (some .complete)) else r.paidPlan.pay 1

/-- The machine behind a call with the Continue signal. -/
def stepTick (r : ControllerRunner) :
    Tick ControllerRunner (Except ControllerError ControllerStep) where
  cost := r.callPlan.cost
  out := match r.callPlan.result with
    | .ok none => none
    | .ok (some step) => some (.ok step)
    | .error e => some (.error e)
  next := r.callPlan.next

variable {r}

theorem active_callPlan (hf : r.finished = false) : r.callPlan = r.roundPlan := by
  unfold callPlan roundPlan
  cases r.terminal <;> simp [hf]

theorem round_call (r : ControllerRunner) : Round r r.callPlan := by
  unfold callPlan
  cases r.terminal with
  | some signal => exact r.round_of_local (r.local_done _)
  | none =>
    simp only
    split_ifs
    · exact r.round_of_local (r.local_done _)
    · exact { r.round_paidPlan with }

theorem tick_next : r.stepTick.next = r.callPlan.next := rfl

theorem tick_silent (h : r.callPlan.result = .ok none) : r.stepTick.out = none := by
  simp only [stepTick, h]

theorem stepTick_ok {step : ControllerStep} (h : r.callPlan.result = .ok (some step)) :
    r.stepTick.out = some (.ok step) := by
  simp only [stepTick, h]

theorem tick_error (h : r.callPlan.result = .error e) : r.stepTick.out = some (.error e) := by
  simp only [stepTick, h]

theorem walk_of_done {step : ControllerStep} (h : r.callPlan = .done r (.ok (some step))) :
    Walk stepTick r 0 (.ok step) r := by
  have w : Walk stepTick r r.stepTick.cost (.ok step) r.stepTick.next :=
    .visible (stepTick_ok (by rw [h]; rfl))
  have hcost : r.stepTick.cost = 0 := congrArg Plan.cost h
  rwa [hcost, tick_next, h] at w

theorem walk_of_terminal {signal : ControlSignal} (h : r.terminal = some signal) :
    Walk stepTick r 0 (.ok (.stopped signal)) r :=
  walk_of_done (by simp only [callPlan, h])

theorem walk_of_finished (ht : r.terminal = none) (hf : r.finished = true) :
    Walk stepTick r 0 (.ok .complete) r :=
  walk_of_done (by simp [callPlan, ht, hf])

theorem stepTick_error_inv (h : r.stepTick.out = some (.error e)) :
    r.callPlan.result = .error e := by
  unfold stepTick at h
  cases hres : r.callPlan.result with
  | error e' => simpa [hres] using h
  | ok next => cases next <;> simp [hres] at h

/-- A silent tick belongs to an active traversal and leaves it active. -/
theorem silent_inv (h : r.stepTick.out = none) :
    r.callPlan.result = .ok none ∧ r.terminal = none ∧ r.finished = false := by
  have hres : r.callPlan.result = .ok none := by
    unfold stepTick at h
    revert h
    simp only
    split <;> simp_all
  refine ⟨hres, ?_⟩
  unfold callPlan at hres
  cases ht : r.terminal with
  | some signal => simp [ht, Plan.done] at hres
  | none =>
    cases hf : r.finished with
    | true => simp [ht, hf, Plan.done] at hres
    | false => exact ⟨rfl, rfl⟩

end ControllerRunner

/-! ## Any call is an interrupted execution -/

open ControllerRunner

/-- A call that starts in `r` with `m` transitions left either completes a walk, or is interrupted
by a budget error after some silent ticks. -/
inductive Attempt (r : ControllerRunner) (m : ℕ) :
    EStateM.Result ControllerError Call ControllerStep → Prop
  | ok {step : ControllerStep} {c : Call} {n : ℕ} (w : Walk stepTick r n (.ok step) c.runner)
      (hn : n ≤ m) : Attempt r m (.ok step c)
  | error {e : ControllerError} {c : Call} {n : ℕ} (he : e.isBudget = false)
      (w : Walk stepTick r n (.error e) c.runner) : Attempt r m (.error e c)
  | interrupted {e : ControllerError} {c : Call} {n : ℕ} (he : e.isBudget = true)
      (x : Exec stepTick r n [] c.runner) : Attempt r m (.error e c)

theorem Attempt.silent {r : ControllerRunner} {m : ℕ}
    {x : EStateM.Result ControllerError Call ControllerStep} (h : r.stepTick.out = none)
    (hm : r.stepTick.cost ≤ m) (hx : Attempt r.stepTick.next (m - r.stepTick.cost) x) :
    Attempt r m x := by
  cases hx with
  | ok w hn => exact .ok (.silent h w) (by omega)
  | error he w => exact .error he (.silent h w)
  | interrupted he x => exact .interrupted he (.silent h x)

variable {c : Call} {stuck : ControllerError} {n : ℕ}

theorem Plan.run_cases {α : Type} (p : Plan α) :
    (∃ e c', p.run c = .error e c' ∧ e.isBudget = true ∧ c'.runner = c.runner) ∨
      ∃ runBudget, p.run c = p.accept c runBudget ∧ p.cost ≤ c.budget.remaining := by
  unfold Plan.run
  split_ifs with hc
  · exact .inl ⟨_, _, rfl, rfl, rfl⟩
  · unfold RunBudget.reserveSample
    split_ifs
    · exact .inl ⟨_, _, rfl, rfl, rfl⟩
    · exact .inr ⟨_, rfl, not_lt.mp hc⟩
  · exact .inr ⟨_, rfl, not_lt.mp hc⟩

theorem loop_attempt (c : Call) (hb : c.runner.program.Bounded) (hf : c.runner.finished = false)
    (hn : c.budget.remaining < n) :
    Attempt c.runner c.budget.remaining (loopM stuck selectRound n c) := by
  -- a round that goes on pays at least one transition, so `n` rounds are never used up
  induction n generalizing c with
  | zero => exact absurd hn (Nat.not_lt_zero _)
  | succ n ih =>
    have hplan := active_callPlan hf
    have hround := c.runner.round_roundPlan
    have hrun := selectRound_eq hb
    rcases c.runner.roundPlan.run_cases with ⟨e, c', hrefused, he, hr⟩ | ⟨runBudget, haccept, hle⟩
    · rw [loopM_error (hrun.trans hrefused)]
      refine .interrupted he (?_ : Exec stepTick c.runner 0 [] _)
      rw [hr]
      exact .refl _
    · rw [haccept] at hrun
      unfold Plan.accept at hrun
      rw [← hplan] at hrun hround hle
      cases hres : c.runner.callPlan.result with
      | error e =>
        rw [hres] at hrun
        rw [loopM_error hrun]
        exact .error (hround.error e hres) (.visible (tick_error hres))
      | ok next =>
        rw [hres] at hrun
        cases next with
        | some step =>
          rw [loopM_break hrun]
          exact .ok (.visible (stepTick_ok hres)) hle
        | none =>
          rw [loopM_continue hrun]
          refine .silent (tick_silent hres) hle ?_
          have hrem : (c.budget.pay c.runner.callPlan.cost).remaining =
              c.budget.remaining - c.runner.stepTick.cost := StepBudget.remaining_pay _ _
          rw [← hrem]
          refine ih ⟨c.runner.callPlan.next, c.budget.pay c.runner.callPlan.cost, _⟩ ?_ ?_ ?_
          · exact hround.program ▸ hb
          · exact (hround.finished (by simp [hres])).trans hf
          · have hcost := c.runner.one_le_cost (.inl (hplan ▸ hres))
            rw [← hplan] at hcost
            rw [StepBudget.remaining_pay]
            omega

/-- A call with the Continue signal only selects. -/
theorem step_continue_eq : stepWithRunBudget .continue c =
      match c.runner.terminal with
      | some existing => .ok (.stopped existing) c
      | none => selectNextWithSampleBudget c := by
  unfold stepWithRunBudget
  simp only [bind, EStateM.bind, getRunner, ControlSignal.isStop]
  cases c.runner.terminal <;> rfl

/-- **Every call with the Continue signal is an attempt**, whatever its budgets. -/
theorem step_attempt (c : Call) (hb : c.runner.program.Bounded) :
    Attempt c.runner c.budget.remaining (stepWithRunBudget .continue c) := by
  rw [step_continue_eq]
  cases ht : c.runner.terminal with
  | some existing => exact .ok (walk_of_terminal ht) (Nat.zero_le _)
  | none =>
    unfold selectNextWithSampleBudget
    simp only
    cases hf : c.runner.finished with
    | true => exact .ok (walk_of_finished ht hf) (Nat.zero_le _)
    | false => exact loop_attempt c hb hf (Nat.lt_succ_self _)

variable {r r' : ControllerRunner} {o : Except ControllerError ControllerStep}

theorem program_of_exec {os : List (Except ControllerError ControllerStep)}
    (h : Exec stepTick r n os r') : r'.program = r.program := by
  induction h with
  | refl => rfl
  | silent _ _ ih | visible _ _ ih => exact ih.trans (round_call _).program

/-- A walk that does not complete the traversal leaves it as active as it was. -/
theorem active_of_walk (h : Walk stepTick r n o r') (ho : o ≠ .ok .complete) :
    r'.terminal = r.terminal ∧ r'.finished = r.finished := by
  induction h with
  | @visible r o hout =>
    refine ⟨(round_call r).terminal, (round_call r).finished fun hres => ho ?_⟩
    simpa [stepTick_ok hres] using hout.symm
  | @silent r n o r' hout _ ih =>
    obtain ⟨hres, -, -⟩ := silent_inv hout
    obtain ⟨ht, hf⟩ := ih ho
    exact ⟨ht.trans (round_call r).terminal,
      hf.trans ((round_call r).finished (by simp [hres]))⟩

theorem one_le_of_walk (h : Walk stepTick r n o r') (ht : r.terminal = none)
    (hf : r.finished = false) : 1 ≤ n := by
  have hcost : 1 ≤ r.stepTick.cost := by
    show 1 ≤ r.callPlan.cost
    unfold callPlan
    simp only [ht, hf, Bool.false_eq_true, if_false]
    exact Nat.le_add_right 1 _
  cases h with
  | visible => exact hcost
  | silent => omega

/-! ## A call with enough budget is a walk -/

def RunBudget.samplesLeft (b : RunBudget) : ℕ := b.maxSamples - b.emitted

/-- A run budget after at most `n` reservations. -/
structure RunBudget.Reserved (n : ℕ) (b b' : RunBudget) : Prop where
  maxSamples : b'.maxSamples = b.maxSamples
  maxTransitions : b'.maxTransitions = b.maxTransitions
  transitions : b'.transitions = b.transitions
  emitted : b'.emitted ≤ b.emitted + n

theorem RunBudget.Reserved.refl (n : ℕ) (b : RunBudget) : RunBudget.Reserved n b b :=
  ⟨rfl, rfl, rfl, Nat.le_add_right _ _⟩

theorem RunBudget.Reserved.trans {m n : ℕ} {b b' b'' : RunBudget} (h : RunBudget.Reserved m b b')
    (h' : RunBudget.Reserved n b' b'') : RunBudget.Reserved (m + n) b b'' := by
  refine ⟨h'.maxSamples.trans h.maxSamples, h'.maxTransitions.trans h.maxTransitions,
    h'.transitions.trans h.transitions, ?_⟩
  have := h.emitted
  have := h'.emitted
  omega

/-- The result of a call whose walk is paid in full. -/
def walked (o : Except ControllerError ControllerStep) (r : ControllerRunner)
    (budget : StepBudget) (runBudget : RunBudget) :
    EStateM.Result ControllerError Call ControllerStep :=
  match o with
  | .ok step => .ok step ⟨r, budget, runBudget⟩
  | .error e => .error e ⟨r, budget, runBudget⟩

theorem Plan.run_accept {α : Type} (p : Plan α) (hc : p.cost ≤ c.budget.remaining)
    (hcost : p.reserve = true → 1 ≤ p.cost) (hs : p.cost ≤ c.runBudget.samplesLeft) :
    ∃ runBudget, p.run c = p.accept c runBudget ∧
      RunBudget.Reserved p.cost c.runBudget runBudget := by
  unfold Plan.run
  rw [if_neg (by omega)]
  split_ifs with hr
  · have := hcost hr
    unfold RunBudget.samplesLeft at hs
    unfold RunBudget.reserveSample
    rw [if_neg (by omega)]
    refine ⟨_, rfl, rfl, rfl, rfl, ?_⟩
    show c.runBudget.emitted + 1 ≤ _
    omega
  · exact ⟨_, rfl, .refl _ _⟩

theorem round_of_tick (hb : c.runner.program.Bounded) (hf : c.runner.finished = false)
    (hk : c.runner.stepTick.cost ≤ c.budget.remaining)
    (hs : c.runner.stepTick.cost ≤ c.runBudget.samplesLeft) :
    ∃ runBudget, selectRound c = c.runner.callPlan.accept c runBudget ∧
      RunBudget.Reserved c.runner.stepTick.cost c.runBudget runBudget := by
  have hplan := active_callPlan hf
  rw [selectRound_eq hb, ← hplan]
  refine c.runner.callPlan.run_accept hk (fun hr => ?_) hs
  rw [hplan] at hr ⊢
  exact c.runner.one_le_cost (.inr hr)

theorem loop_of_walk {k : ℕ} (w : Walk stepTick r k o r') :
    ∀ (n : ℕ) (c : Call), c.runner = r → r.program.Bounded → r.finished = false →
      k ≤ c.budget.remaining → c.budget.remaining < n → k ≤ c.runBudget.samplesLeft →
      ∃ runBudget, loopM stuck selectRound n c = walked o r' (c.budget.pay k) runBudget ∧
        RunBudget.Reserved k c.runBudget runBudget := by
  induction w with
  | @visible r o hout =>
    rintro (_ | n) c rfl hb hf hk hn hs
    · exact absurd hn (Nat.not_lt_zero _)
    · obtain ⟨runBudget, hround, hres⟩ := round_of_tick hb hf hk hs
      refine ⟨runBudget, ?_, hres⟩
      unfold Plan.accept at hround
      cases hresult : c.runner.callPlan.result with
      | error e =>
        obtain rfl : .error e = o := by simpa [tick_error hresult] using hout
        rw [hresult] at hround
        exact loopM_error hround
      | ok next =>
        rw [hresult] at hround
        cases next with
        | none => simp [tick_silent hresult] at hout
        | some step =>
          obtain rfl : .ok step = o := by simpa [stepTick_ok hresult] using hout
          exact loopM_break hround
  | @silent r k o r' hout w ih =>
    rintro (_ | n) c rfl hb hf hk hn hs
    · exact absurd hn (Nat.not_lt_zero _)
    · obtain ⟨hresult, -, -⟩ := silent_inv hout
      obtain ⟨runBudget, hround, hres⟩ := round_of_tick hb hf (by omega) (by omega)
      have hinv := active_callPlan hf ▸ c.runner.round_roundPlan
      have hcost := c.runner.one_le_cost (.inl (active_callPlan hf ▸ hresult))
      rw [← active_callPlan hf] at hcost
      change 1 ≤ c.runner.stepTick.cost at hcost
      unfold Plan.accept at hround
      rw [hresult] at hround
      have hleft : k ≤ runBudget.samplesLeft := by
        have := hres.emitted
        have := hres.maxSamples
        unfold RunBudget.samplesLeft at hs ⊢
        omega
      obtain ⟨runBudget', hloop, hres'⟩ := ih n
        ⟨c.runner.stepTick.next, c.budget.pay c.runner.stepTick.cost, runBudget⟩ rfl
        (hinv.program ▸ hb) ((hinv.finished (by simp [hresult])).trans hf)
        (by rw [StepBudget.remaining_pay]; omega) (by rw [StepBudget.remaining_pay]; omega) hleft
      refine ⟨runBudget', ?_, hres.trans hres'⟩
      rw [loopM_continue hround]
      rw [StepBudget.pay_pay] at hloop
      exact hloop

/-- **A call whose budgets cover a walk performs it.** -/
theorem step_of_walk {k : ℕ} (c : Call) (w : Walk stepTick c.runner k o r')
    (hb : c.runner.program.Bounded) (hk : k ≤ c.budget.remaining) (hs : k ≤ c.runBudget.samplesLeft)
    : ∃ runBudget, stepWithRunBudget .continue c = walked o r' (c.budget.pay k) runBudget ∧
      RunBudget.Reserved k c.runBudget runBudget := by
  rw [step_continue_eq]
  cases ht : c.runner.terminal with
  | some existing =>
    obtain ⟨rfl, rfl, rfl⟩ := w.unique (walk_of_terminal ht)
    exact ⟨_, rfl, .refl _ _⟩
  | none =>
    unfold selectNextWithSampleBudget
    simp only
    cases hf : c.runner.finished with
    | true =>
      obtain ⟨rfl, rfl, rfl⟩ := w.unique (walk_of_finished ht hf)
      exact ⟨_, rfl, .refl _ _⟩
    | false => exact loop_of_walk w _ c rfl hb hf hk (Nat.lt_succ_self _) hs

end JmeterRs.Controllers
