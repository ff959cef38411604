import JmeterRs.Controllers.Runner

/-!
# Rounds of the selection loop are atomic

A round of the selection loop is a `Plan` of the runner alone: what it costs, whether it takes a
sample from the run budget, and the outcome and runner it leaves.  `selectRound_eq` says that the
source's round carries out that plan, or refuses it with a budget error and leaves the runner as
it was.  Rejected random values and a half-built permutation are part of the cost of a plan, not
of the runner it leaves behind when refused.
-/

namespace JmeterRs.Controllers

open StepBudget ControllerRunner

/-! ## Plans -/

/-- What a method would do to the runner with unlimited budgets. -/
structure Plan (α : Type) where
  cost : ℕ
  reserve : Bool
  result : Except ControllerError α
  next : ControllerRunner

open Plan

namespace StepBudget

variable (b : StepBudget)

/-- The budget after `n` transitions. -/
def pay (n : ℕ) : StepBudget := { b with used := b.used + n }

/-- The budget after a spend was refused. -/
def exhaust : StepBudget := { b with used := max b.used b.limit }

/-- The refusal of a step budget. -/
def refusal : ControllerError := .stepBudgetExhausted (max b.used b.limit) b.limit

@[simp] theorem pay_zero : b.pay 0 = b := rfl

@[simp] theorem pay_pay (m n : ℕ) : (b.pay m).pay n = b.pay (m + n) := by
  simp only [pay, Nat.add_assoc]

theorem remaining_pay (n : ℕ) : (b.pay n).remaining = b.remaining - n := by
  simp only [pay, remaining]; omega

variable {b}

theorem exhaust_pay {n : ℕ} (h : n ≤ b.remaining) : (b.pay n).exhaust = b.exhaust := by
  simp only [pay, exhaust, remaining, StepBudget.mk.injEq, true_and] at h ⊢
  omega

theorem refusal_pay {n : ℕ} (h : n ≤ b.remaining) : (b.pay n).refusal = b.refusal := by
  simp only [pay, refusal, remaining, ControllerError.stepBudgetExhausted.injEq, and_true] at h ⊢
  omega

theorem spend_of_lt (h : 0 < b.remaining) : b.spend = .ok (b.pay 1) := by
  unfold spend
  rw [if_neg (by unfold remaining at h; omega)]
  rfl

theorem spend_of_eq (h : b.remaining = 0) : b.spend = .error b.refusal := by
  have hle : b.limit ≤ b.used := by unfold remaining at h; omega
  unfold spend refusal
  rw [if_pos hle, Nat.max_eq_left hle]

theorem exhaust_of_eq (h : b.remaining = 0) : b.exhaust = b := by
  unfold exhaust
  rw [Nat.max_eq_left (by unfold remaining at h; omega)]

end StepBudget

variable {α : Type} {c : Call}

/-- The call after a plan whose cost is covered. -/
def Plan.accept (p : Plan α) (c : Call) (runBudget : RunBudget) :
    EStateM.Result ControllerError Call α :=
  match p.result with
  | .ok a => .ok a ⟨p.next, c.budget.pay p.cost, runBudget⟩
  | .error e => .error e ⟨p.next, c.budget.pay p.cost, runBudget⟩

/-- Carries out a plan under the budgets of a call, or refuses it. -/
def Plan.run (p : Plan α) : CallM α := fun c =>
  if c.budget.remaining < p.cost then .error c.budget.refusal { c with budget := c.budget.exhaust }
  else if p.reserve then
    match c.runBudget.reserveSample with
    | .ok runBudget => p.accept c runBudget
    | .error e => .error e { c with budget := c.budget.pay p.cost }
  else p.accept c c.runBudget

/-- The plan that changes nothing. -/
def Plan.done (r : ControllerRunner) (result : Except ControllerError α) : Plan α :=
  ⟨0, false, result, r⟩

/-- A method that spends nothing. -/
def freely (f : ControllerRunner → Except ControllerError α × ControllerRunner) :
    CallM α := fun c =>
  match f c.runner with
  | (.ok a, r) => .ok a { c with runner := r }
  | (.error e, r) => .error e { c with runner := r }

/-- A plan followed by a method that spends nothing. -/
def Plan.andThen {β : Type} (p : Plan α)
    (f : α → ControllerRunner → Except ControllerError β × ControllerRunner) : Plan β :=
  match p.result with
  | .ok a => ⟨p.cost, p.reserve, (f a p.next).1, (f a p.next).2⟩
  | .error e => ⟨p.cost, p.reserve, .error e, p.next⟩

/-- A plan with `n` more transitions in front. -/
def Plan.pay (p : Plan α) (n : ℕ) : Plan α := { p with cost := n + p.cost }

theorem Plan.run_done (c : Call) (x : Except ControllerError α) :
    (done c.runner x).run c = lift x c := by
  cases x <;> simp [Plan.run, accept, done, lift]

theorem Plan.run_done_ok (a : α) : (pure a : CallM α) c = (done c.runner (.ok a)).run c :=
  (run_done c (.ok a)).symm

theorem Plan.run_done_error (e : ControllerError) :
    (throw e : CallM α) c = (done c.runner (.error e)).run c :=
  (run_done c (.error e)).symm

theorem Plan.run_andThen {β : Type} (p : Plan α)
    (f : α → ControllerRunner → Except ControllerError β × ControllerRunner) :
    (p.run >>= fun a => freely (f a)) c = (p.andThen f).run c := by
  show EStateM.bind p.run _ c = _
  unfold EStateM.bind andThen Plan.run accept
  cases hp : p.result with
  | error e =>
    by_cases h : c.budget.remaining < p.cost
    · simp only [if_pos h]
    · simp only [if_neg h]
      cases p.reserve with
      | false => rfl
      | true => cases c.runBudget.reserveSample <;> rfl
  | ok a =>
    by_cases h : c.budget.remaining < p.cost
    · simp only [if_pos h]
    · rcases hf : f a p.next with ⟨x, r⟩
      cases p.reserve with
      | false => cases x <;> simp [h, freely, hf]
      | true => cases c.runBudget.reserveSample <;> cases x <;> simp [h, freely, hf]

theorem Plan.run_pay (p : Plan α) : (spend >>= fun _ => p.run) c = (p.pay 1).run c := by
  obtain ⟨cost, reserve, result, next⟩ := p
  simp only [pay]
  show EStateM.bind spend _ c = _
  unfold EStateM.bind spend
  rcases Nat.eq_zero_or_pos c.budget.remaining with h0 | hpos
  · simp only [spend_of_eq h0, Plan.run, accept]
    rw [if_pos (by omega), exhaust_of_eq h0]
  · have hle : 1 ≤ c.budget.remaining := hpos
    have hiff : c.budget.remaining - 1 < cost ↔ c.budget.remaining < 1 + cost := by omega
    simp only [spend_of_lt hpos, Plan.run, accept, remaining_pay,
      exhaust_pay hle, refusal_pay hle, pay_pay, hiff]

/-! ## Random draws -/

def Memory.stream (m : Memory) (id : ElementId) (seed : UInt64) : UInt64 :=
  (m.randomStates id).getD seed

namespace ControllerRunner

variable (r : ControllerRunner) (id : ElementId)

@[simp] theorem randomStates_self (s : Option UInt64) :
    (r.setRandomState id s).randomStates id = s := by
  simp [setRandomState]

@[simp] theorem setRandom_twice (s t : Option UInt64) :
    (r.setRandomState id s).setRandomState id t = r.setRandomState id t := by
  simp [setRandomState]

@[simp] theorem setRandom_self : r.setRandomState id (r.randomStates id) = r := by
  simp [setRandomState]

end ControllerRunner

section

variable {id : ElementId} {seed : UInt64} {bound : ℕ}

/-- The runner after one value of the stream of controller `id`. -/
def ControllerRunner.nextState (r : ControllerRunner) (id : ElementId) (seed : UInt64) :
    ControllerRunner :=
  r.setRandomState id (some (nextSeededValue (r.stream id seed)).2)

theorem random_accept {index : ℕ}
    (h : uniformIndex (nextSeededValue (c.runner.stream id seed)).1 bound = some index) :
    randomRound id seed bound c =
      .ok (some index) ⟨c.runner.nextState id seed, c.budget, c.runBudget⟩ := by
  simp only [randomRound, getRunner, modifyRunner, bind, EStateM.bind, pure]
  unfold Memory.stream at h
  rw [h]
  rfl

theorem random_reject
    (h : uniformIndex (nextSeededValue (c.runner.stream id seed)).1 bound = none) :
    randomRound id seed bound c =
      match c.budget.spend with
      | .ok budget => .ok none ⟨c.runner.nextState id seed, budget, c.runBudget⟩
      | .error e => .error e ⟨c.runner.nextState id seed, c.budget, c.runBudget⟩ := by
  simp only [randomRound, getRunner, modifyRunner, bind, EStateM.bind, pure]
  unfold Memory.stream at h
  rw [h]
  simp only [spend, EStateM.bind]
  cases c.budget.spend <;> rfl

/-- The draw loop returns the first accepted value if the budget covers the rejected ones. -/
theorem loopM_random {state : UInt64} {d : Draw} (h : Draws bound state d) (e : ControllerError) :
    ∀ (n : ℕ) (c : Call), c.runner.stream id seed = state → c.budget.remaining < n →
      if c.budget.remaining < d.rejected then
        ∃ s, loopM e (randomRound id seed bound) n c = .error c.budget.refusal
          ⟨c.runner.setRandomState id (some s), c.budget.exhaust, c.runBudget⟩
      else loopM e (randomRound id seed bound) n c = .ok d.index
          ⟨c.runner.setRandomState id (some d.state), c.budget.pay d.rejected, c.runBudget⟩ := by
  induction h with
  | accept h =>
    intro n c hs hn
    obtain ⟨n, rfl⟩ : ∃ k, n = k + 1 := ⟨n - 1, by omega⟩
    rw [if_neg (Nat.not_lt_zero _)]
    subst hs
    exact loopM_break (random_accept h)
  | @reject state d h _ ih =>
    intro n c hs hn
    obtain ⟨n, rfl⟩ : ∃ k, n = k + 1 := ⟨n - 1, by omega⟩
    subst hs
    have hround := random_reject (c := c) h
    rcases Nat.eq_zero_or_pos c.budget.remaining with h0 | hpos
    · rw [spend_of_eq h0] at hround
      rw [if_pos (by simp only; omega), exhaust_of_eq h0]
      exact ⟨_, loopM_error hround⟩
    · rw [spend_of_lt hpos] at hround
      have hrem := remaining_pay c.budget 1
      have hrest := ih n ⟨c.runner.nextState id seed, c.budget.pay 1, c.runBudget⟩
        (by simp [Memory.stream, nextState]) (by simp only; omega)
      simp only [exhaust_pay (show 1 ≤ c.budget.remaining from hpos),
        refusal_pay (show 1 ≤ c.budget.remaining from hpos),
        nextState, setRandom_twice,
        pay_pay, hrem] at hrest
      rw [loopM_continue hround]
      by_cases hd : c.budget.remaining < d.rejected + 1
      · rw [if_pos hd]
        rwa [if_pos (by omega)] at hrest
      · rw [if_neg hd]
        rw [if_neg (by omega), Nat.add_comm 1 d.rejected] at hrest
        exact hrest

end

/-! ## Draws on the memory of a runner -/

/-- The outcome of a draw of the stream of one controller. -/
structure Drawn where
  index : ℕ
  rejected : ℕ
  memory : Memory

namespace Memory

def setRandomState (m : Memory) (id : ElementId) (s : Option UInt64) : Memory :=
  { m with randomStates := Function.update m.randomStates id s }

/-- An index below `bound` from the stream of controller `id`; one candidate needs no draw. -/
def drawIndex (m : Memory) (id : ElementId) (seed : UInt64) (bound : ℕ) : Drawn :=
  if bound ≤ 1 then ⟨0, 0, m⟩
  else
    ⟨(draw bound (m.stream id seed)).index, (draw bound (m.stream id seed)).rejected,
      m.setRandomState id (some (draw bound (m.stream id seed)).state)⟩

end Memory

/-- A permutation drawn from a stream, with the number of rejected values. -/
structure Shuffled (α : Type) where
  order : List α
  rejected : ℕ
  memory : Memory

/-- The Fisher–Yates pass over positions `position, .., 1`. -/
def Memory.shuffle (id : ElementId) (seed : UInt64) : ℕ → List α → Memory → Shuffled α
  | 0, order, m => ⟨order, 0, m⟩
  | position + 1, order, m =>
    let d := m.drawIndex id seed (position + 2)
    let rest := shuffle id seed position (order.swap (position + 1) d.index) d.memory
    ⟨rest.order, d.rejected + rest.rejected, rest.memory⟩

namespace ControllerRunner

variable (r : ControllerRunner) (m : Memory)

def withMemory : ControllerRunner := { r with toMemory := m }

@[simp] theorem with_toMemory : (r.withMemory m).toMemory = m := rfl

@[simp] theorem with_withMemory (m' : Memory) :
    (r.withMemory m).withMemory m' = r.withMemory m' := rfl

@[simp] theorem withMemory_self : r.withMemory r.toMemory = r := rfl

end ControllerRunner

/-- Memories that differ at most in the stream of one controller. -/
def Memory.SameBut (id : ElementId) (m m' : Memory) : Prop := ∃ s, m' = m.setRandomState id s

namespace Memory

theorem SameBut.refl (id : ElementId) (m : Memory) : SameBut id m m :=
  ⟨m.randomStates id, by simp [setRandomState]⟩

theorem SameBut.trans {id : ElementId} {m m' m'' : Memory} (h : SameBut id m m')
    (h' : SameBut id m' m'') : SameBut id m m'' := by
  obtain ⟨s, rfl⟩ := h
  obtain ⟨t, rfl⟩ := h'
  exact ⟨t, by simp [setRandomState]⟩

theorem draw_sameBut (m : Memory) (id : ElementId) (seed : UInt64) (bound : ℕ) :
    SameBut id m (m.drawIndex id seed bound).memory := by
  unfold drawIndex
  split_ifs
  · exact SameBut.refl id m
  · exact ⟨_, rfl⟩

theorem shuffle_sameBut (id : ElementId) (seed : UInt64) :
    ∀ (n : ℕ) (order : List α) (m : Memory), SameBut id m (shuffle id seed n order m).memory
  | 0, _, m => SameBut.refl id m
  | _ + 1, _, m => (draw_sameBut m id seed _).trans (shuffle_sameBut id seed _ _ _)

end Memory

/-- Restoring the stream of `id` undoes every draw from it. -/
theorem ControllerRunner.random_withMemory {r : ControllerRunner} {m : Memory}
    {id : ElementId} (h : Memory.SameBut id r.toMemory m) (s : Option UInt64) :
    (r.withMemory m).setRandomState id s = r.setRandomState id s := by
  obtain ⟨t, rfl⟩ := h
  exact r.setRandom_twice id t s

/-- The call pays `cost` transitions and goes on from `next`, or is refused in `refused`. -/
def Call.charge (c : Call) (cost : ℕ) (refused next : ControllerRunner) (a : α) :
    EStateM.Result ControllerError Call α :=
  if c.budget.remaining < cost then
    .error c.budget.refusal ⟨refused, c.budget.exhaust, c.runBudget⟩
  else .ok a ⟨next, c.budget.pay cost, c.runBudget⟩

theorem Call.charge_zero (c : Call) (refused : ControllerRunner) (a : α) :
    c.charge 0 refused c.runner a = .ok a c := by
  simp [Call.charge]

/-- Two charges that are refused in the same state are one. -/
theorem bind_charge {β : Type} {x : CallM α} {f : α → CallM β} {cost cost' : ℕ}
    {refused next next' : ControllerRunner} {a : α} {b : β}
    (hx : x c = c.charge cost refused next a)
    (hf : ∀ c', c'.runner = next → f a c' = c'.charge cost' refused next' b) :
    (x >>= f) c = c.charge (cost + cost') refused next' b := by
  show EStateM.bind x f c = _
  unfold EStateM.bind
  rw [hx]
  by_cases h : c.budget.remaining < cost
  · have h' : c.budget.remaining < cost + cost' := by omega
    simp only [Call.charge, if_pos h, if_pos h']
  · have hle : cost ≤ c.budget.remaining := not_lt.mp h
    have hiff : c.budget.remaining - cost < cost' ↔ c.budget.remaining < cost + cost' := by omega
    simp only [Call.charge, if_neg h]
    rw [hf _ rfl]
    simp only [Call.charge, remaining_pay, exhaust_pay hle, refusal_pay hle, pay_pay, hiff]

section

variable (id : ElementId) (seed : UInt64) (previous : Option UInt64)

/-- A draw either succeeds or restores the stream it is given. -/
theorem restoring_index {bound : ℕ} (hb : bound ≤ usizeMax) (c : Call) :
    restoringRandomState id previous (randomIndex id seed bound) c =
      c.charge (c.runner.drawIndex id seed bound).rejected (c.runner.setRandomState id previous)
        (c.runner.withMemory (c.runner.drawIndex id seed bound).memory)
        (c.runner.drawIndex id seed bound).index := by
  unfold restoringRandomState randomIndex Memory.drawIndex
  by_cases h1 : bound ≤ 1
  · simp [h1, Call.charge]
  · simp only [if_neg h1]
    have h := loopM_random (draw_spec (by omega) hb (c.runner.stream id seed))
      (.stepBudgetExhausted c.budget.limit c.budget.limit) (c.budget.remaining + 1) c rfl (by omega)
    unfold Call.charge
    by_cases hr : c.budget.remaining < (draw bound (c.runner.stream id seed)).rejected
    · rw [if_pos hr] at h
      obtain ⟨s, hs⟩ := h
      simp only [hs, if_pos hr, setRandom_twice]
    · rw [if_neg hr] at h
      simp only [h, if_neg hr]
      rfl

/-- A permutation is drawn whole, or the stream it is given is restored. -/
theorem shuffle_eq (n : ℕ) (order : List NodeIndex) (c : Call) (hn : n + 1 ≤ usizeMax) :
    shuffle id seed previous n order c =
      c.charge (Memory.shuffle id seed n order c.runner.toMemory).rejected
        (c.runner.setRandomState id previous)
        (c.runner.withMemory (Memory.shuffle id seed n order c.runner.toMemory).memory)
        (Memory.shuffle id seed n order c.runner.toMemory).order := by
  induction n generalizing order c with
  | zero => exact (c.charge_zero _ order).symm
  | succ n ih =>
    simp only [shuffle, checkedAdd_le hn]
    refine bind_charge (restoring_index id seed previous hn c) ?_
    intro c' hc'
    have hsame := c.runner.toMemory.draw_sameBut id seed (n + 1 + 1)
    rw [ih _ c' (by omega), hc', random_withMemory hsame]
    rfl

end

/-- A sample is reserved if it has to be; a refusal leaves `refused`. -/
def Call.reserveIf (c : Call) (reserve : Bool) (refused : ControllerRunner) :
    EStateM.Result ControllerError Call Unit :=
  if reserve then
    match c.runBudget.reserveSample with
    | .ok runBudget => .ok () { c with runBudget }
    | .error e => .error e { c with runner := refused }
  else .ok () c

theorem charged_plan {β : Type} {x : CallM α} {y : α → CallM Unit} {z : α → CallM β} {cost : ℕ}
    {next : ControllerRunner} {a : α} (reserve : Bool)
    (f : ControllerRunner → Except ControllerError β × ControllerRunner)
    (hx : x c = c.charge cost c.runner next a)
    (hy : ∀ c', c'.runner = next → y a c' = c'.reserveIf reserve c.runner)
    (hz : ∀ c', c'.runner = next → z a c' = freely f c') :
    (x >>= fun a => y a >>= fun _ => z a) c =
      (⟨cost, reserve, (f next).1, (f next).2⟩ : Plan β).run c := by
  simp only [bind, EStateM.bind]
  rw [hx]
  by_cases h : c.budget.remaining < cost
  · simp only [Call.charge, if_pos h, Plan.run, accept]
  · simp only [Call.charge, if_neg h, hy ⟨next, _, _⟩ rfl, Call.reserveIf, Plan.run, accept]
    rcases hf : f next with ⟨result, r⟩
    cases reserve with
    | false => cases result <;> simp [freely, hf, hz]
    | true => cases c.runBudget.reserveSample <;> cases result <;> simp [freely, hf, hz]

end JmeterRs.Controllers
