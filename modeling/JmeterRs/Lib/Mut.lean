import Mathlib.Algebra.GroupWithZero.Nat
import Mathlib.Tactic.Common

/-!
# Mutating methods, bounded loops and checked integers

A Rust method on `&mut self` that leaves early with `?` is an `EStateM` computation: on an error
the state keeps every write made before it.  `loopM` is the statement `loop { .. }` with a bound
on its rounds, and `checkedAdd` and `saturatingAdd` are the additions of the fixed-width types.
-/

namespace JmeterRs

/-- `u64::MAX`. -/
def u64Max : ℕ := 2 ^ 64 - 1

/-- `usize::MAX` on a 64-bit target. -/
def usizeMax : ℕ := 2 ^ 64 - 1

/-- `checked_add` of an unsigned type with maximum `max`. -/
def checkedAdd (max a b : ℕ) : Option ℕ := if a + b ≤ max then some (a + b) else none

/-- `saturating_add` of an unsigned type with maximum `max`. -/
def saturatingAdd (max a b : ℕ) : ℕ := if a + b ≤ max then a + b else max

/-- `checked_mul` of an unsigned type with maximum `max`. -/
def checkedMul (max a b : ℕ) : Option ℕ := if a * b ≤ max then some (a * b) else none

/-- `saturating_mul` of an unsigned type with maximum `max`. -/
def saturatingMul (max a b : ℕ) : ℕ := if a * b ≤ max then a * b else max

variable {max a b : ℕ} {n : ℕ}

theorem mul_checked (h : checkedMul max a b = some n) : saturatingMul max a b = n := by
  unfold checkedMul at h
  unfold saturatingMul
  split_ifs at h ⊢
  cases h
  rfl

theorem add_checked (h : checkedAdd max a b = some n) : saturatingAdd max a b = n := by
  unfold checkedAdd at h
  unfold saturatingAdd
  split_ifs at h ⊢
  cases h
  rfl

theorem checkedAdd_some : checkedAdd max a b = some n ↔ n = a + b ∧ a + b ≤ max := by
  unfold checkedAdd
  split_ifs with h
  · simp [h, eq_comm]
  · simp [h]

theorem checkedAdd_le (h : a + b ≤ max) : checkedAdd max a b = some (a + b) :=
  if_pos h

theorem checkedAdd_none : checkedAdd max a b = none ↔ max < a + b := by
  unfold checkedAdd
  split_ifs with h
  · simp [h]
  · simp; omega

/-- Peels the first computation off a sequence that succeeds. -/
theorem bind_ok {ε α β : Type} {x : Except ε α} {f : α → Except ε β} {b : β} :
    (x >>= f) = .ok b ↔ ∃ a, x = .ok a ∧ f a = .ok b := by
  constructor
  · intro h
    cases x with
    | error e => cases h
    | ok a => exact ⟨a, rfl, h⟩
  · rintro ⟨a, rfl, h⟩
    exact h

/-- A sequence that fails does so in its first computation or after it. -/
theorem bind_error {ε α β : Type} {x : Except ε α} {f : α → Except ε β} {e : ε} :
    (x >>= f) = .error e ↔ x = .error e ∨ ∃ a, x = .ok a ∧ f a = .error e := by
  cases x with
  | error e' =>
    show Except.error e' = .error e ↔ _
    simp
  | ok a =>
    show f a = .error e ↔ _
    simp

/-- A check that was passed. -/
theorem ite_error_ok {ε α : Type} {p : Prop} [Decidable p] {e : ε} {x : Except ε α} {a : α} :
    (if p then .error e else x) = .ok a ↔ ¬ p ∧ x = .ok a := by
  by_cases h : p <;> simp [h]

/-- An error slot that is empty at the end of a loop was never filled. -/
theorem foldl_none {ε α : Type} {step : Option ε → α → Option ε} {p : α → Prop}
    (hstep : ∀ slot a, step slot a = none → slot = none ∧ p a) {as : List α} {slot : Option ε}
    (h : as.foldl step slot = none) : slot = none ∧ ∀ a ∈ as, p a := by
  induction as generalizing slot with
  | nil => exact ⟨h, fun _ hmem => absurd hmem List.not_mem_nil⟩
  | cons a as ih =>
    obtain ⟨hfirst, hrest⟩ := ih h
    obtain ⟨hslot, ha⟩ := hstep slot a hfirst
    refine ⟨hslot, fun other hoth => ?_⟩
    rcases List.mem_cons.mp hoth with rfl | hoth
    · exact ha
    · exact hrest other hoth

section

variable {ε σ α : Type} {f : σ → Except ε α} {s : σ} {a : α} {m : EStateM ε σ α} {e : ε}

/-- A sequence goes on after a computation that succeeds, and stops at one that fails. -/
theorem run_bind_ok {β : Type} {f : α → EStateM ε σ β} {s' : σ} (h : m s = .ok a s') :
    (m >>= f) s = f a s' := by
  show EStateM.bind m f s = f a s'
  unfold EStateM.bind
  rw [h]

theorem run_bind_error {β : Type} {f : α → EStateM ε σ β} {s' : σ} (h : m s = .error e s') :
    (m >>= f) s = .error e s' := by
  show EStateM.bind m f s = .error e s'
  unfold EStateM.bind
  rw [h]

/-- A check of the state that changes nothing. -/
def check (f : σ → Except ε α) : EStateM ε σ α := fun s =>
  match f s with
  | .ok a => .ok a s
  | .error e => .error e s

theorem check_ok (h : f s = .ok a) : check f s = .ok a s := by
  simp only [check, h]

theorem check_error (h : f s = .error e) : check f s = .error e s := by
  simp only [check, h]

/-- A computation that begins with a check. -/
theorem run_check_bind {β : Type} {g : α → EStateM ε σ β} {R : EStateM.Result ε σ β → Prop}
    (herror : ∀ e, f s = .error e → R (.error e s)) (hok : ∀ a, f s = .ok a → R (g a s)) :
    R ((check f >>= g) s) := by
  cases hcheck : f s with
  | error e =>
    rw [run_bind_error (check_error hcheck)]
    exact herror e hcheck
  | ok a =>
    rw [run_bind_ok (check_ok hcheck)]
    exact hok a hcheck

/-- A fallible computation that does not read the state, followed by `?`. -/
def liftExcept (x : Except ε α) : EStateM ε σ α := fun s =>
  match x with
  | .ok a => .ok a s
  | .error e => .error e s

theorem liftExcept_ok : (liftExcept (.ok a) : EStateM ε σ α) s = .ok a s := rfl

theorem liftExcept_error : (liftExcept (.error e) : EStateM ε σ α) s = .error e s := rfl

/-- `loop { body }`: repeats `body` until it breaks with a value, at most `n` rounds. -/
def loopM (stuck : ε) (body : EStateM ε σ (Option α)) : ℕ → EStateM ε σ α
  | 0 => throw stuck
  | n + 1 => fun s =>
    match body s with
    | .ok (some a) s' => .ok a s'
    | .ok none s' => loopM stuck body n s'
    | .error e s' => .error e s'

/-- The states in which the rounds of `loopM` begin. -/
def loopStates (body : EStateM ε σ (Option α)) : ℕ → σ → List σ
  | 0, _ => []
  | n + 1, s =>
    match body s with
    | .ok none s' => s :: loopStates body n s'
    | _ => [s]

variable {stuck : ε} {body : EStateM ε σ (Option α)} {s s' : σ} {n : ℕ}

theorem loopM_break (h : body s = .ok (some a) s') : loopM stuck body (n + 1) s = .ok a s' := by
  simp only [loopM, h]

theorem loopM_continue (h : body s = .ok none s') :
    loopM stuck body (n + 1) s = loopM stuck body n s' := by
  simp only [loopM, h]

theorem loopM_error (h : body s = .error e s') : loopM stuck body (n + 1) s = .error e s' := by
  simp only [loopM, h]

theorem states_continue (h : body s = .ok none s') :
    loopStates body (n + 1) s = s :: loopStates body n s' := by
  simp only [loopStates, h]

theorem states_break (h : body s = .ok (some a) s') : loopStates body (n + 1) s = [s] := by
  simp only [loopStates, h]

/-- What holds of the state after a computation, and of the error if it fails. -/
def Keeps {ε σ α : Type} (P : σ → Prop) (Q : ε → Prop) : EStateM.Result ε σ α → Prop
  | .ok _ s => P s
  | .error e s => P s ∧ Q e

/-- **Loop invariants.**  What every round keeps, the loop keeps. -/
theorem keeps_loopM {P : σ → Prop} {Q : ε → Prop} (hstuck : Q stuck)
    (hbody : ∀ s, P s → Keeps P Q (body s)) (n : ℕ) (hs : P s) :
    Keeps P Q (loopM stuck body n s) := by
  induction n generalizing s with
  | zero => exact ⟨hs, hstuck⟩
  | succ n ih =>
    have hround := hbody s hs
    simp only [loopM]
    cases hb : body s with
    | error e s' => rwa [hb] at hround
    | ok next s' =>
      rw [hb] at hround
      cases next with
      | some a => exact hround
      | none => exact ih hround

end

end JmeterRs
