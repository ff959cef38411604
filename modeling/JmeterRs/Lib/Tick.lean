import Mathlib.Tactic.Common

/-!
# Machines that tick

A machine is a function from a state to its next tick: what the tick costs, what it shows to the
outside (if anything), and the state after it.  `Exec` is any finite number of ticks, `Walk` the
ticks up to and including the next visible one, `Walks` a sequence of walks.  A machine that may
be interrupted between two ticks shows a prefix of what it shows uninterrupted; `Exec.walks` says
so, together with what is left to do.
-/

namespace JmeterRs

/-- One tick of a machine with states `σ` and outputs `ο`. -/
structure Tick (σ ο : Type) where
  cost : ℕ
  out : Option ο
  next : σ

section

variable {σ ο : Type} (tick : σ → Tick σ ο)

/-- Any number of ticks, with their total cost and the outputs in order. -/
inductive Exec : σ → ℕ → List ο → σ → Prop
  | refl (s : σ) : Exec s 0 [] s
  | silent {s : σ} {n : ℕ} {os : List ο} {s' : σ} (h : (tick s).out = none)
      (rest : Exec (tick s).next n os s') : Exec s ((tick s).cost + n) os s'
  | visible {s : σ} {n : ℕ} {o : ο} {os : List ο} {s' : σ} (h : (tick s).out = some o)
      (rest : Exec (tick s).next n os s') : Exec s ((tick s).cost + n) (o :: os) s'

/-- The ticks up to and including the next visible one. -/
inductive Walk : σ → ℕ → ο → σ → Prop
  | visible {s : σ} {o : ο} (h : (tick s).out = some o) : Walk s (tick s).cost o (tick s).next
  | silent {s : σ} {n : ℕ} {o : ο} {s' : σ} (h : (tick s).out = none)
      (rest : Walk (tick s).next n o s') : Walk s ((tick s).cost + n) o s'

/-- A sequence of walks. -/
inductive Walks : σ → List ο → σ → Prop
  | nil (s : σ) : Walks s [] s
  | cons {s s₁ s₂ : σ} {n : ℕ} {o : ο} {os : List ο} (h : Walk tick s n o s₁)
      (rest : Walks s₁ os s₂) : Walks s (o :: os) s₂

end

variable {σ ο : Type} {tick : σ → Tick σ ο}

namespace Exec

variable {s s' : σ} {o : ο} {n : ℕ} {os : List ο}

theorem of_silent (h : (tick s).out = none) (hn : (tick s).next = s') :
    ∃ n, Exec tick s n [] s' := by
  subst hn
  exact ⟨_, .silent h (.refl _)⟩

theorem of_visible (h : (tick s).out = some o) (hn : (tick s).next = s') :
    ∃ n, Exec tick s n [o] s' := by
  subst hn
  exact ⟨_, .visible h (.refl _)⟩

theorem trans {s₁ s₂ s₃ : σ} {n m : ℕ} {os ps : List ο} (h : Exec tick s₁ n os s₂)
    (h' : Exec tick s₂ m ps s₃) : Exec tick s₁ (n + m) (os ++ ps) s₃ := by
  induction h with
  | refl s => simpa using h'
  | silent hout _ ih => rw [Nat.add_assoc]; exact .silent hout (ih h')
  | visible hout _ ih => rw [Nat.add_assoc]; exact .visible hout (ih h')

/-- Silent ticks in front of a walk belong to it. -/
theorem walk {s₁ s₂ s₃ : σ} {m : ℕ} (h : Exec tick s₁ n os s₂) (hos : os = [])
    (w : Walk tick s₂ m o s₃) : Walk tick s₁ (n + m) o s₃ := by
  induction h with
  | refl s => simpa using w
  | silent hout _ ih => rw [Nat.add_assoc]; exact .silent hout (ih hos w)
  | visible => cases hos

/-- **Interrupted executions.**  Up to its last output an execution is a sequence of walks; only
silent ticks follow. -/
theorem walks (h : Exec tick s n os s') : ∃ s'' m, Walks tick s os s'' ∧ Exec tick s'' m [] s' := by
  induction h with
  | refl s => exact ⟨s, 0, .nil s, .refl s⟩
  | @silent s n os s' hout _ ih =>
    obtain ⟨s'', m, hw, he⟩ := ih
    cases hw with
    | nil => exact ⟨s, _, .nil s, .silent hout he⟩
    | cons w rest => exact ⟨s'', m, .cons (.silent hout w) rest, he⟩
  | visible hout _ ih =>
    obtain ⟨s'', m, hw, he⟩ := ih
    exact ⟨s'', m, .cons (.visible hout) hw, he⟩

/-- An execution that shows something begins with a walk. -/
theorem cons_inv (h : Exec tick s n (o :: os) s') :
    ∃ k m s₁, Walk tick s k o s₁ ∧ Exec tick s₁ m os s' ∧ n = k + m := by
  generalize hps : o :: os = ps at h
  induction h with
  | refl => cases hps
  | silent hout _ ih =>
    obtain ⟨k, m, s₁, w, hx, rfl⟩ := ih hps
    exact ⟨_, m, s₁, .silent hout w, hx, by omega⟩
  | visible hout rest =>
    cases hps
    exact ⟨_, _, _, .visible hout, rest, rfl⟩

end Exec

theorem Walk.exec {s s' : σ} {n : ℕ} {o : ο} (w : Walk tick s n o s') : Exec tick s n [o] s' := by
  induction w with
  | visible hout => exact .visible hout (.refl _)
  | silent hout _ ih => exact .silent hout ih

theorem Walk.unique {s s₁ s₂ : σ} {n m : ℕ} {o p : ο} (w : Walk tick s n o s₁)
    (w' : Walk tick s m p s₂) : n = m ∧ o = p ∧ s₁ = s₂ := by
  induction w generalizing m with
  | visible hout =>
    cases w' with
    | visible hout' => simpa using hout.symm.trans hout'
    | silent hout' => simp [hout] at hout'
  | silent hout _ ih =>
    cases w' with
    | visible hout' => simp [hout] at hout'
    | silent _ rest =>
      obtain ⟨rfl, rfl, rfl⟩ := ih rest
      exact ⟨rfl, rfl, rfl⟩

namespace Walks

theorem append {s₁ s₂ s₃ : σ} {os ps : List ο} (h : Walks tick s₁ os s₂)
    (h' : Walks tick s₂ ps s₃) : Walks tick s₁ (os ++ ps) s₃ := by
  induction h with
  | nil => exact h'
  | cons w _ ih => exact .cons w (ih h')

/-- Walks that follow an interrupted execution continue it. -/
theorem of_exec {s s' s'' : σ} {n : ℕ} {os : List ο} {o : ο} {ps : List ο}
    (h : Exec tick s n os s') (h' : Walks tick s' (o :: ps) s'') :
    Walks tick s (os ++ o :: ps) s'' := by
  obtain ⟨t, m, hw, he⟩ := h.walks
  cases h' with
  | cons w rest => exact hw.append (.cons (he.walk rfl w) rest)

end Walks

end JmeterRs
