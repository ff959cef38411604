import Mathlib.Order.Defs.PartialOrder
import Mathlib.Tactic.Common

/-!
# Computations that emit

`Emit σ ω` reads and writes a state `σ` and emits a list of `ω`.  Traversals are built from
them: one after the other (`all`), or the same body a number of times (`times`).  A preorder on
the states that every part respects is respected by the whole.
-/

namespace JmeterRs

/-- A computation over a state that emits a list. -/
abbrev Emit (σ ω : Type) := σ → List ω × σ

namespace Emit

variable {σ ω : Type}

/-- Emits nothing and changes nothing. -/
def nothing : Emit σ ω := fun s => ([], s)

def emit (o : ω) : Emit σ ω := fun s => ([o], s)

def andThen (f g : Emit σ ω) : Emit σ ω := fun s => ((f s).1 ++ (g (f s).2).1, (g (f s).2).2)

/-- A list of computations in order. -/
def all : List (Emit σ ω) → Emit σ ω
  | [] => nothing
  | f :: fs => f.andThen (all fs)

/-- The bodies `f start, .., f (start + n - 1)` in order. -/
def times (f : ℕ → Emit σ ω) (start : ℕ) : ℕ → Emit σ ω
  | 0 => nothing
  | n + 1 => (f start).andThen (times f (start + 1) n)

@[simp] theorem nothing_apply (s : σ) : (nothing : Emit σ ω) s = ([], s) := rfl

@[simp] theorem andThen_fst (f g : Emit σ ω) (s : σ) :
    (f.andThen g s).1 = (f s).1 ++ (g (f s).2).1 := rfl

@[simp] theorem andThen_snd (f g : Emit σ ω) (s : σ) : (f.andThen g s).2 = (g (f s).2).2 := rfl

/-! ## Growth -/

section

variable [Preorder σ]

/-- A computation that only moves up in a preorder of its states. -/
def Grows (f : Emit σ ω) : Prop := ∀ s, s ≤ (f s).2

theorem grows_nothing : (nothing : Emit σ ω).Grows := fun s => le_refl s

theorem Grows.andThen {f g : Emit σ ω} (hf : f.Grows) (hg : g.Grows) : (f.andThen g).Grows :=
  fun s => le_trans (hf s) (hg (f s).2)

theorem grows_all {fs : List (Emit σ ω)} (h : ∀ f ∈ fs, f.Grows) : (all fs).Grows := by
  induction fs with
  | nil => exact grows_nothing
  | cons f fs ih =>
    exact (h f (.head _)).andThen (ih fun g hg => h g (.tail _ hg))

theorem grows_times {f : ℕ → Emit σ ω} (h : ∀ i, (f i).Grows) (start n : ℕ) :
    (times f start n).Grows := by
  induction n generalizing start with
  | zero => exact grows_nothing
  | succ n ih => exact (h start).andThen (ih (start + 1))

end

end Emit

end JmeterRs
