import Mathlib.Algebra.GroupWithZero.Nat
import Mathlib.Tactic.Common

/-!
# Programs that can fail or run for ever

A program with unbounded loops is given by its outcome under a bound on the rounds of each loop.
A larger bound never changes an outcome (`Fueled.mono`), so `Returns` is a function of the
program, and a program that returns nothing under any bound runs for ever.

`drain` is the loop `while let Some(task) = tasks.pop() { .. }` over an explicit stack: the body
changes the state and pushes further tasks.  `Drained` is a run of it that ends without an error.
-/

namespace JmeterRs

open List

/-- A program with errors in `ε` and results in `α`; `run n` allows every loop `n` rounds. -/
structure Fueled (ε α : Type) where
  run : ℕ → Option (Except ε α)
  mono : ∀ {m n r}, m ≤ n → run m = some r → run n = some r

namespace Fueled

variable {ε α β σ τ : Type}

/-- A program without loops. -/
def ofExcept (r : Except ε α) : Fueled ε α where
  run _ := some r
  mono _ h := h

/-- One program after another; an error ends both. -/
def andThen (x : Fueled ε α) (f : α → Fueled ε β) : Fueled ε β where
  run n :=
    match x.run n with
    | some (.ok a) => (f a).run n
    | some (.error e) => some (.error e)
    | none => none
  mono {m n r} h hm := by
    cases hx : x.run m with
    | none => rw [hx] at hm; cases hm
    | some s =>
      rw [hx] at hm
      rw [x.mono h hx]
      cases s with
      | error e => exact hm
      | ok a => exact (f a).mono h hm

instance : Monad (Fueled ε) where
  pure a := ofExcept (.ok a)
  bind := andThen

instance : MonadLift (Except ε) (Fueled ε) where
  monadLift := ofExcept

/-- `return Err(e)`. -/
def fail (e : ε) : Fueled ε α := ofExcept (.error e)

/-! ## What a program returns -/

/-- The program ends with the outcome `r`. -/
def Returns (x : Fueled ε α) (r : Except ε α) : Prop := ∃ n, x.run n = some r

variable {r : Except ε α} {x : Fueled ε α} {f : α → Fueled ε β}

@[simp] theorem returns_ofExcept {r' : Except ε α} : (ofExcept r).Returns r' ↔ r = r' := by
  constructor
  · rintro ⟨n, hn⟩
    exact Option.some.inj hn
  · rintro rfl
    exact ⟨0, rfl⟩

@[simp] theorem returns_pure {a : α} : (pure a : Fueled ε α).Returns r ↔ r = .ok a := by
  rw [eq_comm]
  exact returns_ofExcept

@[simp] theorem returns_lift {r' : Except ε α} :
    (liftM r : Fueled ε α).Returns r' ↔ r = r' := returns_ofExcept

@[simp] theorem returns_fail {e : ε} : (fail e : Fueled ε α).Returns r ↔ r = .error e := by
  rw [eq_comm]
  exact returns_ofExcept

theorem returns_bind {r : Except ε β} : (x >>= f).Returns r ↔
      (∃ a, x.Returns (.ok a) ∧ (f a).Returns r) ∨ ∃ e, x.Returns (.error e) ∧ r = .error e := by
  constructor
  · rintro ⟨n, hn⟩
    change (match x.run n with
      | some (.ok a) => (f a).run n
      | some (.error e) => some (.error e)
      | none => none) = some r at hn
    cases hx : x.run n with
    | none => rw [hx] at hn; cases hn
    | some s =>
      rw [hx] at hn
      cases s with
      | error e => exact .inr ⟨e, ⟨n, hx⟩, (Option.some.inj hn).symm⟩
      | ok a => exact .inl ⟨a, ⟨n, hx⟩, n, hn⟩
  · rintro (⟨a, ⟨n, hn⟩, m, hm⟩ | ⟨e, ⟨n, hn⟩, rfl⟩)
    · refine ⟨max n m, ?_⟩
      change (match x.run (max n m) with
        | some (.ok a) => (f a).run (max n m)
        | some (.error e) => some (.error e)
        | none => none) = some r
      rw [x.mono (Nat.le_max_left n m) hn]
      exact (f a).mono (Nat.le_max_right n m) hm
    · refine ⟨n, ?_⟩
      change (match x.run n with
        | some (.ok a) => (f a).run n
        | some (.error e) => some (.error e)
        | none => none) = some (.error e)
      rw [hn]

/-- Peels the first program off a sequence that succeeds. -/
theorem returns_bind_ok {b : β} :
    (x >>= f).Returns (.ok b) ↔ ∃ a, x.Returns (.ok a) ∧ (f a).Returns (.ok b) := by
  rw [returns_bind]
  constructor
  · rintro (h | ⟨e, -, h⟩)
    · exact h
    · cases h
  · exact .inl

/-- **Loops over a list.**  What every round keeps, the loop keeps: `P` is about the items done. -/
theorem foldlM_induct {f : β → α → Fueled ε β} {P : List α → β → Prop} {as : List α} {b b' : β}
    (h : (as.foldlM f b).Returns (.ok b')) (h₀ : P [] b)
    (hstep : ∀ done a b b', done ++ [a] <+: as → P done b → (f b a).Returns (.ok b') →
      P (done ++ [a]) b') : P as b' := by
  -- Generalised over the items already done, which stay a prefix of the whole list.
  suffices key : ∀ rest done b, done ++ rest = as → P done b →
      (rest.foldlM f b).Returns (.ok b') → P as b' from key as [] b rfl h₀ h
  intro rest
  induction rest with
  | nil =>
    intro done b hdone hP hret
    obtain rfl : b' = b := by simpa using hret
    rw [append_nil] at hdone
    exact hdone ▸ hP
  | cons a rest ih =>
    intro done b hdone hP hret
    rw [foldlM_cons, returns_bind_ok] at hret
    obtain ⟨b₁, hb₁, hrest⟩ := hret
    refine ih (done ++ [a]) b₁ (by simpa using hdone) ?_ hrest
    exact hstep done a b b₁ ⟨rest, by simpa using hdone⟩ hP hb₁

/-! ## The loop over an explicit stack -/

/-- `k` rounds of the stack loop, with `n` rounds for the loops in its body. -/
def drainRun (step : σ → τ → Fueled ε (σ × List τ)) (n : ℕ) :
    ℕ → σ → List τ → Option (Except ε σ)
  | _, s, [] => some (.ok s)
  | 0, _, _ :: _ => none
  | k + 1, s, t :: ts =>
    match (step s t).run n with
    | some (.ok (s', pushed)) => drainRun step n k s' (pushed ++ ts)
    | some (.error e) => some (.error e)
    | none => none

theorem drainRun_mono {step : σ → τ → Fueled ε (σ × List τ)} {m n : ℕ} (hmn : m ≤ n) {j k : ℕ}
    (hjk : j ≤ k) {s : σ} {ts : List τ} {r : Except ε σ} (h : drainRun step m j s ts = some r) :
    drainRun step n k s ts = some r := by
  induction j generalizing k s ts with
  | zero =>
    cases ts with
    | nil => simpa [drainRun] using h
    | cons t ts => simp [drainRun] at h
  | succ j ih =>
    cases ts with
    | nil => simpa [drainRun] using h
    | cons t ts =>
      obtain ⟨k, rfl⟩ : ∃ k', k = k' + 1 := ⟨k - 1, by omega⟩
      unfold drainRun at h ⊢
      cases hs : (step s t).run m with
      | none => rw [hs] at h; cases h
      | some out =>
        rw [hs] at h
        rw [(step s t).mono hmn hs]
        cases out with
        | error e => exact h
        | ok p => exact ih (by omega) h

/-- `while let Some(task) = tasks.pop() { step }`; the head of the list is the top. -/
def drain (step : σ → τ → Fueled ε (σ × List τ)) (s : σ) (ts : List τ) : Fueled ε σ where
  run n := drainRun step n n s ts
  mono h := drainRun_mono h h

/-- A run of the stack loop without an error. -/
inductive Drained (step : σ → τ → Fueled ε (σ × List τ)) : σ → List τ → σ → Prop
  | nil {s} : Drained step s [] s
  | cons {s t ts s' pushed s''} (hstep : (step s t).Returns (.ok (s', pushed)))
      (hrest : Drained step s' (pushed ++ ts) s'') : Drained step s (t :: ts) s''

variable {step : σ → τ → Fueled ε (σ × List τ)} {s s' : σ} {t : τ} {ts : List τ}

@[simp] theorem drain_nil {r : Except ε σ} : (drain step s []).Returns r ↔ r = .ok s := by
  constructor
  · rintro ⟨n, hn⟩
    cases n <;> exact (Option.some.inj hn).symm
  · rintro rfl
    exact ⟨0, rfl⟩

theorem drain_cons {r : Except ε σ} : (drain step s (t :: ts)).Returns r ↔
      (∃ s' pushed, (step s t).Returns (.ok (s', pushed)) ∧
        (drain step s' (pushed ++ ts)).Returns r) ∨
      ∃ e, (step s t).Returns (.error e) ∧ r = .error e := by
  constructor
  · rintro ⟨n, hn⟩
    obtain ⟨n, rfl⟩ : ∃ k, n = k + 1 := by
      cases n with
      | zero => cases hn
      | succ k => exact ⟨k, rfl⟩
    change drainRun step (n + 1) (n + 1) s (t :: ts) = some r at hn
    unfold drainRun at hn
    cases hs : (step s t).run (n + 1) with
    | none => rw [hs] at hn; cases hn
    | some out =>
      rw [hs] at hn
      cases out with
      | error e => exact .inr ⟨e, ⟨_, hs⟩, (Option.some.inj hn).symm⟩
      | ok p =>
        refine .inl ⟨p.1, p.2, ⟨_, hs⟩, n + 1, ?_⟩
        exact drainRun_mono (Nat.le_refl _) (Nat.le_succ n) hn
  · rintro (⟨s', pushed, ⟨n, hn⟩, m, hm⟩ | ⟨e, ⟨n, hn⟩, rfl⟩)
    · refine ⟨max n m + 1, ?_⟩
      change drainRun step (max n m + 1) (max n m + 1) s (t :: ts) = some r
      unfold drainRun
      rw [(step s t).mono (by omega) hn]
      exact drainRun_mono (by omega) (Nat.le_max_right n m) hm
    · refine ⟨n + 1, ?_⟩
      change drainRun step (n + 1) (n + 1) s (t :: ts) = some (.error e)
      unfold drainRun
      rw [(step s t).mono (Nat.le_succ n) hn]

theorem run_drained {n k : ℕ} (h : drainRun step n k s ts = some (.ok s')) :
    Drained step s ts s' := by
  induction k generalizing s ts with
  | zero =>
    cases ts with
    | nil =>
      obtain rfl : s = s' := by simpa [drainRun] using h
      exact .nil
    | cons t ts => simp [drainRun] at h
  | succ k ih =>
    cases ts with
    | nil =>
      obtain rfl : s = s' := by simpa [drainRun] using h
      exact .nil
    | cons t ts =>
      unfold drainRun at h
      cases hs : (step s t).run n with
      | none => rw [hs] at h; cases h
      | some out =>
        rw [hs] at h
        cases out with
        | error e => cases h
        | ok p => exact .cons ⟨n, hs⟩ (ih h)

/-- **What a run of the stack loop visits.**  Tasks stand for the items of `ι`, a step pushes the
tasks of the items `next` names, establishes `R` of its item and keeps `P` and what was
established before.  Then a run visits a set of items that is closed under `next`. -/
theorem Drained.visits {ι : Type} (view : ι → τ) (next : ι → List ι) {P : σ → Prop}
    {Q : ι → Prop} {R : ι → σ → Prop}
    (hstep : ∀ {s i s' pushed}, P s → Q i → (step s (view i)).Returns (.ok (s', pushed)) →
      pushed = (next i).map view ∧ P s' ∧ R i s' ∧ (∀ j, R j s → R j s') ∧ ∀ j ∈ next i, Q j)
    (h : Drained step s ts s') (hs : P s) (items : List ι) (hts : ts = items.map view)
    (hitems : ∀ i ∈ items, Q i) :
    P s' ∧ (∀ i, R i s → R i s') ∧ ∃ visited : List ι, items ⊆ visited ∧
      (∀ i ∈ visited, Q i ∧ R i s') ∧ ∀ i ∈ visited, next i ⊆ visited := by
  induction h generalizing items with
  | nil =>
    obtain rfl : items = [] := map_eq_nil_iff.mp hts.symm
    exact ⟨hs, fun i hi => hi, [], List.Subset.refl _, by simp, by simp⟩
  | @cons s t ts s₁ pushed s₂ hround hrest ih =>
    obtain ⟨i, items, rfl, rfl, rfl⟩ := map_eq_cons_iff.mp hts.symm
    have hi := hitems i mem_cons_self
    obtain ⟨rfl, hP, hR, hkeep, hQ⟩ := hstep hs hi hround
    have hrestQ : ∀ j ∈ next i ++ items, Q j := by
      intro j hj
      rcases mem_append.mp hj with hj | hj
      · exact hQ j hj
      · exact hitems j (.tail _ hj)
    obtain ⟨hP', hkeep', visited, hsub, hvisited, hclosed⟩ :=
      ih hP (next i ++ items) map_append.symm hrestQ
    refine ⟨hP', fun j hj => hkeep' j (hkeep j hj), i :: visited, ?_, ?_, ?_⟩
    · intro j hj
      rcases mem_cons.mp hj with rfl | hj
      · exact .head _
      · exact .tail _ (hsub (mem_append_right _ hj))
    · intro j hj
      rcases mem_cons.mp hj with rfl | hj
      · exact ⟨hi, hkeep' _ hR⟩
      · exact hvisited j hj
    · intro j hj k hk
      rcases mem_cons.mp hj with rfl | hj
      · exact .tail _ (hsub (mem_append_left _ hk))
      · exact .tail _ (hclosed j hj hk)

/-- **The stack loop succeeds.**  Each round succeeds, keeps an invariant of the state and the
stack, and makes a measure of them smaller. -/
theorem returns_drain {I : σ → List τ → Prop} (measure : σ → List τ → ℕ)
    (hstep : ∀ {s t ts}, I s (t :: ts) → ∃ s' pushed, (step s t).Returns (.ok (s', pushed)) ∧
      I s' (pushed ++ ts) ∧ measure s' (pushed ++ ts) < measure s (t :: ts)) (h : I s ts) :
    ∃ s', (drain step s ts).Returns (.ok s') ∧ I s' [] := by
  generalize hm : measure s ts = m
  induction m using Nat.strongRecOn generalizing s ts with
  | ind m ih =>
    cases ts with
    | nil => exact ⟨s, drain_nil.mpr rfl, h⟩
    | cons t ts =>
      obtain ⟨s', pushed, hret, hkept, hless⟩ := hstep h
      obtain ⟨s'', hrest, hend⟩ := ih _ (hm ▸ hless) hkept rfl
      exact ⟨s'', drain_cons.mpr (.inl ⟨s', pushed, hret, hrest⟩), hend⟩

/-- The weight of tasks that all have one depth. -/
theorem sum_weight_lt {depth : τ → ℕ} {width bound d : ℕ} {pushed : List τ}
    (hd : d ≤ bound) (hlen : pushed.length ≤ width) (hdepth : ∀ u ∈ pushed, depth u = d + 1) :
    (pushed.map fun u => (width + 1) ^ (bound + 1 - depth u)).sum <
      (width + 1) ^ (bound + 1 - d) := by
  have hconst : (pushed.map fun u => (width + 1) ^ (bound + 1 - depth u)) =
      List.replicate pushed.length ((width + 1) ^ (bound - d)) := by
    rw [eq_replicate_iff]
    refine ⟨length_map _, ?_⟩
    intro w hw
    obtain ⟨u, hu, rfl⟩ := mem_map.mp hw
    rw [hdepth u hu, Nat.add_sub_add_right]
  rw [hconst, sum_replicate_nat, show bound + 1 - d = (bound - d) + 1 by omega, Nat.pow_succ,
    Nat.mul_comm]
  exact Nat.mul_lt_mul_of_pos_left (Nat.lt_succ_of_le hlen) (Nat.pow_pos (Nat.succ_pos width))

end Fueled

end JmeterRs
