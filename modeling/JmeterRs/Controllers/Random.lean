import JmeterRs.Lib.Mut
import Mathlib.Data.UInt
import Mathlib.Tactic.Ring

/-!
# The seeded streams of the random controllers

`nextSeededValue` is SplitMix64 and `uniformIndex` maps one of its values to an unbiased index,
rejecting the prefix of the 64-bit range that would bias it.  `draw` repeats the stream until a
value is accepted.  The increment is odd, so the stream passes through every 64-bit state and some
value is accepted after fewer than `2 ^ 64` rejections (`exists_accepted`): the bound on the
rounds of `draw` is never reached (`draw_spec`).
-/

namespace JmeterRs.Controllers

def splitmix64Increment : UInt64 := 0x9E3779B97F4A7C15

/-- The output function of SplitMix64. -/
def splitmix64Mix (state : UInt64) : UInt64 :=
  let value := (state ^^^ (state >>> 30)) * 0xBF58476D1CE4E5B9
  let value := (value ^^^ (value >>> 27)) * 0x94D049BB133111EB
  value ^^^ (value >>> 31)

/-- Advances the stream: the value drawn and the state after it. -/
def nextSeededValue (state : UInt64) : UInt64 × UInt64 :=
  let state := state + splitmix64Increment
  (splitmix64Mix state, state)

/-- An unbiased index below `bound`, or `none` when the value lies in the rejected prefix. -/
def uniformIndex (value : UInt64) (bound : ℕ) : Option ℕ :=
  if bound = 0 then none
  else if value.toNat < (u64Max % bound + 1) % bound then none
  else some (value.toNat % bound)

variable {bound : ℕ} {state : UInt64}

theorem uniformIndex_lt {value : UInt64} {i : ℕ} (h : uniformIndex value bound = some i) :
    i < bound := by
  unfold uniformIndex at h
  split_ifs at h with h0 h1
  cases h
  exact Nat.mod_lt _ (Nat.pos_of_ne_zero h0)

/-- Less than half of the 64-bit range is rejected. -/
theorem threshold_le (h0 : 0 < bound) (hb : bound ≤ usizeMax) :
    (u64Max % bound + 1) % bound ≤ 2 ^ 63 := by
  have hb' : bound ≤ 2 ^ 64 - 1 := hb
  rcases Nat.lt_or_ge (2 ^ 63) bound with hlt | hge
  · have hm : u64Max % bound = u64Max - bound := by
      rw [Nat.mod_eq_sub_mod (show bound ≤ u64Max from hb)]
      refine Nat.mod_eq_of_lt ?_
      unfold u64Max
      omega
    rw [hm]
    refine (Nat.mod_le _ _).trans ?_
    unfold u64Max
    omega
  · exact (Nat.mod_lt _ h0).le.trans hge

/-- The stream of a seed after `n` draws. -/
def streamState (state : UInt64) (n : ℕ) : UInt64 := state + UInt64.ofNat n * splitmix64Increment

theorem streamState_zero : streamState state 0 = state := by
  unfold streamState
  simp

theorem streamState_succ (n : ℕ) :
    streamState (state + splitmix64Increment) n = streamState state (n + 1) := by
  unfold streamState
  rw [UInt64.ofNat_add, show UInt64.ofNat 1 = 1 from rfl, UInt64.add_mul, UInt64.one_mul,
    UInt64.add_assoc, UInt64.add_comm splitmix64Increment]

/-- The stream reaches the state `2`, whose value lies in the upper half of the range. -/
theorem exists_state_two (state : UInt64) : ∃ n < 2 ^ 64, streamState state n = 2 := by
  refine ⟨((2 - state) * 17428512612931826493).toNat, UInt64.toNat_lt _, ?_⟩
  unfold streamState
  rw [UInt64.ofNat_toNat, UInt64.mul_assoc]
  have hinv : (17428512612931826493 : UInt64) * splitmix64Increment = 1 := by decide
  rw [hinv, UInt64.mul_one, UInt64.add_comm, UInt64.sub_add_cancel]

theorem index_mix_two (h0 : 0 < bound) (hb : bound ≤ usizeMax) :
    (uniformIndex (splitmix64Mix 2) bound).isSome := by
  have hmix : 2 ^ 63 ≤ (splitmix64Mix 2).toNat := by decide
  unfold uniformIndex
  rw [if_neg (by omega), if_neg (not_lt.mpr ((threshold_le h0 hb).trans hmix))]
  rfl

/-- Some value of the stream is accepted within `2 ^ 64 + 1` draws. -/
theorem exists_accepted (h0 : 0 < bound) (hb : bound ≤ usizeMax) (state : UInt64) :
    ∃ n ≤ 2 ^ 64, (uniformIndex (splitmix64Mix (streamState state (n + 1))) bound).isSome := by
  obtain ⟨n, hn, h⟩ := exists_state_two (state + splitmix64Increment)
  refine ⟨n, hn.le, ?_⟩
  rw [← streamState_succ, h]
  exact index_mix_two h0 hb

/-! ## Draws -/

/-- One accepted draw: its index, the state after it, and how many values were rejected first. -/
structure Draw where
  index : ℕ
  state : UInt64
  rejected : ℕ
  deriving DecidableEq, Repr

/-- Draws from `state` until a value is accepted, in at most `n` rounds. -/
def drawLoop (bound : ℕ) : ℕ → UInt64 → Draw
  | 0, state => ⟨0, state, 0⟩
  | n + 1, state =>
    match uniformIndex (nextSeededValue state).1 bound with
    | some index => ⟨index, (nextSeededValue state).2, 0⟩
    | none =>
      { drawLoop bound n (nextSeededValue state).2 with
        rejected := (drawLoop bound n (nextSeededValue state).2).rejected + 1 }

/-- Draws from `state` until a value is accepted. -/
def draw (bound : ℕ) (state : UInt64) : Draw := drawLoop bound (2 ^ 64 + 1) state

/-- A stream whose first `k` values are rejected and whose next one is `index`. -/
inductive Draws (bound : ℕ) : UInt64 → Draw → Prop
  | accept {state : UInt64} {index : ℕ}
      (h : uniformIndex (nextSeededValue state).1 bound = some index) :
      Draws bound state ⟨index, (nextSeededValue state).2, 0⟩
  | reject {state : UInt64} {d : Draw}
      (h : uniformIndex (nextSeededValue state).1 bound = none)
      (rest : Draws bound (nextSeededValue state).2 d) :
      Draws bound state { d with rejected := d.rejected + 1 }

theorem draws_drawLoop : ∀ (n : ℕ) (state : UInt64),
      (uniformIndex (splitmix64Mix (streamState state (n + 1))) bound).isSome →
        ∀ m, n < m → Draws bound state (drawLoop bound m state) := by
  intro n
  induction n with
  | zero =>
    intro state h m hm
    obtain ⟨m, rfl⟩ : ∃ k, m = k + 1 := ⟨m - 1, by omega⟩
    rw [← streamState_succ, streamState_zero] at h
    obtain ⟨index, hi⟩ := Option.isSome_iff_exists.mp h
    have hi' : uniformIndex (nextSeededValue state).1 bound = some index := hi
    simp only [drawLoop, hi']
    exact .accept hi'
  | succ n ih =>
    intro state h m hm
    obtain ⟨m, rfl⟩ : ∃ k, m = k + 1 := ⟨m - 1, by omega⟩
    rw [← streamState_succ] at h
    cases hv : uniformIndex (nextSeededValue state).1 bound with
    | some index =>
      simp only [drawLoop, hv]
      exact .accept hv
    | none =>
      simp only [drawLoop, hv]
      exact .reject hv (ih _ h m (by omega))

/-- **Draws terminate.** `draw` is the first accepted value of the stream. -/
theorem draw_spec (h0 : 0 < bound) (hb : bound ≤ usizeMax) (state : UInt64) :
    Draws bound state (draw bound state) := by
  obtain ⟨n, hn, h⟩ := exists_accepted h0 hb state
  exact draws_drawLoop n state h _ (by omega)

theorem Draws.index_lt {d : Draw} (h : Draws bound state d) : d.index < bound := by
  induction h with
  | accept h => exact uniformIndex_lt h
  | reject _ _ ih => exact ih

end JmeterRs.Controllers
