import JmeterRs.Controllers.Plan
import JmeterRs.Logic.Runner
import Mathlib.Data.Int.CardIntervalMod
import Mathlib.Data.Nat.Periodic
import Mathlib.Data.Set.Card

/-!
# Random orders are uniform

The values that are not rejected give every index equally often (`ncard_uniformIndex`), and so the
tuples of values that the Fisher–Yates loop takes give every order equally often
(`ncard_fisherYates`).  The two machines run this loop on the values that they do not reject.
-/

namespace JmeterRs.Controllers

open Finset

variable {α : Type} {order result : List α} {p i bound : ℕ} {value : UInt64} {values : List UInt64}

theorem uniform_some (h0 : 0 < bound) : uniformIndex value bound = some i ↔
    2 ^ 64 % bound ≤ value.toNat ∧ value.toNat % bound = i := by
  have hthr : (u64Max % bound + 1) % bound = 2 ^ 64 % bound := Nat.mod_add_mod ..
  rw [uniformIndex, if_neg h0.ne', hthr]
  split_ifs with h
  · simp only [not_le.mpr h, false_and]
  · simp only [Option.some.injEq, not_lt.mp h, true_and]

theorem ncard_values {s : Finset ℕ} (hs : ∀ x ∈ s, x < 2 ^ 64) :
    {value : UInt64 | value.toNat ∈ s}.ncard = #s := by
  rw [← Set.ncard_image_of_injective _ fun _ _ => UInt64.toNat_inj.mp, ← Set.ncard_coe_finset]
  congr 1
  ext x
  constructor
  · rintro ⟨value, hx, rfl⟩
    exact hx
  · intro hx
    have heq : (UInt64.ofNat x).toNat = x := UInt64.toNat_ofNat_of_lt' (hs x hx)
    exact ⟨UInt64.ofNat x, by rwa [Set.mem_ofPred_eq, heq], heq⟩

theorem ncard_accepted (h0 : 0 < bound) :
    {value | (uniformIndex value bound).isSome}.ncard = 2 ^ 64 - 2 ^ 64 % bound := by
  have hset : {value | (uniformIndex value bound).isSome} =
      {value : UInt64 | value.toNat ∈ Ico (2 ^ 64 % bound) (2 ^ 64)} := by
    ext value
    simp [Option.isSome_iff_exists, uniform_some h0, value.toNat_lt]
  rw [hset, ncard_values fun x hx => (mem_Ico.mp hx).2, Nat.card_Ico]

theorem ncard_uniformIndex (hi : i < bound) :
    {value | uniformIndex value bound = some i}.ncard = 2 ^ 64 / bound := by
  have h0 : 0 < bound := by omega
  -- the values that are not rejected are a number of whole periods
  have hset : {value | uniformIndex value bound = some i} = {value : UInt64 | value.toNat ∈
      {x ∈ Ico (2 ^ 64 % bound) (2 ^ 64 % bound + bound * (2 ^ 64 / bound)) |
        x ≡ i [MOD bound]}} := by
    ext value
    rw [Nat.mod_add_div]
    simp [uniform_some h0, value.toNat_lt, Nat.ModEq, Nat.mod_eq_of_lt hi]
  have hper : Function.Periodic (· ≡ i [MOD bound]) (bound * (2 ^ 64 / bound)) := fun x => by
    simp [Nat.ModEq]
  rw [hset, ncard_values, Nat.filter_Ico_card_eq_of_periodic _ _ _ hper, Nat.count_modEq_card _ h0]
  · simp [h0]
  · intro x hx
    rw [Nat.mod_add_div] at hx
    exact (mem_Ico.mp (mem_filter.mp hx).1).2

/-- The loop of the random orders over positions `position, .., 1` with the values it draws, none
of which may be rejected. -/
def fisherYates : ℕ → List UInt64 → List α → Option (List α)
  | 0, [], order => some order
  | position + 1, value :: values, order =>
    match uniformIndex value (position + 2) with
    | none => none
    | some index => fisherYates position values (order.swap (position + 1) index)
  | _, _, _ => none

theorem drop_swap (hi : i ≤ p) (hp : p < order.length) :
    (order.swap p i).drop p = order[i] :: order.drop (p + 1) := by
  rw [List.swap_eq]
  refine List.ext_getElem? fun k => ?_
  grind

theorem fisherYates_eq_some (h : fisherYates p values order = some result)
    (hp : p ≤ order.length - 1) :
    result.Perm order ∧ result.drop (p + 1) = order.drop (p + 1) := by
  fun_induction fisherYates p values order with
  | case1 order =>
    cases h
    exact ⟨.refl _, rfl⟩
  | case2 => cases h
  | case3 p value values order i hi ih =>
    have hperm := List.swap_perm order (p + 1) i
    obtain ⟨hperm', hdrop⟩ := ih h (by rw [hperm.length_eq]; omega)
    rw [drop_swap (Nat.lt_succ_iff.mp (uniformIndex_lt hi)) (by omega)] at hdrop
    exact ⟨hperm'.trans hperm, by rw [← List.tail_drop, hdrop, List.tail_cons]⟩
  | case4 => cases h

/-- One index puts the right child at a position. -/
theorem exists_index (hnodup : order.Nodup) (hp : p < order.length) (hperm : result.Perm order)
    (hdrop : result.drop (p + 1) = order.drop (p + 1)) :
    ∃ i ≤ p, ∀ j ≤ p, (result.drop p = (order.swap p j).drop p ↔ j = i) := by
  have hlen := hperm.length_eq
  have hp' : p < result.length := by omega
  obtain ⟨i, hi, hx⟩ := List.getElem_of_mem (hperm.mem_iff.mp (List.getElem_mem hp'))
  have hle : i ≤ p := by
    by_contra hlt
    have heq : result[i] = order[i] := by
      have := congrArg (·[i - (p + 1)]?) hdrop
      grind
    have := (hperm.nodup_iff.mpr hnodup).getElem_inj_iff.mp (heq.trans hx)
    omega
  refine ⟨i, hle, fun j hj => ?_⟩
  rw [drop_swap hj hp, List.drop_eq_getElem_cons hp', hdrop, ← hx, List.cons.injEq,
    hnodup.getElem_inj_iff]
  simp [eq_comm]

theorem ncard_fisherYates (hnodup : order.Nodup) (hp : p ≤ order.length - 1)
    (hperm : result.Perm order) (hdrop : result.drop (p + 1) = order.drop (p + 1)) :
    {values | fisherYates p values order = some result}.ncard =
      ∏ k ∈ range p, 2 ^ 64 / (k + 2) := by
  induction p generalizing order with
  | zero =>
    have heq : order = result := by
      cases order with
      | nil => exact hperm.symm.nil_eq
      | cons x xs =>
        obtain ⟨y, ys, rfl⟩ := List.exists_cons_of_ne_nil (l := result) (by grind)
        cases hdrop
        have hhead : ([y] ++ xs).Perm ([x] ++ xs) := hperm
        rw [List.perm_append_right_iff, List.singleton_perm_singleton] at hhead
        rw [hhead]
    have hset : {values | fisherYates 0 values order = some result} = {[]} := by
      ext values
      cases values <;> simp [fisherYates, heq]
    rw [hset, Set.ncard_singleton]
    rfl
  | succ p ih =>
    obtain ⟨i, hi, huniq⟩ := exists_index hnodup (by omega) hperm hdrop
    have hlen (j) := (List.swap_perm order (p + 1) j).length_eq
    -- the first value gives this index, the others the rest of the order
    have hset : {values | fisherYates (p + 1) values order = some result} =
        (fun x : UInt64 × List UInt64 => x.1 :: x.2) ''
          ({value | uniformIndex value (p + 2) = some i} ×ˢ
            {values | fisherYates p values (order.swap (p + 1) i) = some result}) := by
      ext values
      cases values with
      | nil => simp [fisherYates]
      | cons value values =>
        simp only [fisherYates, Set.mem_image, Set.mem_prod, Set.mem_ofPred_eq, Prod.exists,
          List.cons.injEq, ↓existsAndEq, and_true]
        cases hj : uniformIndex value (p + 2) with
        | none => simp
        | some j =>
          simp only [Option.some.injEq]
          refine ⟨fun h => ?_, fun ⟨heq, h⟩ => heq ▸ h⟩
          have hdrop' := (fisherYates_eq_some h (by rw [hlen]; omega)).2
          obtain rfl := (huniq j (Nat.lt_succ_iff.mp (uniformIndex_lt hj))).mp hdrop'
          exact ⟨rfl, h⟩
    have hswap := List.swap_perm order (p + 1) i
    rw [hset, Set.ncard_image_of_injective _ (by intro x y h; grind), Set.ncard_prod,
      ncard_uniformIndex (by omega), ih (hswap.nodup_iff.mpr hnodup) (by rw [hlen]; omega)
        (hperm.trans hswap.symm) ((huniq i hi).mpr rfl), prod_range_succ, mul_comm]

/-! ## The two machines -/

/-- The values that are not rejected, for the positions `position, .., 1`. -/
def accepted : ℕ → List UInt64 → List UInt64
  | position + 1, value :: values =>
    if (uniformIndex value (position + 2)).isSome then value :: accepted position values
    else accepted (position + 1) values
  | _, _ => []

/-- The first values of a stream. -/
def streamValues : ℕ → UInt64 → List UInt64
  | 0, _ => []
  | n + 1, state => (nextSeededValue state).1 :: streamValues n (nextSeededValue state).2

theorem Draws.accepted_stream {state : UInt64} {d : Draw} (h : Draws (p + 2) state d)
    (n : ℕ) : ∃ value, uniformIndex value (p + 2) = some d.index ∧
      accepted (p + 1) (streamValues (d.rejected + 1 + n) state) =
        value :: accepted p (streamValues n d.state) := by
  induction h with
  | accept h =>
    refine ⟨_, h, ?_⟩
    simp [Nat.add_comm 1, streamValues, accepted, h]
  | reject h rest ih =>
    obtain ⟨value, hv, heq⟩ := ih
    refine ⟨value, hv, ?_⟩
    rw [← heq]
    simp [Nat.add_right_comm _ 1, streamValues, accepted, h]

theorem exists_drawIndex (m : Memory) (id : ElementId) (seed : UInt64) (h1 : 1 < bound)
    (hb : bound ≤ usizeMax) : ∃ d, Draws bound (m.stream id seed) d ∧ m.drawIndex id seed bound =
      ⟨d.index, d.rejected, m.setRandomState id (some d.state)⟩ :=
  ⟨draw bound (m.stream id seed), draw_spec (by omega) hb _, if_neg (by omega)⟩

theorem fisherYates_shuffle (id : ElementId) (seed : UInt64) (n : ℕ) (order : List α) (m : Memory)
    (hn : n + 1 ≤ usizeMax) :
    fisherYates n (accepted n (streamValues ((m.shuffle id seed n order).rejected + n)
      (m.stream id seed))) order = some (m.shuffle id seed n order).order := by
  induction n generalizing order m with
  | zero => rfl
  | succ n ih =>
    obtain ⟨d, hdraws, hdraw⟩ := exists_drawIndex m id seed (show 1 < n + 2 by omega) hn
    have ih' := ih (order.swap (n + 1) d.index) (m.setRandomState id (some d.state)) (by omega)
    simp only [Memory.shuffle, hdraw]
    generalize Memory.shuffle id seed n _ _ = rest at ih' ⊢
    obtain ⟨value, hv, heq⟩ := hdraws.accepted_stream (rest.rejected + n)
    rw [show d.rejected + rest.rejected + (n + 1) = d.rejected + 1 + (rest.rejected + n) by omega,
      heq, fisherYates, hv, ← ih']
    simp [Memory.setRandomState, Memory.stream]

section

open Logic

variable (id : ElementId) (children : List LogicNode) (path : List LogicCursor) (iteration : ℕ)

/-- Visits of a Random Order controller, each with the next value, until it needs no more. -/
def visitEach : List UInt64 → LogicM (Option LogicStep)
  | [], c => processNode (.randomOrder id children) path iteration
      { c with input := { c.input with randomValue := none } }
  | value :: values, c =>
    match processNode (.randomOrder id children) path iteration
        { c with input := { c.input with randomValue := some value } } with
    | .ok (some .needsRandom) c => visitEach values c
    | result => result

/-- The visits from any position of the loop on. -/
theorem visitEach_pending {order result : List LogicNode} {c : LogicCall}
    (hn : ¬children.length ≤ 1) {inner : List LogicCursor}
    (hinner : path ++ [cursor id "RandomOrderController" iteration] = inner)
    (hc : c.runner.startRandomOrder id children inner iteration =
      { c.runner with pendingRandomOrder := some ⟨id, inner, iteration, order, p + 2⟩ })
    (h : fisherYates (p + 1) (accepted (p + 1) values) order = some result) :
    ∃ c', visitEach id children path iteration values c = .ok none c' ∧
      c'.runner.work = result.map (.node · inner iteration) ++ c.runner.work := by
  induction values generalizing p order c with
  | nil => simp [accepted, fisherYates] at h
  | cons value values ih =>
    rw [accepted] at h
    simp only [visitEach, processNode, if_neg hn, hinner, randomOrderDraw, hc, LogicCall.takeRandom]
    cases hi : uniformIndex value (p + 2) with
    | none =>
      rw [hi] at h
      exact ih (if_neg (by simp)) h
    | some i =>
      simp only [hi, Option.isSome_some, if_true, fisherYates] at h
      rw [List.swap_comm] at h
      cases p with
      | zero =>
        have hres : order.swap i 1 = result := by simpa [accepted, fisherYates] using h
        rw [← hres]
        exact ⟨_, rfl, rfl⟩
      | succ p => exact ih (if_neg (by simp)) h

/-- **Random orders are uniform.**  Every index is given by equally many values, and every order of
the children by equally many tuples of accepted values.  The controllers run the loop on the
accepted values of their stream, the logic runner on those of the values it is given. -/
theorem random_orders_uniform :
    (∀ bound, 0 < bound → bound ≤ u64Max →
      {value | (uniformIndex value bound).isSome}.ncard = 2 ^ 64 - 2 ^ 64 % bound ∧
        ∀ i < bound, {value | uniformIndex value bound = some i}.ncard = 2 ^ 64 / bound) ∧
    (∀ (α : Type) (order : List α) n, order.length = n → order.Nodup →
      (∀ values result, fisherYates (n - 1) values order = some result → result.Perm order) ∧
        ∀ result : List α, result.Perm order →
          {values | fisherYates (n - 1) values order = some result}.ncard =
            ∏ k ∈ range (n - 1), 2 ^ 64 / (k + 2)) ∧
    (∀ id seed previous n order c result c', n + 1 ≤ usizeMax →
      shuffle id seed previous n order c = .ok result c' → ∃ drawn,
        fisherYates n (accepted n (streamValues drawn (c.runner.stream id seed))) order =
          some result) ∧
    ∀ id (children : List LogicNode) path iteration values (c : LogicCall) result n,
      children.length = n → c.runner.pendingRandomOrder.all (·.id ≠ id) →
      fisherYates (n - 1) (accepted (n - 1) values) children = some result →
      ∃ c', visitEach id children path iteration values c = .ok none c' ∧ c'.runner.work =
        result.map (.node · (path ++ [cursor id "RandomOrderController" iteration]) iteration)
          ++ c.runner.work := by
  refine ⟨fun _ h0 _ => ⟨ncard_accepted h0, fun _ => ncard_uniformIndex⟩, ?_, ?_, ?_⟩
  · rintro α order n rfl hnodup
    refine ⟨fun values result h => (fisherYates_eq_some h le_rfl).1, fun result hperm => ?_⟩
    have hlen := hperm.length_eq
    refine ncard_fisherYates hnodup le_rfl hperm ?_
    rw [List.drop_of_length_le (by omega), List.drop_of_length_le (by omega)]
  · intro id seed previous n order c result c' hn h
    rw [shuffle_eq _ _ _ _ _ _ hn, Call.charge] at h
    split_ifs at h
    cases h
    exact ⟨_, fisherYates_shuffle id seed n order c.runner.toMemory hn⟩
  · rintro id children path iteration values c result n rfl hc h
    by_cases hn : children.length ≤ 1
    · have hres : children = result := by
        simpa [Nat.sub_eq_zero_of_le hn, accepted, fisherYates] using h
      rw [← hres]
      cases values <;>
      · simp only [visitEach, processNode, if_pos hn]
        exact ⟨_, rfl, rfl⟩
    · obtain ⟨n, hlen⟩ : ∃ n, children.length = n + 2 := ⟨children.length - 2, by omega⟩
      rw [hlen] at h
      refine visitEach_pending id children path iteration hn rfl ?_ h
      rw [← hlen]
      exact if_pos hc

end

/-- Three children in another order. -/
theorem random_orders_uniform_three :
    {values | fisherYates 2 values [0, 1, 2] = some [2, 0, 1]}.ncard = 2 ^ 63 * (2 ^ 64 / 3) :=
  (random_orders_uniform.2.1 ℕ [0, 1, 2] 3 rfl (by decide)).2 [2, 0, 1] (by decide)

/-! ## A whole period -/

theorem xorShift_inj {k : UInt64} (hk : k.toNat % 64 ≠ 0) :
    Function.Injective fun x : UInt64 => x ^^^ x >>> k := by
  intro x y h
  -- the difference is its own shift, and so zero
  have hz : (x ^^^ y) >>> k = x ^^^ y := by
    rw [UInt64.shiftRight_xor, ← UInt64.xor_right_inj x, ← UInt64.xor_assoc, ← UInt64.xor_assoc,
      UInt64.xor_self, UInt64.zero_xor, show x ^^^ x >>> k = _ from h, UInt64.xor_assoc,
      UInt64.xor_self, UInt64.xor_zero]
  have hdiv := congrArg UInt64.toNat hz
  rw [UInt64.toNat_shiftRight, Nat.shiftRight_eq_div_pow] at hdiv
  refine UInt64.xor_eq_zero_iff.mp (UInt64.toNat_inj.mp ?_)
  by_contra hne
  exact (Nat.div_lt_self (Nat.pos_of_ne_zero hne) (Nat.one_lt_two_pow hk)).ne hdiv

theorem mul_inj {c d : UInt64} (h : c * d = 1) : Function.Injective (· * c) := by
  intro x y hxy
  have := congrArg (· * d) hxy
  simpa only [UInt64.mul_assoc, h, UInt64.mul_one] using this

theorem mix_injective : Function.Injective splitmix64Mix :=
  (xorShift_inj (by decide)).comp <| (mul_inj (d := 3573116690164977347) (by decide)).comp <|
    (xorShift_inj (by decide)).comp <| (mul_inj (d := 10871156337175269513) (by decide)).comp <|
      xorShift_inj (by decide)

theorem streamValues_eq (n : ℕ) (state : UInt64) : streamValues n state =
    (List.range n).map fun k => splitmix64Mix (streamState state (k + 1)) := by
  induction n generalizing state with
  | zero => rfl
  | succ n ih =>
    rw [streamValues, List.range_succ_eq_map, List.map_cons, List.map_map, nextSeededValue, ih,
      ← streamState_succ, streamState_zero]
    simp [Function.comp_def, streamState_succ]

/-- **Over a whole period the stream of every seed is uniform**: among its first `2 ^ 64` values
every index is given equally often. -/
theorem period_uniform (i : Fin bound) (seed : UInt64) :
    (streamValues (2 ^ 64) seed).countP (uniformIndex · bound = some i.val) = 2 ^ 64 / bound := by
  let f := fun k => splitmix64Mix (streamState seed (k + 1))
  have hinj : Function.Injective fun k : UInt64 => f k.toNat := by
    refine mix_injective.comp fun x y h => ?_
    simp only [streamState, UInt64.ofNat_add, UInt64.ofNat_toNat, UInt64.add_right_inj] at h
    exact (UInt64.add_left_inj _).mp (mul_inj (d := 17428512612931826493) (by decide) h)
  have hset : (fun k : UInt64 => f k.toNat) ''
      {k | k.toNat ∈ {k ∈ range (2 ^ 64) | uniformIndex (f k) bound = some i.val}} =
        {value | uniformIndex value bound = some i.val} := by
    have : Finite UInt64 := .of_injective UInt64.toFin fun _ _ => UInt64.toFin_inj.mp
    ext value
    obtain ⟨k, rfl⟩ := Finite.surjective_of_injective hinj value
    simp [hinj.eq_iff, k.toNat_lt]
  rw [streamValues_eq, List.countP_map, List.countP_eq_length_filter,
    ← List.toFinset_card_of_nodup (List.nodup_range.filter _), ← ncard_uniformIndex i.isLt, ← hset,
    Set.ncard_image_of_injective _ hinj, ncard_values (by simp +contextual)]
  refine congrArg card (Finset.ext fun k => ?_)
  simp [f]

end JmeterRs.Controllers
