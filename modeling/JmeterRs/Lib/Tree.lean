import Mathlib.Algebra.GroupWithZero.Nat
import Mathlib.Tactic.Common
import Mathlib.Data.List.Perm.Basic
import Mathlib.Data.List.Nodup
import Mathlib.Algebra.BigOperators.Group.List.Basic

/-!
# Ordered maps

A `BTreeMap` is an `ExtTreeMap`: its entries come in the order of their keys, and two maps with
the same entries are equal.  `total` adds up a weight of the values; an insertion or a removal
changes it only by the entry at its key.
-/

namespace JmeterRs

open Std ExtTreeMap

variable {K V : Type} {cmp : K → K → Ordering} [TransCmp cmp] [LawfulEqCmp cmp]
  {m : ExtTreeMap K V cmp}

theorem erase_of_none {k : K} (h : m[k]? = none) : m.erase k = m := by
  apply ext_getElem?
  intro key
  rw [getElem?_erase]
  by_cases hkey : cmp k key = .eq
  · rw [if_pos hkey, ← LawfulEqCmp.eq_of_compare hkey, h]
  · rw [if_neg hkey]

theorem erase_insert_self (k : K) (v : V) : (m.insert k v).erase k = m.erase k := by
  apply ext_getElem?
  intro key
  rw [getElem?_erase, getElem?_erase, getElem?_insert]
  by_cases hkey : cmp k key = .eq
  · rw [if_pos hkey, if_pos hkey]
  · rw [if_neg hkey, if_neg hkey, if_neg hkey]

omit [TransCmp cmp] in
theorem compare_iff {a b : K} : cmp a b = .eq ↔ a = b := by
  constructor
  · exact LawfulEqCmp.eq_of_compare
  · rintro rfl
    exact ReflCmp.compare_self

section

variable [DecidableEq K]

theorem get?_insert_eq (k a : K) (v : V) :
    (m.insert k v)[a]? = if k = a then some v else m[a]? := by
  simp only [getElem?_insert, compare_iff]

theorem get?_erase_eq (k a : K) : (m.erase k)[a]? = if k = a then none else m[a]? := by
  simp only [getElem?_erase, compare_iff]

end

variable {k : K} {v : V} {a : K} {weight : V → ℕ}

theorem get?_insert_ne (h : k ≠ a) : (m.insert k v)[a]? = m[a]? := by
  rw [getElem?_insert, if_neg fun heq => h (compare_iff.mp heq)]

theorem get?_erase_ne (h : k ≠ a) : (m.erase k)[a]? = m[a]? := by
  rw [getElem?_erase, if_neg fun heq => h (compare_iff.mp heq)]

omit [LawfulEqCmp cmp] in
theorem of_get?_erase (h : (m.erase k)[a]? = some v) : m[a]? = some v := by
  rw [getElem?_erase] at h
  split_ifs at h
  exact h

omit [LawfulEqCmp cmp] in
theorem get?_erase_none (h : m[a]? = none) : (m.erase k)[a]? = none := by
  rw [getElem?_erase, h, ite_self]

omit [LawfulEqCmp cmp] in
theorem get?_empty_ne : (∅ : ExtTreeMap K V cmp)[k]? ≠ some v := by
  rw [getElem?_empty]
  exact (Option.some_ne_none v).symm

omit [LawfulEqCmp cmp] in
theorem size_insert_new (h : m[k]? = none) : (m.insert k v).size = m.size + 1 := by
  have hcon : m.contains k = false := by rw [contains_eq_isSome_getElem?, h]; rfl
  rw [size_insert, hcon, if_neg Bool.false_ne_true]

omit [LawfulEqCmp cmp] in
theorem size_erase_old (h : m[k]? = some v) : (m.erase k).size + 1 = m.size := by
  have hcon : m.contains k = true := by rw [contains_eq_isSome_getElem?, h]; rfl
  rw [size_erase, hcon, if_pos rfl]
  have hpos : m.size ≠ 0 := by
    intro hzero
    rw [eq_empty_iff_size_eq_zero.mpr hzero] at h
    exact get?_empty_ne h
  omega

theorem nodup_keys : m.keys.Nodup := by
  apply ordered_keys.imp
  rintro a b hab rfl
  have hself : cmp a a = .eq := ReflCmp.compare_self
  rw [hself] at hab
  cases hab

theorem nodup_toList : m.toList.Nodup := by
  apply ordered_keys_toList.imp
  rintro a b hab rfl
  have hself : cmp a.1 a.1 = .eq := ReflCmp.compare_self
  rw [hself] at hab
  cases hab

theorem toList_perm (h : m[k]? = some v) : m.toList.Perm ((k, v) :: (m.erase k).toList) := by
  have hnotMem : (k, v) ∉ (m.erase k).toList := by
    rw [mem_toList_iff_getElem?_eq_some, getElem?_erase_self]
    exact fun h => nomatch h
  rw [List.perm_ext_iff_of_nodup nodup_toList (List.nodup_cons.mpr ⟨hnotMem, nodup_toList⟩)]
  rintro ⟨key, value⟩
  rw [List.mem_cons, mem_toList_iff_getElem?_eq_some,
    mem_toList_iff_getElem?_eq_some, getElem?_erase]
  by_cases hkey : cmp k key = .eq
  · obtain rfl := LawfulEqCmp.eq_of_compare hkey
    simp [h, eq_comm]
  · have hne : key ≠ k := by
      rintro rfl
      exact hkey ReflCmp.compare_self
    simp [hkey, hne]

/-- Keys that are compared by an injective rank are equal if they compare as equal. -/
theorem lawfulEqCmp_compareOn {A B : Type} [Ord B] [TransOrd B] [LawfulEqOrd B] {rank : A → B}
    (h : Function.Injective rank) : LawfulEqCmp (compareOn rank) where
  eq_of_compare heq := h (LawfulEqOrd.eq_of_compare heq)

/-- The sum of a weight over the values. -/
def total (weight : V → ℕ) (m : ExtTreeMap K V cmp) : ℕ :=
  (m.toList.map fun entry => weight entry.2).sum

omit [LawfulEqCmp cmp] in
theorem total_empty (weight : V → ℕ) : total weight (∅ : ExtTreeMap K V cmp) = 0 :=
  rfl

theorem total_get? (h : m[k]? = some v) : total weight m = weight v + total weight (m.erase k) := by
  unfold total
  rw [((toList_perm h).map _).sum_eq, List.map_cons, List.sum_cons]

theorem total_insert : total weight (m.insert k v) = weight v + total weight (m.erase k) := by
  rw [total_get? getElem?_insert_self, erase_insert_self]

end JmeterRs
