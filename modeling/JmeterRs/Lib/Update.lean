import Mathlib.Data.List.Forall2

/-!
# Lists that change at some positions
-/

namespace JmeterRs

variable {α : Type} {R : α → α → Prop} {p : α → Bool} {l l' : List α} {a b : α} {i : ℕ}

theorem countP_set_add (h : l[i]? = some a) :
    (l.set i b).countP p + (if p a then 1 else 0) = l.countP p + if p b then 1 else 0 := by
  induction l generalizing i with
  | nil => cases h
  | cons c l ih =>
    cases i with
    | zero =>
      obtain rfl : c = a := by simpa using h
      rw [List.set_cons_zero, List.countP_cons, List.countP_cons]
      omega
    | succ i =>
      have hrest := ih (i := i) (by simpa using h)
      rw [List.set_cons_succ, List.countP_cons, List.countP_cons]
      omega

/-- A position that does not begin to count. -/
theorem countP_set_le (h : l[i]? = some a) (hp : p b → p a) :
    (l.set i b).countP p ≤ l.countP p := by
  have hsum := countP_set_add (p := p) (b := b) h
  by_cases hb : p b
  · rw [if_pos hb, if_pos (hp hb)] at hsum
    omega
  · rw [if_neg hb] at hsum
    omega

theorem countP_set_lt (h : l[i]? = some a) {n : ℕ} (hn : l.countP p < n) :
    (l.set i b).countP p ≤ n := by
  have hsum := countP_set_add (p := p) (b := b) h
  split_ifs at hsum <;> omega

theorem countP_le_all₂ (h : List.Forall₂ R l l') (hp : ∀ {a b}, R a b → p b → p a) :
    l'.countP p ≤ l.countP p := by
  induction h with
  | nil => exact Nat.le_refl _
  | @cons a b l l' hab _ ih =>
    rw [List.countP_cons, List.countP_cons]
    by_cases hb : p b
    · rw [if_pos hb, if_pos (hp hab hb)]
      omega
    · rw [if_neg hb]
      omega

theorem get?_forall₂ {β : Type} {R : α → β → Prop} {ys : List β} {y : β}
    (h : List.Forall₂ R l ys) (hy : ys[i]? = some y) : ∃ a, l[i]? = some a ∧ R a y := by
  obtain ⟨hi, rfl⟩ := List.getElem?_eq_some_iff.mp hy
  have hlt : i < l.length := h.length_eq ▸ hi
  exact ⟨l[i], List.getElem?_eq_getElem hlt, h.get hlt hi⟩

theorem forall₂_trans {l'' : List α} (htrans : ∀ {a b c}, R a b → R b c → R a c)
    (h : List.Forall₂ R l l') (h' : List.Forall₂ R l' l'') : List.Forall₂ R l l'' := by
  induction h generalizing l'' with
  | nil => exact h'
  | cons hab _ ih =>
    cases h' with
    | cons hbc hrest => exact .cons (htrans hab hbc) (ih hrest)

theorem forall₂_set (hrefl : ∀ a, R a a) (h : l[i]? = some a) (hab : R a b) :
    List.Forall₂ R l (l.set i b) := by
  induction l generalizing i with
  | nil => cases h
  | cons c l ih =>
    cases i with
    | zero =>
      obtain rfl : c = a := by simpa using h
      exact .cons hab (List.forall₂_same.mpr fun a _ => hrefl a)
    | succ i => exact .cons (hrefl c) (ih (by simpa using h))

/-- A position at which the predicate does not change. -/
theorem findIdx?_set_eq (h : l[i]? = some a) (hp : p b = p a) :
    (l.set i b).findIdx? p = l.findIdx? p := by
  induction l generalizing i with
  | nil => rfl
  | cons c l ih =>
    cases i with
    | zero =>
      obtain rfl : c = a := by simpa using h
      rw [List.set_cons_zero, List.findIdx?_cons, List.findIdx?_cons, hp]
    | succ i =>
      rw [List.set_cons_succ, List.findIdx?_cons, List.findIdx?_cons, ih (by simpa using h)]

theorem get?_set_cases {j : ℕ} {c : α} (h : (l.set i b)[j]? = some c) :
    (j = i ∧ c = b) ∨ (j ≠ i ∧ l[j]? = some c) := by
  rw [List.getElem?_set] at h
  split_ifs at h with hij hlt
  · exact .inl ⟨hij.symm, (Option.some.inj h).symm⟩
  · exact .inr ⟨fun hji => hij hji.symm, h⟩

end JmeterRs
