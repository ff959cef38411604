import Mathlib.Data.List.Induction
import Mathlib.Tactic.Common

/-!
# Logs

`Stepwise R log`: every entry of the log was allowed by `R` after the entries before it.
-/

namespace JmeterRs

open List

variable {ε : Type} {R : List ε → ε → Prop} {log : List ε} {e : ε}

def Stepwise (R : List ε → ε → Prop) (log : List ε) : Prop :=
  ∀ before e after, log = before ++ e :: after → R before e

theorem stepwise_nil : Stepwise R [] := by
  intro before e after h
  simp at h

theorem mem_of_concat {last : ε} (h : e ∈ log ++ [last]) (hne : e ≠ last) : e ∈ log :=
  (mem_append.mp h).resolve_right fun h => hne (mem_singleton.mp h)

/-- Where an entry of a log can be that has just got one more. -/
theorem concat_eq_cons {last : ε} {before after : List ε}
    (h : log ++ [last] = before ++ e :: after) : (before = log ∧ e = last ∧ after = []) ∨
      ∃ rest, after = rest ++ [last] ∧ log = before ++ e :: rest := by
  rcases eq_nil_or_concat after with rfl | ⟨rest, final, rfl⟩
  · left
    obtain ⟨hlog, hlast⟩ := append_inj' h rfl
    simp only [List.cons.injEq, and_true] at hlast
    exact ⟨hlog.symm, hlast.symm, rfl⟩
  · right
    rw [concat_eq_append, ← cons_append, ← append_assoc] at h
    obtain ⟨hlog, hlast⟩ := append_inj' h rfl
    exact ⟨rest, by rw [concat_eq_append, hlast], hlog⟩

theorem Stepwise.concat {e : ε} (h : Stepwise R log) (he : R log e) : Stepwise R (log ++ [e]) := by
  intro before other after hsplit
  rcases concat_eq_cons hsplit with ⟨rfl, rfl, -⟩ | ⟨rest, -, hlog⟩
  · exact he
  · exact h before other rest hlog

/-- Entries that are always allowed. -/
theorem Stepwise.append {notes : List ε} (h : Stepwise R log)
    (hnotes : ∀ e ∈ notes, ∀ before, R before e) : Stepwise R (log ++ notes) := by
  induction notes using List.reverseRecOn with
  | nil => rwa [append_nil]
  | append_singleton front last ih =>
    rw [← append_assoc]
    refine (ih fun e he => hnotes e (mem_append_left _ he)).concat ?_
    exact hnotes last (mem_append_right _ (mem_singleton_self last)) _

/-- Of two entries, one was there when the other was allowed. -/
theorem Stepwise.pair {e' : ε} (h : Stepwise R log) (he : e ∈ log) (he' : e' ∈ log) :
    e = e' ∨ (∃ before, R before e' ∧ e ∈ before) ∨ ∃ before, R before e ∧ e' ∈ before := by
  obtain ⟨before, after, hlog⟩ := append_of_mem he'
  rw [hlog, mem_append, mem_cons] at he
  rcases he with he | rfl | he
  · exact .inr (.inl ⟨before, h before e' after hlog, he⟩)
  · exact .inl rfl
  · obtain ⟨middle, rest, rfl⟩ := append_of_mem he
    refine .inr (.inr ⟨before ++ e' :: middle, h _ e rest ?_, ?_⟩)
    · rw [hlog, append_assoc, cons_append]
    · exact mem_append_right _ mem_cons_self

/-- What is allowed after an entry was allowed after it. -/
theorem Stepwise.later {before after : List ε} {e e' : ε} (h : Stepwise R (before ++ e :: after))
    (he' : e' ∈ after) : ∃ middle, R (before ++ e :: middle) e' := by
  obtain ⟨middle, rest, rfl⟩ := append_of_mem he'
  refine ⟨middle, h _ e' rest ?_⟩
  rw [append_assoc, cons_append]

/-- The first entry of a kind. -/
theorem exists_first {P : ε → Prop} (he : e ∈ log) (hP : P e) :
    ∃ before first after, log = before ++ first :: after ∧ P first ∧ ∀ e ∈ before, ¬ P e := by
  classical
  have hfound : log.find? (P ·) ≠ none := by
    intro hnone
    rw [find?_eq_none] at hnone
    exact hnone e he (decide_eq_true hP)
  obtain ⟨first, hfirst⟩ := Option.ne_none_iff_exists'.mp hfound
  obtain ⟨hPfirst, before, after, hlog, hbefore⟩ := find?_eq_some_iff_append.mp hfirst
  refine ⟨before, first, after, hlog, of_decide_eq_true hPfirst, fun e he hPe => ?_⟩
  have hnot := hbefore e he
  rw [decide_eq_true hPe] at hnot
  cases hnot

end JmeterRs
