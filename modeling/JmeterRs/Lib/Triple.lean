import JmeterRs.Lib.Mut

/-!
# Triples for computations with state and errors

`Triple pre m post fails`: from a state with `pre`, the computation `m` ends with `post` of its
value and its last state, or it fails with `fails` of its error and its last state.
-/

namespace JmeterRs

section

variable {ε ε' σ α β : Type}

def Triple (pre : σ → Prop) (m : EStateM ε σ α) (post : α → σ → Prop) (fails : ε → σ → Prop) :
    Prop :=
  ∀ s, pre s →
    match m s with
    | .ok a s' => post a s'
    | .error e s' => fails e s'

/-- `m` keeps an invariant of the state, also if it fails. -/
def Invariant (inv : σ → Prop) (m : EStateM ε σ α) : Prop :=
  Triple inv m (fun _ => inv) (fun _ => inv)

variable {pre pre' : σ → Prop} {m : EStateM ε σ α} {post post' : α → σ → Prop}
  {fails fails' : ε → σ → Prop} {f : α → EStateM ε σ β} {last : β → σ → Prop}

theorem Triple.bind (hm : Triple pre m post fails) (hf : ∀ a, Triple (post a) (f a) last fails) :
    Triple pre (m >>= f) last fails := by
  intro s hs
  have hfirst := hm s hs
  simp only [Bind.bind, EStateM.bind]
  cases hrun : m s with
  | error e s' => rwa [hrun] at hfirst
  | ok a s' =>
    rw [hrun] at hfirst
    exact hf a s' hfirst

theorem Triple.pure {a : α} (h : ∀ s, pre s → post a s) :
    Triple pre (Pure.pure a : EStateM ε σ α) post fails := h

theorem Triple.throw {e : ε} (h : ∀ s, pre s → fails e s) :
    Triple pre (MonadExcept.throw e : EStateM ε σ α) post fails := h

theorem Triple.modify {f : σ → σ} {post : PUnit → σ → Prop} (h : ∀ s, pre s → post ⟨⟩ (f s)) :
    Triple pre (modifyGet (fun s => (⟨⟩, f s)) : EStateM ε σ PUnit) post fails := h

/-- A write that keeps what is known. -/
theorem Triple.keep {f : σ → σ} (h : ∀ s, pre s → pre (f s)) :
    Triple pre (modifyGet (fun s => (⟨⟩, f s)) : EStateM ε σ PUnit) (fun _ => pre) fails := h

theorem Triple.set {last : σ} {post : PUnit → σ → Prop} (h : ∀ s, pre s → post ⟨⟩ last) :
    Triple pre (MonadStateOf.set last : EStateM ε σ PUnit) post fails := h

theorem Triple.weaken (h : Triple pre m post fails) (hpre : ∀ s, pre' s → pre s)
    (hpost : ∀ a s, post a s → post' a s) (hfails : ∀ e s, fails e s → fails' e s) :
    Triple pre' m post' fails' := by
  intro s hs
  have hrun := h s (hpre s hs)
  cases hm : m s with
  | ok a s' =>
    rw [hm] at hrun
    exact hpost a s' hrun
  | error e s' =>
    rw [hm] at hrun
    exact hfails e s' hrun

theorem Triple.narrow (h : Triple pre m post fails) (hpre : ∀ s, pre' s → pre s) :
    Triple pre' m post fails :=
  fun s hs => h s (hpre s hs)

theorem Triple.exists {ι : Type} {pre : ι → σ → Prop} (h : ∀ i, Triple (pre i) m post fails) :
    Triple (fun s => ∃ i, pre i s) m post fails :=
  fun s ⟨i, hs⟩ => h i s hs

theorem Triple.check {f : σ → Except ε α} (hfails : ∀ e s, pre s → fails e s) :
    Triple pre (JmeterRs.check f) (fun a s => pre s ∧ f s = .ok a) fails := by
  intro s hs
  cases hcheck : f s with
  | error e =>
    rw [check_error hcheck]
    exact hfails e s hs
  | ok a =>
    rw [check_ok hcheck]
    exact ⟨hs, hcheck⟩

/-- A check whose outcome does not matter. -/
theorem Triple.guard {f : σ → Except ε α} (hfails : ∀ e s, pre s → fails e s) :
    Triple pre (JmeterRs.check f) (fun _ => pre) fails :=
  (check hfails).weaken (fun _ h => h) (fun _ _ h => h.1) fun _ _ h => h

/-- The result of a computation whose value is wrapped at the end. -/
theorem Triple.result {R : EStateM.Result ε σ β → Prop} {s : σ} (h : Triple pre m post fails)
    (hs : pre s) {reply : α → β} (hok : ∀ a s', post a s' → R (.ok (reply a) s'))
    (herror : ∀ e s', fails e s' → R (.error e s')) :
    R ((m >>= fun a => Pure.pure (reply a) : EStateM ε σ β) s) := by
  have hrun := h s hs
  cases hres : m s with
  | ok a s' =>
    rw [hres] at hrun
    rw [run_bind_ok hres]
    exact hok a s' hrun
  | error e s' =>
    rw [hres] at hrun
    rw [run_bind_error hres]
    exact herror e s' hrun

/-- Reading the state shows that it has `pre`. -/
theorem Triple.get {f : σ → EStateM ε σ β}
    (h : ∀ s, pre s → Triple (fun t => t = s) (f s) last fails) :
    Triple pre (MonadState.get >>= f) last fails :=
  fun s hs => h s hs s rfl

theorem Triple.ite {p : Prop} [Decidable p] {n : EStateM ε σ α}
    (hpos : p → Triple pre m post fails) (hneg : ¬ p → Triple pre n post fails) :
    Triple pre (if p then m else n) post fails := by
  by_cases h : p
  · rw [if_pos h]
    exact hpos h
  · rw [if_neg h]
    exact hneg h

/-- What holds of the value and of the state after a computation, and of the state if it fails. -/
def Meets (ok : α → σ → Prop) (err : σ → Prop) : EStateM.Result ε σ α → Prop
  | .ok a s => ok a s
  | .error _ s => err s

theorem Meets.mono {ok ok' : α → σ → Prop} {err err' : σ → Prop} {r : EStateM.Result ε σ α}
    (h : Meets ok err r) (hok : ∀ a s, ok a s → ok' a s) (herr : ∀ s, err s → err' s) :
    Meets ok' err' r := by
  cases r with
  | ok a s => exact hok a s h
  | error e s => exact herr s h

theorem meets_get {f : σ → EStateM ε σ β} {s : σ} {ok : β → σ → Prop} {err : σ → Prop}
    (h : Meets ok err (f s s)) : Meets ok err ((get >>= f) s) := h

theorem meets_bind {s : σ} {mid : α → σ → Prop} {ok : β → σ → Prop} {err : σ → Prop}
    (hm : Meets mid err (m s)) (hf : ∀ a t, mid a t → Meets ok err (f a t)) :
    Meets ok err ((m >>= f) s) := by
  simp only [Bind.bind, EStateM.bind]
  cases hrun : m s with
  | error e t => rwa [hrun] at hm
  | ok a t =>
    rw [hrun] at hm
    exact hf a t hm

end

end JmeterRs
