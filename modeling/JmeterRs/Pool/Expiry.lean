import JmeterRs.Pool.Handoff

/-!
# The age of reused connections

Idle connections are checked when they are taken.  A connection that was handed to a ticket is
checked at its release only, however late the ticket is polled.
-/

namespace JmeterRs.Pool

variable {C E : Type} {s s' : PoolInner C} {config : PoolConfig} {facts : ConnectionFacts} {now : ℕ}
  {entry : ConnectionEntry C} {request : ℕ} {acts : List (Act C E)} {key : PoolKey}
  {ticket : AcquireTicket} {index : ℕ}

/-! ## Reuse -/

def Act.tick : Act C E → Option ℕ
  | .acquire _ now | .poll _ now | .complete _ _ _ now | .finalize _ _ _ now _ => some now
  | _ => none

def PoolInner.factsAt (s : PoolInner C) (index : ℕ) : Option ConnectionFacts :=
  match s.slots[index]? with
  | some (.occupied entry) => some entry.facts
  | _ => none

/-- The facts of a connection that a call is about to return as reused. -/
def reused (s : PoolInner C) : Act C E → Option ConnectionFacts
  | .acquire key now =>
    match acquire (E := E) key now s with
    | .ok (.reused slot _) _ => s.factsAt slot
    | _ => none
  | .poll ticket now =>
    match poll (E := E) ticket now s with
    | .ok (.reused slot _) _ => s.factsAt slot
    | _ => none
  | _ => none

theorem factsValidity_eq_eligible : factsValidity facts now config = .eligible ↔
    facts.lastUsedAt ≤ now ∧ facts.freshness = .fresh ∧
      now ≤ facts.createdAt + config.connectionTtl ∧ now ≤ facts.lastUsedAt + config.idleTtl := by
  have hordered := facts.ordered
  unfold factsValidity
  cases facts.freshness <;> split_ifs <;> simp <;> omega

theorem idle_eligible {indices : List ℕ} :
    Meets (fun found t => ∀ slot facts, found = some slot → t.factsAt slot = some facts →
      factsValidity facts now s.config = .eligible) (fun _ => True)
      (takeIdleFrom (E := E) key now indices s) := by
  induction indices generalizing s with
  | nil =>
    intro slot facts hfound
    cases hfound
  | cons index rest ih =>
    unfold takeIdleFrom
    split
    · next entry hslot =>
      dsimp only
      split_ifs with hother heligible
      · exact ih
      · rintro _ facts ⟨⟩ hfacts
        rw [PoolInner.factsAt, hslot] at hfacts
        cases hfacts
        exact heligible
      · exact trivial
      · exact ih
    · exact ih

theorem Move.kept {stamp : Option Stamp} (h : Move s stamp s')
    (hstamp : ∀ ticket, stamp ≠ some (.hands ticket)) (hmem : .occupied entry ∈ s'.slots)
    (hstate : entry.state = .assigned request) : .occupied entry ∈ s.slots := by
  have hset {index : ℕ} {b : Slot C}
      (hb : ∀ other, b = .occupied other → other.state ≠ .assigned request)
      (h : .occupied entry ∈ s.slots.set index b) : .occupied entry ∈ s.slots := by
    rcases List.mem_or_eq_of_mem_set h with h | h
    · exact h
    · exact absurd hstate (hb _ h.symm)
  cases h
  case falls slots hslots =>
    obtain ⟨i, hi⟩ := List.mem_iff_getElem?.mp hmem
    obtain ⟨a, ha, hab⟩ := get?_forall₂ hslots hi
    rcases hab with rfl | ⟨other, reason, -, -, -, hother⟩
    · exact List.mem_of_getElem? ha
    · cases hother
      cases hstate
  case leased hturn =>
    rcases hturn with ⟨-, ⟨⟩⟩ | ⟨ticket, -, -, rfl⟩ <;> refine hset ?_ hmem <;> rintro _ ⟨⟩ ⟨⟩
  case reserved hturn _ => cases hturn <;> exact hset (b := .connecting _) (by simp) hmem
  case cancelled hslots =>
    cases hslots with
    | none => exact hmem
    | idle | quarantined =>
      refine hset ?_ hmem
      rintro _ ⟨⟩ ⟨⟩
  case shut =>
    obtain ⟨a, ha, heq⟩ := List.mem_map.mp hmem
    cases a with
    | vacant | connecting => cases heq
    | occupied other =>
      simp only [Slot.shut] at heq
      split at heq <;> cases heq <;> first | exact ha | cases hstate
  case assigned => exact absurd rfl (hstamp _)
  all_goals first
    | exact hmem
    | refine hset ?_ hmem
      rintro _ ⟨⟩ ⟨⟩

theorem chain_kept (h : Chain s s') (hmem : .occupied entry ∈ s'.slots)
    (hstate : entry.state = .assigned request) : .occupied entry ∈ s.slots := by
  induction h with
  | refl => exact hmem
  | tail _ hmove ih => exact ih (hmove.kept (by simp) hmem hstate)

theorem Fallen.factsAt (h : Fallen s s') (index : ℕ) : s'.factsAt index = s.factsAt index := by
  obtain ⟨slots, hslots, rfl⟩ := h
  unfold PoolInner.factsAt
  dsimp only
  generalize s.slots = old at hslots ⊢
  induction hslots generalizing index with
  | nil => rfl
  | cons hab _ ih =>
    cases index with
    | zero => rcases hab with rfl | ⟨entry, reason, rfl, -, -, rfl⟩ <;> rfl
    | succ index => exact ih index

section

variable {α β : Type} {m : EStateM (PoolError E) (PoolInner C) α}
  {f : α → EStateM (PoolError E) (PoolInner C) β} {ok : β → PoolInner C → Prop}
  {mid mid' : α → PoolInner C → Prop} {err err' : PoolInner C → Prop}

theorem Meets.and (h : Meets mid err (m s)) (h' : Meets mid' err' (m s)) :
    Meets (fun a t => mid a t ∧ mid' a t) (fun _ => True) (m s) := by
  generalize m s = r at h h'
  cases r with
  | ok a t => exact ⟨h, h'⟩
  | error e t => exact trivial

theorem meets_after (hm : Meets mid err (m s))
    (hf : ∀ a t, mid a t → Meets ok (fun _ => True) (f a t)) :
    Meets ok (fun _ => True) ((m >>= f) s) :=
  meets_bind (hm.mono (fun _ _ h => h) fun _ _ => trivial) hf

theorem meets_any (hf : ∀ a t, Meets ok (fun _ => True) (f a t)) :
    Meets ok (fun _ => True) ((m >>= f) s) := by
  have hany : Meets (fun _ _ => True) (fun _ => True) (m s) := by
    cases m s <;> exact trivial
  exact meets_after hany fun a t _ => hf a t

end

theorem acquire_reused : Meets (fun r _ => ∀ slot token facts, r = .reused slot token →
      s.factsAt slot = some facts → factsValidity facts now s.config = .eligible) (fun _ => True)
      (acquire (E := E) key now s) := by
  refine meets_after ensureOpen_same fun _ t ht => ?_
  obtain ⟨rfl, -⟩ := ht
  refine meets_after idle_fallen fun _ u hu => ?_
  obtain ⟨slots, -, rfl⟩ := id hu
  refine meets_get ?_
  split_ifs
  · refine meets_after (Meets.and idle_fallen idle_eligible) fun found v hv => ?_
    cases found with
    | some slot =>
      refine meets_any fun token w => ?_
      rintro _ _ facts ⟨⟩ hfacts
      exact hv.2 slot facts rfl (((hu.trans hv.1).factsAt slot).trans hfacts)
    | none =>
      refine meets_any fun permit w => ?_
      cases permit with
      | some permit => exact fun _ _ _ h => by cases h
      | none => exact meets_any fun _ _ _ _ _ h => by cases h
  · exact meets_any fun _ _ _ _ _ h => by cases h

theorem poll_reused : Meets (fun r _ => ∀ slot token facts, r = .reused slot token →
      s.factsAt slot = some facts → factsValidity facts now s.config = .eligible ∨
        ∃ entry, .occupied entry ∈ s.slots ∧ entry.key = ticket.key ∧
          entry.state = .assigned ticket.id ∧ entry.facts = facts) (fun _ => True)
      (poll (E := E) ticket now s) := by
  refine meets_after ensureOpen_same fun _ t ht => ?_
  obtain ⟨rfl, -⟩ := ht
  refine meets_get ?_
  cases t.waiters.findIdx? (· = ticket) with
  | none => exact trivial
  | some index =>
    cases index with
    | succ index => exact fun _ _ _ h => by cases h
    | zero =>
      refine meets_after idle_fallen fun _ u hu => ?_
      obtain ⟨slots, hslots, rfl⟩ := id hu
      refine meets_get ?_
      cases hassigned : PoolInner.findAssigned _ ticket with
      | some slot =>
        refine meets_any fun token w => ?_
        rintro _ _ facts ⟨⟩ hfacts
        obtain ⟨entry, hslot, hkey, hstate⟩ := occupied_of_find hassigned
        have hentry := (hu.factsAt slot).trans hfacts
        simp only [PoolInner.factsAt, hslot, Option.some.injEq] at hentry
        have hmem := (Move.falls hslots).kept (by simp) (List.mem_of_getElem? hslot) hstate
        exact .inr ⟨entry, hmem, hkey, hstate, hentry⟩
      | none =>
        refine meets_after (Meets.and idle_fallen idle_eligible) fun found v hv => ?_
        cases found with
        | some slot =>
          refine meets_any fun token w => ?_
          rintro _ _ facts ⟨⟩ hfacts
          exact .inl (hv.2 slot facts rfl (((hu.trans hv.1).factsAt slot).trans hfacts))
        | none =>
          refine meets_any fun permit w => ?_
          cases permit <;> exact fun _ _ _ h => by cases h

/-! ## Polls of the front ticket -/

/-- An idle connection for a key is in this slot, and its facts are valid to this degree. -/
def IdleAt (s : PoolInner C) (key : PoolKey) (now : ℕ) (validity : FactsValidity) (i : ℕ) : Prop :=
  ∃ entry, s.slots[i]? = some (.occupied entry) ∧ entry.key = key ∧ entry.state = .idle ∧
    factsValidity entry.facts now s.config = validity

/-- In these slots an eligible idle connection comes before every one that was used after `now`. -/
def ScanEnds (s : PoolInner C) (key : PoolKey) (now i n : ℕ) : Prop :=
  ∀ j, i ≤ j → j < i + n → IdleAt s key now .reversed j →
    ∃ k, i ≤ k ∧ k < j ∧ IdleAt s key now .eligible k

/-- A slot that is passed over does not matter for the rest. -/
theorem scanEnds_succ {t : PoolInner C} {i n : ℕ} (hconfig : t.config = s.config)
    (hslots : ∀ j, i < j → t.slots[j]? = s.slots[j]?)
    (hnone : ∀ validity, validity = .reversed ∨ validity = .eligible →
      ¬ IdleAt s key now validity i) :
    ScanEnds t key now (i + 1) n ↔ ScanEnds s key now i (n + 1) := by
  have hsame {validity : FactsValidity} {j : ℕ} (hj : i < j) :
      IdleAt t key now validity j ↔ IdleAt s key now validity j := by
    unfold IdleAt
    rw [hslots j hj, hconfig]
  constructor
  · intro h j hle hlt hreversed
    rcases Nat.eq_or_lt_of_le hle with rfl | hij
    · exact absurd hreversed (hnone _ (.inl rfl))
    · obtain ⟨k, hik, hkj, heligible⟩ := h j hij (by omega) ((hsame hij).mpr hreversed)
      exact ⟨k, by omega, hkj, (hsame hik).mp heligible⟩
  · intro h j hle hlt hreversed
    obtain ⟨k, hik, hkj, heligible⟩ := h j (by omega) (by omega) ((hsame hle).mp hreversed)
    rcases Nat.eq_or_lt_of_le hik with rfl | hik
    · exact absurd heligible (hnone _ (.inr rfl))
    · exact ⟨k, hik, hkj, (hsame hik).mpr heligible⟩

/-- `take_idle` goes through the slots up to the first idle connection that is eligible, and fails
at one that was used after `now`. -/
theorem takeIdleFrom_ok {i n : ℕ} :
    (∃ found t, takeIdleFrom (E := E) key now (List.range' i n) s = .ok found t) ↔
      ScanEnds s key now i n := by
  induction n generalizing i s with
  | zero => exact iff_of_true ⟨_, _, rfl⟩ fun j hle hlt => by omega
  | succ n ih =>
    rw [List.range'_succ, takeIdleFrom]
    cases hslot : s.slots[i]? with
    | none =>
      refine ih.trans (scanEnds_succ rfl (fun _ _ => rfl) fun _ _ ⟨_, hsome, _⟩ => ?_)
      cases hslot.symm.trans hsome
    | some slot =>
      cases slot with
      | vacant | connecting =>
        refine ih.trans (scanEnds_succ rfl (fun _ _ => rfl) fun _ _ ⟨_, hsome, _⟩ => ?_)
        cases hslot.symm.trans hsome
      | occupied entry =>
        dsimp only
        split_ifs with hother heligible hreversed
        · refine ih.trans (scanEnds_succ rfl (fun _ _ => rfl) ?_)
          rintro _ _ ⟨_, hsome, hkey, hidle, _⟩
          cases hslot.symm.trans hsome
          exact hother.elim (fun h => h hkey) fun h => h hidle
        · rw [not_or, not_not, not_not] at hother
          refine iff_of_true ⟨_, _, rfl⟩ fun j hle hlt hreversed => ?_
          refine ⟨i, Nat.le_refl _, Nat.lt_of_le_of_ne hle ?_, entry, hslot, hother.1, hother.2,
            heligible⟩
          rintro rfl
          obtain ⟨_, hsome, -, -, hvalid⟩ := hreversed
          cases hslot.symm.trans hsome
          cases heligible.symm.trans hvalid
        · rw [not_or, not_not, not_not] at hother
          refine iff_of_false (fun ⟨_, _, h⟩ => by cases h) fun h => ?_
          obtain ⟨k, hik, hki, -⟩ := h i (Nat.le_refl _) (by omega)
            ⟨entry, hslot, hother.1, hother.2, hreversed⟩
          omega
        · refine ih.trans (scanEnds_succ rfl
            (fun j hj => List.getElem?_set_ne (Nat.ne_of_lt hj)) ?_)
          rintro validity hvalidity ⟨_, hsome, -, -, rfl⟩
          cases hslot.symm.trans hsome
          exact hvalidity.elim hreversed heligible

theorem idle_assigned {indices : List ℕ} :
    Meets (fun _ t => ∀ ticket, t.findAssigned ticket = s.findAssigned ticket) (fun _ => True)
      (takeIdleFrom (E := E) key now indices s) := by
  induction indices generalizing s with
  | nil => exact fun _ => rfl
  | cons index rest ih =>
    unfold takeIdleFrom
    split
    · next entry hslot =>
      dsimp only
      split_ifs with hother
      · exact ih
      · exact fun _ => rfl
      · exact trivial
      · refine ih.mono (fun _ t ht ticket => (ht ticket).trans ?_) fun _ h => h
        rw [not_or, not_not, not_not] at hother
        refine findIdx?_set_eq hslot ?_
        rw [free_of_state _ (by simp), free_of_state _ (by simp [hother.2])]
    · exact ih

/-- The poll of the ticket gives it a connection with these facts that is kept for it: the pool is
open, the ticket is at the front, there is a generation for the lease, and the scan of the idle
connections does not fail. -/
structure GetsKept (s : PoolInner C) (ticket : AcquireTicket) (now : ℕ)
    (facts : ConnectionFacts) : Prop where
  opened : s.state = .opened
  front : s.waiters.head? = some ticket
  generation : s.nextGeneration ≠ none
  scan : ∀ j < s.slots.length, IdleAt s ticket.key now .reversed j →
    ∃ k < j, IdleAt s ticket.key now .eligible k
  kept : ∃ slot, s.findAssigned ticket = some slot ∧ s.factsAt slot = some facts

theorem takeIdle_ok : (∃ found t, takeIdle (E := E) key now s = .ok found t) ↔
    ∀ j < s.slots.length, IdleAt s key now .reversed j → ∃ k < j, IdleAt s key now .eligible k := by
  unfold takeIdle
  rw [List.range_eq_range', takeIdleFrom_ok]
  simp [ScanEnds]

theorem head_of_findIdx? {waiters : List AcquireTicket} :
    waiters.findIdx? (· = ticket) = some 0 ↔ waiters.head? = some ticket := by
  cases waiters with
  | nil => simp
  | cons first rest => simp [List.findIdx?_cons]

/-- The front ticket has a connection that is kept for it, and the scan has ended. -/
theorem pollFront_kept {slot : ℕ} {found : Option ℕ} {t : PoolInner C}
    (hidle : takeIdle (E := E) ticket.key now s = .ok found t)
    (hslot : s.findAssigned ticket = some slot) :
    (s.nextGeneration = none ∧ ∃ e u, pollFront (E := E) ticket now s = .error e u) ∨
      (s.nextGeneration ≠ none ∧
        ∃ token u, pollFront (E := E) ticket now s = .ok (.reused slot token) u) := by
  have hfallen : Meets (fun _ => Fallen s) _ _ := @idle_fallen C E s ticket.key now
  have hassigned := @idle_assigned C E s now ticket.key (List.range s.slots.length)
  rw [show takeIdleFrom (E := E) ticket.key now (List.range s.slots.length) s = .ok found t
    from hidle] at hassigned
  rw [hidle] at hfallen
  obtain ⟨slots, -, rfl⟩ := hfallen
  have hfind : PoolInner.findAssigned _ ticket = some slot := (hassigned ticket).trans hslot
  obtain ⟨entry, hentry, hkey, hstate⟩ := occupied_of_find hfind
  have hpoll : pollFront (E := E) ticket now s = (leaseAssigned slot ticket >>= fun token =>
      modify (grant ticket) >>= fun _ => pure (.reused slot token)) { s with slots } := by
    have hget (t : PoolInner C) : (get : Pooling C E _) t = .ok t t := rfl
    rw [pollFront, run_bind_ok hidle, run_bind_ok (hget _), hfind]
  rw [hpoll]
  rcases Option.eq_none_or_eq_some s.nextGeneration with hnext | ⟨generation, hnext⟩
  · refine .inl ⟨hnext, .generationExhausted, { s with slots }, run_bind_error ?_⟩
    simp [leaseAssigned, allocateGeneration, hnext]
  · refine .inr ⟨hnext ▸ Option.some_ne_none _, ?_⟩
    obtain ⟨token, u, hlease⟩ :
        ∃ token u, leaseAssigned (E := E) slot ticket { s with slots } = .ok token u := by
      simp only [leaseAssigned, allocateGeneration, hnext, hentry, hkey, hstate, ne_eq,
        not_true_eq_false, or_self, if_false]
      exact ⟨_, _, rfl⟩
    rw [run_bind_ok hlease]
    exact ⟨_, _, rfl⟩

theorem reused_iff_getsKept (hfind : s.findAssigned ticket ≠ none) :
    reused s (.poll ticket now : Act C E) = some facts ↔ GetsKept s ticket now facts := by
  obtain ⟨slot, hslot⟩ := Option.ne_none_iff_exists'.mp hfind
  have hfails {e : PoolError E} {t : PoolInner C} (hpoll : poll ticket now s = .error e t)
      (hnot : ¬ GetsKept s ticket now facts) :
      reused s (.poll ticket now : Act C E) = some facts ↔ GetsKept s ticket now facts := by
    simp only [reused, hpoll]
    exact iff_of_false (Option.some_ne_none facts).symm hnot
  by_cases hopen : s.state = .opened
  · have hensure : ensureOpen (E := E) s = .ok () s := by simp [ensureOpen, check, hopen]
    have hget : (get : Pooling C E _) s = .ok s s := rfl
    by_cases hfront : s.waiters.findIdx? (· = ticket) = some 0
    · have hpoll : poll (E := E) ticket now s = pollFront ticket now s := by
        rw [poll, run_bind_ok hensure, run_bind_ok hget, hfront]
      cases hidle : takeIdle (E := E) ticket.key now s with
      | error e t =>
        have herror : poll ticket now s = .error e t := by
          rw [hpoll]
          exact run_bind_error hidle
        refine hfails herror fun h => ?_
        obtain ⟨found, u, hok⟩ := takeIdle_ok.mpr h.scan
        cases hidle.symm.trans hok
      | ok found t =>
        rcases pollFront_kept hidle hslot with ⟨hnext, e, u, herror⟩ | ⟨hnext, token, u, hok⟩
        · exact hfails (hpoll.trans herror) fun h => h.generation hnext
        · simp only [reused, hpoll.trans hok]
          constructor
          · intro hfacts
            exact ⟨hopen, head_of_findIdx?.mp hfront, hnext, takeIdle_ok.mp ⟨found, t, hidle⟩,
              slot, hslot, hfacts⟩
          · rintro ⟨-, -, -, -, other, hother, hfacts⟩
            cases hslot.symm.trans hother
            exact hfacts
    · have hnot : ¬ GetsKept s ticket now facts := fun h => hfront (head_of_findIdx?.mpr h.front)
      cases hindex : s.waiters.findIdx? (· = ticket) with
      | none =>
        have hpoll : poll (E := E) ticket now s = .error .ticketInvalid s := by
          rw [poll, run_bind_ok hensure, run_bind_ok hget, hindex]
          rfl
        exact hfails hpoll hnot
      | some index =>
        cases index with
        | zero => exact absurd hindex hfront
        | succ index =>
          have hpoll : poll (E := E) ticket now s = .ok .waiting s := by
            rw [poll, run_bind_ok hensure, run_bind_ok hget, hindex]
            rfl
          simp only [reused, hpoll]
          exact iff_of_false (Option.some_ne_none facts).symm hnot
  · obtain ⟨e, herror⟩ : ∃ e, ensureOpen (E := E) s = .error e s := by
      unfold ensureOpen check
      cases hstate : s.state <;> simp_all
    exact hfails (run_bind_error herror) fun h => hopen h.opened

/-- The connections that wait for a ticket were eligible at some time before. -/
def Kept (now : ℕ) (s : PoolInner C) : Prop :=
  ∀ entry request, .occupied entry ∈ s.slots → entry.state = .assigned request →
    entry.facts.lastUsedAt ≤ now ∧ entry.facts.freshness = .fresh

theorem finalize_kept {token : LeaseToken} {disposition : LeaseDisposition} {cleanup : Cleanup C E}
    (h : finalize index token disposition now cleanup s = .ok (.assigned ticket) s') :
    ∃ entry, s'.slots = s.slots.set index (.occupied entry) ∧
      factsValidity entry.facts now s.config = .eligible := by
  unfold finalize at h
  split at h
  · next hrun =>
    cases h
    unfold releaseLease at hrun
    split at hrun
    · cases hrun
    · next entry _ =>
      cases disposition with
      | reuse proof =>
        simp only [releaseReuse] at hrun
        split_ifs at hrun with _ _ hvalid
        split at hrun
        · cases hrun
        · next generation t hgen =>
          unfold allocateGeneration at hgen
          split at hgen <;> cases hgen
          unfold returnConnection at hrun
          split at hrun
          · cases hrun
            exact ⟨_, List.set_set .., not_not.mp hvalid⟩
          · split_ifs at hrun <;> cases hrun
      | close =>
        dsimp only at hrun
        split at hrun <;> cases hrun
      | quarantine reason => cases hrun
  · cases h

theorem run_kept (config : PoolConfig) (hnow : ∀ tick ∈ acts.filterMap Act.tick, tick ≤ now) :
    Kept now (run config acts) := by
  induction acts using List.reverseRecOn with
  | nil =>
    intro entry request hmem
    cases (List.mem_replicate.mp hmem).2
  | append_singleton acts act ih =>
    rw [List.filterMap_append, List.forall_mem_append] at hnow
    have hkept := ih hnow.1
    rw [run_concat]
    have hmoves := step_moves (run_lawful config acts).fits act
    intro entry request hmem hstate
    split at hmoves
    · next ticket hticket =>
      unfold handsTo at hticket
      split at hticket
      · next index token disposition tick cleanup =>
        split at hticket
        · next hrun =>
          obtain ⟨other, hslots, hvalid⟩ := finalize_kept hrun
          rw [step, hrun, final, hslots] at hmem
          rcases List.mem_or_eq_of_mem_set hmem with hmem | heq
          · exact hkept entry request hmem hstate
          · cases heq
            obtain ⟨hused, hfresh, -⟩ := factsValidity_eq_eligible.mp hvalid
            exact ⟨Nat.le_trans hused (hnow.2 tick (by simp [Act.tick])), hfresh⟩
        · cases hticket
      · cases hticket
    · refine hkept entry request ?_ hstate
      rcases hmoves with hchain | ⟨-, hmove⟩
      · exact chain_kept hchain hmem hstate
      · exact hmove.kept (by simp) hmem hstate

/-! ## Runs -/

/-- A reused connection is eligible. -/
def ReusesEligible (config : PoolConfig) (acts : List (Act C E)) : Prop :=
  ∀ front act now facts, front ++ [act] <+: acts → act.tick = some now →
    reused (run config front) act = some facts → factsValidity facts now config = .eligible

/-- A ticket that gets a connection that was kept for it is polled before the connection expires. -/
def PolledInTime (config : PoolConfig) (acts : List (Act C E)) : Prop :=
  ∀ front ticket now facts, front ++ [.poll ticket now] <+: acts →
    GetsKept (run config front) ticket now facts →
    now ≤ facts.createdAt + config.connectionTtl ∧ now ≤ facts.lastUsedAt + config.idleTtl

/-- **A reused connection is eligible unless it was kept for a ticket that was polled too late.** -/
theorem reusesEligible_iff (config : PoolConfig)
    (hticks : (acts.filterMap Act.tick).Pairwise (· ≤ ·)) :
    ReusesEligible config acts ↔ PolledInTime config acts := by
  constructor
  · intro h front ticket now facts hfront hkept
    obtain ⟨slot, hslot, -⟩ := hkept.kept
    have hreused := (reused_iff_getsKept (E := E) (by rw [hslot]; nofun)).mpr hkept
    exact (factsValidity_eq_eligible.mp (h front _ now facts hfront rfl hreused)).2.2
  · intro h front act now facts hfront htick hreused
    have hlawful := run_lawful config front
    have hnow : ∀ tick ∈ front.filterMap Act.tick, tick ≤ now := by
      have hsorted := hticks.sublist (hfront.sublist.filterMap Act.tick)
      rw [List.filterMap_append, List.pairwise_append] at hsorted
      exact fun tick hmem => hsorted.2.2 tick hmem now (by simp [htick])
    cases act with
    | acquire key tick =>
      cases htick
      have hacquire := @acquire_reused C E (run config front) now key
      simp only [reused] at hreused
      split at hreused
      · next hrun =>
        rw [hrun, hlawful.config] at hacquire
        exact hacquire _ _ _ rfl hreused
      · cases hreused
    | poll ticket tick =>
      cases htick
      have hpoll := @poll_reused C E (run config front) now ticket
      have hfound := hreused
      simp only [reused] at hfound
      split at hfound
      · next hrun =>
        rw [hrun, hlawful.config] at hpoll
        rcases hpoll _ _ _ rfl hfound with heligible | ⟨entry, hmem, hkey, hstate, rfl⟩
        · exact heligible
        · obtain ⟨hused, hfresh⟩ := run_kept config hnow entry _ hmem hstate
          have hassigned : (run config front).findAssigned ticket ≠ none := by
            intro hnone
            have hfree := findAssigned_eq_none.mp hnone _ hmem
            simp [Slot.isAssigned, hkey, hstate] at hfree
          exact factsValidity_eq_eligible.mpr
            ⟨hused, hfresh,
              h front ticket now _ hfront ((reused_iff_getsKept hassigned).mp hreused)⟩
      · cases hfound
    | _ => cases hreused

theorem reusesEligible_twice : (Twice.acts.filterMap Act.tick).Pairwise (· ≤ ·) ∧
    (ReusesEligible Twice.config Twice.acts ↔ PolledInTime Twice.config Twice.acts) :=
  ⟨by decide, reusesEligible_iff Twice.config (by decide)⟩

/-- The ticket is polled long after its connection has expired, and gets it. -/
theorem late_reused :
    reused (run Twice.config Twice.acts.dropLast) (.poll ⟨1, Twice.key⟩ 100 : Act Unit Unit) =
      some Twice.facts ∧ factsValidity Twice.facts 100 Twice.config = .expired := by
  decide +kernel

end JmeterRs.Pool
