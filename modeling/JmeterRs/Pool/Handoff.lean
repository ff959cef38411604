import JmeterRs.Pool.Bounds

/-!
# The hand-off of a connection to the queue

A connection that is released with a valid proof is assigned to the ticket at the front of the
queue, which stays there until it is polled.  Nothing asks whether a connection has been assigned to
it already, and a second one stays assigned when the ticket is gone.
-/

namespace JmeterRs.Pool

open PoolInner

variable {C E : Type} {s s' t : PoolInner C} {ticket : AcquireTicket} {i : ℕ} {a b : Slot C}
  {entry : ConnectionEntry C}

/-- How many connections are kept for a ticket. -/
def PoolInner.kept (s : PoolInner C) (ticket : AcquireTicket) : ℕ :=
  s.slots.countP (·.isAssigned ticket)

/-- Connections are kept only for tickets that are queued for the same key, one for each. -/
structure Handed (s : PoolInner C) : Prop where
  queued : ∀ ticket, 0 < s.kept ticket → ticket ∈ s.waiters
  single : ∀ ticket, s.kept ticket ≤ 1

theorem kept_eq_zero : s.kept ticket = 0 ↔ s.findAssigned ticket = none := by
  simp [findAssigned_eq_none, kept, List.countP_eq_zero]

/-! ## Moves -/

/-- No slot has been assigned, and the tickets that slots are kept for are still queued. -/
theorem Handed.keep (h : Handed s) (hslots : ∀ ticket, t.kept ticket ≤ s.kept ticket)
    (hwaiters : ∀ ticket ∈ s.waiters, 0 < t.kept ticket → ticket ∈ t.waiters) : Handed t where
  queued ticket hkept :=
    hwaiters ticket (h.queued ticket (Nat.lt_of_lt_of_le hkept (hslots ticket))) hkept
  single ticket := Nat.le_trans (hslots ticket) (h.single ticket)

theorem free_of_state (entry : ConnectionEntry C) (h : ∀ request, entry.state ≠ .assigned request)
    (ticket : AcquireTicket) : (Slot.occupied entry).isAssigned ticket = false := by
  simp [Slot.isAssigned, h]

theorem kept_set (hslots : t.slots = s.slots.set i b) (hslot : s.slots[i]? = some a)
    (ticket : AcquireTicket) :
    t.kept ticket + (if a.isAssigned ticket then 1 else 0) =
      s.kept ticket + if b.isAssigned ticket then 1 else 0 := by
  rw [kept, hslots]
  exact countP_set_add hslot

theorem kept_le (hslots : t.slots = s.slots.set i b) (hslot : s.slots[i]? = some a)
    (hb : b.isAssigned ticket = false) : t.kept ticket ≤ s.kept ticket := by
  have hset := kept_set hslots hslot ticket
  rw [hb] at hset
  exact Nat.le_of_add_right_le (Nat.le_of_eq hset)

/-- A slot changes to one that is not assigned, and all tickets stay. -/
theorem Handed.set (h : Handed s) (hslots : t.slots = s.slots.set i b)
    (hslot : s.slots[i]? = some a) (hwaiters : ∀ waiter ∈ s.waiters, waiter ∈ t.waiters)
    (hb : ∀ ticket, b.isAssigned ticket = false) : Handed t :=
  h.keep (fun ticket => kept_le hslots hslot (hb ticket)) fun waiter hwaiter _ =>
    hwaiters waiter hwaiter

/-- The slot that was found for a ticket is the only one that is kept for it. -/
theorem Handed.only (h : Handed s) (hslots : t.slots = s.slots.set i b)
    (hfind : s.findAssigned ticket = some i) (hb : ∀ ticket, b.isAssigned ticket = false) :
    t.kept ticket = 0 := by
  obtain ⟨a, hslot, hassigned⟩ := findIdx?_some hfind
  have hset := kept_set hslots hslot ticket
  rw [hassigned, hb] at hset
  have hsingle := h.single ticket
  simp only [if_true, Bool.false_eq_true, if_false] at hset
  omega

theorem Handed.front (h : Handed s) (hfront : s.waiters.head? = some ticket)
    (hnone : s.kept ticket = 0) : Handed (grant ticket s) := by
  obtain ⟨rest, hrest⟩ := List.head?_eq_some_iff.mp hfront
  refine h.keep (fun _ => Nat.le_refl _) fun waiter hwaiter hkept => ?_
  rw [hrest, List.mem_cons] at hwaiter
  rcases hwaiter with rfl | hwaiter
  · exact absurd hnone (Nat.ne_of_gt hkept)
  · simpa [grant, emit, hrest] using hwaiter

theorem Handed.taken {taken : PoolInner C → PoolInner C} (h : Handed t) (hturn : Turn s taken)
    (hwaiters : t.waiters = s.waiters) (hle : ∀ ticket, t.kept ticket ≤ s.kept ticket) :
    Handed (taken t) := by
  cases hturn with
  | direct _ _ => exact ⟨h.queued, h.single⟩
  | granted _ hfront hfree =>
    refine h.front (hwaiters ▸ hfront) (Nat.le_zero.mp ?_)
    rw [← kept_eq_zero.mpr hfree]
    exact hle _

theorem mem_eraseIdx_ne {waiters : List AcquireTicket} {index : ℕ} {waiter : AcquireTicket}
    (hindex : waiters.findIdx? (· = ticket) = some index) (hmem : waiter ∈ waiters)
    (hne : waiter ≠ ticket) : waiter ∈ waiters.eraseIdx index := by
  obtain ⟨hlt, hticket, -⟩ := List.findIdx?_eq_some_iff_getElem.mp hindex
  obtain ⟨j, hj, rfl⟩ := List.mem_iff_getElem.mp hmem
  refine List.mem_eraseIdx_iff_getElem.mpr ⟨j, hj, ?_, rfl⟩
  rintro rfl
  exact hne (of_decide_eq_true hticket)

theorem isAssigned_shut : a.shut.isAssigned ticket = false := by
  unfold Slot.shut
  split
  · rfl
  · rfl
  · next entry =>
    split
    · exact free_of_state _ (by simp) ticket
    · exact free_of_state _ (by simp) ticket
    · next hstate => exact free_of_state _ (by simp [hstate]) ticket
    · next hstate => exact free_of_state _ (by simp [hstate]) ticket

/-- A connection is handed to the front ticket, for which no other one is kept. -/
theorem Handed.assign (h : Handed s) (hslots : t.slots = s.slots.set i (.occupied entry))
    (hslot : s.slots[i]? = some a) (hwaiters : t.waiters = s.waiters)
    (hfront : s.waiters.head? = some ticket) (hstate : entry.state = .assigned ticket.id)
    (hkey : ticket.key = entry.key) (hnone : s.kept ticket = 0) : Handed t := by
  have hother {waiter : AcquireTicket} (hne : waiter ≠ ticket) : t.kept waiter ≤ s.kept waiter := by
    refine kept_le hslots hslot (decide_eq_false fun hassigned => hne ?_)
    rw [hstate, ← hkey, EntryState.assigned.injEq] at hassigned
    cases waiter
    cases ticket
    simp_all
  constructor
  · intro waiter hkept
    rw [hwaiters]
    by_cases hne : waiter = ticket
    · exact hne ▸ List.mem_of_head? hfront
    · exact h.queued waiter (Nat.lt_of_lt_of_le hkept (hother hne))
  · intro waiter
    by_cases hne : waiter = ticket
    · have hset := kept_set hslots hslot waiter
      subst hne
      rw [hnone] at hset
      split_ifs at hset <;> omega
    · exact Nat.le_trans (hother hne) (h.single waiter)

theorem Handed.move {stamp : Option Stamp} (h : Handed s)
    (hnone : ∀ ticket, stamp = some (.hands ticket) → s.findAssigned ticket = none)
    (hmove : Move s stamp s') : Handed s' := by
  cases hmove
  case falls hslots =>
    exact h.keep (fun ticket => countP_le_all₂ hslots fun hab => hab.isAssigned)
      fun _ hwaits _ => hwaits
  case queued =>
    exact h.keep (fun _ => Nat.le_refl _) fun _ hwaits _ => List.mem_append_left _ hwaits
  case leased index generation entry taken hslot hgeneration hturn =>
    have hfree := free_of_state (entry.renewed generation entry.facts .leased) (by nofun)
    have hleased : Handed (({ s with nextGeneration := after generation }.setSlot index
        (.occupied (entry.renewed generation entry.facts .leased))).emit
        (.leased ⟨entry.connectionId, generation, entry.key⟩)) :=
      h.set rfl hslot (fun _ h => h) hfree
    rcases hturn with ⟨-, hturn⟩ | ⟨ticket, hfind, hfront, rfl⟩
    · exact hleased.taken hturn rfl fun ticket => kept_le rfl hslot (hfree ticket)
    · exact hleased.front hfront (h.only rfl hfind hfree)
  case reserved hslot _ _ _ hturn _ =>
    refine Handed.taken ?_ hturn rfl fun ticket => kept_le rfl hslot rfl
    exact h.set rfl hslot (fun _ h => h) fun _ => rfl
  case cancelled index ticket slots hindex hslots =>
    obtain ⟨hle, hzero⟩ : (∀ other, { s with slots }.kept other ≤ s.kept other) ∧
        { s with slots }.kept ticket = 0 := by
      cases hslots with
      | none hfree => exact ⟨fun _ => Nat.le_refl _, kept_eq_zero.mpr hfree⟩
      | idle hfind hslot _ | quarantined hfind hslot _ =>
        exact ⟨fun other => kept_le rfl hslot (free_of_state _ (by nofun) other),
          h.only rfl hfind (free_of_state _ (by nofun))⟩
    refine h.keep hle fun waiter hwaiter hkept => mem_eraseIdx_ne hindex hwaiter ?_
    rintro rfl
    exact absurd hzero (Nat.ne_of_gt hkept)
  case shut =>
    have hzero (ticket : AcquireTicket) :
      (s.slots.map Slot.shut).countP (·.isAssigned ticket) = 0 := by
      simp [List.countP_eq_zero, isAssigned_shut]
    refine ⟨fun ticket hkept => absurd (hzero ticket) (Nat.ne_of_gt hkept), fun ticket => ?_⟩
    exact Nat.le_trans (Nat.le_of_eq (hzero ticket)) (Nat.zero_le _)
  case assigned hslot _ _ _ hfront hkey =>
    exact h.assign rfl hslot rfl hfront rfl hkey (kept_eq_zero.mpr (hnone _ rfl))
  all_goals first
    | exact ⟨h.queued, h.single⟩
    | exact h.set rfl ‹_› (fun _ h => h) fun _ => rfl
    | refine h.set rfl ‹_› (fun _ h => h) ?_
      exact free_of_state _ (by nofun)

/-! ## Runs -/

/-- Every connection is handed to a ticket for which none is kept. -/
def HandsOnce (config : PoolConfig) (acts : List (Act C E)) : Prop :=
  ∀ front act ticket, front ++ [act] <+: acts → HandsTo (run config front) ticket act →
    (run config front).findAssigned ticket = none

theorem Handed.chain (h : Handed s) (hchain : Chain s s') : Handed s' := by
  induction hchain with
  | refl => exact h
  | tail _ hmove ih => exact ih.move (by simp) hmove

theorem new_handed {config : PoolConfig} : Handed (.new (C := C) config) := by
  have hzero (ticket : AcquireTicket) : (new (C := C) config).kept ticket = 0 := by
    simp [kept, new, List.countP_replicate, Slot.isAssigned]
  constructor
  · intro ticket hkept
    exact absurd (hzero ticket) (Nat.ne_of_gt hkept)
  · intro ticket
    rw [hzero]
    exact Nat.zero_le _

theorem run_handed {config : PoolConfig} {acts : List (Act C E)}
    (hactions : HandsOnce config acts) :
    Handed (run config acts) := by
  induction acts using List.reverseRecOn with
  | nil => exact new_handed
  | append_singleton front act ih =>
    have hfront : HandsOnce config front := fun front' act' ticket h =>
      hactions front' act' ticket (h.trans (List.prefix_append _ _))
    have hmoves := step_moves (run_lawful config front).fits act
    rw [run_concat]
    split at hmoves
    · next ticket hticket =>
      refine (ih hfront).move (fun other hother => ?_) hmoves
      cases hother
      exact hactions front act ticket (List.prefix_refl _) (handsTo_iff.mp hticket)
    · rcases hmoves with hchain | ⟨-, hmove⟩
      · exact (ih hfront).chain hchain
      · exact (ih hfront).move (by simp) hmove

/-- A second connection for a ticket breaks the law, in a pool that is still open. -/
theorem Move.second (hmove : Move s (some (.hands ticket)) s')
    (hfind : s.findAssigned ticket = some i) : s'.state = .opened ∧ ¬ Handed s' := by
  have hkept : s.slots.countP (·.isAssigned ticket) ≠ 0 := by
    intro hzero
    cases hfind.symm.trans (kept_eq_zero.mp hzero)
  cases hmove with
  | @assigned index generation entry _ facts hslot hleased hopen _ _ hkey =>
    refine ⟨hopen, fun h => ?_⟩
    have hset := countP_set_add (p := (·.isAssigned ticket))
      (b := .occupied (entry.renewed generation facts (.assigned ticket.id))) hslot
    have hsecond : Slot.isAssigned ticket
        (.occupied (entry.renewed generation facts (.assigned ticket.id))) :=
      decide_eq_true ⟨hkey.symm, rfl⟩
    rw [free_of_state _ (by simp [hleased]), hsecond, if_pos rfl] at hset
    have hsingle : (s.slots.set index _).countP (·.isAssigned ticket) ≤ 1 := h.single ticket
    simp only [Bool.false_eq_true, if_false] at hset
    omega

/-- **Connections wait for queued tickets, one for each, as long as no ticket is given two.** -/
theorem handed_iff_handsOnce (config : PoolConfig) (acts : List (Act C E)) :
    (∀ front, front <+: acts → (run config front).state = .opened →
      Handed (run config front) ∧ ((run config front).waiters = [] →
        ∀ slot ∈ (run config front).slots, ∀ ticket, slot.isAssigned ticket = false)) ↔
      HandsOnce config acts := by
  constructor
  · intro h front act ticket hfront hticket
    cases hfind : (run config front).findAssigned ticket with
    | none => rfl
    | some i =>
      have hmove := step_moves (run_lawful config front).fits act
      rw [handsTo_iff.mpr hticket] at hmove
      obtain ⟨hopen, hbroken⟩ := hmove.second hfind
      have hafter := h _ hfront
      rw [run_concat] at hafter
      exact absurd (hafter hopen).1 hbroken
  · intro h front hfront _
    have hhanded : Handed (run config front) :=
      run_handed fun front' act ticket hearlier => h front' act ticket (hearlier.trans hfront)
    refine ⟨hhanded, fun hempty slot hslot ticket => ?_⟩
    have hnone : (run config front).kept ticket = 0 := by
      by_contra hkept
      simpa [hempty] using hhanded.queued ticket (Nat.pos_of_ne_zero hkept)
    exact findAssigned_eq_none.mp (kept_eq_zero.mp hnone) slot hslot

/-! ## Two connections for one ticket -/

namespace Twice

def config : PoolConfig := ⟨2, 2, 2, 2, 1, 10, 10, by decide, by decide, by decide, by decide⟩

def key : PoolKey := ⟨1, 2, 3⟩

def facts : ConnectionFacts := ⟨0, 0, .fresh, Nat.le_refl _⟩

def release (slot : ℕ) (token : LeaseToken) : Act Unit Unit :=
  .finalize slot token (.reuse ⟨token, facts⟩) 0 fun _ _ => .ok ()

/-- Both connections of a full pool are released while one request waits, and then it is polled. -/
def acts : List (Act Unit Unit) :=
  [.acquire key 0, .complete ⟨0, ⟨1, 1, key⟩⟩ () facts 0,
    .acquire key 0, .complete ⟨1, ⟨2, 2, key⟩⟩ () facts 0,
    .acquire key 0, release 0 ⟨1, 1, key⟩, release 1 ⟨2, 2, key⟩, .poll ⟨1, key⟩ 0]

end Twice

/-- The request has its connection and nobody waits, but the second connection is still kept for
it. -/
theorem twice_kept : (run Twice.config Twice.acts).state = .opened ∧
    (run Twice.config Twice.acts).waiters = [] ∧
    (run Twice.config Twice.acts).kept ⟨1, Twice.key⟩ = 1 := by
  decide +kernel

end JmeterRs.Pool
