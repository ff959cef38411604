import Mathlib.Logic.Relation
import JmeterRs.Lib.Triple
import JmeterRs.Lib.Update
import JmeterRs.Pool.State

/-!
# What the calls of a pool do

One relation lists the changes that calls are made of.  The laws of a run are case analyses of it.
-/

namespace JmeterRs.Pool

variable {C E α : Type} {s s' s'' : PoolInner C} {key : PoolKey} {now : ℕ} {token : LeaseToken}
  {connection : C} {facts : ConnectionFacts} {reason : QuarantineReason} {cleanup : Cleanup C E}
  {a : Slot C}

/-! ## Moves -/

/-- A connection goes into quarantine that is not leased and whose cleanup has not failed. -/
def Falls (a b : Slot C) : Prop :=
  b = a ∨ ∃ entry reason, a = .occupied entry ∧ entry.state ≠ .leased ∧
    (∀ old, entry.state ≠ .quarantined old true) ∧
    b = .occupied { entry with state := .quarantined reason false }

/-- Whose turn it is in an open pool: a request without a ticket while nothing is queued, or the
front ticket, with no connection assigned to it.  With what is noted when it is served. -/
inductive Turn (s : PoolInner C) : (PoolInner C → PoolInner C) → Prop
  | direct (hopen : s.state = .opened) (h : s.waiters = []) : Turn s (·.emit .direct)
  | granted {ticket : AcquireTicket} (hopen : s.state = .opened)
      (h : s.waiters.head? = some ticket) (hnone : s.findAssigned ticket = none) :
      Turn s (grant ticket)

/-- An identifier that has been given out, or none. -/
def Later (next next' : Option ℕ) : Prop := next' = next ∨ ∃ id, next = some id ∧ next' = after id

/-- The slots after a ticket was withdrawn. -/
inductive Unassigned (s : PoolInner C) (ticket : AcquireTicket) : List (Slot C) → Prop
  | none (h : s.findAssigned ticket = none) : Unassigned s ticket s.slots
  | idle {index : ℕ} {entry : ConnectionEntry C} (hindex : s.findAssigned ticket = some index)
      (hslot : s.slots[index]? = some (.occupied entry))
        (hroom : s.idleCapacityAvailable ticket.key) :
      Unassigned s ticket (s.slots.set index (.occupied { entry with state := .idle }))
  | quarantined {index : ℕ} {entry : ConnectionEntry C}
      (hindex : s.findAssigned ticket = some index)
      (hslot : s.slots[index]? = some (.occupied entry)) (reason : QuarantineReason) :
      Unassigned s ticket
        (s.slots.set index (.occupied { entry with state := .quarantined reason false }))

/-- A leased connection with a new generation and new facts. -/
def ConnectionEntry.renewed (entry : ConnectionEntry C) (generation : ℕ) (facts : ConnectionFacts)
    (state : EntryState) : ConnectionEntry C :=
  { entry with generation, facts, state }

/-- The entry of a reservation that was completed. -/
def Reservation.entry (r : Reservation) (facts : ConnectionFacts) (state : EntryState)
    (connection : C) : ConnectionEntry C :=
  ⟨r.connectionId, r.generation, r.key, facts, state, connection⟩

/-- The moves that laws ask about: a connection is handed to a ticket, or one arrives whose slot is
not reserved any more. -/
inductive Stamp
  | hands (ticket : AcquireTicket)
  | loses

/-- **What a call is made of.** -/
inductive Move (s : PoolInner C) : Option Stamp → PoolInner C → Prop
  | falls {slots : List (Slot C)} (h : List.Forall₂ Falls s.slots slots) :
    Move s none { s with slots }
  | burned {connection generation : Option ℕ} (hconnection : Later s.nextConnectionId connection)
      (hgeneration : Later s.nextGeneration generation) :
      Move s none { s with nextConnectionId := connection, nextGeneration := generation }
  | queued {id : ℕ} (key : PoolKey) (hroom : s.waiters.length < s.config.maxQueue)
      (hid : s.nextRequestId = some id) :
      Move s none ({ s with
        nextRequestId := after id
        waiters := s.waiters ++ [(⟨id, key⟩ : AcquireTicket)] }.emit (.queued ⟨id, key⟩))
  | leased {index generation : ℕ} {entry : ConnectionEntry C} {taken : PoolInner C → PoolInner C}
      (hslot : s.slots[index]? = some (.occupied entry))
      (hgeneration : s.nextGeneration = some generation)
      (hturn : entry.state = .idle ∧ Turn s taken ∨
        ∃ ticket, s.findAssigned ticket = some index ∧ s.waiters.head? = some ticket ∧
          taken = grant ticket) :
      Move s none (taken (({ s with nextGeneration := after generation }.setSlot index
        (.occupied (entry.renewed generation entry.facts .leased))).emit
        (.leased ⟨entry.connectionId, generation, entry.key⟩)))
  | reserved {index slot id generation : ℕ} {key : PoolKey} {taken : PoolInner C → PoolInner C}
      (hslot : s.slots[index]? = some .vacant) (hroute : s.routeUsed key < s.config.maxRouteLive)
      (hid : s.nextConnectionId = some id) (hgeneration : s.nextGeneration = some generation)
      (hturn : Turn s taken)
      (hfind : (s.setSlot index (.connecting ⟨id, generation, key⟩)).findConnecting id =
        some slot) :
      Move s none (taken ({ s with
        nextConnectionId := after id
        nextGeneration := after generation
        permits := ⟨slot, ⟨id, generation, key⟩⟩ :: s.permits }.setSlot index
        (.connecting ⟨id, generation, key⟩)))
  | cancelled {index : ℕ} {ticket : AcquireTicket} {slots : List (Slot C)}
      (hindex : s.waiters.findIdx? (· = ticket) = some index)
      (hslots : Unassigned s ticket slots) :
      Move s none ({ s with
        waiters := s.waiters.eraseIdx index
        cancelledWaiters := s.cancelledWaiters + 1
        slots }.emit (.withdrawn ticket))
  | completed {permit : ConnectPermit} (connection : C) (facts : ConnectionFacts)
      (hpermit : permit ∈ s.permits)
      (hslot : s.slots[permit.slot]? = some (.connecting permit.reservation)) :
      Move s none ((({ s with
        permits := s.permits.erase permit }.emit
        (.handed permit.reservation.connectionId connection)).setSlot permit.slot
        (.occupied (permit.reservation.entry facts .leased connection))).emit
        (.leased permit.reservation))
  | refused {permit : ConnectPermit} (connection : C) (facts : ConnectionFacts)
      (reason : QuarantineReason) (hpermit : permit ∈ s.permits)
      (hslot : s.slots[permit.slot]? = some (.connecting permit.reservation)) :
      Move s none (({ s with
        permits := s.permits.erase permit }.emit
        (.handed permit.reservation.connectionId connection)).setSlot permit.slot
        (.occupied (permit.reservation.entry facts (.quarantined reason false) connection)))
  | lost {permit : ConnectPermit} (connection : C) (hpermit : permit ∈ s.permits)
      (hslot : s.slots[permit.slot]? ≠ some (.connecting permit.reservation)) :
      Move s (some .loses) ({ s with
        permits := s.permits.erase permit }.emit
        (.handed permit.reservation.connectionId connection))
  | vacated {permit : ConnectPermit} (hpermit : permit ∈ s.permits)
      (hslot : s.slots[permit.slot]? = some (.connecting permit.reservation)) :
      Move s none ({ s with permits := s.permits.erase permit }.setSlot permit.slot .vacant)
  | discarded {permit : ConnectPermit} (hpermit : permit ∈ s.permits)
      (hslot : s.slots[permit.slot]? ≠ some (.connecting permit.reservation)) :
      Move s none { s with permits := s.permits.erase permit }
  | ended {index generation : ℕ} {entry : ConnectionEntry C} {next : Option ℕ}
      (facts : ConnectionFacts) (reason : QuarantineReason)
      (hslot : s.slots[index]? = some (.occupied entry)) (hleased : entry.state = .leased)
      (hnext : Later s.nextGeneration next) :
      Move s none (({ s with nextGeneration := next }.emit (.ended entry.token)).setSlot index
        (.occupied (entry.renewed generation facts (.quarantined reason false))))
  | parked {index generation : ℕ} {entry : ConnectionEntry C} (facts : ConnectionFacts)
      (hslot : s.slots[index]? = some (.occupied entry)) (hleased : entry.state = .leased)
      (hgeneration : s.nextGeneration = some generation)
      (hroom : (s.setSlot index .vacant).idleCapacityAvailable entry.key) :
      Move s none (({ s with nextGeneration := after generation }.emit (.ended entry.token)).setSlot
        index (.occupied (entry.renewed generation facts .idle)))
  | assigned {index generation : ℕ} {entry : ConnectionEntry C} {ticket : AcquireTicket}
      (facts : ConnectionFacts) (hslot : s.slots[index]? = some (.occupied entry))
      (hleased : entry.state = .leased) (hopen : s.state = .opened)
      (hgeneration : s.nextGeneration = some generation) (hfront : s.waiters.head? = some ticket)
      (hkey : ticket.key = entry.key) :
      Move s (some (.hands ticket)) (({ s with nextGeneration := after generation }.emit
        (.ended entry.token)).setSlot index
        (.occupied (entry.renewed generation facts (.assigned ticket.id))))
  | cleaned {index : ℕ} {entry : ConnectionEntry C} {reason : QuarantineReason}
      (hslot : s.slots[index]? = some (.occupied entry))
      (hstate : entry.state = .quarantined reason false) :
      Move s none ((s.setSlot index .vacant).emit (.cleaned entry.connectionId entry.connection))
  | failed {index : ℕ} {entry : ConnectionEntry C} {reason : QuarantineReason} (connection : C)
      (hslot : s.slots[index]? = some (.occupied entry))
      (hstate : entry.state = .quarantined reason false) :
      Move s none (({ s with state := .poisoned }.setSlot index (.occupied
        { entry with state := .quarantined .cleanupFailure true, connection })).emit
        (.failed entry.connectionId connection))
  | shut (hopen : s.state = .opened) :
      Move s none { s with
        state := .draining
        waiters := []
        log := s.log ++ s.waiters.map .withdrawn ++ [.shut]
        cancelledWaiters := s.cancelledWaiters + s.waiters.length
        shutdownCancelledWaiters := some s.waiters.length
        slots := s.slots.map Slot.shut }
  | closed (hdraining : s.state = .draining) : Move s none { s with state := .closed }

open Move List PoolInner

/-- Moves that hand no connection to a ticket and lose none. -/
abbrev Chain : PoolInner C → PoolInner C → Prop := Relation.ReflTransGen (Move · none ·)

theorem Move.chain (h : Move s none s') : Chain s s' := .single h

/-! ## Looking for slots -/

theorem Falls.refl (a : Slot C) : Falls a a := .inl rfl

theorem Falls.trans {b c : Slot C} (hab : Falls a b) (hbc : Falls b c) : Falls a c := by
  rcases hbc with rfl | ⟨entry, reason, rfl, hleased, hopen, rfl⟩
  · exact hab
  · rcases hab with rfl | ⟨entry, old, rfl, hleased', hopen', heq⟩
    · exact .inr ⟨entry, reason, rfl, hleased, hopen, rfl⟩
    · obtain rfl := Slot.occupied.inj heq
      exact .inr ⟨entry, reason, rfl, hleased', hopen', rfl⟩

variable {ticket : AcquireTicket} {index : ℕ} {permit : ConnectPermit}

theorem Falls.isAssigned {b : Slot C} (h : Falls a b) (hb : b.isAssigned ticket) :
    a.isAssigned ticket := by
  rcases h with rfl | ⟨entry, reason, rfl, -, -, rfl⟩
  · exact hb
  · simp [Slot.isAssigned] at hb

theorem findIdx?_some {p : Slot C → Bool} {l : List (Slot C)} {i : ℕ}
    (h : l.findIdx? p = some i) : ∃ a, l[i]? = some a ∧ p a := by
  obtain ⟨hlt, hp, -⟩ := findIdx?_eq_some_iff_getElem.mp h
  exact ⟨l[i], getElem?_eq_getElem hlt, hp⟩

theorem findAssigned_eq_none :
    s.findAssigned ticket = none ↔ ∀ slot ∈ s.slots, slot.isAssigned ticket = false :=
  findIdx?_eq_none_iff

theorem find_of_falls {slots : List (Slot C)} (h : List.Forall₂ Falls s.slots slots)
    (hnone : s.findAssigned ticket = none) :
    { s with slots }.findAssigned ticket = none := by
  rw [findAssigned_eq_none] at hnone ⊢
  intro b hb
  obtain ⟨i, hi⟩ := mem_iff_getElem?.mp hb
  obtain ⟨a, ha, hab⟩ := get?_forall₂ h hi
  have hfree := hnone a (mem_of_getElem? ha)
  by_contra hassigned
  rw [hab.isAssigned (Bool.not_eq_false _ ▸ hassigned)] at hfree
  cases hfree

theorem occupied_of_find {i : ℕ} (h : s.findAssigned ticket = some i) :
    ∃ entry, s.slots[i]? = some (.occupied entry) ∧ entry.key = ticket.key ∧
      entry.state = .assigned ticket.id := by
  obtain ⟨a, ha, hp⟩ := findIdx?_some h
  cases a with
  | vacant => cases hp
  | connecting reservation => cases hp
  | occupied entry => exact ⟨entry, ha, of_decide_eq_true hp⟩

variable {entry : ConnectionEntry C} {indices : List ℕ} {generation connectionId : ℕ}
  {taken : PoolInner C → PoolInner C}

theorem names_some (h : s.names index token = some entry) :
    s.slots[index]? = some (.occupied entry) ∧ entry.token = token ∧ entry.state = .leased := by
  unfold names at h
  split at h
  · next other hslot =>
    split_ifs at h with hmatch
    cases h
    exact ⟨hslot, hmatch⟩
  · cases h

/-! ## Acquisition -/

/-- Only slots have fallen. -/
def Fallen (s t : PoolInner C) : Prop :=
  ∃ slots, List.Forall₂ Falls s.slots slots ∧ t = { s with slots }

theorem Fallen.chain (h : Fallen s s') : Chain s s' := by
  obtain ⟨slots, hslots, rfl⟩ := h
  exact (falls hslots).chain

theorem Fallen.refl (s : PoolInner C) : Fallen s s :=
  ⟨s.slots, forall₂_same.mpr fun a _ => .refl a, rfl⟩

theorem Fallen.trans (h : Fallen s s') (h' : Fallen s' s'') : Fallen s s'' := by
  obtain ⟨slots, hslots, rfl⟩ := h
  obtain ⟨slots', hslots', rfl⟩ := h'
  exact ⟨slots', forall₂_trans Falls.trans hslots hslots', rfl⟩

theorem fallen_set (hslot : s.slots[index]? = some (.occupied entry))
    (hleased : entry.state ≠ .leased) (hopen : ∀ old, entry.state ≠ .quarantined old true)
    (reason : QuarantineReason) : Fallen s (putQuarantine index entry reason s) :=
  ⟨_, forall₂_set Falls.refl hslot (.inr ⟨entry, reason, rfl, hleased, hopen, rfl⟩), rfl⟩

theorem idleFrom_fallen :
    Meets (fun _ => Fallen s) (Fallen s) (takeIdleFrom (E := E) key now indices s) := by
  induction indices generalizing s with
  | nil => exact .refl s
  | cons index rest ih =>
    unfold takeIdleFrom
    split
    · next entry hslot =>
      by_cases hother : entry.key ≠ key ∨ entry.state ≠ .idle
      · rw [if_pos hother]
        exact ih
      · rw [if_neg hother]
        rw [not_or, not_not, not_not] at hother
        have hfallen := fallen_set hslot (by simp [hother.2]) (by simp [hother.2])
          (factsValidity entry.facts now s.config).quarantineReason
        dsimp only
        split_ifs
        · exact .refl s
        · exact hfallen
        · exact ih.mono (fun _ _ => hfallen.trans) fun _ => hfallen.trans
    · exact ih

theorem idle_fallen : Meets (fun _ => Fallen s) (Chain s) (takeIdle (E := E) key now s) :=
  idleFrom_fallen.mono (fun _ _ h => h) fun _ h => h.chain

theorem meets_check {f : PoolInner C → Except (PoolError E) α} :
    Meets (fun a t => t = s ∧ f s = .ok a) (Chain s) (check f s) := by
  unfold check
  split
  · exact ⟨rfl, ‹_›⟩
  · exact .refl

theorem ensureOpen_same :
    Meets (fun _ t => t = s ∧ s.state = .opened) (Chain s) (ensureOpen (E := E) s) := by
  refine meets_check.mono (fun _ t h => ⟨h.1, ?_⟩) fun _ h => h
  have hok := h.2
  split at hok <;> first | assumption | cases hok

theorem enqueue_chain : Meets (fun _ => Chain s) (Chain s) (enqueue (E := E) key s) := by
  unfold enqueue allocateRequestId
  split_ifs with hfull
  · exact .refl
  · cases hid : s.nextRequestId with
    | none => exact .refl
    | some id => exact (queued key (Nat.not_le.mp hfull) hid).chain

theorem allocated_chain (hgen : s.nextGeneration = some generation) :
    Chain s { s with nextGeneration := after generation } :=
  (burned (.inl rfl) (.inr ⟨generation, hgen, rfl⟩)).chain

theorem leaseIdle_chain (hturn : Turn s taken) :
    Meets (fun _ t => Chain s (taken t)) (Chain s) (leaseIdle (E := E) index s) := by
  unfold leaseIdle allocateGeneration
  cases hgen : s.nextGeneration with
  | none => exact .refl
  | some generation =>
    have hburned := allocated_chain hgen
    dsimp only
    split
    · next entry hslot =>
      split_ifs with hidle
      · exact hburned
      · exact (leased hslot hgen (.inl ⟨not_not.mp hidle, hturn⟩)).chain
    · exact hburned

theorem assigned_chain (hindex : s.findAssigned ticket = some index)
    (hfront : s.waiters.head? = some ticket) : Meets (fun _ t => Chain s (grant ticket t)) (Chain s)
      (leaseAssigned (E := E) index ticket s) := by
  unfold leaseAssigned allocateGeneration
  cases hgen : s.nextGeneration with
  | none => exact .refl
  | some generation =>
    have hburned := allocated_chain hgen
    dsimp only
    split
    · next entry hslot =>
      split_ifs with hother
      · exact hburned
      · exact (leased hslot hgen (.inr ⟨ticket, hindex, hfront, rfl⟩)).chain
    · exact hburned

/-- A connection is being opened, or there is no room for it and nothing has changed. -/
theorem room_chain (hturn : Turn s taken) :
    Meets (fun permit t => if permit.isSome then Chain s t else t = s) (Chain s)
      (connectRoom (E := E) key taken s) := by
  unfold connectRoom reserveSlot allocateConnectionId allocateGeneration
  split_ifs with hglobal hroute
  · exact rfl
  · exact rfl
  · cases hvacant : s.slots.findIdx? Slot.isVacant with
    | none => exact .refl
    | some index =>
      obtain ⟨slot, hslot, hp⟩ := findIdx?_some hvacant
      obtain rfl : slot = .vacant := by cases slot <;> first | rfl | cases hp
      cases hid : s.nextConnectionId with
      | none => exact .refl
      | some id =>
        cases hgen : s.nextGeneration with
        | none => exact (burned (.inr ⟨id, hid, rfl⟩) (.inl hgen.symm)).chain
        | some generation =>
          dsimp only
          cases hfind : findConnecting _ id with
          | none =>
            have hhere : (s.slots.set index (.connecting ⟨id, generation, key⟩))[index]? =
                some (.connecting ⟨id, generation, key⟩) := by
              rw [getElem?_set_self (List.getElem?_eq_some_iff.mp hslot).1]
            have hnot := findIdx?_eq_none_iff.mp hfind _ (mem_of_getElem? hhere)
            simp [Slot.isConnecting, Slot.connectionId] at hnot
          | some found =>
            exact (reserved hslot (Nat.not_le.mp hroute) hid hgen hturn hfind).chain

theorem free_chain (hopen : s.state = .opened) (hempty : s.waiters = []) :
    Meets (fun _ => Chain s) (Chain s) (acquireFree (E := E) key now s) := by
  refine meets_bind idle_fallen fun found t ht => ?_
  have hturn : Turn t (·.emit .direct) := by
    obtain ⟨_, -, rfl⟩ := ht
    exact .direct hopen hempty
  cases found with
  | some slot =>
    exact meets_bind ((leaseIdle_chain hturn).mono (fun _ _ h => h) fun _ => ht.chain.trans)
      fun token u hu => ht.chain.trans hu
  | none =>
    refine meets_bind ((room_chain hturn).mono (fun _ _ h => h)
      fun _ => ht.chain.trans) fun permit u hu => ?_
    cases permit with
    | some permit => exact ht.chain.trans hu
    | none =>
      obtain rfl : u = t := hu
      exact meets_bind (enqueue_chain.mono (fun _ _ => ht.chain.trans)
        fun _ => ht.chain.trans) fun _ _ h => h

theorem acquire_chain : Meets (fun _ => Chain s) (Chain s) (acquire (E := E) key now s) := by
  refine meets_bind ensureOpen_same fun _ t ht => ?_
  obtain ⟨rfl, hopen⟩ := ht
  refine meets_bind idle_fallen fun _ u hu => ?_
  have hopen' : u.state = .opened := by
    obtain ⟨_, -, rfl⟩ := hu
    exact hopen
  refine meets_get ?_
  split_ifs with hempty
  · exact (free_chain hopen' hempty).mono (fun _ _ => hu.chain.trans) fun _ => hu.chain.trans
  · exact meets_bind (enqueue_chain.mono (fun _ _ => hu.chain.trans)
      fun _ => hu.chain.trans) fun _ _ h => h

theorem pollFront_chain (hopen : s.state = .opened) (hfront : s.waiters.head? = some ticket) :
    Meets (fun _ => Chain s) (Chain s) (pollFront (E := E) ticket now s) := by
  refine meets_bind idle_fallen fun _ t ht => ?_
  obtain ⟨hopen', hfront'⟩ : t.state = .opened ∧ t.waiters.head? = some ticket := by
    obtain ⟨_, -, rfl⟩ := ht
    exact ⟨hopen, hfront⟩
  refine meets_get ?_
  cases hassigned : t.findAssigned ticket with
  | some slot =>
    exact meets_bind ((assigned_chain hassigned hfront').mono (fun _ _ h => h)
      fun _ => ht.chain.trans) fun token u hu => ht.chain.trans hu
  | none =>
    refine meets_bind (idle_fallen.mono (fun _ _ h => h)
      fun _ => ht.chain.trans) fun found u hu => ?_
    have hchain := ht.chain.trans hu.chain
    have hturn : Turn u (grant ticket) := by
      obtain ⟨slots, hslots, rfl⟩ := hu
      exact .granted hopen' hfront' (find_of_falls hslots hassigned)
    cases found with
    | some slot =>
      exact meets_bind ((leaseIdle_chain hturn).mono (fun _ _ h => h) fun _ => hchain.trans)
        fun token v hv => hchain.trans hv
    | none =>
      refine meets_bind ((room_chain hturn).mono (fun _ _ h => h)
        fun _ => hchain.trans) fun permit v hv => ?_
      cases permit with
      | some permit => exact hchain.trans hv
      | none =>
        obtain rfl : v = u := hv
        exact hchain

theorem poll_chain : Meets (fun _ => Chain s) (Chain s) (poll (E := E) ticket now s) := by
  refine meets_bind ensureOpen_same fun _ t ht => ?_
  obtain ⟨rfl, hopen⟩ := ht
  refine meets_get ?_
  cases hindex : t.waiters.findIdx? (· = ticket) with
  | none => exact .refl
  | some index =>
    cases index with
    | succ index => exact .refl
    | zero =>
      obtain ⟨hlt, hp, -⟩ := findIdx?_eq_some_iff_getElem.mp hindex
      refine pollFront_chain hopen ?_
      rw [head?_eq_getElem?, getElem?_eq_getElem hlt, of_decide_eq_true hp]

theorem unassign_spec {t : PoolInner C} (hslots : t.slots = s.slots)
    (hcapacity : t.idleCapacityAvailable = s.idleCapacityAvailable) :
    Meets (fun _ u => ∃ slots, Unassigned s ticket slots ∧ u = { t with slots }) (fun _ => False)
      (unassign (E := E) ticket t) := by
  have hfind : t.findAssigned ticket = s.findAssigned ticket := by
    unfold findAssigned
    rw [hslots]
  unfold unassign
  rw [hfind, hcapacity, hslots]
  cases hindex : s.findAssigned ticket with
  | none => exact ⟨s.slots, .none hindex, by rw [← hslots]⟩
  | some index =>
    obtain ⟨entry, hslot, -, -⟩ := occupied_of_find hindex
    dsimp only
    rw [hslot]
    by_cases hroom : s.idleCapacityAvailable ticket.key = true
    · exact ⟨_, .idle hindex hslot hroom, by simp [setSlot, hroom, hslots]⟩
    · exact ⟨_, .quarantined hindex hslot .idleCapacity, by simp [setSlot, hroom, hslots]⟩

theorem cancel_chain (hfits : s.cancelledWaiters + s.waiters.length ≤ usizeMax) :
    Meets (fun _ => Chain s) (Chain s) (cancel (E := E) ticket s) := by
  refine meets_bind meets_check fun _ t ht => ?_
  obtain rfl := ht.1
  refine meets_get ?_
  cases hindex : t.waiters.findIdx? (· = ticket) with
  | none => exact .refl
  | some index =>
    obtain ⟨hlt, -, -⟩ := findIdx?_eq_some_iff_getElem.mp hindex
    unfold withdraw
    dsimp only
    rw [checkedAdd_le (by show t.cancelledWaiters + 1 ≤ usizeMax; omega)]
    refine (unassign_spec (s := t) ?_ ?_).mono ?_ fun _ => False.elim
    · rfl
    · rfl
    · rintro _ _ ⟨slots, hslots, rfl⟩
      exact (cancelled hindex hslots).chain

/-! ## Permits and leases -/

section

variable (hper : permit ∈ s.permits)

include hper

theorem complete_lost (hslot : s.slots[permit.slot]? ≠ some (.connecting permit.reservation)) :
    Move s (some .loses) (final (complete (E := E) permit connection facts now s)) := by
  have hlost := lost connection hper hslot
  unfold complete
  dsimp only
  split
  · exact hlost
  · next current hcurrent =>
    rw [if_neg]
    · exact hlost
    · rintro rfl
      exact hslot hcurrent
  · exact hlost

theorem complete_chain (hslot : s.slots[permit.slot]? = some (.connecting permit.reservation)) :
    Chain s (final (complete (E := E) permit connection facts now s)) := by
  unfold complete
  dsimp only
  rw [show ((consume permit s).emit _).slots[permit.slot]? = _ from hslot]
  dsimp only
  rw [if_pos rfl]
  split_ifs with hvalid
  · exact (refused connection facts _ hper hslot).chain
  · exact (completed connection facts hper hslot).chain

theorem cancelReserve_chain :
    Meets (fun _ => Chain s) (Chain s) (cancelReservation (E := E) permit s) := by
  have hother (hslot : s.slots[permit.slot]? ≠ some (.connecting permit.reservation)) :=
    (discarded hper hslot).chain
  unfold cancelReservation
  dsimp only
  split
  · next hslot => exact hother fun h => by cases hslot.symm.trans h
  · next current hslot =>
    split_ifs with hsame
    · obtain rfl := hsame
      exact (vacated hper hslot).chain
    · refine hother fun h => hsame ?_
      cases hslot.symm.trans h
      rfl
  · next slot hnot hslot =>
    exact hother fun h => hnot _ (Option.some.inj (hslot.symm.trans h))

end

theorem setSlot_twice (b : Slot C) : (s.setSlot index a).setSlot index b = s.setSlot index b := by
  simp [setSlot]

/-- The entry that was taken from its slot goes into quarantine. -/
theorem put_vacant : putQuarantine index entry reason (s.setSlot index .vacant) =
      putQuarantine index entry reason s :=
  setSlot_twice _

theorem move_ended (hslot : s.slots[index]? = some (.occupied entry))
    (hleased : entry.state = .leased) (reason : QuarantineReason) :
    Move s none (putQuarantine index entry reason (s.emit (.ended entry.token))) :=
  .ended entry.facts reason hslot hleased (.inl rfl)

theorem cleanup_chain (cleanup : Cleanup C E) (hslot : s.slots[index]? = some (.occupied entry))
    (hstate : entry.state = .quarantined reason false) :
    Meets (fun _ t => Chain s t ∧ t.state = s.state) (Chain s)
      (tryCleanup cleanup index entry (s.setSlot index .vacant)) := by
  unfold tryCleanup
  split
  · exact ⟨(cleaned hslot hstate).chain, rfl⟩
  · next connection error _ =>
    have hmove := (failed connection hslot hstate).chain
    rw [← setSlot_twice] at hmove
    exact hmove

/-- What the end of a lease does; a connection may be handed to a ticket. -/
def Released (s : PoolInner C) : ReleaseOutcome → PoolInner C → Prop
  | .assigned ticket, t => Move s (some (.hands ticket)) t
  | _, t => Chain s t

section

variable (hslot : s.slots[index]? = some (.occupied entry))

include hslot

theorem return_released (hleased : entry.state = .leased) (hopen : s.state = .opened)
    (hgen : s.nextGeneration = some generation) :
    Meets (Released s) (Chain s) (returnConnection (E := E) index { entry with facts, generation }
      (({ s with nextGeneration := after generation }.emit (.ended entry.token)).setSlot index
        .vacant)) := by
  unfold returnConnection
  split
  · next ticket hticket =>
    obtain ⟨hfront, hkey⟩ := Option.filter_eq_some_iff.mp hticket
    show Move s _ _
    rw [setSlot_twice]
    exact .assigned facts hslot hleased hopen hgen hfront (of_decide_eq_true hkey)
  · split_ifs with hroom
    · show Chain s _
      rw [setSlot_twice]
      exact (parked facts hslot hleased hgen hroom).chain
    · show Chain s _
      rw [put_vacant]
      exact (ended facts _ hslot hleased (.inr ⟨generation, hgen, rfl⟩)).chain

theorem reuse_released
    (hleased : entry.state = .leased) {proof : ReuseProof} : Meets (Released s) (Chain s)
      (releaseReuse (E := E) index entry proof now
        ((s.emit (.ended entry.token)).setSlot index .vacant)) := by
  have hended (reason : QuarantineReason) : Chain s (putQuarantine index entry reason
      ((s.emit (.ended entry.token)).setSlot index .vacant)) := by
    rw [put_vacant]
    exact (move_ended hslot hleased reason).chain
  unfold releaseReuse allocateGeneration
  dsimp only
  split_ifs with hproof hopen hvalid
  · exact hended _
  · exact hended _
  · exact hended _
  · cases hgen : s.nextGeneration with
    | none =>
      have hnone : ((s.emit (.ended entry.token)).setSlot index .vacant).nextGeneration = none :=
        hgen
      rw [hnone]
      exact hended _
    | some generation =>
      have hsome : ((s.emit (.ended entry.token)).setSlot index .vacant).nextGeneration =
        some generation := hgen
      rw [hsome]
      exact return_released hslot hleased (not_not.mp hopen) hgen

end

theorem lease_released (index : ℕ) (token : LeaseToken) (disposition : LeaseDisposition)
    (now : ℕ) (cleanup : Cleanup C E) (s : PoolInner C) :
    Meets (Released s) (Chain s) (releaseLease index token disposition now cleanup s) := by
  unfold releaseLease
  cases hentry : s.names index token with
  | none => exact .refl
  | some entry =>
    obtain ⟨hslot, rfl, hleased⟩ := names_some hentry
    cases disposition with
    | reuse proof => exact reuse_released hslot hleased
    | quarantine reason =>
      show Chain s (putQuarantine index entry reason ((s.emit _).setSlot index .vacant))
      rw [put_vacant]
      exact (move_ended hslot hleased reason).chain
    | close =>
      -- the lease ends in quarantine, where the cleanup finds the connection
      have hmove := move_ended hslot hleased .dropped
      have hlt : index < s.slots.length := (List.getElem?_eq_some_iff.mp hslot).1
      have hthere : (putQuarantine index entry .dropped
        (s.emit (.ended entry.token))).slots[index]? =
          some (.occupied { entry with state := .quarantined .dropped false }) :=
        getElem?_set_self hlt
      have hclean := (cleanup_chain cleanup hthere rfl).mono
        (fun _ _ h => hmove.chain.trans h.1) fun _ => hmove.chain.trans
      have hvacant : (putQuarantine index entry .dropped
        (s.emit (.ended entry.token))).setSlot index
          .vacant = (s.emit (.ended entry.token)).setSlot index .vacant := setSlot_twice ..
      rw [hvacant] at hclean
      dsimp only
      cases hrun : tryCleanup cleanup index entry
        ((s.setSlot index .vacant).emit (.ended entry.token)) with
      | ok u t => exact (hrun ▸ hclean : Meets _ _ (.ok u t))
      | error e t => exact (hrun ▸ hclean : Meets _ _ (.error e t))

theorem abandon_chain : Chain s (abandonLease index token s) := by
  unfold abandonLease
  cases hentry : s.names index token with
  | none => exact .refl
  | some entry =>
    obtain ⟨hslot, rfl, hleased⟩ := names_some hentry
    exact (move_ended hslot hleased .dropped).chain

theorem finalize_released (index : ℕ) (token : LeaseToken) (disposition : LeaseDisposition)
    (now : ℕ) (cleanup : Cleanup C E) (s : PoolInner C) :
    Meets (Released s) (Chain s) (finalize index token disposition now cleanup s) := by
  have hrelease := lease_released index token disposition now cleanup s
  unfold finalize
  generalize releaseLease index token disposition now cleanup s = result at hrelease
  cases result with
  | ok outcome t => exact hrelease
  | error e t => exact Relation.ReflTransGen.trans hrelease abandon_chain

/-! ## Quarantine and shutdown -/

theorem slot_chain : Meets (fun _ t => Chain s t ∧ t.state = s.state) (Chain s)
      (finalizeQuarantineSlot cleanup index s) := by
  unfold finalizeQuarantineSlot
  split
  · exact .refl
  · next entry hslot =>
    split
    · exact .refl
    · next hstate => exact cleanup_chain cleanup hslot hstate
    · exact .refl
  · exact .refl

theorem finalize_chain :
    Meets (fun _ => Chain s) (Chain s) (finalizeConnection connectionId cleanup s) := by
  refine meets_get ?_
  cases s.findSlot connectionId with
  | none => exact .refl
  | some index =>
    exact slot_chain.mono (fun _ _ h => h.1) fun _ h => h

theorem quarantine_chain :
    Meets (fun _ => Chain s) (Chain s) (quarantineConnection (E := E) connectionId reason s) := by
  unfold quarantineConnection
  cases s.findSlot connectionId with
  | none => exact .refl
  | some index =>
    dsimp only
    split
    · next entry hslot =>
      split
      · exact .refl
      · exact .refl
      · next hleased hattempted => exact (fallen_set hslot hleased hattempted reason).chain
    · exact .refl

theorem shutdown_chain (hfits : s.cancelledWaiters + s.waiters.length ≤ usizeMax) :
    Meets (fun _ => Chain s) (Chain s) (shutdown (E := E) s) := by
  unfold shutdown
  cases hstate : s.state with
  | opened =>
    dsimp only
    rw [checkedAdd_le hfits]
    exact (shut hstate).chain
  | draining | closed | poisoned => exact .refl

theorem finalizeFrom_chain : Meets (fun _ t => Chain s t ∧ t.state = s.state) (Chain s)
      (finalizeFrom cleanup indices s) := by
  induction indices generalizing s with
  | nil => exact ⟨.refl, rfl⟩
  | cons index rest ih =>
    unfold finalizeFrom
    split_ifs
    · have hfirst := @slot_chain C E s cleanup index
      generalize finalizeQuarantineSlot cleanup index s = result at hfirst
      cases result with
      | ok u t =>
        obtain ⟨hchain, hstate⟩ := hfirst
        exact ih.mono (fun _ _ h => ⟨hchain.trans h.1, h.2.trans hstate⟩) fun _ => hchain.trans
      | error e t => exact hfirst
    · exact ih

theorem finalizeShutdown_chain :
    Meets (fun _ => Chain s) (Chain s) (finalizeShutdown cleanup s) := by
  unfold finalizeShutdown
  cases hstate : s.state with
  | opened | closed | poisoned => exact .refl
  | draining =>
    split_ifs
    · exact .refl
    · have hloop := @finalizeFrom_chain C E s cleanup (List.range s.slots.length)
      generalize finalizeFrom cleanup (List.range s.slots.length) s = result at hloop
      cases result with
      | error e t => exact hloop
      | ok u t =>
        obtain ⟨hchain, hsame⟩ := hloop
        dsimp only
        split_ifs
        · exact hchain
        · exact hchain.tail (.closed (hsame.trans hstate))

/-! ## Steps -/

/-- The ticket that a call hands its connection to. -/
def handsTo (s : PoolInner C) : Act C E → Option AcquireTicket
  | .finalize index token disposition now cleanup =>
    match finalize index token disposition now cleanup s with
    | .ok (.assigned ticket) _ => some ticket
    | _ => none
  | _ => none

/-- The call releases a connection that can be reused, and the ticket at the front of the queue
waits for such a connection. -/
def HandsTo (s : PoolInner C) (ticket : AcquireTicket) : Act C E → Prop
  | .finalize index token (.reuse proof) now _ =>
    s.state = .opened ∧ s.nextGeneration ≠ none ∧ s.waiters.head? = some ticket ∧
      factsValidity proof.facts now s.config = .eligible ∧
      ∃ entry, s.names index token = some entry ∧ proof.token = entry.token ∧
        ticket.key = entry.key
  | _ => False

/-- A release that hands the connection over finds the ticket at the front of the queue. -/
theorem releaseReuse_assigned {index : ℕ} {entry : ConnectionEntry C} {proof : ReuseProof}
    {ticket : AcquireTicket} :
    (∃ t, releaseReuse (E := E) index entry proof now s = .ok (.assigned ticket) t) ↔
      s.state = .opened ∧ s.nextGeneration ≠ none ∧ s.waiters.head? = some ticket ∧
        factsValidity proof.facts now s.config = .eligible ∧ proof.token = entry.token ∧
        ticket.key = entry.key := by
  unfold releaseReuse
  by_cases htoken : proof.token = entry.token
  · by_cases hopen : s.state = .opened
    · by_cases hvalid : factsValidity proof.facts now s.config = .eligible
      · simp only [htoken, hopen, hvalid, ne_eq, not_true_eq_false, if_false, true_and]
        cases hnext : s.nextGeneration with
        | none => simp [allocateGeneration, hnext]
        | some generation =>
          simp only [allocateGeneration, hnext, returnConnection]
          cases hhead : s.waiters.head? with
          | none =>
            simp only [Option.filter_none]
            split_ifs <;> simp
          | some front =>
            by_cases hkey : front.key = entry.key
            · simp only [Option.filter_some, hkey, decide_true, if_true]
              constructor
              · rintro ⟨t, hassigned⟩
                cases hassigned
                exact ⟨nofun, rfl, hkey⟩
              · rintro ⟨-, hfront, -⟩
                cases hfront
                exact ⟨_, rfl⟩
            · simp only [Option.filter_some, hkey, decide_false, Bool.false_eq_true, if_false]
              refine iff_of_false ?_ ?_
              · rintro ⟨t, hassigned⟩
                split_ifs at hassigned <;> cases hassigned
              · rintro ⟨-, hfront, hsame⟩
                cases hfront
                exact hkey hsame
      · simp [htoken, hopen, hvalid]
    · simp [htoken, hopen]
  · simp [htoken]

theorem handsTo_iff {act : Act C E} {ticket : AcquireTicket} :
    handsTo s act = some ticket ↔ HandsTo s ticket act := by
  cases act with
  | finalize index token disposition now cleanup =>
    have hfinalize : handsTo s (.finalize index token disposition now cleanup) = some ticket ↔
        ∃ t, releaseLease index token disposition now cleanup s = .ok (.assigned ticket) t := by
      simp only [handsTo, finalize]
      cases releaseLease index token disposition now cleanup s with
      | error e t => simp
      | ok outcome t => cases outcome <;> simp
    rw [hfinalize]
    unfold releaseLease
    cases hnames : s.names index token with
    | none => cases disposition <;> simp [HandsTo, hnames]
    | some entry =>
      cases disposition with
      | reuse proof =>
        simp only [HandsTo, hnames, releaseReuse_assigned]
        simp [PoolInner.setSlot, emit]
      | quarantine reason => simp [HandsTo]
      | close =>
        dsimp only
        cases tryCleanup cleanup index entry ((s.setSlot index .vacant).emit (.ended token)) <;>
          simp [HandsTo]
  | _ => simp [handsTo, HandsTo]

theorem Meets.final {r : EStateM.Result (PoolError E) (PoolInner C) α}
    (h : Meets (fun _ => Chain s) (Chain s) r) : Chain s (final r) := by
  cases r with
  | ok a t => exact h
  | error e t => exact h

/-- The call completes a permit whose slot is not reserved any more. -/
def Loses (s : PoolInner C) : Act C E → Prop
  | .complete permit _ _ _ =>
    permit ∈ s.permits ∧ s.slots[permit.slot]? ≠ some (.connecting permit.reservation)
  | _ => False

/-- **What a call does**: it hands a connection to a ticket, it loses one, or it makes other
moves. -/
theorem step_moves (hfits : s.cancelledWaiters + s.waiters.length ≤ usizeMax) (act : Act C E) :
    match handsTo s act with
    | some ticket => Move s (some (.hands ticket)) (step s act)
    | none => Chain s (step s act) ∨ Loses s act ∧ Move s (some .loses) (step s act) := by
  cases act with
  | acquire key now => exact .inl (Meets.final acquire_chain)
  | poll ticket now => exact .inl (Meets.final poll_chain)
  | cancel ticket => exact .inl (Meets.final (cancel_chain hfits))
  | complete permit connection facts now =>
    simp only [handsTo, step]
    split_ifs with hper
    · by_cases hslot : s.slots[permit.slot]? = some (.connecting permit.reservation)
      · exact .inl (complete_chain hper hslot)
      · exact .inr ⟨⟨hper, hslot⟩, complete_lost hper hslot⟩
    · exact .inl .refl
  | cancelPermit permit =>
    simp only [handsTo, step]
    split_ifs with hper
    · exact .inl (Meets.final (cancelReserve_chain hper))
    · exact .inl .refl
  | finalize index token disposition now cleanup =>
    have hrel := finalize_released index token disposition now cleanup s
    simp only [handsTo, step]
    cases hrun : finalize index token disposition now cleanup s with
    | error e t => exact .inl (hrun ▸ hrel : Meets _ _ (.error e t))
    | ok outcome t =>
      rw [hrun] at hrel
      cases outcome <;> first | exact hrel | exact .inl hrel
  | dropLease index token => exact .inl abandon_chain
  | quarantineConnection connectionId reason =>
    exact .inl (Meets.final quarantine_chain)
  | finalizeConnection connectionId cleanup =>
    exact .inl (Meets.final finalize_chain)
  | shutdown => exact .inl (Meets.final (shutdown_chain hfits))
  | finalizeShutdown cleanup => exact .inl (Meets.final finalizeShutdown_chain)

end JmeterRs.Pool
