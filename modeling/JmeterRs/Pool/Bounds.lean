import JmeterRs.Lib.Log
import JmeterRs.Pool.Moves

/-!
# Bounds, identities and order of the pool

Each of the laws is kept by every move, and so by every call.
-/

namespace JmeterRs.Pool

open PoolInner List

variable {C E : Type} {s s' t : PoolInner C}

/-! ## Counts -/

structure Counted (s : PoolInner C) : Prop where
  slots : s.slots.length = s.config.maxGlobalLive
  route : ∀ key, s.routeUsed key ≤ s.config.maxRouteLive
  idle : s.idle ≤ s.config.maxGlobalIdle
  routeIdle : ∀ key, s.routeIdle key ≤ s.config.maxRouteIdle

/-- A slot that counts for nothing more than another. -/
def Lighter (a b : Slot C) : Prop :=
  (∀ route, b.route = some route → a.route = some route) ∧ (b.isIdle → a.isIdle)

theorem Counted.lighter (h : Counted s) (hconfig : t.config = s.config)
    (hslots : List.Forall₂ Lighter s.slots t.slots) : Counted t where
  slots := by rw [← hslots.length_eq, h.slots, hconfig]
  route key := by
    rw [hconfig]
    refine Nat.le_trans (countP_le_all₂ hslots ?_) (h.route key)
    intro a b hab hb
    simpa using hab.1 _ (by simpa using hb)
  idle := by
    rw [hconfig]
    exact Nat.le_trans (countP_le_all₂ hslots fun hab => hab.2) h.idle
  routeIdle key := by
    rw [hconfig]
    refine Nat.le_trans (countP_le_all₂ hslots ?_) (h.routeIdle key)
    intro a b hab hb
    simp only [Bool.and_eq_true, decide_eq_true_eq] at hb ⊢
    exact ⟨hab.2 hb.1, hab.1 _ hb.2⟩

variable {a b : Slot C} {i id : ℕ} {entry : ConnectionEntry C} {stamp : Option Stamp}
  {notes : List (PoolEvent C)} {slots : List (Slot C)} {ticket : AcquireTicket}
  {entry' : ConnectionEntry C}

theorem Counted.set (h : Counted s) (hconfig : t.config = s.config)
    (hslots : t.slots = s.slots.set i b) (hslot : s.slots[i]? = some a) (hab : Lighter a b) :
    Counted t := by
  refine h.lighter hconfig ?_
  rw [hslots]
  exact forall₂_set (fun a => ⟨fun _ h => h, id⟩) hslot hab

theorem lighter_vacant : Lighter a .vacant :=
  ⟨fun _ h => (Option.noConfusion rfl (heq_of_eq h)), fun h => Bool.noConfusion h⟩

/-- A connection becomes idle while there is room for it beside the other slots. -/
theorem Counted.park (h : Counted s) (hconfig : t.config = s.config)
    (hslots : t.slots = s.slots.set i (.occupied entry'))
    (hslot : s.slots[i]? = some (.occupied entry)) (hkey : entry'.key = entry.key)
    (hroom : (s.setSlot i .vacant).idleCapacityAvailable entry.key) : Counted t := by
  simp only [idleCapacityAvailable, Bool.and_eq_true, decide_eq_true_eq] at hroom
  have hlt : i < s.slots.length := (List.getElem?_eq_some_iff.mp hslot).1
  have hvacant : (s.slots.set i .vacant)[i]? = some .vacant := getElem?_set_self hlt
  have htwice : t.slots = (s.slots.set i .vacant).set i (.occupied entry') := by
    rw [hslots, set_set]
  refine ⟨?_, fun key => ?_, ?_, fun key => ?_⟩
  · rw [hslots, length_set, h.slots, hconfig]
  · rw [hconfig, routeUsed, hslots]
    refine Nat.le_trans (countP_set_le hslot fun hb => ?_) (h.route key)
    simpa [Slot.route, hkey] using hb
  · rw [hconfig, PoolInner.idle, htwice]
    exact countP_set_lt hvacant hroom.1
  · rw [hconfig, PoolInner.routeIdle, htwice]
    by_cases hroute : entry.key.route = key.route
    · refine countP_set_lt hvacant ?_
      rw [← hroute]
      exact hroom.2
    · refine Nat.le_trans (countP_set_le hvacant fun hb => ?_)
        (Nat.le_trans (countP_set_le hslot fun hb => ?_) (h.routeIdle key))
      · simp [Slot.route, hkey, hroute] at hb
      · simp [Slot.isIdle] at hb

theorem capacity_vacant {key : PoolKey} (hslot : s.slots[i]? = some a)
    (h : s.idleCapacityAvailable key) : (s.setSlot i .vacant).idleCapacityAvailable key := by
  simp only [idleCapacityAvailable, Bool.and_eq_true, decide_eq_true_eq] at h ⊢
  refine ⟨Nat.lt_of_le_of_lt (countP_set_le hslot fun hb => ?_) h.1,
    Nat.lt_of_le_of_lt (countP_set_le hslot fun hb => ?_) h.2⟩
  · simp [Slot.isIdle] at hb
  · simp [Slot.isIdle] at hb

theorem Falls.lighter (h : Falls a b) : Lighter a b := by
  rcases h with rfl | ⟨entry, reason, rfl, -, -, rfl⟩
  · exact ⟨fun _ h => h, id⟩
  · exact ⟨fun _ h => h, fun h => by simp [Slot.isIdle] at h⟩

theorem lighter_occupied (hkey : entry'.key = entry.key) (hidle : entry'.state ≠ .idle) :
    Lighter (.occupied entry) (.occupied entry') :=
  ⟨fun route h => by rw [← h]; simp [Slot.route, hkey], fun h => by simp [Slot.isIdle, hidle] at h⟩

theorem lighter_shut : Lighter a a.shut := by
  unfold Slot.shut
  split
  · exact lighter_vacant
  · exact lighter_vacant
  · next entry =>
    split
    · exact lighter_occupied rfl (by simp)
    · exact lighter_occupied rfl (by simp)
    · exact ⟨fun _ h => h, id⟩
    · exact ⟨fun _ h => h, id⟩

variable {serve : PoolInner C → PoolInner C}

theorem Counted.taken (h : Counted s) (hturn : Turn t serve) : Counted (serve s) := by
  cases hturn <;> exact { h with }

theorem Counted.move (h : Counted s) (hmove : Move s stamp s') : Counted s' := by
  cases hmove
  case falls hslots => exact h.lighter rfl (hslots.imp fun _ _ => Falls.lighter)
  case leased hslot _ hturn =>
    rcases hturn with ⟨-, hturn⟩ | ⟨ticket, -, -, rfl⟩
    · refine Counted.taken (h.set rfl rfl hslot ?_) hturn
      exact lighter_occupied rfl nofun
    · exact h.set rfl rfl hslot (lighter_occupied rfl nofun)
  case reserved index slot id generation key taken hslot hroute hid hgeneration hturn hfind =>
    refine Counted.taken ⟨?_, fun other => ?_, ?_, fun other => ?_⟩ hturn
    · exact (length_set ..).trans h.slots
    · by_cases hkey : key.route = other.route
      · refine countP_set_lt hslot ?_
        rw [← hkey]
        exact hroute
      · refine Nat.le_trans (countP_set_le hslot fun hb => ?_) (h.route other)
        simp [Slot.route, hkey] at hb
    · exact Nat.le_trans (countP_set_le hslot nofun) h.idle
    · exact Nat.le_trans (countP_set_le hslot fun hb => by simp [Slot.isIdle] at hb)
        (h.routeIdle other)
  case cancelled hslots =>
    cases hslots with
    | none _ => exact { h with }
    | idle hassigned hslot hroom =>
      obtain ⟨entry, hslot', hkey, -⟩ := occupied_of_find hassigned
      obtain rfl := Slot.occupied.inj (Option.some.inj (hslot.symm.trans hslot'))
      exact h.park rfl rfl hslot rfl (capacity_vacant hslot (hkey ▸ hroom))
    | quarantined _ hslot reason =>
      refine h.set rfl rfl hslot ?_
      exact lighter_occupied rfl (by simp)
  case parked hslot _ _ hroom => exact h.park rfl rfl hslot rfl hroom
  case shut =>
    refine h.lighter rfl ?_
    rw [forall₂_map_right_iff]
    exact forall₂_same.mpr fun a _ => lighter_shut
  all_goals first
    | exact { h with }
    | exact h.set rfl rfl ‹_› lighter_vacant
    | refine h.set rfl rfl ‹_› ⟨fun _ hroute => ?_, fun hidle => ?_⟩
      · exact hroute
      · simp [Slot.isIdle, Reservation.entry, ConnectionEntry.renewed] at hidle

/-! ## Identities -/

/-- An identifier that has been given out, if `next` is the next one. -/
def Before (next : Option ℕ) (id : ℕ) : Prop := ∀ n, next = some n → id < n

theorem before_after {id' : ℕ} (h : id' ≤ id) : Before (after id) id' := by
  intro n hn
  obtain ⟨rfl, -⟩ := checkedAdd_some.mp hn
  exact Nat.lt_succ_of_le h

theorem Before.later {next next' : Option ℕ} (h : Before next id) (hnext : Later next next') :
    Before next' id := by
  rcases hnext with rfl | ⟨n, rfl, rfl⟩
  · exact h
  · exact before_after (Nat.le_of_lt (h n rfl))

theorem Before.ne {next : Option ℕ} {n : ℕ} (h : Before next id) (hnext : next = some n) :
    id ≠ n := Nat.ne_of_lt (h n hnext)

/-- The slots name different connections, whose identities have been given out. -/
structure Distinct (s : PoolInner C) : Prop where
  unique : ∀ {i j id : ℕ} {a b : Slot C}, s.slots[i]? = some a → s.slots[j]? = some b →
    a.connectionId = some id → b.connectionId = some id → i = j
  before : ∀ {i id : ℕ} {a : Slot C}, s.slots[i]? = some a → a.connectionId = some id →
    Before s.nextConnectionId id

theorem Distinct.shrink (h : Distinct s)
    (hslots : List.Forall₂ (fun a b : Slot C => ∀ id, b.connectionId = some id →
      a.connectionId = some id) s.slots t.slots)
    (hnext : Later s.nextConnectionId t.nextConnectionId) : Distinct t where
  unique ha hb haid hbid := by
    obtain ⟨a', ha', haa'⟩ := get?_forall₂ hslots ha
    obtain ⟨b', hb', hbb'⟩ := get?_forall₂ hslots hb
    exact h.unique ha' hb' (haa' _ haid) (hbb' _ hbid)
  before ha haid := by
    obtain ⟨a', ha', haa'⟩ := get?_forall₂ hslots ha
    exact (h.before ha' (haa' _ haid)).later hnext

theorem Distinct.set (h : Distinct s) (hslots : t.slots = s.slots.set i b)
    (hslot : s.slots[i]? = some a) (hnext : t.nextConnectionId = s.nextConnectionId)
    (hid : ∀ id, b.connectionId = some id → a.connectionId = some id) : Distinct t := by
  refine h.shrink ?_ (.inl hnext)
  rw [hslots]
  exact forall₂_set (fun _ _ h => h) hslot hid

theorem Distinct.reserve (h : Distinct s) (hslots : t.slots = s.slots.set i b)
    (hid : s.nextConnectionId = some id) (hnext : t.nextConnectionId = after id)
    (hb : b.connectionId = some id) : Distinct t := by
  have hother {j k : ℕ} {c : Slot C} (hc : t.slots[j]? = some c) (hk : c.connectionId = some k) :
      j = i ∧ k = id ∨ s.slots[j]? = some c ∧ k ≠ id := by
    rw [hslots] at hc
    rcases get?_set_cases hc with ⟨rfl, rfl⟩ | ⟨-, hc⟩
    · exact .inl ⟨rfl, Option.some.inj (hk.symm.trans hb)⟩
    · exact .inr ⟨hc, (h.before hc hk).ne hid⟩
  constructor
  · intro j k m c d hc hd hcm hdm
    rcases hother hc hcm with ⟨rfl, rfl⟩ | ⟨hc, hm⟩
    · rcases hother hd hdm with ⟨rfl, -⟩ | ⟨-, hm⟩
      · rfl
      · exact absurd rfl hm
    · rcases hother hd hdm with ⟨-, rfl⟩ | ⟨hd, -⟩
      · exact absurd rfl hm
      · exact h.unique hc hd hcm hdm
  · intro j k c hc hk
    rw [hnext]
    rcases hother hc hk with ⟨-, rfl⟩ | ⟨hc, -⟩
    · exact before_after (Nat.le_refl _)
    · exact before_after (Nat.le_of_lt (h.before hc hk id hid))

theorem Falls.connectionId (h : Falls a b) : b.connectionId = a.connectionId := by
  rcases h with rfl | ⟨entry, reason, rfl, -, -, rfl⟩ <;> rfl

theorem connectionId_shut (h : a.shut.connectionId = some id) : a.connectionId = some id := by
  unfold Slot.shut at h
  split at h
  · cases h
  · cases h
  · split at h <;> exact h

theorem Distinct.move (h : Distinct s) (hmove : Move s stamp s') : Distinct s' := by
  cases hmove
  case falls hslots =>
    exact h.shrink (hslots.imp fun _ _ hab _ hb => hab.connectionId ▸ hb) (.inl rfl)
  case burned hconn _ => exact ⟨h.unique, fun ha hid => (h.before ha hid).later hconn⟩
  case leased hslot _ hturn =>
    rcases hturn with ⟨-, hturn⟩ | ⟨ticket, -, -, rfl⟩
    · cases hturn <;> exact h.set rfl hslot rfl fun _ h => h
    · exact h.set rfl hslot rfl fun _ h => h
  case reserved hid _ hturn _ => cases hturn <;> exact h.reserve rfl hid rfl rfl
  case cancelled hslots =>
    cases hslots with
    | none _ => exact ⟨h.unique, h.before⟩
    | idle _ hslot hroom | quarantined _ hslot reason => exact h.set rfl hslot rfl fun _ h => h
  case shut =>
    refine h.shrink ?_ (.inl rfl)
    rw [forall₂_map_right_iff]
    exact forall₂_same.mpr fun a _ _ => connectionId_shut
  all_goals first
    | exact ⟨h.unique, h.before⟩
    | refine h.set rfl ‹_› rfl fun _ hid => ?_
      first | exact hid | cases hid

/-! ## Leases -/

/-- A lease has a new pair of identity and generation; a token is accepted while its lease is the
active one: after it was given out, and only once. -/
def LeaseAllowed (before : List (PoolEvent C)) : PoolEvent C → Prop
  | .leased token => ∀ other, .leased other ∈ before →
    ¬ (other.connectionId = token.connectionId ∧ other.generation = token.generation)
  | .ended token => .leased token ∈ before ∧ .ended token ∉ before
  | _ => True

def PoolEvent.isLease : PoolEvent C → Bool
  | .leased _ | .ended _ => true
  | _ => false

def Slot.isHeld : Slot C → Bool
  | .vacant => false
  | .connecting _ => true
  | .occupied entry => entry.state = .leased

structure Leases (s : PoolInner C) : Prop where
  reserved : ∀ {i : ℕ} {r : Reservation}, s.slots[i]? = some (.connecting r) →
    Before s.nextGeneration r.generation ∧
      ∀ token, .leased token ∈ s.log → token.connectionId ≠ r.connectionId
  given : ∀ {token : LeaseToken}, .leased token ∈ s.log →
    Before s.nextConnectionId token.connectionId ∧ Before s.nextGeneration token.generation
  active : ∀ {i : ℕ} {entry : ConnectionEntry C}, s.slots[i]? = some (.occupied entry) →
    entry.state = .leased → .leased entry.token ∈ s.log ∧ .ended entry.token ∉ s.log
  past : ∀ {token : LeaseToken}, .ended token ∈ s.log → .leased token ∈ s.log
  log : Stepwise LeaseAllowed s.log

theorem mem_append_quiet {log : List (PoolEvent C)} {p : PoolEvent C → Bool}
    (hnotes : ∀ event ∈ notes, p event = false) {event : PoolEvent C} (hp : p event) :
    event ∈ log ++ notes ↔ event ∈ log := by
  rw [mem_append, or_iff_left]
  intro hmem
  rw [hnotes event hmem] at hp
  cases hp

section

variable (h : Leases s)

include h

/-- No lease has begun or ended, and no slot has been taken. -/
theorem Leases.frame (hlog : t.log = s.log ++ notes)
    (hnotes : ∀ event ∈ notes, event.isLease = false)
    (hconn : Later s.nextConnectionId t.nextConnectionId)
    (hgeneration : Later s.nextGeneration t.nextGeneration)
    (hslots : ∀ {i : ℕ} {b : Slot C}, t.slots[i]? = some b → b.isHeld → s.slots[i]? = some b) :
    Leases t := by
  have hmem {event : PoolEvent C} (hp : event.isLease) : event ∈ t.log ↔ event ∈ s.log := by
    rw [hlog]
    exact mem_append_quiet hnotes hp
  refine ⟨fun hr => ?_, fun htoken => ?_, fun hentry hleased => ?_, fun hended => ?_, ?_⟩
  · obtain ⟨hbefore, hnone⟩ := h.reserved (hslots hr rfl)
    exact ⟨hbefore.later hgeneration, fun token htoken => hnone token ((hmem rfl).mp htoken)⟩
  · obtain ⟨hid, hbefore⟩ := h.given ((hmem rfl).mp htoken)
    exact ⟨hid.later hconn, hbefore.later hgeneration⟩
  · rw [hmem rfl, hmem rfl]
    exact h.active (hslots hentry (by simp [Slot.isHeld, hleased])) hleased
  · exact (hmem rfl).mpr (h.past ((hmem rfl).mp hended))
  · rw [hlog]
    refine h.log.append fun event hev before => ?_
    have hquiet := hnotes event hev
    cases event <;> trivial

theorem Leases.finish (hdist : Distinct s) (hslots : t.slots = s.slots.set i b)
    (hlog : t.log = s.log ++ [.ended entry.token]) (hconn : t.nextConnectionId = s.nextConnectionId)
    (hslot : s.slots[i]? = some (.occupied entry)) (hleased : entry.state = .leased)
    (hgeneration : Later s.nextGeneration t.nextGeneration) (hb : b.isHeld = false) : Leases t := by
  have hheld {j : ℕ} {c : Slot C} (hc : t.slots[j]? = some c) (hp : c.isHeld) :
      j ≠ i ∧ s.slots[j]? = some c := by
    rw [hslots] at hc
    rcases get?_set_cases hc with ⟨-, rfl⟩ | hc
    · rw [hb] at hp
      cases hp
    · exact hc
  have hmem {token : LeaseToken} : .leased token ∈ t.log ↔ .leased token ∈ s.log := by
    simp [hlog]
  obtain ⟨hgiven, hopen⟩ := h.active hslot hleased
  refine ⟨fun hr => ?_, fun htoken => ?_, fun {j other} hentry hother => ?_, fun hended => ?_, ?_⟩
  · obtain ⟨hbefore, hnone⟩ := h.reserved (hheld hr rfl).2
    exact ⟨hbefore.later hgeneration, fun token htoken => hnone token (hmem.mp htoken)⟩
  · obtain ⟨hid, hbefore⟩ := h.given (hmem.mp htoken)
    exact ⟨hconn ▸ hid, hbefore.later hgeneration⟩
  · obtain ⟨hne, hslot'⟩ := hheld hentry (by simp [Slot.isHeld, hother])
    obtain ⟨hgiven', hopen'⟩ := h.active hslot' hother
    refine ⟨hmem.mpr hgiven', ?_⟩
    rw [hlog, mem_append, mem_singleton, not_or]
    refine ⟨hopen', fun heq => hne ?_⟩
    have hid : other.connectionId = entry.connectionId :=
      congrArg LeaseToken.connectionId (PoolEvent.ended.inj heq)
    exact hdist.unique hslot' hslot (congrArg some hid) rfl
  · rw [hlog, mem_append, mem_singleton] at hended
    rcases hended with hended | heq
    · exact hmem.mpr (h.past hended)
    · obtain rfl := PoolEvent.ended.inj heq
      exact hmem.mpr hgiven
  · rw [hlog]
    exact h.log.concat ⟨hgiven, hopen⟩

/-- A lease begins whose pair of identity and generation is new. -/
theorem Leases.start (hdist : Distinct s) (hslots : t.slots = s.slots.set i (.occupied entry))
    (hlog : t.log = s.log ++ [.leased entry.token])
    (hconn : t.nextConnectionId = s.nextConnectionId) (hslot : s.slots[i]? = some a)
    (hid : a.connectionId = some entry.connectionId)
    (hgeneration : Later s.nextGeneration t.nextGeneration)
    (hbefore : Before t.nextGeneration entry.generation) (hnew : ∀ other, .leased other ∈ s.log →
      ¬ (other.connectionId = entry.connectionId ∧ other.generation = entry.generation)) :
    Leases t := by
  have hmem {token : LeaseToken} (htoken : .leased token ∈ t.log) :
      .leased token ∈ s.log ∨ token = entry.token := by
    rw [hlog, mem_append, mem_singleton] at htoken
    exact htoken.imp_right fun h => PoolEvent.leased.inj h
  have hended {token : LeaseToken} : .ended token ∈ t.log ↔ .ended token ∈ s.log := by
    simp [hlog]
  have hkeep {token : LeaseToken} (htoken : .leased token ∈ s.log) : .leased token ∈ t.log := by
    rw [hlog]
    exact mem_append_left _ htoken
  have hlast : .leased entry.token ∈ t.log := by simp [hlog]
  refine ⟨fun {j r} hr => ?_, fun htoken => ?_, fun {j other} hentry hother => ?_,
    fun h' => hkeep (h.past (hended.mp h')), ?_⟩
  · rw [hslots] at hr
    rcases get?_set_cases hr with ⟨-, heq⟩ | ⟨hne, hr⟩
    · cases heq
    · obtain ⟨hold, hnone⟩ := h.reserved hr
      refine ⟨hold.later hgeneration, fun token htoken => ?_⟩
      rcases hmem htoken with htoken | rfl
      · exact hnone token htoken
      · exact fun heq => hne (hdist.unique hr hslot (congrArg some heq.symm) hid)
  · rcases hmem htoken with htoken | rfl
    · obtain ⟨hold, hgen⟩ := h.given htoken
      exact ⟨hconn ▸ hold, hgen.later hgeneration⟩
    · exact ⟨hconn ▸ hdist.before hslot hid, hbefore⟩
  · rw [hslots] at hentry
    rcases get?_set_cases hentry with ⟨-, heq⟩ | ⟨-, hentry⟩
    · obtain rfl := Slot.occupied.inj heq
      refine ⟨hlast, fun h' => hnew _ (h.past (hended.mp h')) ⟨rfl, rfl⟩⟩
    · obtain ⟨hgiven, hopen⟩ := h.active hentry hother
      exact ⟨hkeep hgiven, fun h' => hopen (hended.mp h')⟩
  · rw [hlog]
    exact h.log.concat hnew

theorem Leases.emit {event : PoolEvent C} (hquiet : event.isLease = false)
    (hlog : t.log = s.log ++ [event]) (hslots : t.slots = s.slots)
    (hconn : t.nextConnectionId = s.nextConnectionId)
    (hgeneration : t.nextGeneration = s.nextGeneration) : Leases t :=
  h.frame hlog (forall_mem_singleton.mpr hquiet) (.inl hconn) (.inl hgeneration)
    fun hb _ => hslots ▸ hb

theorem Leases.taken (hturn : Turn t serve) : Leases (serve s) := by
  cases hturn <;> exact h.emit rfl rfl rfl rfl rfl

theorem Leases.reserve {generation : ℕ} {key : PoolKey}
    (hslots : t.slots = s.slots.set i (.connecting ⟨id, generation, key⟩)) (hlog : t.log = s.log)
    (hid : s.nextConnectionId = some id) (hgeneration : s.nextGeneration = some generation)
    (hid' : t.nextConnectionId = after id) (hgeneration' : t.nextGeneration = after generation) :
    Leases t := by
  have hlater : Later s.nextGeneration t.nextGeneration :=
    .inr ⟨generation, hgeneration, hgeneration'⟩
  refine ⟨fun hr => ?_, fun htoken => ?_, fun hentry hleased => ?_, fun hended => ?_, hlog ▸ h.log⟩
  · rw [hslots] at hr
    rw [hlog]
    rcases get?_set_cases hr with ⟨-, heq⟩ | ⟨-, hr⟩
    · obtain rfl := Slot.connecting.inj heq
      exact ⟨hgeneration' ▸ before_after (Nat.le_refl _),
        fun token htoken => (h.given htoken).1.ne hid⟩
    · exact ⟨(h.reserved hr).1.later hlater, (h.reserved hr).2⟩
  · obtain ⟨hold, hgen⟩ := h.given (hlog ▸ htoken)
    exact ⟨hold.later (.inr ⟨id, hid, hid'⟩), hgen.later hlater⟩
  · rw [hslots] at hentry
    rw [hlog]
    rcases get?_set_cases hentry with ⟨-, heq⟩ | ⟨-, hentry⟩
    · cases heq
    · exact h.active hentry hleased
  · rw [hlog] at hended ⊢
    exact h.past hended

end

/-- A slot has changed to one that is not held. -/
theorem held_set {j : ℕ} {c : Slot C} (hb : b.isHeld = false) (hc : (slots.set i b)[j]? = some c)
    (hp : c.isHeld) : slots[j]? = some c := by
  rcases get?_set_cases hc with ⟨-, rfl⟩ | ⟨-, hc⟩
  · rw [hb] at hp
    cases hp
  · exact hc

theorem held_falls (h : List.Forall₂ Falls s.slots slots) (hb : slots[i]? = some b) (hp : b.isHeld)
    : s.slots[i]? = some b := by
  obtain ⟨a, ha, rfl | ⟨entry, reason, rfl, -, -, rfl⟩⟩ := get?_forall₂ h hb
  · exact ha
  · simp [Slot.isHeld] at hp

theorem held_shut (hb : (s.slots.map Slot.shut)[i]? = some b) (hp : b.isHeld) :
    s.slots[i]? = some b := by
  rw [getElem?_map] at hb
  obtain ⟨a, ha, rfl⟩ := Option.map_eq_some_iff.mp hb
  rw [ha]
  unfold Slot.shut at hp ⊢
  split at hp
  · cases hp
  · cases hp
  · next entry =>
    split at hp
    · cases hp
    · cases hp
    · simp [*]
    · simp [*]

theorem Leases.move (h : Leases s) (hdist : Distinct s) (hmove : Move s stamp s') : Leases s' := by
  cases hmove
  case falls hslots =>
    exact h.frame (append_nil _).symm nofun (.inl rfl) (.inl rfl) (held_falls hslots)
  case burned hconn hgeneration =>
    exact h.frame (append_nil _).symm nofun hconn hgeneration fun hb _ => hb
  case leased index generation entry taken hslot hgeneration hturn =>
    have hleased : Leases (({ s with nextGeneration := after generation }.setSlot index
        (.occupied (entry.renewed generation entry.facts .leased))).emit
        (.leased ⟨entry.connectionId, generation, entry.key⟩)) :=
      h.start hdist rfl rfl rfl hslot rfl (.inr ⟨generation, hgeneration, rfl⟩)
        (before_after (Nat.le_refl _)) fun other hother heq =>
          (h.given hother).2.ne hgeneration heq.2
    rcases hturn with ⟨-, hturn⟩ | ⟨ticket, -, -, rfl⟩
    · exact hleased.taken hturn
    · exact hleased.emit rfl rfl rfl rfl rfl
  case reserved hslot _ hid hgeneration hturn _ =>
    exact Leases.taken (h.reserve rfl rfl hid hgeneration rfl rfl) hturn
  case completed permit connection facts _ hslot =>
    have hhanded : Leases ({ s with permits := s.permits.erase permit }.emit
        (.handed permit.reservation.connectionId connection)) := h.emit rfl rfl rfl rfl rfl
    obtain ⟨hbefore, hnone⟩ := h.reserved hslot
    refine hhanded.start ⟨hdist.unique, hdist.before⟩ rfl rfl rfl hslot rfl (.inl rfl) hbefore ?_
    intro other hother heq
    exact (hhanded.reserved hslot).2 other hother heq.1
  case ended hslot hleased hnext => exact h.finish hdist rfl rfl rfl hslot hleased hnext rfl
  case parked hslot hleased hgeneration _ =>
    exact h.finish hdist rfl rfl rfl hslot hleased (.inr ⟨_, hgeneration, rfl⟩) rfl
  case assigned hslot hleased _ hgeneration _ _ =>
    exact h.finish hdist rfl rfl rfl hslot hleased (.inr ⟨_, hgeneration, rfl⟩) rfl
  case cancelled hslots =>
    refine h.frame rfl (forall_mem_singleton.mpr rfl) (.inl rfl) (.inl rfl) ?_
    cases hslots with
    | none _ => exact fun hb _ => hb
    | idle _ _ _ | quarantined _ _ _ => exact held_set rfl
  case shut =>
    refine h.frame (append_assoc ..) (fun event hmem => ?_) (.inl rfl) (.inl rfl) held_shut
    rw [mem_append, mem_map, mem_singleton] at hmem
    rcases hmem with ⟨ticket, -, rfl⟩ | rfl <;> rfl
  case discarded => exact h.frame (append_nil _).symm nofun (.inl rfl) (.inl rfl) fun hb _ => hb
  case closed => exact h.frame (append_nil _).symm nofun (.inl rfl) (.inl rfl) fun hb _ => hb
  case vacated => exact h.frame (append_nil _).symm nofun (.inl rfl) (.inl rfl) (held_set rfl)
  all_goals
    refine h.frame rfl (forall_mem_singleton.mpr rfl) (.inl rfl) (.inl rfl) ?_
    first | exact fun hb _ => hb | exact held_set rfl

/-! ## Tickets -/

def Settled (log : List (PoolEvent C)) (ticket : AcquireTicket) : Prop :=
  .granted ticket ∈ log ∨ .withdrawn ticket ∈ log

/-- Tickets are granted in their order, and a request without a ticket is granted only when no
ticket waits. -/
def TicketAllowed (before : List (PoolEvent C)) : PoolEvent C → Prop
  | .granted ticket => (∀ other, .granted other ∈ before → other.id < ticket.id) ∧
    ∀ other, .queued other ∈ before → other.id < ticket.id → Settled before other
  | .direct => ∀ ticket, .queued ticket ∈ before → Settled before ticket
  | _ => True

def PoolEvent.isTicket : PoolEvent C → Bool
  | .queued _ | .granted _ | .direct => true
  | _ => false

structure Queue (s : PoolInner C) : Prop where
  length : s.waiters.length ≤ s.config.maxQueue
  sorted : s.waiters.Pairwise (·.id < ·.id)
  before : ∀ waiter ∈ s.waiters, Before s.nextRequestId waiter.id
  tally : s.cancelledWaiters + s.waiters.length ≤ u64Max
  issued : ∀ n, s.nextRequestId = some n →
    s.cancelledWaiters + s.waiters.length < n ∧ n ≤ u64Max
  granted : ∀ {ticket : AcquireTicket}, .granted ticket ∈ s.log →
    Before s.nextRequestId ticket.id ∧ ∀ waiter ∈ s.waiters, ticket.id < waiter.id
  settled : ∀ {ticket : AcquireTicket}, .queued ticket ∈ s.log →
    ticket ∈ s.waiters ∨ Settled s.log ticket
  log : Stepwise TicketAllowed s.log

theorem Settled.mono {log : List (PoolEvent C)} (h : Settled log ticket) :
    Settled (log ++ notes) ticket :=
  h.imp (mem_append_left _) (mem_append_left _)

section

variable (h : Queue s)

include h

/-- Tickets have left the queue and nothing was granted: those that left were withdrawn. -/
theorem Queue.leave (hlog : t.log = s.log ++ notes)
    (hnotes : ∀ event ∈ notes, event.isTicket = false) (hconfig : t.config = s.config)
    (hnext : t.nextRequestId = s.nextRequestId) (hwaiters : t.waiters.Sublist s.waiters)
    (htally : t.cancelledWaiters + t.waiters.length = s.cancelledWaiters + s.waiters.length)
    (hleft : ∀ waiter ∈ s.waiters, waiter ∈ t.waiters ∨ .withdrawn waiter ∈ notes) : Queue t := by
  have hmem {event : PoolEvent C} (hp : event.isTicket) : event ∈ t.log ↔ event ∈ s.log := by
    rw [hlog]
    exact mem_append_quiet hnotes hp
  refine ⟨?_, h.sorted.sublist hwaiters, fun waiter hwaiter => ?_, htally ▸ h.tally, ?_,
    fun hgranted => ?_, fun hqueued => ?_, ?_⟩
  · rw [hconfig]
    exact Nat.le_trans hwaiters.length_le h.length
  · rw [hnext]
    exact h.before waiter (hwaiters.subset hwaiter)
  · rw [hnext, htally]
    exact h.issued
  · rw [hnext]
    obtain ⟨hbefore, hless⟩ := h.granted ((hmem rfl).mp hgranted)
    exact ⟨hbefore, fun waiter hwaiter => hless waiter (hwaiters.subset hwaiter)⟩
  · rw [hlog]
    rcases h.settled ((hmem rfl).mp hqueued) with hwaits | hset
    · exact (hleft _ hwaits).imp_right fun h => .inr (mem_append_right _ h)
    · exact .inr hset.mono
  · rw [hlog]
    refine h.log.append fun event hev before => ?_
    have hquiet := hnotes event hev
    cases event <;> trivial

/-- What a call changes beside the queue. -/
theorem Queue.frame (hlog : t.log = s.log ++ notes)
    (hnotes : ∀ event ∈ notes, event.isTicket = false) (hconfig : t.config = s.config)
    (hnext : t.nextRequestId = s.nextRequestId) (hwaiters : t.waiters = s.waiters)
    (htally : t.cancelledWaiters = s.cancelledWaiters) : Queue t :=
  h.leave hlog hnotes hconfig hnext (hwaiters ▸ .refl _) (by rw [hwaiters, htally])
    fun _ hwaiter => .inl (hwaiters ▸ hwaiter)

theorem Queue.queued (key : PoolKey) (hroom : s.waiters.length < s.config.maxQueue)
    (hid : s.nextRequestId = some id) :
    Queue ({ s with
      nextRequestId := after id
      waiters := s.waiters ++ [(⟨id, key⟩ : AcquireTicket)] }.emit (.queued ⟨id, key⟩)) := by
  have hlater : Later s.nextRequestId (after id) := .inr ⟨id, hid, rfl⟩
  obtain ⟨htally, hmax⟩ := h.issued id hid
  have hlen : (s.waiters ++ [(⟨id, key⟩ : AcquireTicket)]).length = s.waiters.length + 1 :=
    length_append
  refine ⟨?_, ?_, fun waiter hwaiter => ?_, ?_, fun n hn => ?_, fun hgranted => ?_,
    fun {ticket} hqueued => ?_, h.log.concat trivial⟩
  · exact hlen ▸ hroom
  · refine pairwise_append.mpr ⟨h.sorted, pairwise_singleton _ _, ?_⟩
    intro waiter hwaiter other hother
    rw [mem_singleton.mp hother]
    exact h.before waiter hwaiter id hid
  · rcases mem_append.mp hwaiter with hwaiter | hwaiter
    · exact (h.before waiter hwaiter).later hlater
    · rw [mem_singleton.mp hwaiter]
      exact before_after (Nat.le_refl _)
  · change s.cancelledWaiters + (s.waiters ++ [(⟨id, key⟩ : AcquireTicket)]).length ≤ u64Max
    omega
  · obtain ⟨rfl, hle⟩ := checkedAdd_some.mp hn
    change s.cancelledWaiters + (s.waiters ++ [(⟨id, key⟩ : AcquireTicket)]).length < id + 1 ∧ _
    omega
  · obtain ⟨hbefore, hless⟩ := h.granted (by simpa [emit] using hgranted)
    refine ⟨hbefore.later hlater, fun waiter hwaiter => ?_⟩
    rcases mem_append.mp hwaiter with hwaiter | hwaiter
    · exact hless waiter hwaiter
    · rw [mem_singleton.mp hwaiter]
      exact hbefore id hid
  · rcases mem_append.mp hqueued with hqueued | hqueued
    · exact (h.settled hqueued).imp (mem_append_left _) Settled.mono
    · rw [PoolEvent.queued.inj (mem_singleton.mp hqueued)]
      exact .inl (mem_append_right _ (mem_singleton_self _))

theorem Queue.direct (hempty : s.waiters = []) : Queue (s.emit .direct) where
  __ := h
  granted hgranted := h.granted (by simpa [emit] using hgranted)
  settled hqueued := (h.settled (by simpa [emit] using hqueued)).imp_right Settled.mono
  log := by
    refine h.log.concat fun ticket hqueued => ?_
    refine (h.settled hqueued).resolve_left ?_
    simp [hempty]

theorem Queue.front (hfront : s.waiters.head? = some ticket) : Queue (grant ticket s) := by
  obtain ⟨rest, hrest⟩ := head?_eq_some_iff.mp hfront
  have hwaiters : (grant ticket s).waiters = rest := by simp [grant, emit, hrest]
  have hlog : (grant ticket s).log = s.log ++ [.granted ticket] := rfl
  have hmem : ∀ waiter ∈ rest, waiter ∈ s.waiters := fun _ h => hrest ▸ mem_cons_of_mem _ h
  have hlen : s.waiters.length = rest.length + 1 := by rw [hrest, length_cons]
  have hsorted := h.sorted
  rw [hrest, pairwise_cons] at hsorted
  have hticket : ticket ∈ s.waiters := hrest ▸ mem_cons_self
  refine ⟨?_, ?_, fun waiter hwaiter => ?_, ?_, fun n hn => ?_, fun {other} hgranted => ?_,
    fun {other} hqueued => ?_, ?_⟩
  · rw [hwaiters]
    exact Nat.le_trans (by omega) h.length
  · exact hwaiters ▸ hsorted.2
  · exact h.before waiter (hmem _ (hwaiters ▸ hwaiter))
  · have htally := h.tally
    rw [hwaiters]
    exact Nat.le_trans (by simp only [grant, emit]; omega) htally
  · have hissued := h.issued n hn
    rw [hwaiters]
    simp only [grant, emit]
    omega
  · rw [hwaiters]
    rcases mem_append.mp hgranted with hgranted | hgranted
    · obtain ⟨hbefore, hless⟩ := h.granted hgranted
      exact ⟨hbefore, fun waiter hwaiter => hless waiter (hmem _ hwaiter)⟩
    · rw [PoolEvent.granted.inj (mem_singleton.mp hgranted)]
      exact ⟨h.before _ hticket, hsorted.1⟩
  · rw [hwaiters]
    rw [hlog] at hqueued ⊢
    rcases h.settled (by simpa using hqueued) with hwaits | hset
    · rcases mem_cons.mp (hrest ▸ hwaits) with rfl | hwaits
      · exact .inr (.inl (by simp))
      · exact .inl hwaits
    · exact .inr hset.mono
  · rw [hlog]
    refine h.log.concat ⟨fun other hgranted => ?_, fun other hqueued hless => ?_⟩
    · exact (h.granted hgranted).2 _ hticket
    · refine (h.settled hqueued).resolve_left fun hwaits => ?_
      rcases mem_cons.mp (hrest ▸ hwaits) with rfl | hwaits
      · exact absurd hless (Nat.lt_irrefl _)
      · exact absurd hless (Nat.lt_asymm (hsorted.1 _ hwaits))

end

theorem Queue.taken (h : Queue t) (hturn : Turn s serve)
    (hwaiters : t.waiters = s.waiters) : Queue (serve t) := by
  cases hturn with
  | direct _ hempty => exact h.direct (hwaiters.trans hempty)
  | granted _ hfront _ => exact h.front (hwaiters ▸ hfront)

theorem Queue.cancelled (h : Queue s) {index : ℕ}
    (hindex : s.waiters.findIdx? (· = ticket) = some index) :
    Queue ({ s with
      waiters := s.waiters.eraseIdx index
      cancelledWaiters := s.cancelledWaiters + 1
      slots }.emit (.withdrawn ticket)) := by
  obtain ⟨hlt, hticket, -⟩ := findIdx?_eq_some_iff_getElem.mp hindex
  have hticket : s.waiters[index] = ticket := of_decide_eq_true hticket
  refine h.leave rfl (forall_mem_singleton.mpr rfl) rfl rfl
    (eraseIdx_sublist _ _) ?_ fun waiter hwaiter => ?_
  · have hlen := length_eraseIdx_of_lt hlt
    simp only [emit]
    omega
  · obtain ⟨j, hj, rfl⟩ := mem_iff_getElem.mp hwaiter
    by_cases hji : j = index
    · subst hji
      exact .inr (by simp [hticket])
    · exact .inl (mem_eraseIdx_iff_getElem.mpr ⟨j, hj, hji, rfl⟩)

theorem Queue.move (h : Queue s) (hmove : Move s stamp s') : Queue s' := by
  cases hmove
  case queued key hroom hid => exact h.queued key hroom hid
  case leased hturn =>
    rcases hturn with ⟨-, hturn⟩ | ⟨ticket, -, hfront, rfl⟩
    · refine Queue.taken ?_ hturn rfl
      exact h.frame rfl (forall_mem_singleton.mpr rfl) rfl rfl rfl rfl
    · refine Queue.front ?_ hfront
      exact h.frame rfl (forall_mem_singleton.mpr rfl) rfl rfl rfl rfl
  case reserved hturn _ =>
    refine Queue.taken ?_ hturn rfl
    exact h.frame (append_nil _).symm nofun rfl rfl rfl rfl
  case cancelled hindex _ => exact h.cancelled hindex
  case completed permit connection facts _ hslot =>
    refine h.frame (append_assoc ..) (fun event hmem => ?_) rfl rfl rfl rfl
    simp only [cons_append, nil_append, mem_cons, not_mem_nil, or_false] at hmem
    rcases hmem with rfl | rfl <;> rfl
  case shut =>
    refine h.leave (append_assoc ..) (fun event hmem => ?_) rfl rfl (nil_sublist _) rfl ?_
    · rw [mem_append, mem_map, mem_singleton] at hmem
      rcases hmem with ⟨ticket, -, rfl⟩ | rfl <;> rfl
    · intro waiter hwaiter
      exact .inr (mem_append_left _ (mem_map_of_mem hwaiter))
  all_goals first
    | exact h.frame rfl (forall_mem_singleton.mpr rfl) rfl rfl rfl rfl
    | exact h.frame (append_nil _).symm nofun rfl rfl rfl rfl

/-! ## Runs -/

structure Lawful (config : PoolConfig) (s : PoolInner C) : Prop where
  config : s.config = config
  counted : Counted s
  distinct : Distinct s
  leases : Leases s
  queue : Queue s

theorem Move.config (h : Move s stamp s') : s'.config = s.config := by
  cases h
  case leased hturn =>
    rcases hturn with ⟨-, hturn⟩ | ⟨ticket, -, -, rfl⟩
    · cases hturn <;> rfl
    · rfl
  case reserved hturn _ => cases hturn <;> rfl
  all_goals rfl

variable {config : PoolConfig}

theorem Lawful.move (h : Lawful config s) (hmove : Move s stamp s') :
    Lawful config s' where
  config := hmove.config.trans h.config
  counted := h.counted.move hmove
  distinct := h.distinct.move hmove
  leases := h.leases.move h.distinct hmove
  queue := h.queue.move hmove

theorem new_vacant (h : (new config).slots[i]? = some a) : a = .vacant :=
  (mem_replicate.mp (mem_of_getElem? h)).2

theorem new_lawful : Lawful config (.new (C := C) config) where
  config := rfl
  counted := by
    refine ⟨length_replicate .., fun key => ?_, ?_, fun key => ?_⟩
    · simp [routeUsed, new, countP_replicate, Slot.route]
    · simp [PoolInner.idle, new, countP_replicate, Slot.isIdle]
    · simp [PoolInner.routeIdle, new, countP_replicate, Slot.isIdle]
  distinct := by
    constructor
    · intro i j id a b ha _ hid
      rw [new_vacant ha] at hid
      cases hid
    · intro i id a ha hid
      rw [new_vacant ha] at hid
      cases hid
  leases := by
    refine ⟨fun hr => ?_, nofun, fun hentry => ?_, nofun, stepwise_nil⟩
    · cases new_vacant hr
    · cases new_vacant hentry
  queue := by
    refine ⟨Nat.zero_le _, .nil, nofun, Nat.zero_le _, fun n hn => ?_, nofun, nofun, stepwise_nil⟩
    cases hn
    exact ⟨Nat.zero_lt_one, by decide⟩

section

variable (h : Lawful config s)

include h

theorem Lawful.fits : s.cancelledWaiters + s.waiters.length ≤ usizeMax := h.queue.tally

theorem Lawful.chain (hchain : Chain s s') : Lawful config s' := by
  induction hchain with
  | refl => exact h
  | tail _ hmove ih => exact ih.move hmove

theorem Lawful.step (act : Act C E) : Lawful config (step s act) := by
  have hmoves := step_moves h.fits act
  split at hmoves
  · exact h.move hmoves
  · rcases hmoves with hchain | ⟨-, hmove⟩
    · exact h.chain hchain
    · exact h.move hmove

end

theorem run_lawful (config : PoolConfig) (acts : List (Act C E)) :
    Lawful config (run config acts) := by
  induction acts using List.reverseRecOn with
  | nil => exact new_lawful
  | append_singleton acts act ih =>
    rw [run_concat]
    exact ih.step act

/-- What the bounds of a configuration and the identities of a pool promise. -/
structure Bounded (config : PoolConfig) (s : PoolInner C) : Prop where
  live : s.live + s.connecting ≤ config.maxGlobalLive
  route : ∀ key, s.routeUsed key ≤ config.maxRouteLive
  idle : s.idle ≤ config.maxGlobalIdle
  routeIdle : ∀ key, s.routeIdle key ≤ config.maxRouteIdle
  queue : s.waiters.length ≤ config.maxQueue
  distinct : (s.slots.filterMap Slot.connectionId).Nodup
  leases : Stepwise LeaseAllowed s.log
  tickets : Stepwise TicketAllowed s.log

theorem live_add_le : s.live + s.connecting ≤ s.slots.length := by
  unfold live connecting
  induction s.slots with
  | nil => exact Nat.le_refl _
  | cons slot rest ih =>
    cases slot <;> simp only [countP_cons, Slot.isOccupied, Slot.isConnecting,
      length_cons, reduceIte, Bool.false_eq_true] <;> omega

theorem Distinct.nodup (h : Distinct s) : (s.slots.filterMap Slot.connectionId).Nodup := by
  rw [List.Nodup, pairwise_filterMap, pairwise_iff_getElem]
  intro i j hi hj hlt id hid id' hid' heq
  subst heq
  have hij := h.unique (getElem?_eq_getElem hi) (getElem?_eq_getElem hj) hid hid'
  exact absurd hij (Nat.ne_of_lt hlt)

theorem Lawful.bounded (h : Lawful config s) : Bounded config s := by
  obtain rfl := h.config
  refine ⟨?_, h.counted.route, h.counted.idle, h.counted.routeIdle, h.queue.length,
    h.distinct.nodup, h.leases.log, h.queue.log⟩
  exact Nat.le_trans live_add_le (Nat.le_of_eq h.counted.slots)

/-- **A pool keeps its bounds, and the order of its grants**, whatever calls are made and however
they fail. -/
theorem run_bounds (config : PoolConfig) (acts : List (Act C E)) :
    Bounded config (run config acts) := (run_lawful config acts).bounded

end JmeterRs.Pool
