import JmeterRs.Lib.Mut

/-!
# The connection pool

`PoolInner` with its methods, and the calls of the pool, of its permits and of its leases.  A call
takes the only borrow of the state, so it runs without interruption.  What has happened so far is
kept in `log`, and `permits` are the permits that callers hold.
-/

namespace JmeterRs.Pool

structure PoolKey where
  route : ℕ
  origin : ℕ
  tls : ℕ
  deriving DecidableEq

inductive Freshness
  | fresh
  | stale
  | unknown
  deriving DecidableEq

/-- `ConnectionFacts::new` refuses a last use before the creation. -/
structure ConnectionFacts where
  createdAt : ℕ
  lastUsedAt : ℕ
  freshness : Freshness
  ordered : createdAt ≤ lastUsedAt
  deriving DecidableEq

inductive QuarantineReason
  | dropped
  | unread
  | failed
  | cancelled
  | expired
  | invalidReuseProof
  | idleCapacity
  | shutdown
  | cleanupFailure
  deriving DecidableEq

inductive PoolError (E : Type)
  | invalidReuseProof
  | clockReversed
  | idExhausted
  | generationExhausted
  | queueFull
  | ticketInvalid
  | capacityFull
  | routeCapacityFull
  | shuttingDown
  | closed
  | poisoned
  | leaseInvalid
  | leaseReleased
  | connectionExpired
  | connectionStale
  | shutdownPending
  | cleanupAlreadyAttempted
  | invariant
  | cleanup (connectionId : ℕ) (error : E)

/-- The bounds that `PoolConfig::new` accepts. -/
structure PoolConfig where
  maxGlobalLive : ℕ
  maxRouteLive : ℕ
  maxGlobalIdle : ℕ
  maxRouteIdle : ℕ
  maxQueue : ℕ
  connectionTtl : ℕ
  idleTtl : ℕ
  nonzero : 0 < maxGlobalLive ∧ 0 < maxRouteLive ∧ 0 < connectionTtl ∧ 0 < idleTtl
  live : maxGlobalLive ≤ 1024 ∧ maxRouteLive ≤ maxGlobalLive
  idle : maxGlobalIdle ≤ maxGlobalLive ∧ maxRouteIdle ≤ maxRouteLive ∧ maxRouteIdle ≤ maxGlobalIdle
  queue : maxQueue ≤ 4096

inductive PoolState
  | opened
  | draining
  | closed
  | poisoned
  deriving DecidableEq

inductive EntryState
  | idle
  | leased
  | assigned (request : ℕ)
  | quarantined (reason : QuarantineReason) (cleanupAttempted : Bool)
  deriving DecidableEq

structure AcquireTicket where
  id : ℕ
  key : PoolKey
  deriving DecidableEq

structure LeaseToken where
  connectionId : ℕ
  generation : ℕ
  key : PoolKey
  deriving DecidableEq

/-- A reservation of a slot has the same fields as the lease that it becomes. -/
abbrev Reservation := LeaseToken

structure ReuseProof where
  token : LeaseToken
  facts : ConnectionFacts

/-- `LeaseDisposition`; the reason of a close is not used. -/
inductive LeaseDisposition
  | reuse (proof : ReuseProof)
  | close
  | quarantine (reason : QuarantineReason)

structure ConnectPermit where
  slot : ℕ
  reservation : Reservation
  deriving DecidableEq

section

variable (C : Type)

structure ConnectionEntry where
  connectionId : ℕ
  generation : ℕ
  key : PoolKey
  facts : ConnectionFacts
  state : EntryState
  connection : C

inductive Slot
  | vacant
  | connecting (reservation : Reservation)
  | occupied (entry : ConnectionEntry C)

/-- What has happened: a ticket was queued, granted or withdrawn, a request was granted without a
ticket, a lease was given out, a token was accepted at the end of its lease, a connection was handed
over, a cleanup succeeded, or it failed and returned a connection, or the pool was shut down. -/
inductive PoolEvent
  | queued (ticket : AcquireTicket)
  | granted (ticket : AcquireTicket)
  | withdrawn (ticket : AcquireTicket)
  | direct
  | leased (token : LeaseToken)
  | ended (token : LeaseToken)
  | handed (connectionId : ℕ) (connection : C)
  | cleaned (connectionId : ℕ) (connection : C)
  | failed (connectionId : ℕ) (connection : C)
  | shut

structure PoolInner where
  config : PoolConfig
  slots : List (Slot C)
  waiters : List AcquireTicket
  state : PoolState
  nextConnectionId : Option ℕ
  nextGeneration : Option ℕ
  nextRequestId : Option ℕ
  cancelledWaiters : ℕ
  shutdownCancelledWaiters : Option ℕ
  permits : List ConnectPermit
  log : List (PoolEvent C)

end

/-- The answers of `ConnectionCleanup::cleanup` during a call. -/
abbrev Cleanup (C E : Type) := ℕ → C → Except (C × E) Unit

abbrev Pooling (C E : Type) := EStateM (PoolError E) (PoolInner C)

variable {C E α : Type}

/-! ## Accounting -/

def ConnectionEntry.token (entry : ConnectionEntry C) : LeaseToken :=
  ⟨entry.connectionId, entry.generation, entry.key⟩

namespace Slot

def isVacant : Slot C → Bool
  | .vacant => true
  | _ => false

def isOccupied : Slot C → Bool
  | .occupied _ => true
  | _ => false

def isConnecting : Slot C → Bool
  | .connecting _ => true
  | _ => false

/-- The route of a slot that is in use. -/
def route : Slot C → Option ℕ
  | .vacant => none
  | .connecting reservation => some reservation.key.route
  | .occupied entry => some entry.key.route

def isIdle : Slot C → Bool
  | .occupied entry => entry.state = .idle
  | _ => false

def isLeased : Slot C → Bool
  | .occupied entry => entry.state = .leased
  | _ => false

/-- The connection identity that the slot names. -/
def connectionId : Slot C → Option ℕ
  | .vacant => none
  | .connecting reservation => some reservation.connectionId
  | .occupied entry => some entry.connectionId

def isAssigned (ticket : AcquireTicket) : Slot C → Bool
  | .occupied entry => entry.key = ticket.key ∧ entry.state = .assigned ticket.id
  | _ => false

def isQuarantined : Slot C → Bool
  | .occupied ⟨_, _, _, _, .quarantined _ _, _⟩ => true
  | _ => false

end Slot

namespace PoolInner

def new (config : PoolConfig) : PoolInner C where
  config
  slots := List.replicate config.maxGlobalLive .vacant
  waiters := []
  state := .opened
  nextConnectionId := some 1
  nextGeneration := some 1
  nextRequestId := some 1
  cancelledWaiters := 0
  shutdownCancelledWaiters := none
  permits := []
  log := []

variable (s : PoolInner C) (key : PoolKey) (index connectionId : ℕ)

def emit (event : PoolEvent C) : PoolInner C := { s with log := s.log ++ [event] }

def setSlot (slot : Slot C) : PoolInner C :=
  { s with slots := s.slots.set index slot }

/-- `live` and `connecting` of the snapshots: occupied and reserved slots, of all routes or of the
route of a key. -/
def live : ℕ := s.slots.countP Slot.isOccupied

def connecting : ℕ := s.slots.countP Slot.isConnecting

def idle : ℕ := s.slots.countP Slot.isIdle

def routeUsed : ℕ := s.slots.countP fun slot => slot.route = some key.route

def routeIdle : ℕ := s.slots.countP fun slot => slot.isIdle && slot.route = some key.route

def idleCapacityAvailable : Bool :=
  s.idle < s.config.maxGlobalIdle && s.routeIdle key < s.config.maxRouteIdle

def findSlot : Option ℕ := s.slots.findIdx? (·.connectionId = some connectionId)

def findConnecting : Option ℕ :=
  s.slots.findIdx? fun slot => slot.isConnecting && slot.connectionId = some connectionId

def findAssigned (ticket : AcquireTicket) : Option ℕ := s.slots.findIdx? (·.isAssigned ticket)

/-- Whether a lease token names the lease of a slot. -/
def names (token : LeaseToken) : Option (ConnectionEntry C) :=
  match s.slots[index]? with
  | some (.occupied entry) =>
    if entry.token = token ∧ entry.state = .leased then some entry else none
  | _ => none

end PoolInner

/-! ## Facts -/

inductive FactsValidity
  | eligible
  | reversed
  | expired
  | stale
  deriving DecidableEq

namespace FactsValidity

def error : FactsValidity → PoolError E
  | .eligible => .invariant
  | .reversed => .clockReversed
  | .expired => .connectionExpired
  | .stale => .connectionStale

def quarantineReason : FactsValidity → QuarantineReason
  | .eligible => .invalidReuseProof
  | .reversed | .expired | .stale => .expired

end FactsValidity

def factsValidity (facts : ConnectionFacts) (now : ℕ) (config : PoolConfig) : FactsValidity :=
  if facts.lastUsedAt < facts.createdAt ∨ now < facts.createdAt then .reversed
  else if now < facts.lastUsedAt then .reversed
  else if config.connectionTtl < now - facts.createdAt ∨
      config.idleTtl < now - facts.lastUsedAt then .expired
  else
    match facts.freshness with
    | .fresh => .eligible
    | .stale | .unknown => .stale

/-! ## Identifiers and queue -/

/-- The identifier after one that was given out. -/
def after (id : ℕ) : Option ℕ := checkedAdd u64Max id 1

def allocateConnectionId : Pooling C E ℕ := fun s =>
  match s.nextConnectionId with
  | none => .error .idExhausted s
  | some id => .ok id { s with nextConnectionId := after id }

def allocateGeneration : Pooling C E ℕ := fun s =>
  match s.nextGeneration with
  | none => .error .generationExhausted s
  | some id => .ok id { s with nextGeneration := after id }

def allocateRequestId : Pooling C E ℕ := fun s =>
  match s.nextRequestId with
  | none => .error .idExhausted s
  | some id => .ok id { s with nextRequestId := after id }

def ensureOpen : Pooling C E Unit := check fun s =>
  match s.state with
  | .opened => .ok ()
  | .draining => .error .shuttingDown
  | .closed => .error .closed
  | .poisoned => .error .poisoned

def ensureNotClosed : Pooling C E Unit := check fun s =>
  match s.state with
  | .closed => .error .closed
  | .poisoned => .error .poisoned
  | .opened | .draining => .ok ()

section

variable (permit : ConnectPermit) (cleanup : Cleanup C E) (key : PoolKey) (ticket : AcquireTicket)
  (index : ℕ) (token : LeaseToken) (disposition : LeaseDisposition) (entry : ConnectionEntry C)
  (connectionId now : ℕ)

def enqueue : Pooling C E AcquireTicket := fun s =>
  if s.config.maxQueue ≤ s.waiters.length then .error .queueFull s
  else
    match allocateRequestId s with
    | .error e s => .error e s
    | .ok id s =>
      let ticket : AcquireTicket := ⟨id, key⟩
      .ok ticket ({ s with waiters := s.waiters ++ [ticket] }.emit (.queued ticket))

/-- The granted ticket leaves the front of the queue. -/
def grant (s : PoolInner C) : PoolInner C :=
  { s with waiters := s.waiters.tail }.emit (.granted ticket)

/-! ## Slots -/

/-- The loop of `take_idle` over the slots. -/
def takeIdleFrom (key : PoolKey) (now : ℕ) : List ℕ → Pooling C E (Option ℕ)
  | [], s => .ok none s
  | index :: rest, s =>
    match s.slots[index]? with
    | some (.occupied entry) =>
      if entry.key ≠ key ∨ entry.state ≠ .idle then takeIdleFrom key now rest s
      else
        let validity := factsValidity entry.facts now s.config
        let quarantined := s.setSlot index
          (.occupied { entry with state := .quarantined validity.quarantineReason false })
        if validity = .eligible then .ok (some index) s
        else if validity = .reversed then .error validity.error quarantined
        else takeIdleFrom key now rest quarantined
    | _ => takeIdleFrom key now rest s

def takeIdle : Pooling C E (Option ℕ) := fun s => takeIdleFrom key now (List.range s.slots.length) s

/-- `reserve_slot`; the sums of the counts do not overflow, since there are at most 1024 slots. -/
def reserveSlot : Pooling C E Reservation := fun s =>
  if s.config.maxGlobalLive ≤ s.live + s.connecting then .error .capacityFull s
  else if s.config.maxRouteLive ≤ s.routeUsed key then .error .routeCapacityFull s
  else
    match s.slots.findIdx? Slot.isVacant with
    | none => .error .invariant s
    | some index =>
      match allocateConnectionId s with
      | .error e s => .error e s
      | .ok connectionId s =>
        match allocateGeneration s with
        | .error e s => .error e s
        | .ok generation s =>
          let reservation : Reservation := ⟨connectionId, generation, key⟩
          .ok reservation (s.setSlot index (.connecting reservation))

def leaseIdle : Pooling C E LeaseToken := fun s =>
  match allocateGeneration s with
  | .error e s => .error e s
  | .ok generation s =>
    match s.slots[index]? with
    | some (.occupied entry) =>
      if entry.state ≠ .idle then .error .leaseInvalid s
      else
        let entry := { entry with state := .leased, generation }
        .ok entry.token ((s.setSlot index (.occupied entry)).emit (.leased entry.token))
    | _ => .error .invariant s

/-- The lease of a connection that was assigned to a ticket, with `set_leased_generation`. -/
def leaseAssigned (ticket : AcquireTicket) : Pooling C E LeaseToken := fun s =>
  match allocateGeneration s with
  | .error e s => .error e s
  | .ok generation s =>
    match s.slots[index]? with
    | some (.occupied entry) =>
      if entry.key ≠ ticket.key ∨ entry.state ≠ .assigned ticket.id then .error .leaseInvalid s
      else
        let entry := { entry with state := .leased, generation }
        .ok entry.token ((s.setSlot index (.occupied entry)).emit (.leased entry.token))
    | _ => .error .invariant s

/-! ## Acquisition -/

inductive AcquireState
  | reused (slot : ℕ) (token : LeaseToken)
  | connect (permit : ConnectPermit)
  | queued (ticket : AcquireTicket)

inductive PollState
  | waiting
  | reused (slot : ℕ) (token : LeaseToken)
  | connect (permit : ConnectPermit)

/-- A new connection is reserved and its permit given out, unless there is no room. -/
def connectRoom (taken : PoolInner C → PoolInner C) : Pooling C E (Option ConnectPermit) := fun s =>
  match reserveSlot key s with
  | .error .capacityFull s | .error .routeCapacityFull s => .ok none s
  | .error e s => .error e s
  | .ok reservation s =>
    match s.findConnecting reservation.connectionId with
    | none => .error .invariant s
    | some slot =>
      .ok (some ⟨slot, reservation⟩) (taken { s with permits := ⟨slot, reservation⟩ :: s.permits })

/-- `acquire_state` with an empty queue, and the permit or the lease of its caller. -/
def acquireFree : Pooling C E AcquireState := do
  match ← takeIdle key now with
  | some slot =>
    let token ← leaseIdle slot
    modify (·.emit .direct)
    return .reused slot token
  | none =>
    match ← connectRoom key (·.emit .direct) with
    | some permit => return .connect permit
    | none => return .queued (← enqueue key)

/-- `acquire_state`. -/
def acquire : Pooling C E AcquireState := do
  ensureOpen
  let _ ← takeIdle key now
  if (← get).waiters = [] then acquireFree key now else return .queued (← enqueue key)

/-- `poll_state` of the ticket at the front of the queue. -/
def pollFront : Pooling C E PollState := do
  let _ ← takeIdle ticket.key now
  match (← get).findAssigned ticket with
  | some slot =>
    let token ← leaseAssigned slot ticket
    modify (grant ticket)
    return .reused slot token
  | none =>
    match ← takeIdle ticket.key now with
    | some slot =>
      let token ← leaseIdle slot
      modify (grant ticket)
      return .reused slot token
    | none =>
      match ← connectRoom ticket.key (grant ticket) with
      | some permit => return .connect permit
      | none => return .waiting

/-- `poll_state`. -/
def poll : Pooling C E PollState := do
  ensureOpen
  match (← get).waiters.findIdx? (· = ticket) with
  | none => throw .ticketInvalid
  | some 0 => pollFront ticket now
  | some (_ + 1) => return .waiting

/-- A connection that was handed to a withdrawn ticket is idle again if there is room. -/
def unassign (s : PoolInner C) : EStateM.Result (PoolError E) (PoolInner C) Unit :=
  match s.findAssigned ticket with
  | none => .ok () s
  | some index =>
    match s.slots[index]? with
    | some (.occupied entry) =>
      let state := if s.idleCapacityAvailable ticket.key then .idle
        else .quarantined .idleCapacity false
      .ok () (s.setSlot index (.occupied { entry with state }))
    | _ => .error .invariant s

/-- `cancel` of the ticket at a place in the queue. -/
def withdraw : Pooling C E Unit := fun s =>
  let s := { s with waiters := s.waiters.eraseIdx index }.emit (.withdrawn ticket)
  match checkedAdd usizeMax s.cancelledWaiters 1 with
  | none => .error .invariant s
  | some cancelledWaiters => unassign ticket { s with cancelledWaiters }

def cancel : Pooling C E Unit := do
  ensureNotClosed
  match (← get).waiters.findIdx? (· = ticket) with
  | none => throw .ticketInvalid
  | some index => withdraw ticket index

/-! ## Permits -/

/-- The permit of a call that consumes it. -/
def consume (s : PoolInner C) : PoolInner C :=
  { s with permits := s.permits.erase permit }

/-- `complete_connection`, and the lease of its caller; the connection belongs to the pool from
here on. -/
def complete (connection : C) (facts : ConnectionFacts) (now : ℕ) :
    Pooling C E LeaseToken := fun s =>
  let s := (consume permit s).emit (.handed permit.reservation.connectionId connection)
  match s.slots[permit.slot]? with
  | none => .error .invariant s
  | some (.connecting current) =>
    if current = permit.reservation then
      let entry : ConnectionEntry C :=
        ⟨current.connectionId, current.generation, current.key, facts, .leased, connection⟩
      let validity := factsValidity facts now s.config
      if validity ≠ .eligible then
        .error validity.error (s.setSlot permit.slot
          (.occupied { entry with state := .quarantined validity.quarantineReason false }))
      else
        .ok entry.token ((s.setSlot permit.slot (.occupied entry)).emit (.leased entry.token))
    else .error .leaseInvalid s
  | some _ => .error .leaseInvalid s

/-- `cancel_reservation`, called by `ConnectPermit::cancel` and by the drop of a permit. -/
def cancelReservation : Pooling C E Unit := fun s =>
  let s := consume permit s
  match s.slots[permit.slot]? with
  | none => .error .invariant s
  | some (.connecting current) =>
    if current = permit.reservation then .ok () (s.setSlot permit.slot .vacant)
    else .error .leaseInvalid s
  | some _ => .error .leaseReleased s

/-! ## Leases -/

inductive ReleaseOutcome
  | idle
  | assigned (ticket : AcquireTicket)
  | closed
  | quarantined (connectionId : ℕ)

/-- `put_quarantine`, where the slot is known to exist. -/
def putQuarantine (reason : QuarantineReason) (s : PoolInner C) : PoolInner C :=
  s.setSlot index (.occupied { entry with state := .quarantined reason false })

/-- The single cleanup of a connection whose slot has been vacated. -/
def tryCleanup : Pooling C E Unit := fun s =>
  match cleanup entry.connectionId entry.connection with
  | .ok () => .ok () (s.emit (.cleaned entry.connectionId entry.connection))
  | .error (connection, error) =>
    .error (.cleanup entry.connectionId error)
      (({ s with state := .poisoned }.setSlot index
        (.occupied { entry with state := .quarantined .cleanupFailure true, connection })).emit
        (.failed entry.connectionId connection))

/-- A connection with a valid proof goes to the front of the queue or becomes idle. -/
def returnConnection : Pooling C E ReleaseOutcome :=
  fun s =>
  match s.waiters.head?.filter (·.key = entry.key) with
  | some ticket =>
    .ok (.assigned ticket) (s.setSlot index (.occupied { entry with state := .assigned ticket.id }))
  | none =>
    if s.idleCapacityAvailable entry.key then
      .ok .idle (s.setSlot index (.occupied { entry with state := .idle }))
    else
      .ok (.quarantined entry.connectionId) (putQuarantine index entry .idleCapacity s)

/-- `release_lease` with a reuse proof, for an entry taken from its slot. -/
def releaseReuse (proof : ReuseProof) (now : ℕ) : Pooling C E ReleaseOutcome := fun s =>
  let validity := factsValidity proof.facts now s.config
  if proof.token ≠ entry.token then
    .error .invalidReuseProof (putQuarantine index entry .invalidReuseProof s)
  else if s.state ≠ .opened then
    .error .shuttingDown (putQuarantine index entry .shutdown s)
  else if validity ≠ .eligible then
    .error validity.error (putQuarantine index entry validity.quarantineReason s)
  else
    match allocateGeneration s with
    | .error e s => .error e (putQuarantine index entry .invalidReuseProof s)
    | .ok generation s =>
      returnConnection index { entry with facts := proof.facts, generation } s

def releaseLease (cleanup : Cleanup C E) : Pooling C E ReleaseOutcome := fun s =>
  match s.names index token with
  | none => .error .leaseInvalid s
  | some entry =>
    let s := (s.setSlot index .vacant).emit (.ended token)
    match disposition with
    | .reuse proof => releaseReuse index entry proof now s
    | .quarantine reason =>
      .ok (.quarantined token.connectionId) (putQuarantine index entry reason s)
    | .close =>
      match tryCleanup cleanup index entry s with
      | .ok _ s => .ok .closed s
      | .error e s => .error e s

def abandonLease (s : PoolInner C) : PoolInner C :=
  match s.names index token with
  | none => s
  | some entry => putQuarantine index entry .dropped (s.emit (.ended token))

/-- `Lease::finalize`. -/
def finalize (cleanup : Cleanup C E) : Pooling C E ReleaseOutcome := fun s =>
  match releaseLease index token disposition now cleanup s with
  | .ok outcome s => .ok outcome s
  | .error e s => .error e (abandonLease index token s)

/-! ## Quarantine and shutdown -/

/-- `finalize_quarantine_slot`; a slot that was taken out is vacant while its cleanup runs. -/
def finalizeQuarantineSlot : Pooling C E Unit := fun s =>
  match s.slots[index]? with
  | none => .error .invariant s
  | some (.occupied entry) =>
    match entry.state with
    | .quarantined _ true => .error .cleanupAlreadyAttempted s
    | .quarantined _ false => tryCleanup cleanup index entry (s.setSlot index .vacant)
    | _ => .error .leaseInvalid s
  | some _ => .error .leaseInvalid s

def finalizeConnection (cleanup : Cleanup C E) : Pooling C E Unit := do
  match (← get).findSlot connectionId with
  | none => throw .leaseInvalid
  | some index => finalizeQuarantineSlot cleanup index

def quarantineConnection (reason : QuarantineReason) : Pooling C E Unit :=
  fun s =>
  match s.findSlot connectionId with
  | none => .error .leaseInvalid s
  | some index =>
    match s.slots[index]? with
    | some (.occupied entry) =>
      match entry.state with
      | .leased => .error .leaseInvalid s
      | .quarantined _ true => .error .cleanupAlreadyAttempted s
      | _ => .ok () (putQuarantine index entry reason s)
    | _ => .error .leaseInvalid s

/-- What a shutdown does to a slot. -/
def Slot.shut : Slot C → Slot C
  | .vacant => .vacant
  | .connecting _ => .vacant
  | .occupied entry =>
    match entry.state with
    | .idle | .assigned _ => .occupied { entry with state := .quarantined .shutdown false }
    | .leased | .quarantined _ _ => .occupied entry

/-- `shutdown`; its counts of slots are left out. -/
def shutdown : Pooling C E Unit := fun s =>
  match s.state with
  | .draining => .error .shuttingDown s
  | .closed => .error .closed s
  | .poisoned => .error .poisoned s
  | .opened =>
    let count := s.waiters.length
    let s := { s with
      state := .draining
      waiters := []
      log := s.log ++ s.waiters.map .withdrawn ++ [.shut] }
    match checkedAdd usizeMax s.cancelledWaiters count with
    | none => .error .invariant s
    | some cancelledWaiters =>
      .ok () { s with
        cancelledWaiters
        shutdownCancelledWaiters := some count
        slots := s.slots.map Slot.shut }

/-- The loop of `finalize_shutdown` over the slots. -/
def finalizeFrom (cleanup : Cleanup C E) : List ℕ → Pooling C E Unit
  | [], s => .ok () s
  | index :: rest, s =>
    if (s.slots[index]?).any Slot.isQuarantined then
      match finalizeQuarantineSlot cleanup index s with
      | .ok _ s => finalizeFrom cleanup rest s
      | .error e s => .error e s
    else finalizeFrom cleanup rest s

/-- `finalize_shutdown`; its report is left out. -/
def finalizeShutdown : Pooling C E Unit := fun s =>
  match s.state with
  | .opened => .error .shuttingDown s
  | .closed => .error .closed s
  | .poisoned => .error .poisoned s
  | .draining =>
    if s.slots.any Slot.isLeased then .error .shutdownPending s
    else
      match finalizeFrom cleanup (List.range s.slots.length) s with
      | .error e s => .error e s
      | .ok _ s =>
        if s.live ≠ 0 ∨ s.connecting ≠ 0 then .error .shutdownPending s
        else .ok () { s with state := .closed }

end

/-! ## Runs -/

/-- A call of the pool, of a permit or of a lease.  The token of a lease may be stale. -/
inductive Act (C E : Type)
  | acquire (key : PoolKey) (now : ℕ)
  | poll (ticket : AcquireTicket) (now : ℕ)
  | cancel (ticket : AcquireTicket)
  | complete (permit : ConnectPermit) (connection : C) (facts : ConnectionFacts) (now : ℕ)
  | cancelPermit (permit : ConnectPermit)
  | finalize (slot : ℕ) (token : LeaseToken) (disposition : LeaseDisposition) (now : ℕ)
    (cleanup : Cleanup C E)
  | dropLease (slot : ℕ) (token : LeaseToken)
  | quarantineConnection (connectionId : ℕ) (reason : QuarantineReason)
  | finalizeConnection (connectionId : ℕ) (cleanup : Cleanup C E)
  | shutdown
  | finalizeShutdown (cleanup : Cleanup C E)

/-- The state after a call, whether it fails or not. -/
def final : EStateM.Result (PoolError E) (PoolInner C) α → PoolInner C
  | .ok _ s => s
  | .error _ s => s

/-- A call of a permit needs a permit that has been given out and not been used. -/
def step (s : PoolInner C) : Act C E → PoolInner C
  | .acquire key now => final (E := E) (acquire key now s)
  | .poll ticket now => final (E := E) (poll ticket now s)
  | .cancel ticket => final (E := E) (cancel ticket s)
  | .complete permit connection facts now =>
    if permit ∈ s.permits then final (E := E) (complete permit connection facts now s) else s
  | .cancelPermit permit =>
    if permit ∈ s.permits then final (E := E) (cancelReservation permit s) else s
  | .finalize slot token disposition now cleanup =>
    final (finalize slot token disposition now cleanup s)
  | .dropLease slot token => abandonLease slot token s
  | .quarantineConnection connectionId reason =>
    final (E := E) (quarantineConnection connectionId reason s)
  | .finalizeConnection connectionId cleanup => final (finalizeConnection connectionId cleanup s)
  | .shutdown => final (E := E) (shutdown s)
  | .finalizeShutdown cleanup => final (finalizeShutdown cleanup s)

def run (config : PoolConfig) (acts : List (Act C E)) : PoolInner C := acts.foldl step (.new config)

theorem run_concat (config : PoolConfig) (acts : List (Act C E)) (act : Act C E) :
    run config (acts ++ [act]) = step (run config acts) act := List.foldl_append

end JmeterRs.Pool
