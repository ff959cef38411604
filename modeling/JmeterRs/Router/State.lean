import JmeterRs.Router.Route

/-!
# The state of the result router

The queues of the sinks behind the router's mutex, and the methods that take the mutex once:
admission, the end of admission, and cancellation.  What has happened so far is kept in `log`.
-/

namespace JmeterRs.Router

open Execution (SampleEvent SampleResult)

inductive RouterPhase
  | new
  | started
  | admissionStopped
  | draining
  | flushed
  | finished
  | cancelled
  | failed
  deriving DecidableEq

inductive RouterError
  | invalidConfiguration (detail : String)
  | invalidState (phase : RouterPhase) (operation : String)
  | sink (sinkId : ℕ) (operation : String) (source : SinkError)
  | cancelled (pendingItems pendingBytes : ℕ)
  | combined (primary secondary : RouterError)
  deriving DecidableEq

inductive AdmissionOutcome
  | ignored
  | accepted (sequence bytes selectedSinks : ℕ)
  | full (sinkId bytes : ℕ)
  | closed
  | cancelled
  | failed (sinkId : ℕ) (error : SinkError)
  | failedWithoutSink (error : SinkError)
  deriving DecidableEq

structure SinkLimits where
  maxItems : ℕ
  maxBytes : ℕ

structure SinkSpec where
  id : ℕ
  limits : SinkLimits
  route : ListenerRoutePolicy

structure QueuedEnvelope (Data : Type) where
  envelope : ResultEnvelope Data
  bytes : ℕ

structure SinkState (Data : Type) where
  spec : SinkSpec
  started : Bool
  flushCalled : Bool
  finishCalled : Bool
  cancelCalled : Bool
  queue : List (QueuedEnvelope Data)
  queuedBytes : ℕ
  failed : Option SinkError

/-- The calls of a sink other than `write`. -/
inductive SinkOperation
  | start
  | flush
  | finish
  | cancel
  deriving DecidableEq

/-- What has happened: an event was accepted for the sinks at some positions, a sink was called,
an envelope was given to a sink by a delivery, a sink was marked as failed, a `finish` returned
`Ok`. -/
inductive RouterEvent
  | accepted (sequence : ℕ) (selected : List ℕ)
  | called (sink : ℕ) (operation : SinkOperation)
  | wrote (delivery sink sequence : ℕ)
  | failed (sink : ℕ)
  | finished
  deriving DecidableEq

structure RouterState (Data : Type) where
  phase : RouterPhase
  nextSequence : ℕ
  nextSample : ℕ
  sinks : List (SinkState Data)
  startupActive : Bool
  deliveryActive : Bool
  dropError : Option RouterError
  admittedEvents : ℕ
  filteredRoutes : ℕ
  ignoredEvents : ℕ
  deliveredItems : ℕ
  terminalDrops : ℕ
  log : List RouterEvent

section

variable {Data : Type}

def newSink (spec : SinkSpec) : SinkState Data := ⟨spec, false, false, false, false, [], 0, none⟩

namespace RouterState

def emit (s : RouterState Data) (event : RouterEvent) : RouterState Data :=
  { s with log := s.log ++ [event] }

def modifySink (s : RouterState Data) (index : ℕ) (f : SinkState Data → SinkState Data) :
    RouterState Data :=
  { s with sinks := s.sinks.modify index f }

def sinkId (s : RouterState Data) (index : ℕ) : ℕ := (s.sinks[index]?).elim 0 (·.spec.id)

/-- A router with these sinks on which nothing has been called. -/
def initial (specs : List SinkSpec) : RouterState Data where
  phase := .new
  nextSequence := 1
  nextSample := 1
  sinks := specs.map newSink
  startupActive := false
  deliveryActive := false
  dropError := none
  admittedEvents := 0
  filteredRoutes := 0
  ignoredEvents := 0
  deliveredItems := 0
  terminalDrops := 0
  log := []

end RouterState

/-! ## Admission -/

/-- The phases in which nothing is admitted. -/
def admissionClosed (s : RouterState Data) : Option AdmissionOutcome :=
  match s.phase with
  | .started => none
  | .cancelled => some .cancelled
  | .failed =>
    match s.sinks.findSome? fun sink => sink.failed.map (sink.spec.id, ·) with
    | some (sinkId, error) => some (.failed sinkId error)
    | none => some .closed
  | .new | .admissionStopped | .draining | .flushed | .finished => some .closed

/-- The loop over the sinks that are left; gives the positions of the selected ones and how many
are enabled. -/
def selectSinks (ops : ResultOps Data) (event : SampleEvent Data) (metadata : ResultEventMetadata) :
    ℕ → ℕ → List ℕ → List (SinkState Data) → Except AdmissionOutcome (List ℕ × ℕ)
  | _, enabledSinks, selected, [] => .ok (selected, enabledSinks)
  | index, enabledSinks, selected, sink :: rest =>
    if !sink.spec.route.enabled then
      selectSinks ops event metadata (index + 1) enabledSinks selected rest
    else
      match checkedAdd usizeMax enabledSinks 1 with
      | none =>
        .error (.failedWithoutSink
          (.resourceLimit (ops.boundedText "result listener counter exhausted")))
      | some enabledSinks =>
        match sink.spec.route.matchesMetadata ops event metadata with
        | .error error => .error (.failedWithoutSink error)
        | .ok false => selectSinks ops event metadata (index + 1) enabledSinks selected rest
        | .ok true =>
          match sink.failed with
          | some error => .error (.failed sink.spec.id error)
          | none =>
            selectSinks ops event metadata (index + 1) enabledSinks (selected ++ [index]) rest

/-- Every selected sink has to have room before any of them gets the event. -/
def checkCapacity (ops : ResultOps Data) (sinks : List (SinkState Data)) (bytes : ℕ) :
    List ℕ → Except AdmissionOutcome Unit
  | [] => .ok ()
  | index :: rest =>
    match sinks[index]? with
    | none => checkCapacity ops sinks bytes rest
    | some sink =>
      match checkedAdd usizeMax sink.queuedBytes bytes with
      | none =>
        .error (.failedWithoutSink
          (.resourceLimit (ops.boundedText "result queue byte accounting overflow")))
      | some queuedBytes =>
        if sink.spec.limits.maxItems ≤ sink.queue.length ∨
            sink.spec.limits.maxBytes < queuedBytes then
          .error (.full sink.spec.id bytes)
        else checkCapacity ops sinks bytes rest

/-- `Option::ok_or` with a resource limit of the run. -/
def orExhausted {α : Type} (ops : ResultOps Data) (value : Option α) (message : String) :
    Except AdmissionOutcome α :=
  match value with
  | some value => .ok value
  | none => .error (.failedWithoutSink (.resourceLimit (ops.boundedText message)))

/-- The sample identity of an event and the next one to assign. -/
def sampleIdentity (s : RouterState Data) (sample : ℕ) : Option (ℕ × ℕ) :=
  if sample = 0 then (checkedAdd u64Max s.nextSample 1).map (s.nextSample, ·)
  else (checkedAdd u64Max sample 1).map fun next => (sample, max s.nextSample next)

/-- What an accepted event changes. -/
structure Admission (Data : Type) where
  selected : List ℕ
  envelope : ResultEnvelope Data
  nextSequence : ℕ
  nextSample : ℕ
  admittedEvents : ℕ
  filteredRoutes : ℕ

/-- The part of admission that changes nothing yet. -/
def prepare (ops : ResultOps Data) (run : String) (event : SampleEvent Data)
    (metadata : ResultEventMetadata) (s : RouterState Data) :
    Except AdmissionOutcome (Admission Data) := do
  let (selected, enabledSinks) ← selectSinks ops event metadata 0 0 [] s.sinks
  let bytes ← orExhausted ops (checkedEventBytes ops event metadata.planPath.length)
    "result byte accounting overflow"
  let admittedEvents ← orExhausted ops (checkedAdd usizeMax s.admittedEvents 1)
    "result admission counter exhausted"
  let filteredRoutes ← orExhausted ops
    (checkedAdd usizeMax s.filteredRoutes (enabledSinks - selected.length))
    "result filter counter exhausted"
  checkCapacity ops s.sinks bytes selected
  let nextSequence ← orExhausted ops (checkedAdd u64Max s.nextSequence 1) "run sequence exhausted"
  let (sample, nextSample) ← orExhausted ops (sampleIdentity s metadata.sample)
    "sample identity exhausted"
  match newEnvelope ops s.nextSequence sample run metadata event with
  | .error detail =>
    .error (.failedWithoutSink
      (.failed (ops.boundedText ("runtime.result-router.configuration: " ++ detail))))
  | .ok envelope =>
    return ⟨selected, envelope, nextSequence, nextSample, admittedEvents, filteredRoutes⟩

/-- Puts an envelope into the queues of the selected sinks; `false` if the bytes of one overflow. -/
def enqueue (envelope : ResultEnvelope Data) :
    List ℕ → RouterState Data → Bool × RouterState Data
  | [], s => (true, s)
  | index :: rest, s =>
    match s.sinks[index]? with
    | none => enqueue envelope rest s
    | some sink =>
      match checkedAdd usizeMax sink.queuedBytes envelope.byteSize with
      | none => (false, s)
      | some queuedBytes =>
        enqueue envelope rest (s.modifySink index fun sink =>
          { sink with
            queuedBytes
            queue := sink.queue ++ [⟨envelope, envelope.byteSize⟩] })

/-- The part of admission that changes the state. -/
def commitAdmission (ops : ResultOps Data) (admission : Admission Data) (s : RouterState Data) :
    AdmissionOutcome × RouterState Data :=
  let envelope := admission.envelope
  match enqueue envelope admission.selected { s with
    nextSequence := admission.nextSequence
    nextSample := admission.nextSample
    admittedEvents := admission.admittedEvents
    filteredRoutes := admission.filteredRoutes } with
  | (false, s) =>
    (.failedWithoutSink
      (.resourceLimit (ops.boundedText "result queue byte accounting overflow")), s)
  | (true, s) =>
    (.accepted envelope.sequence envelope.byteSize admission.selected.length,
      s.emit (.accepted envelope.sequence admission.selected))

/-- `ResultRouter::admit`. -/
def admitEvent (ops : ResultOps Data) (run : String) (event : SampleEvent Data)
    (metadata : ResultEventMetadata) (s : RouterState Data) :
    AdmissionOutcome × RouterState Data :=
  match admissionClosed s with
  | some outcome => (outcome, s)
  | none =>
    match ops.validate event.result with
    | .error source =>
      (.failedWithoutSink (.failed (ops.boundedText
        ("result event exceeds runtime hierarchy limits: " ++ source))), s)
    | .ok () =>
      if event.result.flags.ignored then
        match checkedAdd usizeMax s.ignoredEvents 1 with
        | none =>
          (.failedWithoutSink
            (.resourceLimit (ops.boundedText "result ignored counter exhausted")), s)
        | some ignoredEvents => (.ignored, { s with ignoredEvents })
      else
        match prepare ops run event metadata s with
        | .error outcome => (outcome, s)
        | .ok admission => commitAdmission ops admission s

def stopAdmission (s : RouterState Data) : Except RouterError Unit × RouterState Data :=
  match s.phase with
  | .started => (.ok (), { s with phase := .admissionStopped })
  | .admissionStopped | .draining | .flushed | .finished | .failed => (.ok (), s)
  | .new | .cancelled => (.error (.invalidState s.phase "stop-admission"), s)

/-! ## Cancellation -/

/-- What a sink answers to a call. -/
abbrev Reply := Except SinkError Unit

def combineErrors (primary : RouterError) (secondary : Option RouterError) : RouterError :=
  match secondary with
  | some secondary => .combined primary secondary
  | none => primary

def combineErrorSlot (slot : Option RouterError) (error : RouterError) : Option RouterError :=
  some (match slot with
    | some primary => .combined primary error
    | none => error)

/-- The sinks that a cancellation reaches. -/
def cancelTargets (s : RouterState Data) : List ℕ :=
  (List.range s.sinks.length).filter fun index =>
    (s.sinks[index]?).any fun sink => sink.started && !sink.cancelCalled

/-- The first block of `cancel_inner`: everything that is queued is released. -/
def releaseAll (s : RouterState Data) : RouterState Data :=
  let released := s.sinks.foldlM (fun total sink => checkedAdd usizeMax total sink.queue.length) 0
  { s with
    phase := if s.phase = .failed then .failed else .cancelled
    startupActive := false
    deliveryActive := false
    terminalDrops := (released.bind (checkedAdd usizeMax s.terminalDrops)).getD s.terminalDrops
    sinks := s.sinks.map fun sink =>
      { sink with
        queue := []
        queuedBytes := 0
        cancelCalled := sink.cancelCalled || sink.started }
    log := s.log ++ (cancelTargets s).map (.called · .cancel) }

/-- What a cancellation reports before the sinks are cancelled. -/
def releaseError (s : RouterState Data) : Option RouterError :=
  let pendingItems := (s.sinks.map (·.queue.length)).foldl max 0
  let pendingBytes := (s.sinks.map (·.queuedBytes)).foldl max 0
  let released := s.sinks.foldlM (fun total sink => checkedAdd usizeMax total sink.queue.length) 0
  match released.bind (checkedAdd usizeMax s.terminalDrops) with
  | none => some (.invalidConfiguration "result terminal-drop counter exhausted")
  | some _ =>
    if 0 < pendingItems ∨ 0 < pendingBytes then some (.cancelled pendingItems pendingBytes)
    else none

def RouterError.isCancelled : RouterError → Bool
  | .cancelled .. => true
  | _ => false

/-- `cancel_inner`; `cancels` is what the sinks answer. -/
def cancelInner (cancels : ℕ → Reply) (s : RouterState Data) :
    Except RouterError Unit × RouterState Data :=
  if s.phase = .finished ∨ s.phase = .cancelled then (.ok (), s)
  else
    let failure := (cancelTargets s).foldl (fun failure index =>
      match cancels index with
      | .ok () => failure
      | .error source => combineErrorSlot failure (.sink (s.sinkId index) "cancel" source))
      (releaseError s)
    let s := releaseAll s
    match failure with
    | none => (.ok (), s)
    | some error =>
      (.error error,
        { s with
          dropError := some error
          phase := if error.isCancelled then s.phase else .failed })

end

end JmeterRs.Router
