import Mathlib.Logic.Function.Iterate
import JmeterRs.Router.State

/-!
# The futures of the result router

`start`, `deliver`, `drain`, `flush` and `finish` return futures.  A future runs from one call of a
sink to the next without interruption; between two calls it waits, and anything else may happen.
`Await` is where a future waits, with its local variables.
-/

namespace JmeterRs.Router

open SinkState

open Execution (SampleEvent SampleResult)

/-- Who runs `deliver_queued`; a `finish` that drains has seen some errors already. -/
inductive Caller
  | deliver
  | drain
  | finish (failure : Option RouterError)
  deriving DecidableEq

/-- Who runs `flush`. -/
inductive FlushCaller
  | flush
  | finish (failure : Option RouterError)
  deriving DecidableEq

/-- The call of a sink that a future waits for. -/
inductive Await
  | starting (index : ℕ)
  | rollingBack (index : ℕ) (primary : RouterError) (failure : Option RouterError)
  | writing (caller : Caller) (sequence index : ℕ) (failure : Option RouterError)
  | flushing (caller : FlushCaller) (index : ℕ) (failure : Option RouterError)
  | finishing (index : ℕ) (failure : Option RouterError)
  deriving DecidableEq

inductive Poll
  | pending (await : Await)
  | ready (result : Except RouterError Unit)

section

variable {Data : Type}

/-- What a future does until it waits or returns. -/
abbrev Piece (Data : Type) := Poll × RouterState Data

/-- The first sink from `index` on with a property. -/
def nextSink (p : SinkState Data → Bool) (s : RouterState Data) (index : ℕ) : Option ℕ :=
  ((List.range s.sinks.length).drop index).find? fun i => (s.sinks[i]?).any p

section

variable (sink : SinkState Data) (caller : FlushCaller) (delivery : ℕ)
  (failure : Option RouterError) (index : ℕ) (source : SinkError) (s : RouterState Data)

/-! ## Start -/

def startEnd : Piece Data :=
  if s.phase ≠ .new then
    (.ready (.error (.invalidState s.phase "start")), { s with startupActive := false })
  else (.ready (.ok ()), { s with startupActive := false, phase := .started })

/-- The loop over the sinks from `index` on. -/
def startNext : Piece Data :=
  if index < s.sinks.length then
    if s.phase ≠ .new ∨ !s.startupActive then
      (.ready (.error (.invalidState s.phase "start")), { s with startupActive := false })
    else
      match nextSink (·.spec.route.enabled) s index with
      | some index => (.pending (.starting index), s.emit (.called index .start))
      | none => startEnd s
  else startEnd s

def start (s : RouterState Data) : Piece Data :=
  if s.phase ≠ .new ∨ s.startupActive then
    (.ready (.error (.invalidState s.phase "start")), s)
  else startNext 0 { s with startupActive := true }

/-- A sink that `finish` and `finish_started_sinks` have still to call. -/
def SinkState.unfinished : Bool := sink.started && !sink.finishCalled

def callFinish : RouterState Data :=
  (s.modifySink index fun sink => { sink with finishCalled := true }).emit (.called index .finish)

/-- `finish_started_sinks` from `index` on, and the end of the failed start. -/
def rollbackNext (primary : RouterError) (failure : Option RouterError) (index : ℕ)
    (s : RouterState Data) : Piece Data :=
  match nextSink unfinished s index with
  | some index => (.pending (.rollingBack index primary failure), callFinish index s)
  | none =>
    (.ready (.error (combineErrors primary failure)),
      { s with
        phase := if s.phase = .new then .failed else s.phase
        startupActive := false })

def rolledBack (primary : RouterError) (failure : Option RouterError) (reply : Reply)
    (s : RouterState Data) : Piece Data :=
  match reply with
  | .ok () => rollbackNext primary failure (index + 1) s
  | .error source =>
    rollbackNext primary
      (combineErrorSlot failure (.sink (s.sinkId index) "rollback-finish" source)) (index + 1) s

/-- `sink.start()` has returned.  If the router has been cancelled meanwhile, the sink is cancelled
here, and `cancelReply` is its answer. -/
def sinkStarted (reply cancelReply : Reply) (s : RouterState Data) : Piece Data :=
  match reply with
  | .ok () =>
    if s.phase ≠ .new ∨ !s.startupActive then
      let cancel := match cancelReply with
        | .ok () => none
        | .error source => some (.sink (s.sinkId index) "cancel-after-start-race" source)
      (.ready (.error (combineErrors (.invalidState s.phase "start") cancel)),
        { s.modifySink index fun sink => { sink with cancelCalled := true } with
          startupActive := false }.emit (.called index .cancel))
    else startNext (index + 1) (s.modifySink index fun sink => { sink with started := true })
  | .error source => rollbackNext (.sink (s.sinkId index) "start" source) none 0 s

/-! ## Finish -/

def finishEnd : Piece Data :=
  if s.phase = .cancelled then
    (.ready (.error (failure.getD (.invalidState .cancelled "finish"))), s)
  else
    match failure with
    | some error => (.ready (.error error), { s with phase := .failed })
    | none =>
      let phase : RouterPhase := if s.phase = .failed then .failed else .finished
      (.ready (.ok ()), { s with phase }.emit .finished)

/-- The loop of `finish` over the sinks from `index` on. -/
def finishNext : Piece Data :=
  match nextSink unfinished s index with
  | some index => (.pending (.finishing index failure), callFinish index s)
  | none => finishEnd failure s

/-- A call of a sink has failed. -/
def failSink : RouterState Data :=
  (s.modifySink index fun sink => { sink with failed := some source }).emit (.failed index)

/-- `sink.finish()` has returned. -/
def sinkFinished (failure : Option RouterError) (reply : Reply) (s : RouterState Data) :
    Piece Data :=
  match reply with
  | .ok () => finishNext failure (index + 1) s
  | .error source =>
    finishNext (combineErrorSlot failure (.sink (s.sinkId index) "finish" source)) (index + 1)
      (failSink index source s)

/-- What an error of a part of `finish` adds to the errors so far. -/
def collect (result : Except RouterError Unit) : Option RouterError :=
  match result with
  | .ok () => failure
  | .error error => combineErrorSlot failure error

/-! ## Flush -/

/-- The result of a flush that does not reach the sinks. -/
def flushRefused : Option (Except RouterError Unit) :=
  if s.phase = .finished then some (.ok ())
  else
    match s.phase with
    | .admissionStopped | .draining | .flushed | .failed | .finished =>
      if s.deliveryActive then some (.error (.invalidState s.phase "flush")) else none
    | .new | .started | .cancelled => some (.error (.invalidState s.phase "flush"))

def flushEnd : Except RouterError Unit × RouterState Data :=
  if s.phase = .cancelled then
    (.error (failure.getD (.invalidState .cancelled "flush")), s)
  else
    match failure with
    | some error => (.error error, { s with phase := .failed })
    | none =>
      (.ok (),
        { s with
          phase := if s.phase = .finished ∨ s.phase = .failed then s.phase else .flushed })

def flushReturn (result : Except RouterError Unit × RouterState Data) : Piece Data :=
  match caller with
  | .flush => (.ready result.1, result.2)
  | .finish failure => finishNext (collect failure result.1) 0 result.2

/-- A sink that `flush` has still to call. -/
def SinkState.unflushed : Bool := sink.started && !sink.flushCalled && sink.failed.isNone

def callFlush : RouterState Data :=
  (s.modifySink index fun sink => { sink with flushCalled := true }).emit (.called index .flush)

/-- The loop of `flush` over the sinks from `index` on. -/
def flushNext : Piece Data :=
  match nextSink unflushed s index with
  | some index => (.pending (.flushing caller index failure), callFlush index s)
  | none => flushReturn caller (flushEnd failure s)

/-- `sink.flush()` has returned. -/
def sinkFlushed (failure : Option RouterError) (reply : Reply) (s : RouterState Data) :
    Piece Data :=
  match reply with
  | .ok () => flushNext caller failure (index + 1) s
  | .error source =>
    flushNext caller (combineErrorSlot failure (.sink (s.sinkId index) "flush" source))
      (index + 1) (failSink index source s)

def flush : Piece Data :=
  match flushRefused s with
  | some result => flushReturn caller (result, s)
  | none => flushNext caller none 0 s

/-! ## Delivery -/

/-- A sink that takes part in deliveries. -/
def SinkState.healthy : Bool := sink.spec.route.enabled && sink.failed.isNone

def SinkState.front (sink : SinkState Data) : Option ℕ := sink.queue.head?.map (·.envelope.sequence)

/-- A healthy sink that has a sequence at the front of its queue. -/
def SinkState.offers (sequence : ℕ) (sink : SinkState Data) : Bool :=
  sink.healthy && sink.front = some sequence

/-- The lowest sequence at the front of a queue of a healthy sink. -/
def lowestSequence : Option ℕ := ((s.sinks.filter healthy).filterMap front).min?

/-- The next write of a delivery at the head of its outer loop. -/
def firstWrite : Option (ℕ × ℕ) :=
  match lowestSequence s with
  | none => none
  | some sequence => (nextSink (offers sequence) s 0).map (sequence, ·)

/-- The next write of a delivery in its loop over the sinks, from `index` on. -/
def nextWrite (sequence index : ℕ) (s : RouterState Data) : Option (ℕ × ℕ) :=
  match nextSink (offers sequence) s index with
  | some index => some (sequence, index)
  | none => firstWrite s

/-- What `deliver` and `drain` return after a delivery. -/
def deliveryResult (operation : String) (failure : Option RouterError) (s : RouterState Data) :
    Except RouterError Unit :=
  if s.phase = .cancelled then .error (.invalidState .cancelled operation)
  else
    match failure with
    | some error => .error error
    | none => .ok ()

def drainEnd : RouterState Data :=
  { s with
    deliveryActive := false
    phase := if s.phase ≠ .cancelled ∧ failure = none then .admissionStopped else s.phase }

/-- The end of `deliver`, which opens admission again unless it has been stopped. -/
def deliverEnd : RouterState Data :=
  { s with
    deliveryActive := false
    phase :=
      if s.phase ≠ .cancelled ∧ failure = none ∧ s.phase ≠ .admissionStopped ∧
          s.phase ≠ .draining then .started
      else s.phase }

/-- What follows a delivery. -/
def deliveryReturn (caller : Caller) (failure : Option RouterError) (s : RouterState Data) :
    Piece Data :=
  match caller with
  | .deliver => (.ready (deliveryResult "deliver" failure s), deliverEnd failure s)
  | .drain => (.ready (deliveryResult "drain" failure s), drainEnd failure s)
  | .finish earlier =>
    flush (.finish (collect earlier (deliveryResult "drain" failure s))) (drainEnd failure s)

/-- `deliver_queued` up to its next write. -/
def deliverQueued (caller : Caller) (failure : Option RouterError) (target : Option (ℕ × ℕ))
    (s : RouterState Data) : Piece Data :=
  match target with
  | some (sequence, index) =>
    (.pending (.writing caller sequence index failure), s.emit (.wrote delivery index sequence))
  | none => deliveryReturn caller failure s

/-- A sink has refused an envelope: its queue is released. -/
def failWrite : RouterState Data :=
  let dropped := (s.sinks[index]?).elim 0 (·.queue.length)
  failSink index source
    { s.modifySink index fun sink => { sink with queue := [], queuedBytes := 0 } with
      terminalDrops := (checkedAdd usizeMax s.terminalDrops dropped).getD s.terminalDrops
      phase := .failed }

def writeFailure (failure : Option RouterError) (s : RouterState Data) : Option RouterError :=
  let dropped := (s.sinks[index]?).elim 0 (·.queue.length)
  let failure := match checkedAdd usizeMax s.terminalDrops dropped with
    | some _ => failure
    | none => combineErrorSlot failure (.sink (s.sinkId index) "write-accounting"
        (.resourceLimit "result terminal-drop counter exhausted"))
  combineErrorSlot failure (.sink (s.sinkId index) "write" source)

/-- The front of the queue of a sink is gone. -/
def popFront (item : QueuedEnvelope Data) (s : RouterState Data) : RouterState Data :=
  s.modifySink index fun sink =>
    { sink with
      queue := sink.queue.tail
      queuedBytes := sink.queuedBytes - item.bytes }

/-- `sink.write(..)` has returned. -/
def sinkWrote (caller : Caller) (sequence index : ℕ) (failure : Option RouterError) (reply : Reply)
    (s : RouterState Data) : Piece Data :=
  match reply with
  | .error source =>
    let failed := failWrite index source s
    deliverQueued delivery caller (writeFailure index source failure s)
      (nextWrite sequence (index + 1) failed) failed
  | .ok () =>
    match (s.sinks[index]?).bind (·.queue.head?) with
    | none => deliverQueued delivery caller failure (nextWrite sequence (index + 1) s) s
    | some item =>
      match checkedAdd usizeMax s.deliveredItems 1 with
      | some deliveredItems =>
        let popped := { popFront index item s with deliveredItems }
        deliverQueued delivery caller failure (nextWrite sequence (index + 1) popped) popped
      | none =>
        let popped := { popFront index item s with phase := .failed }
        deliverQueued delivery caller
          (combineErrorSlot failure (.sink (s.sinkId index) "write-accounting"
            (.resourceLimit "result delivered-item counter exhausted")))
          (firstWrite popped) popped

/-- The result of a drain that does not deliver anything. -/
def drainRefused : Option (Except RouterError Unit) :=
  match s.phase with
  | .started | .admissionStopped | .draining =>
    if s.deliveryActive then some (.error (.invalidState s.phase "drain")) else none
  | .cancelled | .new => some (.error (.invalidState s.phase "drain"))
  | .failed | .flushed | .finished => some (.ok ())

def beginDrain : RouterState Data :=
  { s with phase := .draining, deliveryActive := true }

def drain (delivery : ℕ) (s : RouterState Data) : Piece Data :=
  match drainRefused s with
  | some result => (.ready result, s)
  | none => deliverQueued delivery .drain none (firstWrite (beginDrain s)) (beginDrain s)

/-- The result of a `deliver` that does not deliver anything. -/
def deliverRefused : Option (Except RouterError Unit) :=
  match s.phase with
  | .started => if s.deliveryActive then some (.ok ()) else none
  | .draining | .failed | .cancelled | .new => some (.error (.invalidState s.phase "deliver"))
  | .admissionStopped | .flushed | .finished => some (.ok ())

def deliver (delivery : ℕ) (s : RouterState Data) : Piece Data :=
  match deliverRefused s with
  | some result => (.ready result, s)
  | none =>
    deliverQueued delivery .deliver none (firstWrite { s with deliveryActive := true })
      { s with deliveryActive := true }

def priorSinkFailures : Option RouterError :=
  s.sinks.foldl (fun failure sink =>
    match sink.failed with
    | some source => combineErrorSlot failure (.sink sink.spec.id "previous" source)
    | none => failure) none

def drainForFinish : Piece Data :=
  match drainRefused s with
  | some result => flush (.finish (collect failure result)) s
  | none => deliverQueued delivery (.finish failure) none (firstWrite (beginDrain s)) (beginDrain s)

def finish : Piece Data :=
  if s.phase = .finished then (.ready (.ok ()), s.emit .finished)
  else
    let (result, stopped) := stopAdmission s
    drainForFinish delivery (collect (priorSinkFailures s) result) stopped

end

/-! ## Interleavings -/

/-- The router, its futures that wait for a sink, and how many futures have been made. -/
structure World (Data : Type) where
  state : RouterState Data
  tasks : ℕ → Option Await
  issued : ℕ

inductive Operation
  | start
  | deliver
  | drain
  | flush
  | finish

/-- Something that happens to a router.  A future that is dropped before its first poll has done
nothing, so `call` makes a future and polls it; a poll that finds the sink still busy changes
nothing either, so `resume` comes with the answer of the sink. -/
inductive Act (Data : Type)
  | admitEvent (event : SampleEvent Data) (metadata : ResultEventMetadata)
  | stopAdmission
  | cancel (cancels : ℕ → Reply)
  | call (operation : Operation)
  | resume (task : ℕ) (reply cancelReply : Reply)
  | drop (task : ℕ) (cancels : ℕ → Reply)

def firstPoll (task : ℕ) (operation : Operation) (s : RouterState Data) : Piece Data :=
  match operation with
  | .start => start s
  | .deliver => deliver task s
  | .drain => drain task s
  | .flush => flush .flush s
  | .finish => finish task s

/-- A sink has answered a future. -/
def resume (task : ℕ) (await : Await) (reply cancelReply : Reply) (s : RouterState Data) :
    Piece Data :=
  match await with
  | .starting index => sinkStarted index reply cancelReply s
  | .rollingBack index primary failure => rolledBack index primary failure reply s
  | .writing caller sequence index failure => sinkWrote task caller sequence index failure reply s
  | .flushing caller index failure => sinkFlushed caller index failure reply s
  | .finishing index failure => sinkFinished index failure reply s

/-- How many armed drop guards a waiting future holds: `finish` has one, and the `drain` or `flush`
that it waits for has another. -/
def Await.guards : Await → ℕ
  | .writing (.finish _) .. | .flushing (.finish _) .. => 2
  | _ => 1

namespace World

def initial (specs : List SinkSpec) : World Data := ⟨.initial specs, fun _ => none, 0⟩

/-- The future `task` has run to its next call or its end. -/
def store (w : World Data) (task : ℕ) (piece : Piece Data) : World Data :=
  { w with
    state := piece.2
    tasks := Function.update w.tasks task (match piece.1 with
      | .pending await => some await
      | .ready _ => none) }

def step (ops : ResultOps Data) (run : String) (w : World Data) : Act Data → World Data
  | .admitEvent event metadata => { w with state := (admitEvent ops run event metadata w.state).2 }
  | .stopAdmission => { w with state := (stopAdmission w.state).2 }
  | .cancel cancels => { w with state := (cancelInner cancels w.state).2 }
  | .call operation =>
    { w with issued := w.issued + 1 }.store w.issued (firstPoll w.issued operation w.state)
  | .resume task reply cancelReply =>
    match w.tasks task with
    | none => w
    | some await => w.store task (Router.resume task await reply cancelReply w.state)
  | .drop task cancels =>
    match w.tasks task with
    | none => w
    | some await =>
      { w with
        state := (fun s => (cancelInner cancels s).2)^[await.guards] w.state
        tasks := Function.update w.tasks task none }

def run (ops : ResultOps Data) (name : String) (w : World Data) (acts : List (Act Data)) :
    World Data :=
  acts.foldl (step ops name) w

end World

end

end JmeterRs.Router
