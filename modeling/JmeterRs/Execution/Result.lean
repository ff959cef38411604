import JmeterRs.Controllers.Signal

/-!
# Sample results

What the execution of a sampler reads and writes in a result: its success, its assertions and its
control flags.  The other fields are kept together as `data`.
-/

namespace JmeterRs.Execution

open Controllers (ControlSignal)

inductive AssertionOutcome
  | passed
  | failure
  | error
  deriving DecidableEq

structure AssertionResult where
  name : String
  failure : Bool
  error : Bool
  failureMessage : Option String
  errorMessage : Option String
  deriving DecidableEq

def AssertionResult.outcome (assertion : AssertionResult) : AssertionOutcome :=
  match assertion.failure, assertion.error with
  | _, true => .error
  | true, false => .failure
  | false, false => .passed

inductive LogicalAction
  | continue
  | startNextIteration
  | stopThread
  | stopTest
  | stopTestNow
  deriving DecidableEq

inductive ResultError
  | invalidHierarchy (field : String)
  | invalidTiming (violation : String)
  | overflow (field : String)
  | rejected (reason : String)

structure ClockReading where
  wall : ℕ
  monotonic : ℕ

/-- Where an event comes from: the run, the thread and the host. -/
structure EventIdentity where
  run : String
  thread : String
  host : String

structure SampleFlags where
  stopThread : Bool
  stopTest : Bool
  stopTestNow : Bool
  startNextLoop : Bool
  logicalAction : Option LogicalAction
  ignored : Bool

structure SampleResult (Data : Type) where
  success : Option Bool
  assertions : List AssertionResult
  flags : SampleFlags
  data : Data

/-- An immutable snapshot of a result for the listeners. -/
structure SampleEvent (Data : Type) where
  result : SampleResult Data
  identity : EventIdentity
  vars : List (String × Option String)

def LogicalAction.signal : LogicalAction → ControlSignal
  | .continue => .continue
  | .startNextIteration => .nextLoop
  | .stopThread => .stopThread
  | .stopTest => .stopTestGraceful
  | .stopTestNow => .stopTestImmediate

section

variable {Data : Type}

def resultControlSignal (result : SampleResult Data) : ControlSignal :=
  let signal := ControlSignal.continue
  let signal := if result.flags.startNextLoop then signal.combine .nextLoop else signal
  let signal := if result.flags.stopThread then signal.combine .stopThread else signal
  let signal := if result.flags.stopTest then signal.combine .stopTestGraceful else signal
  let signal := if result.flags.stopTestNow then signal.combine .stopTestImmediate else signal
  match result.flags.logicalAction with
  | some action => signal.combine action.signal
  | none => signal

/-- Attaches an assertion; one that failed makes the sample unsuccessful. -/
def appendAssertionResult (result : SampleResult Data) (assertion : AssertionResult) :
    SampleResult Data :=
  let result := { result with assertions := result.assertions ++ [assertion] }
  match assertion.outcome with
  | .failure | .error => { result with success := some false }
  | .passed => result

end

end JmeterRs.Execution
