import JmeterRs.Controllers.Node
import JmeterRs.Lib.Text

/-!
# The logic controllers

The tree of native logic controllers, the conditions they read from the variables of a virtual
user, and the failures of compilation and traversal.
-/

namespace JmeterRs.Logic

open Controllers (ElementId LoopCount ControlSignal)

def defaultMaxNodes : ℕ := 65536
def defaultMaxDepth : ℕ := 256
def defaultMaxTransitions : ℕ := 65536
def maxKindBytes : ℕ := 4096

/-! ## Text -/

/-- Cuts a text to `MAX_KIND_BYTES` at a character boundary. -/
def boundedText (value : String) : String := truncateBytes maxKindBytes value

def parseBool (value : Option String) : Bool :=
  match value with
  | none => false
  | some value =>
    (trim value.toList).map Char.toLower ∈ ["true".toList, "1".toList, "yes".toList, "on".toList]

/-! ## Failures -/

/-- Typed failures of compilation and traversal. -/
inductive LogicControllerError
  | planTooLarge (count limit : ℕ)
  | planTooDeep (depth limit : ℕ)
  | transitionLimit (used limit : ℕ)
  | unsupported (controller capabilityId : String)
  | unresolvedReplacement (controller : ElementId)
  | invalidSwitchIndex (controller : ElementId) (value : String)
  | invalidForEachValue (controller : ElementId) (variableName : String)
  | invalidPercentage (controller : ElementId) (value : Float)
  | missingGlobalState (controller : ElementId)
  | duplicateControllerId (controller : ElementId)
  | invariantViolation (detail : String)

/-! ## Conditions and selections -/

abbrev Variables := String → Option String

/-- A deterministic condition of the native logic controllers. -/
inductive LogicCondition
  | always
  | never
  | variableEquals (name value : String)
  | variableBoolean (name : String)
  | lastSampleSuccess (expected : Bool)
  | literal (value : String)
  | external (capabilityId : String)
  deriving DecidableEq, Repr

/-- Evaluates the condition against the state of a runner. -/
def LogicCondition.evaluate (condition : LogicCondition) (vars : Variables)
    (lastSampleSuccess : Option Bool) : Except LogicControllerError Bool :=
  match condition with
  | .always => .ok true
  | .never => .ok false
  | .variableEquals name value => .ok (vars name = some value)
  | .variableBoolean name => .ok (parseBool (vars name))
  | .lastSampleSuccess expected => .ok (lastSampleSuccess = some expected)
  | .literal value => .ok (parseBool (some value))
  | .external capabilityId => .error (.unsupported "If/While condition" (boundedText capabilityId))

/-- How a Switch controller selects its child. -/
inductive SwitchSelection
  | index (value : ℕ)
  | variableIndex (name : String)
  | variableWithNames (name : String) (childNames : List String)
  | random
  deriving DecidableEq, Repr

/-- The numeric selection rules: digits only, within the range of `i32`, and the first child for
an index past the last one. -/
def switchNumericIndex (value : String) (childCount : ℕ) : Option ℕ :=
  if value.toList = [] then some 0
  else
    match parseDigits (2 ^ 31 - 1) value.toList with
    | none => none
    | some index => some (if index < childCount then index else 0)

/-- The child with exactly the name `value`, else the first one named `default` in any case.
Names past the children are ignored. -/
def switchNamedIndex (value : String) (childNames : List String) (childCount : ℕ) : Option ℕ :=
  let names := childNames.take childCount
  match names.findIdx? (· = value) with
  | some index => some index
  | none => names.findIdx? (·.toList.map Char.toLower = "default".toList)

/-- The scope rule of a Throughput controller. -/
inductive ThroughputMode
  | total
  | percentage
  deriving DecidableEq, Repr

/-- The counters of one Throughput controller. -/
structure ThroughputState where
  iterations : ℕ
  executions : ℕ
  deriving DecidableEq, Repr

/-- Whether a visit is admitted, from the counters before it. -/
def throughputDecide (counters : ThroughputState) (mode : ThroughputMode) (limit : ℕ)
    (percent : Float) : Bool :=
  match mode with
  | .total => counters.executions < limit
  | .percentage =>
    let iteration := saturatingAdd u64Max counters.iterations 1
    let estimate :=
      (100.0 * counters.executions.toUInt64.toFloat + 50.0) / iteration.toUInt64.toFloat
    estimate < percent.toFloat32.toFloat

/-- `Duration`, in nanoseconds. -/
abbrev Duration := ℕ

/-- `Duration::MAX`. -/
def durationMax : Duration := u64Max * 10 ^ 9 + (10 ^ 9 - 1)

/-! ## The tree -/

inductive LogicNode
  | sample (id : ElementId)
  | sequence (id : ElementId) (children : List LogicNode)
  | loop (id : ElementId) (count : LoopCount) (children : List LogicNode)
  | ifController (id : ElementId) (condition : LogicCondition) (evaluateEachIteration : Bool)
      (children : List LogicNode)
  | whileController (id : ElementId) (condition : LogicCondition) (maxIterations : Option ℕ)
      (children : List LogicNode)
  | forEach (id : ElementId) (inputPrefix outputVariable : String) (children : List LogicNode)
  | switch (id : ElementId) (selection : SwitchSelection) (children : List LogicNode)
  | interleave (id : ElementId) (children : List LogicNode)
  | random (id : ElementId) (children : List LogicNode)
  | randomOrder (id : ElementId) (children : List LogicNode)
  | onceOnly (id : ElementId) (children : List LogicNode)
  | throughput (id : ElementId) (mode : ThroughputMode) (limit : ℕ) (percent : Float)
      (perUser : Bool) (children : List LogicNode)
  | runtime (id : ElementId) (duration : Duration) (children : List LogicNode)
  | transaction (id : ElementId) (parent includeTimers : Bool) (children : List LogicNode)
  | moduleController (id : ElementId) (target : Option LogicNode)
  | includeController (id : ElementId) (target : Option LogicNode)
  | recording (id : ElementId) (children : List LogicNode)
  | criticalSection (id : ElementId) (lockName : String) (children : List LogicNode)

namespace LogicNode

def id : LogicNode → ElementId
  | .sample id | .sequence id _ | .loop id _ _ | .ifController id _ _ _
  | .whileController id _ _ _ | .forEach id _ _ _ | .switch id _ _ | .interleave id _
  | .random id _ | .randomOrder id _ | .onceOnly id _ | .throughput id _ _ _ _ _
  | .runtime id _ _ | .transaction id _ _ _ | .moduleController id _ | .includeController id _
  | .recording id _ | .criticalSection id _ _ => id

def children : LogicNode → Option (List LogicNode)
  | .sequence _ children | .loop _ _ children | .ifController _ _ _ children
  | .whileController _ _ _ children | .forEach _ _ _ children | .switch _ _ children
  | .interleave _ children | .random _ children | .randomOrder _ children
  | .onceOnly _ children | .throughput _ _ _ _ _ children | .runtime _ _ children
  | .transaction _ _ _ children | .recording _ children | .criticalSection _ _ children =>
    some children
  | .sample _ | .moduleController _ _ | .includeController _ _ => none

/-- Whether a false If controller resets the state of this controller. -/
def hasIfState : LogicNode → Bool
  | .forEach .. | .interleave .. | .onceOnly .. | .throughput .. | .transaction ..
  | .randomOrder .. => true
  | _ => false

/-- The nodes directly below: the children, or the target of a replacement. -/
def inner : LogicNode → List LogicNode
  | .moduleController _ target | .includeController _ target => target.toList
  | node => node.children.getD []

end LogicNode

structure LogicLimits where
  maxNodes : ℕ
  maxDepth : ℕ
  maxTransitions : ℕ
  deriving DecidableEq, Repr

def LogicLimits.default : LogicLimits := ⟨defaultMaxNodes, defaultMaxDepth, defaultMaxTransitions⟩

end JmeterRs.Logic
