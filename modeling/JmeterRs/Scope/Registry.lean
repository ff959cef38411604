import JmeterRs.Lib.Text
import JmeterRs.Scope.Tree
import Mathlib.Data.List.AList

/-!
# Component bindings, scope plans and their errors

The registry maps exact test classes to bindings.  A compiled plan holds one package per sampler,
with the components in scope sorted into the lists of their categories.
-/

namespace JmeterRs.Scope

/-- The component categories scope compilation recognises. -/
inductive ComponentCategory
  | configuration
  | preprocessor
  | timer
  | sampler
  | postprocessor
  | assertion
  | listener
  | controller
  | lifecycle
  | replaceable
  deriving DecidableEq, Repr

/-- Execution support declared for one binding. -/
inductive ComponentAvailability
  | native
  | external
  | unavailable
  deriving DecidableEq, Repr

structure ComponentBinding where
  testClass : String
  category : ComponentCategory
  capabilityId : String
  external : Bool
  availability : ComponentAvailability
  deriving DecidableEq, Repr

/-- Whether a capability crosses the boundary to another process. -/
def capabilityRequiresExternal (capabilityId : String) : Bool :=
  startsWith capabilityId "runtime.external." || startsWith capabilityId "runtime.assertion.jvm." ||
    startsWith capabilityId "jmeter.rmi" || capabilityId == "assertion.json" ||
    capabilityId == "assertion.jmespath"

namespace ComponentBinding

/-- Creates a binding; a capability in an external namespace stays external. -/
def native (testClass : String) (category : ComponentCategory) (capabilityId : String) :
    ComponentBinding :=
  let external := capabilityRequiresExternal capabilityId
  ⟨testClass, category, capabilityId, external, if external then .external else .native⟩

def isNative (b : ComponentBinding) : Bool := b.availability == .native

def isExternal (b : ComponentBinding) : Bool := b.availability == .external

end ComponentBinding

/-- Makes the two support fields agree. -/
def normalizeBinding (binding : ComponentBinding) : ComponentBinding :=
  match binding.availability with
  | .external => { binding with external := true }
  | .unavailable => { binding with external := false }
  | .native =>
    if binding.external || capabilityRequiresExternal binding.capabilityId then
      { binding with external := true, availability := .external }
    else binding

/-- The class registry; lookup is exact. -/
structure ComponentRegistry where
  bindings : String → Option ComponentBinding

namespace ComponentRegistry

def new : ComponentRegistry := ⟨fun _ => none⟩

def register (r : ComponentRegistry) (binding : ComponentBinding) : ComponentRegistry :=
  let binding := normalizeBinding binding
  ⟨Function.update r.bindings binding.testClass (some binding)⟩

def registerNative (r : ComponentRegistry) (testClass : String) (category : ComponentCategory)
    (capabilityId : String) : ComponentRegistry :=
  r.register (.native testClass category capabilityId)

def get (r : ComponentRegistry) (testClass : String) : Option ComponentBinding :=
  r.bindings testClass

end ComponentRegistry

/-- The resource policy of one compilation. -/
structure ScopeLimits where
  maxNodes : ℕ
  maxComponents : ℕ
  maxPackages : ℕ
  maxBytes : ℕ
  maxDepth : ℕ
  deriving DecidableEq, Repr

def ScopeLimits.default : ScopeLimits := ⟨100000, 65536, 16384, 16 * 1024 * 1024, 256⟩

/-- An element no binding can execute. -/
structure UnsupportedComponent where
  nodeId : NodeId
  testClass : String
  category : ComponentCategory
  capabilityId : Option String
  external : Bool
  path : List NodeId
  deriving DecidableEq, Repr

/-- One component retained in a sampler scope, with its path from a root. -/
structure ScopeComponent where
  nodeId : NodeId
  path : List NodeId
  element : TestElement
  binding : ComponentBinding
  deriving DecidableEq

/-- Result collectors by their GUI class. -/
inductive ResultCollectorKind
  | simpleDataWriter
  | statVisualizer
  | summaryReport
  | graphVisualizer
  | unsupported
  deriving DecidableEq, Repr

/-- The two class names of a result collector. -/
def isResultCollectorClass (testClass : String) : Bool :=
  testClass == "ResultCollector" || testClass == "org.apache.jmeter.reporters.ResultCollector"

/-- Classifies a result collector by its exact GUI class. -/
def ScopeComponent.resultCollectorKind (component : ScopeComponent) :
    Option ResultCollectorKind :=
  if component.binding.category ≠ .listener ∨
      !isResultCollectorClass component.binding.testClass then none
  else
    some <|
      if component.element.guiClass == "SimpleDataWriter" then .simpleDataWriter
      else if component.element.guiClass == "StatVisualizer" then .statVisualizer
      else if component.element.guiClass == "SummaryReport" then .summaryReport
      else if component.element.guiClass == "GraphVisualizer" then .graphVisualizer
      else .unsupported

/-- The package of one sampler: bindings and source records by category. -/
structure ScopePlan where
  samplerId : NodeId
  configurations : List ComponentBinding
  preprocessors : List ComponentBinding
  timers : List ComponentBinding
  sampler : ComponentBinding
  postprocessors : List ComponentBinding
  assertions : List ComponentBinding
  listeners : List ComponentBinding
  controllerPath : List NodeId
  configurationComponents : List ScopeComponent
  preprocessorComponents : List ScopeComponent
  timerComponents : List ScopeComponent
  samplerComponent : ScopeComponent
  postprocessorComponents : List ScopeComponent
  assertionComponents : List ScopeComponent
  listenerComponents : List ScopeComponent
  deriving DecidableEq

/-- The whole scope result.  The same four fields are the state of the walk. -/
structure CompiledScopePlan where
  packages : AList fun _ : NodeId => ScopePlan
  disabled : Finset NodeId
  replacements : AList fun _ : NodeId => NodeId
  runCollectors : List ScopeComponent

namespace CompiledScopePlan

/-- The plan of an empty tree. -/
def empty : CompiledScopePlan := ⟨∅, ∅, ∅, []⟩

def get (plan : CompiledScopePlan) (samplerId : NodeId) : Option ScopePlan :=
  plan.packages.lookup samplerId

/-- `packages.insert`. -/
def store (plan : CompiledScopePlan) (samplerId : NodeId) (package : ScopePlan) :
    CompiledScopePlan :=
  { plan with packages := plan.packages.insert samplerId package }

def len (plan : CompiledScopePlan) : ℕ := plan.packages.entries.length

end CompiledScopePlan

inductive ScopeCompileError
  | tree (message : String)
  | nodeLimit (count limit : ℕ)
  | packageLimit (count limit : ℕ)
  | componentLimit (count limit : ℕ)
  | byteLimit (bytes limit : ℕ)
  | depthLimit (depth limit : ℕ)
  | arithmeticOverflow (path : List NodeId) (detail : String)
  | unsupported (component : UnsupportedComponent)
  | invalidTestClass (nodeId : NodeId) (path : List NodeId) (reason : String)
  | emptyTestClass (nodeId : NodeId) (path : List NodeId)
  | unresolvedReplacement (nodeId : NodeId) (testClass : String) (path : List NodeId)
  | replacementCycle (nodeId : NodeId) (path : List NodeId)
  | orphanReference (nodeId target : NodeId) (path : List NodeId)
  | topology (nodeId : Option NodeId) (path : List NodeId) (detail : String)
  | categoryMisuse (nodeId : NodeId) (category : ComponentCategory) (parentId : Option NodeId)
      (path : List NodeId)
  | duplicateSampler (samplerId : NodeId) (path : List NodeId)
  deriving DecidableEq, Repr

/-- A compiler: a registry and a resource policy. -/
structure ScopeCompiler where
  registry : ComponentRegistry
  limits : ScopeLimits

end JmeterRs.Scope
