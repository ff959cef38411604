import JmeterRs.Lib.Fueled
import JmeterRs.Scope.Registry

/-!
# Scope compilation

`compileScope` walks the element tree with an explicit stack.  A task is one branch: a list of
children under one owner, with the scope inherited from the levels above, the controllers and
replaceable nodes passed, and whether a replacement edge was followed.  A branch is read twice:
the first pass collects its scope components, the second compiles its samplers and pushes the
branches below it.
-/

namespace JmeterRs.Scope

open Fueled

/-! ## Classification of elements -/

/-- Cuts a text to 4096 bytes. -/
def bounded (value : String) : String := truncateBytes 4096 value

/-- The category named in the error for a class without a binding. -/
def guessCategory (testClass : String) : ComponentCategory :=
  if containsText testClass "Sampler" then .sampler
  else if containsText testClass "Timer" then .timer
  else if containsText testClass "Assertion" then .assertion
  else if containsText testClass "Listener" then .listener
  else if containsText testClass "Pre" then .preprocessor
  else if containsText testClass "Post" then .postprocessor
  else if containsText testClass "Controller" then .controller
  else .configuration

def isScopeCategory : ComponentCategory → Bool
  | .configuration | .preprocessor | .timer | .postprocessor | .assertion | .listener => true
  | .sampler | .controller | .lifecycle | .replaceable => false

def isResultCollector (element : TestElement) (binding : ComponentBinding) : Bool :=
  binding.category == .listener && isResultCollectorClass element.testClass

def isNonExecutableLifecycle (element : TestElement) (binding : ComponentBinding) : Bool :=
  binding.category == .lifecycle &&
    (element.testClass == "TestFragmentController" ||
      element.testClass == "org.apache.jmeter.control.TestFragmentController" ||
      element.testClass == "WorkBench" ||
      element.testClass == "org.apache.jmeter.testelement.WorkBench")

/-- The binding of an element; a class that cannot be executed is an error. -/
def binding (c : ScopeCompiler) (nodeId : NodeId) (path : List NodeId) (element : TestElement) :
    Except ScopeCompileError ComponentBinding :=
  if trim element.testClass.toList = [] then .error (.emptyTestClass nodeId path)
  else if element.testClass.toList.any isControl then
    .error (.invalidTestClass nodeId path "test class contains a control character")
  else if element.testClass = "hashTree" then
    .error (.topology (some nodeId) path "hashTree wrapper reached the semantic runtime boundary")
  else if element.opaqueExtensions ≠ 0 then
    .error (.unsupported ⟨nodeId, bounded element.testClass, guessCategory element.testClass,
      some "runtime.plan.opaque-element-extension", false, path⟩)
  else
    match c.registry.get element.testClass with
    | none =>
      .error (.unsupported ⟨nodeId, bounded element.testClass, guessCategory element.testClass,
        none, false, path⟩)
    | some binding =>
      if binding.isNative then .ok binding
      else
        .error (.unsupported ⟨nodeId, bounded element.testClass, binding.category,
          some binding.capabilityId, binding.isExternal, path⟩)

/-- Which categories an owner of a category accepts. -/
def ownerAllows : ComponentCategory → ComponentCategory → Bool
  | .sampler, category =>
    category == .postprocessor || category == .assertion || category == .listener
  | .configuration, category =>
    category == .configuration || category == .preprocessor || category == .timer ||
      category == .sampler || category == .controller || category == .lifecycle ||
      category == .replaceable
  | .preprocessor, _ | .timer, _ => false
  | .postprocessor, _ | .assertion, _ | .listener, _ => false
  | .controller, _ | .lifecycle, _ | .replaceable, _ => true

def validateOwner (ownerCategory : Option ComponentCategory) (nodeId : NodeId)
    (parentId : Option NodeId) (path : List NodeId) (category : ComponentCategory) :
    Except ScopeCompileError Unit :=
  match ownerCategory with
  | none => .ok ()
  | some owner =>
    if ownerAllows owner category then .ok ()
    else .error (.categoryMisuse nodeId category parentId path)

/-- The resolved target of a Module or Include element. -/
def replacementTarget (nodeId : NodeId) (element : TestElement) (path : List NodeId) :
    Except ScopeCompileError (Option NodeId) :=
  match element.temporaryProperties.lookup "runtime.replacement-node" with
  | none => .ok none
  | some value =>
    match value.asI64 with
    | none =>
      .error (.invalidTestClass nodeId path "replacement reference must be a signed integer")
    | some target =>
      if target.toInt < 0 then
        .error (.invalidTestClass nodeId path "replacement reference cannot be negative")
      else .ok (some target.toInt.toNat)

def rejectUnsupportedCollector (component : ScopeComponent) : Except ScopeCompileError Unit :=
  if component.resultCollectorKind = some .unsupported then
    .error (.unsupported ⟨component.nodeId, bounded component.element.testClass,
      component.binding.category, some "runtime.result-collector.visualizer", false,
      component.path⟩)
  else .ok ()

def pathWith (parent : List NodeId) (id : NodeId) : List NodeId := parent ++ [id]

/-- Adds sizes, with an error on overflow. -/
def checkedSum (path : List NodeId) (detail : String) (values : List ℕ) :
    Except ScopeCompileError ℕ :=
  values.foldlM (fun total value =>
    match checkedAdd usizeMax total value with
    | some sum => .ok sum
    | none => .error (.arithmeticOverflow path detail)) 0

def componentMetadataBytes (component : ScopeComponent) : Except ScopeCompileError ℕ :=
  checkedSum component.path "scope metadata bytes"
    [component.binding.testClass.utf8ByteSize, component.binding.capabilityId.utf8ByteSize,
      component.element.name.utf8ByteSize]

def getNode (tree : ElementTree) (id : NodeId) :
    Except ScopeCompileError (TreeNode TestElement) :=
  match tree.get id with
  | some node => .ok node
  | none => .error (.tree ("missing node " ++ toString id))

/-! ## Disabled branches and the depth of the source tree -/

/-- One round of `markDisabled`. -/
def markDisabledStep (tree : ElementTree) (maxDepth : ℕ) (disabled : Finset NodeId)
    (pending : NodeId × List NodeId) :
    Except ScopeCompileError (Finset NodeId × List (NodeId × List NodeId)) :=
  match pending.2.length with
  | 0 => .error (.arithmeticOverflow pending.2 "disabled branch depth")
  | depth + 1 =>
    if depth > maxDepth then .error (.depthLimit depth maxDepth)
    else do
      let node ← getNode tree pending.1
      return (insert pending.1 disabled,
        node.children.map fun child => (child, pathWith pending.2 child))

/-- Records a disabled node with everything below it. -/
def markDisabled (tree : ElementTree) (id : NodeId) (path : List NodeId) (maxDepth : ℕ)
    (disabled : Finset NodeId) : Fueled ScopeCompileError (Finset NodeId) :=
  drain (fun disabled pending => ofExcept (markDisabledStep tree maxDepth disabled pending))
    disabled [(id, path)]

/-- One round of the depth check. -/
def validateDepthStep (tree : ElementTree) (maxDepth : ℕ) (pending : NodeId × ℕ) :
    Except ScopeCompileError (Unit × List (NodeId × ℕ)) :=
  if pending.2 > maxDepth then .error (.depthLimit pending.2 maxDepth)
  else do
    let node ← getNode tree pending.1
    let pushed ← node.children.mapM fun child =>
      match checkedAdd usizeMax pending.2 1 with
      | some depth => Except.ok (child, depth)
      | none => Except.error (ScopeCompileError.arithmeticOverflow [child] "source depth")
    return ((), pushed)

/-- The checks before the walk: size, links and depth. -/
def validateTree (tree : ElementTree) (limits : ScopeLimits) : Fueled ScopeCompileError Unit :=
  if tree.len > limits.maxNodes then fail (.nodeLimit tree.len limits.maxNodes)
  else
    match tree.validate with
    | .error error => fail (.tree error.toString)
    | .ok () =>
      drain (fun _ pending => ofExcept (validateDepthStep tree limits.maxDepth pending)) ()
        (tree.roots.map fun id => (id, 0))

/-! ## Packages -/

/-- `BTreeMap::entry(key).or_default().push(value)`, on the entries in key order. -/
def entryPush {α : Type} (key : ℕ) (value : α) : List (ℕ × List α) → List (ℕ × List α)
  | [] => [(key, [value])]
  | (k, values) :: rest =>
    if key < k then (key, [value]) :: (k, values) :: rest
    else if key = k then (k, values ++ [value]) :: rest
    else (k, values) :: entryPush key value rest

/-- The components of one category: in the order of `scope`, or nearest level first. -/
def orderedScopeComponents (scope : List ScopeComponent) (category : ComponentCategory)
    (nearestFirst : Bool) : List ScopeComponent :=
  let selected := scope.filter fun component => component.binding.category = category
  if !nearestFirst then selected
  else
    let groups := selected.foldl (fun groups component =>
      entryPush component.path.length component groups) []
    groups.reverse.flatMap Prod.snd

/-- The package of a sampler with the given scope. -/
def package (samplerId : NodeId) (sampler : ComponentBinding) (samplerComponent : ScopeComponent)
    (scope : List ScopeComponent) (controllerPath : List NodeId) : ScopePlan :=
  let configurations := orderedScopeComponents scope .configuration true
  let preprocessors := orderedScopeComponents scope .preprocessor false
  let timers := orderedScopeComponents scope .timer true
  let postprocessors := orderedScopeComponents scope .postprocessor false
  let assertions := orderedScopeComponents scope .assertion false
  let listeners := orderedScopeComponents scope .listener true
  { samplerId, sampler, samplerComponent, controllerPath
    configurations := configurations.map ScopeComponent.binding
    preprocessors := preprocessors.map ScopeComponent.binding
    timers := timers.map ScopeComponent.binding
    postprocessors := postprocessors.map ScopeComponent.binding
    assertions := assertions.map ScopeComponent.binding
    listeners := listeners.map ScopeComponent.binding
    configurationComponents := configurations
    preprocessorComponents := preprocessors
    timerComponents := timers
    postprocessorComponents := postprocessors
    assertionComponents := assertions
    listenerComponents := listeners }

section

variable (c : ScopeCompiler) (tree : ElementTree) (samplerId : NodeId) (samplerPath : List NodeId)

/-- Adds a result collector to the run. -/
def pushCollector (plan : CompiledScopePlan) (collector : ScopeComponent) :
    Except ScopeCompileError CompiledScopePlan :=
  let plan := { plan with runCollectors := plan.runCollectors ++ [collector] }
  if plan.runCollectors.length > c.limits.maxComponents then
    .error (.componentLimit plan.runCollectors.length c.limits.maxComponents)
  else .ok plan

/-- Result collectors have the lifetime of the run wherever they stand. -/
def pushIfCollector (plan : CompiledScopePlan) (component : ScopeComponent) :
    Except ScopeCompileError CompiledScopePlan :=
  if isResultCollector component.element component.binding then pushCollector c plan component
  else .ok plan

/-- An enabled child of a sampler. -/
def attachEnabled (childId : NodeId) (childPath : List NodeId) (child : TreeNode TestElement)
    (acc : CompiledScopePlan × List ScopeComponent) :
    Except ScopeCompileError (CompiledScopePlan × List ScopeComponent) := do
  let childBinding ← binding c childId childPath child.value
  if !isScopeCategory childBinding.category then
    .error (.categoryMisuse childId childBinding.category (some samplerId) childPath)
  else
    let component : ScopeComponent := ⟨childId, childPath, child.value, childBinding⟩
    rejectUnsupportedCollector component
    let plan ← pushIfCollector c acc.1 component
    if !child.children.isEmpty then
      .error (.topology (some childId) childPath "attached component must be a leaf")
    else .ok (plan, acc.2 ++ [component])

def attachChild (acc : CompiledScopePlan × List ScopeComponent) (childId : NodeId) :
    Fueled ScopeCompileError (CompiledScopePlan × List ScopeComponent) := do
  let child ← getNode tree childId
  let childPath := pathWith samplerPath childId
  if !child.value.enabled then
    let disabled ← markDisabled tree childId childPath c.limits.maxDepth acc.1.disabled
    return ({ acc.1 with disabled }, acc.2)
  else ofExcept (attachEnabled c samplerId childId childPath child acc)

def packageBytes (sampler : ComponentBinding) (name : String) (scope : List ScopeComponent) :
    Except ScopeCompileError ℕ := do
  let bytes ← checkedSum samplerPath "scope metadata bytes"
    [sampler.testClass.utf8ByteSize, sampler.capabilityId.utf8ByteSize, name.utf8ByteSize]
  scope.foldlM (fun bytes component =>
    checkedSum samplerPath "scope metadata bytes"
      [bytes, component.binding.testClass.utf8ByteSize,
        component.binding.capabilityId.utf8ByteSize, component.element.name.utf8ByteSize]) bytes

/-- Checks the limits of a package and stores it. -/
def storePackage (element : TestElement) (samplerBinding : ComponentBinding)
    (scope : List ScopeComponent) (controllerPath : List NodeId) (plan : CompiledScopePlan) :
    Except ScopeCompileError CompiledScopePlan := do
  let components ← checkedSum samplerPath "scope component count"
    [scope.length, controllerPath.length, 1]
  if components > c.limits.maxComponents then
    .error (.componentLimit components c.limits.maxComponents)
  else
    let bytes ← packageBytes samplerPath samplerBinding element.name scope
    if bytes > c.limits.maxBytes then .error (.byteLimit bytes c.limits.maxBytes)
    else if plan.len ≥ c.limits.maxPackages then
      match checkedAdd usizeMax plan.len 1 with
      | some count => .error (.packageLimit count c.limits.maxPackages)
      | none => .error (.arithmeticOverflow samplerPath "package count")
    else
      let samplerComponent : ScopeComponent := ⟨samplerId, samplerPath, element, samplerBinding⟩
      if (plan.get samplerId).isSome then .error (.duplicateSampler samplerId samplerPath)
      else
        .ok (plan.store samplerId
          (package samplerId samplerBinding samplerComponent scope controllerPath))

/-- Compiles one sampler: its own children are the innermost level of its scope. -/
def compileSampler (scope : List ScopeComponent) (controllerPath : List NodeId)
    (plan : CompiledScopePlan) : Fueled ScopeCompileError CompiledScopePlan := do
  let node ← getNode tree samplerId
  let samplerBinding ← binding c samplerId samplerPath node.value
  let attached ← node.children.foldlM (attachChild c tree samplerId samplerPath) (plan, [])
  ofExcept (storePackage c samplerId samplerPath node.value samplerBinding (scope ++ attached.2)
    controllerPath attached.1)

end

/-! ## The walk -/

/-- One pending branch. -/
structure ScopeTask where
  parentId : Option NodeId
  children : List NodeId
  inherited : List ScopeComponent
  controllerPath : List NodeId
  parentPath : List NodeId
  replacementChain : List NodeId
  ownerCategory : Option ComponentCategory
  runLevel : Bool
  replacementExpansion : Bool

variable (c : ScopeCompiler) (tree : ElementTree) (task : ScopeTask) (scope : List ScopeComponent)
  (childId : NodeId) (child : TreeNode TestElement) (childBinding : ComponentBinding)

/-- An enabled child in the first pass over a branch. -/
def collectEnabled (acc : CompiledScopePlan × List ScopeComponent) :
    Except ScopeCompileError (CompiledScopePlan × List ScopeComponent) := do
  let childPath := pathWith task.parentPath childId
  let childBinding ← binding c childId childPath child.value
  validateOwner task.ownerCategory childId task.parentId childPath childBinding.category
  let component : ScopeComponent := ⟨childId, childPath, child.value, childBinding⟩
  if isResultCollector child.value childBinding then
    rejectUnsupportedCollector component
    if !child.children.isEmpty then
      .error (.topology (some childId) childPath "result collector must be a leaf")
    else
      let plan ← pushCollector c acc.1 component
      -- A collector at run level belongs to the run alone.
      .ok (plan, if task.runLevel then acc.2 else acc.2 ++ [component])
  else if isNonExecutableLifecycle child.value childBinding && !task.replacementExpansion then
    .ok acc
  else if isScopeCategory childBinding.category then .ok (acc.1, acc.2 ++ [component])
  else .ok acc

/-- One child in the first pass over a branch. -/
def collectChild (acc : CompiledScopePlan × List ScopeComponent) (childId : NodeId) :
    Fueled ScopeCompileError (CompiledScopePlan × List ScopeComponent) := do
  let child ← getNode tree childId
  if !child.value.enabled then
    let disabled ← markDisabled tree childId (pathWith task.parentPath childId) c.limits.maxDepth
      acc.1.disabled
    return ({ acc.1 with disabled }, acc.2)
  else ofExcept (collectEnabled c task childId child acc)

/-- Follows the replacement edge of a Module or Include element. -/
def expandReplaceable (acc : CompiledScopePlan × List ScopeTask) :
    Except ScopeCompileError (CompiledScopePlan × List ScopeTask) := do
  let childPath := pathWith task.parentPath childId
  match ← replacementTarget childId child.value childPath with
  | none => .error (.unresolvedReplacement childId (bounded child.value.testClass) childPath)
  | some target =>
    if (tree.get target).isNone then .error (.orphanReference childId target childPath)
    else if target = childId ∨ target ∈ task.replacementChain then
      .error (.replacementCycle childId childPath)
    else
      .ok ({ acc.1 with replacements := acc.1.replacements.insert childId target },
        { parentId := some childId
          children := [target]
          inherited := scope
          controllerPath := task.controllerPath ++ [childId]
          parentPath := childPath
          replacementChain := task.replacementChain ++ [childId]
          ownerCategory := some .replaceable
          runLevel := false
          replacementExpansion := true } :: acc.2)

/-- The branch of an owner's own children. -/
def ownBranch (category : ComponentCategory) (controllerPath : List NodeId) (runLevel : Bool) :
    ScopeTask where
  parentId := some childId
  children := child.children
  inherited := scope
  controllerPath := controllerPath
  parentPath := pathWith task.parentPath childId
  replacementChain := task.replacementChain
  ownerCategory := some category
  runLevel := runLevel
  replacementExpansion := task.replacementExpansion

/-- Enters a controller or lifecycle element. -/
def expandOwner (acc : CompiledScopePlan × List ScopeTask) : CompiledScopePlan × List ScopeTask :=
  if isNonExecutableLifecycle child.value childBinding && !task.replacementExpansion then acc
  else
    let controllerPath :=
      if childBinding.category = .controller then task.controllerPath ++ [childId]
      else task.controllerPath
    (acc.1, ownBranch task scope childId child childBinding.category controllerPath
      (child.value.testClass = "TestPlan") :: acc.2)

/-- A scope element owns nothing executable, but its children are walked to be rejected. -/
def expandScopeElement (acc : CompiledScopePlan × List ScopeTask) :
    CompiledScopePlan × List ScopeTask :=
  if child.children.isEmpty then acc
  else
    (acc.1, ownBranch task scope childId child childBinding.category task.controllerPath false ::
      acc.2)

/-- One child in the second pass over a branch. -/
def expandChild (acc : CompiledScopePlan × List ScopeTask) (childId : NodeId) :
    Fueled ScopeCompileError (CompiledScopePlan × List ScopeTask) := do
  let child ← getNode tree childId
  if !child.value.enabled then return acc
  else
    let childPath := pathWith task.parentPath childId
    let childBinding ← binding c childId childPath child.value
    if task.runLevel && isResultCollector child.value childBinding then return acc
    else
      match childBinding.category with
      | .sampler =>
        let plan ← compileSampler c tree childId childPath scope task.controllerPath acc.1
        return (plan, acc.2)
      | .replaceable => ofExcept (expandReplaceable tree task scope childId child acc)
      | .controller | .lifecycle =>
        return expandOwner task scope childId child childBinding acc
      | .configuration | .preprocessor | .timer | .postprocessor | .assertion | .listener =>
        return expandScopeElement task scope childId child childBinding acc

/-- One round of the walk: both passes over a branch. -/
def walkStep (plan : CompiledScopePlan) (task : ScopeTask) :
    Fueled ScopeCompileError (CompiledScopePlan × List ScopeTask) := do
  let collected ← task.children.foldlM (collectChild c tree task) (plan, [])
  let scope := task.inherited ++ collected.2
  if scope.length > c.limits.maxComponents then
    fail (.componentLimit scope.length c.limits.maxComponents)
  else task.children.reverse.foldlM (expandChild c tree task scope) (collected.1, [])

def rootTask : ScopeTask where
  parentId := none
  children := tree.roots
  inherited := []
  controllerPath := []
  parentPath := []
  replacementChain := []
  ownerCategory := none
  runLevel := true
  replacementExpansion := false

/-- The metadata size of the result collectors of the run. -/
def checkCollectorBytes (plan : CompiledScopePlan) :
    Except ScopeCompileError CompiledScopePlan := do
  let bytes ← plan.runCollectors.foldlM (fun bytes collector => do
    let size ← componentMetadataBytes collector
    checkedSum collector.path "run collector metadata bytes" [bytes, size]) 0
  if bytes > c.limits.maxBytes then .error (.byteLimit bytes c.limits.maxBytes)
  else .ok plan

/-- Compiles an element tree into sampler packages. -/
def compileScope : Fueled ScopeCompileError CompiledScopePlan := do
  validateTree tree c.limits
  if tree.isEmpty then return .empty
  else
    let plan ← drain (walkStep c tree) .empty [rootTask tree]
    ofExcept (checkCollectorBytes c plan)

/-- Compiles a model tree without changing its source nodes. -/
def ScopeCompiler.compile : Fueled ScopeCompileError CompiledScopePlan := compileScope c tree

end JmeterRs.Scope
