import JmeterRs.Scope.Compile

/-!
# The scope law

What compilation is for, stated without the walk.  A *branch* is one lexical level: the children
of an owner, or the single target of a replaceable node.  A *trail* lists the branches from the
innermost outwards to the roots, each entered through a node of the one above it.  The scope of a
sampler is what stands on the levels of its trail, together with its own children.
-/

namespace JmeterRs.Scope

/-- The node of an enabled element. -/
def enabledNode (tree : ElementTree) (id : NodeId) : Option (TreeNode TestElement) :=
  (tree.get id).filter fun node => node.value.enabled

/-- The category the registry gives to an enabled element. -/
def categoryOf (c : ScopeCompiler) (tree : ElementTree) (id : NodeId) :
    Option ComponentCategory := do
  let node ← enabledNode tree id
  let binding ← c.registry.get node.value.testClass
  return binding.category

/-- The node a replaceable element names. -/
def targetOf (element : TestElement) : Option NodeId :=
  match element.temporaryProperties.lookup "runtime.replacement-node" with
  | some (.long target) => if target.toInt < 0 then none else some target.toInt.toNat
  | _ => none

/-- One lexical level: the nodes passed to reach it and the elements that stand on it. -/
structure Branch where
  path : List NodeId
  children : List NodeId
  runLevel : Bool
  expanded : Bool
  deriving DecidableEq

section

variable (c : ScopeCompiler) (tree : ElementTree) (b : Branch) (bs : List Branch) (s id : NodeId)

/-- The level of the roots. -/
def rootBranch : Branch := ⟨[], tree.roots, true, false⟩

/-- The element at `id` as a scope component of a level; collectors at run level are none. -/
def componentOn : Option ScopeComponent := do
  let node ← enabledNode tree id
  let binding ← c.registry.get node.value.testClass
  if isScopeCategory binding.category && !(b.runLevel && isResultCollector node.value binding)
  then some ⟨id, b.path ++ [id], node.value, binding⟩
  else none

/-- The scope components of a level, in source order. -/
def levelComponents : List ScopeComponent := b.children.filterMap (componentOn c tree b)

/-- The level entered through a node: a replaceable node leads to its target alone, and the
contents of a fragment or workbench are entered only below a replacement edge. -/
def enter (n : NodeId) : Option Branch := do
  let node ← enabledNode tree n
  let binding ← c.registry.get node.value.testClass
  match binding.category with
  | .sampler => none
  | .replaceable => (targetOf node.value).map fun target => ⟨b.path ++ [n], [target], false, true⟩
  | .controller | .lifecycle =>
    if isNonExecutableLifecycle node.value binding && !b.expanded then none
    else some ⟨b.path ++ [n], node.children, node.value.testClass = "TestPlan", b.expanded⟩
  | .configuration | .preprocessor | .timer | .postprocessor | .assertion | .listener =>
    if node.children.isEmpty then none
    else some ⟨b.path ++ [n], node.children, false, b.expanded⟩

/-- The levels from the innermost outwards to the roots. -/
inductive Trail (c : ScopeCompiler) (tree : ElementTree) : List Branch → Prop
  | root : Trail c tree [rootBranch tree]
  | step {b bs n b'} (htrail : Trail c tree (b :: bs)) (hmem : n ∈ b.children)
      (henter : enter c tree b n = some b') : Trail c tree (b' :: b :: bs)

/-- An enabled sampler on the innermost level of a trail. -/
def Reaches : Prop := Trail c tree (b :: bs) ∧ s ∈ b.children ∧ categoryOf c tree s = some .sampler

/-- The children of a sampler, as the level below its own. -/
def samplerBranch : Branch where
  path := b.path ++ [s]
  children := ((tree.get s).map TreeNode.children).getD []
  runLevel := false
  expanded := b.expanded

/-- The scope components of each level that a sampler is subject to, nearest level first. -/
def levels : List (List ScopeComponent) :=
  (samplerBranch tree b s :: b :: bs).map (levelComponents c tree)

/-- Whether a category is applied from the sampler outwards. -/
def nearestFirst : ComponentCategory → Bool
  | .configuration | .timer | .listener => true
  | _ => false

/-- The components of a category in the order in which a package has to list them. -/
def inScope (category : ComponentCategory) : List ScopeComponent :=
  let ls := levels c tree b bs s
  (if nearestFirst category then ls.flatten else ls.reverse.flatten).filter fun component =>
    component.binding.category = category

/-- The source records of one category in a package. -/
def ScopePlan.components (package : ScopePlan) : ComponentCategory → List ScopeComponent
  | .configuration => package.configurationComponents
  | .preprocessor => package.preprocessorComponents
  | .timer => package.timerComponents
  | .postprocessor => package.postprocessorComponents
  | .assertion => package.assertionComponents
  | .listener => package.listenerComponents
  | _ => []

/-- The bindings of one category in a package. -/
def ScopePlan.bindings (package : ScopePlan) : ComponentCategory → List ComponentBinding
  | .configuration => package.configurations
  | .preprocessor => package.preprocessors
  | .timer => package.timers
  | .postprocessor => package.postprocessors
  | .assertion => package.assertions
  | .listener => package.listeners
  | _ => []

/-- Controllers and replaceable nodes are what a controller path lists. -/
def onControllerPath : Bool :=
  categoryOf c tree id == some .controller || categoryOf c tree id == some .replaceable

/-- **The scope law.**  Packages are exactly those of the samplers reached, each along one path;
a package lists what is in scope there, each component once and in its order. -/
structure ScopeLaw (plan : CompiledScopePlan) : Prop where
  package_iff : ∀ s, (∃ package, plan.get s = some package) ↔ ∃ b bs, Reaches c tree b bs s
  path_unique : ∀ {s b bs b' bs'}, Reaches c tree b bs s → Reaches c tree b' bs' s →
    b.path = b'.path
  sampler : ∀ {s b bs package}, Reaches c tree b bs s → plan.get s = some package →
    package.samplerId = s ∧ package.samplerComponent.path = b.path ++ [s]
  components : ∀ {s b bs package}, Reaches c tree b bs s → plan.get s = some package →
    ∀ category, isScopeCategory category = true →
      package.components category = inScope c tree b bs s category ∧
      package.bindings category = (inScope c tree b bs s category).map ScopeComponent.binding
  once : ∀ {s b bs package}, Reaches c tree b bs s → plan.get s = some package →
    ∀ category, ((package.components category).map ScopeComponent.nodeId).Nodup
  controllerPath : ∀ {s b bs package}, Reaches c tree b bs s → plan.get s = some package →
    package.controllerPath = b.path.filter (onControllerPath c tree)

/-! ## Small facts about levels -/

end

section

variable {c : ScopeCompiler} {tree : ElementTree} {b b' : Branch} {bs : List Branch} {n x : NodeId}
  {component : ScopeComponent}

theorem enabledNode_eq {node : TreeNode TestElement} :
    enabledNode tree n = some node ↔ tree.get n = some node ∧ node.value.enabled = true := by
  simp [enabledNode, Option.filter_eq_some_iff]

theorem category_some {category : ComponentCategory} :
    categoryOf c tree n = some category ↔ ∃ node binding, enabledNode tree n = some node ∧
      c.registry.get node.value.testClass = some binding ∧ binding.category = category := by
  simp [categoryOf, Option.bind_eq_some_iff]

theorem componentOn_some :
    componentOn c tree b n = some component ↔ ∃ node binding, enabledNode tree n = some node ∧
      c.registry.get node.value.testClass = some binding ∧
      (isScopeCategory binding.category = true ∧
        (b.runLevel && isResultCollector node.value binding) = false) ∧
      component = ⟨n, b.path ++ [n], node.value, binding⟩ := by
  simp only [componentOn, Option.bind_eq_bind, Option.bind_eq_some_iff,
    Option.ite_none_right_eq_some,
    Bool.and_eq_true, Bool.not_eq_true', Option.some.injEq]
  constructor
  · rintro ⟨node, hnode, binding, hbind, hscope, rfl⟩
    exact ⟨node, binding, hnode, hbind, hscope, rfl⟩
  · rintro ⟨node, binding, hnode, hbind, hscope, rfl⟩
    exact ⟨node, hnode, binding, hbind, hscope, rfl⟩

/-- What a level lists, by identity. -/
theorem mem_level (h : component ∈ levelComponents c tree b) :
    component.nodeId ∈ b.children ∧ component.path = b.path ++ [component.nodeId] ∧
      componentOn c tree b component.nodeId = some component := by
  obtain ⟨id, hid, hcomp⟩ := List.mem_filterMap.mp h
  obtain ⟨node, binding, -, -, -, rfl⟩ := componentOn_some.mp hcomp
  exact ⟨hid, rfl, hcomp⟩

/-- **How a level is entered.**  Through a replacement edge, or through an owner of its own
children. -/
theorem enter_some : enter c tree b n = some b' ↔ ∃ node binding, enabledNode tree n = some node ∧
      c.registry.get node.value.testClass = some binding ∧ ((binding.category = .replaceable ∧
          ∃ target, targetOf node.value = some target ∧
            b' = ⟨b.path ++ [n], [target], false, true⟩) ∨
        ((binding.category = .controller ∨ binding.category = .lifecycle) ∧
          (isNonExecutableLifecycle node.value binding && !b.expanded) = false ∧
          b' = ⟨b.path ++ [n], node.children, node.value.testClass = "TestPlan", b.expanded⟩) ∨
        (isScopeCategory binding.category = true ∧ node.children ≠ [] ∧
          b' = ⟨b.path ++ [n], node.children, false, b.expanded⟩)) := by
  simp only [enter, Option.bind_eq_bind, Option.bind_eq_some_iff]
  constructor
  · rintro ⟨node, hnode, binding, hbind, h⟩
    refine ⟨node, binding, hnode, hbind, ?_⟩
    cases hcat : binding.category <;> simp only [hcat] at h
    case sampler => cases h
    case replaceable =>
      obtain ⟨target, htarget, rfl⟩ := Option.map_eq_some_iff.mp h
      exact .inl ⟨rfl, target, htarget, rfl⟩
    case controller | lifecycle =>
      obtain ⟨hskip, heq⟩ := Option.ite_none_left_eq_some.mp h
      exact .inr (.inl ⟨by simp, Bool.eq_false_iff.mpr hskip, (Option.some.inj heq).symm⟩)
    all_goals
      obtain ⟨hempty, heq⟩ := Option.ite_none_left_eq_some.mp h
      exact .inr (.inr ⟨rfl, by simpa using hempty, (Option.some.inj heq).symm⟩)
  · rintro ⟨node, binding, hnode, hbind, h⟩
    refine ⟨node, hnode, binding, hbind, ?_⟩
    rcases h with ⟨hcat, target, htarget, rfl⟩ | ⟨hcat, hskip, rfl⟩ | ⟨hcat, hchildren, rfl⟩
    · simp only [hcat, htarget, Option.map_some]
    · rcases hcat with hcat | hcat <;> simp [hcat, hskip]
    · cases hcat' : binding.category <;> simp_all [isScopeCategory]

theorem enter_path (h : enter c tree b n = some b') : b'.path = b.path ++ [n] := by
  obtain ⟨node, binding, -, -, h⟩ := enter_some.mp h
  rcases h with ⟨-, target, -, rfl⟩ | ⟨-, -, rfl⟩ | ⟨-, -, rfl⟩ <;> rfl

end

end JmeterRs.Scope
