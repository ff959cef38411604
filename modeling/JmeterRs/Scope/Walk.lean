import JmeterRs.Scope.Path

/-!
# One round of the walk

A pending task is determined by its trail (`taskOf`).  `stepped_walk` says once what a round
without an error does: it pushes the tasks of the levels entered from the branch, it stores the
packages of the samplers on it and keeps all others, and it stays within the limits.
-/

namespace JmeterRs.Scope

open Fueled List

/-! ## Tasks and trails -/

/-- The scope of a trail, outermost level first. -/
def scopeOf (c : ScopeCompiler) (tree : ElementTree) : List Branch → List ScopeComponent
  | [] => []
  | b :: bs => scopeOf c tree bs ++ levelComponents c tree b

section

variable (c : ScopeCompiler) (tree : ElementTree) (b : Branch) (bs : List Branch)

def isReplaceable (id : NodeId) : Bool := categoryOf c tree id == some .replaceable

/-- The task that walks the innermost level of a trail. -/
def taskOf :
    ScopeTask where
  parentId := b.path.getLast?
  children := b.children
  inherited := scopeOf c tree bs
  controllerPath := b.path.filter (onControllerPath c tree)
  parentPath := b.path
  replacementChain := b.path.filter (isReplaceable c tree)
  ownerCategory := b.path.getLast?.bind (categoryOf c tree)
  runLevel := b.runLevel
  replacementExpansion := b.expanded

@[simp] theorem taskOf_runLevel : (taskOf c tree b bs).runLevel = b.runLevel := rfl

@[simp] theorem taskOf_expansion : (taskOf c tree b bs).replacementExpansion = b.expanded := rfl

/-- The tasks of the levels entered from a branch, in source order. -/
def nextTasks : List ScopeTask :=
  (b.children.filterMap (enter c tree b)).map fun b' => taskOf c tree b' (b :: bs)

end

section

variable {c : ScopeCompiler} {tree : ElementTree} {b : Branch} {bs : List Branch}
variable {x : NodeId} {node : TreeNode TestElement} {path : List NodeId}

/-! ## The functions of the classification -/

theorem getNode_ok : getNode tree x = .ok node ↔ tree.get x = some node := by
  unfold getNode
  cases tree.get x <;> simp

variable {element : TestElement} {found : ComponentBinding} {plan plan' : CompiledScopePlan}
  {acc acc' : CompiledScopePlan × List ScopeComponent} {s : NodeId}

theorem registry_binding (h : binding c x path element = .ok found) :
    c.registry.get element.testClass = some found := by
  unfold binding at h
  split_ifs at h
  cases hget : c.registry.get element.testClass with
  | none => rw [hget] at h; cases h
  | some entry =>
    simp only [hget] at h
    split_ifs at h
    rw [Except.ok.inj h]

theorem targetOf_target {target : NodeId}
    (h : replacementTarget x element path = .ok (some target)) :
    targetOf element = some target := by
  unfold replacementTarget at h
  unfold targetOf
  cases hprop : element.temporaryProperties.lookup "runtime.replacement-node" with
  | none => rw [hprop] at h; cases h
  | some value =>
    cases value <;> simp only [hprop, PropertyValue.asI64] at h
    case long value =>
      split_ifs at h with hneg
      simp only [hneg, if_false]
      exact Except.ok.inj h
    all_goals cases h

theorem enabledNode_none (hget : tree.get x = some node) (h : node.value.enabled = false) :
    enabledNode tree x = none := by
  simp [enabledNode, hget, h]

theorem enabledNode_some (hget : tree.get x = some node) (h : node.value.enabled = true) :
    enabledNode tree x = some node := enabledNode_eq.mpr ⟨hget, h⟩

theorem listener_collector (h : isResultCollector element found = true) :
    found.category = .listener := by
  simp only [isResultCollector, Bool.and_eq_true, beq_iff_eq] at h
  exact h.1

theorem component_enabled (hnode : enabledNode tree x = some node)
    (hfnd : c.registry.get node.value.testClass = some found) : componentOn c tree b x =
      if isScopeCategory found.category && !(b.runLevel && isResultCollector node.value found)
      then some ⟨x, b.path ++ [x], node.value, found⟩ else none := by
  simp [componentOn, hnode, hfnd]

/-- A disabled node deeper than the limit is an error. -/
theorem depth_disabled {maxDepth : ℕ} {disabled disabled' : Finset NodeId}
    (h : (markDisabled tree x (path ++ [x]) maxDepth disabled).Returns (.ok disabled')) :
    path.length ≤ maxDepth := by
  rcases drain_cons.mp h with ⟨d, pushed, hstep, -⟩ | ⟨e, -, h⟩
  · rw [returns_ofExcept] at hstep
    simp only [markDisabledStep, length_append, length_singleton] at hstep
    split_ifs at hstep with hdeep
    omega
  · cases h

/-! ## Result collectors -/

variable (c tree) in
/-- An enabled result collector. -/
def IsCollector (id : NodeId) : Prop :=
  ∃ node found, enabledNode tree id = some node ∧
    c.registry.get node.value.testClass = some found ∧ isResultCollector node.value found = true

/-- A node without children, unless it is disabled. -/
def LeafIfEnabled (tree : ElementTree) (x : NodeId) : Prop :=
  ∀ node, enabledNode tree x = some node → node.children = []

theorem leaf_some (hnode : enabledNode tree x = some node) :
    LeafIfEnabled tree x ↔ node.children = [] := by
  simp [LeafIfEnabled, hnode]

variable (c tree x) in
/-- The registry has a binding for the node, unless it is disabled. -/
def Known : Prop :=
  ∀ node, enabledNode tree x = some node → ∃ found, c.registry.get node.value.testClass = some found

/-- The collectors of the run: more, and no more than the limit. -/
structure Grown (c : ScopeCompiler) (plan plan' : CompiledScopePlan) : Prop where
  collectors : plan.runCollectors.length ≤ plan'.runCollectors.length
  bounded : plan.runCollectors.length ≤ c.limits.maxComponents →
    plan'.runCollectors.length ≤ c.limits.maxComponents

theorem Grown.refl (c : ScopeCompiler) (plan : CompiledScopePlan) : Grown c plan plan :=
  ⟨le_rfl, id⟩

theorem Grown.trans {p₁ p₂ p₃ : CompiledScopePlan} (h : Grown c p₁ p₂) (h' : Grown c p₂ p₃) :
    Grown c p₁ p₃ :=
  ⟨h.collectors.trans h'.collectors, fun hb => h'.bounded (h.bounded hb)⟩

/-- A change that leaves the collectors alone. -/
theorem Grown.of_eq (h : plan'.runCollectors = plan.runCollectors) : Grown c plan plan' := by
  constructor <;> rw [h]
  exact id

theorem pushCollector_ok {collector : ScopeComponent}
    (h : pushCollector c plan collector = .ok plan') :
    plan'.packages = plan.packages ∧ Grown c plan plan' ∧
      plan.runCollectors.length < plan'.runCollectors.length := by
  unfold pushCollector at h
  dsimp only at h
  split_ifs at h with hlim
  obtain rfl := Except.ok.inj h
  refine ⟨rfl, ⟨?_, fun _ => Nat.le_of_not_lt hlim⟩, ?_⟩ <;> simp

/-! ## The first pass -/

variable (c tree b x acc acc') in
/-- What the first pass does with one child. -/
structure Collected : Prop where
  components : acc'.2 = acc.2 ++ (componentOn c tree b x).toList
  packages : acc'.1.packages = acc.1.packages
  grown : Grown c acc.1 acc'.1
  collector : IsCollector c tree x →
    acc.1.runCollectors.length < acc'.1.runCollectors.length ∧ LeafIfEnabled tree x
  depth : enabledNode tree x = none → b.path.length ≤ c.limits.maxDepth
  known : Known c tree x

theorem collected_enabled (hnode : enabledNode tree x = some node)
    (h : collectEnabled c (taskOf c tree b bs) x node acc = .ok acc') :
    Collected c tree b x acc acc' := by
  obtain ⟨found, hbind, h⟩ := bind_ok.mp h
  obtain ⟨-, -, h⟩ := bind_ok.mp h
  have hfnd := registry_binding hbind
  have hcomp := component_enabled (b := b) hnode hfnd
  have henb : enabledNode tree x = none → b.path.length ≤ c.limits.maxDepth := by
    rw [hnode]
    exact nofun
  have hknown : Known c tree x := by
    simp [Known, hnode, hfnd]
  by_cases hcoll : isResultCollector node.value found = true
  · rw [if_pos hcoll] at h
    obtain ⟨-, -, h⟩ := bind_ok.mp h
    obtain ⟨hleaf, h⟩ := ite_error_ok.mp h
    obtain ⟨plan, hplan, h⟩ := bind_ok.mp h
    obtain ⟨hpackages, hgrown, hlt⟩ := pushCollector_ok hplan
    obtain rfl := Except.ok.inj h
    refine ⟨?_, hpackages, hgrown, fun _ => ⟨hlt, ?_⟩, henb, hknown⟩
    rotate_left
    · rw [leaf_some hnode]
      simpa using hleaf
    have hlsn : isScopeCategory found.category = true := by
      rw [listener_collector hcoll]
      rfl
    rw [hcomp, hcoll, hlsn]
    cases hrun : b.runLevel <;> simp [taskOf, pathWith, hrun]
  · have hno : ¬ IsCollector c tree x := by
      simpa [IsCollector, hnode, hfnd] using hcoll
    rw [if_neg hcoll] at h
    rw [Bool.not_eq_true] at hcoll
    rw [hcoll] at hcomp
    split_ifs at h with hskip hscp
    · obtain rfl := Except.ok.inj h
      refine ⟨?_, rfl, .refl c acc.1, fun h => absurd h hno, henb, hknown⟩
      have : found.category = .lifecycle := by
        simp only [isNonExecutableLifecycle, Bool.and_eq_true, beq_iff_eq] at hskip
        exact hskip.1.1
      simp [hcomp, this, isScopeCategory]
    · obtain rfl := Except.ok.inj h
      refine ⟨?_, rfl, .refl c acc.1, fun h => absurd h hno, henb, hknown⟩
      simp [hcomp, hscp, taskOf, pathWith]
    · obtain rfl := Except.ok.inj h
      refine ⟨?_, rfl, .refl c acc.1, fun h => absurd h hno, henb, hknown⟩
      simp [hcomp, hscp]

theorem collected_child (h : (collectChild c tree (taskOf c tree b bs) acc x).Returns (.ok acc')) :
    Collected c tree b x acc acc' := by
  obtain ⟨node, hget, h⟩ := returns_bind_ok.mp h
  rw [returns_lift, getNode_ok] at hget
  cases henb : node.value.enabled with
  | true =>
    simp only [henb, Bool.not_true, Bool.false_eq_true, if_false, returns_ofExcept] at h
    exact collected_enabled (enabledNode_some hget henb) h
  | false =>
    simp only [henb, Bool.not_false, if_true] at h
    obtain ⟨disabled, hdisabled, h⟩ := returns_bind_ok.mp h
    obtain rfl := Except.ok.inj (returns_pure.mp h)
    have hnone := enabledNode_none hget henb
    refine ⟨?_, rfl, .of_eq rfl, ?_, fun _ => depth_disabled hdisabled, ?_⟩
    · simp [componentOn, hnone]
    · simp [IsCollector, hnone]
    · simp [Known, hnone]

theorem filterMap_concat {α β : Type} (f : α → Option β) (as : List α) (a : α) :
    (as ++ [a]).filterMap f = as.filterMap f ++ (f a).toList := by
  rw [filterMap_append, filterMap_cons]
  cases f a <;> rfl

theorem forall_concat {α : Type} {P : α → Prop} {as : List α} {a : α} (has : ∀ x ∈ as, P x)
    (ha : P a) : ∀ x ∈ as ++ [a], P x :=
  forall_mem_append.mpr ⟨has, forall_mem_singleton.mpr ha⟩

variable (c tree b) in
/-- The first pass over a branch. -/
structure CollectedAll (done : List NodeId) (plan : CompiledScopePlan)
    (acc : CompiledScopePlan × List ScopeComponent) : Prop where
  components : acc.2 = done.filterMap (componentOn c tree b)
  packages : acc.1.packages = plan.packages
  grown : Grown c plan acc.1
  collector : ∀ x ∈ done, IsCollector c tree x →
    plan.runCollectors.length < acc.1.runCollectors.length ∧ LeafIfEnabled tree x
  depth : ∀ x ∈ done, enabledNode tree x = none → b.path.length ≤ c.limits.maxDepth
  known : ∀ x ∈ done, Known c tree x

theorem collectedAll
    (h : (b.children.foldlM (collectChild c tree (taskOf c tree b bs)) (plan, [])).Returns
      (.ok acc)) : CollectedAll c tree b b.children plan acc := by
  refine foldlM_induct (P := fun done acc => CollectedAll c tree b done plan acc) h ?_ ?_
  · exact ⟨rfl, rfl, .refl c plan, by simp, by simp, by simp⟩
  · intro done x acc acc' _ hdone hchild
    have hx := collected_child hchild
    refine ⟨?_, hx.packages.trans hdone.packages, hdone.grown.trans hx.grown,
      forall_concat (fun y hy hcoll => ?_) fun hcoll => ?_,
      forall_concat hdone.depth hx.depth, forall_concat hdone.known hx.known⟩
    · rw [hx.components, hdone.components, filterMap_concat]
    · obtain ⟨hlt, hleaf⟩ := hdone.collector y hy hcoll
      exact ⟨hlt.trans_le hx.grown.collectors, hleaf⟩
    · obtain ⟨hlt, hleaf⟩ := hx.collector hcoll
      exact ⟨hdone.grown.collectors.trans_lt hlt, hleaf⟩

/-! ## Samplers -/

/-- What compiling a sampler does with one of its children. -/
structure Attached (c : ScopeCompiler) (tree : ElementTree) (sb : Branch) (x : NodeId)
    (acc acc' : CompiledScopePlan × List ScopeComponent) : Prop where
  components : acc'.2 = acc.2 ++ (componentOn c tree sb x).toList
  packages : acc'.1.packages = acc.1.packages
  grown : Grown c acc.1 acc'.1
  leaf : LeafIfEnabled tree x

theorem attached_enabled {sb : Branch} (hrun : sb.runLevel = false)
    (hnode : enabledNode tree x = some node)
    (h : attachEnabled c s x (pathWith sb.path x) node acc = .ok acc') :
    Attached c tree sb x acc acc' := by
  obtain ⟨found, hbind, h⟩ := bind_ok.mp h
  have hfnd := registry_binding hbind
  cases hscp : isScopeCategory found.category with
  | false =>
    rw [hscp] at h
    cases h
  | true =>
    simp only [hscp, Bool.not_true, Bool.false_eq_true, if_false] at h
    obtain ⟨-, -, h⟩ := bind_ok.mp h
    obtain ⟨plan, hplan, h⟩ := bind_ok.mp h
    obtain ⟨hleaf, h⟩ := ite_error_ok.mp h
    obtain rfl := Except.ok.inj h
    have hkept : plan.packages = acc.1.packages ∧ Grown c acc.1 plan := by
      unfold pushIfCollector at hplan
      split_ifs at hplan
      · exact ⟨(pushCollector_ok hplan).1, (pushCollector_ok hplan).2.1⟩
      · obtain rfl := Except.ok.inj hplan
        exact ⟨rfl, .refl c acc.1⟩
    refine ⟨?_, hkept.1, hkept.2, ?_⟩
    · simp [component_enabled hnode hfnd, hscp, hrun, pathWith]
    · rw [leaf_some hnode]
      simpa using hleaf

theorem attached_child {sb : Branch} (hrun : sb.runLevel = false)
    (h : (attachChild c tree s sb.path acc x).Returns (.ok acc')) :
    Attached c tree sb x acc acc' := by
  obtain ⟨node, hget, h⟩ := returns_bind_ok.mp h
  rw [returns_lift, getNode_ok] at hget
  cases henb : node.value.enabled with
  | true =>
    simp only [henb, Bool.not_true, Bool.false_eq_true, if_false, returns_ofExcept] at h
    exact attached_enabled hrun (enabledNode_some hget henb) h
  | false =>
    simp only [henb, Bool.not_false, if_true] at h
    obtain ⟨disabled, -, h⟩ := returns_bind_ok.mp h
    obtain rfl := Except.ok.inj (returns_pure.mp h)
    have hnone := enabledNode_none hget henb
    exact ⟨by simp [componentOn, hnone], rfl, .of_eq rfl, by simp [LeafIfEnabled, hnone]⟩

theorem attachedAll (sb : Branch) (hrun : sb.runLevel = false)
    (h : (sb.children.foldlM (attachChild c tree s sb.path) (plan, [])).Returns (.ok acc)) :
    acc.2 = levelComponents c tree sb ∧ acc.1.packages = plan.packages ∧ Grown c plan acc.1 ∧
      ∀ x ∈ sb.children, LeafIfEnabled tree x := by
  refine foldlM_induct (P := fun done acc =>
    acc.2 = done.filterMap (componentOn c tree sb) ∧ acc.1.packages = plan.packages ∧
      Grown c plan acc.1 ∧ ∀ x ∈ done, LeafIfEnabled tree x) h ?_ ?_
  · exact ⟨rfl, rfl, .refl c plan, by simp⟩
  · rintro done x acc acc' - ⟨hcomps, hpackages, hgrown, hleaf⟩ hchild
    have hx := attached_child hrun hchild
    refine ⟨?_, hx.packages.trans hpackages, hgrown.trans hx.grown, forall_concat hleaf hx.leaf⟩
    rw [hx.components, hcomps, filterMap_concat]

variable (c tree b bs s) in
/-- The package of a sampler on the innermost level of a trail. -/
structure Packaged (stored : ScopePlan) : Prop where
  eq : ∃ node found, enabledNode tree s = some node ∧
    c.registry.get node.value.testClass = some found ∧
    stored = package s found ⟨s, b.path ++ [s], node.value, found⟩
      (scopeOf c tree (samplerBranch tree b s :: b :: bs))
      (b.path.filter (onControllerPath c tree))
  leaf : ∀ x ∈ (samplerBranch tree b s).children, LeafIfEnabled tree x

theorem storePackage_ok {samplerPath : List NodeId} {scope : List ScopeComponent}
    {controllerPath : List NodeId}
    (h : storePackage c s samplerPath element found scope controllerPath plan = .ok plan') :
    plan.get s = none ∧ plan.len < c.limits.maxPackages ∧
      plan' = plan.store s
        (package s found ⟨s, samplerPath, element, found⟩ scope controllerPath) := by
  obtain ⟨components, -, h⟩ := bind_ok.mp h
  obtain ⟨-, h⟩ := ite_error_ok.mp h
  obtain ⟨bytes, -, h⟩ := bind_ok.mp h
  obtain ⟨-, h⟩ := ite_error_ok.mp h
  by_cases hlim : plan.len ≥ c.limits.maxPackages
  · rw [if_pos hlim] at h
    cases hcount : checkedAdd usizeMax plan.len 1 <;> rw [hcount] at h <;> cases h
  · rw [if_neg hlim] at h
    obtain ⟨hdup, h⟩ := ite_error_ok.mp h
    refine ⟨?_, Nat.lt_of_not_le hlim, (Except.ok.inj h).symm⟩
    simpa using hdup

variable (c tree b bs s) in
/-- What one sampler adds to the plan. -/
structure Stored (plan plan' : CompiledScopePlan) : Prop where
  fresh : plan.get s = none
  room : plan.len < c.limits.maxPackages
  grown : Grown c plan plan'
  stored : ∃ pkg, Packaged c tree b bs s pkg ∧ plan'.packages = plan.packages.insert s pkg

theorem stored_sampler (hcat : categoryOf c tree s = some .sampler)
    (h : (compileSampler c tree s (pathWith b.path s) (scopeOf c tree (b :: bs))
      (b.path.filter (onControllerPath c tree)) plan).Returns (.ok plan')) :
    Stored c tree b bs s plan plan' := by
  obtain ⟨enabled, found, henb, hfnd, -⟩ := category_some.mp hcat
  have hget := (enabledNode_eq.mp henb).1
  obtain ⟨node, hnode, h⟩ := returns_bind_ok.mp h
  rw [returns_lift, getNode_ok, hget] at hnode
  cases hnode
  obtain ⟨found', hbind, h⟩ := returns_bind_ok.mp h
  rw [returns_lift] at hbind
  obtain rfl : found = found' := Option.some.inj (hfnd.symm.trans (registry_binding hbind))
  obtain ⟨acc, hacc, h⟩ := returns_bind_ok.mp h
  have hbranch : (samplerBranch tree b s).children = enabled.children := by
    simp [samplerBranch, hget]
  obtain ⟨hcomps, hpackages, hgrown, hleaf⟩ :=
    attachedAll (samplerBranch tree b s) rfl (hbranch ▸ hacc)
  rw [returns_ofExcept, hcomps] at h
  obtain ⟨hfresh, hroom, rfl⟩ := storePackage_ok h
  have hget' : ∀ id, acc.1.get id = plan.get id := fun id => by
    simp only [CompiledScopePlan.get, hpackages]
  have hlen : acc.1.len = plan.len := by simp only [CompiledScopePlan.len, hpackages]
  refine ⟨hget' s ▸ hfresh, hlen ▸ hroom, hgrown.trans (.of_eq rfl), _,
    ⟨⟨enabled, found, henb, hfnd, rfl⟩, hleaf⟩, ?_⟩
  simp only [CompiledScopePlan.store, hpackages]
  rfl

/-! ## The second pass -/

variable (c tree b x) in
/-- The replacement edge of a node closes no cycle of replaceable nodes. -/
def ChainFree : Prop :=
  ∀ node target, enabledNode tree x = some node → categoryOf c tree x = some .replaceable →
    targetOf node.value = some target → target ≠ x ∧ target ∉ b.path.filter (isReplaceable c tree)

variable (c tree b bs x) in
/-- What the second pass does with one child. -/
structure Expanded (acc acc' : CompiledScopePlan × List ScopeTask) : Prop where
  tasks : acc'.2 = ((enter c tree b x).map fun b' => taskOf c tree b' (b :: bs)).toList ++ acc.2
  packages : (categoryOf c tree x = some .sampler ∧ Stored c tree b bs x acc.1 acc'.1) ∨
    (categoryOf c tree x ≠ some .sampler ∧ acc'.1.packages = acc.1.packages ∧
      acc'.1.runCollectors = acc.1.runCollectors)
  chain : ChainFree c tree b x

/-- A child that pushes nothing and stores nothing. -/
theorem Expanded.skip {acc : CompiledScopePlan × List ScopeTask}
    (hcat : categoryOf c tree x ≠ some .sampler) (hrep : categoryOf c tree x ≠ some .replaceable)
    (henter : enter c tree b x = none) : Expanded c tree b bs x acc acc :=
  ⟨by rw [henter]; rfl, .inr ⟨hcat, rfl, rfl⟩, fun _ _ _ h => absurd h hrep⟩

theorem Expanded.own {acc : CompiledScopePlan × List ScopeTask} {category : ComponentCategory}
    {runLevel : Bool} {controllerPath : List NodeId}
    (hcat : categoryOf c tree x = some category) (hsampler : category ≠ .sampler)
    (hrep : category ≠ .replaceable)
    (hpath : controllerPath = (b.path ++ [x]).filter (onControllerPath c tree))
    (henter : enter c tree b x = some ⟨b.path ++ [x], node.children, runLevel, b.expanded⟩) :
    Expanded c tree b bs x acc (acc.1, ownBranch (taskOf c tree b bs) (scopeOf c tree (b :: bs)) x
      node category controllerPath runLevel :: acc.2) := by
  refine ⟨?_, .inr ⟨?_, rfl, rfl⟩, fun _ _ _ h => ?_⟩
  · rw [henter, hpath]
    simp [ownBranch, taskOf, pathWith, hcat, isReplaceable, hrep]
  · rw [hcat]
    simpa using hsampler
  · rw [hcat] at h
    exact absurd (Option.some.inj h) hrep

section

variable {acc acc' : CompiledScopePlan × List ScopeTask} (hnode : enabledNode tree x = some node)
  (hfnd : c.registry.get node.value.testClass = some found)

include hnode hfnd

theorem category_found : categoryOf c tree x = some found.category :=
  category_some.mpr ⟨node, found, hnode, hfnd, rfl⟩

theorem expanded_replace (hrep : found.category = .replaceable)
    (h : expandReplaceable tree (taskOf c tree b bs) (scopeOf c tree (b :: bs)) x node acc =
      .ok acc') : Expanded c tree b bs x acc acc' := by
  have hcat : categoryOf c tree x = some .replaceable := hrep ▸ category_found hnode hfnd
  obtain ⟨target?, htarget, h⟩ := bind_ok.mp h
  cases target? with
  | none => cases h
  | some target =>
    have htarget := targetOf_target htarget
    obtain ⟨-, h⟩ := ite_error_ok.mp h
    obtain ⟨hcycle, h⟩ := ite_error_ok.mp h
    obtain rfl := Except.ok.inj h
    refine ⟨?_, .inr ⟨?_, rfl, rfl⟩, ?_⟩
    · rw [enter_some.mpr ⟨node, found, hnode, hfnd, .inl ⟨hrep, target, htarget, rfl⟩⟩]
      simp [taskOf, pathWith, hcat, isReplaceable, onControllerPath]
    · rw [hcat]
      simp
    · intro node' target' hnode' _ htarget'
      cases hnode.symm.trans hnode'
      cases htarget.symm.trans htarget'
      exact not_or.mp hcycle

section

variable (hscp : isScopeCategory found.category = true)

include hscp

theorem enter_none (hemp : node.children = []) : enter c tree b x = none := by
  rw [Option.eq_none_iff_forall_ne_some]
  intro b' hb'
  obtain ⟨node', found', hnode', hfound', hb'⟩ := enter_some.mp hb'
  cases hnode.symm.trans hnode'
  cases hfnd.symm.trans hfound'
  rcases hb' with ⟨h, -⟩ | ⟨h | h, -⟩ | ⟨-, h, -⟩
  · simp [h, isScopeCategory] at hscp
  · simp [h, isScopeCategory] at hscp
  · simp [h, isScopeCategory] at hscp
  · exact h hemp

theorem expanded_element : Expanded c tree b bs x acc
      (expandScopeElement (taskOf c tree b bs) (scopeOf c tree (b :: bs)) x node found acc) := by
  have hcat := category_found hnode hfnd
  have hns : found.category ≠ .sampler := by intro h; simp [h, isScopeCategory] at hscp
  have hnr : found.category ≠ .replaceable := by intro h; simp [h, isScopeCategory] at hscp
  have hnc : found.category ≠ .controller := by intro h; simp [h, isScopeCategory] at hscp
  unfold expandScopeElement
  by_cases hemp : node.children = []
  · rw [if_pos (by simp [hemp])]
    exact .skip (by simpa [hcat] using hns) (by simpa [hcat] using hnr)
      (enter_none hnode hfnd hscp hemp)
  · rw [if_neg (by simpa using hemp)]
    refine .own hcat hns hnr ?_ (enter_some.mpr ⟨node, found, hnode, hfnd,
      .inr (.inr ⟨hscp, hemp, rfl⟩)⟩)
    simp [taskOf, onControllerPath, hcat, hnc, hnr]

end

theorem expanded_owner (hown : found.category = .controller ∨ found.category = .lifecycle) :
    Expanded c tree b bs x acc
      (expandOwner (taskOf c tree b bs) (scopeOf c tree (b :: bs)) x node found acc) := by
  have hcat := category_found hnode hfnd
  have hns : found.category ≠ .sampler := by rcases hown with h | h <;> simp [h]
  have hnr : found.category ≠ .replaceable := by rcases hown with h | h <;> simp [h]
  unfold expandOwner
  rw [taskOf_expansion]
  by_cases hskip : (isNonExecutableLifecycle node.value found && !b.expanded) = true
  · rw [if_pos hskip]
    refine .skip (by simpa [hcat] using hns) (by simpa [hcat] using hnr) ?_
    rcases hown with h | h <;> simpa [enter, hnode, hfnd, h] using hskip
  · rw [if_neg hskip]
    refine .own hcat hns hnr ?_ (enter_some.mpr ⟨node, found, hnode, hfnd,
      .inr (.inl ⟨hown, Bool.eq_false_iff.mpr hskip, rfl⟩)⟩)
    rcases hown with h | h <;> simp [taskOf, onControllerPath, hcat, h]

end

theorem expanded_child {acc acc' : CompiledScopePlan × List ScopeTask}
    (hleaf : IsCollector c tree x → LeafIfEnabled tree x)
    (h : (expandChild c tree (taskOf c tree b bs) (scopeOf c tree (b :: bs)) acc x).Returns
      (.ok acc')) : Expanded c tree b bs x acc acc' := by
  obtain ⟨node, hget, h⟩ := returns_bind_ok.mp h
  rw [returns_lift, getNode_ok] at hget
  cases henb : node.value.enabled with
  | false =>
    simp only [henb, Bool.not_false, if_true] at h
    obtain rfl := Except.ok.inj (returns_pure.mp h)
    have hnone := enabledNode_none hget henb
    exact .skip (by simp [categoryOf, hnone]) (by simp [categoryOf, hnone]) (by simp [enter, hnone])
  | true =>
    simp only [henb, Bool.not_true, Bool.false_eq_true, if_false] at h
    have hnode := enabledNode_some hget henb
    obtain ⟨found, hbind, h⟩ := returns_bind_ok.mp h
    rw [returns_lift] at hbind
    have hfnd := registry_binding hbind
    have hcat := category_found hnode hfnd
    rw [taskOf_runLevel] at h
    by_cases hrun : (b.runLevel && isResultCollector node.value found) = true
    · -- A collector at run level is a leaf, so there is nothing to enter.
      rw [if_pos hrun] at h
      obtain rfl := Except.ok.inj (returns_pure.mp h)
      have hcoll := (Bool.and_eq_true_iff.mp hrun).2
      have hlsn := listener_collector hcoll
      refine .skip (by simp [hcat, hlsn]) (by simp [hcat, hlsn]) ?_
      refine enter_none hnode hfnd (by rw [hlsn]; rfl) ?_
      exact hleaf ⟨node, found, hnode, hfnd, hcoll⟩ node hnode
    · rw [if_neg hrun] at h
      cases hfc : found.category <;> simp only [hfc] at h
      case sampler =>
        obtain ⟨plan, hplan, h⟩ := returns_bind_ok.mp h
        obtain rfl := Except.ok.inj (returns_pure.mp h)
        rw [hfc] at hcat
        refine ⟨?_, .inl ⟨hcat, stored_sampler hcat hplan⟩, ?_⟩
        · simp [enter, hnode, hfnd, hfc]
        · intro _ _ _ hrep
          rw [hcat] at hrep
          cases hrep
      case replaceable => exact expanded_replace hnode hfnd hfc (returns_ofExcept.mp h)
      case controller | lifecycle =>
        obtain rfl := Except.ok.inj (returns_pure.mp h)
        exact expanded_owner hnode hfnd (by simp [hfc])
      all_goals
        obtain rfl := Except.ok.inj (returns_pure.mp h)
        exact expanded_element hnode hfnd (by rw [hfc]; rfl)

/-! ## Both passes -/

variable (c tree b bs plan plan') in
/-- **One round of the walk without an error.** -/
structure Stepped : Prop where
  stored : ∀ s ∈ b.children, categoryOf c tree s = some .sampler →
    ∃ pkg, plan'.get s = some pkg ∧ Packaged c tree b bs s pkg
  kept : ∀ {s pkg}, plan.get s = some pkg → plan'.get s = some pkg
  only : ∀ {s pkg}, plan'.get s = some pkg → plan.get s = some pkg ∨
    s ∈ b.children ∧ categoryOf c tree s = some .sampler ∧ Packaged c tree b bs s pkg
  scope : (scopeOf c tree (b :: bs)).length ≤ c.limits.maxComponents
  grown : Grown c plan plan'
  collector : ∀ x ∈ b.children, IsCollector c tree x →
    plan.runCollectors.length < plan'.runCollectors.length
  depth : ∀ x ∈ b.children, enabledNode tree x = none → b.path.length ≤ c.limits.maxDepth
  known : ∀ x ∈ b.children, Known c tree x
  len : plan.len ≤ plan'.len
  room : plan.len ≤ c.limits.maxPackages → plan'.len ≤ c.limits.maxPackages
  sampler : ∀ x ∈ b.children, categoryOf c tree x = some .sampler → plan.len < plan'.len
  chain : ∀ x ∈ b.children, ChainFree c tree b x

variable (c tree b bs) in
/-- What the second pass has done after some of the children. -/
structure ExpandedAll (done : List NodeId) (plan : CompiledScopePlan)
    (acc : CompiledScopePlan × List ScopeTask) : Prop where
  tasks : acc.2 = (done.reverse.filterMap (enter c tree b)).map fun b' => taskOf c tree b' (b :: bs)
  stored : ∀ s ∈ done, categoryOf c tree s = some .sampler →
    ∃ pkg, acc.1.get s = some pkg ∧ Packaged c tree b bs s pkg
  kept : ∀ {s pkg}, plan.get s = some pkg → acc.1.get s = some pkg
  only : ∀ {s pkg}, acc.1.get s = some pkg → plan.get s = some pkg ∨
    s ∈ done ∧ categoryOf c tree s = some .sampler ∧ Packaged c tree b bs s pkg
  grown : Grown c plan acc.1
  len : plan.len ≤ acc.1.len
  room : plan.len ≤ c.limits.maxPackages → acc.1.len ≤ c.limits.maxPackages
  sampler : ∀ x ∈ done, categoryOf c tree x = some .sampler → plan.len < acc.1.len
  chain : ∀ x ∈ done, ChainFree c tree b x

theorem Stored.get (h : Stored c tree b bs s plan plan') :
    (∃ pkg, plan'.get s = some pkg ∧ Packaged c tree b bs s pkg) ∧
      (∀ id, id ≠ s → plan'.get id = plan.get id) ∧ plan'.len = plan.len + 1 := by
  obtain ⟨pkg, hpkg, heq⟩ := h.stored
  refine ⟨⟨pkg, ?_, hpkg⟩, ?_, ?_⟩
  · rw [CompiledScopePlan.get, heq, AList.lookup_insert]
  · intro id hne
    rw [CompiledScopePlan.get, heq, AList.lookup_insert_ne hne]
    rfl
  · have hfresh : s ∉ plan.packages := AList.lookup_eq_none.mp h.fresh
    rw [CompiledScopePlan.len, heq, AList.entries_insert_of_notMem hfresh, length_cons]
    rfl

theorem ExpandedAll.step {done : List NodeId} {plan : CompiledScopePlan}
    {acc acc' : CompiledScopePlan × List ScopeTask}
    (hdone : ExpandedAll c tree b bs done plan acc) (hx : Expanded c tree b bs x acc acc') :
    ExpandedAll c tree b bs (done ++ [x]) plan acc' := by
  have htasks : acc'.2 = ((done ++ [x]).reverse.filterMap (enter c tree b)).map
      fun b' => taskOf c tree b' (b :: bs) := by
    rw [hx.tasks, hdone.tasks, reverse_append, reverse_singleton, singleton_append, filterMap_cons]
    cases enter c tree b x <;> rfl
  have hchain : ∀ y ∈ done ++ [x], ChainFree c tree b y := forall_concat hdone.chain hx.chain
  rcases hx.packages with ⟨hcat, hsto⟩ | ⟨hcat, hpackages, hcollectors⟩
  · obtain ⟨⟨pkg, hpkg, hpackaged⟩, hother, hlen⟩ := hsto.get
    have hkept : ∀ {id pkg}, acc.1.get id = some pkg → acc'.1.get id = some pkg := by
      intro id pkg' hid
      have hne : id ≠ x := by
        rintro rfl
        rw [hsto.fresh] at hid
        cases hid
      rw [hother id hne, hid]
    refine ⟨htasks, forall_concat (fun s hs hscat => ?_) fun _ => ⟨pkg, hpkg, hpackaged⟩,
      fun h => hkept (hdone.kept h), ?_, hdone.grown.trans hsto.grown,
      by have := hdone.len; omega, fun _ => by have := hsto.room; omega, ?_, hchain⟩
    · obtain ⟨pkg', hpkg', hpackaged'⟩ := hdone.stored s hs hscat
      exact ⟨pkg', hkept hpkg', hpackaged'⟩
    · intro s pkg' hs
      by_cases hsx : s = x
      · subst hsx
        rw [hpkg] at hs
        cases hs
        exact .inr ⟨by simp, hcat, hpackaged⟩
      · rw [hother s hsx] at hs
        rcases hdone.only hs with hold | ⟨hmem, hrest⟩
        · exact .inl hold
        · exact .inr ⟨mem_append_left _ hmem, hrest⟩
    · intro _ _ _
      have := hdone.len
      omega
  · have hget : ∀ id, acc'.1.get id = acc.1.get id := fun id => by
      rw [CompiledScopePlan.get, hpackages]
      rfl
    have hlen : acc'.1.len = acc.1.len := by
      rw [CompiledScopePlan.len, hpackages]
      rfl
    refine ⟨htasks, forall_concat (fun s hs => hget s ▸ hdone.stored s hs) (absurd · hcat),
      fun h => (hget _).trans (hdone.kept h), ?_, hdone.grown.trans (.of_eq hcollectors),
      hlen ▸ hdone.len, hlen ▸ hdone.room,
      forall_concat (hlen ▸ hdone.sampler) (absurd · hcat), hchain⟩
    · intro s pkg hs
      rw [hget] at hs
      rcases hdone.only hs with hold | ⟨hmem, hrest⟩
      · exact .inl hold
      · exact .inr ⟨mem_append_left _ hmem, hrest⟩

theorem stepped_walk {pushed : List ScopeTask}
    (h : (walkStep c tree plan (taskOf c tree b bs)).Returns (.ok (plan', pushed))) :
    pushed = nextTasks c tree b bs ∧ Stepped c tree b bs plan plan' := by
  obtain ⟨collected, hcollected, h⟩ := returns_bind_ok.mp h
  have hfirst := collectedAll hcollected
  have hscp : (taskOf c tree b bs).inherited ++ collected.2 = scopeOf c tree (b :: bs) := by
    rw [hfirst.components]
    rfl
  rw [hscp] at h
  by_cases hlim : (scopeOf c tree (b :: bs)).length > c.limits.maxComponents
  · rw [if_pos hlim] at h
    cases returns_fail.mp h
  rw [if_neg hlim] at h
  have hsec : ExpandedAll c tree b bs b.children.reverse collected.1 (plan', pushed) := by
    refine foldlM_induct (P := fun done acc => ExpandedAll c tree b bs done collected.1 acc) h ?_ ?_
    · exact ⟨rfl, by simp, id, .inl, .refl c _, le_rfl, id, by simp, by simp⟩
    · intro done x acc acc' hpre hdone hchild
      refine hdone.step (expanded_child (fun hcoll => ?_) hchild)
      have hx : x ∈ b.children := by
        have : x ∈ b.children.reverse := hpre.subset (by simp)
        simpa using this
      exact (hfirst.collector x hx hcoll).2
  have hget : ∀ id, collected.1.get id = plan.get id := fun id => by
    rw [CompiledScopePlan.get, hfirst.packages]
    rfl
  have hlen : collected.1.len = plan.len := by
    rw [CompiledScopePlan.len, hfirst.packages]
    rfl
  refine ⟨?_, ?_⟩
  · have htasks := hsec.tasks
    rw [reverse_reverse] at htasks
    exact htasks
  · refine ⟨fun s hs => hsec.stored s (by simpa using hs), fun hs => ?_, fun hs => ?_,
      Nat.le_of_not_lt hlim, hfirst.grown.trans hsec.grown, fun x hx hcoll => ?_,
      hfirst.depth, hfirst.known, hlen ▸ hsec.len, hlen ▸ hsec.room,
      fun x hx => hlen ▸ hsec.sampler x (by simpa using hx),
      fun x hx => hsec.chain x (by simpa using hx)⟩
    · exact hsec.kept ((hget _).trans hs)
    · rcases hsec.only hs with hold | ⟨hmem, hrest⟩
      · exact .inl ((hget _).symm.trans hold)
      · exact .inr ⟨by simpa using hmem, hrest⟩
    · exact (hfirst.collector x hx hcoll).1.trans_le hsec.grown.collectors

end

end JmeterRs.Scope
