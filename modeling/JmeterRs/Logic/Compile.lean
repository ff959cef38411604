import JmeterRs.Logic.Node
import Mathlib.Data.Finset.Insert
import Mathlib.Data.List.Flatten

/-!
# Compilation of a logic tree

`compileWithLimits` walks the tree with a stack, counts its nodes and rejects a tree that is too
deep, too large, uses an id twice, has an unresolved replacement or a percentage out of range.
What traversal needs from it is `ids_nodup_of_compile`: the ids of an accepted tree are distinct,
so a subtree is determined by its id (`eq_of_id_eq`).
-/

namespace JmeterRs.Logic

open Controllers (ElementId)

/-! ## Subtrees -/

namespace LogicNode

mutual

def nodes : LogicNode → List LogicNode
  | .sample id => [.sample id]
  | .sequence id children => .sequence id children :: nodesList children
  | .loop id count children => .loop id count children :: nodesList children
  | .ifController id condition each children =>
    .ifController id condition each children :: nodesList children
  | .whileController id condition max children =>
    .whileController id condition max children :: nodesList children
  | .forEach id input output children => .forEach id input output children :: nodesList children
  | .switch id selection children => .switch id selection children :: nodesList children
  | .interleave id children => .interleave id children :: nodesList children
  | .random id children => .random id children :: nodesList children
  | .randomOrder id children => .randomOrder id children :: nodesList children
  | .onceOnly id children => .onceOnly id children :: nodesList children
  | .throughput id mode limit percent perUser children =>
    .throughput id mode limit percent perUser children :: nodesList children
  | .runtime id duration children => .runtime id duration children :: nodesList children
  | .transaction id parent timers children =>
    .transaction id parent timers children :: nodesList children
  | .moduleController id target => .moduleController id target :: nodesOption target
  | .includeController id target => .includeController id target :: nodesOption target
  | .recording id children => .recording id children :: nodesList children
  | .criticalSection id lock children => .criticalSection id lock children :: nodesList children

def nodesList : List LogicNode → List LogicNode
  | [] => []
  | node :: rest => node.nodes ++ nodesList rest

def nodesOption : Option LogicNode → List LogicNode
  | none => []
  | some node => node.nodes

end

theorem nodesList_eq (children : List LogicNode) : nodesList children = children.flatMap nodes := by
  induction children with
  | nil => rfl
  | cons child rest ih => rw [nodesList, ih, List.flatMap_cons]

theorem nodesOption_eq (target : Option LogicNode) :
    nodesOption target = target.toList.flatMap nodes := by
  cases target with
  | none => rfl
  | some node => simp [nodesOption]

variable {node : LogicNode}

theorem nodes_eq : node.nodes = node :: node.inner.flatMap nodes := by
  cases node <;> simp [nodes, inner, children, nodesList_eq, nodesOption_eq]

theorem mem_nodes_self : node ∈ node.nodes := by
  rw [nodes_eq]
  exact .head _

variable {child node root : LogicNode}

theorem nodes_inner (h : child ∈ node.inner) : child.nodes ⊆ node.nodes := by
  intro sub hsub
  rw [node.nodes_eq]
  exact .tail _ (List.mem_flatMap.mpr ⟨child, h, hsub⟩)

theorem induct_inner {motive : LogicNode → Prop}
    (step : ∀ node, (∀ child ∈ node.inner, motive child) → motive node) (node : LogicNode) :
    motive node := by
  -- the number of nodes goes down
  induction hn : node.nodes.length using Nat.strong_induction_on generalizing node with
  | _ n ih =>
    refine step node fun child hchild => ih child.nodes.length ?_ child rfl
    have hle : child.nodes.length ≤ (node.inner.flatMap nodes).length := by
      obtain ⟨before, after, hsplit⟩ := List.append_of_mem hchild
      rw [hsplit, List.flatMap_append, List.flatMap_cons, List.length_append, List.length_append]
      omega
    rw [← hn, node.nodes_eq, List.length_cons]
    omega

theorem mem_nodes_trans {sub : LogicNode} (h : node ∈ root.nodes) (hsub : sub ∈ node.nodes) :
    sub ∈ root.nodes := by
  induction root using induct_inner with
  | step root ih =>
    rw [root.nodes_eq] at h
    rcases List.mem_cons.mp h with rfl | h
    · exact hsub
    · obtain ⟨child, hchild, hnode⟩ := List.mem_flatMap.mp h
      exact nodes_inner hchild (ih child hchild hnode)

def ids (node : LogicNode) : List ElementId := node.nodes.map id

theorem ids_eq : node.ids = node.id :: node.inner.flatMap ids := by
  unfold ids
  rw [node.nodes_eq, List.map_cons, List.map_flatMap]

/-- In a tree with distinct ids, the id determines the node. -/
theorem eq_of_id_eq {a b : LogicNode} (h : root.ids.Nodup) (ha : a ∈ root.nodes)
    (hb : b ∈ root.nodes) (hid : a.id = b.id) : a = b :=
  List.inj_on_of_nodup_map h ha hb hid

theorem ids_nodup_of_mem (h : root.ids.Nodup) (hmem : node ∈ root.nodes) : node.ids.Nodup := by
  induction root using induct_inner with
  | step root ih =>
    have hmem' := hmem
    rw [root.nodes_eq] at hmem'
    rcases List.mem_cons.mp hmem' with rfl | hin
    · exact h
    · obtain ⟨child, hchild, hnode⟩ := List.mem_flatMap.mp hin
      rw [root.ids_eq, List.nodup_cons] at h
      exact ih child hchild ((List.nodup_flatMap.mp h.2).1 child hchild) hnode

/-- The id of a node does not occur below it. -/
theorem id_notMem_inner (h : node.ids.Nodup) (hchild : child ∈ node.inner) :
    node.id ∉ child.ids := by
  rw [node.ids_eq, List.nodup_cons] at h
  exact fun hmem => h.1 (List.mem_flatMap.mpr ⟨child, hchild, hmem⟩)

end LogicNode

/-! ## The compiler -/

structure LogicProgram where
  root : LogicNode
  limits : LogicLimits
  usesRandom : Bool

/-- The variables of the compilation loop.  The head of `stack` is its top. -/
structure CompileState where
  stack : List (LogicNode × ℕ)
  count : ℕ
  usesRandom : Bool
  seenIds : Finset ElementId

open CompileState

/-- Whether a node draws when it is visited. -/
def drawsRandom : LogicNode → Bool
  | .random _ children | .randomOrder _ children | .switch _ .random children => 1 < children.length
  | _ => false

/-- Checks one node and stacks the nodes below it. -/
def compileNode (limits : LogicLimits) (node : LogicNode) (depth : ℕ) (st : CompileState) :
    Except LogicControllerError CompileState :=
  let count := saturatingAdd usizeMax st.count 1
  let next := saturatingAdd usizeMax depth 1
  if limits.maxDepth < depth then .error (.planTooDeep depth limits.maxDepth)
  else if limits.maxNodes < count then .error (.planTooLarge count limits.maxNodes)
  else if node.id ∈ st.seenIds then .error (.duplicateControllerId node.id)
  else
    let st : CompileState :=
      { stack := (node.children.getD []).map (·, next) ++ st.stack
        count
        usesRandom := st.usesRandom || drawsRandom node
        seenIds := insert node.id st.seenIds }
    match node with
    | .moduleController id target | .includeController id target =>
      match target with
      | none => .error (.unresolvedReplacement id)
      | some replacement => .ok { st with stack := (replacement, next) :: st.stack }
    | .throughput id .percentage _ percent _ _ =>
      if !percent.isFinite || !(0.0 ≤ percent && percent ≤ 100.0) then
        .error (.invalidPercentage id percent)
      else .ok st
    | _ => .ok st

/-- The loop `while let Some(..) = stack.pop()`.  Each round takes one node, so as many rounds as
the tree has nodes empty the stack. -/
def compileLoop (limits : LogicLimits) : ℕ → CompileState →
    Except LogicControllerError CompileState
  | 0, st => .ok st
  | n + 1, st =>
    match st.stack with
    | [] => .ok st
    | (node, depth) :: stack =>
      match compileNode limits node depth { st with stack } with
      | .error e => .error e
      | .ok st => compileLoop limits n st

def LogicProgram.compileWithLimits (root : LogicNode) (limits : LogicLimits) :
    Except LogicControllerError LogicProgram :=
  match compileLoop limits root.nodes.length ⟨[(root, 0)], 0, false, ∅⟩ with
  | .error e => .error e
  | .ok st => .ok ⟨root, limits, st.usesRandom⟩

def LogicProgram.compile (root : LogicNode) : Except LogicControllerError LogicProgram :=
  compileWithLimits root LogicLimits.default

variable {root : LogicNode} {st st' : CompileState}

theorem compileWithLimits_eq_ok {limits : LogicLimits} {usesRandom : Bool}
    (h : (compileLoop limits root.nodes.length ⟨[(root, 0)], 0, false, ∅⟩).toOption.map
      (·.usesRandom) = some usesRandom) :
    LogicProgram.compileWithLimits root limits = .ok ⟨root, limits, usesRandom⟩ := by
  unfold LogicProgram.compileWithLimits
  cases hloop : compileLoop limits root.nodes.length ⟨[(root, 0)], 0, false, ∅⟩ with
  | error e => simp [hloop, Except.toOption] at h
  | ok st => simpa [hloop, Except.toOption] using h

/-! ## An accepted tree has distinct ids -/

/-- The nodes still to be visited. -/
def CompileState.pending (st : CompileState) : List LogicNode := st.stack.map (·.1)

variable {limits : LogicLimits}

theorem compileNode_ok {node : LogicNode} {depth : ℕ}
    (h : compileNode limits node depth st = .ok st') :
    node.id ∉ st.seenIds ∧ st'.seenIds = insert node.id st.seenIds ∧
      st'.pending = node.inner ++ st.pending := by
  unfold compileNode at h
  dsimp only at h
  split at h
  · cases h
  split at h
  · cases h
  split at h
  · cases h
  next hseen =>
  refine ⟨hseen, ?_⟩
  split at h
  · split at h <;> cases h
    simp [pending, LogicNode.inner, LogicNode.children]
  · split at h <;> cases h
    simp [pending, LogicNode.inner, LogicNode.children]
  · split at h <;> cases h
    simp [pending, LogicNode.inner, LogicNode.children, Function.comp_def]
  · next hmodule hinclude _ =>
    cases h
    refine ⟨rfl, ?_⟩
    have hinner : node.inner = node.children.getD [] := by
      cases node <;> first | rfl | exact absurd rfl (hmodule _ _) | exact absurd rfl (hinclude _ _)
    simp [pending, hinner, Function.comp_def]

theorem compileLoop_ok {n : ℕ} (h : compileLoop limits n st = .ok st')
    (hn : (st.pending.flatMap LogicNode.nodes).length ≤ n) :
    (st.pending.flatMap LogicNode.ids).Nodup ∧
      ∀ id ∈ st.pending.flatMap LogicNode.ids, id ∉ st.seenIds := by
  induction n generalizing st with
  | zero =>
    have hempty : st.pending.flatMap LogicNode.nodes = [] :=
      List.length_eq_zero_iff.mp (Nat.le_zero.mp hn)
    have hids : st.pending.flatMap LogicNode.ids = [] := by
      unfold LogicNode.ids
      rw [← List.map_flatMap, hempty, List.map_nil]
    simp [hids]
  | succ n ih =>
    obtain ⟨stack, count, usesRandom, seenIds⟩ := st
    obtain _ | ⟨⟨node, depth⟩, stack⟩ := stack
    · simp [pending]
    · simp only [compileLoop] at h
      cases hnode : compileNode limits node depth ⟨stack, count, usesRandom, seenIds⟩ with
      | error e => simp [hnode] at h
      | ok st₁ =>
        simp only [hnode] at h
        obtain ⟨hfresh, hseen, hpend⟩ := compileNode_ok hnode
        have hfirst : pending ⟨(node, depth) :: stack, count, usesRandom, seenIds⟩ =
            node :: pending ⟨stack, count, usesRandom, seenIds⟩ := rfl
        rw [hfirst, List.flatMap_cons] at hn ⊢
        rw [node.nodes_eq, List.cons_append, List.length_cons, ← List.flatMap_append, ← hpend] at hn
        obtain ⟨hnodup, hapart⟩ := ih h (by omega)
        rw [node.ids_eq, List.cons_append, ← List.flatMap_append, ← hpend]
        rw [hseen] at hapart
        simp only [Finset.mem_insert, not_or] at hapart
        refine ⟨List.nodup_cons.mpr ⟨fun hmem => (hapart _ hmem).1 rfl, hnodup⟩, ?_⟩
        intro id hid
        rcases List.mem_cons.mp hid with rfl | hid
        · exact hfresh
        · exact (hapart id hid).2

/-- **An accepted tree has distinct ids.** -/
theorem ids_nodup_of_compile {program : LogicProgram}
    (h : LogicProgram.compileWithLimits root limits = .ok program) :
    program.root = root ∧ program.limits = limits ∧ root.ids.Nodup := by
  unfold LogicProgram.compileWithLimits at h
  cases hloop : compileLoop limits root.nodes.length ⟨[(root, 0)], 0, false, ∅⟩ with
  | error e => simp [hloop] at h
  | ok st =>
    simp only [hloop] at h
    cases h
    have hpend : pending ⟨[(root, 0)], 0, false, ∅⟩ = [root] := rfl
    obtain ⟨hnodup, -⟩ := compileLoop_ok hloop (by simp [hpend])
    rw [hpend, List.flatMap_singleton] at hnodup
    exact ⟨rfl, rfl, hnodup⟩

end JmeterRs.Logic
