import JmeterRs.Controllers.Node
import JmeterRs.Lib.Text
import Mathlib.Data.Finset.Insert

/-!
# Compilation of a controller tree

`compileTree` is the iterative postorder pass of the source: a stack of tasks, a stack of result
indices and the growing list of compiled nodes.  Disabled subtrees are accounted for but produce
a single `disabled` node.  Stacks are lists whose head is the top.
-/

namespace JmeterRs.Controllers

/-- A node of the compiled program; children are positions in the node list. -/
inductive CompiledNode
  | sample (id : ElementId)
  | simple (id : ElementId) (children : List NodeIndex)
  | loop (id : ElementId) (count : LoopCount) (children : List NodeIndex)
  | disabled (id : ElementId)
  | onceOnly (id : ElementId) (children : List NodeIndex)
  | interleave (id : ElementId) (children : List NodeIndex)
  | random (id : ElementId) (seed : UInt64) (children : List NodeIndex)
  | randomOrder (id : ElementId) (seed : UInt64) (children : List NodeIndex)
  deriving DecidableEq, Repr

def CompiledNode.children : CompiledNode → List NodeIndex
  | .simple _ children | .loop _ _ children | .onceOnly _ children | .interleave _ children
  | .random _ _ children | .randomOrder _ _ children => children
  | .sample _ | .disabled _ => []

/-- An immutable compiled controller tree. -/
structure ControllerProgram where
  nodes : List CompiledNode
  root : NodeIndex
  deriving DecidableEq, Repr

/-- Child lists are vectors of the source: their lengths fit in a `usize`. -/
def ControllerProgram.Bounded (p : ControllerProgram) : Prop :=
  ∀ node ∈ p.nodes, node.children.length ≤ usizeMax

/-- Work left to the compiler. -/
inductive CompileTask
  | enter (node : ControllerNode) (depth : ℕ)
  | inspectDisabled (node : ControllerNode) (depth : ℕ)
  | build (node : ControllerNode)

/-- The compiler's local variables. -/
structure CompileState where
  tasks : List CompileTask
  results : List NodeIndex
  nodes : List CompiledNode
  seen : ℕ
  seenIds : Finset ElementId

def sourceId : ControllerNode → ElementId
  | .sample id | .simple id _ | .loop id _ _ | .disabled id _ | .onceOnly id _
  | .interleave id _ | .random id _ _ | .randomOrder id _ _ | .unsupported id _ => id

def sourceChildren : ControllerNode → Option (List ControllerNode)
  | .simple _ children | .loop _ _ children | .disabled _ children | .onceOnly _ children
  | .interleave _ children | .random _ _ children | .randomOrder _ _ children => some children
  | .sample _ | .unsupported _ _ => none

/-- Cuts a controller kind to `MAX_CONTROLLER_KIND_BYTES` at a character boundary. -/
def boundedKind (value : String) : String := truncateBytes maxControllerKindBytes value

/-- Checks and counts one source node. -/
def accountSourceNode (node : ControllerNode) (depth : ℕ) (limits : ControllerLimits)
    (st : CompileState) : Except ControllerError CompileState :=
  if limits.maxDepth < depth then .error (.planTooDeep depth limits.maxDepth)
  else
    match checkedAdd usizeMax st.seen 1 with
    | none => .error (.counterOverflow "controller-nodes")
    | some next =>
      if limits.maxNodes < next then .error (.planTooLarge next limits.maxNodes)
      else if sourceId node ∈ st.seenIds then .error (.duplicateElementId (sourceId node))
      else .ok { st with seen := next, seenIds := insert (sourceId node) st.seenIds }

/-- Checks that the children of a node fit in the node limit. -/
def ensureChildCapacity (childCount seen : ℕ) (limits : ControllerLimits) :
    Except ControllerError Unit :=
  if limits.maxNodes < seen then .error (.counterOverflow "controller-node-budget")
  else if limits.maxNodes - seen < childCount then
    match checkedAdd usizeMax seen childCount with
    | none => .error (.counterOverflow "controller-node-budget")
    | some nodes => .error (.planTooLarge nodes limits.maxNodes)
  else .ok ()

/-- Depth of the children of a node at `depth`. -/
def childDepth (depth : ℕ) : Except ControllerError ℕ :=
  match checkedAdd usizeMax depth 1 with
  | some d => .ok d
  | none => .error (.counterOverflow "controller-depth")

/-- Appends a compiled node and pushes its index. -/
def CompileState.emit (st : CompileState) (node : CompiledNode) : CompileState :=
  { st with nodes := st.nodes ++ [node], results := st.nodes.length :: st.results }

/-- The compiled form of a controller over its children's indices. -/
def compiledController (children : List NodeIndex) : ControllerNode → Option CompiledNode
  | .simple id _ => some (.simple id children)
  | .loop id count _ => some (.loop id count children)
  | .onceOnly id _ => some (.onceOnly id children)
  | .interleave id _ => some (.interleave id children)
  | .random id seed _ => some (.random id seed children)
  | .randomOrder id seed _ => some (.randomOrder id seed children)
  | .sample _ | .disabled _ _ | .unsupported _ _ => none

def compileTask (limits : ControllerLimits) (task : CompileTask) (st : CompileState) :
    Except ControllerError CompileState :=
  match task with
  | .enter node depth => do
    let st ← accountSourceNode node depth limits st
    match node with
    | .sample id => pure (st.emit (.sample id))
    | .disabled id children =>
      let st := st.emit (.disabled id)
      ensureChildCapacity children.length st.seen limits
      let d ← childDepth depth
      pure { st with tasks := children.map (.inspectDisabled · d) ++ st.tasks }
    | .unsupported id kind => throw (.unsupportedController id (boundedKind kind))
    | .simple _ children | .loop _ _ children | .onceOnly _ children | .interleave _ children
    | .random _ _ children | .randomOrder _ _ children =>
      ensureChildCapacity children.length st.seen limits
      let d ← childDepth depth
      pure { st with tasks := children.map (.enter · d) ++ .build node :: st.tasks }
  | .inspectDisabled node depth => do
    let st ← accountSourceNode node depth limits st
    match sourceChildren node with
    | none => pure st
    | some children =>
      ensureChildCapacity children.length st.seen limits
      let d ← childDepth depth
      pure { st with tasks := children.map (.inspectDisabled · d) ++ st.tasks }
  | .build node =>
    match sourceChildren node with
    | none => throw (.invalidState st.nodes.length)
    | some children =>
      if st.results.length < children.length then throw (.invalidState st.nodes.length)
      else
        -- `split_off` keeps the order in which the children were pushed
        match compiledController (st.results.take children.length).reverse node with
        | none => throw (.invalidState st.nodes.length)
        | some compiled =>
          pure ({ st with results := st.results.drop children.length }.emit compiled)

/-- One round of the task loop; it breaks when no task is left. -/
def compileRound (limits : ControllerLimits) : EStateM ControllerError CompileState (Option Unit) :=
  fun st =>
    match st.tasks with
    | [] => .ok (some ()) st
    | task :: tasks =>
      match compileTask limits task { st with tasks } with
      | .ok st' => .ok none st'
      | .error e => .error e st

mutual

def ControllerNode.size : ControllerNode → ℕ
  | .sample _ | .unsupported _ _ => 1
  | .simple _ children | .loop _ _ children | .disabled _ children | .onceOnly _ children
  | .interleave _ children | .random _ _ children | .randomOrder _ _ children =>
    sizeList children + 1

def sizeList : List ControllerNode → ℕ
  | [] => 0
  | node :: nodes => node.size + sizeList nodes

end

/-- The compiler's state before its first round. -/
def CompileState.init (root : ControllerNode) : CompileState := ⟨[.enter root 0], [], [], 0, ∅⟩

/-- Compiles a tree to its node list and the index of its root. -/
def compileTree (root : ControllerNode) (limits : ControllerLimits) :
    Except ControllerError ControllerProgram :=
  match loopM (.invalidState 0) (compileRound limits) (2 * root.size + 1) (.init root) with
  | .error e _ => .error e
  | .ok () st =>
    match st.results with
    | [] => .error (.invalidState 0)
    | [index] => .ok ⟨st.nodes, index⟩
    | index :: _ => .error (.invalidState index)

def ControllerProgram.compileWithLimits (root : ControllerNode) (limits : ControllerLimits) :
    Except ControllerError ControllerProgram :=
  compileTree root limits

def ControllerProgram.compile (root : ControllerNode) : Except ControllerError ControllerProgram :=
  compileWithLimits root ControllerLimits.default

end JmeterRs.Controllers
