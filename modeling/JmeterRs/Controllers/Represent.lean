import JmeterRs.Controllers.Compile
import Mathlib.Data.List.Forall2

/-!
# The compiled program represents its tree

The compiler works off a stack of tasks and writes nodes in postorder.  `Represents nodes tree i`
says that the node at `i` is the compiled form of `tree`, all the way down; `compile_represents`
that a program returned by the compiler represents its source at its root.
-/

namespace JmeterRs.Controllers

open List ControllerNode

/-- The node at an index is the compiled form of a tree. -/
inductive Represents (nodes : List CompiledNode) : ControllerNode → NodeIndex → Prop
  | sample {id : ElementId} {i : NodeIndex} (h : nodes[i]? = some (.sample id)) :
      Represents nodes (.sample id) i
  | disabled {id : ElementId} {children : List ControllerNode} {i : NodeIndex}
      (h : nodes[i]? = some (.disabled id)) : Represents nodes (.disabled id children) i
  | controller {node : ControllerNode} {children : List ControllerNode} {indices : List NodeIndex}
      {compiled : CompiledNode} {i : NodeIndex} (hs : sourceChildren node = some children)
      (hc : compiledController indices node = some compiled) (h : nodes[i]? = some compiled)
      (hchildren : List.Forall₂ (Represents nodes) children indices) : Represents nodes node i

/-! ## Induction over trees -/

variable {child : ControllerNode} {children : List ControllerNode}

theorem size_le_sizeList (h : child ∈ children) : child.size ≤ sizeList children := by
  induction children with
  | nil => cases h
  | cons first rest ih =>
    rw [sizeList]
    rcases mem_cons.mp h with rfl | h
    · omega
    · have := ih h
      omega

theorem size_lt_of_mem {node : ControllerNode} (hs : sourceChildren node = some children)
    (h : child ∈ children) : child.size < node.size := by
  have hle := size_le_sizeList h
  cases node <;> simp only [sourceChildren, Option.some.injEq, reduceCtorEq] at hs <;>
    (subst hs; rw [size]; omega)

/-- Induction over a tree: a property passes from the children of a node to the node. -/
theorem ControllerNode.induct_children {P : ControllerNode → Prop}
    (step : ∀ node, (∀ children, sourceChildren node = some children →
      ∀ child ∈ children, P child) → P node) (node : ControllerNode) : P node := by
  induction hn : node.size using Nat.strongRecOn generalizing node with
  | ind n ih =>
    subst hn
    refine step node fun children hs child hmem => ?_
    exact ih _ (size_lt_of_mem hs hmem) child rfl

/-! ## The task loop -/

/-- Nodes are only appended, so what is represented stays so. -/
theorem Represents.append {nodes : List CompiledNode} (more : List CompiledNode) :
    ∀ (tree : ControllerNode) {i : NodeIndex}, Represents nodes tree i →
      Represents (nodes ++ more) tree i := by
  intro tree
  have hget {i : NodeIndex} {c : CompiledNode} (h : nodes[i]? = some c) :
      (nodes ++ more)[i]? = some c := by
    rw [getElem?_append_left (List.getElem?_eq_some_iff.mp h).1, h]
  induction tree using induct_children with
  | step node ih =>
    intro i h
    cases h with
    | sample h => exact .sample (hget h)
    | disabled h => exact .disabled (hget h)
    | controller hs hc h hchildren =>
      refine .controller hs hc (hget h) ?_
      have hmono := ih _ hs
      clear hs hc h
      induction hchildren with
      | nil => exact .nil
      | cons hx _ ihl =>
        exact .cons (hmono _ (.head _) hx) (ihl fun c hc _ => hmono c (.tail _ hc))

section

variable (limits : ControllerLimits)

/-- The task loop ends in `final` from `st`. -/
def Compiles (st final : CompileState) : Prop :=
  ∃ n stuck, loopM stuck (compileRound limits) n st = .ok () final

variable {limits} {final st : CompileState} {depth : ℕ} {tasks : List CompileTask}
  {node : ControllerNode} {children : List ControllerNode} {compiled : CompiledNode}

theorem Compiles.nil (h : Compiles limits st final) (ht : st.tasks = []) : final = st := by
  obtain ⟨n, stuck, h⟩ := h
  cases n with
  | zero => cases h
  | succ n =>
    have hround : compileRound limits st = .ok (some ()) st := by simp only [compileRound, ht]
    rw [loopM_break hround] at h
    cases h
    rfl

theorem Compiles.cons {st final : CompileState} {task : CompileTask} {tasks : List CompileTask}
    (h : Compiles limits st final) (ht : st.tasks = task :: tasks) :
    ∃ st', compileTask limits task { st with tasks } = .ok st' ∧ Compiles limits st' final := by
  obtain ⟨n, stuck, h⟩ := h
  cases n with
  | zero => cases h
  | succ n =>
    cases htask : compileTask limits task { st with tasks } with
    | error e =>
      have hround : compileRound limits st = .error e st := by
        simp only [compileRound, ht, htask]
      rw [loopM_error hround] at h
      cases h
    | ok st' =>
      have hround : compileRound limits st = .ok none st' := by
        simp only [compileRound, ht, htask]
      rw [loopM_continue hround] at h
      exact ⟨st', rfl, n, stuck, h⟩

/-- Accounting for a node touches only the counters. -/
theorem account_ok {st' : CompileState} (h : accountSourceNode node depth limits st = .ok st') :
    st'.tasks = st.tasks ∧ st'.nodes = st.nodes ∧ st'.results = st.results := by
  unfold accountSourceNode at h
  split at h
  · cases h
  split at h
  · cases h
  split_ifs at h
  cases h
  exact ⟨rfl, rfl, rfl⟩

theorem capacity_ok {count seen : ℕ}
    (h : ensureChildCapacity count seen limits = .ok ()) : count ≤ limits.maxNodes := by
  unfold ensureChildCapacity at h
  split_ifs at h
  · cases hc : checkedAdd usizeMax seen count <;> simp [hc] at h
  · omega

/-- What a finished part of the work leaves: the tasks below it, the nodes it appended and the
indices it pushed. -/
structure Progress (st st' : CompileState) (tasks : List CompileTask)
    (indices : List NodeIndex) : Prop where
  tasks : st'.tasks = tasks
  nodes : ∃ new, st'.nodes = st.nodes ++ new ∧ ∀ node ∈ new, node.children.length ≤ usizeMax
  results : st'.results = indices.reverse ++ st.results

theorem Progress.refl (h : st.tasks = tasks) : Progress st st tasks [] :=
  ⟨h, ⟨[], by simp, by simp⟩, rfl⟩

theorem Progress.trans {st' st'' : CompileState} {tasks' : List CompileTask}
    {is js : List NodeIndex} (h : Progress st st' tasks is) (h' : Progress st' st'' tasks' js) :
    Progress st st'' tasks' (is ++ js) := by
  obtain ⟨new, hnew, hbound⟩ := h.nodes
  obtain ⟨new', hnew', hbound'⟩ := h'.nodes
  refine ⟨h'.tasks, ⟨new ++ new', by rw [hnew', hnew, append_assoc], ?_⟩, ?_⟩
  · intro node hmem
    exact (mem_append.mp hmem).elim (hbound node) (hbound' node)
  · rw [h'.results, h.results, reverse_append, append_assoc]

/-- Nodes that differ only in counters make the same progress. -/
theorem Progress.of_eq {st₁ st' : CompileState} {is : List NodeIndex}
    (h : Progress st₁ st' tasks is) (hn : st₁.nodes = st.nodes) (hr : st₁.results = st.results) :
    Progress st st' tasks is :=
  ⟨h.tasks, hn ▸ h.nodes, hr ▸ h.results⟩

theorem inspectAll_run (ih : ∀ child ∈ children, ∀ {st : CompileState} {tasks : List CompileTask},
      Compiles limits st final → st.tasks = .inspectDisabled child depth :: tasks →
      ∃ st', Compiles limits st' final ∧ Progress st st' tasks []) (h : Compiles limits st final)
    (ht : st.tasks = children.map (.inspectDisabled · depth) ++ tasks) :
    ∃ st', Compiles limits st' final ∧ Progress st st' tasks [] := by
  induction children generalizing st with
  | nil => exact ⟨st, h, Progress.refl ht⟩
  | cons child rest ihl =>
    obtain ⟨st₁, h₁, hp₁⟩ := ih child (.head _) h ht
    obtain ⟨st₂, h₂, hp₂⟩ := ihl (fun c hc => ih c (.tail _ hc)) h₁ hp₁.tasks
    exact ⟨st₂, h₂, hp₁.trans hp₂⟩

/-- Disabled subtrees are checked and leave nothing. -/
theorem inspect_progress (h : Compiles limits st final)
    (ht : st.tasks = .inspectDisabled node depth :: tasks) :
    ∃ st', Compiles limits st' final ∧ Progress st st' tasks [] := by
  induction node using induct_children generalizing st depth tasks with
  | step node ih =>
    obtain ⟨st₁, htask, h₁⟩ := h.cons ht
    obtain ⟨st₂, hacc, htask⟩ := bind_ok.mp htask
    obtain ⟨htasks, hnodes, hresults⟩ := account_ok hacc
    cases hs : sourceChildren node with
    | none =>
      rw [hs] at htask
      cases htask
      exact ⟨_, h₁, (Progress.refl htasks).of_eq hnodes hresults⟩
    | some children =>
      rw [hs] at htask
      obtain ⟨⟨⟩, -, htask⟩ := bind_ok.mp htask
      obtain ⟨d, -, htask⟩ := bind_ok.mp htask
      cases htask
      obtain ⟨st₃, h₃, hp⟩ := inspectAll_run
        (fun child hmem _ _ hc htc => ih children hs child hmem hc htc) h₁ (by rw [htasks])
      exact ⟨st₃, h₃, hp.of_eq hnodes hresults⟩

theorem enterAll_run (ih : ∀ child ∈ children, ∀ {st : CompileState} {tasks : List CompileTask},
      Compiles limits st final → st.tasks = .enter child depth :: tasks →
      ∃ st' i, Compiles limits st' final ∧ Progress st st' tasks [i] ∧
        Represents st'.nodes child i) (h : Compiles limits st final)
    (ht : st.tasks = children.map (.enter · depth) ++ tasks) :
    ∃ st' is, Compiles limits st' final ∧ Progress st st' tasks is ∧
      List.Forall₂ (Represents st'.nodes) children is := by
  induction children generalizing st with
  | nil => exact ⟨st, [], h, Progress.refl ht, .nil⟩
  | cons child rest ihl =>
    obtain ⟨st₁, i, h₁, hp₁, hr₁⟩ := ih child (.head _) h ht
    obtain ⟨st₂, is, h₂, hp₂, hr₂⟩ := ihl (fun c hc => ih c (.tail _ hc)) h₁ hp₁.tasks
    refine ⟨st₂, i :: is, h₂, hp₁.trans hp₂, .cons ?_ hr₂⟩
    obtain ⟨new, hnew, -⟩ := hp₂.nodes
    rw [hnew]
    exact hr₁.append new child

theorem Progress.emit {st₁ : CompileState} {compiled : CompiledNode} (ht : st₁.tasks = tasks)
    (hn : st₁.nodes = st.nodes) (hr : st₁.results = st.results)
    (hb : compiled.children.length ≤ usizeMax) :
    Progress st (st₁.emit compiled) tasks [st.nodes.length] := by
  refine ⟨ht, ⟨[compiled], by simp [CompileState.emit, hn], by simpa using hb⟩, ?_⟩
  simp [CompileState.emit, hn, hr]

theorem emit_get? : (st.emit compiled).nodes[st.nodes.length]? = some compiled := by
  simp [CompileState.emit]

theorem compiled_children {indices : List NodeIndex}
    (h : compiledController indices node = some compiled) : compiled.children = indices := by
  cases node <;> simp only [compiledController, Option.some.injEq, reduceCtorEq] at h <;>
    (subst h; rfl)

section

variable {node : ControllerNode} {children : List ControllerNode} {depth : ℕ} {st' : CompileState}

section

variable (hs : sourceChildren node = some children)

include hs

/-- An enabled controller schedules its children and, below them, its own build. -/
theorem enter_controller (hc : (compiledController [] node).isSome)
    (h : compileTask limits (.enter node depth) st = .ok st') :
    ∃ d, st'.tasks = children.map (.enter · d) ++ .build node :: st.tasks ∧
      st'.nodes = st.nodes ∧ st'.results = st.results ∧ children.length ≤ limits.maxNodes := by
  have heq : compileTask limits (.enter node depth) st = (do
      let st ← accountSourceNode node depth limits st
      ensureChildCapacity children.length st.seen limits
      let d ← childDepth depth
      pure { st with tasks := children.map (.enter · d) ++ .build node :: st.tasks }) := by
    cases node <;> simp only [sourceChildren, compiledController, Option.some.injEq,
      reduceCtorEq, Option.isSome_none, Bool.false_eq_true] at hs hc <;> (subst hs; rfl)
  rw [heq] at h
  obtain ⟨st₁, hacc, h⟩ := bind_ok.mp h
  obtain ⟨htasks, hnodes, hresults⟩ := account_ok hacc
  obtain ⟨⟨⟩, hcap, h⟩ := bind_ok.mp h
  obtain ⟨d, -, h⟩ := bind_ok.mp h
  cases h
  exact ⟨d, by rw [htasks], hnodes, hresults, capacity_ok hcap⟩

theorem build_controller {indices below : List NodeIndex} (hlen : indices.length = children.length)
    (hr : st.results = indices.reverse ++ below)
    (h : compileTask limits (.build node) st = .ok st') :
    ∃ compiled, compiledController indices node = some compiled ∧
      st' = ({ st with results := below } : CompileState).emit compiled := by
  have hlen' : indices.reverse.length = children.length := by rw [length_reverse, hlen]
  have htake : (st.results.take children.length).reverse = indices := by
    rw [hr, ← hlen', take_left, reverse_reverse]
  have hdrop : st.results.drop children.length = below := by rw [hr, ← hlen', drop_left]
  simp only [compileTask, hs, htake, hdrop] at h
  split_ifs at h
  cases hc : compiledController indices node with
  | none => simp [hc, throw, throwThe, MonadExceptOf.throw] at h
  | some compiled =>
    simp only [hc, pure, Except.pure, Except.ok.injEq] at h
    exact ⟨compiled, rfl, h.symm⟩

end

end

/-- Compiling a tree appends its nodes and pushes the index that represents it. -/
theorem enter_progress (h : Compiles limits st final) (ht : st.tasks = .enter node depth :: tasks) :
    ∃ st' i, Compiles limits st' final ∧ Progress st st' tasks [i] ∧
      Represents st'.nodes node i := by
  induction node using induct_children generalizing st depth tasks with
  | step node ih =>
    obtain ⟨st₁, htask, h₁⟩ := h.cons ht
    by_cases hc : (compiledController [] node).isSome
    · obtain ⟨children, hs⟩ : ∃ children, sourceChildren node = some children := by
        cases node <;> simp_all [compiledController, sourceChildren]
      obtain ⟨d, htasks, hnodes, hresults, hcap⟩ := enter_controller hs hc htask
      obtain ⟨st₂, is, h₂, hp, hrep⟩ := enterAll_run
        (fun child hmem _ _ hc htc => ih children hs child hmem hc htc) h₁ htasks
      obtain ⟨st₃, hbuild, h₃⟩ := h₂.cons hp.tasks
      obtain ⟨compiled, hcompiled, rfl⟩ := build_controller hs hrep.length_eq.symm
        (by exact hp.results) hbuild
      have hbound : compiled.children.length ≤ usizeMax := by
        rw [compiled_children hcompiled, ← hrep.length_eq]
        exact hcap.trans (limits.maxNodes_le.trans (by decide))
      refine ⟨_, st₂.nodes.length, h₃, ?_, ?_⟩
      · have hemit : Progress { st₂ with tasks, results := st₁.results } _ tasks
            [st₂.nodes.length] := Progress.emit rfl rfl rfl hbound
        obtain ⟨new, hnew, hnb⟩ := hp.nodes
        have hp' : Progress st { st₂ with tasks, results := st₁.results } tasks [] :=
          ⟨rfl, ⟨new, by rw [← hnodes]; exact hnew, hnb⟩, hresults⟩
        exact hp'.trans hemit
      · refine .controller hs hcompiled emit_get? ?_
        exact hrep.imp fun _ _ hr => hr.append [compiled] _
    · obtain ⟨st₂, hacc, htask⟩ := bind_ok.mp htask
      obtain ⟨htasks, hnodes, hresults⟩ := account_ok hacc
      cases node with
      | sample id =>
        cases htask
        exact ⟨_, _, h₁, Progress.emit htasks hnodes hresults (by simp [CompiledNode.children]),
          .sample (hnodes ▸ emit_get?)⟩
      | disabled id children =>
        obtain ⟨⟨⟩, -, htask⟩ := bind_ok.mp htask
        obtain ⟨d, -, htask⟩ := bind_ok.mp htask
        cases htask
        obtain ⟨st₃, h₃, hp⟩ := inspectAll_run
          (fun child _ _ _ hc htc => inspect_progress hc htc) h₁
          (congrArg (children.map (.inspectDisabled · d) ++ ·) htasks)
        have hemit : Progress st (st₂.emit (.disabled id)) tasks [st.nodes.length] :=
          Progress.emit htasks hnodes hresults (by simp [CompiledNode.children])
        have hp' : Progress (st₂.emit (.disabled id)) st₃ tasks [] := hp.of_eq rfl rfl
        refine ⟨st₃, _, h₃, hemit.trans hp', .disabled ?_⟩
        obtain ⟨new, hnew, -⟩ := hp'.nodes
        rw [hnew, getElem?_append_left (by simp [CompileState.emit, hnodes]), ← hnodes]
        exact emit_get?
      | unsupported id kind => cases htask
      | _ => simp [compiledController] at hc

end

/-- **The compiled program represents its tree** at its root. -/
theorem compile_represents {tree : ControllerNode} {limits : ControllerLimits}
    {program : ControllerProgram}
    (h : ControllerProgram.compileWithLimits tree limits = .ok program) :
    Represents program.nodes tree program.root ∧ program.Bounded := by
  unfold ControllerProgram.compileWithLimits compileTree at h
  cases hloop : loopM (.invalidState 0) (compileRound limits) (2 * tree.size + 1) (.init tree) with
  | error e st => simp [hloop] at h
  | ok u final =>
    simp only [hloop] at h
    obtain ⟨st, i, hst, hp, hrep⟩ :=
      enter_progress ⟨_, _, hloop⟩ (rfl : (CompileState.init tree).tasks = _)
    obtain rfl := hst.nil hp.tasks
    have hres : final.results = [i] := hp.results
    obtain ⟨new, hnew, hbound⟩ := hp.nodes
    simp only [hres, Except.ok.injEq] at h
    subst h
    refine ⟨hrep, fun node hmem => hbound node ?_⟩
    simpa [hnew, CompileState.init] using hmem

end JmeterRs.Controllers
