import JmeterRs.Controllers.Plan

/-!
# The plan of a frame and of a round

`framePlan` is the decision of the innermost frame without its budgets, `roundPlan` the round of
the selection loop around it.  `selectRound_eq` is what the rest of the development uses of the
source's code: a round carries out its plan, or is refused and leaves the runner as it was.
-/

namespace JmeterRs.Controllers

open ControllerRunner Plan Plan

/-! ## The decision of a frame -/

namespace ControllerRunner

variable (r : ControllerRunner) (frame : Frame) (id : ElementId) (seed : UInt64)
  (children : List NodeIndex) (child : NodeIndex)

/-- Whether selecting a child takes a unit of the sample budget. -/
def isSample : Bool :=
  match r.program.nodes[child]? with
  | some (.sample _) => true
  | _ => false

def isFirstSample (order : List NodeIndex) : Bool :=
  match order[0]? with
  | some child => r.isSample child
  | none => false

/-- An ordered frame selects `child` and moves on. -/
def childPlan : Plan FrameAction :=
  match checkedAdd usizeMax frame.nextChild 1 with
  | none => ⟨0, r.isSample child, .error (.counterOverflow "controller-child-index"), r⟩
  | some next => ⟨0, r.isSample child, .ok (.select child), r.setTop ({ · with nextChild := next })⟩

/-- An ordered frame goes through `children`, and decides `atEnd` after the last one. -/
def orderedPlan (atEnd : Except ControllerError FrameAction) : Plan FrameAction :=
  match children[frame.nextChild]? with
  | some child => r.childPlan frame child
  | none => .done r atEnd

/-- What a finite Loop decides after its last child. -/
def loopEnd (count : UInt64) : Except ControllerError FrameAction :=
  match checkedAdd u64Max frame.iteration 1 with
  | none => .error (r.iterationOverflow frame.node)
  | some next => if count.toNat ≤ next then .ok .finish else .ok .advanceLoop

/-- An Interleave controller selects the child under its cursor. -/
def interleavePlan : Plan FrameAction :=
  let cursor := (r.interleaveNext id).getD 0
  match children[cursor % children.length]? with
  | none => .done r (.error (.invalidState frame.node))
  | some child =>
    match checkedAdd usizeMax cursor 1 with
    | none => .done r (.error (.counterOverflow "interleave-cursor"))
    | some next =>
      ⟨0, r.isSample child, .ok (.select child),
        (r.withMemory { r.toMemory with
          interleaveNext := Function.update r.interleaveNext id (some next) }).setTop
          ({ · with mode := .oneShot (some child) })⟩

/-- A Random controller draws the child it selects. -/
def randomPlan : Plan FrameAction :=
  let d := r.drawIndex id seed children.length
  match children[d.index]? with
  | none => ⟨d.rejected, false, .error (.invalidState frame.node), r.withMemory d.memory⟩
  | some child =>
    ⟨d.rejected, r.isSample child, .ok (.select child),
      (r.withMemory d.memory).setTop ({ · with mode := .oneShot (some child) })⟩

/-- A Random Order controller draws its permutation and selects from it. -/
def randomOrderPlan : Plan FrameAction :=
  let sh := Memory.shuffle id seed (children.length - 1) children r.toMemory
  let r' := (r.withMemory sh.memory).setTop ({ · with mode := .randomOrder (some sh.order) })
  let reserve := r.isFirstSample sh.order
  match sh.order[frame.nextChild]? with
  | some child =>
    match checkedAdd usizeMax frame.nextChild 1 with
    | none => ⟨sh.rejected, reserve, .error (.counterOverflow "controller-child-index"), r'⟩
    | some next =>
      ⟨sh.rejected, reserve, .ok (.select child), r'.setTop ({ · with nextChild := next })⟩
  | none => ⟨sh.rejected, reserve, .ok .finish, r'⟩

def framePlan : Plan FrameAction :=
  match r.program.nodes[frame.node]? with
  | none | some (.sample _) => .done r (.error (.invalidState frame.node))
  | some (.disabled _) => .done r (.ok .finish)
  | some (.simple _ children) => r.orderedPlan frame children (.ok .finish)
  | some (.loop _ (.finite count) children) =>
    if count = 0 then .done r (.ok .finish)
    else r.orderedPlan frame children (r.loopEnd frame count)
  | some (.loop _ .forever children) => r.orderedPlan frame children (.ok .advanceLoop)
  | some (.onceOnly _ children) =>
    if frame.mode = .skip then .done r (.ok .finish)
    else r.orderedPlan frame children (.ok .finish)
  | some (.interleave id children) =>
    if children.length = 0 then .done r (.ok .finish)
    else
      match frame.mode with
      | .oneShot (some _) => .done r (.ok .finish)
      | .oneShot none => r.interleavePlan frame id children
      | _ => .done r (.error (.invalidState frame.node))
  | some (.random id seed children) =>
    if children.length = 0 then .done r (.ok .finish)
    else
      match frame.mode with
      | .oneShot (some _) => .done r (.ok .finish)
      | .oneShot none => r.randomPlan frame id seed children
      | _ => .done r (.error (.invalidState frame.node))
  | some (.randomOrder id seed children) =>
    if children.length = 0 then .done r (.ok .finish)
    else
      match frame.mode with
      | .randomOrder (some order) => r.orderedPlan frame order (.ok .finish)
      | .randomOrder none => r.randomOrderPlan frame id seed children
      | _ => .done r (.error (.invalidState frame.node))

end ControllerRunner

theorem reserveChild_eq (child : NodeIndex) (c : Call) : reserveChildSample child c =
      if c.runner.isSample child then reserveSample c else .ok () c := by
  unfold reserveChildSample isSample
  simp only [bind, EStateM.bind, getRunner]
  rcases c.runner.program.nodes[child]? with _ | node
  · rfl
  · cases node <;> rfl

section

variable {c : Call} {frame : Frame} {below : List Frame} {child : NodeIndex}
  {previous : Option UInt64} {order : List NodeIndex}

theorem advanceChild_eq (hs : c.runner.stack = frame :: below) : advanceChild c =
      match checkedAdd usizeMax frame.nextChild 1 with
      | none => .error (.counterOverflow "controller-child-index") c
      | some next =>
        .ok () { c with runner := c.runner.setTop ({ · with nextChild := next }) } := by
  unfold advanceChild
  simp only [bind, EStateM.bind, getRunner, hs]
  cases checkedAdd usizeMax frame.nextChild 1 <;> rfl

theorem selectChild_eq (hs : c.runner.stack = frame :: below) :
    selectChild child c = (c.runner.childPlan frame child).run c := by
  unfold selectChild childPlan run accept
  simp only [bind, EStateM.bind, reserveChild_eq, reserveSample]
  cases c.runner.isSample child with
  | false =>
    simp only [Bool.false_eq_true, if_false, advanceChild_eq hs]
    cases checkedAdd usizeMax frame.nextChild 1 <;> simp [pure, EStateM.pure]
  | true =>
    simp only [if_true]
    cases c.runBudget.reserveSample with
    | error e => cases checkedAdd usizeMax frame.nextChild 1 <;> simp
    | ok runBudget =>
      simp only [advanceChild_eq (c := { c with runBudget }) hs]
      cases checkedAdd usizeMax frame.nextChild 1 <;> simp [pure, EStateM.pure]

theorem orderedChild_eq (children : List NodeIndex) (x : CallM FrameAction)
    (atEnd : Except ControllerError FrameAction) (hs : c.runner.stack = frame :: below)
    (hx : x c = lift atEnd c) :
    (match children[frame.nextChild]? with
      | some child => selectChild child
      | none => x : CallM FrameAction) c = (c.runner.orderedPlan frame children atEnd).run c := by
  unfold orderedPlan
  cases children[frame.nextChild]? with
  | none => rw [run_done]; exact hx
  | some child => exact selectChild_eq hs

variable {id : ElementId} {seed : UInt64} {children : List NodeIndex}

theorem restoring_child : restoringRandomState id previous (reserveChildSample child) c =
      c.reserveIf (c.runner.isSample child) (c.runner.setRandomState id previous) := by
  unfold restoringRandomState Call.reserveIf
  rw [reserveChild_eq]
  cases c.runner.isSample child with
  | false => rfl
  | true =>
    simp only [if_true, reserveSample]
    cases c.runBudget.reserveSample <;> rfl

theorem restoring_first : restoringRandomState id previous (reserveFirstSample order) c =
      c.reserveIf (c.runner.isFirstSample order) (c.runner.setRandomState id previous) := by
  unfold reserveFirstSample isFirstSample
  cases order[0]? with
  | none => rfl
  | some child => exact restoring_child

theorem interleave_eq (hn : c.runner.program.nodes[frame.node]? = some (.interleave id children)) :
    interleaveAction frame id children c = (c.runner.framePlan frame).run c := by
  unfold interleaveAction
  simp only [framePlan, hn]
  split_ifs
  · exact run_done_ok _
  cases frame.mode with
  | ordered | skip | randomOrder order => exact run_done_error _
  | oneShot selected =>
    cases selected with
    | some child => exact run_done_ok _
    | none =>
      simp only [interleavePlan, bind, EStateM.bind, getRunner, lift,
        compiledChildAt, compiledChildren, hn]
      generalize (c.runner.interleaveNext id).getD 0 = cursor
      cases children[cursor % children.length]? with
      | none => exact run_done_error _
      | some child =>
        simp only
        cases checkedAdd usizeMax cursor 1 with
        | none => exact run_done_error _
        | some next =>
          simp only [EStateM.bind, reserveChild_eq, run, accept, reserveSample]
          cases c.runner.isSample child with
          | false => simp [modifyRunner, pure, EStateM.pure]; rfl
          | true =>
            cases c.runBudget.reserveSample with
            | error e => simp
            | ok runBudget => simp [modifyRunner, pure, EStateM.pure]; rfl

theorem randomAction_eq (hn : c.runner.program.nodes[frame.node]? = some (.random id seed children))
    (hb : children.length ≤ usizeMax) :
    randomAction frame id seed children c = (c.runner.framePlan frame).run c := by
  unfold randomAction
  simp only [framePlan, hn]
  split_ifs
  · exact run_done_ok _
  cases frame.mode with
  | ordered | skip | randomOrder order => exact run_done_error _
  | oneShot selected =>
    cases selected with
    | some child => exact run_done_ok _
    | none =>
      have hsame := c.runner.toMemory.draw_sameBut id seed children.length
      simp only [randomPlan, bind, EStateM.bind, getRunner]
      rw [restoring_index id seed _ hb]
      generalize c.runner.drawIndex id seed children.length = d at hsame
      simp only [Call.charge]
      by_cases h : c.budget.remaining < d.rejected
      · cases children[d.index]? <;> simp [h, run]
      · have hn' : (c.runner.withMemory d.memory).program.nodes[frame.node]? =
          some (.random id seed children) := hn
        simp only [h, if_false, lift, compiledChildAt, compiledChildren, hn']
        cases children[d.index]? with
        | none => simp [h, run, accept]; rfl
        | some child =>
          have hi : (c.runner.withMemory d.memory).isSample child = c.runner.isSample child := rfl
          simp only [EStateM.bind, restoring_child, Call.reserveIf, hi]
          cases hsample : c.runner.isSample child with
          | false => simp [h, modifyRunner, run, accept, pure, EStateM.pure]
          | true =>
            cases hreserve : c.runBudget.reserveSample with
            | error e =>
              simp [h, hreserve, run, random_withMemory hsame]
            | ok runBudget =>
              simp [h, hreserve, modifyRunner, run, accept, pure, EStateM.pure]

/-- What follows the draw of a permutation. -/
def followOrder (frame : Frame) (order : List NodeIndex) (r : ControllerRunner) :
    Except ControllerError FrameAction × ControllerRunner :=
  let r' := r.setTop ({ · with mode := .randomOrder (some order) })
  match order[frame.nextChild]? with
  | some child =>
    match checkedAdd usizeMax frame.nextChild 1 with
    | none => (.error (.counterOverflow "controller-child-index"), r')
    | some next => (.ok (.select child), r'.setTop ({ · with nextChild := next }))
  | none => (.ok .finish, r')

section

variable (hs : c.runner.stack = frame :: below)

include hs

theorem followOrder_eq :
    (do
      modifyRunner (·.setTop ({ · with mode := .randomOrder (some order) }))
      match order[frame.nextChild]? with
      | some child =>
        advanceChild
        pure (.select child)
      | none => pure .finish : CallM FrameAction) c = freely (followOrder frame order) c := by
  have hs' : (c.runner.setTop ({ · with mode := .randomOrder (some order) })).stack =
      { frame with mode := .randomOrder (some order) } :: below := by
    simp [setTop, hs]
  simp only [bind, EStateM.bind, modifyRunner, freely, followOrder]
  cases order[frame.nextChild]? with
  | none => rfl
  | some child =>
    simp only [EStateM.bind]
    rw [advanceChild_eq hs']
    simp only
    cases checkedAdd usizeMax frame.nextChild 1 <;> rfl

theorem orderAction_eq
    (hn : c.runner.program.nodes[frame.node]? = some (.randomOrder id seed children))
    (hb : children.length ≤ usizeMax) :
    randomOrderAction frame id seed children c = (c.runner.framePlan frame).run c := by
  unfold randomOrderAction
  simp only [framePlan, hn]
  split_ifs with h0
  · exact run_done_ok _
  cases frame.mode with
  | ordered | skip | oneShot child => exact run_done_error _
  | randomOrder drawn =>
    cases drawn with
    | some order => exact orderedChild_eq order _ _ hs rfl
    | none =>
      have hsame := Memory.shuffle_sameBut id seed (children.length - 1) children c.runner.toMemory
      have hx := shuffle_eq id seed (c.runner.randomStates id) (children.length - 1) children c
        (by omega)
      simp only [randomOrderPlan]
      generalize Memory.shuffle id seed (children.length - 1) children c.runner.toMemory = sh
        at hsame hx
      rw [setRandom_self] at hx
      refine (charged_plan (c.runner.isFirstSample sh.order) (followOrder frame sh.order) hx
        ?_ ?_).trans ?_
      · intro c' hc'
        rw [restoring_first, hc', random_withMemory hsame, setRandom_self]
        rfl
      · intro c' hc'
        exact followOrder_eq (by rw [hc']; exact hs)
      · simp only [followOrder]
        cases sh.order[frame.nextChild]? with
        | none => rfl
        | some child => cases checkedAdd usizeMax frame.nextChild 1 <;> rfl

/-- **The decision of a frame carries out its plan.** -/
theorem frameAction_eq (hb : c.runner.program.Bounded) :
    frameAction frame c = (c.runner.framePlan frame).run c := by
  rcases hn : c.runner.program.nodes[frame.node]? with _ | node
  · simp only [frameAction, framePlan, bind, EStateM.bind, getRunner, compiledNodeKind, hn, lift]
    exact run_done_error _
  have hlen : node.children.length ≤ usizeMax := hb node (List.mem_of_getElem? hn)
  cases node <;>
    simp only [frameAction, framePlan, bind, EStateM.bind, getRunner,
      compiledNodeKind, compiledChildAt,
      compiledChildren, hn, lift]
  case sample id => exact run_done_error _
  case disabled id => exact run_done_ok _
  case simple id children => exact orderedChild_eq children _ _ hs rfl
  case loop id count children =>
    cases count with
    | forever => exact orderedChild_eq children _ _ hs rfl
    | finite count =>
      simp only
      split_ifs
      · exact run_done_ok _
      · refine orderedChild_eq children _ _ hs ?_
        unfold loopEnd
        cases checkedAdd u64Max frame.iteration 1 with
        | none => rfl
        | some next =>
          simp only
          split_ifs <;> rfl
  case onceOnly id children =>
    split_ifs
    · exact run_done_ok _
    · exact orderedChild_eq children _ _ hs rfl
  case interleave id children =>
    exact (interleave_eq hn).trans (by simp only [framePlan, hn])
  case random id seed children =>
    exact (randomAction_eq hn hlen).trans (by simp only [framePlan, hn])
  case randomOrder id seed children =>
    exact (orderAction_eq hs hn hlen).trans (by simp only [framePlan, hn])

end

end

/-! ## The round of the selection loop -/

namespace ControllerRunner

variable (r : ControllerRunner)

/-- The runner after entering `child`, whose compiled node is `node`. -/
def entered (child : NodeIndex) (node : CompiledNode) : ControllerRunner :=
  match node with
  | .disabled _ => { r with stack := ⟨child, 0, 0, .skip⟩ :: r.stack }
  | .onceOnly id _ =>
    if id ∈ r.onceDone then { r with stack := ⟨child, 0, 0, .skip⟩ :: r.stack }
    else { r with
      onceDone := insert id r.onceDone, stack := ⟨child, 0, 0, .ordered⟩ :: r.stack }
  | .interleave _ _ | .random _ _ _ => { r with stack := ⟨child, 0, 0, .oneShot none⟩ :: r.stack }
  | .randomOrder _ _ _ => { r with stack := ⟨child, 0, 0, .randomOrder none⟩ :: r.stack }
  | .sample _ | .simple _ _ | .loop _ _ _ =>
    { r with stack := ⟨child, 0, 0, .ordered⟩ :: r.stack }

/-- Acts on the decision of the innermost frame. -/
def followAction (frame : Frame) (action : FrameAction) (r : ControllerRunner) :
    Except ControllerError (Option ControllerStep) × ControllerRunner :=
  match action with
  | .select child =>
    match r.program.nodes[child]? with
    | some (.sample id) => (.ok (some (.sample (r.selection id))), r)
    | some node => (.ok none, r.entered child node)
    | none => (.error (.invalidState child), r)
  | .finish => (.ok none, { r with stack := r.stack.tail })
  | .advanceLoop =>
    match checkedAdd u64Max frame.iteration 1 with
    | none => (.error (r.iterationOverflow frame.node), r)
    | some iteration =>
      (.ok none, r.setTop ({ · with nextChild := 0, iteration, mode := .ordered }))

/-- The first round of a traversal enters the root. -/
def startPlan : Plan (Option ControllerStep) :=
  match r.program.nodes[r.program.root]? with
  | some (.sample id) =>
    ⟨0, true, .ok (some (.sample (r.selection id))), { r with rootStarted := true }⟩
  | some node => ⟨0, false, .ok none, { r with rootStarted := true }.entered r.program.root node⟩
  | none => .done r (.error (.invalidState r.program.root))

/-- The last round of a traversal counts it. -/
def endPlan : Plan (Option ControllerStep) :=
  match r.rootIdentity with
  | .error e => .done r (.error e)
  | .ok controller =>
    match checkedAdd u64Max r.completedIterations 1 with
    | none => .done r (.error (.iterationOverflow controller))
    | some completed =>
      ⟨0, false, .ok (some .complete),
        { r with finished := true, completedIterations := completed }⟩

/-- What a round does after its transition is paid. -/
def paidPlan : Plan (Option ControllerStep) :=
  if !r.rootStarted then r.startPlan
  else
    match r.stack with
    | [] => r.endPlan
    | frame :: _ => (r.framePlan frame).andThen (followAction frame)

/-- The plan of a round: one transition, unless the runner is stopped. -/
def roundPlan : Plan (Option ControllerStep) :=
  match r.terminal with
  | some signal => .done r (.ok (some (.stopped signal)))
  | none => r.paidPlan.pay 1

end ControllerRunner

variable {c : Call}

theorem pushFrame_eq {child : NodeIndex} {node : CompiledNode}
    (h : c.runner.program.nodes[child]? = some node) :
    pushFrame child 0 c = .ok () { c with runner := c.runner.entered child node } := by
  simp only [pushFrame, bind, EStateM.bind, getRunner, h, entered]
  cases node <;> try rfl
  simp only
  split_ifs <;> rfl

theorem followAction_eq {frame : Frame} {action : FrameAction} :
    (match action with
      | .select child => do
        match (← getRunner).program.nodes[child]? with
        | some (.sample id) => pure (some (.sample ((← getRunner).selection id)))
        | some _ =>
          pushFrame child 0
          pure none
        | none => throw (.invalidState child)
      | .finish => do
        modifyRunner fun r => { r with stack := r.stack.tail }
        pure none
      | .advanceLoop => do
        match checkedAdd u64Max frame.iteration 1 with
        | none => throw ((← getRunner).iterationOverflow frame.node)
        | some iteration =>
          modifyRunner (·.setTop ({ · with nextChild := 0, iteration, mode := .ordered }))
          pure none : CallM (Option ControllerStep)) c =
      freely (followAction frame action) c := by
  cases action with
  | select child =>
    simp only [bind, EStateM.bind, getRunner, freely, followAction]
    rcases h : c.runner.program.nodes[child]? with _ | node
    · rfl
    · cases node <;> simp only [EStateM.bind, pushFrame_eq h] <;> rfl
  | finish => rfl
  | advanceLoop =>
    simp only [bind, freely, followAction]
    cases checkedAdd u64Max frame.iteration 1 <;> rfl

/-- A transition is paid before anything of the runner changes. -/
theorem spend_bind_eq {α : Type} {x : CallM α} {p : Plan α}
    (h : ∀ c', c'.runner = c.runner → x c' = p.run c') :
    (spend >>= fun _ => x) c = (p.pay 1).run c := by
  rw [← run_pay]
  simp only [bind, EStateM.bind, spend]
  cases c.budget.spend with
  | error e => rfl
  | ok budget => exact h _ rfl

theorem startPlan_eq :
    (do
      match c.runner.program.nodes[c.runner.program.root]? with
      | some (.sample id) =>
        reserveSample
        modifyRunner ({ · with rootStarted := true })
        pure (some (.sample ((← getRunner).selection id)))
      | some _ =>
        modifyRunner ({ · with rootStarted := true })
        pushFrame c.runner.program.root 0
        pure none
      | none => throw (.invalidState c.runner.program.root) :
        CallM (Option ControllerStep)) c = c.runner.startPlan.run c := by
  unfold startPlan
  rcases h : c.runner.program.nodes[c.runner.program.root]? with _ | node
  · exact run_done_error _
  · have hpush : ∀ c' : Call, c'.runner = { c.runner with rootStarted := true } →
        pushFrame c.runner.program.root 0 c' =
          .ok () { c' with runner := c'.runner.entered c.runner.program.root node } :=
      fun c' hc' => pushFrame_eq (by rw [hc']; exact h)
    cases node <;> simp only [bind, EStateM.bind, modifyRunner, hpush] <;> try
      simp [run, accept, pure, EStateM.pure]
    simp only [reserveSample]
    cases c.runBudget.reserveSample with
    | error e => simp
    | ok runBudget =>
      simp [getRunner]
      rfl

/-- **A round carries out its plan**, or is refused and leaves the runner as it was. -/
theorem selectRound_eq (hb : c.runner.program.Bounded) :
    selectRound c = c.runner.roundPlan.run c := by
  unfold selectRound roundPlan
  simp only [bind, EStateM.bind, getRunner]
  cases c.runner.terminal with
  | some signal => exact run_done_ok _
  | none =>
    refine spend_bind_eq fun c' hc' => ?_
    rw [← hc'] at hb ⊢
    unfold paidPlan
    cases c'.runner.rootStarted with
    | false => exact startPlan_eq
    | true =>
      simp only [Bool.not_true, Bool.false_eq_true, if_false]
      rcases hs : c'.runner.stack with _ | ⟨frame, below⟩
      · unfold endPlan
        simp only [EStateM.bind, lift]
        cases c'.runner.rootIdentity with
        | error e => exact run_done_error _
        | ok controller =>
          simp only
          cases checkedAdd u64Max c'.runner.completedIterations 1 with
          | none => exact run_done_error _
          | some completed =>
            simp [EStateM.bind, modifyRunner, run, accept, pure, EStateM.pure]
      · rw [← run_andThen]
        simp only [bind, EStateM.bind, frameAction_eq hs hb]
        cases (c'.runner.framePlan frame).run c' with
        | error e c'' => rfl
        | ok action c'' => exact followAction_eq

end JmeterRs.Controllers
