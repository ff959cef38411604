import JmeterRs.Logic.Runner

/-!
# The If frames and the work stack stay in step

Every active If frame has its end marker on the work stack, in the same order, and the path of
every marker that resumes a controller contains the cursor of that controller.  `Opens` says once
what processing an item can do to the stacks; the invariant of a runner follows from it for every
operation, and with it that no step fails with an invariant violation.
-/

namespace JmeterRs.Logic

open LogicRunner WorkItem List

open Controllers (ElementId LoopCount uniformIndex)

/-! ## The invariant -/

def LogicControllerError.isInvariantViolation : LogicControllerError → Bool
  | .invariantViolation _ => true
  | _ => false

/-- A path contains a cursor of the controller. -/
def HasCursor (path : List LogicCursor) (id : ElementId) (kind : String) : Prop :=
  ∃ c ∈ path, c.id = id ∧ c.kind = kind

/-- The path of a marker contains the cursor of its own controller. -/
def WorkItem.OwnCursor : WorkItem → Prop
  | .node .. | .ifEnd .. => True
  | .loopAgain id _ _ path _ => HasCursor path id "LoopController"
  | .whileAgain id _ _ _ path _ => HasCursor path id "WhileController"
  | .forEachAgain id _ _ _ _ path _ => HasCursor path id "ForeachController"
  | .runtimeAgain id _ _ path _ _ => HasCursor path id "RunTime"

/-- The nodes an item still visits. -/
def WorkItem.scheduled : WorkItem → List LogicNode
  | .node n _ _ => [n]
  | .ifEnd _ => []
  | .loopAgain _ _ children _ _ | .whileAgain _ _ _ children _ _
  | .forEachAgain _ _ _ _ children _ _ | .runtimeAgain _ _ children _ _ _ => children

/-- The ids of the If controllers an item closes or may still open. -/
def WorkItem.ids : WorkItem → List ElementId
  | .ifEnd id => [id]
  | item => item.scheduled.flatMap LogicNode.ids

/-- `upper` neither closes nor opens the If controller that `lower` closes. -/
def Apart (upper lower : WorkItem) : Prop := ∀ id, lower.ifEndId = some id → id ∉ upper.ids

/-- An item of a traversal of `root`. -/
structure WorkItem.Of (root : LogicNode) (item : WorkItem) : Prop where
  scheduled : ∀ node ∈ item.scheduled, node ∈ root.nodes
  ownCursor : item.OwnCursor

/-- The frames are the end markers of the stack. -/
structure Backed (root : LogicNode) (work : List WorkItem) (frames : List ActiveIfFrame) :
    Prop where
  frames : frames.map (·.id) = work.filterMap ifEndId
  apart : work.Pairwise Apart
  items : ∀ item ∈ work, item.Of root

/-- A shuffle in progress permutes the children of its controller. -/
def PendingOk (root : LogicNode) (r : LogicRunner) : Prop :=
  ∀ p, r.pendingRandomOrder = some p →
    ∃ children, .randomOrder p.id children ∈ root.nodes ∧ p.order.Perm children

structure Inv (root : LogicNode) (r : LogicRunner) : Prop where
  program : r.program.root = root
  backed : Backed root r.work r.activeIfs
  pending : PendingOk root r
  unstarted : r.rootStarted = false → r.work = []

/-! ## Stacks -/

namespace Backed

variable {root : LogicNode} {work upper lower : List WorkItem}
  {frames above below : List ActiveIfFrame}

theorem nil : Backed root [] [] := ⟨rfl, .nil, by simp⟩

theorem append (hu : Backed root upper above) (hl : Backed root lower below)
    (h : ∀ a ∈ upper, ∀ b ∈ lower, Apart a b) : Backed root (upper ++ lower) (above ++ below) := by
  refine ⟨?_, pairwise_append.mpr ⟨hu.apart, hl.apart, h⟩, ?_⟩
  · rw [map_append, filterMap_append, hu.frames, hl.frames]
  · intro item hitem
    rcases mem_append.mp hitem with h | h
    · exact hu.items item h
    · exact hl.items item h

theorem tail {item : WorkItem} (h : Backed root (item :: work) frames)
    (hi : item.ifEndId = none) : Backed root work frames := by
  refine ⟨?_, (pairwise_cons.mp h.apart).2, fun i hi => h.items i (.tail _ hi)⟩
  rw [h.frames, filterMap_cons_none hi]

theorem tail_ifEnd {id : ElementId} (h : Backed root (.ifEnd id :: work) frames) :
    ∃ frame rest, frames = frame :: rest ∧ frame.id = id ∧ Backed root work rest := by
  have hf : frames.map (·.id) = id :: work.filterMap ifEndId := h.frames
  obtain ⟨frame, rest, rfl, hid, hrest⟩ := map_eq_cons_iff.mp hf
  exact ⟨frame, rest, rfl, hid, hrest, (pairwise_cons.mp h.apart).2,
    fun i hi => h.items i (.tail _ hi)⟩

/-- The marker of a frame below is not the one on top. -/
theorem ne_of_mem {id : ElementId} {frame : ActiveIfFrame}
    (h : Backed root (.ifEnd id :: work) frames) (hw : Backed root work below)
    (hmem : frame ∈ below) : id ≠ frame.id := by
  rintro rfl
  have hid : frame.id ∈ work.filterMap ifEndId := by
    rw [← hw.frames]
    exact mem_map_of_mem hmem
  obtain ⟨item, hitem, hend⟩ := mem_filterMap.mp hid
  exact (pairwise_cons.mp h.apart).1 item hitem frame.id hend (mem_singleton.mpr rfl)

/-- Popping to the end marker of a frame leaves the frames below it. -/
theorem popToIfEnd {frame : ActiveIfFrame} (h : Backed root work (above ++ frame :: below)) :
    ∃ rest, popToIfEnd frame.id work = some rest ∧ Backed root rest below := by
  induction work generalizing above with
  | nil =>
    have := h.frames
    simp at this
  | cons item work ih =>
    cases hitem : item.ifEndId with
    | none =>
      obtain ⟨rest, hrest, hb⟩ := ih (h.tail hitem)
      refine ⟨rest, ?_, hb⟩
      cases item <;> first | exact hrest | simp [ifEndId] at hitem
    | some id =>
      obtain rfl : item = .ifEnd id := by
        cases item <;> simp_all [ifEndId]
      obtain ⟨top, rest, hframes, hid, hb⟩ := h.tail_ifEnd
      obtain _ | ⟨first, above⟩ := above
      · obtain ⟨rfl, rfl⟩ := List.cons.inj hframes
        exact ⟨work, by rw [popToIfEnd, if_pos hid.symm], hb⟩
      · obtain ⟨rfl, rfl⟩ := List.cons.inj hframes
        have hne := h.ne_of_mem hb (mem_append_right above (.head _))
        obtain ⟨rest, hrest, hb'⟩ := ih hb
        exact ⟨rest, by rw [popToIfEnd, if_neg hne, hrest], hb'⟩

end Backed

/-! ## What processing an item can do -/

/-- What no item changes, and a shuffle in progress stays one. -/
structure Kept (root : LogicNode) (c c' : LogicCall) : Prop where
  program : c'.runner.program = c.runner.program
  started : c'.runner.rootStarted = c.runner.rootStarted
  pending : PendingOk root c.runner → PendingOk root c'.runner

/-- The stacks are unchanged. -/
structure Same (root : LogicNode) (c c' : LogicCall) : Prop extends Kept root c c' where
  work : c'.runner.work = c.runner.work
  frames : c'.runner.activeIfs = c.runner.activeIfs

/-- New items and their frames are stacked; they open and close only If controllers in `ids`. -/
structure Opens (root : LogicNode) (ids : List ElementId) (c c' : LogicCall) : Prop
    extends Kept root c c' where
  stacked : ∃ items frames, c'.runner.work = items ++ c.runner.work ∧
    c'.runner.activeIfs = frames ++ c.runner.activeIfs ∧ Backed root items frames ∧
    ∀ item ∈ items, item.ids ⊆ ids

/-- The result of processing an item with the ids `ids`. -/
def Processed (root : LogicNode) (ids : List ElementId) (c : LogicCall) :
    EStateM.Result LogicControllerError LogicCall (Option LogicStep) → Prop
  | .ok none c' => Opens root ids c c'
  | .ok (some _) c' => Same root c c'
  | .error e c' => Same root c c' ∧ e.isInvariantViolation = false

theorem Same.refl (root : LogicNode) (c : LogicCall) : Same root c c := ⟨⟨rfl, rfl, id⟩, rfl, rfl⟩

variable {root : LogicNode} {c' : LogicCall}

variable {ids : List ElementId}

theorem Same.processed {c : LogicCall} (h : Same root c c') : Processed root ids c (.ok none c') :=
  ⟨h.toKept, [], [], h.work, h.frames, .nil, by simp⟩

theorem ids_eq_flatMap {item : WorkItem} (h : item.ifEndId = none) :
    item.ids = item.scheduled.flatMap LogicNode.ids := by
  cases item <;> first | rfl | simp [ifEndId] at h

/-- Children over the marker of their controller. -/
theorem backed_children {children : List LogicNode} {path : List LogicCursor} {iteration : ℕ}
    {marker : Option WorkItem} {frames : List ActiveIfFrame}
    (hc : ∀ child ∈ children, child ∈ root.nodes) (hm : ∀ m ∈ marker, m.Of root)
    (hf : frames.map (·.id) = marker.toList.filterMap ifEndId)
    (ha : ∀ m ∈ marker, ∀ child ∈ children, Apart (.node child path iteration) m) :
    Backed root (children.map (.node · path iteration) ++ marker.toList) frames := by
  have hnodes : Backed root (children.map (.node · path iteration)) [] := by
    refine ⟨?_, ?_, ?_⟩
    · symm
      rw [map_nil, filterMap_eq_nil_iff]
      intro item hitem
      obtain ⟨child, -, rfl⟩ := mem_map.mp hitem
      rfl
    · refine pairwise_of_forall_mem_list fun upper _ lower hlower id hid => ?_
      obtain ⟨child, -, rfl⟩ := mem_map.mp hlower
      cases hid
    · intro item hitem
      obtain ⟨child, hchild, rfl⟩ := mem_map.mp hitem
      refine ⟨fun node hnode => ?_, trivial⟩
      rw [mem_singleton.mp hnode]
      exact hc child hchild
  have hmarker : Backed root marker.toList frames := by
    refine ⟨hf, ?_, fun item hitem => hm item (Option.mem_toList.mp hitem)⟩
    cases marker <;> simp
  refine hnodes.append hmarker ?_
  intro upper hupper lower hlower
  obtain ⟨child, hchild, rfl⟩ := mem_map.mp hupper
  exact ha lower (Option.mem_toList.mp hlower) child hchild

section

variable {root node : LogicNode} {c c₁ : LogicCall} {path : List LogicCursor} {iteration : ℕ}
  {children : List LogicNode} {marker : Option WorkItem} {id : ElementId}
  {condition : LogicCondition} {e : LogicControllerError}

/-- Nodes over a marker and its frame. -/
theorem processed_schedule (h : Kept root c c₁)
    (hw : c₁.runner.work = c.runner.work) (frames : List ActiveIfFrame)
    (hframes : c₁.runner.activeIfs = frames ++ c.runner.activeIfs)
    (hc : ∀ child ∈ children, child ∈ root.nodes ∧ child.ids ⊆ ids)
    (hm : ∀ m ∈ marker, m.Of root ∧ m.ids ⊆ ids)
    (hf : frames.map (·.id) = marker.toList.filterMap ifEndId)
    (ha : ∀ m ∈ marker, ∀ child ∈ children, Apart (.node child path iteration) m) :
    Processed root ids c (.ok none (c₁.scheduleChildren children path iteration marker)) := by
  refine ⟨⟨h.program, h.started, h.pending⟩,
    children.map (.node · path iteration) ++ marker.toList, frames, ?_, hframes, ?_, ?_⟩
  · show children.map (.node · path iteration) ++ (marker.toList ++ c₁.runner.work) = _
    rw [hw, append_assoc]
  · exact backed_children (fun child hchild => (hc child hchild).1) (fun m hmem => (hm m hmem).1)
      hf ha
  · intro item hitem
    rcases mem_append.mp hitem with hitem | hitem
    · obtain ⟨child, hchild, rfl⟩ := mem_map.mp hitem
      simpa [WorkItem.ids, WorkItem.scheduled] using (hc child hchild).2
    · exact (hm item (Option.mem_toList.mp hitem)).2

/-- Nodes over the marker of a controller that visits some of them again. -/
theorem processed_children (h : Same root c c₁)
    (hc : ∀ child ∈ children, child ∈ root.nodes ∧ child.ids ⊆ ids)
    (hm : ∀ m ∈ marker, m.ifEndId = none ∧ m.scheduled ⊆ children ∧ m.OwnCursor) :
    Processed root ids c (.ok none (c₁.scheduleChildren children path iteration marker)) := by
  refine processed_schedule h.toKept h.work [] h.frames hc ?_ ?_ ?_
  · intro m hmem
    obtain ⟨hend, hsched, hown⟩ := hm m hmem
    refine ⟨⟨fun n hn => (hc n (hsched hn)).1, hown⟩, ?_⟩
    rw [ids_eq_flatMap hend]
    intro id hid
    obtain ⟨child, hchild, hid⟩ := mem_flatMap.mp hid
    exact (hc child (hsched hchild)).2 hid
  · cases marker with
    | none => rfl
    | some m => rw [Option.toList_some, filterMap_cons_none (hm m rfl).1]; rfl
  · intro m hmem child _ id hid
    rw [(hm m hmem).1] at hid
    cases hid

theorem of_mem_inner (hnode : node ∈ root.nodes) {child : LogicNode} (h : child ∈ node.inner) :
    child ∈ root.nodes ∧ child.ids ⊆ node.ids :=
  ⟨LogicNode.mem_nodes_trans hnode (LogicNode.nodes_inner h child.mem_nodes_self),
    map_subset _ (LogicNode.nodes_inner h)⟩

/-- Some nodes below `node`, over the marker of a controller that visits them again. -/
theorem processed_inner (hnode : node ∈ root.nodes) (h : Same root c c₁)
    (hsub : children ⊆ node.inner)
    (hm : ∀ m ∈ marker, m.ifEndId = none ∧ m.scheduled ⊆ children ∧ m.OwnCursor) :
    Processed root node.ids c (.ok none (c₁.scheduleChildren children path iteration marker)) :=
  processed_children h (fun _ hchild => of_mem_inner hnode (hsub hchild)) hm

theorem cursor_append (kind : String) (i : ℕ) : HasCursor (path ++ [cursor id kind i]) id kind :=
  ⟨cursor id kind i, by simp, rfl, rfl⟩

variable {kind : String}

theorem processed_enter (hnode : node ∈ root.nodes) (h : Same root c c₁)
    (hsub : children ⊆ node.inner) :
    Processed root node.ids c (enter id kind children path iteration c₁) :=
  processed_inner hnode h hsub (by simp)

theorem processed_loop {count : LoopCount} (hnode : .loop id count children ∈ root.nodes) :
    Processed root (LogicNode.loop id count children).ids c
      (visitLoop id count children path iteration c) := by
  unfold visitLoop
  split_ifs
  · exact (Same.refl root c).processed
  · refine processed_inner hnode (.refl root c) (List.Subset.refl _) ?_
    intro m hm
    cases hm
    exact ⟨rfl, List.Subset.refl _, cursor_append ..⟩

theorem pendingOk_reset {r : LogicRunner} (h : PendingOk root r) :
    PendingOk root (r.resetIfState ids) := by
  intro p hp
  exact h p (Option.filter_eq_some_iff.mp hp).1

theorem evaluate_sound {vars : Variables} {last : Option Bool}
    (h : condition.evaluate vars last = .error e) : e.isInvariantViolation = false := by
  cases condition <;> cases h
  rfl

theorem processed_if (hroot : root.ids.Nodup) {each : Bool}
    (hnode : .ifController id condition each children ∈ root.nodes) :
    Processed root (LogicNode.ifController id condition each children).ids c
      (visitIf id condition each children path iteration c) := by
  unfold visitIf
  split
  next e he => exact ⟨.refl root c, evaluate_sound he⟩
  next => exact Same.processed ⟨⟨rfl, rfl, fun h => pendingOk_reset h⟩, rfl, rfl⟩
  next =>
    split_ifs
    · -- the frame and its end marker are stacked together
      refine processed_schedule ?_ ?_ [⟨id, condition, collectIfStateIds children⟩] ?_
        (fun _ hchild => of_mem_inner hnode hchild) ?_ ?_ ?_
      · exact ⟨rfl, rfl, fun h => h⟩
      · rfl
      · rfl
      · rintro m ⟨⟩
        refine ⟨⟨by simp [WorkItem.scheduled], trivial⟩, ?_⟩
        exact cons_subset.mpr ⟨mem_map_of_mem LogicNode.mem_nodes_self, nil_subset _⟩
      · rfl
      · rintro m ⟨⟩ child hchild _ ⟨⟩
        have hids := LogicNode.ids_nodup_of_mem hroot hnode
        have hnot : id ∉ child.ids := LogicNode.id_notMem_inner hids hchild
        simpa [WorkItem.ids, WorkItem.scheduled] using hnot
    · exact processed_inner hnode (.refl root c) (List.Subset.refl _) (by simp)

theorem processed_while {maxIterations : Option ℕ}
    (hnode : .whileController id condition maxIterations children ∈ root.nodes) :
    Processed root (LogicNode.whileController id condition maxIterations children).ids c
      (visitWhile id condition maxIterations children path iteration c) := by
  unfold visitWhile
  split_ifs
  · exact (Same.refl root c).processed
  · split
    next e he => exact ⟨.refl root c, evaluate_sound he⟩
    next => exact (Same.refl root c).processed
    next =>
      refine processed_inner hnode (.refl root c) (List.Subset.refl _) ?_
      rintro m ⟨⟩
      exact ⟨rfl, List.Subset.refl _, cursor_append ..⟩

theorem processed_forEach {inputPrefix outputVariable : String}
    (hnode : .forEach id inputPrefix outputVariable children ∈ root.nodes) :
    Processed root (LogicNode.forEach id inputPrefix outputVariable children).ids c
      (visitForEach id inputPrefix outputVariable children path c) := by
  unfold visitForEach
  dsimp only
  split
  · exact ⟨.refl root c, rfl⟩
  · split_ifs
    · exact (Same.refl root c).processed
    · exact Same.processed ⟨⟨rfl, rfl, fun h => h⟩, rfl, rfl⟩
    · refine processed_inner hnode ?_ (List.Subset.refl _) ?_
      · exact ⟨⟨rfl, rfl, fun h => h⟩, rfl, rfl⟩
      · rintro m ⟨⟩
        exact ⟨rfl, List.Subset.refl _, cursor_append ..⟩

theorem processed_runtime {duration : Duration}
    (hnode : .runtime id duration children ∈ root.nodes) :
    Processed root (LogicNode.runtime id duration children).ids c
      (visitRuntime id duration children path iteration c) := by
  unfold visitRuntime
  dsimp only
  split_ifs
  · exact Same.processed ⟨⟨rfl, rfl, fun h => h⟩, rfl, rfl⟩
  · refine processed_inner hnode ?_ (List.Subset.refl _) ?_
    · exact ⟨⟨rfl, rfl, fun h => h⟩, rfl, rfl⟩
    · rintro m ⟨⟩
      exact ⟨rfl, List.Subset.refl _, cursor_append ..⟩

theorem processed_choice (hnode : node ∈ root.nodes) (h : Same root c c₁) (choice : Choice)
    (hsub : children ⊆ node.inner) :
    Processed root node.ids c (followChoice choice children path iteration c₁) := by
  unfold followChoice
  split
  · exact h
  · exact h.processed
  · split
    · exact h.processed
    next child hchild =>
      refine processed_inner hnode h ?_ (by simp)
      intro n hn
      rw [mem_singleton.mp hn]
      exact hsub (mem_of_getElem? hchild)

theorem same_random {count : ℕ} : Same root c (randomChoice count c).2 := by
  unfold randomChoice
  split_ifs
  · exact .refl root c
  · split
    · exact .refl root c
    · split <;> exact ⟨⟨rfl, rfl, id⟩, rfl, rfl⟩

theorem switchChoice_spec (root : LogicNode) (id : ElementId) (selection : SwitchSelection)
    (count : ℕ) (c : LogicCall) :
    match switchChoice id selection count c with
    | .ok chosen => Same root c chosen.2
    | .error e => e.isInvariantViolation = false := by
  cases selection with
  | index value => exact .refl root c
  | variableIndex name =>
    dsimp only [switchChoice]
    cases switchNumericIndex ((c.runner.vars name).getD "") count with
    | none => rfl
    | some index => exact .refl root c
  | variableWithNames name childNames =>
    dsimp only [switchChoice]
    cases switchNumericIndex ((c.runner.vars name).getD "") count with
    | some index => exact .refl root c
    | none =>
      cases switchNamedIndex ((c.runner.vars name).getD "") childNames count <;>
        exact .refl root c
  | random => exact same_random

/-- The shuffle a Random Order controller works on is one of its own children. -/
theorem startOrder_ok (hroot : root.ids.Nodup) {id : ElementId} {children : List LogicNode}
    (hnode : .randomOrder id children ∈ root.nodes) (hp : PendingOk root c.runner) :
    ∃ pending : PendingRandomOrder, pending.id = id ∧ pending.order.Perm children ∧
      c.runner.startRandomOrder id children path iteration =
        { c.runner with pendingRandomOrder := some pending } := by
  unfold startRandomOrder
  split_ifs with hnew
  · exact ⟨_, rfl, .refl _, rfl⟩
  · cases hpend : c.runner.pendingRandomOrder with
    | none => simp [hpend] at hnew
    | some pending =>
      obtain rfl : pending.id = id := by simpa [hpend] using hnew
      obtain ⟨children', hnode', hperm⟩ := hp pending hpend
      have heq := LogicNode.eq_of_id_eq hroot hnode' hnode rfl
      cases heq
      exact ⟨pending, rfl, hperm, by rw [← hpend]⟩

theorem processed_draw (hroot : root.ids.Nodup)
    (hnode : .randomOrder id children ∈ root.nodes) (hp : PendingOk root c.runner) :
    Processed root (LogicNode.randomOrder id children).ids c
      (randomOrderDraw id children path iteration c) := by
  obtain ⟨pending, rfl, hperm, hstart⟩ :=
    @startOrder_ok root c path iteration hroot id children hnode hp
  -- a shuffle of the same controller, whatever has been drawn
  have hpend {order : List LogicNode} {remaining : ℕ} (horder : order.Perm children) :
      ∀ p, some { pending with order, remaining } = some p →
        ∃ children, .randomOrder p.id children ∈ root.nodes ∧ p.order.Perm children := by
    rintro p ⟨⟩
    exact ⟨children, hnode, horder⟩
  unfold randomOrderDraw
  simp only [hstart, LogicCall.takeRandom]
  split
  · exact ⟨⟨rfl, rfl, fun _ => hpend hperm⟩, rfl, rfl⟩
  · split
    · exact ⟨⟨rfl, rfl, fun _ => hpend hperm⟩, rfl, rfl⟩
    next index _ =>
      have hswap : (pending.order.swap index (pending.remaining - 1)).Perm children :=
        (swap_perm ..).trans hperm
      split_ifs
      · exact ⟨⟨rfl, rfl, fun _ => hpend hswap⟩, rfl, rfl⟩
      · refine processed_inner hnode ?_ hswap.subset (by simp)
        exact ⟨⟨rfl, rfl, fun _ _ h => (nomatch h)⟩, rfl, rfl⟩

theorem throughput_spec (root : LogicNode) (id : ElementId) (mode : ThroughputMode)
    (limit : ℕ) (percent : Float) (perUser : Bool) (c : LogicCall) :
    match c.runner.throughputAllow id mode limit percent perUser with
    | .ok allowed => Same root c { c with runner := allowed.2 }
    | .error e => e.isInvariantViolation = false := by
  unfold throughputAllow
  split_ifs
  · cases c.runner.sharedState with
    | none => rfl
    | some state => exact ⟨⟨rfl, rfl, fun h => h⟩, rfl, rfl⟩
  · exact ⟨⟨rfl, rfl, fun h => h⟩, rfl, rfl⟩

theorem processed_replace {target : Option LogicNode}
    (hnode : node ∈ root.nodes) (hinner : node.inner = target.toList) :
    Processed root node.ids c (replaceNode id kind target path iteration c) := by
  unfold replaceNode
  split
  · exact ⟨.refl root c, rfl⟩
  next target =>
    exact processed_inner hnode (.refl root c) (by rw [hinner]; exact List.Subset.refl _) (by simp)

/-- **Visiting a node** stacks nodes below it and at most one marker. -/
theorem processed_node (hroot : root.ids.Nodup) (hnode : node ∈ root.nodes)
    (hp : PendingOk root c.runner) :
    Processed root node.ids c (processNode node path iteration c) := by
  have hc := Same.refl root c
  cases node with
  | sample id => exact hc
  | sequence id children | recording id children =>
    exact processed_enter hnode hc (List.Subset.refl _)
  | loop id count children => exact processed_loop hnode
  | ifController id condition each children => exact processed_if hroot hnode
  | whileController id condition maxIterations children => exact processed_while hnode
  | forEach id inputPrefix outputVariable children => exact processed_forEach hnode
  | switch id selection children =>
    simp only [processNode]
    split_ifs
    · exact hc.processed
    · have hspec := switchChoice_spec root id selection children.length c
      split <;> simp only [*] at hspec
      · exact ⟨hc, hspec⟩
      · exact processed_choice hnode hspec _ (List.Subset.refl _)
  | interleave id children =>
    simp only [processNode, visitInterleave]
    split_ifs
    · exact hc.processed
    · refine processed_choice hnode ?_ _ (List.Subset.refl _)
      exact ⟨⟨rfl, rfl, fun h => h⟩, rfl, rfl⟩
  | random id children =>
    simp only [processNode]
    split_ifs
    · exact hc.processed
    · exact processed_choice hnode same_random _ (List.Subset.refl _)
  | randomOrder id children =>
    simp only [processNode]
    split_ifs
    · exact processed_inner hnode hc (List.Subset.refl _) (by simp)
    · exact processed_draw hroot hnode hp
  | onceOnly id children =>
    simp only [processNode]
    split_ifs
    · exact hc.processed
    · refine processed_enter hnode ?_ (List.Subset.refl _)
      exact ⟨⟨rfl, rfl, fun h => h⟩, rfl, rfl⟩
  | throughput id mode limit percent perUser children =>
    have hspec := throughput_spec root id mode limit percent perUser c
    simp only [processNode]
    split <;> simp only [*] at hspec
    · exact ⟨hc, hspec⟩
    · exact hspec.processed
    · exact processed_enter hnode hspec (List.Subset.refl _)
  | runtime id duration children => exact processed_runtime hnode
  | transaction id parent includeTimers children =>
    refine processed_enter hnode ?_ (List.Subset.refl _)
    exact ⟨⟨rfl, rfl, fun h => h⟩, rfl, rfl⟩
  | moduleController id target | includeController id target =>
    exact processed_replace hnode rfl
  | criticalSection id lockName children =>
    simp only [processNode, visitCriticalSection]
    split_ifs
    · exact ⟨hc, rfl⟩
    · exact processed_inner hnode hc (List.Subset.refl _) (by simp)

/-! ## Markers -/

theorem updateCursor_ok {id : ElementId} (h : HasCursor path id kind) :
    ∃ path', updateCursorIteration path id kind iteration = .ok path' ∧
      HasCursor path' id kind := by
  suffices hin : ∃ path', updateInnermost id kind iteration path = some path' ∧
      HasCursor path' id kind by
    obtain ⟨path', hpath, hcur⟩ := hin
    exact ⟨path', by rw [updateCursorIteration, hpath], hcur⟩
  obtain ⟨c, hmem, hid, hkind⟩ := h
  induction path with
  | nil => cases hmem
  | cons first path ih =>
    cases hrest : updateInnermost id kind iteration path with
    | some path' =>
      refine ⟨first :: path', by rw [updateInnermost, hrest], ?_⟩
      rcases mem_cons.mp hmem with rfl | hmem
      · exact ⟨c, mem_cons_self .., hid, hkind⟩
      · obtain ⟨path'', hpath, c', hc', hid', hkind'⟩ := ih hmem
        cases hrest.symm.trans hpath
        exact ⟨c', mem_cons_of_mem _ hc', hid', hkind'⟩
    | none =>
      rcases mem_cons.mp hmem with rfl | hmem
      · refine ⟨{ c with iteration } :: path, ?_, _, mem_cons_self .., hid, hkind⟩
        rw [updateInnermost, hrest]
        exact if_pos ⟨hid, hkind⟩
      · obtain ⟨path'', hpath, -⟩ := ih hmem
        rw [hrest] at hpath
        cases hpath

/-- A resumed controller stacks its children over its next marker. -/
theorem processed_resume {again : List LogicCursor → WorkItem} (h : Same root c c₁)
    (hc : ∀ child ∈ children, child ∈ root.nodes) (hcur : HasCursor path id kind)
    (hagain : ∀ path, HasCursor path id kind →
      (again path).ifEndId = none ∧ (again path).scheduled ⊆ children ∧ (again path).OwnCursor) :
    Processed root (children.flatMap LogicNode.ids) c
      (resume id kind children path iteration again c₁) := by
  obtain ⟨path', hpath, hcur'⟩ := @updateCursor_ok path iteration kind id hcur
  unfold resume
  rw [hpath]
  refine processed_children h (fun child hchild => ⟨hc child hchild, ?_⟩) ?_
  · exact fun id hid => mem_flatMap.mpr ⟨child, hchild, hid⟩
  · rintro m ⟨⟩
    exact hagain path' hcur'

/-- **Processing an item** other than an end marker stacks nodes and markers of its own. -/
theorem processed_item (hroot : root.ids.Nodup) {item : WorkItem} (hitem : item.Of root)
    (hend : item.ifEndId = none) (hp : PendingOk root c.runner) :
    Processed root item.ids c (processItem item c) := by
  have hc := Same.refl root c
  cases item with
  | node node path iteration =>
    have hnode : node ∈ root.nodes := hitem.scheduled node (mem_singleton.mpr rfl)
    have hids : (WorkItem.node node path iteration).ids = node.ids := by
      simp [WorkItem.ids, WorkItem.scheduled]
    rw [hids]
    exact processed_node hroot hnode hp
  | ifEnd id => cases hend
  | loopAgain id count children path iteration =>
    simp only [processItem, loopAgain]
    split
    · exact ⟨hc, rfl⟩
    · split_ifs
      · exact hc.processed
      · exact processed_resume hc hitem.scheduled hitem.ownCursor
          fun _ hcur => ⟨rfl, List.Subset.refl _, hcur⟩
  | whileAgain id condition maxIterations children path iteration =>
    simp only [processItem, whileAgain]
    split
    · exact ⟨hc, rfl⟩
    · split_ifs
      · exact hc.processed
      · split
        next e he => exact ⟨hc, evaluate_sound he⟩
        next => exact hc.processed
        next =>
          exact processed_resume hc hitem.scheduled hitem.ownCursor
            fun _ hcur => ⟨rfl, List.Subset.refl _, hcur⟩
  | forEachAgain id inputPrefix outputVariable count children path index =>
    simp only [processItem, forEachAgain]
    split_ifs
    · exact Same.processed ⟨⟨rfl, rfl, fun h => h⟩, rfl, rfl⟩
    · refine processed_resume ?_ hitem.scheduled hitem.ownCursor
        fun _ hcur => ⟨rfl, List.Subset.refl _, hcur⟩
      exact ⟨⟨rfl, rfl, fun h => h⟩, rfl, rfl⟩
  | runtimeAgain id duration children path iteration deadline =>
    simp only [processItem, runtimeAgain]
    split_ifs
    · exact Same.processed ⟨⟨rfl, rfl, fun h => h⟩, rfl, rfl⟩
    · split
      · exact ⟨hc, rfl⟩
      · exact processed_resume hc hitem.scheduled hitem.ownCursor
          fun _ hcur => ⟨rfl, List.Subset.refl _, hcur⟩

end

/-! ## Transitions -/

section

variable {root : LogicNode} (hroot : root.ids.Nodup)

/-- A runner whose topmost item has been taken. -/
structure Popped (root : LogicNode) (item : WorkItem) (r : LogicRunner) : Prop where
  program : r.program.root = root
  backed : Backed root (item :: r.work) r.activeIfs
  pending : PendingOk root r
  started : r.rootStarted = true

variable {c : LogicCall} {item : WorkItem} {r : LogicRunner} {frames : List ActiveIfFrame}
  {index : ℕ} {rest : List WorkItem}

theorem Popped.same (h : Popped root item c.runner) (hs : Same root c c') :
    Popped root item c'.runner := by
  refine ⟨hs.program ▸ h.program, ?_, hs.pending h.pending, hs.started.trans h.started⟩
  rw [hs.work, hs.frames]
  exact h.backed

/-- An item that opens nothing may be dropped. -/
theorem Popped.drop (h : Popped root item r) (hend : item.ifEndId = none) : Inv root r :=
  ⟨h.program, h.backed.tail hend, h.pending, fun hs => by rw [h.started] at hs; cases hs⟩

theorem Popped.opens (h : Popped root item c.runner) (hend : item.ifEndId = none)
    (ho : Opens root item.ids c c') : Inv root c'.runner := by
  obtain ⟨items, frames, hwork, hframes, hbacked, hids⟩ := ho.stacked
  refine ⟨ho.program ▸ h.program, ?_, ho.pending h.pending, ?_⟩
  · rw [hwork, hframes]
    refine hbacked.append (h.backed.tail hend) ?_
    intro upper hupper lower hlower id hid hmem
    exact (pairwise_cons.mp h.backed.apart).1 lower hlower id hid (hids upper hupper hmem)
  · intro hs
    rw [ho.started, h.started] at hs
    cases hs

/-- The invariant on the calls of a step, and what no step fails with. -/
abbrev Sound (root : LogicNode) {α : Type} :
    EStateM.Result LogicControllerError LogicCall α → Prop :=
  Keeps (fun c => Inv root c.runner) (fun e => e.isInvariantViolation = false)

include hroot in
theorem sound_processItem {c : LogicCall} (h : Popped root item c.runner) :
    Sound root (processItem item c) := by
  cases hend : item.ifEndId with
  | none =>
    have hitem := h.backed.items item (.head _)
    have hproc := processed_item hroot hitem hend h.pending
    cases hres : processItem item c with
    | error e c' =>
      rw [hres] at hproc
      exact ⟨(h.same hproc.1).drop hend, hproc.2⟩
    | ok next c' =>
      rw [hres] at hproc
      cases next with
      | none => exact h.opens hend hproc
      | some step => exact (h.same hproc).drop hend
  | some id =>
    obtain rfl : item = .ifEnd id := by
      cases item <;> simp_all [ifEndId]
    obtain ⟨frame, rest, hframes, hid, hbacked⟩ := h.backed.tail_ifEnd
    have hfinish : c.runner.finishIf id = .ok { c.runner with activeIfs := rest } := by
      simp [finishIf, hframes, hid]
    simp only [processItem, hfinish]
    exact ⟨h.program, hbacked, h.pending, fun hs => by simp only [h.started] at hs; cases hs⟩

/-- An item that asks for a random value is a node or a marker, and changes no stack. -/
theorem popped_of_some {step : LogicStep} (hroot : root.ids.Nodup)
    (h : Popped root item c.runner) (hres : processItem item c = .ok (some step) c') :
    Popped root item c'.runner := by
  cases hend : item.ifEndId with
  | none =>
    have hitem := h.backed.items item (.head _)
    have hproc := processed_item hroot hitem hend h.pending
    rw [hres] at hproc
    exact h.same hproc
  | some id =>
    obtain rfl : item = .ifEnd id := by
      cases item <;> simp_all [ifEndId]
    simp only [processItem] at hres
    split at hres <;> cases hres

theorem inv_startRoot (h : Inv root r) : Inv root r.startRoot ∧ r.startRoot.rootStarted = true := by
  unfold startRoot
  split_ifs with hs
  · exact ⟨h, hs⟩
  · have hempty := h.unstarted (by simpa using hs)
    refine ⟨⟨h.program, ?_, h.pending, nofun⟩, rfl⟩
    have hframes := h.backed.frames
    rw [hempty] at hframes
    have hnil : r.activeIfs = [] := by simpa using hframes
    rw [hempty, hnil]
    refine ⟨rfl, pairwise_singleton .., ?_⟩
    intro item hitem
    obtain rfl := mem_singleton.mp hitem
    refine ⟨?_, trivial⟩
    intro node hnode
    rw [mem_singleton.mp hnode, h.program]
    exact root.mem_nodes_self

include hroot in
theorem sound_afterItem (h : Popped root item c.runner) :
    Sound root (afterItem item (processItem item c)) := by
  have hsou := sound_processItem hroot h
  unfold afterItem
  split
  next c' hres =>
    have hback := popped_of_some hroot h hres
    exact ⟨hback.program, hback.backed, hback.pending,
      fun hs => by simp only [hback.started] at hs; cases hs⟩
  next selection c' hres =>
    rw [hres] at hsou
    exact { hsou with }
  next => exact hsou

include hroot in
theorem sound_transition (h : Inv root c.runner) : Sound root (transition c) := by
  have hcount : Inv root c.runner.countTransition := { h with }
  unfold transition
  dsimp only
  split_ifs
  · exact hcount
  · obtain ⟨hinv, hstarted⟩ := inv_startRoot hcount
    generalize c.runner.countTransition.startRoot = r at hinv hstarted ⊢
    split
    · exact { hinv with }
    next item work hwork =>
      exact sound_afterItem hroot ⟨hinv.program, hwork ▸ hinv.backed, hinv.pending, hstarted⟩

include hroot in
theorem sound_transitions (h : Inv root c.runner) : Sound root (transitions c) := by
  exact keeps_loopM (P := fun c : LogicCall => Inv root c.runner)
    (Q := fun e : LogicControllerError => e.isInvariantViolation = false) rfl
    (fun _ hc => sound_transition hroot hc) _ h

/-! ## Leaving If frames -/

/-- The invariant on runners, and what no method fails with. -/
abbrev SoundRunner (root : LogicNode) {α : Type} :
    EStateM.Result LogicControllerError LogicRunner α → Prop :=
  Keeps (Inv root) (fun e => e.isInvariantViolation = false)

/-- The frame at an index from the outermost one, with the frames around it. -/
theorem split_at_index {frame : ActiveIfFrame} (h : frames.reverse[index]? = some frame) :
    ∃ above, frames = above ++ frame :: (frames.reverse.take index).reverse := by
  refine ⟨(frames.reverse.drop (index + 1)).reverse, ?_⟩
  obtain ⟨hlt, hget⟩ := List.getElem?_eq_some_iff.mp h
  have hsplit : frames.reverse =
      frames.reverse.take index ++ frame :: frames.reverse.drop (index + 1) := by
    rw [← hget, getElem_cons_drop, take_append_drop]
  have hrev := congrArg List.reverse hsplit
  simpa using hrev

theorem sound_abort (h : Inv root r) (hi : index < r.activeIfs.length) :
    SoundRunner root (r.abortIfFrame index) := by
  unfold abortIfFrame
  split
  next hnone =>
    rw [List.getElem?_eq_none_iff, length_reverse] at hnone
    omega
  next frame hframe =>
    obtain ⟨above, hsplit⟩ := split_at_index hframe
    have hbacked := h.backed
    rw [hsplit] at hbacked
    obtain ⟨rest, hpop, hrest⟩ := hbacked.popToIfEnd
    rw [hpop]
    -- the markers popped on the way belong to the frames inside this one
    have hinv : Inv root { r with
        work := rest, activeIfs := (r.activeIfs.reverse.take index).reverse } := by
      refine ⟨h.program, hrest, h.pending, fun hs => ?_⟩
      have hempty := h.unstarted hs
      have hframes := h.backed.frames
      rw [hempty, hsplit] at hframes
      simp at hframes
    exact { hinv with pending := pendingOk_reset hinv.pending }

theorem sound_recheck (h : Inv root r) (last : Option Bool) (index : ℕ)
    (hi : index + frames.length ≤ r.activeIfs.length) :
    SoundRunner root (r.recheckFrom last index frames) := by
  induction frames generalizing index with
  | nil => exact h
  | cons frame frames ih =>
    rw [length_cons] at hi
    unfold recheckFrom
    split
    next e he => exact ⟨h, evaluate_sound he⟩
    next => exact ih (index + 1) (by omega)
    next => exact sound_abort h (by omega)

theorem sound_active (h : Inv root r) (input : LogicInput) :
    SoundRunner root (r.recheckActiveIfs input) :=
  sound_recheck h _ 0 (by simp)

/-! ## The next-loop action -/

theorem splitMarker_some {work : List WorkItem} {marker : WorkItem}
    (h : splitLoopMarker work = some (marker, rest)) :
    marker.isLoopMarker = true ∧ ∃ above, work = above ++ marker :: rest := by
  induction work with
  | nil => cases h
  | cons item work ih =>
    unfold splitLoopMarker at h
    split_ifs at h with hitem
    · cases h
      exact ⟨hitem, [], rfl⟩
    · obtain ⟨hmarker, above, rfl⟩ := ih h
      exact ⟨hmarker, item :: above, rfl⟩

/-- What the frames are when the upper part of the stack is cut off. -/
theorem Backed.split {above : List WorkItem} (h : Backed root (above ++ rest) frames) :
    ∃ gone left, frames = gone ++ left ∧ Backed root rest left ∧
      ∀ frame ∈ gone, frame.id ∉ rest.filterMap ifEndId := by
  have hf := h.frames
  rw [filterMap_append] at hf
  obtain ⟨gone, left, rfl, hgone, hleft⟩ := map_eq_append_iff.mp hf
  obtain ⟨-, hrest, happart⟩ := pairwise_append.mp h.apart
  refine ⟨gone, left, rfl, ⟨hleft, hrest, fun i hi => h.items i (mem_append_right _ hi)⟩, ?_⟩
  intro frame hframe hmem
  have hid : frame.id ∈ above.filterMap ifEndId := hgone ▸ mem_map_of_mem hframe
  obtain ⟨upper, hupper, hend⟩ := mem_filterMap.mp hid
  obtain ⟨lower, hlower, hend'⟩ := mem_filterMap.mp hmem
  refine happart upper hupper lower hlower frame.id hend' ?_
  cases upper <;> simp_all [ifEndId, WorkItem.ids]

/-- The runner with other frames, up to the state that leaving frames resets. -/
theorem popped_drop {gone left : List ActiveIfFrame} {r : LogicRunner}
    (h : Popped root item { r with activeIfs := left })
    (hgone : ∀ frame ∈ gone, frame.id ∉ r.work.filterMap ifEndId)
    (hleft : Backed root r.work left) :
    Popped root item
      (dropUnbacked (r.work.filterMap ifEndId) (gone ++ left) r) := by
  induction gone generalizing r with
  | nil =>
    cases left with
    | nil => exact h
    | cons frame left =>
      have hmem : frame.id ∈ r.work.filterMap ifEndId := by
        rw [← hleft.frames]
        exact .head _
      rw [nil_append, dropUnbacked, if_pos hmem]
      exact h
  | cons frame gone ih =>
    rw [cons_append, dropUnbacked, if_neg (hgone frame (.head _))]
    refine @ih (r.resetIfState frame.resetStateIds) ?_ (fun f hf => hgone f (.tail _ hf)) hleft
    exact ⟨h.program, h.backed, pendingOk_reset h.pending, h.started⟩

theorem inv_dropAll (hp : r.program.root = root) (hpend : PendingOk root r)
    (hw : r.work = []) : Inv root r.dropAllIfFrames := by
  suffices h : ∀ (frames : List ActiveIfFrame) (r : LogicRunner), r.program.root = root →
      PendingOk root r → r.work = [] → Inv root
        { frames.foldl (fun r frame => r.resetIfState frame.resetStateIds) r with
          activeIfs := [] } from
    h r.activeIfs r hp hpend hw
  intro frames
  induction frames with
  | nil =>
    intro r hp hpend hw
    exact ⟨hp, by simpa [hw] using Backed.nil, hpend, fun _ => hw⟩
  | cons frame frames ih =>
    intro r hp hpend hw
    exact ih (r.resetIfState frame.resetStateIds) hp (pendingOk_reset hpend) hw

include hroot in
theorem sound_nextLoop (h : Inv root c.runner) : Sound root (nextLoop c) := by
  unfold nextLoop
  dsimp only
  split
  · have hinv := @inv_dropAll root
      { c.runner with runtimeStarts := fun _ => none, work := [] } h.program h.pending rfl
    exact { hinv with }
  next marker work hsplit =>
    obtain ⟨hmarker, above, hwork⟩ := splitMarker_some hsplit
    have hbacked := h.backed
    have hw : c.runner.work = above ++ marker :: work := hwork
    rw [hw] at hbacked
    obtain ⟨gone, left, hframes, hleft, hgone⟩ := hbacked.split
    have hend : marker.ifEndId = none := by
      cases marker <;> first | rfl | cases hmarker
    have hstarted : c.runner.rootStarted = true := by
      by_contra hs
      have := h.unstarted (by simpa using hs)
      rw [hw] at this
      simp at this
    rw [filterMap_cons_none hend] at hgone
    have hpopped := @popped_drop root marker gone left
      { c.runner with runtimeStarts := fun _ => none, work }
      ⟨h.program, hleft, h.pending, hstarted⟩ hgone (hleft.tail hend)
    rw [← hframes] at hpopped
    have hsou := @sound_processItem root hroot marker
      ⟨dropUnbackedIfFrames { c.runner with runtimeStarts := fun _ => none, work },
        c.input⟩ hpopped
    split
    next e c' hres => rwa [hres] at hsou
    next next c' hres => rwa [hres] at hsou

/-! ## Steps and runs -/

include hroot in
theorem sound_both (h : Inv root c.runner) : Sound root (recheckThenTransitions c) := by
  unfold recheckThenTransitions
  split_ifs
  · have hinv : Inv root { c.runner with ifCheckPending := false } :=
      ⟨h.program, h.backed, h.pending, h.unstarted⟩
    have hsou := sound_active hinv c.input
    split
    next e r hres => rwa [hres] at hsou
    next r hres =>
      rw [hres] at hsou
      exact sound_transitions hroot (c := { c with runner := r }) hsou
  · exact sound_transitions hroot h

include hroot in
/-- **A step** keeps the invariant and does not fail with an invariant violation. -/
theorem sound_step (h : Inv root c.runner) : Sound root (step c) := by
  have hnone : PendingOk root { c.runner with pendingRandomOrder := none } :=
    fun _ hp => (nomatch hp)
  unfold step
  split
  · split_ifs
    · exact { h with pending := hnone }
    · exact h
  · split_ifs
    · exact { h with pending := hnone }
    · have hsou := sound_nextLoop hroot
        (c := { c with runner := { c.runner with pendingRandomOrder := none } })
        { h with pending := hnone }
      split
      next e c' hres => rwa [hres] at hsou
      next c' hres =>
        rw [hres] at hsou
        split_ifs
        · exact hsou
        · exact sound_both hroot hsou
    · exact sound_both hroot h

end

/-- What may happen to a runner: its own methods, and the other users of a run that advance the
shared counters. -/
inductive LogicOperation
  | step (input : LogicInput)
  | setVariable (name value : String)
  | replaceVariables (values : Variables)
  | nextRootIteration
  | reset
  | shareCounters (state : Option (ElementId → Option ThroughputState))

namespace LogicRunner

def apply (r : LogicRunner) :
    LogicOperation → EStateM.Result LogicControllerError LogicRunner (Option LogicStep)
  | .step input =>
    match step ⟨r, input⟩ with
    | .error e c => .error e c.runner
    | .ok outcome c => .ok (some outcome) c.runner
  | .setVariable name value => .ok none (r.setVariable name value)
  | .replaceVariables values => .ok none (r.replaceVariables values)
  | .nextRootIteration =>
    match r.nextRootIteration with
    | .error e => .error e r
    | .ok r => .ok none r
  | .reset => .ok none r.reset
  | .shareCounters state => .ok none { r with sharedState := state }

/-- A sequence of operations: the failures, in order, and the runner after them. -/
def run : List LogicOperation → LogicRunner → List LogicControllerError × LogicRunner
  | [], r => ([], r)
  | operation :: operations, r =>
    match r.apply operation with
    | .error e r => (e :: (run operations r).1, (run operations r).2)
    | .ok _ r => run operations r

end LogicRunner

theorem inv_new {program : LogicProgram} (h : program.root = root)
    (sharedState : Option (ElementId → Option ThroughputState)) :
    Inv root (.withSharedState program sharedState) :=
  ⟨h, .nil, fun _ hp => (nomatch hp), fun _ => rfl⟩

variable {r : LogicRunner}

/-- **Every operation** keeps the invariant. -/
theorem sound_apply (hroot : root.ids.Nodup) (h : Inv root r) (operation : LogicOperation) :
    SoundRunner root (r.apply operation) := by
  cases operation with
  | step input =>
    have hsou := @sound_step root hroot ⟨r, input⟩ h
    simp only [apply]
    split
    next e c hres => rwa [hres] at hsou
    next outcome c hres => rwa [hres] at hsou
  | setVariable name value | replaceVariables values | shareCounters state =>
    exact { h with }
  | nextRootIteration =>
    simp only [apply, nextRootIteration]
    split_ifs
    · exact ⟨h, rfl⟩
    · split
      next e he =>
        split at he <;> cases he
        exact ⟨h, rfl⟩
      next r' hr =>
        split at hr <;> cases hr
        exact ⟨h.program, .nil, fun _ hp => (nomatch hp), fun _ => rfl⟩
  | reset => exact inv_new h.program r.sharedState

theorem sound_run (hroot : root.ids.Nodup) (h : Inv root r) (operations : List LogicOperation) :
    Inv root (r.run operations).2 ∧ ∀ e ∈ (r.run operations).1, e.isInvariantViolation = false := by
  induction operations generalizing r with
  | nil => exact ⟨h, by simp [LogicRunner.run]⟩
  | cons operation operations ih =>
    have hsou := sound_apply hroot h operation
    unfold LogicRunner.run
    split
    next e r' hres =>
      rw [hres] at hsou
      obtain ⟨hinv, herrors⟩ := ih hsou.1
      exact ⟨hinv, forall_mem_cons.mpr ⟨hsou.2, herrors⟩⟩
    next r' hres =>
      rw [hres] at hsou
      exact ih hsou

/-- **The If frames stay in step with the work stack.**  After any operations on a runner of an
accepted tree the active If frames are the end markers on the stack, in order; every marker that
resumes a controller has the cursor of that controller on its path; and no operation has failed
with an invariant violation. -/
theorem ifs_backed_of_run {root : LogicNode} {limits : LogicLimits} {program : LogicProgram}
    (hcompile : LogicProgram.compileWithLimits root limits = .ok program)
    (sharedState : Option (ElementId → Option ThroughputState)) (operations : List LogicOperation) :
    let run := LogicRunner.run operations (.withSharedState program sharedState)
    run.2.activeIfs.map (·.id) = run.2.work.filterMap ifEndId ∧
      (∀ item ∈ run.2.work, item.OwnCursor) ∧
      ∀ e ∈ run.1, e.isInvariantViolation = false := by
  obtain ⟨hprogram, -, hroot⟩ := ids_nodup_of_compile hcompile
  obtain ⟨hinv, herrors⟩ := sound_run hroot (inv_new hprogram sharedState) operations
  exact ⟨hinv.backed.frames, fun item hitem => (hinv.backed.items item hitem).ownCursor, herrors⟩

/-- Two nested If controllers inside a Loop. -/
def nestedIfs : LogicNode :=
  .loop 1 (.finite 2) [.ifController 2 .always true
    [.ifController 3 (.lastSampleSuccess true) true [.sample 4], .sample 5]]

/-- The operations up to the first sample of the inner If controller. -/
def firstSample : List LogicOperation :=
  [.step { LogicInput.default with lastSampleSuccess := some true }]

/-- Both If controllers of `nestedIfs` are active after the first sample. -/
theorem ifs_backed_of_run_nestedIfs :
    LogicProgram.compile nestedIfs = .ok ⟨nestedIfs, .default, false⟩ ∧
      ((LogicRunner.run firstSample
        (.withSharedState ⟨nestedIfs, .default, false⟩ none)).2.activeIfs.map (·.id)) = [3, 2] := by
  have hcompile := @compileWithLimits_eq_ok nestedIfs .default false (by decide +kernel)
  have hbacked := (ifs_backed_of_run hcompile none firstSample).1
  rw [hbacked]
  exact ⟨hcompile, by decide +kernel⟩

end JmeterRs.Logic
