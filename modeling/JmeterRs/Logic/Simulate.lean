import JmeterRs.Logic.Trace

/-!
# The logic runner follows its trace

The transitions of a runner on the common trees: from a node on top of the stack to the items
below it, they show the trace of the node with the visits of the marker and leave its memory.
-/

namespace JmeterRs.Logic

open Controllers LogicRunner

/-! ## Transitions and their events -/

/-- What processing an item shows. -/
def WorkItem.event : WorkItem → Option LoopEvent
  | .node (.sample id) _ _ => some (.sample id)
  | .node (.loop id (.finite count) _) _ iteration => some (.entered id count.toNat iteration)
  | .loopAgain id count _ _ iteration =>
    some (if loopDone count (iteration + 1) then .left id else .again id)
  | _ => none

/-- What the next transition of a runner shows. -/
def LogicRunner.event (r : LogicRunner) : Option LoopEvent :=
  if r.finished then none else r.startRoot.work.head?.bind WorkItem.event

/-- A runner that the next step finds without a stop or a pending If check. -/
structure Idle (program : LogicProgram) (r : LogicRunner) : Prop where
  program : r.program = program
  terminal : r.terminal = none
  ifCheckPending : r.ifCheckPending = false

/-- A call with the default input. -/
def LogicRunner.call (r : LogicRunner) : LogicCall := ⟨r, .default⟩

/-- Transitions, their number and what they show. -/
inductive Proceeds (program : LogicProgram) :
    ℕ → LogicRunner → List LoopEvent → LogicRunner → Prop
  | refl (r : LogicRunner) : Proceeds program 0 r [] r
  | silent {r r₁ r' : LogicRunner} {n : ℕ} {es : List LoopEvent} (hi : Idle program r)
      (h : transition r.call = .ok none r₁.call) (he : samples r.event.toList = [])
      (rest : Proceeds program n r₁ es r') : Proceeds program (n + 1) r (r.event.toList ++ es) r'
  | sample {r r₁ r' : LogicRunner} {n : ℕ} {es : List LoopEvent} {selection : LogicSelection}
      (hi : Idle program r) (h : transition r.call = .ok (some (.sample selection)) r₁.call)
      (he : r.event = some (.sample selection.samplerId))
      (rest : Proceeds program n r₁ es r') :
      Proceeds program (n + 1) r (.sample selection.samplerId :: es) r'

theorem Proceeds.trans {program : LogicProgram} {n n' : ℕ} {r r₁ r' : LogicRunner}
    {es es' : List LoopEvent} (h : Proceeds program n r es r₁)
    (h' : Proceeds program n' r₁ es' r') : Proceeds program (n + n') r (es ++ es') r' := by
  induction h with
  | refl => simpa using h'
  | silent hi ht he _ ih =>
    rw [List.append_assoc, Nat.add_right_comm]
    exact .silent hi ht he (ih h')
  | sample hi ht he _ ih =>
    rw [List.cons_append, Nat.add_right_comm]
    exact .sample hi ht he (ih h')

/-- A runner in a traversal, with the stack `work` and the memory `m`. -/
structure At (program : LogicProgram) (rootIteration : ℕ) (work : List WorkItem) (m : Memory)
    (r : LogicRunner) : Prop extends Idle program r where
  work : r.work = work
  onceDone : r.onceDone = m.onceDone
  interleaveNext : r.interleaveNext = m.interleaveNext
  rootStarted : r.rootStarted = true
  finished : r.finished = false
  activeIfs : r.activeIfs = []
  rootIteration : r.rootIteration = rootIteration

/-- The runner that processes an item over `work`. -/
def LogicRunner.counted (r : LogicRunner) (work : List WorkItem) : LogicRunner :=
  { r.countTransition with work }

section

variable {program : LogicProgram} {k : ℕ} {item : WorkItem} {work : List WorkItem} {m : Memory}
  {r : LogicRunner}

theorem At.counted (h : At program k (item :: work) m r) : At program k work m (r.counted work) :=
  { h with work := rfl }

theorem startRoot_eq (h : r.rootStarted = true) : r.startRoot = r := if_pos h

theorem At.event (h : At program k (item :: work) m r) : r.event = item.event := by
  unfold LogicRunner.event
  rw [h.finished, if_neg Bool.false_ne_true, startRoot_eq h.rootStarted, h.work]
  rfl

/-- A transition processes the topmost item. -/
theorem At.transition_eq (h : At program k (item :: work) m r) :
    transition r.call = afterItem item (processItem item (r.counted work).call) := by
  have hfinished : r.countTransition.finished = false := h.finished
  have hstart : r.countTransition.startRoot = r.countTransition := startRoot_eq h.rootStarted
  have hwork : r.countTransition.work = item :: work := h.work
  unfold transition
  dsimp only [call]
  rw [if_neg (by simp [hfinished]), hstart]
  split
  next hnil =>
    rw [hwork] at hnil
    cases hnil
  next top rest hcons =>
    rw [hwork] at hcons
    cases hcons
    rfl

end

/-! ## Following a trace -/

/-- From `items` on top of the stack the transitions show what `e` emits and leave its memory. -/
def Follows (program : LogicProgram) (k : ℕ) (items : List WorkItem) (e : Emit Memory LoopEvent) :
    Prop :=
  ∀ rest m r, At program k (items ++ rest) m r →
    ∃ n r', Proceeds program n r (e m).1 r' ∧ At program k rest (e m).2 r'

section

variable {program : LogicProgram} {k : ℕ} {path : List LogicCursor} {id : ElementId} {i : ℕ}
  {children : List ControllerNode}

theorem follows_nil : Follows program k [] .nothing := fun _ _ r h => ⟨0, r, .refl r, h⟩

theorem Follows.append {a b : List WorkItem} {f g : Emit Memory LoopEvent}
    (hf : Follows program k a f) (hg : Follows program k b g) :
    Follows program k (a ++ b) (f.andThen g) := by
  intro rest m r h
  rw [List.append_assoc] at h
  obtain ⟨n, r₁, hp, h₁⟩ := hf (b ++ rest) m r h
  obtain ⟨n', r', hp', h'⟩ := hg rest _ r₁ h₁
  exact ⟨n + n', r', hp.trans hp', h'⟩

theorem follows_single {item : WorkItem} {e : Emit Memory LoopEvent}
    (h : ∀ rest m r, At program k (item :: rest) m r →
      ∃ n r', Proceeds program n r (e m).1 r' ∧ At program k rest (e m).2 r') :
    Follows program k [item] e := h

/-- An item that is processed silently, then the items it stacks. -/
theorem At.silent {item : WorkItem} {items work work₁ : List WorkItem} {m m₁ : Memory}
    {r r₁ : LogicRunner} {e : Emit Memory LoopEvent} (h : At program k (item :: work) m r)
    (hp : processItem item (r.counted work).call = .ok none r₁.call)
    (he : samples item.event.toList = []) (hf : Follows program k items e)
    (h₁ : At program k work₁ m₁ r₁) (hw : work₁ = items ++ work) :
    ∃ n r', Proceeds program n r (item.event.toList ++ (e m₁).1) r' ∧
      At program k work (e m₁).2 r' := by
  have ht : transition r.call = .ok none r₁.call := by
    rw [h.transition_eq, hp]
    rfl
  subst hw
  obtain ⟨n, r', hrest, h'⟩ := hf work m₁ r₁ h₁
  rw [← h.event] at he ⊢
  exact ⟨n + 1, r', .silent h.toIdle ht he hrest, h'⟩

theorem follows_sample : Follows program k [.node (.sample id) path i] (.emit (.sample id)) := by
  refine follows_single fun rest m r h => ?_
  have hc := h.counted
  have ht : transition r.call = .ok (some (.sample ((r.counted rest).selection id path)))
      (call { r.counted rest with
        ifCheckPending := (r.counted rest).activeIfs ≠ [] }) := h.transition_eq
  have hev : r.event = some (.sample id) := h.event
  refine ⟨1, _, .sample h.toIdle ht hev (.refl _), ?_⟩
  exact { hc with ifCheckPending := decide_eq_false (not_not.mpr hc.activeIfs) }

def childItems (children : List ControllerNode) (path : List LogicCursor) (i : ℕ) :
    List WorkItem :=
  (toLogicList children).map (.node · path i)

/-- A tree is followed from everywhere. -/
def FollowsTree (program : LogicProgram) (k : ℕ) (tree : ControllerNode) : Prop :=
  ∀ path i, i < u64Max → Follows program k [.node (toLogic tree) path i] (trace markerVisits tree i)

theorem follows_all (h : ∀ child ∈ children, FollowsTree program k child) (hi : i < u64Max) :
    Follows program k (childItems children path i)
      (together (traceAll markerVisits children) i) := by
  induction children with
  | nil => exact follows_nil
  | cons child children ih =>
    exact (h child (.head _) path i hi).append (ih fun c hc => h c (.tail _ hc))

theorem At.schedule {work : List WorkItem} {m : Memory} {r : LogicRunner}
    (h : At program k work m r) (children : List LogicNode) (path : List LogicCursor) (i : ℕ)
    (marker : Option WorkItem) :
    At program k (children.map (.node · path i) ++ (marker.toList ++ work)) m
      (r.scheduleChildren children path i marker) :=
  { h with work := by rw [← h.work]; rfl }

/-! ### Loops -/

theorem updateCursor_last (kind : String) (j : ℕ) :
    updateCursorIteration (path ++ [cursor id kind i]) id kind j =
      .ok (path ++ [cursor id kind j]) := by
  have h : updateInnermost id kind j (path ++ [cursor id kind i]) =
      some (path ++ [cursor id kind j]) := by
    induction path with
    | nil => simp [updateInnermost, cursor]
    | cons c path ih => rw [List.cons_append, updateInnermost, ih]; rfl
  rw [updateCursorIteration, h]

/-- The marker of a Loop below the children of one of its iterations. -/
def loopItem (id : ElementId) (count : UInt64) (children : List ControllerNode)
    (path : List LogicCursor) (i : ℕ) : WorkItem :=
  .loopAgain id (.finite count) (toLogicList children) (path ++ [cursor id "LoopController" i]) i

theorem follows_rounds (h : ∀ child ∈ children, FollowsTree program k child) (id : ElementId)
    (count : UInt64) (path : List LogicCursor) (n i : ℕ) (hi : i < u64Max)
    (hn : n + 1 = max 1 (count.toNat - i)) : Follows program k
      (childItems children (path ++ [cursor id "LoopController" i]) i ++
        [loopItem id count children path i])
      (rounds id (together (traceAll markerVisits children)) i (n + 1)) := by
  have hcount : count.toNat ≤ u64Max := Nat.le_sub_one_of_lt count.toNat_lt
  induction n generalizing i with
  | zero =>
    refine (follows_all h hi).append (follows_single fun rest m r hr => ?_)
    have hnext : checkedAdd u64Max i 1 = some (i + 1) := checkedAdd_le hi
    have hdone : loopDone (.finite count) (i + 1) = true := by
      simp only [loopDone, decide_eq_true_eq]
      omega
    have hp : processItem (loopItem id count children path i) (r.counted rest).call =
        .ok none (r.counted rest).call := by
      simp only [loopItem, processItem, loopAgain, hnext, hdone, if_true]
    have hev : (loopItem id count children path i).event.toList = [.left id] := by
      simp [loopItem, WorkItem.event, hdone]
    obtain ⟨n, r', hpro, h'⟩ := hr.silent hp (by rw [hev]; rfl) follows_nil hr.counted rfl
    rw [hev] at hpro
    exact ⟨n, r', hpro, h'⟩
  | succ n ih =>
    refine (follows_all h hi).append (follows_single fun rest m r hr => ?_)
    have hnext : checkedAdd u64Max i 1 = some (i + 1) := checkedAdd_le hi
    have hlt : i + 1 < count.toNat := by omega
    have hdone : loopDone (.finite count) (i + 1) = false := by
      simp only [loopDone, decide_eq_false_iff_not]
      omega
    have hp : processItem (loopItem id count children path i) (r.counted rest).call =
        .ok none (scheduleChildren (r.counted rest) (toLogicList children)
          (path ++ [cursor id "LoopController" (i + 1)]) (i + 1)
          (some (loopItem id count children path (i + 1)))).call := by
      simp only [loopItem, processItem, loopAgain, hnext, hdone,
        Bool.false_eq_true, if_false, resume, updateCursor_last]
      rfl
    have hev : (loopItem id count children path i).event.toList = [.again id] := by
      simp [loopItem, WorkItem.event, hdone]
    obtain ⟨n', r', hpro, h'⟩ := hr.silent hp (by rw [hev]; rfl)
      (ih (i + 1) (by omega) (by omega)) (hr.counted.schedule ..)
      (by rw [List.append_assoc]; rfl)
    rw [hev] at hpro
    exact ⟨n', r', hpro, h'⟩

/-! ### Trees -/

/-- **A common tree is followed**, with the visits of the marker. -/
theorem followsTree {tree : ControllerNode} (hbasic : isBasic tree = true) :
    FollowsTree program k tree := by
  induction tree using ControllerNode.induct_children with
  | step node ih =>
    intro path i hi
    have hfollows (children : List ControllerNode) (hs : sourceChildren node = some children)
        (hb : isBasicList children = true) : ∀ child ∈ children, FollowsTree program k child :=
      fun child hchild => ih children hs child hchild (isBasic_of_mem hb hchild)
    cases node with
    | sample id => exact follows_sample
    | simple id children =>
      have hchs := hfollows children rfl hbasic
      refine follows_single fun rest m r h => ?_
      exact h.silent rfl rfl (follows_all hchs hi) (h.counted.schedule ..) rfl
    | loop id count children =>
      cases count with
      | forever => cases hbasic
      | finite count =>
        have hchs := hfollows children rfl hbasic
        refine follows_single fun rest m r h => ?_
        by_cases hzero : count = 0
        · subst hzero
          exact h.silent rfl rfl follows_nil h.counted rfl
        · have hpos : count.toNat ≠ 0 := fun h => hzero (UInt64.toNat_inj.mp h)
          have hp : processItem (.node (.loop id (.finite count) (toLogicList children)) path i)
              (r.counted rest).call = .ok none (scheduleChildren (r.counted rest)
                (toLogicList children) (path ++ [cursor id "LoopController" i]) i
                (some (loopItem id count children path i))).call := by
            simp only [processItem, processNode, visitLoop]
            rw [if_neg (by simpa using hzero)]
            rfl
          obtain ⟨v, hv⟩ : ∃ v, markerVisits i count.toNat = v + 1 := by
            refine ⟨max 1 (count.toNat - i) - 1, ?_⟩
            rw [markerVisits, if_neg hpos]
            omega
          have hmax : v + 1 = max 1 (count.toNat - i) := by
            rw [← hv, markerVisits, if_neg hpos]
          have hrounds := follows_rounds hchs id count path v i hi hmax
          rw [← hv] at hrounds
          exact h.silent hp rfl hrounds (h.counted.schedule ..) (by rw [List.append_assoc]; rfl)
    | onceOnly id children =>
      have hchs := hfollows children rfl hbasic
      refine follows_single fun rest m r h => ?_
      have hc := h.counted
      by_cases hdone : id ∈ m.onceDone
      · have hp : processItem (.node (toLogic (.onceOnly id children)) path i)
            (r.counted rest).call = .ok none (r.counted rest).call := by
          exact if_pos (hc.onceDone ▸ hdone)
        have htrace : trace markerVisits (.onceOnly id children) i m = ([], m) := if_pos hdone
        rw [htrace]
        exact h.silent hp rfl follows_nil hc rfl
      · have hp : processItem (.node (toLogic (.onceOnly id children)) path i)
            (r.counted rest).call = .ok none (scheduleChildren
              { r.counted rest with onceDone := insert id (r.counted rest).onceDone }
              (toLogicList children) (path ++ [cursor id "OnceOnlyController" i]) i
              none).call := by
          exact if_neg (hc.onceDone ▸ hdone)
        have htrace : trace markerVisits (.onceOnly id children) i m =
            together (traceAll markerVisits children) i (m.mark id) := if_neg hdone
        have hmark : At program k rest (m.mark id)
            { r.counted rest with onceDone := insert id (r.counted rest).onceDone } :=
          { hc with onceDone := by show insert id _ = insert id _; rw [hc.onceDone] }
        rw [htrace]
        exact h.silent hp rfl (follows_all hchs hi) (hmark.schedule ..) rfl
    | interleave id children =>
      have hchs := hfollows children rfl hbasic
      refine follows_single fun rest m r h => ?_
      have hc := h.counted
      have hlen : (toLogicList children).length = children.length := by
        rw [toLogicList_map, List.length_map]
      by_cases hemp : children.length = 0
      · have hp : processItem (.node (toLogic (.interleave id children)) path i)
            (r.counted rest).call = .ok none (r.counted rest).call := by
          exact if_pos (hlen.trans hemp)
        have htrace : trace markerVisits (.interleave id children) i m = ([], m) := if_pos hemp
        rw [htrace]
        exact h.silent hp rfl follows_nil hc rfl
      · have hlt : m.cursor id % children.length < children.length :=
          Nat.mod_lt _ (Nat.pos_of_ne_zero hemp)
        have hcursor : ((r.counted rest).interleaveNext id).getD 0 = m.cursor id := by
          rw [hc.interleaveNext]
          rfl
        have hp : processItem (.node (toLogic (.interleave id children)) path i)
            (r.counted rest).call = .ok none (scheduleChildren
              { r.counted rest with interleaveNext := (turnSaturating m id).interleaveNext }
              [toLogic children[m.cursor id % children.length]]
              (path ++ [cursor id "InterleaveControl" i]) i none).call := by
          simp only [toLogic, processItem, processNode, visitInterleave, call]
          rw [if_neg (hlen ▸ hemp), hcursor, hlen]
          unfold followChoice
          simp only [toLogicList_map, List.getElem?_map, List.getElem?_eq_getElem hlt,
            Option.map_some, hc.interleaveNext]
          rfl
        have htrace : trace markerVisits (.interleave id children) i m =
            trace markerVisits children[m.cursor id % children.length] i
              (turnSaturating m id) := by
          refine (if_neg hemp).trans ?_
          rw [traceAll_getD _]
        have hturn : At program k rest (turnSaturating m id)
            { r.counted rest with interleaveNext := (turnSaturating m id).interleaveNext } :=
          { hc with interleaveNext := rfl }
        rw [htrace]
        exact h.silent hp rfl (hchs _ (List.getElem_mem hlt) _ i hi) (hturn.schedule ..) rfl
    | disabled id children | random id seed children | randomOrder id seed children
    | unsupported id kind => cases hbasic

end

end JmeterRs.Logic
