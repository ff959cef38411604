import JmeterRs.Controllers.Traverse
import JmeterRs.Logic.Simulate

/-!
# The two runners compared

`LogicRunner` and `ControllerRunner` on the same tree, over any number of root iterations.  A Loop
of the logic runner numbers its visits from the iteration it inherits from the loop around it and
stops at its count, so an inner loop makes fewer visits in the later iterations of an outer one.
`agrees_iff` says exactly when the two runners agree and every Loop entry makes the visits of its
count: when no Loop of two or more visits is entered in a later iteration of a loop around it.
-/

namespace JmeterRs.Logic

open Controllers Emit LogicRunner List

/-! ## Traversals by steps -/

/-- What a traversal has shown: the samples its steps returned, in order, and the events of their
transitions. -/
structure Traversal where
  ids : List ElementId
  events : List LoopEvent
  runner : LogicRunner

/-- The events of the transitions of one step. -/
def LogicRunner.stepEvents (r : LogicRunner) : List LoopEvent :=
  (loopStates transition r.program.limits.maxTransitions r.call).filterMap (·.runner.event)

/-- Steps with the default input until one completes, at most `calls` of them.  A step that runs
out of transitions is called again. -/
def traverse : ℕ → LogicRunner → Option Traversal
  | 0, _ => none
  | calls + 1, r =>
    match step r.call with
    | .ok (.sample selection) c =>
      (traverse calls c.runner).map fun t =>
        ⟨selection.samplerId :: t.ids, r.stepEvents ++ t.events, t.runner⟩
    | .ok .complete c => some ⟨[], r.stepEvents, c.runner⟩
    | .error (.transitionLimit ..) c =>
      (traverse calls c.runner).map fun t => ⟨t.ids, r.stepEvents ++ t.events, t.runner⟩
    | _ => none

/-- Successive root iterations, each followed by `next_root_iteration`. -/
def traverseAll (calls : ℕ) : ℕ → LogicRunner → Option Traversal
  | 0, r => some ⟨[], [], r⟩
  | k + 1, r =>
    match traverse calls r with
    | none => none
    | some t =>
      match t.runner.nextRootIteration with
      | .error _ => none
      | .ok r =>
        (traverseAll calls k r).map fun t' => ⟨t.ids ++ t'.ids, t.events ++ t'.events, t'.runner⟩

theorem step_of_idle {program : LogicProgram} {r : LogicRunner} (h : Idle program r) :
    step r.call = transitions r.call := by
  have ht : r.call.runner.terminal = none := h.terminal
  have hi : r.call.runner.ifCheckPending = false := h.ifCheckPending
  unfold step recheckThenTransitions
  rw [ht]
  simp only [hi, Bool.false_eq_true, if_false]
  rfl

/-- The next transition completes the traversal. -/
structure Completes (program : LogicProgram) (r r' : LogicRunner) : Prop extends
    Idle program r where
  transition : transition r.call = .ok (some .complete) r'.call
  event : r.event = none

section

variable {program : LogicProgram} {r last final : LogicRunner} {n : ℕ} {es : List LoopEvent}

/-- A step sees the transitions up to the next sample, to the end, or to its limit. -/
theorem loop_of_proceeds (stuck : LogicControllerError) (hp : Proceeds program n r es last)
    (hc : Completes program last final) (fuel : ℕ) : ∃ seen later, es = seen ++ later ∧
      (loopStates transition fuel r.call).filterMap (·.runner.event) = seen ∧
      ((later = [] ∧ samples seen = [] ∧
          loopM stuck transition fuel r.call = .ok .complete final.call) ∨
        (∃ selection r₁ n₁, samples seen = [selection.samplerId] ∧ n₁ < n ∧
          loopM stuck transition fuel r.call = .ok (.sample selection) r₁.call ∧
          Proceeds program n₁ r₁ later last) ∨ (∃ r₁ n₁, samples seen = [] ∧ n₁ + fuel = n ∧
          loopM stuck transition fuel r.call = .error stuck r₁.call ∧
          Proceeds program n₁ r₁ later last)) := by
  induction hp generalizing fuel with
  | refl r =>
    obtain _ | fuel := fuel
    · exact ⟨[], [], rfl, rfl, .inr (.inr ⟨r, 0, rfl, rfl, rfl, .refl r⟩)⟩
    · refine ⟨[], [], rfl, ?_, .inl ⟨rfl, rfl, loopM_break hc.transition⟩⟩
      rw [states_break hc.transition]
      simp [call, hc.event]
  | @silent r r₁ last n es hi ht he hrest ih =>
    obtain _ | fuel := fuel
    · exact ⟨[], _, rfl, rfl, .inr (.inr ⟨r, n + 1, rfl, rfl, rfl, .silent hi ht he hrest⟩)⟩
    · have hhead (seen : List LoopEvent) : samples (r.event.toList ++ seen) = samples seen := by
        rw [samples_append, he, nil_append]
      obtain ⟨seen, later, rfl, hseen, hcases⟩ := ih hc fuel
      refine ⟨r.event.toList ++ seen, later, (append_assoc ..).symm, ?_, ?_⟩
      · rw [states_continue ht, ← hseen]
        cases hev : r.event <;> simp [call, hev]
      · rw [hhead, loopM_continue ht]
        rcases hcases with hdone | ⟨selection, r₂, n₂, hs, hlt, hloop, hp⟩ |
          ⟨r₂, n₂, hs, hn, hloop, hp⟩
        · exact .inl hdone
        · exact .inr (.inl ⟨selection, r₂, n₂, hs, by omega, hloop, hp⟩)
        · exact .inr (.inr ⟨r₂, n₂, hs, by omega, hloop, hp⟩)
  | @sample r r₁ last n es selection hi ht he hrest ih =>
    obtain _ | fuel := fuel
    · exact ⟨[], _, rfl, rfl, .inr (.inr ⟨r, n + 1, rfl, rfl, rfl, .sample hi ht he hrest⟩)⟩
    · refine ⟨[.sample selection.samplerId], es, rfl, ?_, .inr (.inl
        ⟨selection, r₁, n, rfl, Nat.lt_succ_self n, loopM_break ht, hrest⟩)⟩
      rw [states_break ht]
      simp [call, he]

theorem Proceeds.idle (hp : Proceeds program n r es last) (hc : Completes program last final) :
    Idle program r := by
  cases hp with
  | refl => exact hc.toIdle
  | silent hi => exact hi
  | sample hi => exact hi

/-- Steps return the samples of the transitions, however many calls they take. -/
theorem traverse_proceeds (hp : Proceeds program n r es last)
    (hc : Completes program last final) (calls : ℕ) :
    (∀ t, traverse calls r = some t → t = ⟨samples es, es, final⟩) ∧
      (0 < program.limits.maxTransitions → n < calls → ∃ t, traverse calls r = some t) := by
  induction calls generalizing r n es with
  | zero => exact ⟨fun t ht => (nomatch ht), fun _ h => absurd h (Nat.not_lt_zero _)⟩
  | succ calls ih =>
    have hidle := hp.idle hc
    have hstep := step_of_idle hidle
    have hlimit : r.program.limits.maxTransitions = program.limits.maxTransitions := by
      rw [hidle.program]
    obtain ⟨seen, later, rfl, hseen, hcases⟩ := loop_of_proceeds
      (.transitionLimit (saturatingAdd usizeMax r.program.limits.maxTransitions 1)
        r.program.limits.maxTransitions) hp hc r.program.limits.maxTransitions
    have hevents : r.stepEvents = seen := hseen
    have hloop : transitions r.call = loopM
      (.transitionLimit (saturatingAdd usizeMax r.program.limits.maxTransitions 1)
        r.program.limits.maxTransitions) transition r.program.limits.maxTransitions r.call := rfl
    unfold traverse
    rw [hstep, hloop, hevents]
    rcases hcases with ⟨rfl, hs, hres⟩ | ⟨selection, r₁, n₁, hs, hlt, hres, hrest⟩ |
      ⟨r₁, n₁, hs, hn, hres, hrest⟩
    · rw [hres]
      refine ⟨?_, fun _ _ => ⟨_, rfl⟩⟩
      rintro t ⟨⟩
      rw [append_nil, hs]
      rfl
    -- The call has answered with a sample, or has left the rest to the next one.
    all_goals
      rw [hres]
      obtain ⟨hsound, htotal⟩ := ih hrest
      refine ⟨?_, fun hpos hcalls => ?_⟩
      · intro t ht
        obtain ⟨t₁, ht₁, rfl⟩ := Option.map_eq_some_iff.mp ht
        rw [hsound t₁ ht₁, samples_append, hs]
        rfl
      · obtain ⟨t₁, ht₁⟩ := htotal hpos (by omega)
        exact ⟨_, Option.map_eq_some_iff.mpr ⟨t₁, ht₁, rfl⟩⟩

end

/-! ## Root iterations of the logic runner -/

/-- The trace of successive root iterations. -/
def traceRuns (visits : ℕ → ℕ → ℕ) (tree : ControllerNode) (k : ℕ) : Emit Memory LoopEvent :=
  .times (fun _ => trace visits tree 0) 0 k

theorem times_const {σ ω : Type} (f : Emit σ ω) (start start' n : ℕ) :
    times (fun _ => f) start n = times (fun _ => f) start' n := by
  induction n generalizing start start' with
  | zero => rfl
  | succ n ih => rw [times, times, ih (start + 1) (start' + 1)]

theorem traceRuns_succ (visits : ℕ → ℕ → ℕ) (tree : ControllerNode) (k : ℕ) :
    traceRuns visits tree (k + 1) = (trace visits tree 0).andThen (traceRuns visits tree k) := by
  unfold traceRuns
  rw [times, times_const _ 1 0]

theorem compares_traceRuns (tree : ControllerNode) (k : ℕ) :
    Compares (traceRuns markerVisits tree k) (traceRuns fullVisits tree k) := by
  induction k with
  | zero => exact compares_nothing
  | succ k ih =>
    rw [traceRuns_succ, traceRuns_succ]
    exact fun m => (compares_trace 0 m).andThen ih

/-- A runner at the start of a root iteration. -/
structure Fresh (program : LogicProgram) (rootIteration : ℕ) (m : Memory) (r : LogicRunner) :
    Prop extends Idle program r where
  work : r.work = []
  onceDone : r.onceDone = m.onceDone
  interleaveNext : r.interleaveNext = m.interleaveNext
  rootStarted : r.rootStarted = false
  finished : r.finished = false
  activeIfs : r.activeIfs = []
  rootIteration : r.rootIteration = rootIteration

section

variable {program : LogicProgram} {tree : ControllerNode} {m : Memory} {r : LogicRunner} {k : ℕ}

theorem fresh_new (program : LogicProgram) : Fresh program 0 .empty (.new program) :=
  ⟨⟨rfl, rfl, rfl⟩, rfl, rfl, rfl, rfl, rfl, rfl, rfl⟩

theorem Fresh.startRoot (h : Fresh program k m r) :
    At program k [.node program.root [] 0] m r.startRoot := by
  have hstart : r.startRoot =
      { r with rootStarted := true, work := .node r.program.root [] 0 :: r.work } :=
    if_neg (by simp [h.rootStarted])
  rw [hstart]
  exact ⟨⟨h.program, h.terminal, h.ifCheckPending⟩, by simp [h.work, h.program], h.onceDone,
    h.interleaveNext, rfl, h.finished, h.activeIfs, h.rootIteration⟩

/-- The first transition starts the root and goes on as if it had been started. -/
theorem Fresh.transition_eq (h : Fresh program k m r) :
    transition r.call = transition r.startRoot.call ∧ r.event = r.startRoot.event := by
  have hat := h.startRoot
  have hcount : r.countTransition.startRoot = r.startRoot.countTransition := by
    unfold LogicRunner.startRoot
    rw [if_neg (show ¬ r.countTransition.rootStarted = true by
      rw [show r.countTransition.rootStarted = r.rootStarted from rfl, h.rootStarted]; simp),
      if_neg (by simp [h.rootStarted])]
    rfl
  have htwice : r.startRoot.countTransition.startRoot = r.startRoot.countTransition :=
    startRoot_eq hat.rootStarted
  have hfinished : r.countTransition.finished = false := h.finished
  have hfinished' : r.startRoot.countTransition.finished = false := hat.finished
  constructor
  · unfold transition
    dsimp only [call]
    rw [if_neg (by simp [hfinished]), if_neg (by simp [hfinished']), hcount, htwice]
  · unfold event
    rw [h.finished, hat.finished, startRoot_eq hat.rootStarted]

/-- The runner after its last transition. -/
def LogicRunner.completed (r : LogicRunner) : LogicRunner :=
  { r.countTransition with finished := true }

theorem completes_of_at (h : At program k [] m r) : Completes program r r.completed := by
  have hstart : r.countTransition.startRoot = r.countTransition := startRoot_eq h.rootStarted
  have hfinished : r.countTransition.finished = false := h.finished
  have hwork : r.countTransition.work = [] := h.work
  refine ⟨h.toIdle, ?_, ?_⟩
  · unfold transition
    dsimp only [call]
    rw [if_neg (by simp [hfinished]), hstart]
    split
    · rfl
    next hcons =>
      rw [hwork] at hcons
      cases hcons
  · unfold event
    rw [h.finished, startRoot_eq h.rootStarted, h.work]
    rfl

theorem Fresh.proceeds (h : Fresh program k m r) (hroot : program.root = toLogic tree)
    (hbasic : isBasic tree = true) :
    ∃ n last, Proceeds program n r (trace markerVisits tree 0 m).1 last ∧
      At program k [] (trace markerVisits tree 0 m).2 last := by
  have hat := h.startRoot
  rw [hroot] at hat
  obtain ⟨n, last, hp, hlast⟩ := followsTree hbasic [] 0 (by decide) [] m r.startRoot hat
  obtain ⟨htransition, hev⟩ := h.transition_eq
  refine ⟨n, last, ?_, hlast⟩
  generalize (trace markerVisits tree 0 m).1 = events at hp ⊢
  cases hp with
  | refl =>
    have hwork := hat.work
    rw [hlast.work] at hwork
    cases hwork
  | silent hi ht he hrest =>
    rw [← htransition] at ht
    rw [← hev] at he ⊢
    exact .silent h.toIdle ht he hrest
  | sample hi ht he hrest =>
    rw [← htransition] at ht
    rw [← hev] at he
    exact .sample h.toIdle ht he hrest

theorem fresh_nextRoot (h : At program k [] m r) (hk : k + 1 ≤ u64Max) :
    ∃ r', r.completed.nextRootIteration = .ok r' ∧ Fresh program (k + 1) m r' := by
  have hnext : checkedAdd u64Max r.completed.rootIteration 1 = some (k + 1) := by
    rw [show r.completed.rootIteration = k from h.rootIteration]
    exact checkedAdd_le hk
  have hfinished : r.completed.finished = true := rfl
  unfold nextRootIteration
  rw [hfinished, hnext]
  exact ⟨_, rfl, ⟨h.program, rfl, rfl⟩, rfl, h.onceDone, h.interleaveNext, rfl, rfl, rfl, rfl⟩

/-- **The traversals of the logic runner** show the trace with the visits of the marker. -/
theorem traverseAll_eq (h : Fresh program k m r) (hroot : program.root = toLogic tree)
    (hbasic : isBasic tree = true) (n : ℕ) (hn : k + n ≤ u64Max) :
    (∀ calls t, traverseAll calls n r = some t →
      t.ids = samples (traceRuns markerVisits tree n m).1 ∧
        t.events = (traceRuns markerVisits tree n m).1) ∧ (0 < program.limits.maxTransitions →
      ∃ bound, ∀ calls, bound ≤ calls → ∃ t, traverseAll calls n r = some t) := by
  induction n generalizing k m r with
  | zero =>
    refine ⟨?_, fun _ => ⟨0, fun _ _ => ⟨_, rfl⟩⟩⟩
    rintro calls t ⟨⟩
    exact ⟨rfl, rfl⟩
  | succ n ih =>
    obtain ⟨count, last, hp, hlast⟩ := h.proceeds hroot hbasic
    have hc := completes_of_at hlast
    obtain ⟨r', hr', hfresh⟩ := fresh_nextRoot hlast (by omega)
    obtain ⟨hsound, htotal⟩ := ih hfresh (by omega)
    have hfirst := traverse_proceeds hp hc
    rw [traceRuns_succ]
    refine ⟨fun calls t ht => ?_, fun hpos => ?_⟩
    · unfold traverseAll at ht
      cases htraverse : traverse calls r with
      | none => simp [htraverse] at ht
      | some t₁ =>
        have ht₁ := (hfirst calls).1 t₁ htraverse
        subst ht₁
        simp only [htraverse, hr'] at ht
        obtain ⟨t₂, ht₂, rfl⟩ := Option.map_eq_some_iff.mp ht
        obtain ⟨hids, hevents⟩ := hsound calls t₂ ht₂
        refine ⟨?_, ?_⟩
        · rw [andThen_fst, samples_append]
          exact congrArg _ hids
        · rw [andThen_fst]
          exact congrArg _ hevents
    · obtain ⟨bound, hbound⟩ := htotal hpos
      refine ⟨max (count + 1) bound, fun calls hcalls => ?_⟩
      obtain ⟨t₁, ht₁⟩ := (hfirst calls).2 hpos (by omega)
      obtain ⟨t₂, ht₂⟩ := hbound calls (by omega)
      have ht₁' := (hfirst calls).1 t₁ ht₁
      subst ht₁'
      unfold traverseAll
      simp only [ht₁, hr', ht₂]
      exact ⟨_, rfl⟩

end

/-! ## The full trace is the meaning of the tree -/

/-- A trace emits the samples of a visit, as long as no Interleave cursor overflows. -/
def Matches (f : Emit Memory LoopEvent) (g : Emit Memory SampleSelection) : Prop :=
  ∀ m, (g m).2.Fits → samples (f m).1 = (g m).1.map (·.samplerId) ∧ (f m).2 = (g m).2

theorem Matches.andThen {f f' : Emit Memory LoopEvent} {g g' : Emit Memory SampleSelection}
    (h : Matches f g) (h' : Matches f' g') (hgrows : g'.Grows) :
    Matches (f.andThen f') (g.andThen g') := by
  intro m hfits
  obtain ⟨hs, hm⟩ := h m (hfits.of_le (hgrows _))
  have hfits' : (g' (g m).2).2.Fits := hfits
  obtain ⟨hs', hm'⟩ := h' (g m).2 hfits'
  rw [andThen_fst, andThen_fst, andThen_snd, andThen_snd, hm, map_append, ← hs, ← hs']
  exact ⟨samples_append .., hm'⟩

theorem matches_silent {e : LoopEvent} (he : e.sampleId = none) {f : Emit Memory LoopEvent}
    {g : Emit Memory SampleSelection} (h : Matches f g) :
    Matches ((emit e).andThen f) g := by
  intro m hfits
  have hsamples : samples ((emit e).andThen f m).1 = samples (f m).1 := filterMap_cons_none he
  rw [hsamples]
  exact h m hfits

theorem matches_nothing : Matches .nothing .nothing := fun _ _ => ⟨rfl, rfl⟩

theorem matches_all {α : Type} {f : α → Emit Memory LoopEvent}
    {g : α → Emit Memory SampleSelection} {xs : List α} (h : ∀ x ∈ xs, Matches (f x) (g x))
    (hgrows : ∀ x ∈ xs, (g x).Grows) : Matches (.all (xs.map f)) (.all (xs.map g)) := by
  induction xs with
  | nil => exact matches_nothing
  | cons x xs ih =>
    have hrest : ∀ y ∈ xs, (g y).Grows := fun y hy => hgrows y (.tail _ hy)
    refine (h x (.head _)).andThen (ih (fun y hy => h y (.tail _ hy)) hrest) (grows_all ?_)
    intro e he
    obtain ⟨y, hy, rfl⟩ := mem_map.mp he
    exact hrest y hy

theorem matches_rounds {id : ElementId} {body : IterationVisit}
    {g : ℕ → Emit Memory SampleSelection} (h : ∀ i j, Matches (body i) (g j))
    (hgrows : ∀ j, (g j).Grows) (n i j : ℕ) : Matches (rounds id body i n) (.times g j n) := by
  induction n generalizing i j with
  | zero => exact matches_nothing
  | succ n ih =>
    obtain _ | n := n
    · exact (h i j).andThen (fun _ _ => ⟨rfl, rfl⟩) grows_nothing
    · rw [rounds_succ_succ]
      exact (h i j).andThen (matches_silent rfl (ih (i + 1) (j + 1))) (grows_times hgrows _ _)

theorem turnSaturating_eq {m : Memory} {id : ElementId} (h : (m.turn id).Fits) :
    turnSaturating m id = m.turn id := by
  have hcursor := h id
  rw [Memory.cursor_turn] at hcursor
  unfold turnSaturating Memory.turn saturatingAdd
  rw [if_pos hcursor]

variable {tree : ControllerNode}

theorem matches_trace (hbasic : isBasic tree = true) (execution i : ℕ)
    (path : List ControllerCursor) :
    Matches (trace fullVisits tree i) (denote execution tree path) := by
  induction tree using ControllerNode.induct_children generalizing i path with
  | step node ih =>
    have htog (children : List ControllerNode) (hs : sourceChildren node = some children)
        (hb : isBasicList children = true) (j : ℕ) (path : List ControllerCursor) :
        Matches (together (traceAll fullVisits children) j)
          (inOrder (denoteAll execution children) path) := by
      unfold together inOrder
      rw [traceAll_eq_map, denoteAll_map, map_map, map_map]
      exact matches_all
        (fun child hchild => ih children hs child hchild (isBasic_of_mem hb hchild) j path)
        (fun child _ => grows_denote execution child path)
    cases node with
    | sample id => exact fun _ _ => ⟨rfl, rfl⟩
    | simple id children => exact htog children rfl hbasic i _
    | loop id count children =>
      cases count with
      | forever => cases hbasic
      | finite count =>
        refine matches_silent rfl (matches_rounds
          (fun i j => htog children rfl hbasic i _) (fun j => ?_) _ _ _)
        rw [denoteAll_map]
        exact grows_trees execution children _
    | onceOnly id children =>
      intro m hfits
      unfold denote at hfits ⊢
      unfold trace
      split_ifs at hfits ⊢
      · exact ⟨rfl, rfl⟩
      · exact htog children rfl hbasic i _ (m.mark id) hfits
    | interleave id children =>
      intro m hfits
      unfold denote at hfits ⊢
      unfold trace
      split_ifs at hfits ⊢ with hempty
      · exact ⟨rfl, rfl⟩
      · have hlt : m.cursor id % children.length < children.length :=
          Nat.mod_lt _ (Nat.pos_of_ne_zero hempty)
        have hpick : pick (denoteAll execution children) (m.cursor id % children.length) =
            denote execution children[m.cursor id % children.length] := by
          rw [pick, denoteAll_map, getD_eq_getElem?_getD, getElem?_map, getElem?_eq_getElem hlt]
          rfl
        rw [hpick] at hfits ⊢
        rw [traceAll_getD _, turnSaturating_eq (hfits.of_le (grows_denote execution _ _ _))]
        have hchild := getElem_mem hlt
        exact ih children rfl _ hchild (isBasic_of_mem hbasic hchild) i _ _ hfits
    | disabled id children | random id seed children | randomOrder id seed children
    | unsupported id kind => cases hbasic

theorem matches_traceRuns (hbasic : isBasic tree = true) (k execution : ℕ) (m : Memory)
    (hfits : (denoteRuns tree k execution m).2.Fits) : samples (traceRuns fullVisits tree k m).1 =
      (denoteRuns tree k execution m).1.flatMap (·.map (·.samplerId)) := by
  induction k generalizing execution m with
  | zero => rfl
  | succ k ih =>
    have hfirst : (denote execution tree [] m).2.Fits :=
      hfits.of_le (le_denoteRuns k (execution + 1) _)
    obtain ⟨hs, hm⟩ := matches_trace hbasic execution 0 [] m hfirst
    rw [traceRuns_succ, andThen_fst, samples_append, hs, hm, ih (execution + 1) _ hfits]
    rfl

/-! ## Agreement -/

theorem isFinite_of_isBasic (h : isBasic tree = true) : tree.isFinite = true := by
  induction tree using ControllerNode.induct_children with
  | step node ih =>
    have hlist (children : List ControllerNode) (hs : sourceChildren node = some children)
        (hb : isBasicList children = true) : isFiniteList children = true := by
      have hall : ∀ child ∈ children, child.isFinite = true := fun child hchild =>
        ih children hs child hchild (isBasic_of_mem hb hchild)
      clear ih hb hs
      induction children with
      | nil => rfl
      | cons first rest ih =>
        rw [isFiniteList, hall first (.head _), ih fun child hchild => hall child (.tail _ hchild)]
        rfl
    cases node with
    | sample id => rfl
    | simple id children | onceOnly id children | interleave id children =>
      exact hlist children rfl h
    | loop id count children =>
      cases count with
      | finite count => exact hlist children rfl h
      | forever => cases h
    | disabled id children | random id seed children | randomOrder id seed children
    | unsupported id kind => cases h

/-- With large enough budgets and enough calls both runners complete `k` root iterations, return
the same samplers in the same order, and every Loop entry of the logic runner makes exactly the
visits of its count. -/
def Agrees (program : ControllerProgram) (logic : LogicProgram) (k : ℕ) : Prop :=
  ∃ bound, ∀ (budgets : List RunBudget) (calls : ℕ), budgets.length = k →
    (∀ b ∈ budgets, bound ≤ b.samplesLeft ∧ bound ≤ b.transitionsLeft) → bound ≤ calls →
    ∃ traces r t, runAll budgets (.new program) = .ok (traces, r) ∧
      traverseAll calls k (.new logic) = some t ∧
      t.ids = traces.flatMap (·.samples.map (·.samplerId)) ∧ exactVisits t.events = true

/-- In `k` traversals of the tree no Loop of two or more visits is entered in the second or a later
iteration of a Loop around it. -/
def NoLateLoop (tree : ControllerNode) (k : ℕ) : Prop :=
  NoLate (traceRuns fullVisits tree k .empty).1

/-- **When the two runners agree.**  On a tree of samplers, Simple, finite Loop, OnceOnly and
Interleave controllers that both compilers accept, as long as no 64-bit counter of the controller
runner overflows: the runners agree and every Loop entry is exact just when no Loop of two or more
visits is entered in a later iteration of a Loop around it. -/
theorem agrees_iff {tree : ControllerNode} {limits : ControllerLimits} {logicLimits : LogicLimits}
    {program : ControllerProgram} {logic : LogicProgram}
    (hcompile : ControllerProgram.compileWithLimits tree limits = .ok program)
    (hlogic : LogicProgram.compileWithLimits (toLogic tree) logicLimits = .ok logic)
    (hbasic : isBasic tree = true) (hlimit : 0 < logicLimits.maxTransitions) (k : ℕ)
    (hk : k ≤ u64Max) (hfits : (denoteRuns tree k 0 .empty).2.Fits) :
    Agrees program logic k ↔ NoLateLoop tree k := by
  obtain ⟨hrep, hb⟩ := compile_represents hcompile
  obtain ⟨hroot, hlimits, -⟩ := ids_nodup_of_compile hlogic
  have hfin := isFinite_of_isBasic hbasic
  have hready := ready_new program
  obtain ⟨bound, hcontroller⟩ := runAll_total hb hrep hfin hready k
    (show 0 + k ≤ u64Max by omega) hfits
  obtain ⟨hsound, htotal⟩ := traverseAll_eq (fresh_new logic) hroot hbasic k (by omega)
  obtain ⟨bound', hcalls⟩ := htotal (by rw [hlimits]; exact hlimit)
  constructor
  · rintro ⟨enough, hagrees⟩
    -- budgets that satisfy both bounds exist, so the runs do
    have hbudgets : ∀ b ∈ List.replicate k (RunBudget.new enough enough),
        enough ≤ b.samplesLeft ∧ enough ≤ b.transitionsLeft := by
      intro b hb
      rw [(mem_replicate.mp hb).2]
      exact ⟨le_refl _, le_refl _⟩
    obtain ⟨traces, r, t, -, ht, -, hexact⟩ := hagrees _ enough length_replicate hbudgets le_rfl
    obtain ⟨-, hevents⟩ := hsound enough t ht
    rcases compares_traceRuns tree k .empty with ⟨hlate, -, -⟩ | ⟨-, hblocks⟩
    · exact hlate
    · have hfalse := hblocks [] []
      rw [append_nil, ← hevents] at hfalse
      rw [exactVisits, hfalse] at hexact
      cases hexact
  · intro hlate
    refine ⟨max bound bound', fun budgets calls hlen hbudgets hle => ?_⟩
    obtain ⟨traces, r, hrun⟩ := hcontroller budgets hlen fun b hb =>
      ⟨le_trans (le_max_left ..) (hbudgets b hb).1, le_trans (le_max_left ..) (hbudgets b hb).2⟩
    obtain ⟨t, ht⟩ := hcalls calls (le_trans (le_max_right ..) hle)
    obtain ⟨hids, hevents⟩ := hsound calls t ht
    obtain ⟨-, heq, hpass⟩ | ⟨hnot, -⟩ := compares_traceRuns tree k .empty
    swap
    · exact absurd hlate hnot
    refine ⟨traces, r, t, hrun, ht, ?_, ?_⟩
    · have hsamples := matches_traceRuns hbasic k 0 .empty hfits
      rw [heq] at hids
      rw [runAll_sound hb hrep hfin hready hrun, hlen, hids, flatMap_map]
      exact hsamples
    · have hpasses := hpass [] []
      rw [append_nil, ← hevents] at hpasses
      exact hpasses

/-- A Loop whose inner Loop runs only once. -/
def onceLoops : ControllerNode :=
  .loop 1 (.finite 3) [.onceOnly 2 [.loop 3 (.finite 2) [.sample 4]], .sample 5]

/-- The runners agree on `onceLoops`: its inner Loop is entered in a first iteration only. -/
theorem agrees_iff_onceLoops :
    Agrees ⟨[.sample 4, .loop 3 (.finite 2) [0], .onceOnly 2 [1], .sample 5,
      .loop 1 (.finite 3) [2, 3]], 4⟩ ⟨toLogic onceLoops, .default, false⟩ 2 := by
  have hcompile : ControllerProgram.compile onceLoops = .ok ⟨[.sample 4, .loop 3 (.finite 2) [0],
      .onceOnly 2 [1], .sample 5, .loop 1 (.finite 3) [2, 3]], 4⟩ := by decide +kernel
  have hlogic := @compileWithLimits_eq_ok (toLogic onceLoops) .default false (by decide +kernel)
  refine (agrees_iff hcompile hlogic rfl (by decide) 2 (by decide) ?_).mpr ?_
  · intro id
    exact Nat.zero_le _
  · show ∀ e ∈ _, _
    decide +kernel

/-- Two nested Loops of two visits each. -/
def nestedLoops : ControllerNode := .loop 1 (.finite 2) [.loop 2 (.finite 2) [.sample 3]]

/-- **The runners disagree on nested Loops**: four samples of the controller runner, three of the
logic runner, whose inner Loop makes one visit in the second iteration of the outer one. -/
theorem nestedLoops_disagree : ControllerProgram.compile nestedLoops =
        .ok ⟨[.sample 3, .loop 2 (.finite 2) [0], .loop 1 (.finite 2) [1]], 2⟩ ∧
      LogicProgram.compile (toLogic nestedLoops) = .ok ⟨toLogic nestedLoops, .default, false⟩ ∧
      ((runAll [RunBudget.new 100 100] (.new ⟨[.sample 3, .loop 2 (.finite 2) [0],
        .loop 1 (.finite 2) [1]], 2⟩)).toOption.map
          (·.1.flatMap (·.samples.map (·.samplerId)))) = some [3, 3, 3, 3] ∧
      (traverseAll 100 1 (.new ⟨toLogic nestedLoops, .default, false⟩)).map (·.ids) =
        some [3, 3, 3] ∧ (traverseAll 100 1 (.new ⟨toLogic nestedLoops, .default, false⟩)).map
        (exactVisits ·.events) = some false :=
  ⟨by decide +kernel, compileWithLimits_eq_ok (by decide +kernel), by decide +kernel,
    by decide +kernel, by decide +kernel⟩

end JmeterRs.Logic
