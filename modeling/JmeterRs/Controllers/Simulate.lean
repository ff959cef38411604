import JmeterRs.Controllers.Budget
import JmeterRs.Controllers.Denote
import JmeterRs.Lib.Update

/-!
# The runner follows the meaning of its tree

A visit of a represented node takes the runner from the tick that selects it to the tick after
its frame is gone, shows the selections of the recursive semantics and leaves its memory.  The
frame below is back on top, so visits compose like the semantics do.  The one way to fail is a
cursor of an Interleave controller that no longer fits its counter.
-/

namespace JmeterRs.Controllers

open ControllerRunner List

/-! ## Simulations -/

/-- The outcome of a call that selects a sampler. -/
def sampled (selection : SampleSelection) : Except ControllerError ControllerStep :=
  .ok (.sample selection)

/-- The runner runs into an error. -/
def Fails (s : ControllerRunner) : Prop :=
  ∃ (n : ℕ) (out : List SampleSelection) (e : ControllerError) (s' : ControllerRunner),
    Exec stepTick s n (out.map sampled ++ [.error e]) s'

/-- Every Interleave cursor fits its counter. -/
def Memory.Fits (m : Memory) : Prop := ∀ id, m.cursor id ≤ usizeMax

/-- From `s` the runner shows `out` and arrives at `s'`, unless a counter overflows on the way. -/
def Sim (s : ControllerRunner) (out : List SampleSelection) (s' : ControllerRunner) : Prop :=
  (∃ n, Exec stepTick s n (out.map sampled) s') ∨ (Fails s ∧ ¬ s'.toMemory.Fits)

theorem Memory.Fits.of_le {m m' : Memory} (h : m'.Fits) (hle : m ≤ m') : m.Fits :=
  fun id => (hle id).trans (h id)

theorem Sim.refl (s : ControllerRunner) : Sim s [] s := .inl ⟨0, .refl s⟩

variable {out : List SampleSelection}

theorem Fails.of_exec {s s₁ : ControllerRunner} {n : ℕ}
    (h : Exec stepTick s n (out.map sampled) s₁) (hf : Fails s₁) : Fails s := by
  obtain ⟨m, rest, e, s', hx⟩ := hf
  exact ⟨_, out ++ rest, e, s', by simpa using h.trans hx⟩

variable {s s₁ s₂ : ControllerRunner}

theorem Sim.trans {a b : List SampleSelection} (h : Sim s a s₁) (h' : Sim s₁ b s₂)
    (hle : s₁.toMemory ≤ s₂.toMemory) : Sim s (a ++ b) s₂ := by
  rcases h with ⟨n, hx⟩ | ⟨hf, hn⟩
  · rcases h' with ⟨m, hx'⟩ | ⟨hf', hn'⟩
    · exact .inl ⟨n + m, by rw [map_append]; exact hx.trans hx'⟩
    · exact .inr ⟨hf'.of_exec hx, hn'⟩
  · exact .inr ⟨hf, fun h => hn (h.of_le hle)⟩

/-- Silent ticks around a simulation belong to it. -/
theorem Sim.after {n : ℕ} (hx : Exec stepTick s n [] s₁) (h : Sim s₁ out s₂) : Sim s out s₂ := by
  rcases h with ⟨m, hx'⟩ | ⟨hf, hn⟩
  · exact .inl ⟨n + m, hx.trans hx'⟩
  · exact .inr ⟨@Fails.of_exec [] _ _ _ hx hf, hn⟩

theorem Sim.before {n : ℕ} (h : Sim s out s₁)
    (hx : Exec stepTick s₁ n [] s₂) (hm : s₂.toMemory = s₁.toMemory) : Sim s out s₂ := by
  rcases h with ⟨m, hx'⟩ | ⟨hf, hn⟩
  · exact .inl ⟨m + n, by simpa using hx'.trans hx⟩
  · exact .inr ⟨hf, by rw [hm]; exact hn⟩

/-! ## Ticks of an active frame -/

/-- A traversal in progress. -/
structure Active (r : ControllerRunner) : Prop where
  bounded : r.program.Bounded
  rootStarted : r.rootStarted = true
  finished : r.finished = false
  terminal : r.terminal = none

/-- The runner with other frames and another memory. -/
def ControllerRunner.at (r : ControllerRunner) (stack : List Frame) (m : Memory) :
    ControllerRunner :=
  { r with toMemory := m, stack }

section

variable (r : ControllerRunner) (stack : List Frame) (m : Memory)

include r stack m

@[simp] theorem ControllerRunner.at_program : (r.at stack m).program = r.program := rfl

@[simp] theorem ControllerRunner.at_stack : (r.at stack m).stack = stack := rfl

@[simp] theorem ControllerRunner.at_toMemory : (r.at stack m).toMemory = m := rfl

end

/-- The controllers of a stack, outermost first. -/
def pathOf (nodes : List CompiledNode) (stack : List Frame) : List ControllerCursor :=
  stack.reverse.filterMap (frameCursor nodes)

theorem pathOf_cons (nodes : List CompiledNode) (frame : Frame) (below : List Frame) :
    pathOf nodes (frame :: below) = pathOf nodes below ++ (frameCursor nodes frame).toList := by
  unfold pathOf
  rw [reverse_cons, filterMap_append]
  cases h : frameCursor nodes frame <;> simp [h]

theorem Active.at {r : ControllerRunner} (h : Active r) (stack : List Frame) (m : Memory) :
    Active (r.at stack m) := ⟨h.bounded, h.rootStarted, h.finished, h.terminal⟩

section

variable {s s' : ControllerRunner} {frame : Frame} {below : List Frame} {child : NodeIndex}

theorem callPlan_of_frame (h : Active s) (hs : s.stack = frame :: below) :
    s.callPlan = ((s.framePlan frame).andThen (followAction frame)).pay 1 := by
  unfold callPlan paidPlan
  simp only [h.terminal, h.finished, h.rootStarted, hs, Bool.not_true, Bool.false_eq_true, if_false]

theorem tick_of_action {action : FrameAction} (h : Active s) (hs : s.stack = frame :: below)
    (ha : (s.framePlan frame).result = .ok action) (hn : (s.framePlan frame).next = s') :
    s.stepTick.out = (match (followAction frame action s').1 with
      | .ok none => none
      | .ok (some step) => some (.ok step)
      | .error e => some (.error e)) ∧
      s.stepTick.next = (followAction frame action s').2 := by
  have hplan := callPlan_of_frame h hs
  unfold stepTick
  rw [hplan]
  unfold Plan.andThen
  simp only [ha, hn, Plan.pay]
  trivial

theorem fails_of_plan {e : ControllerError} (h : Active s) (hs : s.stack = frame :: below)
    (ha : (s.framePlan frame).result = .error e) : Fails s := by
  have hplan := callPlan_of_frame h hs
  refine ⟨_, [], e, _, Exec.visible (tick_error ?_) (.refl _)⟩
  rw [hplan]
  unfold Plan.andThen
  simp only [ha, Plan.pay]

/-- The innermost frame of `s` selects `child` and leaves `s'`. -/
structure Selects (s : ControllerRunner) (child : NodeIndex) (s' : ControllerRunner) : Prop where
  active : Active s
  plan : ∃ frame below, s.stack = frame :: below ∧
    (s.framePlan frame).result = .ok (.select child) ∧ (s.framePlan frame).next = s'

theorem select_sample {id : ElementId} (h : Selects s child s')
    (hn : s'.program.nodes[child]? = some (.sample id)) :
    ∃ n, Exec stepTick s n [sampled (s'.selection id)] s' := by
  obtain ⟨frame, below, hs, hr, hnext⟩ := h.plan
  obtain ⟨hout, hto⟩ := tick_of_action h.active hs hr hnext
  simp only [followAction, hn] at hout hto
  exact Exec.of_visible hout hto

theorem select_enter {node : CompiledNode} (h : Selects s child s')
    (hn : s'.program.nodes[child]? = some node) (hnode : ∀ id, node ≠ .sample id) :
    ∃ n, Exec stepTick s n [] (s'.entered child node) := by
  obtain ⟨frame, below, hs, hr, hnext⟩ := h.plan
  obtain ⟨hout, hto⟩ := tick_of_action h.active hs hr hnext
  have hfollow : followAction frame (.select child) s' = (.ok none, s'.entered child node) := by
    unfold followAction
    simp only [hn]
  rw [hfollow] at hout hto
  exact Exec.of_silent hout hto

theorem exec_finish (h : Active s) (hs : s.stack = frame :: below)
    (hp : s.framePlan frame = .done s (.ok .finish)) :
    ∃ n, Exec stepTick s n [] { s with stack := below } := by
  have hnext : (s.framePlan frame).next = s := by rw [hp]; rfl
  obtain ⟨hout, hto⟩ := tick_of_action h hs (by rw [hp]; rfl) hnext
  simp only [followAction, hs, tail_cons] at hout hto
  exact Exec.of_silent hout hto

end

/-! ## Visits -/

/-- The runner follows the meaning of `tree` whenever it selects the node at `child`. -/
def Visits (nodes : List CompiledNode) (tree : ControllerNode) (child : NodeIndex) : Prop :=
  ∀ (r s : ControllerRunner) (stack : List Frame) (m : Memory), Active r →
    r.program.nodes = nodes → Selects s child (r.at stack m) →
    Sim s (denote r.completedIterations tree (pathOf nodes stack) m).1
      (r.at stack (denote r.completedIterations tree (pathOf nodes stack) m).2)

theorem exists_pairs {α β : Type} {R : α → β → Prop} {xs : List α} {ys : List β}
    (h : List.Forall₂ R xs ys) :
    ∃ pairs : List (α × β), xs = pairs.map Prod.fst ∧ ys = pairs.map Prod.snd ∧
      ∀ p ∈ pairs, R p.1 p.2 :=
  ⟨xs.zip ys, (map_fst_zip h.length_eq.le).symm, (map_snd_zip h.length_eq.ge).symm,
    fun _ hp => (forall₂_iff_zip.mp h).2 hp⟩

/-- From `s` the runner shows what `result` shows and arrives at its memory, with `stack`. -/
def ControllerRunner.Reaches (r s : ControllerRunner) (stack : List Frame)
    (result : List SampleSelection × Memory) : Prop :=
  Sim s result.1 (r.at stack result.2)

section

variable {r : ControllerRunner} (hr : Active r)

include hr

/-- A frame that is done is removed. -/
theorem Sim.finish {s : ControllerRunner} {frame : Frame}
    {below : List Frame} {m : Memory} (h : Sim s out (r.at (frame :: below) m))
    (hp : (r.at (frame :: below) m).framePlan frame =
      .done (r.at (frame :: below) m) (.ok .finish)) :
    Sim s out (r.at below m) := by
  obtain ⟨n, hx⟩ := exec_finish (hr.at (frame :: below) m) rfl hp
  exact h.before hx rfl

section

variable {node : NodeIndex} {iteration : ℕ} {mode : FrameMode} {below : List Frame}
  {indices : List NodeIndex} {atEnd : Except ControllerError FrameAction}
  (hlen : indices.length ≤ usizeMax)
  (hplan : ∀ j m, (r.at (⟨node, j, iteration, mode⟩ :: below) m).framePlan
    ⟨node, j, iteration, mode⟩ = (r.at (⟨node, j, iteration, mode⟩ :: below) m).orderedPlan
      ⟨node, j, iteration, mode⟩ indices atEnd)
  {path : List ControllerCursor}
  (hpath : ∀ j, pathOf r.program.nodes (⟨node, j, iteration, mode⟩ :: below) = path)

include hlen hplan hpath

/-- An ordered frame visits its remaining children and stays on top. -/
theorem sim_children (trees : List ControllerNode) (rest : List NodeIndex)
    (hvst : List.Forall₂ (Visits r.program.nodes) trees rest) :
    ∀ (first : List NodeIndex) (m : Memory), indices = first ++ rest →
      r.Reaches (r.at (⟨node, first.length, iteration, mode⟩ :: below) m)
        (⟨node, indices.length, iteration, mode⟩ :: below)
        (inOrder (trees.map (denote r.completedIterations)) path m) := by
  induction hvst with
  | nil =>
    rintro first m rfl
    rw [append_nil]
    exact Sim.refl _
  | @cons tree child trees rest hchild _ ih =>
    rintro first m hind
    have hget : indices[first.length]? = some child := by rw [hind]; simp
    have hnext : checkedAdd usizeMax first.length 1 = some (first.length + 1) := by
      refine checkedAdd_le ?_
      rw [hind] at hlen
      simp at hlen
      omega
    have hsel : Selects (r.at (⟨node, first.length, iteration, mode⟩ :: below) m) child
        (r.at (⟨node, first.length + 1, iteration, mode⟩ :: below) m) := by
      refine ⟨hr.at _ _, _, _, rfl, ?_⟩
      rw [hplan]
      simp only [orderedPlan, hget, childPlan, hnext, true_and]
      rfl
    have hfirst := hchild r _ _ m hr rfl hsel
    rw [hpath] at hfirst
    have hrest := ih (first ++ [child]) (denote r.completedIterations tree path m).2
      (by simp [hind])
    rw [length_append] at hrest
    exact hfirst.trans hrest (grows_trees _ trees path _)

theorem sim_ordered (hend : atEnd = .ok .finish) {trees : List ControllerNode}
    {rest : List NodeIndex} (hvst : List.Forall₂ (Visits r.program.nodes) trees rest)
    (first : List NodeIndex) (hind : indices = first ++ rest) (m : Memory) :
    r.Reaches (r.at (⟨node, first.length, iteration, mode⟩ :: below) m) below
      (inOrder (trees.map (denote r.completedIterations)) path m) := by
  refine Sim.finish hr (sim_children hr hlen hplan hpath trees rest hvst first m hind) ?_
  rw [hplan]
  simp [orderedPlan, hend]

end

section

variable {child : NodeIndex} {stack : List Frame} {trees : List ControllerNode}
  {indices : List NodeIndex} {id : ElementId}
  (hvst : List.Forall₂ (Visits r.program.nodes) trees indices)

include hvst

theorem sim_simple (hn : r.program.nodes[child]? = some (.simple id indices)) (m : Memory) :
    r.Reaches ((r.at stack m).entered child (.simple id indices)) stack
      (denote r.completedIterations (.simple id trees) (pathOf r.program.nodes stack) m) := by
  have hlen : indices.length ≤ usizeMax := hr.bounded _ (mem_of_getElem? hn)
  simp only [denote, denoteAll_map]
  show r.Reaches (r.at (⟨child, 0, 0, .ordered⟩ :: stack) m) stack _
  refine sim_ordered hr hlen (fun j m => ?_) (fun j => ?_) rfl hvst [] rfl m
  · simp only [framePlan, at_program, hn]
  · simp only [pathOf_cons, frameCursor, hn, Option.toList]

theorem sim_onceOnly (hn : r.program.nodes[child]? = some (.onceOnly id indices)) (m : Memory) :
    r.Reaches ((r.at stack m).entered child (.onceOnly id indices)) stack
      (denote r.completedIterations (.onceOnly id trees) (pathOf r.program.nodes stack) m) := by
  have hlen : indices.length ≤ usizeMax := hr.bounded _ (mem_of_getElem? hn)
  by_cases hdone : id ∈ m.onceDone
  · have hent : (r.at stack m).entered child (.onceOnly id indices) =
        r.at (⟨child, 0, 0, .skip⟩ :: stack) m := if_pos hdone
    simp only [hent, denote, if_pos hdone]
    refine Sim.finish hr (Sim.refl _) ?_
    simp only [framePlan, at_program, hn, if_true]
  · have hent : (r.at stack m).entered child (.onceOnly id indices) =
        r.at (⟨child, 0, 0, .ordered⟩ :: stack) (m.mark id) := if_neg hdone
    simp only [hent, denote, denoteAll_map, if_neg hdone]
    refine sim_ordered hr hlen (fun j m => ?_) (fun j => ?_) rfl hvst [] rfl (m.mark id)
    · simp [framePlan, hn]
    · simp only [pathOf_cons, frameCursor, hn, Option.toList]

section

variable (stack) {count : UInt64} {iteration : ℕ}
  (hn : r.program.nodes[child]? = some (.loop id (.finite count) indices))
  (hlt : iteration < count.toNat)

omit hr hvst in
include hlt in
theorem succ_le_u64Max : iteration + 1 ≤ u64Max := by
  have hcount := count.toNat_lt
  unfold u64Max
  omega

include hn hlt

omit hr hvst in
theorem framePlan_loop (j : ℕ) (m : Memory) :
    (r.at (⟨child, j, iteration, .ordered⟩ :: stack) m).framePlan ⟨child, j, iteration, .ordered⟩ =
      (r.at (⟨child, j, iteration, .ordered⟩ :: stack) m).orderedPlan
        ⟨child, j, iteration, .ordered⟩ indices
        (if count.toNat ≤ iteration + 1 then .ok .finish else .ok .advanceLoop) := by
  have hne : count ≠ 0 := by
    rintro rfl
    simp at hlt
  simp only [framePlan, at_program, hn, if_neg hne, loopEnd, checkedAdd_le (succ_le_u64Max hlt)]

variable {stack} in
theorem sim_iteration (m : Memory) : r.Reaches (r.at (⟨child, 0, iteration, .ordered⟩ :: stack) m)
      (⟨child, indices.length, iteration, .ordered⟩ :: stack)
      (inOrder (trees.map (denote r.completedIterations))
        (pathOf r.program.nodes stack ++ [⟨id, .loop, iteration⟩]) m) :=
  have hpath (j : ℕ) : pathOf r.program.nodes (⟨child, j, iteration, .ordered⟩ :: stack) =
      pathOf r.program.nodes stack ++ [⟨id, .loop, iteration⟩] := by
    simp only [pathOf_cons, frameCursor, hn, Option.toList]
  sim_children hr (hr.bounded _ (mem_of_getElem? hn)) (framePlan_loop stack hn hlt) hpath trees
    indices hvst [] m rfl

omit hvst in
/-- The tick from one iteration to the next. -/
theorem exec_advance (hlast : ¬ count.toNat ≤ iteration + 1) (m : Memory) :
    ∃ n, Exec stepTick (r.at (⟨child, indices.length, iteration, .ordered⟩ :: stack) m) n []
      (r.at (⟨child, 0, iteration + 1, .ordered⟩ :: stack) m) := by
  have hplan := framePlan_loop stack hn hlt indices.length m
  simp only [orderedPlan, getElem?_length, if_neg hlast] at hplan
  obtain ⟨hout, hto⟩ := tick_of_action (hr.at _ m) rfl (by rw [hplan]; rfl) (by rw [hplan])
  simp only [followAction, checkedAdd_le (succ_le_u64Max hlt)] at hout hto
  exact Exec.of_silent hout hto

end

section

variable {count : UInt64} (hn : r.program.nodes[child]? = some (.loop id (.finite count) indices))

include hn

theorem sim_iterations (left : ℕ)
    (iteration : ℕ) (m : Memory) (hleft : iteration + (left + 1) = count.toNat) :
    r.Reaches (r.at (⟨child, 0, iteration, .ordered⟩ :: stack) m) stack
      (Emit.times (fun i => inOrder (trees.map (denote r.completedIterations))
        (pathOf r.program.nodes stack ++ [⟨id, .loop, i⟩])) iteration (left + 1) m) := by
  induction left generalizing iteration m with
  | zero =>
    have hlt : iteration < count.toNat := by omega
    simp only [Reaches, Emit.times, Emit.andThen_fst, Emit.andThen_snd, Emit.nothing_apply,
      append_nil]
    refine Sim.finish hr (sim_iteration hr hvst hn hlt m) ?_
    rw [framePlan_loop stack hn hlt]
    simp [orderedPlan, ← hleft]
  | succ left ih =>
    have hlt : iteration < count.toNat := by omega
    obtain ⟨n, hadvance⟩ := exec_advance hr stack hn hlt (by omega)
      (inOrder (trees.map (denote r.completedIterations))
        (pathOf r.program.nodes stack ++ [⟨id, .loop, iteration⟩]) m).2
    rw [Emit.times]
    exact (sim_iteration hr hvst hn hlt m).trans (.after hadvance (ih _ _ (by omega)))
      (Emit.grows_times (fun _ => grows_trees _ trees _) _ _ _)

theorem sim_loop (m : Memory) :
    r.Reaches ((r.at stack m).entered child (.loop id (.finite count) indices)) stack
      (denote r.completedIterations (.loop id (.finite count) trees)
        (pathOf r.program.nodes stack) m) := by
  simp only [denote, denoteAll_map]
  show r.Reaches (r.at (⟨child, 0, 0, .ordered⟩ :: stack) m) stack _
  cases hcount : count.toNat with
  | zero =>
    refine Sim.finish hr (Sim.refl _) ?_
    have hzero : count = 0 := UInt64.toNat_inj.mp hcount
    simp only [framePlan, at_program, hn, if_pos hzero]
  | succ left => exact sim_iterations hr hvst hn left 0 m (by omega)

end

variable (child) in
/-- A one-shot frame selects one child and finishes after it. -/
theorem sim_oneShot {c : NodeIndex} {index : ℕ} {m : Memory} (hc : indices[index]? = some c)
    (hsel : Selects s c (r.at (⟨child, 0, 0, .oneShot (some c)⟩ :: stack) m))
    (hfin : ∀ m, (r.at (⟨child, 0, 0, .oneShot (some c)⟩ :: stack) m).framePlan
      ⟨child, 0, 0, .oneShot (some c)⟩ =
        .done (r.at (⟨child, 0, 0, .oneShot (some c)⟩ :: stack) m) (.ok .finish))
    {path : List ControllerCursor}
    (hpath : pathOf r.program.nodes (⟨child, 0, 0, .oneShot (some c)⟩ :: stack) = path) :
    r.Reaches s stack (pick (trees.map (denote r.completedIterations)) index path m) := by
  obtain ⟨tree, htree, hvisit⟩ := get?_forall₂ hvst hc
  have hpick : pick (trees.map (denote r.completedIterations)) index =
      denote r.completedIterations tree := by
    simp [pick, htree]
  rw [hpick, ← hpath]
  exact Sim.finish hr (hvisit r s _ m hr rfl hsel) (hfin _)

theorem sim_interleave (hn : r.program.nodes[child]? = some (.interleave id indices)) (m : Memory) :
    r.Reaches ((r.at stack m).entered child (.interleave id indices)) stack
      (denote r.completedIterations (.interleave id trees) (pathOf r.program.nodes stack) m) := by
  show r.Reaches (r.at (⟨child, 0, 0, .oneShot none⟩ :: stack) m) stack _
  simp only [denote, denoteAll_map, hvst.length_eq]
  split_ifs with hemp
  · refine Sim.finish hr (Sim.refl _) ?_
    simp only [framePlan, at_program, hn, if_pos hemp]
  · obtain ⟨c, hc⟩ : ∃ c, indices[m.cursor id % indices.length]? = some c :=
      ⟨_, getElem?_eq_getElem (Nat.mod_lt _ (by omega))⟩
    have hplan : (r.at (⟨child, 0, 0, .oneShot none⟩ :: stack) m).framePlan
        ⟨child, 0, 0, .oneShot none⟩ = (r.at (⟨child, 0, 0, .oneShot none⟩ :: stack)
          m).interleavePlan ⟨child, 0, 0, .oneShot none⟩ id indices := by
      simp only [framePlan, at_program, hn, if_neg hemp]
    by_cases hfit : m.cursor id + 1 ≤ usizeMax
    · refine sim_oneShot hr child hvst hc ⟨hr.at _ _, _, _, rfl, ?_⟩ (fun m => ?_) ?_
      · rw [hplan]
        unfold Memory.cursor at hc hfit
        simp only [interleavePlan, at_toMemory, hc, checkedAdd_le hfit, true_and]
        rfl
      · simp only [framePlan, at_program, hn, if_neg hemp]
      · simp only [pathOf_cons, frameCursor, hn, Option.toList]
    · refine .inr ⟨?_, ?_⟩
      · refine fails_of_plan (e := .counterOverflow "interleave-cursor") (hr.at _ _) rfl ?_
        rw [hplan]
        unfold Memory.cursor at hc hfit
        simp only [interleavePlan, at_toMemory, hc, checkedAdd_none.mpr (not_le.mp hfit)]
        rfl
      · intro hfits
        have hgrow := grows_pick_trees r.completedIterations trees (m.cursor id % indices.length)
          (pathOf r.program.nodes stack ++ [⟨id, .interleave, 0⟩]) (m.turn id) id
        rw [Memory.cursor_turn] at hgrow
        exact hfit (hgrow.trans (hfits id))

theorem sim_random {seed : UInt64}
    (hn : r.program.nodes[child]? = some (.random id seed indices)) (m : Memory) :
    r.Reaches ((r.at stack m).entered child (.random id seed indices)) stack
      (denote r.completedIterations (.random id seed trees) (pathOf r.program.nodes stack) m) := by
  have hlen : indices.length ≤ usizeMax := hr.bounded _ (mem_of_getElem? hn)
  show r.Reaches (r.at (⟨child, 0, 0, .oneShot none⟩ :: stack) m) stack _
  simp only [denote, denoteAll_map, hvst.length_eq]
  split_ifs with hemp
  · refine Sim.finish hr (Sim.refl _) ?_
    simp only [framePlan, at_program, hn, if_pos hemp]
  · have hlt := m.drawIndex_lt id seed (Nat.pos_of_ne_zero hemp) hlen
    obtain ⟨c, hc⟩ : ∃ c, indices[(m.drawIndex id seed indices.length).index]? = some c :=
      ⟨_, getElem?_eq_getElem hlt⟩
    refine sim_oneShot hr child hvst hc ⟨hr.at _ _, _, _, rfl, ?_⟩ (fun m => ?_) ?_
    · simp only [framePlan, at_program, hn, if_neg hemp]
      simp only [randomPlan, at_toMemory, hc, true_and]
      rfl
    · simp only [framePlan, at_program, hn, if_neg hemp]
    · simp only [pathOf_cons, frameCursor, hn, Option.toList]

theorem sim_randomOrder {seed : UInt64}
    (hn : r.program.nodes[child]? = some (.randomOrder id seed indices)) (m : Memory) :
    r.Reaches ((r.at stack m).entered child (.randomOrder id seed indices)) stack
      (denote r.completedIterations (.randomOrder id seed trees)
        (pathOf r.program.nodes stack) m) := by
  have hlen : indices.length ≤ usizeMax := hr.bounded _ (mem_of_getElem? hn)
  show r.Reaches (r.at (⟨child, 0, 0, .randomOrder none⟩ :: stack) m) stack _
  simp only [denote, denoteAll_map, hvst.length_eq]
  split_ifs with hemp
  · refine Sim.finish hr (Sim.refl _) ?_
    simp only [framePlan, at_program, hn, if_pos hemp]
  · -- the permutation is drawn once, on the pairs of a tree and its index
    obtain ⟨pairs, rfl, rfl, hpairs⟩ := exists_pairs hvst
    have hplan : (r.at (⟨child, 0, 0, .randomOrder none⟩ :: stack) m).framePlan
        ⟨child, 0, 0, .randomOrder none⟩ = (r.at (⟨child, 0, 0, .randomOrder none⟩ :: stack)
          m).randomOrderPlan ⟨child, 0, 0, .randomOrder none⟩ id seed (pairs.map Prod.snd) := by
      simp only [framePlan, at_program, hn, if_neg hemp]
    simp only [map_map, Memory.shuffle_map, length_map] at hemp hlen hplan ⊢
    have hperm := Memory.shuffle_perm id seed (pairs.length - 1) pairs m
    simp only [randomOrderPlan, at_toMemory, Memory.shuffle_map, length_map] at hplan
    generalize Memory.shuffle id seed (pairs.length - 1) pairs m = sh at hperm hplan ⊢
    obtain ⟨order, rejected, memory⟩ := sh
    cases order with
    | nil => exact absurd hperm.length_eq.symm hemp
    | cons p rest =>
      have hone : checkedAdd usizeMax 0 1 = some 1 := rfl
      have hvis (q : ControllerNode × NodeIndex) (hq : q ∈ p :: rest) :
          Visits r.program.nodes q.1 q.2 := hpairs q (hperm.mem_iff.mp hq)
      have hrestvis : List.Forall₂ (Visits r.program.nodes) (rest.map Prod.fst)
          (rest.map Prod.snd) := by
        rw [forall₂_map_left_iff, forall₂_map_right_iff, forall₂_same]
        exact fun q hq => hvis q (.tail _ hq)
      have hpath (j : ℕ) (mode : FrameMode) :
          pathOf r.program.nodes (⟨child, j, 0, mode⟩ :: stack) =
            pathOf r.program.nodes stack ++ [⟨id, .randomOrder, 0⟩] := by
        simp only [pathOf_cons, frameCursor, hn, Option.toList]
      generalize pathOf r.program.nodes stack ++ [⟨id, .randomOrder, 0⟩] = path at hpath ⊢
      have hlen' : (p.2 :: rest.map Prod.snd).length ≤ usizeMax := by
        have := hperm.length_eq
        simp only [length_cons, length_map] at this ⊢
        omega
      have hfirst := hvis p (.head _) r _
        (⟨child, 1, 0, .randomOrder (some (p.2 :: rest.map Prod.snd))⟩ :: stack) memory hr rfl
        ⟨hr.at (⟨child, 0, 0, .randomOrder none⟩ :: stack) m, _, _, rfl, by
          rw [hplan]; exact ⟨rfl, rfl⟩⟩
      rw [hpath] at hfirst
      have hne : pairs ≠ [] := ne_nil_of_length_pos (Nat.pos_of_ne_zero hemp)
      have hrest := sim_ordered hr hlen' (fun j m => by simp [framePlan, hn, hne])
        (fun j => hpath j (.randomOrder (some (p.2 :: rest.map Prod.snd)))) rfl hrestvis [p.2] rfl
        (denote r.completedIterations p.1 path memory).2
      have hgrow := grows_trees r.completedIterations (rest.map Prod.fst) path
        (denote r.completedIterations p.1 path memory).2
      rw [map_map] at hrest hgrow
      exact hfirst.trans hrest hgrow

end

end

/-- The runner follows the meaning of `tree` once it has entered the node at `child`. -/
def Follows (nodes : List CompiledNode) (tree : ControllerNode) (child : NodeIndex) : Prop :=
  ∀ (r : ControllerRunner) (stack : List Frame) (m : Memory) (node : CompiledNode), Active r →
    r.program.nodes = nodes → nodes[child]? = some node → (∀ id, node ≠ .sample id) →
    Sim ((r.at stack m).entered child node)
      (denote r.completedIterations tree (pathOf nodes stack) m).1
      (r.at stack (denote r.completedIterations tree (pathOf nodes stack) m).2)

variable {nodes : List CompiledNode} {tree : ControllerNode}

theorem follows_visits {child : NodeIndex} (hrep : Represents nodes tree child)
    (h : Follows nodes tree child) : Visits nodes tree child := by
  rintro r s stack m hr rfl hsel
  have henter {node : CompiledNode} (hn : r.program.nodes[child]? = some node)
      (hnode : ∀ id, node ≠ .sample id) :
      r.Reaches s stack (denote r.completedIterations tree (pathOf r.program.nodes stack) m) := by
    obtain ⟨n, hx⟩ := select_enter hsel hn hnode
    exact .after hx (h r stack m node hr rfl hn hnode)
  cases hrep with
  | sample hn => exact .inl (select_sample hsel hn)
  | disabled hn => exact henter hn (by simp)
  | @controller _ _ indices compiled _ hs hc hn hchs =>
    refine henter hn ?_
    rintro id rfl
    cases tree <;> simp [compiledController] at hc

/-- **The runner follows the meaning of every represented tree.** -/
theorem represents_follows :
    ∀ child, Represents nodes tree child → tree.isFinite = true → Follows nodes tree child := by
  induction tree using ControllerNode.induct_children with
  | step tree ih =>
    rintro child hrep hfin r stack m node hr rfl hnode hsample
    have hvst {children : List ControllerNode} {indices : List NodeIndex}
        (hs : sourceChildren tree = some children) (hfin : isFiniteList children = true)
        (hchs : List.Forall₂ (Represents r.program.nodes) children indices) :
        List.Forall₂ (Visits r.program.nodes) children indices := by
      refine ((forall₂_and_left _ _).mpr ⟨fun _ hc => hc, hchs⟩).imp ?_
      rintro c i ⟨hc, hrep⟩
      exact follows_visits hrep (ih children hs c hc i hrep (isFinite_of_mem hfin hc))
    cases hrep with
    | sample hn => exact absurd (by simpa [hn] using hnode.symm) (hsample _)
    | disabled hn =>
      obtain rfl : _ = node := by simpa [hn] using hnode
      show Sim (r.at (⟨child, 0, 0, .skip⟩ :: stack) m) _ _
      refine Sim.finish hr (Sim.refl _) ?_
      simp only [framePlan, at_program, hn]
    | @controller _ children indices compiled _ hs hc hn hchs =>
      obtain rfl : compiled = node := by simpa [hn] using hnode
      cases tree with
      | simple id trees =>
        cases hs; cases hc
        exact sim_simple hr (hvst rfl hfin hchs) hn m
      | loop id count trees =>
        cases hs; cases hc
        cases count with
        | forever => simp [ControllerNode.isFinite] at hfin
        | finite count => exact sim_loop hr (hvst rfl hfin hchs) hn m
      | onceOnly id trees =>
        cases hs; cases hc
        exact sim_onceOnly hr (hvst rfl hfin hchs) hn m
      | interleave id trees =>
        cases hs; cases hc
        exact sim_interleave hr (hvst rfl hfin hchs) hn m
      | random id seed trees =>
        cases hs; cases hc
        exact sim_random hr (hvst rfl hfin hchs) hn m
      | randomOrder id seed trees =>
        cases hs; cases hc
        exact sim_randomOrder hr (hvst rfl hfin hchs) hn m
      | sample | disabled | unsupported => simp [compiledController] at hc

end JmeterRs.Controllers
