import JmeterRs.Controllers.Plan
import JmeterRs.Controllers.Represent
import JmeterRs.Lib.Emit

/-!
# What a controller tree means

The recursive semantics of a tree: the selections one visit makes, in order.  Only the memory of
the controllers is threaded from visit to visit; there is no stack, no frame and no budget.
-/

namespace JmeterRs.Controllers

open Memory

/-- A visit of a node under the controllers on its path, outermost first. -/
abbrev Visit := List ControllerCursor → Emit Memory SampleSelection

namespace Memory

/-- Marks an Once Only controller. -/
def mark (m : Memory) (id : ElementId) : Memory := { m with onceDone := insert id m.onceDone }

/-- The position of an Interleave controller. -/
def cursor (m : Memory) (id : ElementId) : ℕ := (m.interleaveNext id).getD 0

/-- Moves an Interleave controller to its next turn. -/
def turn (m : Memory) (id : ElementId) : Memory :=
  { m with interleaveNext := Function.update m.interleaveNext id (some (m.cursor id + 1)) }

end Memory

/-- All of a list of visits, in order. -/
def inOrder (visits : List Visit) : Visit := fun path => .all (visits.map (· path))

/-- One visit of a list, by its index. -/
def pick (visits : List Visit) (index : ℕ) : Visit := visits.getD index fun _ => .nothing

section

variable (execution : ℕ)

mutual

/-- The meaning of a tree during one root traversal. -/
def denote : ControllerNode → Visit
  | .sample id => fun path m => ([⟨id, execution, path⟩], m)
  | .simple id children => fun path => inOrder (denoteAll children) (path ++ [⟨id, .simple, 0⟩])
  | .loop id (.finite count) children => fun path =>
    .times (fun i => inOrder (denoteAll children) (path ++ [⟨id, .loop, i⟩])) 0 count.toNat
  -- a Forever loop has no finite meaning
  | .loop _ .forever _ => fun _ => .nothing
  | .disabled _ _ => fun _ => .nothing
  | .onceOnly id children => fun path m =>
    if id ∈ m.onceDone then ([], m)
    else inOrder (denoteAll children) (path ++ [⟨id, .onceOnly, 0⟩]) (m.mark id)
  | .interleave id children => fun path m =>
    if children.length = 0 then ([], m)
    else
      pick (denoteAll children) (m.cursor id % children.length)
        (path ++ [⟨id, .interleave, 0⟩]) (m.turn id)
  | .random id seed children => fun path m =>
    if children.length = 0 then ([], m)
    else
      pick (denoteAll children) (m.drawIndex id seed children.length).index
        (path ++ [⟨id, .random, 0⟩]) (m.drawIndex id seed children.length).memory
  | .randomOrder id seed children => fun path m =>
    if children.length = 0 then ([], m)
    else
      let sh := Memory.shuffle id seed (children.length - 1) (denoteAll children) m
      inOrder sh.order (path ++ [⟨id, .randomOrder, 0⟩]) sh.memory
  | .unsupported _ _ => fun _ => .nothing

def denoteAll : List ControllerNode → List Visit
  | [] => []
  | node :: nodes => denote node :: denoteAll nodes

end

theorem denoteAll_map (nodes : List ControllerNode) :
    denoteAll execution nodes = nodes.map (denote execution) := by
  induction nodes with
  | nil => rfl
  | cons node nodes ih => rw [denoteAll, ih, List.map_cons]

end

/-- The selections of successive root traversals, one list for each. -/
def denoteRuns (tree : ControllerNode) : ℕ → ℕ → Memory → List (List SampleSelection) × Memory
  | 0, _, m => ([], m)
  | k + 1, execution, m =>
    let (first, m₁) := denote execution tree [] m
    let (rest, m₂) := denoteRuns tree k (execution + 1) m₁
    (first :: rest, m₂)

mutual

/-- No enabled Loop controller of the tree runs forever. -/
def ControllerNode.isFinite : ControllerNode → Bool
  | .loop _ .forever _ => false
  | .loop _ (.finite _) children | .simple _ children | .onceOnly _ children
  | .interleave _ children | .random _ _ children | .randomOrder _ _ children =>
    isFiniteList children
  | .sample _ | .disabled _ _ | .unsupported _ _ => true

def isFiniteList : List ControllerNode → Bool
  | [] => true
  | node :: nodes => node.isFinite && isFiniteList nodes

end

theorem isFinite_of_mem {children : List ControllerNode} {child : ControllerNode}
    (h : isFiniteList children = true) (hmem : child ∈ children) : child.isFinite = true := by
  induction children with
  | nil => cases hmem
  | cons first rest ih =>
    rw [isFiniteList, Bool.and_eq_true] at h
    rcases List.mem_cons.mp hmem with rfl | hmem
    · exact h.1
    · exact ih h.2 hmem

/-! ## Draws and permutations -/

theorem Memory.drawIndex_lt (m : Memory) (id : ElementId) (seed : UInt64) {bound : ℕ}
    (hpos : 0 < bound) (hb : bound ≤ usizeMax) : (m.drawIndex id seed bound).index < bound := by
  unfold drawIndex
  split_ifs
  · exact hpos
  · exact (draw_spec hpos hb _).index_lt

section

variable {α β : Type} (id : ElementId) (seed : UInt64)

theorem Memory.shuffle_perm (n : ℕ) (order : List α) (m : Memory) :
    (Memory.shuffle id seed n order m).order.Perm order := by
  induction n generalizing order m with
  | zero => exact .refl order
  | succ n ih => exact (ih _ _).trans (List.swap_perm ..)

theorem map_swap (f : α → β) (xs : List α) (i j : ℕ) :
    (xs.map f).swap i j = (xs.swap i j).map f := by
  rw [List.swap_eq, List.swap_eq]
  simp only [List.length_map]
  split_ifs with h
  · simp [List.map_set]
  · rfl

/-- A permutation is drawn without looking at what is permuted. -/
theorem Memory.shuffle_map (f : α → β) (n : ℕ) (order : List α) (m : Memory) :
    Memory.shuffle id seed n (order.map f) m = ⟨(Memory.shuffle id seed n order m).order.map f,
        (Memory.shuffle id seed n order m).rejected,
        (Memory.shuffle id seed n order m).memory⟩ := by
  induction n generalizing order m with
  | zero => rfl
  | succ n ih => simp only [Memory.shuffle, map_swap, ih]

end

/-! ## Cursors only move forward -/

/-- Memories ordered by the positions of the Interleave controllers. -/
instance : Preorder Memory where
  le m m' := ∀ id, m.cursor id ≤ m'.cursor id
  le_refl _ _ := le_rfl
  le_trans _ _ _ h h' id := (h id).trans (h' id)

variable {m : Memory} {id : ElementId}

theorem Memory.le_mark : m ≤ m.mark id := fun _ => le_rfl

theorem Memory.le_turn : m ≤ m.turn id := by
  intro id'
  unfold turn cursor
  by_cases h : id' = id
  · subst h
    simp
  · simp [Function.update_of_ne h]

theorem Memory.cursor_turn : (m.turn id).cursor id = m.cursor id + 1 := by
  simp [turn, cursor]

theorem Memory.SameBut.le {m' : Memory} (h : Memory.SameBut id m m') : m ≤ m' := by
  obtain ⟨s, rfl⟩ := h
  exact fun _ => le_rfl

/-- A visit that never moves a cursor back. -/
def Visit.Grows (v : Visit) : Prop := ∀ path, Emit.Grows (v path)

theorem grows_inOrder {visits : List Visit} (h : ∀ v ∈ visits, v.Grows) :
    (inOrder visits).Grows := by
  intro path
  refine Emit.grows_all fun f hf => ?_
  obtain ⟨v, hv, rfl⟩ := List.mem_map.mp hf
  exact h v hv path

theorem grows_pick {visits : List Visit} (h : ∀ v ∈ visits, v.Grows) (index : ℕ) :
    (pick visits index).Grows := by
  unfold pick
  rw [List.getD_eq_getElem?_getD]
  cases hv : visits[index]? with
  | none => exact fun _ => Emit.grows_nothing
  | some v => exact h v (List.mem_of_getElem? hv)

theorem grows_denote (execution : ℕ) (tree : ControllerNode) : (denote execution tree).Grows := by
  induction tree using ControllerNode.induct_children with
  | step node ih =>
    have hall (children : List ControllerNode) (hs : sourceChildren node = some children) :
        ∀ v ∈ denoteAll execution children, v.Grows := by
      intro v hv
      rw [denoteAll_map] at hv
      obtain ⟨child, hchild, rfl⟩ := List.mem_map.mp hv
      exact ih children hs child hchild
    intro path
    cases node with
    | sample id => exact fun m => le_refl m
    | disabled id children | unsupported id kind => exact Emit.grows_nothing
    | simple id children => exact grows_inOrder (hall children rfl) _
    | loop id count children =>
      cases count with
      | forever => exact Emit.grows_nothing
      | finite count => exact Emit.grows_times (fun i => grows_inOrder (hall children rfl) _) _ _
    | onceOnly id children =>
      intro m
      simp only [denote]
      split_ifs
      · exact le_refl m
      · exact le_trans (m.le_mark) (grows_inOrder (hall children rfl) _ _)
    | interleave id children =>
      intro m
      simp only [denote]
      split_ifs
      · exact le_refl m
      · exact le_trans (m.le_turn) (grows_pick (hall children rfl) _ _ _)
    | random id seed children =>
      intro m
      simp only [denote]
      split_ifs
      · exact le_refl m
      · exact le_trans (m.draw_sameBut id seed _).le (grows_pick (hall children rfl) _ _ _)
    | randomOrder id seed children =>
      intro m
      simp only [denote]
      split_ifs
      · exact le_refl m
      · refine le_trans (Memory.shuffle_sameBut id seed _ _ m).le (grows_inOrder ?_ _ _)
        intro v hv
        exact hall children rfl v ((shuffle_perm id seed _ _ m).mem_iff.mp hv)

theorem grows_of_mem {execution : ℕ} {trees : List ControllerNode} {v : Visit}
    (hv : v ∈ trees.map (denote execution)) : v.Grows := by
  obtain ⟨tree, -, rfl⟩ := List.mem_map.mp hv
  exact grows_denote execution tree

theorem grows_trees (execution : ℕ) (trees : List ControllerNode) :
    (inOrder (trees.map (denote execution))).Grows :=
  grows_inOrder fun _ hv => grows_of_mem hv

theorem grows_pick_trees (execution : ℕ) (trees : List ControllerNode) (index : ℕ) :
    (pick (trees.map (denote execution)) index).Grows :=
  grows_pick (fun _ hv => grows_of_mem hv) index

end JmeterRs.Controllers
