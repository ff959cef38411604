import JmeterRs.Lib.Fueled
import JmeterRs.Scope.Forest

/-!
# What the visits of a tree see

`validate_bounded` checks the depth of a tree in a loop from its roots, and `iter_preorder` goes
through a tree with a stack of frames.  Both see the nodes that can be reached from the roots; in a
forest these are all.
-/

namespace JmeterRs.Scope

open List Fueled

structure ValidationLimits where
  maxNodes : ℕ
  maxTreeDepth : ℕ

inductive ModelError
  | nodes (limit actual : ℕ)
  | treeDepth (limit actual : ℕ)
  | tree (error : TreeError)

namespace IdentityTree

variable {α : Type}

/-- One round of `validate_tree_depth`. -/
def treeDepthStep (tree : IdentityTree α) (maxDepth : ℕ) (pending : NodeId × ℕ) :
    Except ModelError (Unit × List (NodeId × ℕ)) :=
  if pending.2 > maxDepth then .error (.treeDepth maxDepth pending.2)
  else
    match tree.get pending.1 with
    | none => .error (.tree (.invariantViolation
        "ordered link points to a missing node during depth validation"))
    | some node => .ok ((), node.children.map fun child => (child, pending.2 + 1))

def validateTreeDepth (tree : IdentityTree α) (maxDepth : ℕ) : Fueled ModelError Unit :=
  drain (fun _ pending => ofExcept (tree.treeDepthStep maxDepth pending)) ()
    (tree.roots.map fun id => (id, 0))

def validateBounded (tree : IdentityTree α) (limits : ValidationLimits) :
    Fueled ModelError Unit :=
  if limits.maxNodes < tree.nodes.length then
    fail (.nodes limits.maxNodes tree.nodes.length)
  else
    match tree.validate with
    | .error error => fail (.tree error)
    | .ok () => tree.validateTreeDepth limits.maxTreeDepth

/-- A root that comes next when the stack is empty, or a frame of the stack. -/
inductive PreorderTask
  | root (id : NodeId)
  | frame (id : NodeId) (nextChild : ℕ) (yielded : Bool)

/-- The state of the iterator, with the nodes that it has returned. -/
structure Preorder where
  returned : List NodeId
  visited : Finset NodeId

/-- A frame for a node that was not visited. -/
def Preorder.push (s : Preorder) (id : NodeId) : Preorder × List PreorderTask :=
  if id ∈ s.visited then (s, [])
  else ({ s with visited := insert id s.visited }, [.frame id 0 false])

/-- One round of `PreorderIter::next`; at a missing node the iterator ends. -/
def preorderStep (tree : IdentityTree α) (s : Preorder) :
    PreorderTask → Except Unit (Preorder × List PreorderTask)
  | .root id => .ok (s.push id)
  | .frame id nextChild yielded =>
    match tree.get id with
    | none => .error ()
    | some node =>
      if yielded = false then
        .ok ({ s with returned := s.returned ++ [node.id] }, [.frame id nextChild true])
      else
        match node.children[nextChild]? with
        | some child =>
          .ok ((s.push child).1, (s.push child).2 ++ [.frame id (nextChild + 1) true])
        | none => .ok (s, [])

/-- `preorder_ids`: the nodes that `iter_preorder` returns. -/
def preorderIds (tree : IdentityTree α) : Fueled Unit (List NodeId) := do
  let s ← drain (fun s task => ofExcept (tree.preorderStep s task)) ⟨[], ∅⟩
    (tree.roots.map .root)
  return s.returned

/-! ## The depth check -/

variable {tree : IdentityTree α} {id : NodeId} {node : TreeNode α} {s : Preorder}
  {task : PreorderTask} {tasks : List PreorderTask} {maxDepth : ℕ}

/-- The largest number of children. -/
def fanout (tree : IdentityTree α) : ℕ :=
  (tree.nodes.map fun entry => entry.2.children.length).max?.getD 0

theorem children_fanout (h : tree.get id = some node) : node.children.length ≤ tree.fanout :=
  le_max?_getD_of_mem (mem_map.mpr ⟨(id, node), mem_nodes_get h, rfl⟩)

/-- The positions of the children of a node at a position. -/
def below (tree : IdentityTree α) (place : List ℕ × NodeId) : List (List ℕ × NodeId) :=
  match tree.get place.2 with
  | none => []
  | some node => node.children.zipIdx.map fun (child, i) => (i :: place.1, child)

theorem at_below {place child : List ℕ × NodeId} (h : tree.At place.1 place.2)
    (hchild : child ∈ tree.below place) : tree.At child.1 child.2 := by
  unfold below at hchild
  cases hget : tree.get place.2 with
  | none => simp [hget] at hchild
  | some node =>
    simp only [hget, mem_map] at hchild
    obtain ⟨⟨id, i⟩, hmem, rfl⟩ := hchild
    exact .child h hget (mem_zipIdx_iff_getElem?.mp hmem)

/-- The positions of the roots. -/
def rootPlaces (tree : IdentityTree α) : List (List ℕ × NodeId) :=
  tree.roots.zipIdx.map fun (id, i) => ([i], id)

theorem at_rootPlaces {place : List ℕ × NodeId} (h : place ∈ tree.rootPlaces) :
    tree.At place.1 place.2 := by
  obtain ⟨⟨id, i⟩, hmem, rfl⟩ := mem_map.mp h
  exact .root (mem_zipIdx_iff_getElem?.mp hmem)

/-- The task of the depth check for a position. -/
def depthTask (place : List ℕ × NodeId) : NodeId × ℕ := (place.2, place.1.length - 1)

theorem map_rootPlaces : tree.rootPlaces.map depthTask = tree.roots.map fun id => (id, 0) := by
  unfold rootPlaces
  rw [map_map]
  conv_rhs => rw [← zipIdx_map_fst 0 tree.roots, map_map]
  rfl

theorem map_below {place : List ℕ × NodeId} (hat : tree.At place.1 place.2)
    (hnode : tree.get place.2 = some node) : (tree.below place).map depthTask =
      node.children.map fun child => (child, (depthTask place).2 + 1) := by
  have hlength : (depthTask place).2 + 1 = place.1.length := by
    obtain ⟨path, id⟩ := place
    cases hat <;> rfl
  unfold below
  simp only [hnode, map_map, hlength]
  conv_rhs => rw [← zipIdx_map_fst 0 node.children, map_map]
  rfl

/-- A round of the depth check at a position. -/
theorem treeDepthStep_ok {place : List ℕ × NodeId} {u : Unit} {pushed : List (NodeId × ℕ)}
    (hat : tree.At place.1 place.2) :
    tree.treeDepthStep maxDepth (depthTask place) = .ok (u, pushed) ↔
      tree.get place.2 ≠ none ∧ place.1.length ≤ maxDepth + 1 ∧
        pushed = (tree.below place).map depthTask := by
  unfold treeDepthStep
  rw [ite_error_ok, show ¬ (depthTask place).2 > maxDepth ↔ place.1.length ≤ maxDepth + 1 by
    simp only [depthTask]; omega]
  cases hnode : tree.get (depthTask place).1 with
  | none => simp [show tree.get place.2 = none from hnode]
  | some node =>
    rw [map_below hat hnode]
    simp [show tree.get place.2 = some node from hnode, @eq_comm _ pushed]

/-- What the depth check accepts has no position that is too deep. -/
theorem depth_of_validateTreeDepth (h : (tree.validateTreeDepth maxDepth).Returns (.ok ()))
    {path : List ℕ} (hat : tree.At path id) : path.length ≤ maxDepth + 1 := by
  obtain ⟨n, hn⟩ := h
  obtain ⟨-, -, visited, hroots, hvisited, hclosed⟩ := Drained.visits depthTask tree.below
    (P := fun _ => True) (Q := fun place => tree.At place.1 place.2)
    (R := fun place _ => place.1.length ≤ maxDepth + 1)
    (fun _ hplace hret => by
      obtain ⟨-, hdepth, hpushed⟩ := (treeDepthStep_ok hplace).mp (returns_ofExcept.mp hret)
      exact ⟨hpushed, trivial, hdepth, fun _ h => h, fun _ => at_below hplace⟩)
    (run_drained hn) trivial tree.rootPlaces map_rootPlaces.symm fun _ => at_rootPlaces
  have hmem : (path, id) ∈ visited := by
    clear hvisited
    induction hat with
    | root hroot => exact hroots (mem_map.mpr ⟨(_, _), mem_zipIdx_iff_getElem?.mpr hroot, rfl⟩)
    | child _ hnode hchild ih =>
      refine hclosed _ ih ?_
      unfold below
      simp only [hnode]
      exact mem_map.mpr ⟨(_, _), mem_zipIdx_iff_getElem?.mpr hchild, rfl⟩
  exact (hvisited _ hmem).2

/-- The tasks of some positions. -/
def Placed (tree : IdentityTree α) (tasks : List (NodeId × ℕ)) : Prop :=
  ∃ places : List (List ℕ × NodeId), tasks = places.map depthTask ∧
    ∀ place ∈ places, tree.At place.1 place.2

/-- A forest that is not too deep passes the depth check. -/
theorem Forest.validateTreeDepth (h : tree.Forest)
    (hdepth : ∀ path id, tree.At path id → path.length ≤ maxDepth + 1) :
    (tree.validateTreeDepth maxDepth).Returns (.ok ()) := by
  have hrun : ∃ s, (tree.validateTreeDepth maxDepth).Returns (.ok s) ∧ Placed tree [] := by
    refine returns_drain (I := fun _ => Placed tree)
      (fun _ tasks => (tasks.map fun task => (tree.fanout + 1) ^ (maxDepth + 1 - task.2)).sum) ?_
      ⟨tree.rootPlaces, map_rootPlaces.symm, fun _ => at_rootPlaces⟩
    rintro ⟨⟩ task tasks ⟨places, hplaces, hat⟩
    obtain ⟨place, places, rfl, rfl, rfl⟩ := map_eq_cons_iff.mp hplaces.symm
    rw [forall_mem_cons] at hat
    have hget := get_of_linked h.root h.child hat.1.mem_linked
    have hlength := hdepth _ _ hat.1
    obtain ⟨node, hnode⟩ := Option.ne_none_iff_exists'.mp hget
    have hstep : tree.treeDepthStep maxDepth (depthTask place) =
      .ok ((), (tree.below place).map depthTask) :=
        (treeDepthStep_ok hat.1).mpr ⟨hget, hlength, rfl⟩
    refine ⟨(), _, returns_ofExcept.mpr hstep,
      ⟨tree.below place ++ places, map_append.symm, ?_⟩, ?_⟩
    · intro other hother
      rcases mem_append.mp hother with hother | hother
      · exact at_below hat.1 hother
      · exact hat.2 other hother
    · rw [map_append, sum_append, map_cons, sum_cons, map_below hat.1 hnode]
      refine Nat.add_lt_add_right (sum_weight_lt ?_ ?_ ?_) _
      · exact Nat.sub_le_iff_le_add.mpr hlength
      · rw [length_map]
        exact children_fanout hnode
      · intro task htask
        obtain ⟨child, -, rfl⟩ := mem_map.mp htask
        rfl
  obtain ⟨⟨⟩, hret, -⟩ := hrun
  exact hret

/-! ## The preorder -/

/-- What the rounds of the iterator keep: a visited node is returned or has a frame that will be,
and every link of the roots and of a returned node leads to a visited node, is one of `links`,
which are about to be followed, or is still to come. -/
structure Visiting (tree : IdentityTree α) (s : Preorder) (tasks : List PreorderTask)
    (links : List NodeId) : Prop where
  present : ∀ id ∈ s.visited, tree.get id ≠ none
  frame : ∀ id i yielded, .frame id i yielded ∈ tasks → id ∈ s.visited
  fresh : ∀ id i, .frame id i false ∈ tasks → i = 0
  roots : ∀ id, .root id ∈ tasks → id ∈ tree.roots
  visited : ∀ id ∈ s.visited, id ∈ s.returned ∨ .frame id 0 false ∈ tasks
  root : ∀ id ∈ tree.roots, id ∈ s.visited ∨ id ∈ links ∨ .root id ∈ tasks
  child : ∀ id ∈ s.returned, ∀ node, tree.get id = some node →
    ∀ i child, node.children[i]? = some child →
      child ∈ s.visited ∨ child ∈ links ∨ ∃ j ≤ i, .frame id j true ∈ tasks

/-- A link is followed. -/
theorem Visiting.push (h : Visiting tree s tasks [id]) (hget : tree.get id ≠ none) :
    Visiting tree (s.push id).1 ((s.push id).2 ++ tasks) [] := by
  unfold Preorder.push
  split_ifs with hseen
  · refine ⟨h.present, h.frame, h.fresh, h.roots, h.visited, fun root hroot => ?_,
      fun parent hparent node hnode i child hchild => ?_⟩
    · rcases h.root root hroot with hvisited | hlink | htask
      · exact .inl hvisited
      · exact .inl (mem_singleton.mp hlink ▸ hseen)
      · exact .inr (.inr htask)
    · rcases h.child parent hparent node hnode i child hchild with hvisited | hlink | htask
      · exact .inl hvisited
      · exact .inl (mem_singleton.mp hlink ▸ hseen)
      · exact .inr (.inr htask)
  · constructor
    · simpa [hget] using h.present
    · have := h.frame
      grind
    · have := h.fresh
      grind
    · have := h.roots
      grind
    · have := h.visited
      grind
    · have := h.root
      grind
    · have := h.child
      grind

/-- A root is taken from the list. -/
theorem Visiting.next_root (h : Visiting tree s (.root id :: tasks) []) :
    Visiting tree s tasks [id] := by
  obtain ⟨hpresent, hframe, hfresh, hroots, hvisited, hroot, hchild⟩ := h
  constructor <;> grind

/-- A frame goes on to its next child. -/
theorem Visiting.next_child {i : ℕ} {child : NodeId}
    (h : Visiting tree s (.frame id i true :: tasks) []) (hget : tree.get id = some node)
    (hchild : node.children[i]? = some child) :
    Visiting tree s (.frame id (i + 1) true :: tasks) [child] := by
  obtain ⟨hpresent, hframe, hfresh, hroots, hvisited, hroot, hlinks⟩ := h
  refine ⟨hpresent, ?_, ?_, ?_, ?_, ?_, fun parent hparent node' hnode j other hother => ?_⟩
  · grind
  · grind
  · grind
  · grind
  · grind
  · rcases hlinks parent hparent node' hnode j other hother with hvis | hlink | ⟨k, hle, htask⟩
    · exact .inl hvis
    · cases hlink
    · rcases mem_cons.mp htask with heq | htask
      · cases heq
        cases hget.symm.trans hnode
        rcases Nat.eq_or_lt_of_le hle with rfl | hlt
        · cases hchild.symm.trans hother
          exact .inr (.inl (mem_singleton_self _))
        · exact .inr (.inr ⟨i + 1, hlt, mem_cons_self⟩)
      · exact .inr (.inr ⟨k, hle, .tail _ htask⟩)

/-- A frame returns its node. -/
theorem Visiting.yield {i : ℕ} (h : Visiting tree s (.frame id i false :: tasks) [])
    (hnode : node.id = id) : Visiting tree { s with returned := s.returned ++ [node.id] }
      (.frame id i true :: tasks) [] := by
  obtain ⟨hpresent, hframe, hfresh, hroots, hvisited, hroot, hlinks⟩ := h
  have hzero := hfresh id i mem_cons_self
  constructor <;> grind

/-- A frame whose children are done leaves the stack. -/
theorem Visiting.pop {i : ℕ} (h : Visiting tree s (.frame id i true :: tasks) [])
    (hget : tree.get id = some node) (hdone : node.children[i]? = none) :
    Visiting tree s tasks [] := by
  obtain ⟨hpresent, hframe, hfresh, hroots, hvisited, hroot, hlinks⟩ := h
  constructor <;> grind

/-! ### The iterator ends -/

/-- What is left to do for the nodes that were not visited. -/
def unvisited (tree : IdentityTree α) (visited : Finset NodeId) : ℕ :=
  (tree.nodes.map fun entry =>
    if entry.1 ∈ visited then 0 else entry.2.children.length + 3).sum

def taskWeight (tree : IdentityTree α) : PreorderTask → ℕ
  | .root _ => 1
  | .frame id nextChild yielded =>
    ((tree.get id).elim 0 (·.children.length)) - nextChild + if yielded then 1 else 2

def workLeft (tree : IdentityTree α) (s : Preorder) (tasks : List PreorderTask) : ℕ :=
  tree.unvisited s.visited + (tasks.map tree.taskWeight).sum

theorem unvisited_insert {visited : Finset NodeId} (hget : tree.get id = some node)
    (hnew : id ∉ visited) :
    tree.unvisited (insert id visited) + (node.children.length + 3) ≤ tree.unvisited visited := by
  obtain ⟨before, after, hnodes⟩ := append_of_mem (mem_nodes_get hget)
  have hle (entries : List (NodeId × TreeNode α)) :
      (entries.map fun entry =>
        if entry.1 ∈ insert id visited then 0 else entry.2.children.length + 3).sum ≤
      (entries.map fun entry =>
        if entry.1 ∈ visited then 0 else entry.2.children.length + 3).sum := by
    induction entries with
    | nil => exact Nat.le_refl _
    | cons entry entries ih =>
      rw [map_cons, map_cons, sum_cons, sum_cons]
      refine Nat.add_le_add ?_ ih
      split_ifs with hseen hbefore <;> simp_all
  have hbefore := hle before
  have hafter := hle after
  unfold unvisited
  simp only [hnodes, map_append, map_cons, sum_append, sum_cons, Finset.mem_insert_self, if_true,
    if_neg hnew]
  omega

theorem workLeft_push (hget : tree.get id ≠ none) :
    tree.workLeft (s.push id).1 ((s.push id).2 ++ tasks) ≤ tree.workLeft s tasks := by
  obtain ⟨node, hnode⟩ := Option.ne_none_iff_exists'.mp hget
  unfold Preorder.push workLeft
  split_ifs with hseen
  · exact Nat.le_refl _
  · have hless := unvisited_insert hnode hseen
    simp only [singleton_append, map_cons, sum_cons, taskWeight, hnode, Option.elim_some]
    simp only [Bool.false_eq_true, if_false]
    omega

theorem Forest.preorder_step (h : tree.Forest) (hs : Visiting tree s (task :: tasks) []) :
    ∃ s' pushed, tree.preorderStep s task = .ok (s', pushed) ∧
      Visiting tree s' (pushed ++ tasks) [] ∧
      tree.workLeft s' (pushed ++ tasks) < tree.workLeft s (task :: tasks) := by
  cases task with
  | root id =>
    have hget := (h.root id (hs.roots id mem_cons_self)).get_ne_none
    refine ⟨_, _, rfl, hs.next_root.push hget, (workLeft_push hget).trans_lt ?_⟩
    simp [workLeft, taskWeight]
  | frame id i yielded =>
    obtain ⟨node, hnode⟩ := Option.ne_none_iff_exists'.mp
      (hs.present id (hs.frame id i yielded mem_cons_self))
    simp only [preorderStep, hnode]
    cases yielded with
    | false =>
      refine ⟨_, _, rfl, hs.yield (h.ids _ (mem_nodes_get hnode)), ?_⟩
      simp [workLeft, taskWeight]
    | true =>
      cases hchild : node.children[i]? with
      | none =>
        refine ⟨_, _, rfl, hs.pop hnode hchild, ?_⟩
        simp [workLeft, taskWeight]
      | some child =>
        have hget := (h.child hnode child (mem_of_getElem? hchild)).get_ne_none
        refine ⟨_, _, rfl, ?_, ?_⟩
        · rw [append_assoc]
          exact (hs.next_child hnode hchild).push hget
        · rw [append_assoc]
          refine (workLeft_push hget).trans_lt ?_
          have hlt := (List.getElem?_eq_some_iff.mp hchild).1
          simp only [workLeft, singleton_append, map_cons, sum_cons, taskWeight, hnode,
            Option.elim_some]
          omega

/-- The preorder of a forest returns every node. -/
theorem Forest.preorderIds (h : tree.Forest) :
    ∃ ids, tree.preorderIds.Returns (.ok ids) ∧ ∀ id, tree.get id ≠ none → id ∈ ids := by
  have hstart : Visiting tree ⟨[], ∅⟩ (tree.roots.map .root) [] := by
    constructor <;> simp
  obtain ⟨s, hret, hend⟩ := returns_drain (I := fun s tasks => Visiting tree s tasks [])
    tree.workLeft (fun hs => by
      obtain ⟨s', pushed, hstep, hrest⟩ := h.preorder_step hs
      exact ⟨s', pushed, returns_ofExcept.mpr hstep, hrest⟩) hstart
  refine ⟨s.returned, returns_bind_ok.mpr ⟨s, hret, returns_pure.mpr rfl⟩, fun id hid => ?_⟩
  obtain ⟨path, hpath, -⟩ := h.once id hid
  have hreturned {id : NodeId} (hvisited : id ∈ s.visited) : id ∈ s.returned := by
    simpa using hend.visited id hvisited
  induction hpath with
  | root hroot =>
    refine hreturned ?_
    simpa using hend.root _ (mem_of_getElem? hroot)
  | child hparent hnode hchild ih =>
    refine hreturned ?_
    have := ih (Option.ne_none_iff_exists'.mpr ⟨_, hnode⟩)
    simpa using hend.child _ this _ hnode _ _ hchild

/-! ## Trees that validate -/

/-- The depth check and the preorder see every node: the bounds are kept by all of them, and all of
them are returned. -/
structure Seen (tree : IdentityTree α) : Prop where
  bounded : ∀ limits, (tree.validateBounded limits).Returns (.ok ()) ↔
    tree.nodes.length ≤ limits.maxNodes ∧
      ∀ id, tree.get id ≠ none → ∃ path, tree.At path id ∧ path.length ≤ limits.maxTreeDepth + 1
  preorder : ∃ ids, tree.preorderIds.Returns (.ok ids) ∧ ∀ id, tree.get id ≠ none → id ∈ ids

theorem Forest.seen (h : tree.Forest) : tree.Seen := by
  refine ⟨fun limits => ?_, h.preorderIds⟩
  unfold validateBounded
  rw [h.validate]
  split_ifs with hsize
  · simp [hsize]
  · rw [and_iff_right (Nat.le_of_not_lt hsize)]
    constructor
    · intro hret id hid
      obtain ⟨path, hpath, -⟩ := h.once id hid
      exact ⟨path, hpath, depth_of_validateTreeDepth hret hpath⟩
    · refine fun hdepth => h.validateTreeDepth fun path id hpath => ?_
      have hget := get_of_linked h.root h.child hpath.mem_linked
      obtain ⟨other, hother, hle⟩ := hdepth id hget
      rwa [(h.once id hget).unique hpath hother]

/-- `validate` accepts exactly the forests, and what it accepts is seen as a whole, unless the links
of the tree agree and still some chain of parents does not end. -/
theorem validate_forest_iff (tree : IdentityTree α) :
    ((tree.validate = .ok () ↔ tree.Forest) ∧ (tree.validate = .ok () → tree.Seen)) ↔
      (tree.LinksAgree → ∀ id, tree.get id ≠ none → tree.Grounded id) := by
  constructor
  · rintro ⟨h, -⟩ hagree id hid
    have hforest := h.mp (validate_eq_ok.mpr hagree)
    obtain ⟨path, hpath, -⟩ := hforest.once id hid
    exact hpath.grounded hforest.root hforest.child
  · intro hgrounded
    have hforest (hok : tree.validate = .ok ()) : tree.Forest := by
      obtain ⟨hids, hroots, hlinks, hnodup, hlength⟩ := validate_eq_ok.mp hok
      have hlinked := linked_of_validate hok
      refine ⟨hids, hroots, hlinked.child, fun id hid => ?_⟩
      have hall : ∀ id, tree.get id ≠ none → id ∈ tree.linked := by
        intro id hid
        have hsubset : tree.linked ⊆ tree.nodes.map Prod.fst :=
          fun id hid => mem_keys.mpr (get_of_linked hroots hlinked.child hid)
        have hperm := (subperm_of_subset hnodup hsubset).perm_of_length_le
          (by rw [length_map, hlength])
        exact hperm.mem_iff.mpr (mem_keys.mpr hid)
      obtain ⟨path, hpath⟩ := (hgrounded (validate_eq_ok.mp hok) id hid).exists_at hroots
        hlinked.child hall
      exact ⟨path, hpath, fun _ hother => hother.unique hlinked hpath⟩
    exact ⟨⟨hforest, Forest.validate⟩, fun hok => (hforest hok).seen⟩

/-- Two nodes that are each other's parent and child. -/
def circle : IdentityTree Unit where
  nodes := [(1, ⟨1, some 2, (), [2]⟩), (2, ⟨2, some 1, (), [1]⟩)]
  roots := []
  sorted := by decide

theorem circle_validates : circle.validate = .ok () ∧ (∀ path id, ¬ circle.At path id) ∧
    (circle.validateBounded ⟨2, 0⟩).Returns (.ok ()) ∧ circle.preorderIds.Returns (.ok []) := by
  refine ⟨by decide, fun path id h => ?_, ⟨0, rfl⟩, ⟨0, rfl⟩⟩
  induction h with
  | root hroot => cases hroot
  | child _ _ _ ih => exact ih

end IdentityTree

end JmeterRs.Scope
