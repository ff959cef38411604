import JmeterRs.Scope.Tree

/-!
# Forests

A tree is a forest if every node has exactly one position below the roots.  `validate` asks for
less: that every node is linked exactly once.  Nodes that are linked in a circle, away from the
roots, satisfy that as well.
-/

namespace JmeterRs.Scope.IdentityTree

open List

variable {α : Type} {tree : IdentityTree α} {id : NodeId} {path path' : List ℕ}

/-- A position is read upwards: the index among the children of the parent comes first, and the
index among the roots last. -/
inductive At (tree : IdentityTree α) : List ℕ → NodeId → Prop
  | root {i : ℕ} {id : NodeId} (hroot : tree.roots[i]? = some id) : At tree [i] id
  | child {i : ℕ} {path : List ℕ} {parent id : NodeId} {node : TreeNode α}
      (hparent : At tree path parent) (hnode : tree.get parent = some node)
      (hchild : node.children[i]? = some id) : At tree (i :: path) id

/-- The links agree with each other, and every node has exactly one position. -/
structure Forest (tree : IdentityTree α) : Prop where
  ids : ∀ entry ∈ tree.nodes, entry.2.id = entry.1
  root : ∀ root ∈ tree.roots, tree.HasParent root none
  child : ∀ {id node}, tree.get id = some node → ∀ c ∈ node.children, tree.HasParent c (some id)
  once : ∀ id, tree.get id ≠ none → ∃! path, tree.At path id

/-- The chain of parents of a node ends. -/
inductive Grounded (tree : IdentityTree α) : NodeId → Prop
  | root {id : NodeId} (h : tree.HasParent id none) : Grounded tree id
  | child {id parent : NodeId} (h : tree.HasParent id (some parent))
      (hparent : Grounded tree parent) : Grounded tree id

/-! ## The index -/

theorem get_of_mem {node : TreeNode α} (h : (id, node) ∈ tree.nodes) : tree.get id = some node := by
  obtain ⟨before, after, hnodes⟩ := append_of_mem h
  have hsorted := tree.sorted
  rw [hnodes, map_append, pairwise_append] at hsorted
  refine lookup_eq_some_iff.mpr ⟨before, after, hnodes, fun entry hentry => ?_⟩
  have hlt := hsorted.2.2 entry.1 (mem_map_of_mem hentry) id mem_cons_self
  exact bne_iff_ne.mpr (Nat.ne_of_gt hlt)

theorem mem_keys : id ∈ tree.nodes.map Prod.fst ↔ tree.get id ≠ none := by
  constructor
  · intro h
    obtain ⟨⟨_, node⟩, hmem, rfl⟩ := mem_map.mp h
    exact Option.ne_none_iff_exists'.mpr ⟨node, get_of_mem hmem⟩
  · intro h
    obtain ⟨node, hget⟩ := Option.ne_none_iff_exists'.mp h
    exact mem_map_of_mem (mem_nodes_get hget)

theorem HasParent.get_ne_none {parent : Option NodeId} (h : tree.HasParent id parent) :
    tree.get id ≠ none := by
  obtain ⟨node, hget, -⟩ := h
  exact Option.ne_none_iff_exists'.mpr ⟨node, hget⟩

theorem HasParent.unique {parent parent' : Option NodeId} (h : tree.HasParent id parent)
    (h' : tree.HasParent id parent') : parent = parent' := by
  obtain ⟨node, hget, rfl⟩ := h
  obtain ⟨node', hget', rfl⟩ := h'
  cases hget.symm.trans hget'
  rfl

/-! ## Positions -/

theorem At.mem_linked (h : tree.At path id) : id ∈ tree.linked := by
  cases h with
  | root hroot => exact mem_append_left _ (mem_of_getElem? hroot)
  | child _ hnode hchild =>
    exact mem_append_right _ (mem_flatMap.mpr ⟨_, mem_nodes_get hnode, mem_of_getElem? hchild⟩)

section

variable (hroots : ∀ root ∈ tree.roots, tree.HasParent root none)
  (hchs : ∀ {id node}, tree.get id = some node → ∀ c ∈ node.children,
    tree.HasParent c (some id))

include hroots hchs

/-- A node is linked by its parent only. -/
theorem mem_linked_cases (h : id ∈ tree.linked) : (id ∈ tree.roots ∧ tree.HasParent id none) ∨
    ∃ parent node, tree.get parent = some node ∧ id ∈ node.children ∧
      tree.HasParent id (some parent) := by
  rcases mem_append.mp h with h | h
  · exact .inl ⟨h, hroots id h⟩
  · obtain ⟨⟨parent, node⟩, hmem, hchild⟩ := mem_flatMap.mp h
    exact .inr ⟨parent, node, get_of_mem hmem, hchild, hchs (get_of_mem hmem) id hchild⟩

theorem get_of_linked (h : id ∈ tree.linked) : tree.get id ≠ none := by
  rcases mem_linked_cases hroots hchs h with ⟨-, hid⟩ | ⟨_, _, -, -, hid⟩ <;> exact hid.get_ne_none

theorem At.grounded (h : tree.At path id) : tree.Grounded id := by
  induction h with
  | root hroot => exact .root (hroots _ (mem_of_getElem? hroot))
  | child _ hnode hchild ih => exact .child (hchs hnode _ (mem_of_getElem? hchild)) ih

theorem Grounded.exists_at (hall : ∀ id, tree.get id ≠ none → id ∈ tree.linked)
    (h : tree.Grounded id) : ∃ path, tree.At path id := by
  induction h with
  | @root id h =>
    rcases mem_linked_cases hroots hchs (hall id h.get_ne_none) with
      ⟨hmem, -⟩ | ⟨parent, node, -, -, hpar⟩
    · obtain ⟨i, hi⟩ := mem_iff_getElem?.mp hmem
      exact ⟨[i], .root hi⟩
    · cases h.unique hpar
  | @child id parent h _ ih =>
    obtain ⟨path, hpath⟩ := ih
    rcases mem_linked_cases hroots hchs (hall id h.get_ne_none) with
      ⟨-, hnone⟩ | ⟨other, node, hnode, hmem, hother⟩
    · cases h.unique hnone
    · cases h.unique hother
      obtain ⟨i, hi⟩ := mem_iff_getElem?.mp hmem
      exact ⟨i :: path, .child hpath hnode hi⟩

end

theorem index_unique {l : List NodeId} {i j : ℕ} (hnodup : l.Nodup) (hi : l[i]? = some id)
    (hj : l[j]? = some id) : i = j :=
  (getElem?_inj (List.getElem?_eq_some_iff.mp hi).1 hnodup).mp (hi.trans hj.symm)

theorem At.unique (hlinked : tree.Linked) (h : tree.At path id) (h' : tree.At path' id) :
    path = path' := by
  have hroot {i : ℕ} {id : NodeId} (h : tree.roots[i]? = some id) : tree.HasParent id none :=
    hlinked.root id (mem_of_getElem? h)
  have hchild {i : ℕ} {id parent : NodeId} {node : TreeNode α} (hnode : tree.get parent = some node)
      (h : node.children[i]? = some id) : tree.HasParent id (some parent) :=
    hlinked.child hnode id (mem_of_getElem? h)
  induction h generalizing path' with
  | root hi =>
    cases h' with
    | root hj => rw [index_unique hlinked.roots_nodup hi hj]
    | child _ hnode hj => cases (hroot hi).unique (hchild hnode hj)
  | child _ hnode hi ih =>
    cases h' with
    | root hj => cases (hroot hj).unique (hchild hnode hi)
    | child hpar hnode' hj =>
      cases (hchild hnode hi).unique (hchild hnode' hj)
      cases hnode.symm.trans hnode'
      rw [ih hpar, index_unique (hlinked.children_nodup hnode) hi hj]

/-! ## Forests are accepted -/

/-- What is linked from one place at different indices would have two positions. -/
theorem Forest.nodup (h : tree.Forest) {l : List NodeId}
    (hat : ∀ i id, l[i]? = some id → tree.At (i :: path) id)
    (hget : ∀ id ∈ l, tree.get id ≠ none) : l.Nodup := by
  rw [nodup_iff_getElem?_ne_getElem?]
  intro i j hij hj hsame
  have hfound := getElem?_eq_getElem hj
  obtain ⟨path, -, hunique⟩ := h.once l[j] (hget _ (getElem_mem hj))
  have hi := hunique _ (hat i _ (hsame.trans hfound))
  have hj := hunique _ (hat j _ hfound)
  cases hi.trans hj.symm
  exact Nat.lt_irrefl _ hij

theorem Forest.validate (h : tree.Forest) : tree.validate = .ok () := by
  have hroots : tree.roots.Nodup :=
    h.nodup (fun _ _ hi => .root hi) fun id hid => (h.root id hid).get_ne_none
  have hchs : (tree.nodes.flatMap (·.2.children)).Nodup := by
    refine nodup_flatMap.mpr ⟨fun entry hentry => ?_, ?_⟩
    · have hget := get_of_mem hentry
      obtain ⟨path, hpath, -⟩ := h.once entry.1 (by rw [hget]; simp)
      exact h.nodup (fun _ _ hi => .child hpath hget hi)
        fun id hid => (h.child hget id hid).get_ne_none
    · have hsorted := pairwise_map.mp tree.sorted
      refine hsorted.imp_of_mem fun {first second} hfirst hsecond hlt id hid hid' => ?_
      have hsame := (h.child (get_of_mem hfirst) id hid).unique
        (h.child (get_of_mem hsecond) id hid')
      exact Nat.ne_of_lt hlt (Option.some.inj hsame)
  have hlinked : tree.linked.Nodup := by
    refine nodup_append'.mpr ⟨hroots, hchs, fun id hid hid' => ?_⟩
    obtain ⟨⟨parent, node⟩, hmem, hchild⟩ := mem_flatMap.mp hid'
    cases (h.root id hid).unique (h.child (get_of_mem hmem) id hchild)
  refine validate_eq_ok.mpr ⟨h.ids, h.root, ?_, hlinked, ?_⟩
  · rintro ⟨parent, id⟩ hlink
    obtain ⟨node, hmem, hchild⟩ := mem_links.mp hlink
    exact h.child (get_of_mem hmem) id hchild
  · have hkeys : tree.linked.Perm (tree.nodes.map Prod.fst) := by
      refine (perm_ext_iff_of_nodup hlinked (tree.sorted.imp Nat.ne_of_lt)).mpr fun id => ?_
      rw [mem_keys]
      refine ⟨get_of_linked h.root h.child, fun hid => ?_⟩
      obtain ⟨path, hpath, -⟩ := h.once id hid
      exact hpath.mem_linked
    rw [hkeys.length_eq, length_map]

end JmeterRs.Scope.IdentityTree
