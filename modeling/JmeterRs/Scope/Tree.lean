import JmeterRs.Lib.Mut
import Mathlib.Data.Finset.Card

/-!
# The semantic element tree

A document is a map from identities to nodes with ordered child lists and a list of roots.
`validate` checks the links: roots have no parent, a child names its parent, and no node is linked
twice.  What it accepts is `Linked`, in the terms in which the scope walk uses it.
-/

namespace JmeterRs.Scope

open List

/-- A document-local identity (`u64` in the source). -/
abbrev NodeId := ℕ

/-- Exact wire metadata of one element. -/
structure ElementMetadata where
  testClass : String
  guiClass : String
  name : String
  deriving DecidableEq, Repr

/-- The kinds of property values whose content scope compilation never reads. -/
inductive PropertyKind
  | float
  | double
  | collection
  | namedCollection
  | map
  | object
  | element
  | opaqueValue
  deriving DecidableEq, Repr

inductive PropertyValue
  | null
  | string (value : String)
  | boolean (value : Bool)
  | integer (value : Int32)
  | long (value : Int64)
  | other (kind : PropertyKind)
  deriving DecidableEq

/-- The 64-bit integer accessor: no other kind is converted. -/
def PropertyValue.asI64 : PropertyValue → Option Int64
  | .long value => some value
  | _ => none

/-- One test element; `opaqueExtensions` counts the payloads kept without interpretation. -/
structure TestElement where
  metadata : ElementMetadata
  enabled : Bool
  temporaryProperties : List (String × PropertyValue)
  opaqueExtensions : ℕ
  deriving DecidableEq

namespace TestElement

def testClass (e : TestElement) : String := e.metadata.testClass
def guiClass (e : TestElement) : String := e.metadata.guiClass
def name (e : TestElement) : String := e.metadata.name

/-- An enabled element with no properties. -/
def named (testClass guiClass name : String) : TestElement :=
  ⟨⟨testClass, guiClass, name⟩, true, [], 0⟩

end TestElement

structure TreeNode (α : Type) where
  id : NodeId
  parent : Option NodeId
  value : α
  children : List NodeId
  deriving DecidableEq

/-- The ordered identity tree; its index is iterated in the order of the keys. -/
structure IdentityTree (α : Type) where
  nodes : List (NodeId × TreeNode α)
  roots : List NodeId
  sorted : (nodes.map Prod.fst).Pairwise (· < ·)

abbrev ElementTree := IdentityTree TestElement

/-- The failures `validate` reports. -/
inductive TreeError
  | invariantViolation (detail : String)
  deriving DecidableEq, Repr

/-- The printed error; the detail is withheld. -/
def TreeError.toString : TreeError → String
  | .invariantViolation _ => "model.tree.invariant-violation: identity tree invariant violated"

namespace IdentityTree

variable {α : Type}

def len (tree : IdentityTree α) : ℕ := tree.nodes.length

def isEmpty (tree : IdentityTree α) : Bool := tree.nodes.isEmpty

def get (tree : IdentityTree α) (id : NodeId) : Option (TreeNode α) := tree.nodes.lookup id

/-- One root of `validate`: present, without a parent, and not seen before. -/
def validateRoot (tree : IdentityTree α) (seen : Finset NodeId) (root : NodeId) :
    Except TreeError (Finset NodeId) :=
  match tree.get root with
  | none => .error (.invariantViolation "root list points to a missing node")
  | some node =>
    if node.parent.isSome || root ∈ seen then
      .error (.invariantViolation "root has a parent or appears twice")
    else .ok (insert root seen)

/-- One child link of `validate`: the child names its parent and was not seen before. -/
def validateChild (tree : IdentityTree α) (id : NodeId) (seen : Finset NodeId) (child : NodeId) :
    Except TreeError (Finset NodeId) :=
  match tree.get child with
  | none => .error (.invariantViolation "child list points to a missing node")
  | some childNode =>
    if childNode.parent ≠ some id ∨ child ∈ seen then
      .error (.invariantViolation "child parent link is inconsistent or duplicated")
    else .ok (insert child seen)

/-- One entry of the identity index. -/
def validateNode (tree : IdentityTree α) (seen : Finset NodeId) (entry : NodeId × TreeNode α) :
    Except TreeError (Finset NodeId) :=
  if entry.2.id ≠ entry.1 then
    .error (.invariantViolation "identity index key differs from node ID")
  else entry.2.children.foldlM (tree.validateChild entry.1) seen

/-- Checks the links of the whole tree. -/
def validate (tree : IdentityTree α) : Except TreeError Unit := do
  let seen ← tree.roots.foldlM tree.validateRoot ∅
  let seen ← tree.nodes.foldlM tree.validateNode seen
  if seen.card ≠ tree.nodes.length then
    .error (.invariantViolation "a node is unreachable from the roots")
  else .ok ()

/-! ## What `validate` accepts -/

/-- The links of an accepted tree. -/
structure Linked (tree : IdentityTree α) : Prop where
  root : ∀ r ∈ tree.roots, ∃ node, tree.get r = some node ∧ node.parent = none
  roots_nodup : tree.roots.Nodup
  child : ∀ {id node}, tree.get id = some node → ∀ c ∈ node.children,
    ∃ childNode, tree.get c = some childNode ∧ childNode.parent = some id
  children_nodup : ∀ {id node}, tree.get id = some node → node.children.Nodup

variable {seen seen' : Finset NodeId} {tree : IdentityTree α}
  {entries : List (NodeId × TreeNode α)} {id : NodeId}

/-- A loop that refuses what it has seen before leaves no duplicates, and every item passes. -/
theorem foldlM_seen {X : Type} {P : X → Prop} (key : X → NodeId)
    (check : Finset NodeId → X → Except TreeError (Finset NodeId))
    (hcheck : ∀ {seen x seen'}, check seen x = .ok seen' ↔
      P x ∧ key x ∉ seen ∧ seen' = insert (key x) seen) {xs : List X} :
    xs.foldlM check seen = .ok seen' ↔ (xs.map key).Nodup ∧ (∀ x ∈ xs, P x ∧ key x ∉ seen) ∧
        seen' = (xs.map key).toFinset ∪ seen := by
  induction xs generalizing seen with
  | nil =>
    simp only [foldlM_nil, map_nil, nodup_nil, not_mem_nil, toFinset_nil,
      Finset.empty_union, true_and, false_implies, implies_true]
    exact ⟨fun h => (Except.ok.inj h).symm, fun h => congrArg _ h.symm⟩
  | cons x xs ih =>
    rw [foldlM_cons, bind_ok]
    simp only [hcheck, ih, map_cons, nodup_cons, forall_mem_cons, toFinset_cons]
    constructor
    · rintro ⟨_, ⟨hx, hfresh, rfl⟩, hnodup, hrest, rfl⟩
      simp only [Finset.mem_insert, not_or] at hrest
      refine ⟨⟨fun hmem => ?_, hnodup⟩, ⟨⟨hx, hfresh⟩, fun y hy => ?_⟩, ?_⟩
      · obtain ⟨y, hy, heq⟩ := mem_map.mp hmem
        exact (hrest y hy).2.1 heq
      · exact ⟨(hrest y hy).1, (hrest y hy).2.2⟩
      · rw [Finset.union_insert, Finset.insert_union]
    · rintro ⟨⟨hnew, hnodup⟩, ⟨⟨hx, hfresh⟩, hrest⟩, rfl⟩
      refine ⟨_, ⟨hx, hfresh, rfl⟩, hnodup, fun y hy => ⟨(hrest y hy).1, ?_⟩, ?_⟩
      · rw [Finset.mem_insert, not_or]
        exact ⟨fun heq => hnew (heq ▸ mem_map_of_mem hy), (hrest y hy).2⟩
      · rw [Finset.union_insert, Finset.insert_union]

/-- A node that has a given parent, or none. -/
def HasParent (tree : IdentityTree α) (id : NodeId) (parent : Option NodeId) : Prop :=
  ∃ node, tree.get id = some node ∧ node.parent = parent

theorem validateRoot_ok {root : NodeId} : tree.validateRoot seen root = .ok seen' ↔
      tree.HasParent root none ∧ root ∉ seen ∧ seen' = insert root seen := by
  unfold validateRoot HasParent
  cases tree.get root with
  | none => simp
  | some node =>
    rw [ite_error_ok]
    simp [and_assoc, @eq_comm _ seen']

theorem child_ok {child : NodeId} : tree.validateChild id seen child = .ok seen' ↔
      tree.HasParent child (some id) ∧ child ∉ seen ∧ seen' = insert child seen := by
  unfold validateChild HasParent
  cases tree.get child with
  | none => simp
  | some node =>
    rw [ite_error_ok]
    simp [and_assoc, @eq_comm _ seen']

/-- The child links of a node, with its own identity. -/
def links (entry : NodeId × TreeNode α) : List (NodeId × NodeId) :=
  entry.2.children.map (entry.1, ·)

theorem foldlM_node : entries.foldlM tree.validateNode seen = .ok seen' ↔
      (∀ entry ∈ entries, entry.2.id = entry.1) ∧
      (entries.flatMap links).foldlM (fun seen link => tree.validateChild link.1 seen link.2) seen =
        .ok seen' := by
  induction entries generalizing seen with
  | nil => simp
  | cons entry entries ih =>
    rw [foldlM_cons, flatMap_cons, foldlM_append, bind_ok, bind_ok]
    simp only [validateNode, ite_error_ok, ih, links, foldlM_map, forall_mem_cons]
    grind

theorem map_links : (entries.flatMap links).map Prod.snd = entries.flatMap (·.2.children) := by
  simp [map_flatMap, links]

theorem mem_links {child : NodeId} :
    (id, child) ∈ entries.flatMap links ↔ ∃ node, (id, node) ∈ entries ∧ child ∈ node.children := by
  simp [links]

/-- Every identity that is linked, as a root or as a child. -/
def linked (tree : IdentityTree α) : List NodeId := tree.roots ++ tree.nodes.flatMap (·.2.children)

/-- The links of a tree agree with each other, and every node is linked once. -/
structure LinksAgree (tree : IdentityTree α) : Prop where
  ids : ∀ entry ∈ tree.nodes, entry.2.id = entry.1
  root : ∀ root ∈ tree.roots, tree.HasParent root none
  child : ∀ link ∈ tree.nodes.flatMap links, tree.HasParent link.2 (some link.1)
  once : tree.linked.Nodup
  all : tree.linked.length = tree.nodes.length

/-- The conditions of `validate`. -/
theorem validate_eq_ok : tree.validate = .ok () ↔ tree.LinksAgree := by
  have hroots : ∀ seen', tree.roots.foldlM tree.validateRoot ∅ = .ok seen' ↔ _ :=
    fun _ => foldlM_seen (fun root => root) _ validateRoot_ok
  have hlinks : ∀ seen seen', (tree.nodes.flatMap links).foldlM
      (fun seen link => tree.validateChild link.1 seen link.2) seen = .ok seen' ↔ _ :=
    fun _ _ => foldlM_seen Prod.snd _ child_ok
  have hcard : tree.linked.Nodup → ((tree.nodes.flatMap (·.2.children)).toFinset ∪
      tree.roots.toFinset).card = tree.linked.length := by
    intro hnodup
    rw [Finset.union_comm, ← toFinset_append]
    exact toFinset_card_of_nodup hnodup
  rw [validate, bind_ok]
  simp only [bind_ok, foldlM_node, ite_error_ok, not_not, hroots, hlinks, map_links]
  simp only [map_id', Finset.union_empty, Finset.notMem_empty, not_false_eq_true, and_true]
  constructor
  · rintro ⟨_, ⟨hnodup, hroot, rfl⟩, _, ⟨hids, hchs, hlink, rfl⟩, hsize⟩
    have hlinked : tree.linked.Nodup := by
      refine nodup_append'.mpr ⟨hnodup, hchs, fun child hroot hchild => ?_⟩
      rw [← map_links] at hchild
      obtain ⟨link, hmem, rfl⟩ := mem_map.mp hchild
      exact (hlink link hmem).2 (mem_toFinset.mpr hroot)
    exact ⟨hids, hroot, fun link hmem => (hlink link hmem).1, hlinked,
      (hcard hlinked).symm.trans hsize⟩
  · rintro ⟨hids, hroot, hlink, hlinked, hsize⟩
    obtain ⟨hnodup, hchs, hdisjoint⟩ := nodup_append'.mp hlinked
    refine ⟨_, ⟨hnodup, hroot, rfl⟩, _, ⟨hids, hchs, fun link hmem => ⟨hlink link hmem, ?_⟩,
      rfl⟩, (hcard hlinked).trans hsize⟩
    rw [mem_toFinset]
    exact fun hseen => hdisjoint hseen (map_links ▸ mem_map_of_mem hmem)

theorem mem_nodes_get {node : TreeNode α} (h : tree.get id = some node) :
    (id, node) ∈ tree.nodes := by
  obtain ⟨before, after, hnodes, -⟩ := lookup_eq_some_iff.mp h
  rw [hnodes]
  exact mem_append_right _ mem_cons_self

theorem linked_of_validate (h : tree.validate = .ok ()) : tree.Linked := by
  obtain ⟨-, hroots, hlinks, hlinked, -⟩ := validate_eq_ok.mp h
  obtain ⟨hnodup, hchs, -⟩ := nodup_append'.mp hlinked
  refine ⟨hroots, hnodup, fun {id node} hget c hc => ?_, fun {id node} hget => ?_⟩
  · exact hlinks (id, c) (mem_links.mpr ⟨node, mem_nodes_get hget, hc⟩)
  · exact (nodup_flatMap.mp hchs).1 (id, node) (mem_nodes_get hget)

end IdentityTree

end JmeterRs.Scope
