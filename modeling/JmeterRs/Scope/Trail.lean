import JmeterRs.Scope.Walk

/-!
# Runs of the walk

A compilation that succeeds has visited every trail (`walked_of_compile`): each sampler reached
has its package, and each package belongs to a sampler reached.  Since a run is finite, trails are
bounded in length; since a trail that comes back to an owner could be repeated for ever, no owner
occurs twice on one (`Walked.no_repeat`).
-/

namespace JmeterRs.Scope

open Fueled List

variable {c : ScopeCompiler} {tree : ElementTree}

/-! ## The shape of trails -/

variable {l t : Branch} {rest : List Branch} {plan : CompiledScopePlan} {T : List Branch}
  {n : NodeId} {b b' : Branch}

/-- Every level below the innermost one is left through one of its nodes. -/
theorem Trail.above (h : Trail c tree (t :: rest)) (hl : l ∈ rest) :
    ∃ n l', n ∈ l.children ∧ enter c tree l n = some l' ∧ l' ∈ t :: rest := by
  generalize hT : t :: rest = T at h
  induction h generalizing t rest with
  | root =>
    obtain ⟨-, rfl⟩ := List.cons.inj hT
    cases hl
  | @step b bs n b' htr hmem henter ih =>
    obtain ⟨rfl, rfl⟩ := List.cons.inj hT
    rcases mem_cons.mp hl with rfl | hl
    · exact ⟨n, t, hmem, henter, mem_cons_self⟩
    · obtain ⟨m, l', hm, hl', hmem'⟩ := ih hl rfl
      exact ⟨m, l', hm, hl', mem_cons_of_mem _ hmem'⟩

/-- A level is the level of the roots, or it was entered from the level outside it. -/
theorem Trail.entered (h : Trail c tree (t :: rest)) : (t = rootBranch tree ∧ rest = []) ∨
      ∃ b bs n, rest = b :: bs ∧ n ∈ b.children ∧ enter c tree b n = some t := by
  generalize hT : t :: rest = T at h
  cases h with
  | root => exact .inl (List.cons.inj hT)
  | @step b bs n b' htr hmem henter =>
    obtain ⟨rfl, rfl⟩ := List.cons.inj hT
    exact .inr ⟨b, bs, n, rfl, hmem, henter⟩

theorem Trail.suffix (h : Trail c tree T) (hsuf : t :: rest <:+ T) : Trail c tree (t :: rest) := by
  induction h with
  | root =>
    rcases suffix_cons_iff.mp hsuf with heq | hsuf
    · rw [heq]
      exact .root
    · cases suffix_nil.mp hsuf
  | step htr hmem henter ih =>
    rcases suffix_cons_iff.mp hsuf with heq | hsuf
    · rw [heq]
      exact .step htr hmem henter
    · exact ih hsuf

theorem Trail.of_mem (h : Trail c tree T) (hl : l ∈ T) : ∃ rest, Trail c tree (l :: rest) := by
  obtain ⟨pre, rest, rfl⟩ := append_of_mem hl
  exact ⟨rest, h.suffix (suffix_append _ _)⟩

theorem enter_expanded (h : enter c tree b n = some b') (hb : b.expanded = true) :
    b'.expanded = true := by
  obtain ⟨node, found, -, -, h⟩ := enter_some.mp h
  rcases h with ⟨-, target, -, rfl⟩ | ⟨-, -, rfl⟩ | ⟨-, -, rfl⟩
  · rfl
  · exact hb
  · exact hb

/-- Once a replacement edge was followed, all levels further inside are below it. -/
theorem Trail.expanded_mono (h : Trail c tree (t :: rest)) (hl : l ∈ rest)
    (hexp : l.expanded = true) : t.expanded = true := by
  generalize hT : t :: rest = T at h
  induction h generalizing t rest with
  | root =>
    obtain ⟨-, rfl⟩ := List.cons.inj hT
    cases hl
  | @step b bs n b' htr hmem henter ih =>
    obtain ⟨rfl, rfl⟩ := List.cons.inj hT
    rcases mem_cons.mp hl with rfl | hl
    · exact enter_expanded henter hexp
    · exact enter_expanded henter (ih hl rfl)

/-! ## Coming back to an owner -/

/-- The second level has the same elements, and whatever can be entered from the first can be
entered from it. -/
def Dominated (l t : Branch) : Prop :=
  l.children = t.children ∧ (l.expanded = true → t.expanded = true)

/-- A node that can be entered from a level can be entered from one that dominates it. -/
theorem enter_dominated {l' : Branch} (hexp : l.expanded = true → t.expanded = true)
    (h : enter c tree l n = some l') : ∃ t', enter c tree t n = some t' ∧ Dominated l' t' := by
  obtain ⟨node, found, hnode, hfound, h⟩ := enter_some.mp h
  rcases h with ⟨hcat, target, htarget, rfl⟩ | ⟨hcat, hskip, rfl⟩ | ⟨hcat, hchildren, rfl⟩
  · exact ⟨_, enter_some.mpr ⟨node, found, hnode, hfound, .inl ⟨hcat, target, htarget, rfl⟩⟩,
      rfl, id⟩
  · refine ⟨_, enter_some.mpr ⟨node, found, hnode, hfound, .inr (.inl ⟨hcat, ?_, rfl⟩)⟩, rfl, hexp⟩
    cases hl : l.expanded with
    | true => rw [hexp hl]; simp
    | false =>
      rw [hl, Bool.not_false, Bool.and_true] at hskip
      rw [hskip, Bool.false_and]
  · exact ⟨_, enter_some.mpr ⟨node, found, hnode, hfound, .inr (.inr ⟨hcat, hchildren, rfl⟩)⟩,
      rfl, hexp⟩

/-- Two levels entered through one node: the inner one dominates the outer one. -/
theorem dominated_enter (hl : enter c tree b n = some l) (ht : enter c tree b' n = some t)
    (hexp : l.expanded = true → t.expanded = true) : Dominated l t := by
  refine ⟨?_, hexp⟩
  obtain ⟨node, found, hnode, hfound, hl⟩ := enter_some.mp hl
  obtain ⟨node', found', hnode', hfound', ht⟩ := enter_some.mp ht
  rw [hnode] at hnode'
  cases hnode'
  rw [hfound] at hfound'
  cases hfound'
  rcases hl with ⟨hcat, target, htarget, rfl⟩ | ⟨hcat, -, rfl⟩ | ⟨hcat, -, rfl⟩ <;>
    rcases ht with ⟨hcat', target', htarget', rfl⟩ | ⟨hcat', -, rfl⟩ | ⟨hcat', -, rfl⟩
  · rw [htarget] at htarget'
    rw [Option.some.inj htarget']
  all_goals
    first | rfl | simp [hcat, isScopeCategory] at hcat' | simp [hcat', isScopeCategory] at hcat

/-- A trail whose innermost level dominates another of its levels can be prolonged, and so again:
the new level follows the step that was taken from the dominated one. -/
theorem Trail.prolong (h : Trail c tree (t :: rest)) (hl : l ∈ rest) (hdom : Dominated l t) :
    ∃ t' l', Trail c tree (t' :: t :: rest) ∧ l' ∈ t :: rest ∧ Dominated l' t' := by
  obtain ⟨n, l', hn, henter, hl'⟩ := h.above hl
  obtain ⟨t', henter', hdom'⟩ := enter_dominated hdom.2 henter
  exact ⟨t', l', .step h (hdom.1 ▸ hn) henter', hl', hdom'⟩

theorem Trail.unbounded (h : Trail c tree (t :: rest)) (hl : l ∈ rest) (hdom : Dominated l t)
    (n : ℕ) : ∃ T, Trail c tree T ∧ n ≤ T.length := by
  suffices key : ∃ t l rest, Trail c tree (t :: rest) ∧ l ∈ rest ∧ Dominated l t ∧
      n ≤ rest.length by
    obtain ⟨t, l, rest, htr, -, -, hn⟩ := key
    exact ⟨t :: rest, htr, by rw [length_cons]; omega⟩
  induction n with
  | zero => exact ⟨t, l, rest, h, hl, hdom, Nat.zero_le _⟩
  | succ n ih =>
    obtain ⟨t, l, rest, htr, hmem, hd, hn⟩ := ih
    obtain ⟨t', l', htr', hmem', hd'⟩ := htr.prolong hmem hd
    exact ⟨t', l', t :: rest, htr', hmem', hd', by rw [length_cons]; omega⟩

/-! ## What a successful compilation has visited -/

/-- The result of a walk over all trails. -/
structure Walked (c : ScopeCompiler) (tree : ElementTree) (plan : CompiledScopePlan) : Prop where
  linked : tree.Linked
  stored : ∀ {b bs s}, Reaches c tree b bs s →
    ∃ pkg, plan.get s = some pkg ∧ Packaged c tree b bs s pkg
  only : ∀ {s pkg}, plan.get s = some pkg →
    ∃ b bs, Reaches c tree b bs s ∧ Packaged c tree b bs s pkg
  bounded : ∃ n, ∀ T, Trail c tree T → T.length ≤ n

/-- The levels entered from the innermost one of a trail. -/
def nextTrails (c : ScopeCompiler) (tree : ElementTree) (i : Branch × List Branch) :
    List (Branch × List Branch) :=
  (i.1.children.filterMap (enter c tree i.1)).map fun b' => (b', i.1 :: i.2)

/-- A set of trails with the roots and closed under entering holds all trails. -/
theorem mem_of_closed {visited : List (Branch × List Branch)}
    (hroot : (rootBranch tree, []) ∈ visited)
    (hclosed : ∀ i ∈ visited, nextTrails c tree i ⊆ visited) (h : Trail c tree T) :
    ∃ b bs, T = b :: bs ∧ (b, bs) ∈ visited := by
  induction h with
  | root => exact ⟨_, _, rfl, hroot⟩
  | @step b bs n b' htr hmem henter ih =>
    obtain ⟨b₀, bs₀, heq, hvisited⟩ := ih
    obtain ⟨rfl, rfl⟩ := List.cons.inj heq
    refine ⟨b', b :: bs, rfl, hclosed _ hvisited ?_⟩
    exact mem_map.mpr ⟨b', mem_filterMap.mpr ⟨n, hmem, henter⟩, rfl⟩

theorem drained_walked (hlinked : tree.Linked)
    (h : Drained (walkStep c tree) .empty [rootTask tree] plan) : Walked c tree plan := by
  have hrun := Drained.visits (fun i => taskOf c tree i.1 i.2) (nextTrails c tree)
    (P := fun plan => ∀ {s pkg}, plan.get s = some pkg →
      ∃ b bs, Reaches c tree b bs s ∧ Packaged c tree b bs s pkg)
    (Q := fun i => Trail c tree (i.1 :: i.2))
    (R := fun i plan => ∀ s ∈ i.1.children, categoryOf c tree s = some .sampler →
      ∃ pkg, plan.get s = some pkg ∧ Packaged c tree i.1 i.2 s pkg)
    ?_ h ?_ [(rootBranch tree, [])] rfl ?_
  · obtain ⟨honly, -, visited, hsub, hvisited, hclosed⟩ := hrun
    have hall : ∀ {T}, Trail c tree T → ∃ b bs, T = b :: bs ∧ (b, bs) ∈ visited :=
      mem_of_closed (hsub mem_cons_self) hclosed
    refine ⟨hlinked, ?_, honly, ((visited.map fun i => i.2.length + 1).max?.getD 0), ?_⟩
    · rintro b bs s ⟨htr, hs, hcat⟩
      obtain ⟨b₀, bs₀, heq, hmem⟩ := hall htr
      obtain ⟨rfl, rfl⟩ := List.cons.inj heq
      exact (hvisited _ hmem).2 s hs hcat
    · intro T htr
      obtain ⟨b, bs, rfl, hmem⟩ := hall htr
      have hlen : bs.length + 1 ∈ visited.map fun i => i.2.length + 1 :=
        mem_map.mpr ⟨(b, bs), hmem, rfl⟩
      exact le_max?_getD_of_mem hlen
  · rintro s ⟨b, bs⟩ s' pushed hP hQ hstep
    obtain ⟨hpushed, hstepped⟩ := stepped_walk hstep
    refine ⟨?_, ?_, hstepped.stored, ?_, ?_⟩
    · rw [hpushed, nextTasks, nextTrails, map_map]
      rfl
    · intro id pkg hid
      rcases hstepped.only hid with hold | ⟨hmem, hcat, hpkg⟩
      · exact hP hold
      · exact ⟨b, bs, ⟨hQ, hmem, hcat⟩, hpkg⟩
    · intro j hj id hid hcat
      obtain ⟨pkg, hpkg, hpackaged⟩ := hj id hid hcat
      exact ⟨pkg, hstepped.kept hpkg, hpackaged⟩
    · intro j hj
      obtain ⟨b', hb', rfl⟩ := mem_map.mp hj
      obtain ⟨n, hn, henter⟩ := mem_filterMap.mp hb'
      exact .step hQ hn henter
  · intro s pkg h
    simp [CompiledScopePlan.empty, CompiledScopePlan.get] at h
  · intro i hi
    obtain rfl := mem_singleton.mp hi
    exact .root

theorem tree_linked (h : (validateTree tree c.limits).Returns (.ok ())) : tree.Linked := by
  unfold validateTree at h
  split_ifs at h with hlen
  · cases returns_fail.mp h
  · cases hvalid : tree.validate with
    | error e =>
      rw [hvalid] at h
      cases returns_fail.mp h
    | ok _ => exact IdentityTree.linked_of_validate hvalid

/-- An empty tree has no trail but the roots, and no roots. -/
theorem walked_of_empty (hlinked : tree.Linked) (hemp : tree.isEmpty = true) :
    Walked c tree .empty := by
  have hroots : tree.roots = [] := by
    rw [eq_nil_iff_forall_not_mem]
    intro r hr
    obtain ⟨node, hget, -⟩ := hlinked.root r hr
    have := IdentityTree.mem_nodes_get hget
    rw [List.isEmpty_iff.mp hemp] at this
    cases this
  have honly : ∀ {T}, Trail c tree T → T = [rootBranch tree] := by
    intro T h
    induction h with
    | root => rfl
    | step htr hmem henter ih =>
      obtain ⟨rfl, -⟩ := List.cons.inj ih
      simp [rootBranch, hroots] at hmem
  refine ⟨hlinked, ?_, ?_, 1, ?_⟩
  · rintro b bs s ⟨htr, hs, -⟩
    obtain ⟨rfl, -⟩ := List.cons.inj (honly htr)
    simp [rootBranch, hroots] at hs
  · intro s pkg h
    simp [CompiledScopePlan.empty, CompiledScopePlan.get] at h
  · intro T htr
    rw [honly htr]
    simp

theorem walked_of_compile (h : (c.compile tree).Returns (.ok plan)) : Walked c tree plan := by
  obtain ⟨_, hvalid, h⟩ := returns_bind_ok.mp h
  have hlinked := tree_linked hvalid
  by_cases hemp : tree.isEmpty = true
  · rw [if_pos hemp] at h
    obtain rfl := Except.ok.inj (returns_pure.mp h)
    exact walked_of_empty hlinked hemp
  · rw [if_neg hemp] at h
    obtain ⟨plan', hplan', h⟩ := returns_bind_ok.mp h
    rw [returns_ofExcept] at h
    obtain ⟨bytes, -, h⟩ := bind_ok.mp h
    obtain ⟨-, h⟩ := ite_error_ok.mp h
    obtain rfl := Except.ok.inj h
    obtain ⟨fuel, hrun⟩ := hplan'
    exact drained_walked hlinked (run_drained hrun)

/-- **No owner occurs twice on a trail** of a tree that was compiled. -/
theorem Walked.no_repeat (h : Walked c tree plan) (htr : Trail c tree (t :: rest))
    (hl : l ∈ rest) (hentert : enter c tree b n = some t) (henterl : enter c tree b' n = some l) :
    False := by
  obtain ⟨bound, hbound⟩ := h.bounded
  have hdom := dominated_enter henterl hentert (htr.expanded_mono hl)
  obtain ⟨T, hT, hlen⟩ := htr.unbounded hl hdom (bound + 1)
  have := hbound T hT
  omega

end JmeterRs.Scope
