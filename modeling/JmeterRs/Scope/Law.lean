import JmeterRs.Scope.Trail
import Mathlib.Data.List.Nodup

/-!
# The scope law holds, up to elements scoped twice

Every part of the scope law but one holds of each compilation that succeeds.  The exception is
that a component may be listed twice: a replacement edge onto an element that already is in scope
puts it on a second level of the same trail.  `scopeLaw_iff` says that nothing else can go wrong.
-/

namespace JmeterRs.Scope

open Fueled ScopeComponent List

/-! ## Grouping by level -/

section

variable {α : Type} {key : α → ℕ}

/-- Groups values by key, as the entries of a map in key order. -/
def grouped (key : α → ℕ) (values : List α) : List (ℕ × List α) :=
  values.foldl (fun groups value => entryPush (key value) value groups) []

variable {groups : List (ℕ × List α)} {k : ℕ}

theorem entryPush_append {v : α} (h : ∀ g ∈ groups, g.1 < k) (last : List (ℕ × List α)) :
    entryPush k v (groups ++ last) = groups ++ entryPush k v last := by
  induction groups with
  | nil => rfl
  | cons g groups ih =>
    obtain ⟨j, vs⟩ := g
    have hj : j < k := h (j, vs) mem_cons_self
    rw [cons_append, entryPush, if_neg (by omega), if_neg (by omega),
      ih fun g hg => h g (.tail _ hg), cons_append]

theorem entryPush_last {vs ws : List α} (h : ∀ g ∈ groups, g.1 < k) (hvs : ∀ v ∈ vs, key v = k) :
    vs.foldl (fun groups v => entryPush (key v) v groups) (groups ++ [(k, ws)]) =
      groups ++ [(k, ws ++ vs)] := by
  induction vs generalizing ws with
  | nil => simp
  | cons v vs ih =>
    rw [foldl_cons, hvs v mem_cons_self, entryPush_append h, entryPush, if_neg k.lt_irrefl,
      if_pos rfl, ih fun v hv => hvs v (.tail _ hv), append_assoc]
    rfl

/-- Values with a key above all earlier ones form the last group. -/
theorem grouped_append {values vs : List α} (h : ∀ g ∈ grouped key values, g.1 < k)
    (hvs : ∀ v ∈ vs, key v = k) :
    grouped key (values ++ vs) = grouped key values ++ if vs = [] then [] else [(k, vs)] := by
  unfold grouped at h ⊢
  rw [foldl_append]
  cases vs with
  | nil => simp
  | cons v vs =>
    have hnew := entryPush_append (v := v) h []
    rw [append_nil] at hnew
    rw [foldl_cons, hvs v mem_cons_self, hnew]
    exact entryPush_last h fun v hv => hvs v (.tail _ hv)

end

variable {c : ScopeCompiler} {tree : ElementTree} {b t l : Branch} {bs rest : List Branch}
variable {s x : NodeId}

/-! ## The order of the components -/

theorem scopeOf_eq (T : List Branch) :
    scopeOf c tree T = (T.map (levelComponents c tree)).reverse.flatten := by
  induction T with
  | nil => rfl
  | cons b bs ih => simp [scopeOf, ih]

/-- Levels further inside have longer paths. -/
def Descending (T : List Branch) : Prop :=
  T.Pairwise fun inner outer => outer.path.length < inner.path.length

variable {T : List Branch} {pkg : ScopePlan} {category : ComponentCategory}
  {node : TreeNode TestElement}

theorem Trail.descending (h : Trail c tree T) : Descending T := by
  induction h with
  | root => exact pairwise_singleton _ _
  | @step b bs n b' htr hmem henter ih =>
    have hlen : b.path.length < b'.path.length := by simp [enter_path henter]
    refine pairwise_cons.mpr ⟨?_, ih⟩
    intro outer houter
    rcases mem_cons.mp houter with rfl | houter
    · exact hlen
    · exact (rel_of_pairwise_cons ih houter).trans hlen

/-- Grouping the scope by path length and reversing the groups puts the nearest level first. -/
theorem grouped_scopeOf (p : ScopeComponent → Bool) (h : Descending T) :
    let groups := grouped (·.path.length) ((scopeOf c tree T).filter p)
    groups.reverse.flatMap Prod.snd = (T.map (levelComponents c tree)).flatten.filter p ∧
      ∀ g ∈ groups, ∃ l ∈ T, g.1 = l.path.length + 1 := by
  induction T with
  | nil => exact ⟨rfl, fun g hg => absurd hg not_mem_nil⟩
  | cons b bs ih =>
    obtain ⟨houter, hbs⟩ := pairwise_cons.mp h
    obtain ⟨hflat, hkeys⟩ := ih hbs
    have hkey : ∀ component ∈ (levelComponents c tree b).filter p,
        component.path.length = b.path.length + 1 := by
      intro component hcomponent
      rw [(mem_level (mem_of_mem_filter hcomponent)).2.1]
      simp
    have hlt : ∀ g ∈ grouped (·.path.length) ((scopeOf c tree bs).filter p),
        g.1 < b.path.length + 1 := by
      intro g hg
      obtain ⟨l, hl, hgl⟩ := hkeys g hg
      have := houter l hl
      omega
    dsimp only
    rw [scopeOf, filter_append, grouped_append hlt hkey]
    constructor
    · rw [reverse_append, flatMap_append, hflat, map_cons, flatten_cons, filter_append]
      congr 1
      split_ifs with hempty
      · rw [hempty]
        rfl
      · simp
    · intro g hg
      rcases mem_append.mp hg with hg | hg
      · obtain ⟨l, hl, hgl⟩ := hkeys g hg
        exact ⟨l, mem_cons_of_mem _ hl, hgl⟩
      · split_ifs at hg with hempty
        · cases hg
        · obtain rfl := mem_singleton.mp hg
          exact ⟨b, mem_cons_self, rfl⟩

section

variable (h : Trail c tree (b :: bs))

include h

theorem descending_sampler : Descending (samplerBranch tree b s :: b :: bs) := by
  refine pairwise_cons.mpr ⟨?_, h.descending⟩
  have hlen : (samplerBranch tree b s).path.length = b.path.length + 1 := by simp [samplerBranch]
  intro outer houter
  rw [hlen]
  rcases mem_cons.mp houter with rfl | houter
  · exact Nat.lt_succ_self _
  · have := rel_of_pairwise_cons h.descending houter
    omega

/-- The two orders of the source are those of the law. -/
theorem ordered_eq (category : ComponentCategory) :
    orderedScopeComponents (scopeOf c tree (samplerBranch tree b s :: b :: bs)) category
      (nearestFirst category) = inScope c tree b bs s category := by
  unfold orderedScopeComponents inScope
  cases hnear : nearestFirst category with
  | false =>
    rw [scopeOf_eq]
    rfl
  | true => exact (grouped_scopeOf _ (descending_sampler h)).1

theorem components_of_packaged (hpkg : Packaged c tree b bs s pkg)
    (hscope : isScopeCategory category = true) :
    pkg.components category = inScope c tree b bs s category ∧
      pkg.bindings category = (inScope c tree b bs s category).map ScopeComponent.binding := by
  obtain ⟨node, found, -, -, rfl⟩ := hpkg.eq
  have horder := ordered_eq (s := s) h category
  cases category <;> simp only [isScopeCategory, Bool.false_eq_true] at hscope <;>
    rw [← horder] <;> exact ⟨rfl, rfl⟩

end

/-! ## Elements scoped twice -/

/-- The identities a level puts in scope. -/
def scopeIds (c : ScopeCompiler) (tree : ElementTree) (b : Branch) : List NodeId :=
  (levelComponents c tree b).map nodeId

/-- A trail follows a replacement edge onto an element that an outer level has in scope. -/
def Rescopes (c : ScopeCompiler) (tree : ElementTree) (T : List Branch) : Prop :=
  ∃ t rest l n node x, t :: rest <:+ T ∧ t.path.getLast? = some n ∧
    enabledNode tree n = some node ∧ categoryOf c tree n = some .replaceable ∧
    targetOf node.value = some x ∧ l ∈ rest ∧ x ∈ scopeIds c tree l

theorem mem_scopeIds : x ∈ scopeIds c tree b ↔ x ∈ b.children ∧ ∃ node found,
    enabledNode tree x = some node ∧ c.registry.get node.value.testClass = some found ∧
    isScopeCategory found.category = true ∧
    (b.runLevel && isResultCollector node.value found) = false := by
  constructor
  · intro h
    obtain ⟨component, hcomponent, rfl⟩ := mem_map.mp h
    obtain ⟨hmem, -, hon⟩ := mem_level hcomponent
    obtain ⟨node, found, hnode, hfound, hscope, -⟩ := componentOn_some.mp hon
    exact ⟨hmem, node, found, hnode, hfound, hscope⟩
  · rintro ⟨hmem, node, found, hnode, hfound, hscope⟩
    refine mem_map.mpr ⟨⟨x, b.path ++ [x], node.value, found⟩, ?_, rfl⟩
    exact mem_filterMap.mpr ⟨x, hmem,
      componentOn_some.mpr ⟨node, found, hnode, hfound, hscope, rfl⟩⟩

theorem scopeIds_eq : scopeIds c tree b =
    b.children.filter fun id => (componentOn c tree b id).isSome := by
  unfold scopeIds levelComponents
  induction b.children with
  | nil => rfl
  | cons id ids ih =>
    rw [filterMap_cons, filter_cons]
    cases hid : componentOn c tree b id with
    | none => simpa using ih
    | some component =>
      obtain ⟨node, found, -, -, -, rfl⟩ := componentOn_some.mp hid
      simpa using ih

/-- A level that was entered has the target of its owner, or its owner's children. -/
theorem children_enter {b' : Branch} {n : NodeId} (h : enter c tree b n = some b') :
    (∃ node target, enabledNode tree n = some node ∧ categoryOf c tree n = some .replaceable ∧
        targetOf node.value = some target ∧ b'.children = [target] ∧ b'.runLevel = false) ∨
      (∃ node, enabledNode tree n = some node ∧ categoryOf c tree n ≠ some .replaceable ∧
        categoryOf c tree n ≠ some .sampler ∧ b'.children = node.children) := by
  obtain ⟨node, found, hnode, hfound, h⟩ := enter_some.mp h
  have hcat := category_found hnode hfound
  rcases h with ⟨hrep, target, htarget, rfl⟩ | ⟨howner, -, rfl⟩ | ⟨hscope, -, rfl⟩
  · exact .inl ⟨node, target, hnode, hrep ▸ hcat, htarget, rfl, rfl⟩
  · refine .inr ⟨node, hnode, ?_, ?_, rfl⟩ <;> rcases howner with h | h <;> simp [hcat, h]
  · refine .inr ⟨node, hnode, ?_, ?_, rfl⟩ <;>
      (rw [hcat]; intro h; simp [Option.some.inj h, isScopeCategory] at hscope)

/-- A level that was entered through a replaceable node. -/
theorem children_replace {b' : Branch} {n target : NodeId} (h : enter c tree b n = some b')
    (hrep : categoryOf c tree n = some .replaceable) (hnode : enabledNode tree n = some node)
    (htarget : targetOf node.value = some target) :
    b'.children = [target] ∧ b'.runLevel = false := by
  rcases children_enter h with ⟨node', target', hnode', -, htarget', heq⟩ | ⟨_, _, hno, _⟩
  · cases hnode.symm.trans hnode'
    cases htarget.symm.trans htarget'
    exact heq
  · exact absurd hrep hno

/-- A level has the roots, one target, or the children of a node. -/
theorem Trail.children {P : List NodeId → Prop} (h : Trail c tree T)
    (hroots : P tree.roots) (htarget : ∀ x, P [x])
    (hnode : ∀ {x node}, tree.get x = some node → P node.children) : ∀ l ∈ T, P l.children := by
  induction h with
  | root => exact forall_mem_singleton.mpr hroots
  | step _ _ henter ih =>
    refine forall_mem_cons.mpr ⟨?_, ih⟩
    rcases children_enter henter with ⟨_, target, -, -, -, heq, -⟩ | ⟨node, hn, -, -, heq⟩
    · exact heq ▸ htarget target
    · exact heq ▸ hnode (enabledNode_eq.mp hn).1

/-- A child stands on a level as the target of a replacement edge, or because its parent owns the
level: roots have no parent. -/
theorem Trail.owner_of_child (hlinked : tree.Linked) (htr : Trail c tree T) (hl : l ∈ T)
    {p : NodeId} (hget : tree.get p = some node) (hx : x ∈ node.children) (hxl : x ∈ l.children) :
    l.children = [x] ∨
      ∃ b₀, enter c tree b₀ p = some l ∧ categoryOf c tree p ≠ some .sampler := by
  obtain ⟨child, hchild, hpar⟩ := hlinked.child hget x hx
  obtain ⟨outer, houter⟩ := htr.of_mem hl
  rcases houter.entered with ⟨rfl, -⟩ | ⟨b₀, bs₀, m, -, -, henter⟩
  · obtain ⟨root, hroot, hnone⟩ := hlinked.root x hxl
    cases hchild.symm.trans hroot
    cases hpar.symm.trans hnone
  · rcases children_enter henter with
      ⟨node₀, target, -, -, -, hchs, -⟩ | ⟨node₀, hnode₀, -, hnotSampler, hchs⟩
    · rw [hchs] at hxl
      obtain rfl := mem_singleton.mp hxl
      exact .inl hchs
    · rw [hchs] at hxl
      obtain ⟨child', hchild', hpar'⟩ := hlinked.child (enabledNode_eq.mp hnode₀).1 x hxl
      cases hchild.symm.trans hchild'
      cases hpar.symm.trans hpar'
      exact .inr ⟨b₀, henter, hnotSampler⟩

variable {plan : CompiledScopePlan}

/-- The parent of an element of a level is the owner of the level; roots have none. -/
theorem Walked.levels_disjoint (h : Walked c tree plan) (htr : Trail c tree (t :: rest))
    (hclean : ¬ Rescopes c tree (t :: rest)) (hl : l ∈ rest) (hxt : x ∈ scopeIds c tree t)
    (hxl : x ∈ scopeIds c tree l) : False := by
  have hxt' := (mem_scopeIds.mp hxt).1
  have hxl' := (mem_scopeIds.mp hxl).1
  rcases htr.entered with ⟨-, rfl⟩ | ⟨b, bs, n, rfl, hn, henter⟩
  · cases hl
  rcases children_enter henter with
    ⟨node, target, hnode, hrep, htarget, hchs, -⟩ | ⟨node, hnode, -, -, hchs⟩
  · -- The inner level is the target of a replacement edge.
    rw [hchs] at hxt'
    obtain rfl := mem_singleton.mp hxt'
    exact hclean ⟨t, b :: bs, l, n, node, x, suffix_rfl, by simp [enter_path henter], hnode,
      hrep, htarget, hl, hxl⟩
  · -- Otherwise its owner is the parent of the element.
    rw [hchs] at hxt'
    rcases htr.owner_of_child h.linked (.tail _ hl)
      (enabledNode_eq.mp hnode).1 hxt' hxl' with hchs₀ | ⟨b₀, henter₀, -⟩
    · -- The outer level led to the element by a replacement edge: it would be entered twice.
      obtain ⟨m', l', hm', henter', hl'⟩ := htr.above hl
      rw [hchs₀] at hm'
      obtain rfl := mem_singleton.mp hm'
      obtain ⟨t', ht', -⟩ := enter_dominated (htr.expanded_mono hl) henter'
      have hagain : Trail c tree (t' :: t :: b :: bs) := .step htr (hchs ▸ hxt') ht'
      exact h.no_repeat hagain hl' ht' henter'
    · exact h.no_repeat htr hl henter henter₀

/-- The children of a sampler stand on no level of its trail. -/
theorem Walked.attached_disjoint (h : Walked c tree plan) (hreach : Reaches c tree b bs s)
    (hl : l ∈ b :: bs) (hxs : x ∈ scopeIds c tree (samplerBranch tree b s))
    (hxl : x ∈ scopeIds c tree l) : False := by
  obtain ⟨htr, hs, hcat⟩ := hreach
  obtain ⟨hxs', node, found, hnode, hfound, hscope, -⟩ := mem_scopeIds.mp hxs
  have hxl' := (mem_scopeIds.mp hxl).1
  obtain ⟨pkg, -, hpkg⟩ := h.stored ⟨htr, hs, hcat⟩
  have hleaf := hpkg.leaf x hxs' node hnode
  obtain ⟨sampler, found', hsampler, -, -⟩ := category_some.mp hcat
  have hget := (enabledNode_eq.mp hsampler).1
  have hxchild : x ∈ sampler.children := by simpa [samplerBranch, hget] using hxs'
  have hxcat := category_found hnode hfound
  rcases htr.owner_of_child h.linked hl hget hxchild hxl' with
    hchs₀ | ⟨b₀, -, hnotSampler⟩
  · rcases mem_cons.mp hl with rfl | hl
    · rw [hchs₀] at hs
      obtain rfl := mem_singleton.mp hs
      rw [← Option.some.inj (hcat.symm.trans hxcat)] at hscope
      cases hscope
    · obtain ⟨m', l', hm', henter', -⟩ := htr.above hl
      rw [hchs₀] at hm'
      obtain rfl := mem_singleton.mp hm'
      rw [enter_none hnode hfound hscope hleaf] at henter'
      cases henter'
  · exact hnotSampler hcat

/-! ## The law -/

/-- Without an element scoped twice, the levels of a sampler are disjoint. -/
theorem Walked.levels_nodup (h : Walked c tree plan) (hreach : Reaches c tree b bs s)
    (hclean : ¬ Rescopes c tree (b :: bs)) : ((levels c tree b bs s).flatten.map nodeId).Nodup := by
  have hids : (levels c tree b bs s).flatten.map nodeId =
      ((samplerBranch tree b s :: b :: bs).map (scopeIds c tree)).flatten := by
    rw [map_flatten, levels, map_map]
    rfl
  rw [hids, nodup_flatten]
  constructor
  · intro ids hmem
    obtain ⟨l, hl, rfl⟩ := mem_map.mp hmem
    rw [scopeIds_eq]
    refine List.Nodup.filter _ ?_
    rcases mem_cons.mp hl with rfl | hl
    · obtain ⟨node, found, hnode, -, -⟩ := category_some.mp hreach.2.2
      have hget := (enabledNode_eq.mp hnode).1
      simpa [samplerBranch, hget] using h.linked.children_nodup hget
    · exact hreach.1.children h.linked.roots_nodup nodup_singleton h.linked.children_nodup l hl
  · rw [pairwise_map, pairwise_cons]
    constructor
    · intro l hl x hxs hxl
      exact h.attached_disjoint hreach hl hxs hxl
    · -- Every level with the levels outside it is a trail again.
      have key : ∀ T, T <:+ b :: bs → T.Pairwise fun inner outer =>
          List.Disjoint (scopeIds c tree inner) (scopeIds c tree outer) := by
        intro T
        induction T with
        | nil => exact fun _ => List.Pairwise.nil
        | cons t rest ih =>
          intro hsuf
          refine pairwise_cons.mpr ⟨?_, ih ((suffix_cons t rest).trans hsuf)⟩
          intro l hl x hxt hxl
          refine h.levels_disjoint (hreach.1.suffix hsuf) ?_ hl hxt hxl
          rintro ⟨t', rest', l', n, node, y, hsuf', hrest⟩
          exact hclean ⟨t', rest', l', n, node, y, hsuf'.trans hsuf, hrest⟩
      exact key _ suffix_rfl

/-- In either order, what is in scope is part of the levels. -/
theorem inScope_nodup_iff : ((inScope c tree b bs s category).map nodeId).Nodup ↔
      (((levels c tree b bs s).flatten.filter fun component =>
        component.binding.category = category).map nodeId).Nodup := by
  unfold inScope
  cases nearestFirst category with
  | true => rfl
  | false =>
    have hperm : (levels c tree b bs s).reverse.flatten.Perm (levels c tree b bs s).flatten :=
      (reverse_perm _).flatten
    exact ((hperm.filter _).map _).nodup_iff

theorem not_nodup_of_rescopes (hreach : Reaches c tree b bs s) (h : Rescopes c tree (b :: bs)) :
    ∃ category, isScopeCategory category = true ∧
      ¬ ((inScope c tree b bs s category).map nodeId).Nodup := by
  obtain ⟨t, rest, l, n, node, x, hsuf, hlast, hnode, hrep, htarget, hl, hxl⟩ := h
  obtain ⟨-, element, found, helement, hfound, hscope, -⟩ := mem_scopeIds.mp hxl
  -- The inner level is the target alone, so the element is in scope there as well.
  have hxt : x ∈ t.children ∧ t.runLevel = false := by
    rcases (hreach.1.suffix hsuf).entered with ⟨rfl, -⟩ | ⟨b₀, bs₀, m, -, -, henter⟩
    · cases hlast
    · rw [enter_path henter, getLast?_concat] at hlast
      cases hlast
      obtain ⟨hchs, hrun⟩ := children_replace henter hrep hnode htarget
      exact ⟨by rw [hchs]; exact mem_singleton_self _, hrun⟩
  have hxt' : x ∈ scopeIds c tree t :=
    mem_scopeIds.mpr ⟨hxt.1, element, found, helement, hfound, hscope, by rw [hxt.2]; rfl⟩
  refine ⟨found.category, hscope, fun hnodup => ?_⟩
  rw [inScope_nodup_iff, filter_flatten, map_flatten, nodup_flatten, levels,
    map_map, map_map, pairwise_map] at hnodup
  have hsuf' : t :: rest <:+ samplerBranch tree b s :: b :: bs := hsuf.trans (suffix_cons _ _)
  have hdisjoint := rel_of_pairwise_cons (hnodup.2.sublist hsuf'.sublist) hl
  have hboth : ∀ {l'}, x ∈ scopeIds c tree l' → x ∈ ((levelComponents c tree l').filter
      fun component => component.binding.category = found.category).map nodeId := by
    intro l' hx
    obtain ⟨component, hcomponent, rfl⟩ := mem_map.mp hx
    refine mem_map.mpr ⟨component, mem_filter.mpr ⟨hcomponent, ?_⟩, rfl⟩
    obtain ⟨-, -, hon⟩ := mem_level hcomponent
    obtain ⟨node', found', hnode', hfound', -, hcomp⟩ := componentOn_some.mp hon
    cases helement.symm.trans hnode'
    cases hfound.symm.trans hfound'
    rw [hcomp]
    simp
  exact hdisjoint (hboth hxt') (hboth hxl)

theorem Walked.package_of_reaches (h : Walked c tree plan) (hreach : Reaches c tree b bs s)
    (hpkg : plan.get s = some pkg) : Packaged c tree b bs s pkg := by
  obtain ⟨pkg', hpkg', hpackaged⟩ := h.stored hreach
  cases hpkg.symm.trans hpkg'
  exact hpackaged

theorem samplerComponent_path (h : Packaged c tree b bs s pkg) :
    pkg.samplerId = s ∧ pkg.samplerComponent.path = b.path ++ [s] ∧
      pkg.controllerPath = b.path.filter (onControllerPath c tree) := by
  obtain ⟨node, found, -, -, rfl⟩ := h.eq
  exact ⟨rfl, rfl, rfl⟩

/-- **The scope law.**  A compilation that succeeds satisfies it exactly when no trail to a
sampler follows a replacement edge onto an element that is in scope there already. -/
theorem scopeLaw_iff {plan : CompiledScopePlan} (h : (c.compile tree).Returns (.ok plan)) :
    ScopeLaw c tree plan ↔ ∀ b bs s, Reaches c tree b bs s → ¬ Rescopes c tree (b :: bs) := by
  have hwalked := walked_of_compile h
  constructor
  · intro hlaw b bs s hreach hrescopes
    obtain ⟨category, hscope, hdup⟩ := not_nodup_of_rescopes hreach hrescopes
    obtain ⟨pkg, hpkg, -⟩ := hwalked.stored hreach
    apply hdup
    rw [← (hlaw.components hreach hpkg category hscope).1]
    exact hlaw.once hreach hpkg category
  · intro hclean
    refine ⟨?_, ?_, ?_, ?_, ?_, ?_⟩
    · intro s
      constructor
      · rintro ⟨pkg, hpkg⟩
        obtain ⟨b, bs, hreach, -⟩ := hwalked.only hpkg
        exact ⟨b, bs, hreach⟩
      · rintro ⟨b, bs, hreach⟩
        obtain ⟨pkg, hpkg, -⟩ := hwalked.stored hreach
        exact ⟨pkg, hpkg⟩
    · intro s b bs b' bs' hreach hreach'
      obtain ⟨pkg, hpkg, hpackaged⟩ := hwalked.stored hreach
      have hpath := (samplerComponent_path hpackaged).2.1
      have hpath' := (samplerComponent_path (hwalked.package_of_reaches hreach' hpkg)).2.1
      exact append_cancel_right (hpath.symm.trans hpath')
    · intro s b bs pkg hreach hpkg
      obtain ⟨hid, hpath, -⟩ := samplerComponent_path (hwalked.package_of_reaches hreach hpkg)
      exact ⟨hid, hpath⟩
    · intro s b bs pkg hreach hpkg category hscope
      exact components_of_packaged hreach.1 (hwalked.package_of_reaches hreach hpkg) hscope
    · intro s b bs pkg hreach hpkg category
      cases hscope : isScopeCategory category with
      | false => cases category <;> simp_all [isScopeCategory, ScopePlan.components]
      | true =>
        rw [(components_of_packaged hreach.1 (hwalked.package_of_reaches hreach hpkg) hscope).1,
          inScope_nodup_iff]
        refine (hwalked.levels_nodup hreach (hclean b bs s hreach)).sublist ?_
        exact filter_sublist.map _
    · intro s b bs pkg hreach hpkg
      exact (samplerComponent_path (hwalked.package_of_reaches hreach hpkg)).2.2

/-! ## Two plans with a module -/

/-- The built-in bindings of the classes used below. -/
def builtinClasses : ComponentRegistry :=
  ComponentRegistry.new
    |>.registerNative "TestPlan" .lifecycle "runtime.TestPlan"
    |>.registerNative "Arguments" .configuration "runtime.Arguments"
    |>.registerNative "TestFragmentController" .lifecycle "runtime.TestFragmentController"
    |>.registerNative "GenericController" .controller "runtime.GenericController"
    |>.registerNative "ModuleController" .replaceable "runtime.controller.ModuleController"
    |>.registerNative "DebugSampler" .sampler "runtime.DebugSampler"

def builtinCompiler : ScopeCompiler := ⟨builtinClasses, .default⟩

/-- A node of a fixture. -/
def fixtureNode (id : NodeId) (parent : Option NodeId) (testClass : String)
    (children : List NodeId) : NodeId × TreeNode TestElement :=
  (id, ⟨id, parent, .named testClass "Gui" "element", children⟩)

/-- A module controller of a fixture, resolved to `target`. -/
def moduleNode (id : NodeId) (parent : Option NodeId) (target : Int64) (children : List NodeId) :
    NodeId × TreeNode TestElement :=
  (id, ⟨id, parent, { TestElement.named "ModuleController" "Gui" "module" with
    temporaryProperties := [("runtime.replacement-node", .long target)] }, children⟩)

/-- A module that includes the fragment of the plan. -/
def fragmentModule : ElementTree where
  nodes := [fixtureNode 1 none "TestPlan" [2, 3, 5], fixtureNode 2 (some 1) "Arguments" [],
    fixtureNode 3 (some 1) "TestFragmentController" [4], fixtureNode 4 (some 3) "DebugSampler" [],
    moduleNode 5 (some 1) 3 []]
  roots := [1]
  sorted := by decide

/-- The scope law at the module: the sampler is compiled once, through the module. -/
theorem scopeLaw_iff_fragmentModule : ∃ plan,
    (builtinCompiler.compile fragmentModule).Returns (.ok plan) ∧
      ((plan.get 4).map ScopePlan.controllerPath = some [5]) ∧
      (ScopeLaw builtinCompiler fragmentModule plan ↔ ∀ b bs s,
        Reaches builtinCompiler fragmentModule b bs s →
          ¬ Rescopes builtinCompiler fragmentModule (b :: bs)) := by
  have hrun : ((builtinCompiler.compile fragmentModule).run 20).map
      (fun r => r.toOption.map fun plan => (plan.get 4).map ScopePlan.controllerPath) =
      some (some (some [5])) := by decide +kernel
  obtain ⟨r, hr, hplan⟩ := Option.map_eq_some_iff.mp hrun
  obtain ⟨plan, hok, hpath⟩ := Option.map_eq_some_iff.mp hplan
  cases r with
  | error e => cases hok
  | ok result =>
    obtain rfl : result = plan := Option.some.inj hok
    exact ⟨result, ⟨20, hr⟩, hpath, scopeLaw_iff ⟨20, hr⟩⟩

/-- A module beside a configuration with a fragment below it, resolved to the configuration. -/
def configurationModule : ElementTree where
  nodes := [fixtureNode 1 none "TestPlan" [2, 5], fixtureNode 2 (some 1) "Arguments" [3],
    fixtureNode 3 (some 2) "TestFragmentController" [4], fixtureNode 4 (some 3) "DebugSampler" [],
    moduleNode 5 (some 1) 2 []]
  roots := [1]
  sorted := by decide

/-- The configuration is in scope beside the module and again as its target. -/
theorem configurationModule_scoped_twice : ∃ plan,
    (builtinCompiler.compile configurationModule).Returns (.ok plan) ∧
      ¬ ScopeLaw builtinCompiler configurationModule plan := by
  have hrun : ((builtinCompiler.compile configurationModule).run 20).map
      (fun r => r.toOption.map fun plan => (plan.get 4).map fun package =>
        package.configurationComponents.map nodeId) =
      some (some (some [2, 2])) := by decide +kernel
  obtain ⟨r, hr, hplan⟩ := Option.map_eq_some_iff.mp hrun
  obtain ⟨plan, hok, hpackage⟩ := Option.map_eq_some_iff.mp hplan
  obtain ⟨package, hget, hids⟩ := Option.map_eq_some_iff.mp hpackage
  cases r with
  | error e => cases hok
  | ok result =>
    obtain rfl : result = plan := Option.some.inj hok
    refine ⟨result, ⟨20, hr⟩, fun hlaw => ?_⟩
    obtain ⟨b, bs, hreach⟩ := (hlaw.package_iff 4).mp ⟨package, hget⟩
    have honce := hlaw.once hreach hget .configuration
    rw [ScopePlan.components, hids] at honce
    exact absurd honce (by decide)

end JmeterRs.Scope
