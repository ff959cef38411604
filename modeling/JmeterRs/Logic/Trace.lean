import JmeterRs.Controllers.Denote
import JmeterRs.Logic.Runner

/-!
# Loop entries and their visits

The trees that `ControllerRunner` and `LogicRunner` have in common, and the trace of a traversal:
the samples, and for each entry of a Loop controller where it begins, visits its children again
and ends.  `trace` is a recursive semantics with a parameter for how many visits an entry makes.
With the visits the count asks for it is the meaning of the tree; with those the marker of the
logic runner makes, which starts at the iteration inherited from the enclosing loop, it is what
that runner does.  `compares_trace` compares the two: they agree, and every entry makes the visits
of its count, unless a Loop of two or more visits is entered in a later iteration of a loop
around it.
-/

namespace JmeterRs.Logic

open Controllers Emit List Emit

/-! ## The common trees -/

mutual

/-- Only samplers, Simple, finite Loop, OnceOnly and Interleave controllers. -/
def isBasic : ControllerNode → Bool
  | .sample _ => true
  | .simple _ children | .loop _ (.finite _) children | .onceOnly _ children
  | .interleave _ children => isBasicList children
  | .loop _ .forever _ | .disabled _ _ | .random _ _ _ | .randomOrder _ _ _
  | .unsupported _ _ => false

def isBasicList : List ControllerNode → Bool
  | [] => true
  | node :: nodes => isBasic node && isBasicList nodes

end

mutual

/-- The corresponding logic tree.  The nodes outside the common trees do not matter. -/
def toLogic : ControllerNode → LogicNode
  | .sample id => .sample id
  | .simple id children => .sequence id (toLogicList children)
  | .loop id count children => .loop id count (toLogicList children)
  | .onceOnly id children => .onceOnly id (toLogicList children)
  | .interleave id children => .interleave id (toLogicList children)
  | .disabled id _ | .random id _ _ | .randomOrder id _ _ | .unsupported id _ => .sequence id []

def toLogicList : List ControllerNode → List LogicNode
  | [] => []
  | node :: nodes => toLogic node :: toLogicList nodes

end

theorem toLogicList_map (nodes : List ControllerNode) : toLogicList nodes = nodes.map toLogic := by
  induction nodes with
  | nil => rfl
  | cons node nodes ih => rw [toLogicList, ih, map_cons]

theorem isBasic_of_mem {children : List ControllerNode} {child : ControllerNode}
    (h : isBasicList children = true) (hmem : child ∈ children) : isBasic child = true := by
  induction children with
  | nil => cases hmem
  | cons first rest ih =>
    rw [isBasicList, Bool.and_eq_true] at h
    rcases mem_cons.mp hmem with rfl | hmem
    · exact h.1
    · exact ih h.2 hmem

/-! ## Traces -/

/-- What a traversal shows: its samples, and for each entry of a Loop controller the entry with
the count and the iteration inherited from around it, every further visit of the children, and
the end. -/
inductive LoopEvent
  | sample (id : ElementId)
  | entered (id : ElementId) (count inherited : ℕ)
  | again (id : ElementId)
  | left (id : ElementId)
  deriving DecidableEq, Repr

open LoopEvent

def LoopEvent.sampleId : LoopEvent → Option ElementId
  | .sample id => some id
  | _ => none

def samples (events : List LoopEvent) : List ElementId := events.filterMap sampleId

theorem samples_append (a b : List LoopEvent) : samples (a ++ b) = samples a ++ samples b :=
  filterMap_append

/-- A Loop entry that is still open: its controller, its count and the visits so far. -/
structure OpenLoop where
  id : ElementId
  count : ℕ
  visits : ℕ

/-- Follows a trace with the Loop entries that are open, innermost first, and checks at the end of
each that it has made as many visits as its count asks for. -/
def checkVisits : List OpenLoop → List LoopEvent → Bool
  | loops, [] => loops.isEmpty
  | loops, .sample _ :: events => checkVisits loops events
  | loops, .entered id count _ :: events =>
    -- a count of zero makes no visit and leaves no marker
    if count = 0 then checkVisits loops events
    else checkVisits (⟨id, count, 1⟩ :: loops) events
  | [], .again _ :: _ => false
  | loop :: loops, .again id :: events =>
    loop.id = id && checkVisits ({ loop with visits := loop.visits + 1 } :: loops) events
  | [], .left _ :: _ => false
  | loop :: loops, .left id :: events =>
    loop.id = id && loop.visits = loop.count && checkVisits loops events

/-- Every Loop entry of the trace visits its children exactly as often as its count says. -/
def exactVisits (events : List LoopEvent) : Bool := checkVisits [] events

/-- A Loop of two or more visits entered in a later iteration of a loop around it. -/
def LoopEvent.isLate : LoopEvent → Bool
  | .entered _ count inherited => 2 ≤ count && 1 ≤ inherited
  | _ => false

/-- No Loop entry of the trace is late. -/
def NoLate (events : List LoopEvent) : Prop := ∀ e ∈ events, e.isLate = false

/-! ## The recursive semantics -/

/-- Moves an Interleave controller to its next turn with `saturating_add`. -/
def turnSaturating (m : Memory) (id : ElementId) : Memory :=
  { m with
    interleaveNext :=
      Function.update m.interleaveNext id (some (saturatingAdd usizeMax (m.cursor id) 1)) }

/-- A visit in an iteration. -/
abbrev IterationVisit := ℕ → Emit Memory LoopEvent

/-- All of a list of visits, in order. -/
def together (visits : List IterationVisit) : IterationVisit := fun i => .all (visits.map (· i))

/-- The visits of one Loop entry, from the iteration `start` on. -/
def rounds (id : ElementId) (body : IterationVisit) (start : ℕ) : ℕ → Emit Memory LoopEvent
  | 0 => .nothing
  | 1 => (body start).andThen (.emit (.left id))
  | n + 2 => (body start).andThen ((emit (.again id)).andThen (rounds id body (start + 1) (n + 1)))

section

variable (visits : ℕ → ℕ → ℕ)

mutual

/-- The trace of a tree in the iteration inherited from around it.  A Loop of count `n` entered in
the iteration `i` makes `visits i n` visits, numbered from `i`. -/
def trace : ControllerNode → IterationVisit
  | .sample id => fun _ => .emit (.sample id)
  | .simple _ children => together (traceAll children)
  | .loop id (.finite count) children => fun i =>
    (emit (.entered id count.toNat i)).andThen
      (rounds id (together (traceAll children)) i (visits i count.toNat))
  | .onceOnly id children => fun i m =>
    if id ∈ m.onceDone then ([], m) else together (traceAll children) i (m.mark id)
  | .interleave id children => fun i m =>
    if children.length = 0 then ([], m)
    else
      (traceAll children).getD (m.cursor id % children.length) (fun _ => .nothing) i
        (turnSaturating m id)
  | .loop _ .forever _ | .disabled _ _ | .random _ _ _ | .randomOrder _ _ _
  | .unsupported _ _ => fun _ => .nothing

def traceAll : List ControllerNode → List IterationVisit
  | [] => []
  | node :: nodes => trace node :: traceAll nodes

end

variable {nodes : List ControllerNode}

theorem traceAll_eq_map : traceAll visits nodes = nodes.map (trace visits) := by
  induction nodes with
  | nil => rfl
  | cons node nodes ih => rw [traceAll, ih, map_cons]

theorem traceAll_getD {index : ℕ} (h : index < nodes.length) {default : IterationVisit} :
    (traceAll visits nodes).getD index default = trace visits nodes[index] := by
  rw [traceAll_eq_map, getD_eq_getElem?_getD, getElem?_map, getElem?_eq_getElem h]
  rfl

end

/-- The visits a Loop controller is to make. -/
def fullVisits (_ count : ℕ) : ℕ := count

/-- The visits the marker of the logic runner makes, which counts on from the inherited
iteration. -/
def markerVisits (inherited count : ℕ) : ℕ := if count = 0 then 0 else max 1 (count - inherited)

/-! ## Comparison -/

/-- A trace that neither opens nor closes an entry around it, and whose own entries are exact. -/
def Passes (events : List LoopEvent) : Prop :=
  ∀ loops rest, checkVisits loops (events ++ rest) = checkVisits loops rest

/-- A trace with an entry that is not exact. -/
def Blocks (events : List LoopEvent) : Prop :=
  ∀ loops rest, checkVisits loops (events ++ rest) = false

/-- What one visit of the logic runner shows and leaves, against what it should. -/
def Compared (logic full : List LoopEvent × Memory) : Prop :=
  (NoLate full.1 ∧ logic = full ∧ Passes logic.1) ∨ (¬ NoLate full.1 ∧ Blocks logic.1)

/-- Two computations compared from every memory. -/
def Compares (logic full : Emit Memory LoopEvent) : Prop := ∀ m, Compared (logic m) (full m)

theorem noLate_append {a b : List LoopEvent} : NoLate (a ++ b) ↔ NoLate a ∧ NoLate b :=
  forall_mem_append

theorem noLate_cons {e : LoopEvent} {es : List LoopEvent} :
    NoLate (e :: es) ↔ e.isLate = false ∧ NoLate es :=
  forall_mem_cons

theorem noLate_nil : NoLate [] := by simp [NoLate]

theorem compared_refl {x : List LoopEvent × Memory} (h : NoLate x.1) (hp : Passes x.1) :
    Compared x x := .inl ⟨h, rfl, hp⟩

theorem passes_nil : Passes [] := fun _ _ => rfl

theorem compares_nothing : Compares .nothing .nothing :=
  fun _ => compared_refl noLate_nil passes_nil

variable {id : ElementId} {body : IterationVisit} {body' : IterationVisit} {inherited count : ℕ}

theorem compares_sample : Compares (.emit (.sample id)) (.emit (.sample id)) := by
  intro m
  refine compared_refl ?_ fun loops rest => rfl
  intro e he
  rw [mem_singleton.mp he]
  rfl

/-- The first part is compared; the second only matters if it agrees. -/
theorem Compared.andThen {f f' g g' : Emit Memory LoopEvent} {m : Memory}
    (hf : Compared (f m) (f' m)) (hg : Compares g g') :
    Compared (f.andThen g m) (f'.andThen g' m) := by
  rcases hf with ⟨hlate, heq, hpass⟩ | ⟨hlate, hblock⟩
  · have hg := hg (f m).2
    rcases hg with ⟨hlate', heq', hpass'⟩ | ⟨hlate', hblock'⟩
    · refine .inl ⟨?_, ?_, ?_⟩
      · rw [andThen_fst, ← heq]
        exact noLate_append.mpr ⟨heq ▸ hlate, hlate'⟩
      · unfold Emit.andThen
        rw [← heq, heq']
      · intro loops rest
        rw [andThen_fst, append_assoc, hpass, hpass']
    · refine .inr ⟨?_, ?_⟩
      · rw [andThen_fst, ← heq, noLate_append]
        exact fun h => hlate' h.2
      · intro loops rest
        rw [andThen_fst, append_assoc, hpass, hblock']
  · refine .inr ⟨?_, ?_⟩
    · rw [andThen_fst, noLate_append]
      exact fun h => hlate h.1
    · intro loops rest
      rw [andThen_fst, append_assoc, hblock]

theorem compares_all {fs gs : List (Emit Memory LoopEvent)} (h : List.Forall₂ Compares fs gs) :
    Compares (.all fs) (.all gs) := by
  induction h with
  | nil => exact compares_nothing
  | cons hfg _ ih => exact fun m => (hfg m).andThen ih

/-! ### One Loop entry -/

/-- The visits of an entry compared inside it: with `visits` made so far the end is accepted when
the visits of the entry add up to the count. -/
def EntryCompared (id : ElementId) (n : ℕ) (logic full : List LoopEvent × Memory) : Prop :=
  (NoLate full.1 ∧ logic = full ∧ ∀ count visits loops rest,
    checkVisits (⟨id, count, visits⟩ :: loops) (logic.1 ++ rest) =
      (decide (visits + n = count + 1) && checkVisits loops rest)) ∨
  (¬ NoLate full.1 ∧ ∀ count visits loops rest,
    checkVisits (⟨id, count, visits⟩ :: loops) (logic.1 ++ rest) = false)

theorem rounds_succ_succ (start n : ℕ) : rounds id body start (n + 2) = (body start).andThen
      ((emit (.again id)).andThen (rounds id body (start + 1) (n + 1))) := rfl

/-- A body in front of the rest of an entry. -/
theorem entry_andThen {n : ℕ} {f f' g g' : Emit Memory LoopEvent} (hf : Compares f f')
    (hg : ∀ m, EntryCompared id n (g m) (g' m)) {m : Memory} :
    EntryCompared id n (f.andThen g m) (f'.andThen g' m) := by
  rcases hf m with ⟨hlate, heq, hpass⟩ | ⟨hlate, hblock⟩
  · rcases hg (f m).2 with ⟨hlate', heq', hcheck⟩ | ⟨hlate', hcheck⟩
    · refine .inl ⟨?_, ?_, ?_⟩
      · rw [andThen_fst, ← heq]
        exact noLate_append.mpr ⟨heq ▸ hlate, hlate'⟩
      · unfold Emit.andThen
        rw [← heq, heq']
      · intro count visits loops rest
        rw [andThen_fst, append_assoc, hpass, hcheck]
    · refine .inr ⟨?_, ?_⟩
      · rw [andThen_fst, ← heq, noLate_append]
        exact fun h => hlate' h.2
      · intro count visits loops rest
        rw [andThen_fst, append_assoc, hpass, hcheck]
  · refine .inr ⟨?_, ?_⟩
    · rw [andThen_fst, noLate_append]
      exact fun h => hlate h.1
    · intro count visits loops rest
      rw [andThen_fst, append_assoc, hblock]

theorem entry_rounds (id : ElementId) (hbody : ∀ i, Compares (body i) (body' i))
    (n start : ℕ) (m : Memory) : EntryCompared id (n + 1) (rounds id body start (n + 1) m)
      (rounds id body' start (n + 1) m) := by
  induction n generalizing start m with
  | zero =>
    refine entry_andThen (hbody start) (fun m => .inl ⟨?_, rfl, ?_⟩)
    · exact noLate_cons.mpr ⟨rfl, noLate_nil⟩
    · intro count visits loops rest
      simp [emit, checkVisits]
  | succ n ih =>
    refine entry_andThen (hbody start) (fun m => ?_)
    have hagain {e : Emit Memory LoopEvent} :
        ((emit (.again id)).andThen e m).1 = .again id :: (e m).1 := rfl
    rcases ih (start + 1) m with ⟨hlate, heq, hcheck⟩ | ⟨hlate, hcheck⟩
    · refine .inl ⟨?_, ?_, ?_⟩
      · rw [hagain]
        exact noLate_cons.mpr ⟨rfl, hlate⟩
      · show (again id :: _, _) = (again id :: _, _)
        simp only [emit, heq]
      · intro count visits loops rest
        rw [hagain, cons_append, checkVisits, hcheck]
        simp only [decide_true, Bool.true_and]
        congr 2
        simp only [eq_iff_iff]
        omega
    · refine .inr ⟨?_, ?_⟩
      · rw [hagain, noLate_cons]
        exact fun h => hlate h.2
      · intro count visits loops rest
        rw [hagain, cons_append, checkVisits, hcheck, Bool.and_false]

theorem markerVisits_eq (h : (entered id count inherited).isLate = false) :
    markerVisits inherited count = count := by
  simp only [isLate, Bool.and_eq_false_iff, decide_eq_false_iff_not, not_le] at h
  unfold markerVisits
  split_ifs <;> omega

theorem markerVisits_ne {id : ElementId} (h : (entered id count inherited).isLate = true) :
    ∃ n, markerVisits inherited count = n + 1 ∧ n + 1 ≠ count := by
  simp only [isLate, Bool.and_eq_true, decide_eq_true_eq] at h
  refine ⟨max 1 (count - inherited) - 1, ?_, by omega⟩
  unfold markerVisits
  rw [if_neg (by omega)]
  omega

/-- A Loop entry agrees exactly when it is not late and its bodies agree. -/
theorem compares_entry (hbody : ∀ i, Compares (body i) (body' i)) (i : ℕ) : Compares
      ((emit (.entered id count i)).andThen (rounds id body i (markerVisits i count)))
      ((emit (.entered id count i)).andThen (rounds id body' i (fullVisits i count))) := by
  intro m
  have hent {e : Emit Memory LoopEvent} :
      ((emit (.entered id count i)).andThen e m).1 = .entered id count i :: (e m).1 := rfl
  cases hlate : (entered id count i).isLate with
  | true =>
    obtain ⟨n, hn, hne⟩ := @markerVisits_ne i count id hlate
    have hcount : count ≠ 0 := by
      rintro rfl
      simp [isLate] at hlate
    refine .inr ⟨?_, ?_⟩
    · rw [hent, noLate_cons, hlate]
      exact fun h => Bool.noConfusion h.1
    · intro loops rest
      rw [hent, cons_append, checkVisits, if_neg hcount, hn]
      rcases entry_rounds id hbody n i m with ⟨-, -, hcheck⟩ | ⟨-, hcheck⟩
      · rw [hcheck, decide_eq_false (by omega), Bool.false_and]
      · exact hcheck ..
  | false =>
    rw [markerVisits_eq hlate, fullVisits]
    obtain _ | n := count
    · refine compared_refl ?_ fun loops rest => ?_
      · rw [hent]
        exact noLate_cons.mpr ⟨hlate, noLate_nil⟩
      · rw [hent, cons_append, checkVisits, if_pos rfl]
        rfl
    · rcases entry_rounds id hbody n i m with ⟨hlate', heq, hcheck⟩ | ⟨hlate', hcheck⟩
      · refine .inl ⟨?_, ?_, ?_⟩
        · rw [hent]
          exact noLate_cons.mpr ⟨hlate, hlate'⟩
        · show (entered id (n + 1) i :: _, _) = (entered id (n + 1) i :: _, _)
          simp only [emit, heq]
        · intro loops rest
          rw [hent, cons_append, checkVisits, if_neg (Nat.succ_ne_zero n), hcheck,
            decide_eq_true (by omega), Bool.true_and]
      · refine .inr ⟨?_, ?_⟩
        · rw [hent, noLate_cons]
          exact fun h => hlate' h.2
        · intro loops rest
          rw [hent, cons_append, checkVisits, if_neg (Nat.succ_ne_zero n), hcheck]

/-- **The logic runner against the count of every Loop.** -/
theorem compares_trace {tree : ControllerNode} (i : ℕ) :
    Compares (trace markerVisits tree i) (trace fullVisits tree i) := by
  induction tree using ControllerNode.induct_children generalizing i with
  | step node ih =>
    have htog (children : List ControllerNode) (hs : sourceChildren node = some children)
        (j : ℕ) : Compares (together (traceAll markerVisits children) j)
          (together (traceAll fullVisits children) j) := by
      refine compares_all ?_
      rw [traceAll_eq_map, traceAll_eq_map, map_map, map_map]
      exact forall₂_map_left_iff.mpr (forall₂_map_right_iff.mpr
        (forall₂_same.mpr fun child hchild => ih children hs child hchild j))
    cases node with
    | sample id => exact compares_sample
    | simple id children => exact htog children rfl i
    | loop id count children =>
      cases count with
      | finite count => exact compares_entry (htog children rfl) i
      | forever => exact compares_nothing
    | onceOnly id children =>
      intro m
      unfold trace
      split_ifs
      · exact compared_refl noLate_nil passes_nil
      · exact htog children rfl i (m.mark id)
    | interleave id children =>
      intro m
      unfold trace
      split_ifs with hlen
      · exact compared_refl noLate_nil passes_nil
      · have hlt : m.cursor id % children.length < children.length :=
          Nat.mod_lt _ (Nat.pos_of_ne_zero hlen)
        rw [traceAll_getD _, traceAll_getD _]
        exact ih children rfl _ (getElem_mem hlt) i (turnSaturating m id)
    | disabled id children | random id seed children | randomOrder id seed children
    | unsupported id kind => exact compares_nothing

end JmeterRs.Logic
