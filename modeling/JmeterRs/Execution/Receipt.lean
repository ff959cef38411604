import JmeterRs.Execution.Commit

/-!
# The digest in the receipt of a commit

The receipt of a commit has the digest of the candidate, computed when the delta was staged.  The
commit publishes the candidate but for its properties: these are changed in place, and each change
gets a new version.  So the digest is the one of the state after the commit only if no property is
changed, by the delta or by a peer in between.
-/

namespace JmeterRs.Execution

open Std ExecutionContext

variable {P : Payload}

/-- Versions are assigned from the epoch, which has passed `start`. -/
structure SharedProperties.Versioned (start : ℕ) (shared : SharedProperties) : Prop where
  epoch : start ≤ shared.propertyEpoch
  version_le : ∀ (key : String) version, shared.propertyVersions[key]? = some version →
    version ≤ shared.propertyEpoch

theorem versions_all (mutations : List PropertyMutation) (version : ℕ)
    (s : SharedProperties × PropertyTransaction) (key : String) :
    (∀ mutation ∈ mutations, mutation.key ≠ key) ∧
        (publishAll mutations version s).1.propertyVersions[key]? = s.1.propertyVersions[key]? ∨
      ∃ new, (publishAll mutations version s).1.propertyVersions[key]? = some new ∧
        version < new ∧ new ≤ version + mutations.length := by
  induction mutations generalizing version s with
  | nil => exact .inl ⟨by simp, rfl⟩
  | cons mutation rest ih =>
    rw [publishAll]
    obtain ⟨hrest, heq⟩ | ⟨new, heq, hlt, hle⟩ := ih (version + 1) _
    · rw [heq]
      simp only [publishWrite, SharedProperties.put, ExtTreeMap.getElem?_insert,
        Std.LawfulEqCmp.compare_eq_iff_eq, List.forall_mem_cons, List.length_cons]
      grind
    · exact .inr ⟨new, heq, by omega, by simp; omega⟩

section

variable {start : ℕ} {shared : SharedProperties} (h : shared.Versioned start)

include h

theorem versioned_all (mutations : List PropertyMutation) (transaction : PropertyTransaction) :
    (shared.published mutations transaction).Versioned start := by
  refine ⟨Nat.le_trans h.epoch (Nat.le_add_right ..), fun key version hkey => ?_⟩
  obtain ⟨-, heq⟩ | ⟨new, heq, -, hle⟩ :=
    versions_all mutations shared.propertyEpoch (shared, transaction) key
  · exact Nat.le_trans (h.version_le key version (heq.symm.trans hkey)) (Nat.le_add_right ..)
  · cases heq.symm.trans hkey
    exact hle

theorem versioned_op (context : ExecutionContext P) (op : ContextOp P) :
    (context.perform shared op).2.Versioned start := by
  cases op with
  | setVariable name value | variablesMut change | setRequestState request => exact h
  | setProperty name value =>
    simp only [ExecutionContext.perform, setPropertyValue]
    cases hadd : checkedAdd u64Max shared.propertyEpoch 1 with
    | none => exact ⟨h.epoch, h.version_le⟩
    | some version =>
      obtain ⟨rfl, -⟩ := checkedAdd_some.mp hadd
      exact versioned_all h [⟨name, some value⟩] context.propertyTransaction
  | commit staged =>
    obtain ⟨error, noted, heq⟩ | ⟨receipt, transaction, heq, -⟩ :=
      staged_cases context shared staged
    · simp only [ExecutionContext.perform, heq]
      exact ⟨h.epoch, h.version_le⟩
    · simp only [ExecutionContext.perform, heq]
      exact versioned_all h ..

end

theorem versioned_run {start : ℕ} {w : Contexts P} (h : w.shared.Versioned start)
    (ops : List (ℕ × ContextOp P)) : (w.run ops).shared.Versioned start := by
  induction ops generalizing w with
  | nil => exact h
  | cons op ops ih => exact ih (w := w.step op.1 op.2) (versioned_op h (w.users op.1) op.2)

/-- What the digest of a stage covers. -/
theorem candidate_of_stage {w : Contexts P} {user : ℕ} {delta : P.Delta}
    {staged : StagedInvocation P} (h : w.stage user delta = .ok staged) :
    staged.afterStateDigest = P.stateDigest staged.candidate ∧
      staged.candidate.generation = (w.users user).contextGeneration + 1 ∧
      staged.candidate.properties = applyTextMutations delta.properties w.shared.properties ∧
      staged.candidate.propertyVersions = w.shared.propertyVersions := by
  unfold Contexts.stage validateAndStageInvocation at h
  cases herror : w.shared.propertyGenerationError with
  | some error => simp [herror] at h
  | none =>
    simp only [herror, validateAndStage, ite_error_ok, bind_ok] at h
    obtain ⟨-, -, -, -, -, -, generation, hgen, ⟨candidate, signal⟩, hcand, -, -, -, -, -, -, -, -,
      hstaged⟩ := h
    simp only [candidateOf, ite_error_ok, bind_ok] at hcand
    obtain ⟨vars, -, properties, hprop, request, -, -, result, -, _, -, hpair⟩ := hcand
    cases hpair
    cases hstaged
    exact ⟨rfl, checkedNext_ok hgen, stageTexts_ok hprop, rfl⟩

section

variable {w before after : Contexts P} {user : ℕ} {delta : P.Delta} {staged : StagedInvocation P}
  {receipt : InvocationCommit} {spent : StagedInvocation P}

/-- The candidate is the state after the commit only if no property was changed. -/
theorem candidate_eq_iff (hstaged : w.stage user delta = .ok staged)
    (hver : w.shared.Versioned 0) (hver' : before.shared.Versioned w.shared.propertyEpoch)
    (hcom : before.commit user staged = (.ok receipt, after, spent)) :
    staged.candidate = (after.users user).snapshotProcessorInvocation after.shared ↔
      delta.properties = [] ∧ before.shared.properties = w.shared.properties ∧
        before.shared.propertyVersions = w.shared.propertyVersions := by
  obtain ⟨-, hgen, hprop, hvers⟩ := candidate_of_stage hstaged
  have hfrom := stagedFrom_of_stage hstaged
  obtain ⟨error, w', hcases, -⟩ | ⟨receipt', transaction, after', hcases, huser, hshared,
      hbase, -⟩ :=
    commit_cases before user staged
  · rw [hcases] at hcom
    cases hcom
  · rw [hcases] at hcom
    cases hcom
    simp only [huser, hshared, snapshotProcessorInvocation, publish, hfrom.propertyMutations]
    constructor
    · intro heq
      have hvers' := hvers.symm.trans (congrArg MutationState.propertyVersions heq)
      cases hdelta : delta.properties with
      | nil =>
        rw [hdelta] at heq hprop hvers'
        exact ⟨rfl, (hprop.symm.trans (congrArg MutationState.properties heq)).symm, hvers'.symm⟩
      | cons mutation rest =>
        -- the version of a property that is set is newer than those of the candidate
        obtain ⟨hrest, -⟩ | ⟨new, hnew, hlt, -⟩ := versions_all delta.properties
          before.shared.propertyEpoch (before.shared, (before.users user).propertyTransaction)
          mutation.key
        · exact absurd rfl (hrest mutation (by simp [hdelta]))
        · have hle := hver.version_le mutation.key new (by rw [hvers']; exact hnew)
          have := hver'.epoch
          omega
    · rintro ⟨hdelta, hsame, hsame'⟩
      rw [hdelta] at hprop ⊢
      have hnext : (before.users user).contextGeneration + 1 = staged.candidate.generation := by
        rw [hgen, ← hbase, hfrom.baseGeneration]
        rfl
      have hprop' : staged.candidate.properties = w.shared.properties := hprop
      change _ = MutationState.mk _ _ before.shared.properties before.shared.propertyVersions _ _
      rw [hsame, hsame', hnext, ← hvers, ← hprop']

/-- The contexts of a run that started with these properties. -/
def Contexts.Reached (w : Contexts P) : Prop :=
  ∃ properties users ops, w = (⟨.initial properties, users⟩ : Contexts P).run ops

theorem Contexts.Reached.versioned (h : w.Reached) : w.shared.Versioned 0 := by
  obtain ⟨properties, users, ops, rfl⟩ := h
  exact versioned_run ⟨Nat.zero_le _, by simp [SharedProperties.initial]⟩ ops

/-- The hash does not collide on two states. -/
def Payload.NoCollision (P : Payload) (a b : P.State) : Prop :=
  P.stateDigest a = P.stateDigest b → a = b

/-- **The digest of a receipt.**  Unless the hash collides, it is the one of the state after the
commit exactly if the delta changes no property and the properties and their versions are as they
were at staging. -/
theorem receipt_digest_iff (hw : w.Reached) (hstaged : w.stage user delta = .ok staged)
    (ops : List (ℕ × ContextOp P))
    (hcommit : (w.run ops).commit user staged = (.ok receipt, after, spent))
    (hfree : P.NoCollision staged.candidate
      ((after.users user).snapshotProcessorInvocation after.shared)) :
    receipt.afterStateDigest =
        P.stateDigest ((after.users user).snapshotProcessorInvocation after.shared) ↔
      delta.properties = [] ∧ (w.run ops).shared.properties = w.shared.properties ∧
        (w.run ops).shared.propertyVersions = w.shared.propertyVersions := by
  have hdigest : receipt.afterStateDigest = P.stateDigest staged.candidate := by
    obtain ⟨error, w', hcases, -⟩ | ⟨receipt', transaction, after', hcases, -, -, -, heq⟩ :=
      commit_cases (w.run ops) user staged
    · rw [hcases] at hcommit
      cases hcommit
    · rw [hcases] at hcommit
      cases hcommit
      exact heq.trans (candidate_of_stage hstaged).1
  have hver' := versioned_run ⟨Nat.le_refl _, hw.versioned.version_le⟩ ops
  rw [hdigest, ← candidate_eq_iff hstaged hw.versioned hver' hcommit]
  exact ⟨hfree, congrArg P.stateDigest⟩

end

theorem receipt_digest_deltaSettingA : ∃ staged, freshContexts.stage 0 deltaSettingA = .ok staged ∧
      ∃ receipt after spent, (freshContexts.run [(0, .setVariable "b" "2")]).commit 0 staged =
          (.ok receipt, after, spent) ∧ receipt.afterStateDigest = plainPayload.stateDigest
          ((after.users 0).snapshotProcessorInvocation after.shared) := by
  obtain ⟨staged, hstaged, receipt, after, spent, hcommit⟩ :=
    staged_deltaSettingA (show 0 < 2 by decide)
  have hreached : freshContexts.Reached := ⟨∅, _, [], rfl⟩
  have hsame := (candidate_eq_iff hstaged hreached.versioned
    (versioned_run ⟨Nat.le_refl _, hreached.versioned.version_le⟩ _) hcommit).mpr ⟨rfl, rfl, rfl⟩
  exact ⟨staged, hstaged, receipt, after, spent, hcommit,
    (receipt_digest_iff hreached hstaged _ hcommit fun _ => hsame).mpr ⟨rfl, rfl, rfl⟩⟩

/-! ## A property that is set -/

def deltaSettingProperty : plainPayload.Delta :=
  { deltaSettingA with vars := [], properties := [⟨"a", some "1"⟩] }

/-- The digest of the receipt misses the version that the commit has assigned. -/
theorem receipt_digest_of_property_set :
    ∃ staged, freshContexts.stage 0 deltaSettingProperty = .ok staged ∧
      ∃ receipt after spent, freshContexts.commit 0 staged = (.ok receipt, after, spent) ∧
        receipt.afterStateDigest ≠ plainPayload.stateDigest
          ((after.users 0).snapshotProcessorInvocation after.shared) := by
  have h : (match freshContexts.stage 0 deltaSettingProperty with
      | .ok staged => match freshContexts.commit 0 staged with
        | (.ok receipt, after, _) => decide (receipt.afterStateDigest ≠ plainPayload.stateDigest
          ((after.users 0).snapshotProcessorInvocation after.shared))
        | (.error _, _) => false
      | .error _ => false) = true := by decide +kernel
  cases hstaged : freshContexts.stage 0 deltaSettingProperty with
  | error error => simp [hstaged] at h
  | ok staged =>
    rcases hcommit : freshContexts.commit 0 staged with ⟨outcome, after, spent⟩
    cases outcome with
    | error error => simp [hstaged, hcommit] at h
    | ok receipt =>
      simp only [hstaged, hcommit, decide_eq_true_eq] at h
      exact ⟨staged, rfl, receipt, after, spent, hcommit, h⟩

end JmeterRs.Execution
