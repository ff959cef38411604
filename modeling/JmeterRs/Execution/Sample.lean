import JmeterRs.Execution.Commit

/-!
# The context of a sampler invocation

The components of a sampler change the invocation through its context.  Before a component runs the
pipeline takes a checkpoint; a rollback puts back everything the context owns, and those shared
properties that nobody else has written in the meantime.
-/

namespace JmeterRs.Execution

open Std
open Controllers (ControlSignal)

/-- What an invocation owns of the state a component may change. -/
structure Owned (P : Payload) where
  vars : ExtTreeMap String String
  request : ExtTreeMap String String
  requestState : P.Request
  executionRequestState : P.Request
  result : Option P.Result
  contextGeneration : ℕ
  executionResult : Option P.Result
  mutationOutputs : List (List UInt8)
  mutationDiagnostics : List MutationDiagnostic

structure InvocationCheckpoint (P : Payload) extends Owned P where
  properties : PropertyCheckpoint

structure SampleContext (P : Payload) where
  execution : ExecutionContext P
  request : ExtTreeMap String String
  requestState : P.Request
  result : Option P.Result

structure Settings where
  deadline : Option ℕ
  /-- The multiplication by the timer factor, `none` if the product is no duration. -/
  scaleTimerDelay : ℕ → Option ℕ
  sampleVariables : List String
  identity : EventIdentity
  groupThreads : Option ℕ
  allThreads : Option ℕ
  maxTraceEvents : ℕ
  maxTraceDetailBytes : ℕ

/-- What a component can do through its context. -/
inductive ComponentOp (P : Payload)
  | context (op : ContextOp P)
  | configure (settings : Settings)
  | setMutationLimits (limits : MutationLimits)
  | requestControl (signal : ControlSignal)
  | setRequestValue (name value : String)
  | setRequestState (request : P.Request)
  | setResult (result : Option P.Result)
  | commit (staged : StagedInvocation P)

/-- `set_mutation_limits`: limits with a zero are refused. -/
def MutationLimits.Valid (limits : MutationLimits) : Prop :=
  0 < limits.maxMutations ∧ 0 < limits.maxValueBytes ∧ 0 < limits.maxResultDepth ∧
    0 < limits.maxResultNodes ∧ 0 < limits.maxRequestBytes ∧ 0 < limits.maxDiagnostics ∧
    0 < limits.maxDiagnosticBytes ∧ 0 < limits.maxOutputs ∧ 0 < limits.maxOutputBytes

instance (limits : MutationLimits) : Decidable limits.Valid := inferInstanceAs (Decidable (_ ∧ _))

def ExecutionContext.requestControl {P : Payload} (context : ExecutionContext P)
    (signal : ControlSignal) : ExecutionContext P :=
  { context with
    cancellation := context.cancellation.request signal
    cancellationToken := context.cancellationToken.request signal }

namespace SampleContext

variable {P : Payload}

def new (execution : ExecutionContext P) : SampleContext P :=
  ⟨execution, ∅, execution.requestState, none⟩

def owned (sample : SampleContext P) : Owned P where
  vars := sample.execution.vars
  request := sample.request
  requestState := sample.requestState
  executionRequestState := sample.execution.requestState
  result := sample.result
  contextGeneration := sample.execution.contextGeneration
  executionResult := sample.execution.currentResult
  mutationOutputs := sample.execution.mutationOutputs
  mutationDiagnostics := sample.execution.mutationDiagnostics

/-- Puts back what the invocation owned. -/
def restore (sample : SampleContext P) (owned : Owned P) : SampleContext P where
  execution :=
    { sample.execution with
      vars := owned.vars
      requestState := owned.executionRequestState
      currentResult := owned.executionResult
      contextGeneration := owned.contextGeneration
      mutationOutputs := owned.mutationOutputs
      mutationDiagnostics := owned.mutationDiagnostics }
  request := owned.request
  requestState := owned.requestState
  result := owned.result

def setTransaction (sample : SampleContext P) (propertyTransaction : PropertyTransaction) :
    SampleContext P :=
  { sample with execution := { sample.execution with propertyTransaction } }

def checkpoint (sample : SampleContext P) (shared : SharedProperties) :
    InvocationCheckpoint P × SampleContext P :=
  let (properties, transaction) := checkpointProperties shared
  ({ sample.owned with properties }, sample.setTransaction transaction)

def rollback (sample : SampleContext P) (shared : SharedProperties)
    (checkpoint : InvocationCheckpoint P) : SampleContext P × SharedProperties :=
  let (shared, transaction) :=
    rollbackProperties shared sample.execution.propertyTransaction checkpoint.properties
  ((sample.restore checkpoint.toOwned).setTransaction transaction, shared)

/-- `SampleContext::commit_staged_invocation`: a commit that succeeds is also shown here. -/
def commitStagedInvocation (sample : SampleContext P) (shared : SharedProperties)
    (staged : StagedInvocation P) : SampleContext P × SharedProperties :=
  match sample.execution.commitStagedInvocation shared staged with
  | (.ok _, execution, shared, _) =>
    ({ sample with
        execution
        requestState := staged.candidate.request
        result := staged.candidate.result }, shared)
  | (.error _, execution, shared, _) => ({ sample with execution }, shared)

def perform (sample : SampleContext P) (shared : SharedProperties) :
    ComponentOp P → SampleContext P × SharedProperties
  | .context op =>
    let (execution, shared) := sample.execution.perform shared op
    ({ sample with execution }, shared)
  | .configure _ => (sample, shared)
  | .setMutationLimits mutationLimits =>
    if mutationLimits.Valid then
      ({ sample with execution := { sample.execution with mutationLimits } }, shared)
    else (sample, shared)
  | .requestControl signal =>
    ({ sample with execution := sample.execution.requestControl signal }, shared)
  | .setRequestValue name value =>
    ({ sample with request := sample.request.insert name value }, shared)
  | .setRequestState requestState =>
    match P.validateRequest requestState with
    | .ok () => ({ sample with requestState }, shared)
    | .error _ => (sample, shared)
  | .setResult result => ({ sample with result }, shared)
  | .commit staged => sample.commitStagedInvocation shared staged

end SampleContext

/-! ## Properties while a component runs -/

/-- Since the checkpoint, a property that nobody else has written (`touched` are those somebody
has) is as it was, or its entry in the transaction has its value and what it was. -/
structure Tracks (checkpoint : PropertyCheckpoint) (touched : List String)
    (transaction : PropertyTransaction) (shared : SharedProperties) : Prop where
  active : transaction.active
  unwritten : ∀ key ∉ touched, transaction.writes[key]? = none →
    shared.base key = checkpoint.base key
  written : ∀ key ∉ touched, ∀ write, transaction.writes[key]? = some write →
    shared.base key = ⟨some write.latestVersion, write.latestValue⟩ ∧
      ⟨write.restoreVersion, write.restoreValue⟩ = checkpoint.base key

section

variable {P : Payload} {checkpoint : PropertyCheckpoint} {touched : List String}
  {transaction : PropertyTransaction} {shared shared' : SharedProperties}

theorem tracks_checkpoint :
    Tracks (checkpointProperties shared).1 [] (checkpointProperties shared).2 shared where
  active := rfl
  unwritten := fun _ _ _ => rfl
  written := by
    intro key _ write hwrite
    simp [checkpointProperties] at hwrite

section

variable (h : Tracks checkpoint touched transaction shared)

include h

/-- Only what the properties hold matters. -/
theorem Tracks.of_base (hbase : ∀ key, shared'.base key = shared.base key) :
    Tracks checkpoint touched transaction shared' where
  active := h.active
  unwritten := fun key hkey hnone => (hbase key).trans (h.unwritten key hkey hnone)
  written := fun key hkey write hwrite =>
    ⟨(hbase key).trans (h.written key hkey write hwrite).1, (h.written key hkey write hwrite).2⟩

theorem Tracks.publishWrite (name : String) (value : Option String) (version : ℕ) :
    Tracks checkpoint touched (publishWrite shared transaction name value version).2
      (publishWrite shared transaction name value version).1 := by
  unfold Execution.publishWrite
  have hentry : name ∉ touched →
      (⟨(transaction.entryAfter name (shared.base name) version value).restoreVersion,
        (transaction.entryAfter name (shared.base name) version value).restoreValue⟩ :
          PropertyBase) = checkpoint.base name := by
    intro hname
    cases hold : transaction.writes[name]? with
    | none => rw [entry_first hold, ← h.unwritten name hname hold]
    | some write =>
      obtain ⟨hlat, hrestore⟩ := h.written name hname write hold
      rw [entry_again hold, if_pos hlat, ← hrestore]
  have hlat : (transaction.entryAfter name (shared.base name) version value).latestVersion =
      version ∧
      (transaction.entryAfter name (shared.base name) version value).latestValue = value := by
    cases hold : transaction.writes[name]? with
    | none => rw [entry_first hold]; exact ⟨rfl, rfl⟩
    | some write =>
      rw [entry_again hold]
      split_ifs <;> exact ⟨rfl, rfl⟩
  refine ⟨?_, ?_, ?_⟩
  · simp only [recordPropertyWrite, h.active, if_true]
  · intro key hkey hnone
    rw [writes_record h.active] at hnone
    by_cases hname : name = key
    · simp [hname] at hnone
    · rw [if_neg hname] at hnone
      rw [base_put, if_neg hname]
      exact h.unwritten key hkey hnone
  · intro key hkey write hwrite
    rw [writes_record h.active] at hwrite
    rw [base_put]
    by_cases hname : name = key
    · subst hname
      rw [if_pos rfl, Option.some.injEq] at hwrite
      subst hwrite
      rw [if_pos rfl, hlat.1, hlat.2]
      exact ⟨rfl, hentry hkey⟩
    · rw [if_neg hname] at hwrite
      rw [if_neg hname]
      exact h.written key hkey write hwrite

theorem Tracks.publishAll (mutations : List PropertyMutation) (version : ℕ) :
    Tracks checkpoint touched (publishAll mutations version (shared, transaction)).2
      (publishAll mutations version (shared, transaction)).1 := by
  induction mutations generalizing shared transaction version with
  | nil => exact h
  | cons mutation rest ih => exact ih (h.publishWrite mutation.key mutation.value _) (version + 1)

theorem Tracks.setPropertyValue (name value : String) :
    Tracks checkpoint touched (setPropertyValue shared transaction name value).2
      (setPropertyValue shared transaction name value).1 := by
  unfold Execution.setPropertyValue
  cases checkedAdd u64Max shared.propertyEpoch 1 with
  | none => exact h.of_base fun _ => rfl
  | some version => exact (h.publishWrite name (some value) version).of_base fun _ => rfl

theorem Tracks.commitProperties
    (bases : List (String × PropertyBase)) (mutations : List PropertyMutation) :
    Tracks checkpoint touched (commitProperties shared transaction bases mutations).2.2
      (commitProperties shared transaction bases mutations).2.1 := by
  unfold Execution.commitProperties
  by_cases hconf : bases.any fun entry => shared.base entry.1 ≠ entry.2
  · rw [if_pos hconf]
    exact h
  · rw [if_neg hconf]
    by_cases hempty : mutations = []
    · rw [if_pos hempty]
      exact h
    · rw [if_neg hempty]
      cases checkedAdd u64Max shared.propertyEpoch mutations.length with
      | none => exact h.of_base fun _ => rfl
      | some finalEpoch => exact (h.publishAll mutations _).of_base fun _ => rfl

end

section

variable {context : ExecutionContext P}
  (h : Tracks checkpoint touched context.propertyTransaction shared)

include h

theorem Tracks.commitStagedInvocation (staged : StagedInvocation P) : Tracks checkpoint touched
      (context.commitStagedInvocation shared staged).2.1.propertyTransaction
      (context.commitStagedInvocation shared staged).2.2.1 := by
  have hprop := h.commitProperties staged.propertyBases.toList staged.propertyMutations
  unfold ExecutionContext.commitStagedInvocation
  cases context.checkCommit staged with
  | error error => exact h
  | ok next =>
    rcases hcom : Execution.commitProperties shared context.propertyTransaction
      staged.propertyBases.toList staged.propertyMutations with ⟨outcome, shared', transaction⟩
    rw [hcom] at hprop
    cases outcome with
    | error error =>
      -- nothing was recorded, and nothing the transaction knows about was written
      obtain ⟨error', noted, hcases⟩ | ⟨transaction', hcases⟩ :=
        properties_cases shared context.propertyTransaction staged.propertyBases.toList
          staged.propertyMutations
      · rw [hcom] at hcases
        cases hcases
        exact h.of_base fun _ => rfl
      · rw [hcom] at hcases
        cases hcases
    | ok _ => exact hprop

theorem Tracks.performContext (op : ContextOp P) :
    Tracks checkpoint touched (context.perform shared op).1.propertyTransaction
      (context.perform shared op).2 := by
  cases op with
  | setVariable name value => exact h
  | variablesMut change => exact h
  | setProperty name value => exact h.setPropertyValue name value
  | setRequestState request =>
    simp only [ExecutionContext.perform, ExecutionContext.setRequestState]
    cases P.validateRequest request <;> exact h
  | commit staged => exact h.commitStagedInvocation staged

end

/-- **An operation of the component.** -/
theorem Tracks.perform {sample : SampleContext P}
    (h : Tracks checkpoint touched sample.execution.propertyTransaction shared)
    (op : ComponentOp P) :
    Tracks checkpoint touched (sample.perform shared op).1.execution.propertyTransaction
      (sample.perform shared op).2 := by
  cases op with
  | context op => exact h.performContext op
  | configure settings | requestControl signal | setRequestValue name value | setResult result =>
    exact h
  | setMutationLimits limits =>
    simp only [SampleContext.perform]
    split_ifs <;> exact h
  | setRequestState request =>
    simp only [SampleContext.perform]
    cases P.validateRequest request <;> exact h
  | commit staged =>
    have hcom := h.commitStagedInvocation staged
    simp only [SampleContext.perform, SampleContext.commitStagedInvocation]
    rcases hspent : sample.execution.commitStagedInvocation shared staged with
      ⟨outcome, execution, shared', spent⟩
    rw [hspent] at hcom
    cases outcome <;> exact hcom

section

variable (h : Tracks checkpoint touched transaction shared)

include h

/-- A write of somebody else. -/
theorem Tracks.put (name : String)
    (base : PropertyBase) : Tracks checkpoint (name :: touched) transaction
      (shared.put name base) := by
  have hother : ∀ key ∉ name :: touched, key ∉ touched ∧ name ≠ key := by
    intro key hkey
    rw [List.mem_cons, not_or] at hkey
    exact ⟨hkey.2, Ne.symm hkey.1⟩
  refine ⟨h.active, ?_, ?_⟩
  · intro key hkey hnone
    rw [base_put, if_neg (hother key hkey).2]
    exact h.unwritten key (hother key hkey).1 hnone
  · intro key hkey write hwrite
    rw [base_put, if_neg (hother key hkey).2]
    exact h.written key (hother key hkey).1 write hwrite

/-- **Rollback.**  A property that nobody else has written is as it was. -/
theorem Tracks.rollback {key : String} (hkey : key ∉ touched) :
    (rollbackProperties shared transaction checkpoint).1.base key = checkpoint.base key := by
  rw [base_rollback]
  cases hwrite : transaction.writes[key]? with
  | none =>
    rw [h.unwritten key hkey hwrite]
    simp [restoreTarget]
  | some write =>
    obtain ⟨hlat, hrestore⟩ := h.written key hkey write hwrite
    rw [hlat]
    simp [restoreTarget, hrestore]

end

end

end JmeterRs.Execution
