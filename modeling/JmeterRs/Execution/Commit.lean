import JmeterRs.Execution.Delta
import Mathlib.Logic.Function.Basic

/-!
# Committing a staged invocation

The commit of a stage replaces the variables, the request and the result of a context by those of
the candidate, and publishes the property changes.  It is refused if the generation of the context
or one of the properties it changes is not what it was when the delta was staged.  Variables and
requests can be set without a new generation: `commit_exact` says what this comes to.
-/

namespace JmeterRs.Execution

open Std
open Controllers (ControlSignal Cancellation)

/-- What a user context owns; the properties are shared. -/
structure ExecutionContext (P : Payload) where
  vars : ExtTreeMap String String
  propertyTransaction : PropertyTransaction
  contextGeneration : ℕ
  requestState : P.Request
  currentResult : Option P.Result
  mutationOutputs : List (List UInt8)
  mutationDiagnostics : List MutationDiagnostic
  mutationLimits : MutationLimits
  cancellation : Cancellation
  cancellationToken : Cancellation

open ExecutionContext

structure InvocationCommit where
  generation : ℕ
  requestGeneration : ℕ
  afterStateDigest : Digest32
  proposalDigest : Digest32
  outputCount : ℕ
  diagnosticCount : ℕ

namespace ExecutionContext

variable {P : Payload}

variable (context : ExecutionContext P) (shared : SharedProperties) (staged : StagedInvocation P)

def setVariable (name value : String) : ExecutionContext P :=
  { context with vars := context.vars.insert name value }

/-- A request that is not valid is not taken. -/
def setRequestState (request : P.Request) : ExecutionContext P :=
  match P.validateRequest request with
  | .ok () => { context with requestState := request }
  | .error _ => context

def controlSignal : ControlSignal :=
  context.cancellation.signal.combine context.cancellationToken.signal

def snapshotProcessorInvocation :
    P.State where
  generation := context.contextGeneration
  vars := context.vars
  properties := shared.properties
  propertyVersions := shared.propertyVersions
  request := context.requestState
  result := context.currentResult

def validateAndStageInvocation (delta : P.Delta) : Except MutationError (StagedInvocation P) :=
  match shared.propertyGenerationError with
  | some error => .error error
  | none =>
    validateAndStage delta (context.snapshotProcessorInvocation shared) context.mutationLimits
      context.controlSignal

/-- The number of entries a list in the context has after the commit. -/
def countAfter (present added maximum : ℕ) (overflow limit : String) :
    Except MutationError Unit :=
  match checkedAdd usizeMax present added with
  | none => .error (.overflow overflow)
  | some next => if maximum < next then .error (.limit limit) else .ok ()

/-- The bytes a list in the context has after the commit. -/
def bytesAfter (present added : List ℕ) (maximum : ℕ) (overflow limit : String) :
    Except MutationError Unit := do
  let presentBytes ← totalBytes present overflow
  let addedBytes ← totalBytes added overflow
  countAfter presentBytes addedBytes maximum overflow limit

/-- The checks of a commit that concern the context alone; they give the next generation. -/
def checkCommit : Except MutationError ℕ :=
  if staged.committed then .error ⟨.alreadyCommitted, "invocation-stage"⟩
  else if staged.baseGeneration ≠ context.contextGeneration then
    .error ⟨.staleGeneration, "context-current-generation"⟩
  else do
    let nextGeneration ← checkedNext context.contextGeneration
    countAfter context.mutationOutputs.length staged.outputs.length
      context.mutationLimits.maxOutputs "output-count" "context-output-count"
    bytesAfter (context.mutationOutputs.map List.length) (staged.outputs.map List.length)
      context.mutationLimits.maxOutputBytes "output-bytes" "context-output-bytes"
    countAfter context.mutationDiagnostics.length staged.diagnostics.length
      context.mutationLimits.maxDiagnostics "diagnostic-count" "context-diagnostic-count"
    bytesAfter (context.mutationDiagnostics.map MutationDiagnostic.byteLen)
      (staged.diagnostics.map MutationDiagnostic.byteLen) context.mutationLimits.maxDiagnosticBytes
      "diagnostic-bytes" "context-diagnostic-bytes"
    return nextGeneration

/-- The context after the commit of a stage. -/
def publish (transaction : PropertyTransaction) (nextGeneration : ℕ) : ExecutionContext P :=
  { context with
    vars := staged.candidate.vars
    propertyTransaction := transaction
    contextGeneration := nextGeneration
    requestState := staged.candidate.request
    currentResult := staged.candidate.result
    mutationOutputs := context.mutationOutputs ++ staged.outputs
    mutationDiagnostics := context.mutationDiagnostics ++ staged.diagnostics
    cancellation := context.cancellation.request staged.signal
    cancellationToken := context.cancellationToken.request staged.signal }

def commitStagedInvocation :
    Except MutationError InvocationCommit × ExecutionContext P × SharedProperties ×
      StagedInvocation P :=
  match context.checkCommit staged with
  | .error error => (.error error, context, shared, staged)
  | .ok nextGeneration =>
    match commitProperties shared context.propertyTransaction staged.propertyBases.toList
        staged.propertyMutations with
    | (.error error, shared, _) => (.error error, context, shared, staged)
    | (.ok (), shared, transaction) =>
      (.ok {
          generation := nextGeneration
          requestGeneration := P.requestGeneration staged.candidate.request
          afterStateDigest := staged.afterStateDigest
          proposalDigest := staged.proposalDigest
          outputCount := staged.outputs.length
          diagnosticCount := staged.diagnostics.length },
        context.publish staged transaction nextGeneration, shared,
        { staged with committed := true })

end ExecutionContext

/-- What a user context can be asked to do. -/
inductive ContextOp (P : Payload)
  | setVariable (name value : String)
  | variablesMut (change : ExtTreeMap String String → ExtTreeMap String String)
  | setProperty (name value : String)
  | setRequestState (request : P.Request)
  | commit (staged : StagedInvocation P)

/-- The context and the properties after an operation. -/
def ExecutionContext.perform {P : Payload} (context : ExecutionContext P)
    (shared : SharedProperties) : ContextOp P → ExecutionContext P × SharedProperties
  | .setVariable name value => (context.setVariable name value, shared)
  | .variablesMut change => ({ context with vars := change context.vars }, shared)
  | .setProperty name value =>
    let (shared, propertyTransaction) :=
      setPropertyValue shared context.propertyTransaction name value
    ({ context with propertyTransaction }, shared)
  | .setRequestState request => (context.setRequestState request, shared)
  | .commit staged =>
    let (_, context, shared, _) := context.commitStagedInvocation shared staged
    (context, shared)

/-! ## What a commit does -/

section

variable {P : Payload} {context : ExecutionContext P} {shared : SharedProperties}
  {staged : StagedInvocation P}

theorem checkedNext_ok {generation next : ℕ} (h : checkedNext generation = .ok next) :
    next = generation + 1 := by
  unfold checkedNext at h
  cases hnext : checkedAdd u64Max generation 1 with
  | none => simp [hnext] at h
  | some value =>
    simp only [hnext, Except.ok.injEq] at h
    rw [← h]
    exact (checkedAdd_some.mp hnext).1

theorem checkCommit_ok {next : ℕ} (h : context.checkCommit staged = .ok next) :
    staged.baseGeneration = context.contextGeneration ∧ next = context.contextGeneration + 1 := by
  simp only [checkCommit, ite_error_ok, bind_ok] at h
  obtain ⟨-, hbase, next', hnext, -, -, -, -, -, -, -, -, hpure⟩ := h
  cases hpure
  exact ⟨not_not.mp hbase, checkedNext_ok hnext⟩

theorem properties_publishAll (mutations : List PropertyMutation) (version : ℕ)
    (transaction : PropertyTransaction) :
    (publishAll mutations version (shared, transaction)).1.properties =
      applyTextMutations mutations shared.properties := by
  induction mutations generalizing version shared transaction with
  | nil => rfl
  | cons mutation rest ih =>
    rw [publishAll, publishWrite, ih]
    obtain ⟨key, value⟩ := mutation
    cases value <;> rfl

/-- The properties with the changes of a stage, each under a new version. -/
def SharedProperties.published (shared : SharedProperties) (mutations : List PropertyMutation)
    (transaction : PropertyTransaction) : SharedProperties :=
  { (publishAll mutations shared.propertyEpoch (shared, transaction)).1 with
    propertyEpoch := shared.propertyEpoch + mutations.length }

/-- A refused property commit at most notes that no version is left. -/
theorem properties_cases (shared : SharedProperties) (transaction : PropertyTransaction)
    (bases : List (String × PropertyBase)) (mutations : List PropertyMutation) :
    (∃ error noted, commitProperties shared transaction bases mutations =
      (.error error, { shared with propertyGenerationError := noted }, transaction)) ∨
    ∃ transaction', commitProperties shared transaction bases mutations =
      (.ok (), shared.published mutations transaction, transaction') := by
  unfold commitProperties
  by_cases hconf : bases.any fun entry => shared.base entry.1 ≠ entry.2
  · rw [if_pos hconf]
    exact .inl ⟨_, shared.propertyGenerationError, rfl⟩
  · rw [if_neg hconf]
    by_cases hempty : mutations = []
    · rw [if_pos hempty, hempty]
      exact .inr ⟨transaction, rfl⟩
    · rw [if_neg hempty]
      cases hadd : checkedAdd u64Max shared.propertyEpoch mutations.length with
      | none => exact .inl ⟨_, _, rfl⟩
      | some finalEpoch =>
        obtain ⟨rfl, -⟩ := checkedAdd_some.mp hadd
        exact .inr ⟨_, rfl⟩

/-- **The two ends of a commit.**  A refused commit changes nothing but the note that no version
is left; the other one publishes the candidate with the next generation. -/
theorem staged_cases (context : ExecutionContext P) (shared : SharedProperties)
    (staged : StagedInvocation P) : (∃ error noted, context.commitStagedInvocation shared staged =
      (.error error, context, { shared with propertyGenerationError := noted }, staged)) ∨
    ∃ receipt transaction, context.commitStagedInvocation shared staged =
        (.ok receipt, context.publish staged transaction (context.contextGeneration + 1),
          shared.published staged.propertyMutations context.propertyTransaction,
          { staged with committed := true }) ∧
      staged.baseGeneration = context.contextGeneration ∧
      receipt.afterStateDigest = staged.afterStateDigest := by
  unfold commitStagedInvocation
  cases hcheck : context.checkCommit staged with
  | error error => exact .inl ⟨error, shared.propertyGenerationError, rfl⟩
  | ok next =>
    obtain ⟨hbase, rfl⟩ := checkCommit_ok hcheck
    obtain ⟨error, noted, h⟩ | ⟨transaction, h⟩ :=
      properties_cases shared context.propertyTransaction staged.propertyBases.toList
        staged.propertyMutations
    · left
      exact ⟨error, noted, by simp only [h]⟩
    · right
      simp only [h]
      exact ⟨_, transaction, rfl, hbase, rfl⟩

end

/-! ## What happens between staging and commit -/

/-- The contexts of the users of a run. -/
structure Contexts (P : Payload) where
  shared : SharedProperties
  users : ℕ → ExecutionContext P

namespace Contexts

variable {P : Payload}

variable (w : Contexts P) (user : ℕ)

def setUser (context : ExecutionContext P) : Contexts P :=
  { w with users := Function.update w.users user context }

/-- The contexts after a commit by one user, with the outcome and the stage. -/
def commit (staged : StagedInvocation P) :
    Except MutationError InvocationCommit × Contexts P × StagedInvocation P :=
  let (outcome, context, shared, staged) := (w.users user).commitStagedInvocation w.shared staged
  (outcome, { w.setUser user context with shared }, staged)

def stage (delta : P.Delta) : Except MutationError (StagedInvocation P) :=
  (w.users user).validateAndStageInvocation w.shared delta

def step (op : ContextOp P) : Contexts P :=
  let (context, shared) := (w.users user).perform w.shared op
  { w.setUser user context with shared }

def run (ops : List (ℕ × ContextOp P)) : Contexts P := ops.foldl (fun w op => w.step op.1 op.2) w

end Contexts

/-- A context that has gone through operations: without a commit of its own it still has its
result. -/
structure Later {P : Payload} (before after : ExecutionContext P) : Prop where
  generation : before.contextGeneration ≤ after.contextGeneration
  result : after.contextGeneration = before.contextGeneration →
    after.currentResult = before.currentResult
  limits : after.mutationLimits = before.mutationLimits

section

variable {P : Payload} {first second third : ExecutionContext P} {context : ExecutionContext P}

theorem Later.refl (context : ExecutionContext P) : Later context context :=
  ⟨Nat.le_refl _, fun _ => rfl, rfl⟩

theorem Later.trans (h : Later first second) (h' : Later second third) : Later first third := by
  have hle := h.generation
  have hle' := h'.generation
  refine ⟨by omega, fun heq => ?_, h'.limits.trans h.limits⟩
  rw [h'.result (by omega), h.result (by omega)]

/-- An operation that leaves generation, result and limits alone. -/
theorem Later.of_eq (hgen : second.contextGeneration = first.contextGeneration)
    (hres : second.currentResult = first.currentResult)
    (hlimits : second.mutationLimits = first.mutationLimits) : Later first second :=
  ⟨Nat.le_of_eq hgen.symm, fun _ => hres, hlimits⟩

theorem later_setRequest {request : P.Request} :
    Later context (context.setRequestState request) := by
  unfold setRequestState
  cases P.validateRequest request <;> exact .of_eq rfl rfl rfl

theorem later_commit {shared : SharedProperties} {staged : StagedInvocation P} :
    Later context (context.commitStagedInvocation shared staged).2.1 := by
  obtain ⟨error, noted, h⟩ | ⟨receipt, transaction, h, -, -⟩ := staged_cases context shared staged
  · rw [h]
    exact .refl context
  · rw [h]
    exact ⟨Nat.le_succ _, fun heq => absurd heq (Nat.succ_ne_self _), rfl⟩

/-- What one user does to its own context is all that happens to the contexts. -/
theorem later_setUser {w : Contexts P} {user other : ℕ} (h : Later (w.users user) context) :
    Later (w.users other) ((w.setUser user context).users other) := by
  unfold Contexts.setUser
  by_cases hother : other = user
  · subst hother
    simpa using h
  · simpa [Function.update_of_ne hother] using Later.refl _

theorem later_perform (context : ExecutionContext P) (shared : SharedProperties)
    (op : ContextOp P) : Later context (context.perform shared op).1 := by
  cases op with
  | setVariable name value | variablesMut change | setProperty name value =>
    exact .of_eq rfl rfl rfl
  | setRequestState request => exact later_setRequest
  | commit staged => exact later_commit

theorem later_run (w : Contexts P) (user : ℕ) (ops : List (ℕ × ContextOp P)) :
    Later (w.users user) ((w.run ops).users user) := by
  induction ops generalizing w with
  | nil => exact .refl _
  | cons op ops ih =>
    exact (later_setUser (later_perform _ w.shared op.2)).trans (ih (w.step op.1 op.2))

end

/-! ## Exact commits -/

/-- After the commit the context has what the delta makes of the state right before it. -/
structure Exact {P : Payload} (delta : P.Delta) (user : ℕ) (before after : Contexts P) : Prop where
  vars : (after.users user).vars = applyTextMutations delta.vars (before.users user).vars
  properties : after.shared.properties =
    applyTextMutations delta.properties before.shared.properties
  request : requestAfter delta (before.users user).requestState =
    .ok (after.users user).requestState
  result : resultAfter delta (before.users user).mutationLimits (before.users user).currentResult =
    .ok (after.users user).currentResult

/-- The variables that a delta does not set, and what it makes of the request, are as they were
when it was staged. -/
structure Undisturbed {P : Payload} (delta : P.Delta) (staging before : ExecutionContext P) :
    Prop where
  vars : ∀ name, (∀ mutation ∈ delta.vars, mutation.key ≠ name) →
    before.vars[name]? = staging.vars[name]?
  request : requestAfter delta before.requestState = requestAfter delta staging.requestState

/-- Nothing but the note that no version is left has changed. -/
def Unchanged {P : Payload} (before after : Contexts P) : Prop :=
  after.users = before.users ∧ after.shared.properties = before.shared.properties ∧
    after.shared.propertyVersions = before.shared.propertyVersions ∧
    after.shared.propertyEpoch = before.shared.propertyEpoch

section

variable {P : Payload} {delta : P.Delta} {staged : StagedInvocation P}

theorem commit_cases (w : Contexts P) (user : ℕ) (staged : StagedInvocation P) :
    (∃ error after, w.commit user staged = (.error error, after, staged) ∧ Unchanged w after) ∨
    ∃ receipt transaction after,
      w.commit user staged = (.ok receipt, after, { staged with committed := true }) ∧
      after.users user = (w.users user).publish staged transaction
        ((w.users user).contextGeneration + 1) ∧
      after.shared = w.shared.published staged.propertyMutations
        (w.users user).propertyTransaction ∧
      staged.baseGeneration = (w.users user).contextGeneration ∧
      receipt.afterStateDigest = staged.afterStateDigest := by
  obtain ⟨error, noted, h⟩ | ⟨receipt, transaction, h, hrest⟩ :=
    staged_cases (w.users user) w.shared staged
  · left
    simp only [Contexts.commit, h]
    exact ⟨error, _, rfl, Function.update_eq_self user w.users, rfl, rfl, rfl⟩
  · right
    simp only [Contexts.commit, h]
    exact ⟨receipt, transaction, _, rfl, Function.update_self .., rfl, hrest⟩

/-- A stage that has been committed is refused by every context. -/
theorem spent_refused (w : Contexts P) (user : ℕ) (hspent : staged.committed = true) :
    ∃ error, (w.commit user staged).1 = .error error := by
  refine ⟨⟨.alreadyCommitted, "invocation-stage"⟩, ?_⟩
  simp [Contexts.commit, commitStagedInvocation, checkCommit, hspent]

theorem stagedFrom_of_stage {w : Contexts P} {user : ℕ} (h : w.stage user delta = .ok staged) :
    StagedFrom delta ((w.users user).snapshotProcessorInvocation w.shared)
      (w.users user).mutationLimits staged := by
  unfold Contexts.stage validateAndStageInvocation at h
  cases herror : w.shared.propertyGenerationError with
  | some error => simp [herror] at h
  | none =>
    simp only [herror] at h
    exact stagedFrom_of_ok h

theorem exact_iff {user : ℕ} {staging before after : Contexts P}
    (hstaged : StagedFrom delta ((staging.users user).snapshotProcessorInvocation staging.shared)
      (staging.users user).mutationLimits staged)
    (hlater : Later (staging.users user) (before.users user))
    (hgen : staged.baseGeneration = (before.users user).contextGeneration)
    {transaction : PropertyTransaction} {next : ℕ}
    (hafter : after.users user = (before.users user).publish staged transaction next)
    (hprop : after.shared.properties =
      applyTextMutations staged.propertyMutations before.shared.properties) :
    Exact delta user before after ↔
      Undisturbed delta (staging.users user) (before.users user) := by
  have hres : (before.users user).currentResult = (staging.users user).currentResult :=
    hlater.result (hgen.symm.trans hstaged.baseGeneration)
  constructor
  · intro h
    have hvars := h.vars
    have hreq := h.request
    rw [hafter] at hvars hreq
    exact ⟨applyTexts_iff.mp (hvars.symm.trans hstaged.vars), hreq.trans hstaged.request.symm⟩
  · intro h
    refine ⟨?_, ?_, ?_, ?_⟩
    · rw [hafter]
      exact hstaged.vars.trans (applyTexts_iff.mpr h.vars).symm
    · rw [hprop, hstaged.propertyMutations]
    · rw [hafter, h.request]
      exact hstaged.request
    · rw [hafter, hres, hlater.limits]
      exact hstaged.result

/-- **Commits of a stage.**  Between staging and commit anything may happen in this context and in
the others.  A commit that succeeds is the delta applied to the state right before it exactly if
the variables the delta does not set, and what it makes of the request, are as they were at
staging; after it every context refuses the stage, and this one also any copy of it.  A commit that
fails changes nothing. -/
theorem commit_exact (w : Contexts P) (user : ℕ) (delta : P.Delta) (staged : StagedInvocation P)
    (hstaged : w.stage user delta = .ok staged) (ops : List (ℕ × ContextOp P)) :
    (∀ receipt after spent, (w.run ops).commit user staged = (.ok receipt, after, spent) →
      (Exact delta user (w.run ops) after ↔
        Undisturbed delta (w.users user) ((w.run ops).users user)) ∧
      (∀ (other : Contexts P) anyUser, ∃ error, (other.commit anyUser spent).1 = .error error) ∧
      ∀ more copy, copy.baseGeneration = spent.baseGeneration →
        ∃ error, ((after.run more).commit user copy).1 = .error error) ∧
    ∀ error after spent, (w.run ops).commit user staged = (.error error, after, spent) →
      Unchanged (w.run ops) after := by
  have hlater := later_run w user ops
  obtain ⟨error, w', hcommit, hunchanged⟩ |
      ⟨receipt, transaction, after, hcommit, huser, hshared, hgeneration, -⟩ :=
    commit_cases (w.run ops) user staged
  · rw [hcommit]
    refine ⟨fun _ _ _ h => by simp at h, fun _ _ _ h => ?_⟩
    cases h
    exact hunchanged
  · rw [hcommit]
    refine ⟨fun receipt' after spent h => ?_, fun _ _ _ h => by simp at h⟩
    cases h
    refine ⟨?_, fun other anyUser => spent_refused other anyUser rfl, ?_⟩
    · refine exact_iff (stagedFrom_of_stage hstaged) hlater hgeneration huser ?_
      rw [hshared]
      exact properties_publishAll ..
    · intro more copy hcopy
      -- the generation has moved on for good
      have hmoved := (later_run after user more).generation
      obtain ⟨error, w', hagain, -⟩ | ⟨receipt', transaction', after', -, -, -, hbase, -⟩ :=
        commit_cases (after.run more) user copy
      · exact ⟨error, by rw [hagain]⟩
      · rw [hcopy] at hbase
        simp only [huser, publish] at hmoved hbase
        omega

end

/-! ## A variable that is lost -/

/-- Samplers without requests and results to speak of, and a checksum for the hash. -/
def plainPayload : Payload where
  Request := Unit
  RequestPatch := Unit
  ResultData := Unit
  ResultPatch := Unit
  requestGeneration _ := 1
  validateRequest _ := .ok ()
  canonicalLen _ := 0
  requestDigest _ := Vector.replicate 32 1
  applyRequestPatch _ _ := .ok ()
  validateRequestPatch _ := .ok ()
  requestPatchLen _ := 0
  validateResult _ _ := .ok ()
  applyResultPatch _ _ _ := .ok none
  validateResultPatch _ _ := .ok ()
  sha256 bytes := Vector.replicate 32 (bytes.foldl (fun sum byte => 31 * sum + byte) 7)
  canonicalResult _ := []
  computedProposalDigest _ := Vector.replicate 32 1
  fillTiming data _ _ _ _ _ := .ok data
  validateEvent _ := .ok ()

/-- Users that have done nothing yet. -/
def freshContexts : Contexts plainPayload where
  shared := .initial ∅
  users _ :=
    { vars := ∅
      propertyTransaction := .none
      contextGeneration := 1
      requestState := ()
      currentResult := none
      mutationOutputs := []
      mutationDiagnostics := []
      mutationLimits := ⟨64, 1024, 8, 64, 1024, 16, 1024, 16, 1024⟩
      cancellation := .new
      cancellationToken := .new }

def deltaSettingA : plainPayload.Delta where
  baseGeneration := 1
  vars := [⟨"a", some "1"⟩]
  properties := []
  requestPatch := none
  resultPatch := none
  controlPatch := none
  outputs := []
  diagnostics := []
  afterStateDigest := none
  proposalDigest := none

/-- It can be staged, and committed after this user or the next has set another variable. -/
theorem staged_deltaSettingA {user : ℕ} (huser : user < 2) :
    ∃ staged, freshContexts.stage 0 deltaSettingA = .ok staged ∧
      ∃ receipt after spent, (freshContexts.run [(user, .setVariable "b" "2")]).commit 0 staged =
          (.ok receipt, after, spent) := by
  have h : ∀ user < 2, (match freshContexts.stage 0 deltaSettingA with
      | .ok staged =>
        ((freshContexts.run [(user, .setVariable "b" "2")]).commit 0 staged).1.isOk
      | .error _ => false) = true := by decide +kernel
  cases hstage : freshContexts.stage 0 deltaSettingA with
  | error error => simpa [hstage] using h user huser
  | ok staged =>
    refine ⟨staged, rfl, ?_⟩
    have hok := h user huser
    simp only [hstage] at hok
    obtain ⟨error, after, hcom, -⟩ | ⟨receipt, transaction, after, hcom, -⟩ :=
      commit_cases (freshContexts.run [(user, .setVariable "b" "2")]) 0 staged
    · rw [hcom] at hok
      cases hok
    · exact ⟨receipt, _, _, hcom⟩

/-- What another user does leaves the stage undisturbed. -/
theorem commit_exact_deltaSettingA : ∃ staged, freshContexts.stage 0 deltaSettingA = .ok staged ∧
      ∃ receipt after spent, (freshContexts.run [(1, .setVariable "b" "2")]).commit 0 staged =
          (.ok receipt, after, spent) ∧
        Undisturbed deltaSettingA (freshContexts.users 0)
          ((freshContexts.run [(1, .setVariable "b" "2")]).users 0) ∧
        Exact deltaSettingA 0 (freshContexts.run [(1, .setVariable "b" "2")]) after := by
  obtain ⟨staged, hstage, receipt, after, spent, hcommit⟩ :=
    staged_deltaSettingA (show 1 < 2 by decide)
  have hundisturbed : Undisturbed deltaSettingA (freshContexts.users 0)
      ((freshContexts.run [(1, .setVariable "b" "2")]).users 0) := ⟨fun _ _ => rfl, rfl⟩
  exact ⟨staged, hstage, receipt, after, spent, hcommit, hundisturbed,
    ((commit_exact freshContexts 0 deltaSettingA staged hstage _).1 receipt after spent
      hcommit).1.mpr hundisturbed⟩

/-- The variable that was set between staging and commit is gone after the commit. -/
theorem variable_lost_by_commit : ∃ staged, freshContexts.stage 0 deltaSettingA = .ok staged ∧
      ∃ receipt after spent, (freshContexts.run [(0, .setVariable "b" "2")]).commit 0 staged =
          (.ok receipt, after, spent) ∧
        ((freshContexts.run [(0, .setVariable "b" "2")]).users 0).vars["b"]? = some "2" ∧
        (after.users 0).vars["b"]? = none := by
  obtain ⟨staged, hstage, receipt, after, spent, hcommit⟩ :=
    staged_deltaSettingA (show 0 < 2 by decide)
  refine ⟨staged, hstage, receipt, after, spent, hcommit, by decide +kernel, ?_⟩
  obtain ⟨error, after', hcommit', -⟩ | ⟨receipt', transaction, after', hcommit', huser, -⟩ :=
    commit_cases (freshContexts.run [(0, .setVariable "b" "2")]) 0 staged
  · rw [hcommit'] at hcommit
    cases hcommit
  · rw [hcommit'] at hcommit
    cases hcommit
    have hvars : staged.candidate.vars = applyTextMutations [⟨"a", some "1"⟩] ∅ :=
      (stagedFrom_of_stage hstage).vars
    simp only [huser, publish, hvars]
    decide +kernel

end JmeterRs.Execution
