import JmeterRs.Execution.Properties
import JmeterRs.Execution.Result

/-!
# Staging an invocation delta

A processor proposes its changes as one delta: variables, properties, a patch of the request and
one of the result, a control action, outputs and diagnostics.  Staging checks the delta against a
snapshot of the context and computes a candidate, the state the context is to have after the
commit; the context itself is not touched.
-/

namespace JmeterRs.Execution

open Std
open Controllers (ControlSignal)

abbrev Digest32 := Vector UInt8 32

structure MutationLimits where
  maxMutations : ℕ
  maxValueBytes : ℕ
  maxResultDepth : ℕ
  maxResultNodes : ℕ
  maxRequestBytes : ℕ
  maxDiagnostics : ℕ
  maxDiagnosticBytes : ℕ
  maxOutputs : ℕ
  maxOutputBytes : ℕ

/-- A proposed change of one variable. -/
abbrev VariableMutation := PropertyMutation

structure MutationDiagnostic where
  code : String
  detail : String

def MutationDiagnostic.byteLen (diagnostic : MutationDiagnostic) : ℕ :=
  diagnostic.code.utf8ByteSize + diagnostic.detail.utf8ByteSize

inductive ControlPatch
  | continue
  | nextLoop
  | breakCurrentLoop
  | stopThread
  | stopTestGraceful
  | stopTestImmediate
  deriving DecidableEq

def ControlPatch.apply : ControlPatch → Except MutationError ControlSignal
  | .continue => .ok .continue
  | .nextLoop => .ok .nextLoop
  | .breakCurrentLoop => .error ⟨.unsupportedControl, "break-current-loop"⟩
  | .stopThread => .ok .stopThread
  | .stopTestGraceful => .ok .stopTestGraceful
  | .stopTestImmediate => .ok .stopTestImmediate

structure MutationState (Request Data : Type) where
  generation : ℕ
  vars : ExtTreeMap String String
  properties : ExtTreeMap String String
  propertyVersions : ExtTreeMap String ℕ
  request : Request
  result : Option (SampleResult Data)

structure InvocationDelta (RequestPatch ResultPatch : Type) where
  baseGeneration : ℕ
  vars : List VariableMutation
  properties : List PropertyMutation
  requestPatch : Option RequestPatch
  resultPatch : Option ResultPatch
  controlPatch : Option ControlPatch
  outputs : List (List UInt8)
  diagnostics : List MutationDiagnostic
  afterStateDigest : Option Digest32
  proposalDigest : Option Digest32

/-- The typed requests and the contents of the results of the samplers, as far as the mutation of a
context uses them.  Nothing is assumed about the operations. -/
structure Payload where
  Request : Type
  RequestPatch : Type
  ResultData : Type
  ResultPatch : Type
  requestGeneration : Request → ℕ
  validateRequest : Request → Except MutationError Unit
  canonicalLen : Request → ℕ
  requestDigest : Request → Digest32
  applyRequestPatch : Request → RequestPatch → Except MutationError Request
  validateRequestPatch : RequestPatch → Except MutationError Unit
  requestPatchLen : RequestPatch → ℕ
  validateResult : SampleResult ResultData → MutationLimits → Except MutationError Unit
  applyResultPatch : ResultPatch → Option (SampleResult ResultData) → MutationLimits →
    Except MutationError (Option (SampleResult ResultData))
  validateResultPatch : ResultPatch → MutationLimits → Except MutationError Unit
  sha256 : List UInt8 → Digest32
  canonicalResult : SampleResult ResultData → List UInt8
  computedProposalDigest : InvocationDelta RequestPatch ResultPatch → Digest32
  /-- Fills in the times, with the elapsed milliseconds, and thread counts that are missing. -/
  fillTiming : ResultData → ClockReading → ClockReading → ℕ → Option ℕ → Option ℕ →
    Except ResultError ResultData
  validateEvent : SampleEvent ResultData → Except ResultError Unit

abbrev Payload.Result (P : Payload) := SampleResult P.ResultData

abbrev Payload.Event (P : Payload) := SampleEvent P.ResultData

/-- A proposed change of an invocation of this kind. -/
abbrev Payload.Delta (P : Payload) := InvocationDelta P.RequestPatch P.ResultPatch

abbrev Payload.State (P : Payload) := MutationState P.Request P.ResultData

/-! ## Digests -/

/-- `to_be_bytes`. -/
def putU64 (value : ℕ) : List UInt8 :=
  [56, 48, 40, 32, 24, 16, 8, 0].map fun shift => UInt8.ofNat (value >>> shift)

def putTextRaw (value : String) : List UInt8 :=
  putU64 value.utf8ByteSize ++ value.toUTF8.data.toList

def putMap (values : ExtTreeMap String String) : List UInt8 :=
  putU64 values.size ++
    values.toList.flatMap fun entry => putTextRaw entry.1 ++ putTextRaw entry.2

def putMapU64 (values : ExtTreeMap String ℕ) : List UInt8 :=
  putU64 values.size ++ values.toList.flatMap fun entry => putTextRaw entry.1 ++ putU64 entry.2

def Payload.putOptionalResult (P : Payload) : Option P.Result → List UInt8
  | none => [0]
  | some result => 1 :: P.canonicalResult result

/-- `MutationState::digest`. -/
def Payload.stateDigest (P : Payload) (state : P.State) : Digest32 :=
  P.sha256 (putU64 state.generation ++ putMap state.vars ++ putMap state.properties ++
    putMapU64 state.propertyVersions ++ (P.requestDigest state.request).toList ++
    P.putOptionalResult state.result)

structure StagedInvocation (P : Payload) where
  baseGeneration : ℕ
  candidate : P.State
  propertyBases : ExtTreeMap String PropertyBase
  propertyMutations : List PropertyMutation
  outputs : List (List UInt8)
  diagnostics : List MutationDiagnostic
  signal : ControlSignal
  afterStateDigest : Digest32
  proposalDigest : Digest32
  committed : Bool

/-- `ContextGeneration::checked_next`. -/
def checkedNext (generation : ℕ) : Except MutationError ℕ :=
  match checkedAdd u64Max generation 1 with
  | some next => .ok next
  | none => .error (.overflow "context-generation")

def totalBytes (lengths : List ℕ) (field : String) : Except MutationError ℕ :=
  lengths.foldlM
    (fun total length =>
      match checkedAdd usizeMax total length with
      | some total => .ok total
      | none => .error (.overflow field))
    0

/-! ## Checks -/

/-- A change of a variable or a property.  Only a variable may have an empty name. -/
def validateTextMutation (allowEmptyKey : Bool) (limits : MutationLimits)
    (mutation : PropertyMutation) : Except MutationError Unit :=
  if (!allowEmptyKey && mutation.key.isEmpty) ∨
      limits.maxValueBytes < mutation.key.utf8ByteSize then .error (.invalid "mutation-key")
  else if mutation.value.any fun value => limits.maxValueBytes < value.utf8ByteSize then
    .error (.limit "mutation-value")
  else .ok ()

def validateVariableMutation : MutationLimits → VariableMutation → Except MutationError Unit :=
  validateTextMutation true

def validatePropertyMutation : MutationLimits → PropertyMutation → Except MutationError Unit :=
  validateTextMutation false

section

variable (values : ExtTreeMap String String) (limits : MutationLimits) (field : String)

def validateMapWithPolicy (allowEmptyKey : Bool) : Except MutationError Unit :=
  if usizeMax < limits.maxMutations * 16 then .error (.overflow field)
  else if limits.maxMutations * 16 < values.size then .error (.limit field)
  else if values.toList.any fun entry =>
      (!allowEmptyKey && entry.1.isEmpty) || limits.maxValueBytes < entry.1.utf8ByteSize ||
        limits.maxValueBytes < entry.2.utf8ByteSize then .error (.limit field)
  else .ok ()

def validateVariableMap : Except MutationError Unit :=
  validateMapWithPolicy values limits field true

def validatePropertyMap : Except MutationError Unit :=
  validateMapWithPolicy values limits field false

end

section

variable {P : Payload}

/-- The checks of a snapshot and of a candidate; they differ in the names they report. -/
def validateStateNamed (vars properties requestBytes requestDigest : String) (state : P.State)
    (limits : MutationLimits) : Except MutationError Unit := do
  validateVariableMap state.vars limits vars
  validatePropertyMap state.properties limits properties
  P.validateRequest state.request
  if limits.maxRequestBytes < P.canonicalLen state.request then .error (.limit requestBytes)
  else if P.requestDigest state.request = Vector.replicate 32 0 then
    .error ⟨.internal, requestDigest⟩
  else
    match state.result with
    | some result => P.validateResult result limits
    | none => .ok ()

/-- `InvocationSnapshot::validate`. -/
def validateSnapshot : P.State → MutationLimits → Except MutationError Unit :=
  validateStateNamed "snapshot-variables" "snapshot-properties" "snapshot-request-bytes"
    "request-digest"

def validateState : P.State → MutationLimits → Except MutationError Unit :=
  validateStateNamed "candidate-variables" "candidate-properties" "candidate-request-bytes"
    "candidate-request-digest"

/-- `InvocationDelta::validate`. -/
def validateDelta (delta : P.Delta) (limits : MutationLimits) : Except MutationError Unit :=
  if limits.maxMutations < delta.vars.length ∨
      limits.maxMutations < delta.properties.length then .error (.limit "mutation-count")
  else do
    delta.vars.forM (validateVariableMutation limits)
    delta.properties.forM (validatePropertyMutation limits)
    match delta.requestPatch with
    | some patch =>
      P.validateRequestPatch patch
      if limits.maxRequestBytes < P.requestPatchLen patch then .error (.limit "request-patch-bytes")
      else .ok ()
    | none => .ok ()
    match delta.resultPatch with
    | some patch => P.validateResultPatch patch limits
    | none => .ok ()
    if limits.maxOutputs < delta.outputs.length ∨
        limits.maxDiagnostics < delta.diagnostics.length then
      .error (.limit "mutation-output-count")
    else .ok ()

/-- The bounds on what a delta adds to the outputs and diagnostics. -/
def validateAdditions (delta : P.Delta) (limits : MutationLimits) : Except MutationError Unit := do
  let outputBytes ← totalBytes (delta.outputs.map List.length) "output-bytes"
  if limits.maxOutputs < delta.outputs.length ∨ limits.maxOutputBytes < outputBytes then
    .error (.limit "outputs")
  else
    let diagnosticBytes ←
      totalBytes (delta.diagnostics.map MutationDiagnostic.byteLen) "diagnostic-bytes"
    if limits.maxDiagnostics < delta.diagnostics.length ∨
        limits.maxDiagnosticBytes < diagnosticBytes then .error (.limit "diagnostics")
    else if delta.controlPatch = some .breakCurrentLoop then
      .error ⟨.unsupportedControl, "break-current-loop"⟩
    else .ok ()

/-- A digest the delta expects has to be the computed one. -/
def validateDigest (expected : Option Digest32) (digest : Digest32) (detail : String) :
    Except MutationError Unit :=
  if expected.any fun expected => expected ≠ digest then .error ⟨.staleDigest, detail⟩ else .ok ()

end

/-! ## The candidate -/

def applyTextMutation (values : ExtTreeMap String String) (mutation : PropertyMutation) :
    ExtTreeMap String String :=
  match mutation.value with
  | none => values.erase mutation.key
  | some value => values.insert mutation.key value

def applyTextMutations (mutations : List PropertyMutation) (values : ExtTreeMap String String) :
    ExtTreeMap String String :=
  mutations.foldl applyTextMutation values

/-- Applies the changes in order; a key that was changed before is an error. -/
def stageTexts (duplicate : String) :
    List PropertyMutation → List String → ExtTreeMap String String →
      Except MutationError (ExtTreeMap String String)
  | [], _, values => .ok values
  | mutation :: rest, seen, values =>
    if mutation.key ∈ seen then .error (.invalid duplicate)
    else stageTexts duplicate rest (mutation.key :: seen) (applyTextMutation values mutation)

section

variable {P : Payload}

def MutationState.base (state : P.State) (key : String) : PropertyBase :=
  ⟨state.propertyVersions[key]?, state.properties[key]?⟩

section

variable (delta : P.Delta) (snapshot : P.State) (limits : MutationLimits)

/-- What the properties that a delta changes hold in the snapshot. -/
def propertyBases (mutations : List PropertyMutation) : ExtTreeMap String PropertyBase :=
  mutations.foldl (fun bases mutation => bases.insert mutation.key (snapshot.base mutation.key)) ∅

def requestAfter (request : P.Request) : Except MutationError P.Request :=
  match delta.requestPatch with
  | some patch => P.applyRequestPatch request patch
  | none => .ok request

def resultAfter (result : Option P.Result) : Except MutationError (Option P.Result) :=
  match delta.resultPatch with
  | some patch => P.applyResultPatch patch result limits
  | none => .ok result

def signalAfter : Except MutationError ControlSignal :=
  match delta.controlPatch with
  | some patch => patch.apply
  | none => .ok .continue

/-- The state after a delta, before it is validated. -/
def candidateOf (generation : ℕ) : Except MutationError (P.State × ControlSignal) := do
  let vars ← stageTexts "duplicate-variable-key" delta.vars [] snapshot.vars
  let properties ← stageTexts "duplicate-property-key" delta.properties [] snapshot.properties
  let request ← requestAfter delta snapshot.request
  if delta.requestPatch.isSome ∧ limits.maxRequestBytes < P.canonicalLen request then
    .error (.limit "request-canonical-bytes")
  else
    let result ← resultAfter delta limits snapshot.result
    let signal ← signalAfter delta
    return ({ snapshot with generation, vars, properties, request, result }, signal)

/-- `InvocationDelta::validate_and_stage`. -/
def validateAndStage (cancellation : ControlSignal) : Except MutationError (StagedInvocation P) :=
  if cancellation ≠ .continue then .error ⟨.cancelled, "control-signal"⟩
  else if delta.baseGeneration ≠ snapshot.generation then
    .error ⟨.staleGeneration, "context-base-generation"⟩
  else do
    validateSnapshot snapshot limits
    validateDelta delta limits
    let generation ← checkedNext snapshot.generation
    let (candidate, signal) ← candidateOf delta snapshot limits generation
    validateState candidate limits
    validateAdditions delta limits
    let afterStateDigest := P.stateDigest candidate
    validateDigest delta.afterStateDigest afterStateDigest "after-state-digest"
    let proposalDigest := P.computedProposalDigest delta
    validateDigest delta.proposalDigest proposalDigest "proposal-digest"
    return {
      baseGeneration := snapshot.generation
      candidate
      propertyBases := propertyBases snapshot delta.properties
      propertyMutations := delta.properties
      outputs := delta.outputs
      diagnostics := delta.diagnostics
      signal
      afterStateDigest
      proposalDigest
      committed := false }

end

/-! ## What a stage holds -/

variable {mutations : List PropertyMutation} {values : ExtTreeMap String String} {name : String}
  {others : ExtTreeMap String String}

theorem stageTexts_ok {duplicate : String} {seen : List String}
    {staged : ExtTreeMap String String}
    (h : stageTexts duplicate mutations seen values = .ok staged) :
    staged = applyTextMutations mutations values := by
  induction mutations generalizing seen values with
  | nil => exact (Except.ok.inj h).symm
  | cons mutation rest ih =>
    rw [stageTexts, ite_error_ok] at h
    exact ih h.2

/-- A stage computed from this snapshot. -/
structure StagedFrom (delta : P.Delta) (snapshot : P.State) (limits : MutationLimits)
    (staged : StagedInvocation P) : Prop where
  baseGeneration : staged.baseGeneration = snapshot.generation
  vars : staged.candidate.vars = applyTextMutations delta.vars snapshot.vars
  request : requestAfter delta snapshot.request = .ok staged.candidate.request
  result : resultAfter delta limits snapshot.result = .ok staged.candidate.result
  propertyMutations : staged.propertyMutations = delta.properties

theorem stagedFrom_of_ok {delta : P.Delta} {snapshot : P.State}
    {limits : MutationLimits} {cancellation : ControlSignal} {staged : StagedInvocation P}
    (h : validateAndStage delta snapshot limits cancellation = .ok staged) :
    StagedFrom delta snapshot limits staged := by
  simp only [validateAndStage, ite_error_ok, bind_ok] at h
  obtain ⟨-, -, -, -, -, -, generation, -, ⟨candidate, signal⟩, hcandidate, -, -, -, -, -, -, -, -,
    hstaged⟩ := h
  simp only [candidateOf, ite_error_ok, bind_ok] at hcandidate
  obtain ⟨vars, hvariables, properties, -, request, hrequest, -, result, hresult, _, -,
    hpair⟩ := hcandidate
  cases hpair
  cases hstaged
  exact ⟨rfl, stageTexts_ok hvariables, hrequest, hresult, rfl⟩

/-! ## Applying changes to different values -/

theorem get?_applyText (mutation : PropertyMutation) : (applyTextMutation values mutation)[name]? =
      if mutation.key = name then mutation.value else values[name]? := by
  unfold applyTextMutation
  cases mutation.value <;> by_cases h : mutation.key = name <;>
    simp [ExtTreeMap.getElem?_insert, ExtTreeMap.getElem?_erase, h]

theorem get?_texts_notMem (h : ∀ mutation ∈ mutations, mutation.key ≠ name) :
    (applyTextMutations mutations values)[name]? = values[name]? := by
  unfold applyTextMutations
  induction mutations generalizing values with
  | nil => rfl
  | cons mutation rest ih =>
    rw [List.forall_mem_cons] at h
    rw [List.foldl_cons, ih h.2, get?_applyText, if_neg h.1]

/-- A changed key has the same value afterwards, whatever it was before. -/
theorem get?_texts_congr
    (h : (∀ mutation ∈ mutations, mutation.key ≠ name) → values[name]? = others[name]?) :
    (applyTextMutations mutations values)[name]? =
      (applyTextMutations mutations others)[name]? := by
  unfold applyTextMutations
  induction mutations generalizing values others with
  | nil => exact h nofun
  | cons mutation rest ih =>
    rw [List.foldl_cons, List.foldl_cons]
    apply ih
    intro hrest
    rw [get?_applyText, get?_applyText]
    by_cases hkey : mutation.key = name
    · rw [if_pos hkey, if_pos hkey]
    · rw [if_neg hkey, if_neg hkey]
      exact h (List.forall_mem_cons.mpr ⟨hkey, hrest⟩)

/-- The same changes give the same values exactly if the values they leave alone agree. -/
theorem applyTexts_iff : applyTextMutations mutations values = applyTextMutations mutations others ↔
      ∀ name, (∀ mutation ∈ mutations, mutation.key ≠ name) → values[name]? = others[name]? := by
  constructor
  · intro h name hname
    rw [← get?_texts_notMem hname, h, get?_texts_notMem hname]
  · intro h
    apply ExtTreeMap.ext_getElem?
    intro name
    exact get?_texts_congr (h name)

end

end JmeterRs.Execution
