import JmeterRs.Lib.Mut
import JmeterRs.Lib.Tree

/-!
# Shared properties and their transactions

All user contexts of a run share one map of properties.  Every write gives the property a new
version from a common epoch.  While a component of a user runs, the user's transaction records, for
each property it writes, its latest write and what a rollback has to put back.
-/

namespace JmeterRs.Execution

open Std List ExtTreeMap

inductive MutationErrorCode
  | invalid
  | limit
  | overflow
  | staleGeneration
  | staleDigest
  | requestInvalid
  | requestConflict
  | resultInvalid
  | providerUnavailable
  | cancelled
  | unsupportedControl
  | alreadyCommitted
  | propertyConflict
  | internal
  deriving DecidableEq, Repr

structure MutationError where
  code : MutationErrorCode
  detail : String
  deriving DecidableEq, Repr

namespace MutationError

def invalid (detail : String) : MutationError := ⟨.invalid, detail⟩
def limit (detail : String) : MutationError := ⟨.limit, detail⟩
def overflow (detail : String) : MutationError := ⟨.overflow, detail⟩

end MutationError

/-- What a property holds: the version of its last write and its value. -/
structure PropertyBase where
  version : Option ℕ
  value : Option String
  deriving DecidableEq, Repr

/-- What the user contexts of a run share under the mutation lock. -/
structure SharedProperties where
  properties : ExtTreeMap String String
  propertyVersions : ExtTreeMap String ℕ
  propertyEpoch : ℕ
  propertyGenerationError : Option MutationError

open SharedProperties

namespace SharedProperties

/-- A run that starts with these values; none of them has a version yet. -/
def initial (properties : ExtTreeMap String String) : SharedProperties := ⟨properties, ∅, 0, none⟩

def base (shared : SharedProperties) (name : String) : PropertyBase :=
  ⟨shared.propertyVersions[name]?, shared.properties[name]?⟩

/-- Puts a value and a version under `name`; `none` removes the entry. -/
def put (shared : SharedProperties) (name : String) (base : PropertyBase) : SharedProperties :=
  { shared with
    properties := match base.value with
      | some value => shared.properties.insert name value
      | none => shared.properties.erase name
    propertyVersions := match base.version with
      | some version => shared.propertyVersions.insert name version
      | none => shared.propertyVersions.erase name }

end SharedProperties

structure PropertyWrite where
  latestVersion : ℕ
  latestValue : Option String
  restoreVersion : Option ℕ
  restoreValue : Option String
  deriving DecidableEq, Repr

structure PropertyTransaction where
  active : Bool
  baselineVersions : ExtTreeMap String ℕ
  baselineValues : ExtTreeMap String String
  writes : ExtTreeMap String PropertyWrite

/-- `PropertyTransaction::default`. -/
def PropertyTransaction.none : PropertyTransaction := ⟨false, ∅, ∅, ∅⟩

section

variable (shared : SharedProperties) (transaction : PropertyTransaction) (name : String)
  (previous : PropertyBase) (latestVersion : ℕ) (latestValue : Option String)

/-- The entry of a property after one more write of this transaction. -/
def PropertyTransaction.entryAfter : PropertyWrite :=
  match transaction.writes[name]? with
  | some write =>
    if some write.latestVersion ≠ previous.version ∨ write.latestValue ≠ previous.value then
      -- a peer wrote after this transaction's last update: its state is what a rollback restores
      ⟨latestVersion, latestValue, previous.version, previous.value⟩
    else ⟨latestVersion, latestValue, write.restoreVersion, write.restoreValue⟩
  | .none =>
    let baselineVersion := transaction.baselineVersions[name]?
    let baselineValue := transaction.baselineValues[name]?
    let differsFromBaseline := previous.version ≠ baselineVersion ∨ previous.value ≠ baselineValue
    ⟨latestVersion, latestValue,
      if differsFromBaseline then previous.version else baselineVersion,
      if differsFromBaseline then previous.value else baselineValue⟩

def recordPropertyWrite : PropertyTransaction :=
  if transaction.active then
    { transaction with
      writes := transaction.writes.insert name
        (transaction.entryAfter name previous latestVersion latestValue) }
  else transaction

/-- A write that has got its version. -/
def publishWrite (value : Option String) (version : ℕ) : SharedProperties × PropertyTransaction :=
  (shared.put name ⟨some version, value⟩,
    recordPropertyWrite transaction name (shared.base name) version value)

/-- `set_property_value`: when no version is left, nothing is written and the failure is kept. -/
def setPropertyValue (value : String) : SharedProperties × PropertyTransaction :=
  match checkedAdd u64Max shared.propertyEpoch 1 with
  | some version =>
    let (shared, transaction) := publishWrite shared transaction name (some value) version
    ({ shared with propertyEpoch := version }, transaction)
  | .none =>
    ({ shared with propertyGenerationError := some (.overflow "property-generation") }, transaction)

structure PropertyMutation where
  key : String
  value : Option String
  deriving DecidableEq, Repr

/-- Publishes the proposed writes with consecutive versions after `version`. -/
def publishAll : List PropertyMutation → ℕ → SharedProperties × PropertyTransaction →
    SharedProperties × PropertyTransaction
  | [], _, state => state
  | mutation :: rest, version, (shared, transaction) =>
    publishAll rest (version + 1)
      (publishWrite shared transaction mutation.key mutation.value (version + 1))

/-- The properties of a staged invocation: checked against their bases, then published. -/
def commitProperties (bases : List (String × PropertyBase)) (mutations : List PropertyMutation) :
    Except MutationError Unit × SharedProperties × PropertyTransaction :=
  if bases.any fun entry => shared.base entry.1 ≠ entry.2 then
    (.error ⟨.propertyConflict, "newer-peer-property"⟩, shared, transaction)
  else if mutations = [] then (.ok (), shared, transaction)
  else
    match checkedAdd u64Max shared.propertyEpoch mutations.length with
    | .none =>
      let error := MutationError.overflow "property-generation"
      (.error error, { shared with propertyGenerationError := some error }, transaction)
    | some finalEpoch =>
      let (shared, transaction) := publishAll mutations shared.propertyEpoch (shared, transaction)
      (.ok (), { shared with propertyEpoch := finalEpoch }, transaction)

/-- The properties as a component found them. -/
structure PropertyCheckpoint where
  properties : ExtTreeMap String String
  propertyVersions : ExtTreeMap String ℕ

def PropertyCheckpoint.base (checkpoint : PropertyCheckpoint) (name : String) : PropertyBase :=
  ⟨checkpoint.propertyVersions[name]?, checkpoint.properties[name]?⟩

/-- `checkpoint`, as far as it concerns the properties. -/
def checkpointProperties : PropertyCheckpoint × PropertyTransaction :=
  (⟨shared.properties, shared.propertyVersions⟩,
    ⟨true, shared.propertyVersions, shared.properties, ∅⟩)

/-- Pushes the keys that are not in the list yet. -/
def pushMissing (keys more : List String) : List String :=
  more.foldl (fun keys key => if key ∈ keys then keys else keys ++ [key]) keys

def rollbackKeys (checkpoint : PropertyCheckpoint) : List String :=
  let known := checkpoint.properties.keys ++
    shared.properties.keys.filter fun key => checkpoint.properties[key]?.isNone
  pushMissing (pushMissing known checkpoint.propertyVersions.keys) transaction.writes.keys

/-- What a rollback puts under a key that holds `current`, if it touches the key. -/
def restoreTarget (write : Option PropertyWrite) (checkpoint current : PropertyBase) :
    Option PropertyBase :=
  match write with
  | some write =>
    if current.version = some write.latestVersion ∧ current.value = write.latestValue then
      some ⟨write.restoreVersion, write.restoreValue⟩
    else .none
  | .none => if current.version = checkpoint.version then some checkpoint else .none

def restoreKey (checkpoint : PropertyCheckpoint) (shared : SharedProperties) (key : String) :
    SharedProperties :=
  match restoreTarget transaction.writes[key]? (checkpoint.base key) (shared.base key) with
  | some base => shared.put key base
  | .none => shared

/-- `rollback`, as far as it concerns the properties. -/
def rollbackProperties (checkpoint : PropertyCheckpoint) : SharedProperties × PropertyTransaction :=
  ((rollbackKeys shared transaction checkpoint).foldl (restoreKey transaction checkpoint) shared,
    .none)

end

/-! ## What the operations do to one property -/

section

variable {shared : SharedProperties} {transaction : PropertyTransaction}
  {checkpoint : PropertyCheckpoint} {name : String} {previous : PropertyBase}
  {value : Option String} {other : String} {version : ℕ} {more : List String}

theorem base_put (base : PropertyBase) :
    (shared.put name base).base other = if name = other then base else shared.base other := by
  obtain ⟨version, value⟩ := base
  by_cases h : name = other
  · subst h
    cases version <;> cases value <;> simp [base, put]
  · cases version <;> cases value <;>
      simp [base, put, ExtTreeMap.getElem?_insert, ExtTreeMap.getElem?_erase, h]

theorem writes_record (hactive : transaction.active) :
    (recordPropertyWrite transaction name previous version value).writes[other]? =
      if name = other then some (transaction.entryAfter name previous version value)
      else transaction.writes[other]? := by
  simp only [recordPropertyWrite, hactive, if_true, ExtTreeMap.getElem?_insert]
  by_cases h : name = other <;> simp [h]

/-- The first write of a transaction remembers what it found. -/
theorem entry_first (h : transaction.writes[name]? = .none) :
    transaction.entryAfter name previous version value =
      ⟨version, value, previous.version, previous.value⟩ := by
  simp only [PropertyTransaction.entryAfter, h]
  by_cases hdiffers : previous.version ≠ transaction.baselineVersions[name]? ∨
      previous.value ≠ transaction.baselineValues[name]?
  · simp only [if_pos hdiffers]
  · rw [not_or, not_not, not_not] at hdiffers
    simp [hdiffers.1, hdiffers.2]

theorem entry_again {write : PropertyWrite} (h : transaction.writes[name]? = some write) :
    transaction.entryAfter name previous version value =
      if previous = ⟨some write.latestVersion, write.latestValue⟩ then
        ⟨version, value, write.restoreVersion, write.restoreValue⟩
      else ⟨version, value, previous.version, previous.value⟩ := by
  obtain ⟨previousVersion, previousValue⟩ := previous
  simp only [PropertyTransaction.entryAfter, h, PropertyBase.mk.injEq]
  by_cases hver : previousVersion = some write.latestVersion
  · by_cases hvalue : previousValue = write.latestValue
    · simp [hver, hvalue]
    · simp [hver, hvalue, Ne.symm hvalue]
  · simp [hver, Ne.symm hver]

variable {keys : List String}

theorem mem_pushMissing {key : String} : key ∈ pushMissing keys more ↔ key ∈ keys ∨ key ∈ more := by
  unfold pushMissing
  induction more generalizing keys with
  | nil => simp
  | cons first more ih =>
    rw [foldl_cons, ih]
    by_cases hfirst : first ∈ keys
    · rw [if_pos hfirst, mem_cons]
      constructor
      · rintro (h | h)
        · exact .inl h
        · exact .inr (.inr h)
      · rintro (h | rfl | h)
        · exact .inl h
        · exact .inl hfirst
        · exact .inr h
    · rw [if_neg hfirst]
      simp [or_assoc]

theorem nodup_push (h : keys.Nodup) : (pushMissing keys more).Nodup := by
  unfold pushMissing
  induction more generalizing keys with
  | nil => exact h
  | cons first more ih =>
    rw [foldl_cons]
    apply ih
    by_cases hfirst : first ∈ keys
    · rwa [if_pos hfirst]
    · rw [if_neg hfirst, nodup_append']
      exact ⟨h, nodup_singleton first, by simpa using hfirst⟩

theorem nodup_rollback : (rollbackKeys shared transaction checkpoint).Nodup := by
  apply nodup_push
  apply nodup_push
  rw [nodup_append']
  refine ⟨nodup_keys, nodup_keys.filter _, ?_⟩
  intro key hcp hshared
  rw [mem_filter] at hshared
  rw [ExtTreeMap.mem_keys, mem_iff_isSome_getElem?] at hcp
  cases hget : checkpoint.properties[key]? with
  | none => simp [hget] at hcp
  | some value => simp [hget] at hshared

theorem base_restoreKey (key : String) : (restoreKey transaction checkpoint shared key).base other =
      if key = other then
        (restoreTarget transaction.writes[key]? (checkpoint.base key) (shared.base key)).getD
          (shared.base key)
      else shared.base other := by
  unfold restoreKey
  cases restoreTarget transaction.writes[key]? (checkpoint.base key) (shared.base key) with
  | none =>
    by_cases h : key = other
    · simp [h]
    · simp [h]
  | some base => simp [base_put]

theorem restoreKeys_notMem (shared : SharedProperties) (h : name ∉ keys) :
    (keys.foldl (restoreKey transaction checkpoint) shared).base name = shared.base name := by
  induction keys generalizing shared with
  | nil => rfl
  | cons key keys ih =>
    rw [mem_cons, not_or] at h
    rw [foldl_cons, ih _ h.2, base_restoreKey, if_neg (Ne.symm h.1)]

theorem base_restored (shared : SharedProperties) (hnodup : keys.Nodup) (h : name ∈ keys) :
    (keys.foldl (restoreKey transaction checkpoint) shared).base name =
      (restoreTarget transaction.writes[name]? (checkpoint.base name) (shared.base name)).getD
        (shared.base name) := by
  induction keys generalizing shared with
  | nil => cases h
  | cons key keys ih =>
    rw [nodup_cons] at hnodup
    rw [foldl_cons]
    rcases mem_cons.mp h with rfl | hmem
    · rw [restoreKeys_notMem _ hnodup.1, base_restoreKey, if_pos rfl]
    · have hne : key ≠ name := by
        rintro rfl
        exact hnodup.1 hmem
      rw [ih _ hnodup.2 hmem, base_restoreKey, if_neg hne]

/-- **Rollback of one property**: a property the transaction wrote is put back if nobody wrote it
since; any other property is put back where its version says that it has not changed. -/
theorem base_rollback : (rollbackProperties shared transaction checkpoint).1.base name =
      (restoreTarget transaction.writes[name]? (checkpoint.base name) (shared.base name)).getD
        (shared.base name) := by
  by_cases h : name ∈ rollbackKeys shared transaction checkpoint
  · exact base_restored shared nodup_rollback h
  · -- a key that is nowhere has neither a value nor an entry to put back
    have hfold : (rollbackProperties shared transaction checkpoint).1.base name =
        shared.base name := restoreKeys_notMem shared h
    simp only [rollbackKeys, mem_pushMissing, mem_append, mem_filter, not_or,
      ExtTreeMap.mem_keys, mem_iff_isSome_getElem?, Bool.not_eq_true,
      Option.isSome_eq_false_iff, Option.isNone_iff_eq_none, not_and] at h
    obtain ⟨⟨⟨hcp, hshared⟩, hversions⟩, hwrites⟩ := h
    have hvalue : shared.properties[name]? = .none := by
      cases hget : shared.properties[name]? with
      | none => rfl
      | some value => exact absurd hcp (hshared (by simp [hget]))
    rw [hfold, hwrites]
    by_cases hver : shared.propertyVersions[name]? = .none
    · simp [restoreTarget, base, PropertyCheckpoint.base, hcp, hversions, hvalue, hver]
    · simp [restoreTarget, base, PropertyCheckpoint.base, hversions, hver]

end

end JmeterRs.Execution
