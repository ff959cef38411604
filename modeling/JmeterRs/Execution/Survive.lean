import JmeterRs.Execution.Properties
import Mathlib.Logic.Function.Basic

/-!
# Which property writes survive

Any number of user contexts write the shared properties, inside and outside component
invocations, and some invocations are rolled back.  `World` adds to the shared map a log of all
writes and the invocations that were rolled back, so that the write that ought to be visible can
be named: the last one that no rollback has taken away.
-/

namespace JmeterRs.Execution

open Std List

/-- A write, with the invocation it was made in. -/
structure Record where
  key : String
  version : ℕ
  value : Option String
  invocation : Option ℕ
  deriving DecidableEq

/-- A user context: its transaction, and the invocation that is running. -/
structure User where
  transaction : PropertyTransaction
  invocation : Option (ℕ × PropertyCheckpoint)

/-- The shared properties with the users; the log has the newest write first. -/
structure World where
  shared : SharedProperties
  users : ℕ → User
  log : List Record
  opened : ℕ
  rolledBack : List ℕ

open World

namespace World

def initial (properties : ExtTreeMap String String) : World :=
  ⟨.initial properties, fun _ => ⟨.none, none⟩, [], 0, []⟩

/-- The invocation in which a write of this user is made now. -/
def invocationOf (w : World) (user : ℕ) : Option ℕ := (w.users user).invocation.map (·.1)

def setUser (w : World) (user : ℕ) (new : User) : World :=
  { w with users := Function.update w.users user new }

end World

/-- An operation of one user, atomic under the mutation lock. -/
inductive Op
  | setProperty (user : ℕ) (name value : String)
  | commit (user : ℕ) (bases : List (String × PropertyBase)) (mutations : List PropertyMutation)
  | checkpoint (user : ℕ)
  | succeed (user : ℕ)
  | rollback (user : ℕ)

/-- The log after these writes, which got consecutive versions after `version`. -/
def logAll (invocation : Option ℕ) : List PropertyMutation → ℕ → List Record → List Record
  | [], _, log => log
  | mutation :: rest, version, log =>
    logAll invocation rest (version + 1)
      (⟨mutation.key, version + 1, mutation.value, invocation⟩ :: log)

namespace World

/-- Writes that were published with versions after the epoch of `w`. -/
def published (w : World) (user : ℕ) (mutations : List PropertyMutation)
    (shared : SharedProperties) (transaction : PropertyTransaction) : World :=
  { w.setUser user { w.users user with transaction } with
    shared
    log := logAll (w.invocationOf user) mutations w.shared.propertyEpoch w.log }

def step (w : World) : Op → World
  | .setProperty user name value =>
    let (shared, transaction) := setPropertyValue w.shared (w.users user).transaction name value
    if w.shared.propertyEpoch + 1 ≤ u64Max then
      w.published user [⟨name, some value⟩] shared transaction
    else { w with shared }
  | .commit user bases mutations =>
    match commitProperties w.shared (w.users user).transaction bases mutations with
    | (.ok (), shared, transaction) => w.published user mutations shared transaction
    | (.error _, shared, _) => { w with shared }
  | .checkpoint user =>
    match (w.users user).invocation with
    | some _ => w
    | none =>
      let (checkpoint, transaction) := checkpointProperties w.shared
      { w.setUser user ⟨transaction, some (w.opened, checkpoint)⟩ with opened := w.opened + 1 }
  | .succeed user => w.setUser user { w.users user with invocation := none }
  | .rollback user =>
    match (w.users user).invocation with
    | none => w
    | some (id, checkpoint) =>
      let (shared, transaction) := rollbackProperties w.shared (w.users user).transaction checkpoint
      { w.setUser user ⟨transaction, none⟩ with shared, rolledBack := id :: w.rolledBack }

def run (w : World) (ops : List Op) : World := ops.foldl step w

/-- A write that was not made in an invocation that has been rolled back. -/
def live (w : World) (record : Record) : Bool := record.invocation.all (· ∉ w.rolledBack)

/-- The last write of a property that no rollback has taken away. -/
def latest (w : World) (key : String) : Option Record :=
  w.log.find? fun record => record.key = key ∧ w.live record

def survivingValue (initial : ExtTreeMap String String) (w : World) (key : String) :
    Option String :=
  match w.latest key with
  | some record => record.value
  | none => initial[key]?

end World

/-- Before a rollback: no property it will put back goes back to a write of an invocation that has
been rolled back already. -/
def RestoresLive (w : World) : Op → Prop
  | .rollback user =>
    ∀ entry ∈ (w.users user).transaction.writes.toList,
      w.shared.base entry.1 = ⟨some entry.2.latestVersion, entry.2.latestValue⟩ →
        ∀ record ∈ w.log, record.key = entry.1 →
          entry.2.restoreVersion = some record.version → w.live record
  | _ => True

/-- Every rollback of a run puts back writes that are live. -/
def RestoresLiveAlong : World → List Op → Prop
  | _, [] => True
  | w, op :: ops => RestoresLive w op ∧ RestoresLiveAlong (w.step op) ops

/-! ## The log -/

section

variable {log : List Record} {p : Record → Bool} {record : Record}
  (hsrt : log.Pairwise fun newer older => older.version < newer.version)

include hsrt

theorem newest_of_find? (h : log.find? p = some record) :
    record ∈ log ∧ p record ∧ ∀ other ∈ log, p other → other.version ≤ record.version := by
  obtain ⟨hp, newer, older, rfl, hnewer⟩ := find?_eq_some_iff_append.mp h
  refine ⟨mem_append_right _ (.head _), hp, fun other hoth hpother => ?_⟩
  rw [pairwise_append, pairwise_cons] at hsrt
  rcases mem_append.mp hoth with hoth | hoth
  · have hnot := hnewer other hoth
    simp [hpother] at hnot
  · rcases mem_cons.mp hoth with rfl | hoth
    · exact Nat.le_refl _
    · exact Nat.le_of_lt (hsrt.2.1.1 other hoth)

/-- A version was given to one write only. -/
theorem eq_of_version {first second : Record} (hfirst : first ∈ log) (hsec : second ∈ log)
    (h : first.version = second.version) : first = second := by
  have hversions : (log.map Record.version).Nodup := pairwise_map.mpr (hsrt.imp Nat.ne_of_gt)
  exact inj_on_of_nodup_map hversions hfirst hsec h

/-- The newest of the records that have a property. -/
theorem find?_newest (hmem : record ∈ log) (hp : p record)
    (hnewest : ∀ other ∈ log, p other → other.version ≤ record.version) :
    log.find? p = some record := by
  cases hfind : log.find? p with
  | none => exact absurd hp (find?_eq_none.mp hfind record hmem)
  | some found =>
    obtain ⟨hfound, hpfound, hle⟩ := newest_of_find? hsrt hfind
    have hver := Nat.le_antisymm (hnewest found hfound hpfound) (hle record hmem hp)
    rw [eq_of_version hsrt hfound hmem hver]

end

/-! ## The invariant -/

section

variable (initial : ExtTreeMap String String) (w : World)

/-- What a property holds when `record` is its last write. -/
def baseOf (key : String) : Option Record → PropertyBase
  | some record => ⟨some record.version, record.value⟩
  | none => ⟨none, initial[key]?⟩

/-- The entry of a transaction for one property, against the log. -/
structure Entry (id : ℕ) (key : String) (write : PropertyWrite) : Prop where
  latest : ∃ record ∈ w.log, record.key = key ∧ record.invocation = some id ∧
    record.version = write.latestVersion ∧ record.value = write.latestValue
  own_le : ∀ record ∈ w.log, record.key = key → record.invocation = some id →
    record.version ≤ write.latestVersion
  restore_none : write.restoreVersion = none → write.restoreValue = initial[key]?
  restore_some : ∀ version, write.restoreVersion = some version →
    ∃ record ∈ w.log, record.key = key ∧ record.invocation ≠ some id ∧
      record.version = version ∧ record.value = write.restoreValue
  between : ∀ record ∈ w.log, record.key = key →
    (∀ version, write.restoreVersion = some version → version < record.version) →
    record.version ≤ write.latestVersion → record.invocation ≠ some id → w.live record = false

/-- The transaction of a running invocation, against the log. -/
structure Tracked (id : ℕ) (transaction : PropertyTransaction) : Prop where
  active : transaction.active
  unwritten : ∀ key, transaction.writes[key]? = none →
    ∀ record ∈ w.log, record.key = key → record.invocation ≠ some id
  written : ∀ key write, transaction.writes[key]? = some write → Entry initial w id key write

/-- The pair is the initial value of the property or one of its writes. -/
def Known (key : String) (base : PropertyBase) : Prop :=
  base = baseOf initial key none ∨ ∃ record ∈ w.log, record.key = key ∧
    base = baseOf initial key (some record)

/-- What holds between the operations, and between the writes of one commit, where `top` is the
last version given. -/
structure Consistent (top : ℕ) : Prop where
  sorted : w.log.Pairwise fun newer older => older.version < newer.version
  le_top : ∀ record ∈ w.log, record.version ≤ top
  current : ∀ key, w.shared.base key = baseOf initial key (w.latest key)
  record_lt : ∀ record ∈ w.log, ∀ id, record.invocation = some id → id < w.opened
  open_lt : ∀ user id checkpoint, (w.users user).invocation = some (id, checkpoint) →
    id < w.opened ∧ id ∉ w.rolledBack
  open_inj : ∀ first second id checkpoint other,
    (w.users first).invocation = some (id, checkpoint) →
    (w.users second).invocation = some (id, other) → first = second
  tracked : ∀ user id checkpoint, (w.users user).invocation = some (id, checkpoint) →
    Tracked initial w id (w.users user).transaction
  known : ∀ user id checkpoint, (w.users user).invocation = some (id, checkpoint) →
    ∀ key, Known initial w key (checkpoint.base key)
  rolled_lt : ∀ id ∈ w.rolledBack, id < w.opened

theorem consistent_initial : Consistent initial (World.initial initial) 0 where
  sorted := .nil
  le_top := by simp [World.initial]
  current := by
    intro key
    simp [World.initial, World.latest, baseOf, SharedProperties.initial, SharedProperties.base]
  record_lt := by simp [World.initial]
  open_lt := by simp [World.initial]
  open_inj := by simp [World.initial]
  tracked := by simp [World.initial]
  known := by simp [World.initial]
  rolled_lt := by simp [World.initial]

end

section

variable {initial : ExtTreeMap String String} {w : World} {top : ℕ} {user id : ℕ}
  {key : String} {record : Record}

theorem live_of_open (h : record.invocation = some id) :
    w.live record = true ↔ id ∉ w.rolledBack := by
  simp [live, h]

theorem latest_some (hw : Consistent initial w top) (h : w.latest key = some record) :
    record ∈ w.log ∧ record.key = key ∧ w.live record ∧
      ∀ other ∈ w.log, other.key = key → w.live other → other.version ≤ record.version := by
  obtain ⟨hmem, hp, hnewest⟩ := newest_of_find? hw.sorted h
  simp only [Bool.decide_and, Bool.decide_eq_true, Bool.and_eq_true, decide_eq_true_eq] at hp
  exact ⟨hmem, hp.1, hp.2, fun other hoth hkey hlive => hnewest other hoth (by simp [hkey, hlive])⟩

theorem latest_none (h : w.latest key = none) : ∀ other ∈ w.log, other.key = key →
    w.live other = false := by
  intro other hoth hkey
  have := find?_eq_none.mp h other hoth
  simpa [hkey] using this

/-- The write a property shows is the newest live one. -/
theorem latest_newest (w : World)
    (hsrt : w.log.Pairwise fun newer older => older.version < newer.version)
    (hmem : record ∈ w.log) (hkey : record.key = key) (hlive : w.live record)
    (hnewest : ∀ other ∈ w.log, other.key = key → w.live other → other.version ≤ record.version) :
    w.latest key = some record := by
  apply find?_newest hsrt hmem
  · simp [hkey, hlive]
  · intro other hoth hp
    simp only [Bool.decide_and, Bool.decide_eq_true, Bool.and_eq_true, decide_eq_true_eq] at hp
    exact hnewest other hoth hp.1 hp.2

theorem latest_eq_none (h : ∀ other ∈ w.log, other.key = key → w.live other = false) :
    w.latest key = none := by
  apply find?_eq_none.mpr
  intro other hoth
  by_cases hkey : other.key = key
  · simp [hkey, h other hoth hkey]
  · simp [hkey]

section

variable (hw : Consistent initial w top) {checkpoint : PropertyCheckpoint}
  (hopen : (w.users user).invocation = some (id, checkpoint)) {write : PropertyWrite}
  (hent : Entry initial w id key write)

include hw hopen hent

/-- The last write of a running invocation is live, so something newer or equal is shown. -/
theorem Entry.shown : ∃ shown, w.latest key = some shown ∧
      (shown.invocation = some id → shown.version = write.latestVersion ∧
        shown.value = write.latestValue) := by
  obtain ⟨own, hown, hkey, hid, hver, hvalue⟩ := hent.latest
  have hlive : w.live own = true := (live_of_open hid).mpr (hw.open_lt user id checkpoint hopen).2
  cases hlat : w.latest key with
  | none => exact absurd (latest_none hlat own hown hkey) (by simp [hlive])
  | some shown =>
    obtain ⟨hshown, hshownKey, hshownLive, hnewest⟩ := latest_some hw hlat
    refine ⟨shown, rfl, fun hshownId => ?_⟩
    have hle := hnewest own hown hkey hlive
    have hge := hent.own_le shown hshown hshownKey hshownId
    obtain rfl := eq_of_version hw.sorted hshown hown (by omega)
    exact ⟨hver, hvalue⟩

/-- What is shown is not a write of an invocation whose last write is not shown. -/
theorem Entry.overwritten (hoth : w.shared.base key ≠ ⟨some write.latestVersion, write.latestValue⟩)
    (hlat : w.latest key = some record) : record.invocation ≠ some id := by
  intro hid
  obtain ⟨shown, hshown, hown⟩ := hent.shown hw hopen
  cases hlat.symm.trans hshown
  obtain ⟨hver, hvalue⟩ := hown hid
  apply hoth
  rw [hw.current, hlat, baseOf, hver, hvalue]

end

variable {transaction : PropertyTransaction}

theorem Tracked.untouched (hw : Consistent initial w top)
    (h : Tracked initial w id transaction) (hwrite : transaction.writes[key]? = none)
    (hlat : w.latest key = some record) : record.invocation ≠ some id := by
  obtain ⟨hmem, hkey, -⟩ := latest_some hw hlat
  exact h.unwritten key hwrite record hmem hkey

/-- A transaction is tracked in any world with the same log in which no dead write comes back. -/
theorem Tracked.of_log {after : World}
    (h : Tracked initial w id transaction) (hlog : after.log = w.log)
    (hdead : ∀ record, w.live record = false → after.live record = false) :
    Tracked initial after id transaction where
  active := h.active
  unwritten := by rw [hlog]; exact h.unwritten
  written := by
    intro key write hwrite
    have hent := h.written key write hwrite
    refine ⟨?_, ?_, hent.restore_none, ?_, ?_⟩ <;> rw [hlog]
    · exact hent.latest
    · exact hent.own_le
    · exact hent.restore_some
    · intro record hmem hkey hafter hle hne
      exact hdead record (hent.between record hmem hkey hafter hle hne)

theorem Consistent.of_shared (hw : Consistent initial w top) {shared : SharedProperties}
    (h : ∀ key, shared.base key = w.shared.base key) :
    Consistent initial { w with shared } top where
  __ := hw
  current := fun key => (h key).trans (hw.current key)
  tracked := fun user id checkpoint hopen =>
    (hw.tracked user id checkpoint hopen).of_log rfl fun _ h => h

/-! ## A write -/

/-- One write with the next version. -/
def World.publish (w : World) (user : ℕ) (name : String) (value : Option String) (version : ℕ) :
    World :=
  let (shared, transaction) := publishWrite w.shared (w.users user).transaction name value version
  { w.setUser user { w.users user with transaction } with
    shared
    log := ⟨name, version, value, w.invocationOf user⟩ :: w.log }

theorem users_setUser (other : ℕ) (new : User) :
    (w.setUser user new).users other = if other = user then new else w.users other := by
  simp [setUser, Function.update_apply]

theorem open_setUser {new : User} {other : ℕ} {checkpoint : PropertyCheckpoint}
    (h : ((w.setUser user new).users other).invocation = some (id, checkpoint)) :
    (new.invocation = some (id, checkpoint) ∧ other = user) ∨
      other ≠ user ∧ (w.setUser user new).users other = w.users other ∧
        (w.users other).invocation = some (id, checkpoint) := by
  rw [users_setUser] at h ⊢
  split_ifs at h ⊢ with hoth
  · exact .inl ⟨h, hoth⟩
  · exact .inr ⟨hoth, rfl, h⟩

section

variable {name : String} {value : Option String}

theorem publish_owner (other : ℕ) : ((w.publish user name value (top + 1)).users other).invocation =
      (w.users other).invocation := by
  simp only [World.publish, publishWrite]
  rw [users_setUser]
  by_cases h : other = user
  · simp [h]
  · simp [h]

theorem live_publish : (w.publish user name value (top + 1)).live record = w.live record := rfl

theorem log_publish : (w.publish user name value (top + 1)).log =
    ⟨name, top + 1, value, w.invocationOf user⟩ :: w.log := rfl

section

variable (hw : Consistent initial w top)

include hw

theorem le_publish :
    ∀ record ∈ (w.publish user name value (top + 1)).log, record.version ≤ top + 1 :=
  forall_mem_cons.mpr ⟨Nat.le_refl _, fun record hmem => Nat.le_succ_of_le (hw.le_top record hmem)⟩

/-- A write of a running invocation or outside of any is live. -/
theorem live_new (user : ℕ) (name : String)
    (value : Option String) : w.live ⟨name, top + 1, value, w.invocationOf user⟩ = true := by
  cases hopen : (w.users user).invocation with
  | none => simp [live, invocationOf, hopen]
  | some invocation =>
    obtain ⟨id, checkpoint⟩ := invocation
    exact (live_of_open (by simp [invocationOf, hopen])).mpr (hw.open_lt user id checkpoint hopen).2

theorem latest_publish_self : (w.publish user name value (top + 1)).latest name =
      some ⟨name, top + 1, value, w.invocationOf user⟩ := by
  have hlive := live_new hw user name value
  simp only [World.latest, log_publish]
  rw [find?_cons_of_pos]
  simpa [live_publish] using hlive

end

theorem publish_ne (h : name ≠ key) :
    (w.publish user name value (top + 1)).latest key = w.latest key := by
  simp only [World.latest, log_publish]
  rw [find?_cons_of_neg (by simp [h])]
  rfl

section

variable (hw : Consistent initial w top)

include hw

theorem Consistent.known_base (key : String) : Known initial w key (w.shared.base key) := by
  rw [hw.current]
  cases hlat : w.latest key with
  | none => exact .inl rfl
  | some record =>
    obtain ⟨hmem, hkey, -⟩ := latest_some hw hlat
    exact .inr ⟨record, hmem, hkey, rfl⟩

theorem Entry.publish_other {write : PropertyWrite}
    (hent : Entry initial w id key write) (hoth : name = key → w.invocationOf user ≠ some id) :
    Entry initial (w.publish user name value (top + 1)) id key write where
  latest := by
    obtain ⟨record, hmem, h⟩ := hent.latest
    exact ⟨record, mem_cons_of_mem _ hmem, h⟩
  own_le := by
    intro record hmem hkey hid
    rcases mem_cons.mp hmem with rfl | hmem
    · exact absurd hid (hoth hkey)
    · exact hent.own_le record hmem hkey hid
  restore_none := hent.restore_none
  restore_some := by
    intro version hver
    obtain ⟨record, hmem, h⟩ := hent.restore_some version hver
    exact ⟨record, mem_cons_of_mem _ hmem, h⟩
  between := by
    intro record hmem hkey hafter hle hid
    rcases mem_cons.mp hmem with rfl | hmem
    · -- the new write is newer than any entry
      obtain ⟨own, hown, -, -, hver, -⟩ := hent.latest
      have := hw.le_top own hown
      simp only at hle
      omega
    · exact hent.between record hmem hkey hafter hle hid

theorem Entry.publish_self {checkpoint : PropertyCheckpoint}
    (hopen : (w.users user).invocation = some (id, checkpoint)) :
    Entry initial (w.publish user name value (top + 1)) id name
      ((w.users user).transaction.entryAfter name (w.shared.base name) (top + 1) value) := by
  have hid : w.invocationOf user = some id := by simp [invocationOf, hopen]
  have htracked := hw.tracked user id checkpoint hopen
  -- with what it found as the restore point, the entry is right if the shown write is not its own
  have hfound : (∀ record, w.latest name = some record → record.invocation ≠ some id) →
      Entry initial (w.publish user name value (top + 1)) id name
        ⟨top + 1, value, (w.shared.base name).version, (w.shared.base name).value⟩ := by
    intro hoth
    rw [hw.current]
    refine ⟨⟨_, mem_cons_self .., rfl, hid, rfl, rfl⟩,
      fun record hmem _ _ => le_publish hw record hmem, ?_, ?_, ?_⟩
    · intro hnone
      cases hlat : w.latest name with
      | none => rfl
      | some record => simp [hlat, baseOf] at hnone
    · intro version hver
      cases hlat : w.latest name with
      | none => simp [hlat, baseOf] at hver
      | some record =>
        obtain ⟨hmem, hkey, -⟩ := latest_some hw hlat
        simp only [hlat, baseOf, Option.some.injEq] at hver
        exact ⟨record, mem_cons_of_mem _ hmem, hkey, hoth record hlat, hver, rfl⟩
    · intro record hmem hkey hafter hle hne
      rcases mem_cons.mp hmem with rfl | hmem
      · exact absurd hid hne
      · rw [live_publish]
        cases hlat : w.latest name with
        | none => exact latest_none hlat record hmem hkey
        | some shown =>
          obtain ⟨-, -, -, hnewest⟩ := latest_some hw hlat
          have hlt := hafter shown.version (by simp [hlat, baseOf])
          by_contra hlive
          have := hnewest record hmem hkey (by simpa using hlive)
          omega
  cases hwrite : (w.users user).transaction.writes[name]? with
  | none =>
    rw [entry_first hwrite]
    exact hfound fun record => htracked.untouched hw hwrite
  | some write =>
    have hent := htracked.written name write hwrite
    obtain ⟨shown, hlat, -⟩ := hent.shown hw hopen
    obtain ⟨-, -, -, hnewest⟩ := latest_some hw hlat
    rw [entry_again hwrite]
    by_cases hsame : w.shared.base name = ⟨some write.latestVersion, write.latestValue⟩
    · rw [if_pos hsame]
      rw [hw.current, hlat] at hsame
      simp only [baseOf, PropertyBase.mk.injEq, Option.some.injEq] at hsame
      refine ⟨⟨_, mem_cons_self .., rfl, hid, rfl, rfl⟩,
        fun record hmem _ _ => le_publish hw record hmem, hent.restore_none, ?_, ?_⟩
      · intro version hver
        obtain ⟨record, hmem, h⟩ := hent.restore_some version hver
        exact ⟨record, mem_cons_of_mem _ hmem, h⟩
      · intro record hmem hkey hafter _ hne
        rcases mem_cons.mp hmem with rfl | hmem
        · exact absurd hid hne
        · rw [live_publish]
          -- what is newer than the shown write is dead, what is older was covered before
          by_cases hle : record.version ≤ write.latestVersion
          · exact hent.between record hmem hkey hafter hle hne
          · by_contra hlive
            have := hnewest record hmem hkey (by simpa using hlive)
            omega
    · rw [if_neg hsame]
      exact hfound fun record => hent.overwritten hw hopen hsame

theorem Consistent.publish (user : ℕ) (name : String) (value : Option String) :
    Consistent initial (w.publish user name value (top + 1)) (top + 1) where
  sorted := by
    rw [log_publish, pairwise_cons]
    exact ⟨fun record hmem => Nat.lt_succ_of_le (hw.le_top record hmem), hw.sorted⟩
  le_top := le_publish hw
  current := by
    intro key
    have hbase : (w.publish user name value (top + 1)).shared.base key =
        if name = key then ⟨some (top + 1), value⟩ else w.shared.base key := base_put ..
    rw [hbase]
    by_cases hkey : name = key
    · subst hkey
      rw [if_pos rfl, latest_publish_self hw]
      rfl
    · rw [if_neg hkey, publish_ne hkey]
      exact hw.current key
  record_lt := by
    intro record hmem id hid
    rcases mem_cons.mp hmem with rfl | hmem
    · obtain ⟨⟨opened, checkpoint⟩, hopen, rfl⟩ := Option.map_eq_some_iff.mp hid
      exact (hw.open_lt user opened checkpoint hopen).1
    · exact hw.record_lt record hmem id hid
  open_lt := by
    intro other id checkpoint hopen
    rw [publish_owner] at hopen
    exact hw.open_lt other id checkpoint hopen
  open_inj := by
    intro first second id checkpoint other hfirst hsec
    rw [publish_owner] at hfirst hsec
    exact hw.open_inj first second id checkpoint other hfirst hsec
  tracked := by
    intro other id checkpoint hopen
    rw [publish_owner] at hopen
    have htracked := hw.tracked other id checkpoint hopen
    by_cases hoth : other = user
    · subst hoth
      have htransaction : ((w.publish other name value (top + 1)).users other).transaction =
          recordPropertyWrite (w.users other).transaction name (w.shared.base name) (top + 1)
            value := by
        simp only [World.publish, publishWrite]
        rw [users_setUser, if_pos rfl]
      rw [htransaction]
      refine ⟨?_, ?_, ?_⟩
      · simp only [recordPropertyWrite, htracked.active, if_true]
      · intro key hnone record hmem hkey
        rw [writes_record htracked.active] at hnone
        by_cases hname : name = key
        · simp [hname] at hnone
        · rw [if_neg hname] at hnone
          rcases mem_cons.mp hmem with rfl | hmem
          · exact absurd hkey hname
          · exact htracked.unwritten key hnone record hmem hkey
      · intro key write hwrite
        rw [writes_record htracked.active] at hwrite
        by_cases hname : name = key
        · subst hname
          rw [if_pos rfl, Option.some.injEq] at hwrite
          subst hwrite
          exact Entry.publish_self hw hopen
        · rw [if_neg hname] at hwrite
          exact (htracked.written key write hwrite).publish_other hw fun h => absurd h hname
    · have huser : (w.publish user name value (top + 1)).users other = w.users other := by
        simp only [World.publish, publishWrite]
        rw [users_setUser, if_neg hoth]
      have hne : w.invocationOf user ≠ some id := by
        intro hid
        obtain ⟨⟨opened, found⟩, hfound, rfl⟩ := Option.map_eq_some_iff.mp hid
        exact hoth (hw.open_inj other user opened checkpoint found hopen hfound)
      rw [huser]
      refine ⟨htracked.active, ?_, fun key write hwrite =>
        (htracked.written key write hwrite).publish_other hw fun _ => hne⟩
      intro key hnone record hmem hkey
      rcases mem_cons.mp hmem with rfl | hmem
      · exact hne
      · exact htracked.unwritten key hnone record hmem hkey
  known := by
    intro other id checkpoint hopen key
    rw [publish_owner] at hopen
    rcases hw.known other id checkpoint hopen key with h | ⟨record, hmem, h⟩
    · exact .inl h
    · exact .inr ⟨record, mem_cons_of_mem _ hmem, h⟩
  rolled_lt := hw.rolled_lt

end

/-- The writes of a commit, one after the other. -/
def World.publishMany (w : World) (user : ℕ) : List PropertyMutation → ℕ → World
  | [], _ => w
  | mutation :: rest, version =>
    (w.publish user mutation.key mutation.value (version + 1)).publishMany user rest (version + 1)

theorem publishMany_eq (mutations : List PropertyMutation) : w.publishMany user mutations top =
      let (shared, transaction) := publishAll mutations top (w.shared, (w.users user).transaction)
      { w.setUser user { w.users user with transaction } with
        shared
        log := logAll (w.invocationOf user) mutations top w.log } := by
  induction mutations generalizing w top with
  | nil =>
    have hsame : w.setUser user (w.users user) = w := by
      simp [setUser, Function.update_eq_self]
    simp only [publishMany, publishAll, logAll, hsame]
  | cons mutation mutations ih =>
    have huser : (w.publish user mutation.key mutation.value (top + 1)).users user =
        { w.users user with transaction := (publishWrite w.shared (w.users user).transaction
            mutation.key mutation.value (top + 1)).2 } := by
      simp only [World.publish]
      rw [users_setUser, if_pos rfl]
    rw [publishMany, ih, huser]
    simp [World.publish, setUser, invocationOf, publishWrite, publishAll, logAll]

end

/-! ## The operations -/

theorem Consistent.checkpoint (hw : Consistent initial w top) (user : ℕ) : Consistent initial
      { w.setUser user ⟨(checkpointProperties w.shared).2,
          some (w.opened, (checkpointProperties w.shared).1)⟩
        with opened := w.opened + 1 } top where
  __ := hw
  record_lt := fun record hmem id hid => Nat.lt_succ_of_lt (hw.record_lt record hmem id hid)
  open_lt := by
    intro other id checkpoint hopen
    rcases open_setUser hopen with ⟨⟨⟩, -⟩ | ⟨-, -, hopen⟩
    · exact ⟨Nat.lt_succ_self _, fun hmem => Nat.lt_irrefl _ (hw.rolled_lt _ hmem)⟩
    · obtain ⟨hlt, hmem⟩ := hw.open_lt other id checkpoint hopen
      exact ⟨Nat.lt_succ_of_lt hlt, hmem⟩
  open_inj := by
    intro first second id checkpoint other hfirst hsec
    rcases open_setUser hfirst with ⟨⟨⟩, rfl⟩ | ⟨-, -, hold⟩ <;>
      rcases open_setUser hsec with ⟨⟨⟩, rfl⟩ | ⟨-, -, hold'⟩
    · rfl
    · exact absurd (hw.open_lt second _ other hold').1 (Nat.lt_irrefl _)
    · exact absurd (hw.open_lt first _ checkpoint hold).1 (Nat.lt_irrefl _)
    · exact hw.open_inj first second id checkpoint other hold hold'
  tracked := by
    intro other id checkpoint hopen
    rcases open_setUser hopen with ⟨⟨⟩, rfl⟩ | ⟨-, hsame, hopen⟩
    · simp only [users_setUser, if_true]
      refine ⟨rfl, ?_, ?_⟩
      · intro key _ record hmem _ hid
        exact Nat.lt_irrefl _ (hw.record_lt record hmem _ hid)
      · intro key write hwrite
        simp [checkpointProperties] at hwrite
    · simp only [hsame]
      exact (hw.tracked other id checkpoint hopen).of_log rfl fun _ h => h
  known := by
    intro other id checkpoint hopen key
    rcases open_setUser hopen with ⟨⟨⟩, -⟩ | ⟨-, -, hopen⟩
    · exact hw.known_base key
    · exact hw.known other id checkpoint hopen key
  rolled_lt := fun id hmem => Nat.lt_succ_of_lt (hw.rolled_lt id hmem)

theorem open_of_ended {other : ℕ} {checkpoint : PropertyCheckpoint}
    (h : ((w.setUser user ⟨transaction, none⟩).users other).invocation = some (id, checkpoint)) :
    other ≠ user ∧ (w.setUser user ⟨transaction, none⟩).users other = w.users other ∧
      (w.users other).invocation = some (id, checkpoint) :=
  (open_setUser h).resolve_left nofun

theorem Consistent.succeed (hw : Consistent initial w top) (user : ℕ) :
    Consistent initial (w.setUser user { w.users user with invocation := none }) top where
  __ := hw
  open_lt := fun other id checkpoint hopen =>
    hw.open_lt other id checkpoint (open_of_ended hopen).2.2
  open_inj := fun first second id checkpoint other hfirst hsec =>
    hw.open_inj first second id checkpoint other (open_of_ended hfirst).2.2 (open_of_ended hsec).2.2
  tracked := by
    intro other id checkpoint hopen
    obtain ⟨-, hsame, hopen⟩ := open_of_ended hopen
    rw [hsame]
    exact (hw.tracked other id checkpoint hopen).of_log rfl fun _ h => h
  known := fun other id checkpoint hopen => hw.known other id checkpoint (open_of_ended hopen).2.2

/-! ## Rollback -/

section

variable {checkpoint : PropertyCheckpoint}

/-- The world after the rollback of the running invocation of a user. -/
def World.rolled (w : World) (user id : ℕ) (checkpoint : PropertyCheckpoint) : World :=
  { w.setUser user ⟨(rollbackProperties w.shared (w.users user).transaction checkpoint).2,
    none⟩ with
    shared := (rollbackProperties w.shared (w.users user).transaction checkpoint).1
    rolledBack := id :: w.rolledBack }

theorem live_rolled (record : Record) : (w.rolled user id checkpoint).live record = true ↔
      w.live record = true ∧ record.invocation ≠ some id := by
  cases h : record.invocation with
  | none => simp [live, h]
  | some invocation => simp [live, World.rolled, h, and_comm]

theorem dead_rolled (h : w.live record = false) :
    (w.rolled user id checkpoint).live record = false := by
  refine Bool.eq_false_iff.mpr fun hback => ?_
  rw [((live_rolled record).mp hback).1] at h
  cases h

section

variable (hw : Consistent initial w top)
  (hopen : (w.users user).invocation = some (id, checkpoint))

include hw hopen

/-- A property with the version it had at the checkpoint has the value it had then. -/
theorem restore_unwritten (key : String) :
    (restoreTarget none (checkpoint.base key) (w.shared.base key)).getD (w.shared.base key) =
      w.shared.base key := by
  unfold restoreTarget
  by_cases hver : (w.shared.base key).version = (checkpoint.base key).version
  · simp only [hver, if_true, Option.getD_some]
    rcases hw.known user id checkpoint hopen key with hthen | ⟨before, hbefore, -, hthen⟩ <;>
      rcases hw.known_base key with hnow | ⟨now, hmem, -, hnow⟩
    · rw [hthen, hnow]
    · simp [hthen, hnow, baseOf] at hver
    · simp [hthen, hnow, baseOf] at hver
    · simp only [hthen, hnow, baseOf, Option.some.injEq] at hver
      rw [hthen, hnow, eq_of_version hw.sorted hmem hbefore hver]
  · simp [hver]

/-- **Rollback.**  If the writes it puts back are live, every property shows its newest live write
again. -/
theorem current_rolled (hlive : RestoresLive w (.rollback user)) (key : String) :
    (w.rolled user id checkpoint).shared.base key =
      baseOf initial key ((w.rolled user id checkpoint).latest key) := by
  have htracked := hw.tracked user id checkpoint hopen
  have hbase : (w.rolled user id checkpoint).shared.base key =
      (restoreTarget (w.users user).transaction.writes[key]? (checkpoint.base key)
        (w.shared.base key)).getD (w.shared.base key) := base_rollback ..
  rw [hbase]
  -- what is shown stays shown if it is not a write of this invocation
  have hstays : (∀ record, w.latest key = some record → record.invocation ≠ some id) →
      (w.rolled user id checkpoint).latest key = w.latest key := by
    intro hoth
    cases hlat : w.latest key with
    | none =>
      exact latest_eq_none fun other hmem hkey => dead_rolled (latest_none hlat other hmem hkey)
    | some record =>
      obtain ⟨hmem, hkey, hrec, hnewest⟩ := latest_some hw hlat
      apply latest_newest (w.rolled user id checkpoint) hw.sorted hmem hkey
      · exact (live_rolled record).mpr ⟨hrec, hoth record hlat⟩
      · intro other hoth hokey holiv
        exact hnewest other hoth hokey ((live_rolled other).mp holiv).1
  cases hwrite : (w.users user).transaction.writes[key]? with
  | none =>
    rw [restore_unwritten hw hopen, hstays, hw.current]
    exact fun record => htracked.untouched hw hwrite
  | some write =>
    have hent := htracked.written key write hwrite
    obtain ⟨shown, hlat, -⟩ := hent.shown hw hopen
    obtain ⟨-, -, -, hnewest⟩ := latest_some hw hlat
    by_cases hsame : w.shared.base key = ⟨some write.latestVersion, write.latestValue⟩
    · -- the last write of the invocation is shown, and is put back
      have htarget : restoreTarget (some write) (checkpoint.base key) (w.shared.base key) =
          some ⟨write.restoreVersion, write.restoreValue⟩ := by
        simp [restoreTarget, hsame]
      rw [htarget, Option.getD_some]
      have hver : shown.version = write.latestVersion := by
        rw [hw.current, hlat] at hsame
        simpa [baseOf] using congrArg PropertyBase.version hsame
      -- whatever is live after the rollback is not newer than the restore point
      have hafter : ∀ other ∈ w.log, other.key = key →
          (w.rolled user id checkpoint).live other = true →
          ∃ version, write.restoreVersion = some version ∧ other.version ≤ version := by
        intro other hoth hokey holiv
        obtain ⟨holiv, hotherId⟩ := (live_rolled other).mp holiv
        have hle := hnewest other hoth hokey holiv
        by_contra hnone
        have hdead := hent.between other hoth hokey (fun version hrestore =>
          Nat.lt_of_not_le fun h => hnone ⟨version, hrestore, h⟩) (by omega) hotherId
        rw [hdead] at holiv
        cases holiv
      cases hrestore : write.restoreVersion with
      | none =>
        rw [latest_eq_none, hent.restore_none hrestore]
        · rfl
        · intro other hoth hokey
          by_contra hback
          obtain ⟨version, hsome, -⟩ := hafter other hoth hokey (by simpa using hback)
          rw [hrestore] at hsome
          cases hsome
      | some version =>
        obtain ⟨record, hrec, hrecordKey, hrecordId, rfl, hvalue⟩ :=
          hent.restore_some version hrestore
        have hrecordLive : w.live record = true := by
          refine hlive (key, write) ?_ hsame record hrec hrecordKey hrestore
          exact ExtTreeMap.mem_toList_iff_getElem?_eq_some.mpr hwrite
        have hnew : (w.rolled user id checkpoint).latest key = some record := by
          apply latest_newest (w.rolled user id checkpoint) hw.sorted hrec hrecordKey
          · exact (live_rolled record).mpr ⟨hrecordLive, hrecordId⟩
          · intro other hoth hokey holiv
            obtain ⟨version, hsome, hle⟩ := hafter other hoth hokey holiv
            rw [hrestore, Option.some.injEq] at hsome
            omega
        rw [hnew, baseOf, hvalue]
    · have htarget : restoreTarget (some write) (checkpoint.base key) (w.shared.base key) =
          none := by
        refine if_neg fun hshown => hsame ?_
        rw [← hshown.1, ← hshown.2]
      rw [htarget, Option.getD_none, hstays, hw.current]
      exact fun record => hent.overwritten hw hopen hsame

theorem Consistent.rolled (hlive : RestoresLive w (.rollback user)) :
    Consistent initial (w.rolled user id checkpoint) top where
  __ := hw
  current := current_rolled hw hopen hlive
  open_lt := by
    intro other invocation found hfound
    obtain ⟨hoth, -, hrunning⟩ := open_of_ended hfound
    obtain ⟨hlt, hmem⟩ := hw.open_lt other invocation found hrunning
    refine ⟨hlt, fun h => ?_⟩
    rcases mem_cons.mp h with rfl | h
    · exact hoth (hw.open_inj other user invocation found checkpoint hrunning hopen)
    · exact hmem h
  open_inj := fun first second id checkpoint other hfirst hsec =>
    hw.open_inj first second id checkpoint other (open_of_ended hfirst).2.2 (open_of_ended hsec).2.2
  tracked := by
    intro other invocation found hfound
    obtain ⟨-, hsame, hfound⟩ := open_of_ended hfound
    have htracked : Tracked initial (w.rolled user id checkpoint) invocation
        (w.users other).transaction :=
      (hw.tracked other invocation found hfound).of_log rfl fun _ => dead_rolled
    rw [← hsame] at htracked
    exact htracked
  known := fun other id checkpoint hopen => hw.known other id checkpoint (open_of_ended hopen).2.2
  rolled_lt := by
    intro invocation hmem
    rcases mem_cons.mp hmem with rfl | hmem
    · exact (hw.open_lt user invocation checkpoint hopen).1
    · exact hw.rolled_lt invocation hmem

end

theorem epoch_restoreKey (shared : SharedProperties) :
    (restoreKey transaction checkpoint shared key).propertyEpoch = shared.propertyEpoch := by
  unfold restoreKey
  cases restoreTarget transaction.writes[key]? (checkpoint.base key) (shared.base key) <;> rfl

/-- Versions are never given back. -/
theorem epoch_rollback (shared : SharedProperties) :
    (rollbackProperties shared transaction checkpoint).1.propertyEpoch = shared.propertyEpoch := by
  unfold rollbackProperties
  generalize rollbackKeys shared transaction checkpoint = keys
  induction keys generalizing shared with
  | nil => rfl
  | cons key keys ih => exact (ih _).trans (epoch_restoreKey ..)

end

/-- What has to be shown of an invariant; `top` is the last version given.  Only rollbacks have to
be `allowed`. -/
structure Preserved (allowed : World → Op → Prop) (I : World → ℕ → Prop) : Prop where
  shared : ∀ {w : World} {top : ℕ} {shared : SharedProperties}, I w top →
    (∀ key, shared.base key = w.shared.base key) → I { w with shared } top
  publish : ∀ {w : World} {top : ℕ}, I w top → ∀ user name value,
    I (w.publish user name value (top + 1)) (top + 1)
  checkpoint : ∀ {w : World} {top : ℕ}, I w top → ∀ user,
    I { w.setUser user ⟨(checkpointProperties w.shared).2,
          some (w.opened, (checkpointProperties w.shared).1)⟩
        with opened := w.opened + 1 } top
  succeed : ∀ {w : World} {top : ℕ}, I w top → ∀ user,
    I (w.setUser user { w.users user with invocation := none }) top
  rolled : ∀ {w : World} {top user id : ℕ} {checkpoint : PropertyCheckpoint}, I w top →
    (w.users user).invocation = some (id, checkpoint) → allowed w (.rollback user) →
    I (w.rolled user id checkpoint) top

section

variable {allowed : World → Op → Prop} {I : World → ℕ → Prop} (hpreserved : Preserved allowed I)

include hpreserved

theorem Preserved.publishMany (hw : I w top) (user : ℕ) (mutations : List PropertyMutation) :
    I (w.publishMany user mutations top) (top + mutations.length) := by
  induction mutations generalizing w top with
  | nil => exact hw
  | cons mutation mutations ih =>
    have hnext := ih (hpreserved.publish hw user mutation.key mutation.value)
    rwa [show top + 1 + mutations.length = top + (mutations.length + 1) by omega] at hnext

theorem Preserved.published (hw : I w w.shared.propertyEpoch) (user : ℕ)
    (mutations : List PropertyMutation) :
    let (shared, transaction) := publishAll mutations w.shared.propertyEpoch
      (w.shared, (w.users user).transaction)
    let propertyEpoch := w.shared.propertyEpoch + mutations.length
    I (w.published user mutations { shared with propertyEpoch } transaction) propertyEpoch := by
  have hmany := hpreserved.publishMany hw user mutations
  rw [publishMany_eq] at hmany
  exact hpreserved.shared hmany fun _ => rfl

theorem Preserved.step (hw : I w w.shared.propertyEpoch) {op : Op} (hallowed : allowed w op) :
    I (w.step op) (w.step op).shared.propertyEpoch := by
  cases op with
  | setProperty user name value =>
    by_cases h : w.shared.propertyEpoch + 1 ≤ u64Max
    · simp only [World.step, setPropertyValue, checkedAdd_le h, if_pos h]
      exact hpreserved.published hw user [⟨name, some value⟩]
    · have hnone : checkedAdd u64Max w.shared.propertyEpoch 1 = none :=
        checkedAdd_none.mpr (by omega)
      simp only [World.step, setPropertyValue, hnone, if_neg h]
      exact hpreserved.shared hw fun _ => rfl
  | commit user bases mutations =>
    simp only [World.step, commitProperties]
    by_cases hconflict : bases.any fun entry => w.shared.base entry.1 ≠ entry.2
    · rw [if_pos hconflict]
      exact hw
    · rw [if_neg hconflict]
      by_cases hempty : mutations = []
      · subst hempty
        exact hpreserved.published hw user []
      · rw [if_neg hempty]
        cases hepoch : checkedAdd u64Max w.shared.propertyEpoch mutations.length with
        | none => exact hpreserved.shared hw fun _ => rfl
        | some finalEpoch =>
          obtain ⟨rfl, -⟩ := checkedAdd_some.mp hepoch
          exact hpreserved.published hw user mutations
  | checkpoint user =>
    simp only [World.step]
    cases (w.users user).invocation with
    | some invocation => exact hw
    | none => exact hpreserved.checkpoint hw user
  | succeed user => exact hpreserved.succeed hw user
  | rollback user =>
    cases hopen : (w.users user).invocation with
    | none =>
      simp only [World.step, hopen]
      exact hw
    | some invocation =>
      obtain ⟨id, checkpoint⟩ := invocation
      have hstep : w.step (.rollback user) = w.rolled user id checkpoint := by
        simp only [World.step, hopen, World.rolled]
      have hepoch : (w.rolled user id checkpoint).shared.propertyEpoch =
          w.shared.propertyEpoch := epoch_rollback ..
      rw [hstep, hepoch]
      exact hpreserved.rolled hw hopen hallowed

end

theorem preserved_consistent : Preserved RestoresLive (Consistent initial) where
  shared h hbase := h.of_shared hbase
  publish h user name value := h.publish user name value
  checkpoint h user := h.checkpoint user
  succeed h user := h.succeed user
  rolled h hopen hlive := h.rolled hopen hlive

theorem Consistent.run {ops : List Op} (hw : Consistent initial w w.shared.propertyEpoch)
    (h : RestoresLiveAlong w ops) :
    Consistent initial (w.run ops) (w.run ops).shared.propertyEpoch := by
  induction ops generalizing w with
  | nil => exact hw
  | cons op ops ih => exact ih (preserved_consistent.step hw h.1) h.2

end

/-- **Surviving writes.**  In a run in which no rollback puts back a write of an invocation that
was rolled back before, each property has the value written last outside any invocation or inside
one that was not rolled back, or its initial value.  This holds in every state on the way, so also
when every invocation has ended. -/
theorem surviving_value (initial : ExtTreeMap String String) (ops : List Op)
    (h : RestoresLiveAlong (World.initial initial) ops) (key : String) :
    ((World.initial initial).run ops).shared.properties[key]? =
      ((World.initial initial).run ops).survivingValue initial key := by
  have hw := (consistent_initial initial).run h
  have hvalue := congrArg PropertyBase.value (hw.current key)
  rw [survivingValue]
  cases hlatest : ((World.initial initial).run ops).latest key with
  | none | some record => rwa [hlatest] at hvalue

instance (w : World) : (op : Op) → Decidable (RestoresLive w op)
  | .rollback _ => inferInstanceAs (Decidable (∀ entry ∈ _, _))
  | .setProperty .. | .commit .. | .checkpoint _ | .succeed _ => isTrue trivial

instance decidableRestoresLiveAlong :
    (w : World) → (ops : List Op) → Decidable (RestoresLiveAlong w ops)
  | _, [] => isTrue trivial
  | w, op :: ops =>
    have := decidableRestoresLiveAlong (w.step op) ops
    inferInstanceAs (Decidable (_ ∧ _))

/-- A component of user 1 fails after user 2 has written the same property in a component that
succeeds. -/
theorem surviving_value_peerWrite :
    let ops : List Op := [.checkpoint 1, .setProperty 1 "k" "a", .checkpoint 2,
      .setProperty 2 "k" "b", .rollback 1, .succeed 2]
    ((World.initial ∅).run ops).shared.properties["k"]? =
      ((World.initial ∅).run ops).survivingValue ∅ "k" :=
  surviving_value ∅ _ (by decide +kernel) "k"

/-- Two components write one property and both fail, the first writer first: the second puts the
first one's value back. -/
theorem rolledBack_value_left :
    let ops : List Op := [.checkpoint 1, .checkpoint 2, .setProperty 1 "k" "a",
      .setProperty 2 "k" "b", .rollback 1, .rollback 2]
    ((World.initial ∅).run ops).shared.properties["k"]? = some "a" ∧
      ((World.initial ∅).run ops).survivingValue ∅ "k" = none := by
  decide +kernel

/-! ## Versions -/

theorem suffix_logAll (invocation : Option ℕ) (mutations : List PropertyMutation) (version : ℕ)
    (log : List Record) : log <:+ logAll invocation mutations version log := by
  induction mutations generalizing version log with
  | nil => exact suffix_refl log
  | cons mutation rest ih => exact (suffix_cons _ log).trans (ih ..)

theorem suffix_run (w : World) (ops : List Op) : w.log <:+ (w.run ops).log := by
  induction ops generalizing w with
  | nil => exact suffix_refl _
  | cons op ops ih =>
    refine .trans ?_ (ih (w.step op))
    unfold step published
    dsimp only
    split <;> (try split_ifs) <;> (try split) <;>
      first | exact suffix_refl _ | exact suffix_logAll ..

/-- Whatever a property shows, or a rollback may put back, is its initial value or one of its
writes, with its version. -/
structure Backed (initial : ExtTreeMap String String) (w : World) (top : ℕ) : Prop where
  sorted : w.log.Pairwise fun newer older => older.version < newer.version
  le_top : ∀ record ∈ w.log, record.version ≤ top
  base : ∀ key, Known initial w key (w.shared.base key)
  known : ∀ user id checkpoint, (w.users user).invocation = some (id, checkpoint) →
    ∀ key, Known initial w key (checkpoint.base key)
  restore : ∀ user key write, (w.users user).transaction.writes[key]? = some write →
    Known initial w key ⟨write.restoreVersion, write.restoreValue⟩

section

variable {initial : ExtTreeMap String String} {w : World} {top user id : ℕ}
  {checkpoint : PropertyCheckpoint}

theorem Known.publish {key : String} {base : PropertyBase} (h : Known initial w key base)
    (user : ℕ) (name : String) (value : Option String) (version : ℕ) :
    Known initial (w.publish user name value version) key base := by
  rcases h with h | ⟨record, hmem, h⟩
  · exact .inl h
  · exact .inr ⟨record, mem_cons_of_mem _ hmem, h⟩

/-- A write remembers what a property showed, or what an earlier write of the transaction did. -/
theorem Backed.entry (h : Backed initial w top) {name : String} {value : Option String}
    {version : ℕ} {key : String} {write : PropertyWrite}
    (hwrite : (recordPropertyWrite (w.users user).transaction name (w.shared.base name) version
      value).writes[key]? = some write) :
    Known initial w key ⟨write.restoreVersion, write.restoreValue⟩ := by
  cases hactive : (w.users user).transaction.active with
  | false =>
    simp only [recordPropertyWrite, hactive] at hwrite
    exact h.restore user key write hwrite
  | true =>
    rw [writes_record hactive] at hwrite
    split_ifs at hwrite with hname
    · subst hname
      cases hwrite
      cases hold : (w.users user).transaction.writes[name]? with
      | none =>
        rw [entry_first hold]
        exact h.base name
      | some old =>
        rw [entry_again hold]
        split_ifs
        · exact h.restore user name old hold
        · exact h.base name
    · exact h.restore user key write hwrite

theorem Backed.publish (h : Backed initial w top) (user : ℕ) (name : String)
    (value : Option String) : Backed initial (w.publish user name value (top + 1)) (top + 1) where
  sorted := by
    rw [log_publish, pairwise_cons]
    exact ⟨fun record hmem => Nat.lt_succ_of_le (h.le_top record hmem), h.sorted⟩
  le_top := forall_mem_cons.mpr
    ⟨Nat.le_refl _, fun record hmem => Nat.le_succ_of_le (h.le_top record hmem)⟩
  base := by
    intro key
    have hbase : (w.publish user name value (top + 1)).shared.base key =
        if name = key then ⟨some (top + 1), value⟩ else w.shared.base key := base_put ..
    rw [hbase]
    split_ifs with hname
    · exact .inr ⟨_, mem_cons_self, hname, rfl⟩
    · exact (h.base key).publish ..
  known := by
    intro other id checkpoint hopen key
    rw [publish_owner] at hopen
    exact (h.known other id checkpoint hopen key).publish ..
  restore := by
    intro other key write hwrite
    simp only [World.publish, publishWrite, users_setUser] at hwrite
    split_ifs at hwrite with hother
    · exact (h.entry hwrite).publish ..
    · exact (h.restore other key write hwrite).publish ..

theorem Backed.rolled (h : Backed initial w top)
    (hopen : (w.users user).invocation = some (id, checkpoint)) :
    Backed initial (w.rolled user id checkpoint) top where
  sorted := h.sorted
  le_top := h.le_top
  base := by
    intro key
    have hbase : (w.rolled user id checkpoint).shared.base key =
        (restoreTarget (w.users user).transaction.writes[key]? (checkpoint.base key)
          (w.shared.base key)).getD (w.shared.base key) := base_rollback ..
    rw [hbase]
    cases hwrite : (w.users user).transaction.writes[key]? with
    | none =>
      dsimp only [restoreTarget]
      split_ifs
      · exact h.known user id checkpoint hopen key
      · exact h.base key
    | some write =>
      dsimp only [restoreTarget]
      split_ifs
      · exact h.restore user key write hwrite
      · exact h.base key
  known := fun other id checkpoint hopen => h.known other id checkpoint (open_of_ended hopen).2.2
  restore := by
    intro other key write hwrite
    simp only [World.rolled, users_setUser] at hwrite
    split_ifs at hwrite with hother
    · exact absurd hwrite get?_empty_ne
    · exact h.restore other key write hwrite

theorem preserved_backed : Preserved (fun _ _ => True) (Backed initial) where
  shared h hbase := { h with base := fun key => hbase key ▸ h.base key }
  publish h user name value := h.publish user name value
  checkpoint h user := by
    refine ⟨h.sorted, h.le_top, h.base, fun other id checkpoint hopen key => ?_,
      fun other key write hwrite => ?_⟩
    · rcases open_setUser hopen with ⟨⟨⟩, -⟩ | ⟨-, -, hopen⟩
      · exact h.base key
      · exact h.known other id checkpoint hopen key
    · simp only [users_setUser] at hwrite
      split_ifs at hwrite
      · exact absurd hwrite get?_empty_ne
      · exact h.restore other key write hwrite
  succeed h user := by
    refine ⟨h.sorted, h.le_top, h.base, fun other id checkpoint hopen =>
      h.known other id checkpoint (open_of_ended hopen).2.2, fun other key write hwrite => ?_⟩
    rw [users_setUser] at hwrite
    split_ifs at hwrite with hother
    · exact h.restore user key write hwrite
    · exact h.restore other key write hwrite
  rolled h hopen _ := h.rolled hopen

theorem backed_initial (initial : ExtTreeMap String String) :
    Backed initial (World.initial initial) 0 := by
  refine ⟨.nil, fun _ hmem => absurd hmem not_mem_nil, fun key => .inl ?_,
    fun _ _ _ hopen => ?_, fun _ _ _ hwrite => absurd hwrite get?_empty_ne⟩
  · simp [World.initial, baseOf, SharedProperties.initial, SharedProperties.base]
  · cases hopen

theorem Backed.run (h : Backed initial w w.shared.propertyEpoch) (ops : List Op) :
    Backed initial (w.run ops) (w.run ops).shared.propertyEpoch := by
  induction ops generalizing w with
  | nil => exact h
  | cons op ops ih => exact ih (preserved_backed.step h trivial)

/-- The write that a property shows. -/
theorem Backed.shown {version : ℕ} {key : String} (hw : Backed initial w top)
    (h : w.shared.propertyVersions[key]? = some version) :
    ∃ record ∈ w.log, record.key = key ∧ record.version = version ∧
      record.value = w.shared.properties[key]? := by
  rcases hw.base key with hbase | ⟨record, hmem, hkey, hbase⟩
  · cases h.symm.trans (congrArg PropertyBase.version hbase)
  · exact ⟨record, hmem, hkey,
      Option.some.inj ((congrArg PropertyBase.version hbase).symm.trans h),
      (congrArg PropertyBase.value hbase).symm⟩

end

/-- **A version stands for one write.**  In any run, a version that is seen at two times belongs to
the same property with the same value, whatever was written and rolled back between. -/
theorem version_one_write (initial : ExtTreeMap String String) (ops more : List Op) :
    let before := (World.initial initial).run ops
    ∀ (first second : String) version, before.shared.propertyVersions[first]? = some version →
      (before.run more).shared.propertyVersions[second]? = some version →
      first = second ∧
        before.shared.properties[first]? = (before.run more).shared.properties[second]? := by
  intro before first second version hfirst hsecond
  have hw : Backed initial before _ := (backed_initial initial).run ops
  have hw' := hw.run more
  obtain ⟨record, hmem, rfl, rfl, hvalue⟩ := hw.shown hfirst
  obtain ⟨record', hmem', rfl, hversion, hvalue'⟩ := hw'.shown hsecond
  cases eq_of_version hw'.sorted hmem' ((suffix_run before more).mem hmem) hversion
  exact ⟨rfl, hvalue.symm.trans hvalue'⟩

/-- Whatever a failed component has written in between. -/
theorem version_one_write_rolledBack :
    let before := (World.initial ∅).run [.setProperty 2 "k" "b"]
    before.shared.properties["k"]? = (before.run [.checkpoint 1, .setProperty 1 "k" "a",
      .rollback 1]).shared.properties["k"]? :=
  (version_one_write ∅ _ _ "k" "k" 1 (by decide +kernel) (by decide +kernel)).2

end JmeterRs.Execution
