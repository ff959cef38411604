import JmeterRs.Lib.Triple

/-!
# The timing of a sample

`SampleTiming` keeps the wall-clock timestamps of a sample and its durations, all in milliseconds;
every field may be absent.  Its mutators are to leave only values that `validate` accepts, and to
leave the value as it was if they fail.  All of them do but the start of a sample, which is not
checked against an end that is already there.  A sample with pauses can be ended only if it was
paused for at most half of its time.
-/

namespace JmeterRs.Results

/-- Signed milliseconds since the epoch (`i64` in the source). -/
abbrev WallTimestamp := ℤ

inductive TimingViolation
  | endBeforeStart
  | elapsedExceedsWallSpan
  | latencyExceedsElapsed
  | connectExceedsElapsed
  | idleExceedsElapsed
  deriving DecidableEq

inductive ResultField
  | timestamp
  | elapsed
  | idle
  deriving DecidableEq

inductive ResultError
  | invalidInput (field : ResultField)
  | invalidTiming (violation : TimingViolation)
  | overflow (field : ResultField)
  deriving DecidableEq

/-- The milliseconds to a later timestamp, if they fit `u64`. -/
def checkedSpanTo (start later : WallTimestamp) : Except ResultError ℕ :=
  if later < start then .error (.invalidTiming .endBeforeStart)
  else if u64Max < (later - start).toNat then .error (.overflow .elapsed)
  else .ok (later - start).toNat

inductive TimestampSource
  | start
  | end_
  deriving DecidableEq

structure SampleTiming where
  timestamp : Option WallTimestamp
  start : Option WallTimestamp
  end_ : Option WallTimestamp
  /-- When the sample was suspended, if it is paused. -/
  pauseStart : Option WallTimestamp
  elapsed : Option ℕ
  latency : Option ℕ
  connect : Option ℕ
  idle : Option ℕ
  deriving DecidableEq

/-- `SampleTiming::default`. -/
def SampleTiming.empty : SampleTiming := ⟨none, none, none, none, none, none, none, none⟩

/-! ## Checks -/

/-- Both are present and the first is larger. -/
def exceeds : Option ℕ → Option ℕ → Bool
  | some part, some whole => whole < part
  | _, _ => false

namespace SampleTiming

def checkedWallSpan (t : SampleTiming) : Except ResultError (Option ℕ) :=
  match t.start, t.end_ with
  | some start, some end_ => do return some (← checkedSpanTo start end_)
  | _, _ => .ok none

def validateComponents (t : SampleTiming) : Except ResultError Unit :=
  if exceeds t.latency t.elapsed then .error (.invalidTiming .latencyExceedsElapsed)
  else if exceeds t.connect t.elapsed then .error (.invalidTiming .connectExceedsElapsed)
  else if exceeds t.idle t.elapsed then .error (.invalidTiming .idleExceedsElapsed)
  else .ok ()

def validate (t : SampleTiming) : Except ResultError Unit := do
  let span ← t.checkedWallSpan
  if exceeds t.elapsed span then .error (.invalidTiming .elapsedExceedsWallSpan)
  else t.validateComponents

/-- A span without the idle time. -/
def active (t : SampleTiming) (span : ℕ) : Except ResultError ℕ :=
  if span < t.idle.getD 0 then .error (.invalidTiming .idleExceedsElapsed)
  else .ok (span - t.idle.getD 0)

/-- The elapsed time is derived once both ends are there. -/
def derived (t : SampleTiming) : Except ResultError SampleTiming :=
  match t.start, t.end_ with
  | some start, some end_ => do
    let elapsed ← t.active (← checkedSpanTo start end_)
    return { t with elapsed := some elapsed }
  | _, _ => .ok t

def elapsedSinceStart (at_ : WallTimestamp) (t : SampleTiming) : Except ResultError ℕ :=
  match t.start with
  | none => .error (.invalidInput .timestamp)
  | some start => do t.active (← checkedSpanTo start at_)

end SampleTiming

/-! ## Mutators -/

abbrev Timing := EStateM ResultError SampleTiming

/-- Works on a copy, which replaces the value at the end. -/
def replace {α : Type} (f : SampleTiming → Except ResultError (α × SampleTiming)) : Timing α :=
  fun t =>
    match f t with
    | .ok (a, candidate) => .ok a candidate
    | .error e => .error e t

/-- The copy is validated first. -/
def replaceValid (f : SampleTiming → Except ResultError SampleTiming) : Timing Unit :=
  replace fun t => do
    let candidate ← f t
    candidate.validate
    return ((), candidate)

def replaceChecked (update : SampleTiming → SampleTiming) : Timing Unit :=
  replaceValid fun t => .ok (update t)

section

variable (value : Option ℕ) (stamp : Option WallTimestamp) (at_ : WallTimestamp)
  (source : TimestampSource)

def setTimestamp : Timing Unit := modify ({ · with timestamp := stamp })
def setStart : Timing Unit := replaceChecked ({ · with start := stamp })
def setEnd : Timing Unit := replaceChecked ({ · with end_ := stamp })
def setElapsed : Timing Unit := replaceChecked ({ · with elapsed := value })
def setLatency : Timing Unit := replaceChecked ({ · with latency := value })
def setConnect : Timing Unit := replaceChecked ({ · with connect := value })
def setIdle : Timing Unit := replaceChecked ({ · with idle := value })

def samplePauseAt : Timing Unit := fun t =>
  if t.pauseStart.isSome then .error (.invalidInput .timestamp) t
  else .ok () { t with pauseStart := some at_ }

def sampleResumeAt : Timing ℕ :=
  replace fun t =>
    match t.pauseStart with
    | none => .error (.invalidInput .timestamp)
    | some start => do
      let duration ← checkedSpanTo start at_
      match checkedAdd u64Max (t.idle.getD 0) duration with
      | none => .error (.overflow .idle)
      | some idle =>
        let candidate ← { t with pauseStart := none, idle := some idle }.derived
        candidate.validateComponents
        return (duration, candidate)

def sampleStartAt : Timing Unit := fun t =>
  if t.start.isSome then .error (.invalidInput .timestamp) t
  else .ok () { t with start := some at_ }

def sampleStartAtWithSource : Timing Unit := do
  sampleStartAt at_
  if source = .start then modify ({ · with timestamp := some at_ })

def sampleEndAt : Timing Unit :=
  replaceValid fun t =>
    if t.end_.isSome then .error (.invalidInput .timestamp)
    else { t with end_ := some at_ }.derived

def sampleEndAtWithSource : Timing Unit := fun previous =>
  match sampleEndAt at_ previous with
  | .error e t => .error e t
  | .ok _ t =>
    let t := { t with timestamp := match source with
      | .start => t.start
      | .end_ => t.end_ }
    match t.validate with
    | .ok _ => .ok () t
    | .error e => .error e previous

/-- Records the time from the start to a marker. -/
def markEndAt (update : ℕ → SampleTiming → SampleTiming) : Timing ℕ := do
  let value ← check (·.elapsedSinceStart at_)
  replaceChecked (update value)
  return value

def latencyEndAt : Timing ℕ := markEndAt at_ fun value t => { t with latency := some value }
def connectEndAt : Timing ℕ := markEndAt at_ fun value t => { t with connect := some value }

def aggregateChild (child : SampleTiming) : Timing Unit :=
  replaceValid fun t =>
    let end_ := match child.end_ with
      | none => t.end_
      | some childEnd => some (match t.end_ with
        | none => childEnd
        | some parentEnd => if childEnd < parentEnd then parentEnd else childEnd)
    { t with end_, elapsed := t.elapsed <|> child.elapsed }.derived

end

inductive TimingCall
  | setTimestamp (value : Option WallTimestamp)
  | setStart (value : Option WallTimestamp)
  | setEnd (value : Option WallTimestamp)
  | setElapsed (value : Option ℕ)
  | setLatency (value : Option ℕ)
  | setConnect (value : Option ℕ)
  | setIdle (value : Option ℕ)
  | samplePauseAt (at_ : WallTimestamp)
  | sampleResumeAt (at_ : WallTimestamp)
  | sampleStartAt (at_ : WallTimestamp)
  | sampleStartAtWithSource (at_ : WallTimestamp) (source : TimestampSource)
  | sampleEndAt (at_ : WallTimestamp)
  | sampleEndAtWithSource (at_ : WallTimestamp) (source : TimestampSource)
  | latencyEndAt (at_ : WallTimestamp)
  | connectEndAt (at_ : WallTimestamp)
  | aggregateChild (child : SampleTiming)

def perform : TimingCall → Timing Unit
  | .setTimestamp value => setTimestamp value
  | .setStart value => setStart value
  | .setEnd value => setEnd value
  | .setElapsed value => setElapsed value
  | .setLatency value => setLatency value
  | .setConnect value => setConnect value
  | .setIdle value => setIdle value
  | .samplePauseAt at_ => samplePauseAt at_
  | .sampleResumeAt at_ => do let _ ← sampleResumeAt at_
  | .sampleStartAt at_ => sampleStartAt at_
  | .sampleStartAtWithSource at_ source => sampleStartAtWithSource at_ source
  | .sampleEndAt at_ => sampleEndAt at_
  | .sampleEndAtWithSource at_ source => sampleEndAtWithSource at_ source
  | .latencyEndAt at_ => do let _ ← latencyEndAt at_
  | .connectEndAt at_ => do let _ ← connectEndAt at_
  | .aggregateChild child => aggregateChild child

/-! ## Valid values -/

open SampleTiming

def SampleTiming.Valid (t : SampleTiming) : Prop := t.validate = .ok ()

variable {t t' : SampleTiming}

/-- The end is not before the start, and the elapsed time fits between them. -/
def SampleTiming.Spanned (t : SampleTiming) : Prop :=
  ∀ start end_, t.start = some start → t.end_ = some end_ →
    start ≤ end_ ∧ (end_ - start).toNat ≤ u64Max ∧
      ∀ elapsed, t.elapsed = some elapsed → elapsed ≤ (end_ - start).toNat

theorem spanTo_ok {start later : ℤ} {span : ℕ} : checkedSpanTo start later = .ok span ↔
      start ≤ later ∧ span = (later - start).toNat ∧ span ≤ u64Max := by
  unfold checkedSpanTo
  rw [ite_error_ok, ite_error_ok]
  constructor
  · rintro ⟨horder, hfits, ⟨⟩⟩
    exact ⟨Int.not_lt.mp horder, rfl, Nat.not_lt.mp hfits⟩
  · rintro ⟨horder, rfl, hfits⟩
    exact ⟨Int.not_lt.mpr horder, Nat.not_lt.mpr hfits, rfl⟩

theorem wallSpan_fits :
    (∃ span, t.checkedWallSpan = .ok span ∧ ¬ exceeds t.elapsed span = true) ↔ t.Spanned := by
  unfold checkedWallSpan Spanned
  cases t.start with
  | none => cases t.elapsed <;> simp [exceeds]
  | some start =>
    cases t.end_ with
    | none => cases t.elapsed <;> simp [exceeds]
    | some end_ =>
      constructor
      · rintro ⟨_, hok, hfits⟩ _ _ ⟨⟩ ⟨⟩
        obtain ⟨span, hspan, ⟨⟩⟩ := bind_ok.mp hok
        obtain ⟨horder, rfl, hmax⟩ := spanTo_ok.mp hspan
        refine ⟨horder, hmax, fun elapsed hel => ?_⟩
        simpa [hel, exceeds] using hfits
      · intro h
        obtain ⟨horder, hmax, hel⟩ := h start end_ rfl rfl
        refine ⟨some _, bind_ok.mpr ⟨_, spanTo_ok.mpr ⟨horder, rfl, hmax⟩, rfl⟩, ?_⟩
        cases hel' : t.elapsed with
        | none => simp [exceeds]
        | some elapsed => simpa [exceeds] using hel elapsed hel'

theorem valid_iff : t.Valid ↔ t.Spanned ∧ t.validateComponents = .ok () := by
  rw [← wallSpan_fits, Valid, validate, bind_ok]
  simp only [ite_error_ok, ← and_assoc, exists_and_right]

theorem spanned_derived (h : t.derived = .ok t') : t'.Spanned := by
  unfold derived at h
  split at h
  · next start end_ hsta hend =>
    obtain ⟨span, hspan, h⟩ := bind_ok.mp h
    obtain ⟨elapsed, hel, h⟩ := bind_ok.mp h
    obtain ⟨-, hel⟩ := ite_error_ok.mp hel
    cases hel
    cases h
    obtain ⟨horder, rfl, hfits⟩ := spanTo_ok.mp hspan
    intro _ _ hsta' hend'
    cases hsta.symm.trans hsta'
    cases hend.symm.trans hend'
    exact ⟨horder, hfits, fun _ hel => by cases hel; exact Nat.sub_le ..⟩
  · next hnone =>
    cases h
    exact fun start end_ hsta hend => absurd hend (hnone start end_ hsta)

/-- A failure changes nothing, and a success leaves a valid value. -/
def Checked {α : Type} (t : SampleTiming) : EStateM.Result ResultError SampleTiming α → Prop :=
  Meets (fun _ => Valid) (· = t)

theorem checked_replace {α : Type} {f : SampleTiming → Except ResultError (α × SampleTiming)}
    (h : ∀ a candidate, f t = .ok (a, candidate) → candidate.Valid) : Checked t (replace f t) := by
  unfold replace
  cases hf : f t with
  | ok result => exact h result.1 result.2 hf
  | error e => rfl

theorem checked_valid (f : SampleTiming → Except ResultError SampleTiming) :
    Checked t (replaceValid f t) := by
  refine checked_replace fun a candidate h => ?_
  obtain ⟨copy, -, h⟩ := bind_ok.mp h
  obtain ⟨_, hval, h⟩ := bind_ok.mp h
  cases h
  exact hval

theorem replaceValid_ok {f : SampleTiming → Except ResultError SampleTiming} :
    replaceValid f t = .ok () t' ↔ f t = .ok t' ∧ t'.Valid := by
  unfold replaceValid replace Valid
  cases hcopy : f t with
  | error e => simp [hcopy, bind, Except.bind]
  | ok copy =>
    cases hval : copy.validate <;> simp [hcopy, hval, bind, Except.bind, pure, Except.pure]
    all_goals grind

theorem replace_checked (update : SampleTiming → SampleTiming) :
    Checked t (replaceChecked update t) :=
  checked_valid _

section

variable (at_ : WallTimestamp)

theorem checked_endAt (source : TimestampSource) :
    Checked t (sampleEndAtWithSource at_ source t) := by
  have hend : Checked t (sampleEndAt at_ t) := checked_valid _
  unfold sampleEndAtWithSource
  cases hrun : sampleEndAt at_ t with
  | error e t' => rwa [hrun] at hend
  | ok _ t' =>
    rw [hrun] at hend
    -- The serialized timestamp is not checked.
    dsimp only
    split
    · assumption
    · rfl

theorem checked_resumeAt : Checked t (sampleResumeAt at_ t) := by
  refine checked_replace fun a candidate h => ?_
  split at h
  · cases h
  · obtain ⟨duration, -, h⟩ := bind_ok.mp h
    split at h
    · cases h
    · obtain ⟨derived, hderived, h⟩ := bind_ok.mp h
      obtain ⟨_, hparts, h⟩ := bind_ok.mp h
      cases h
      exact valid_iff.mpr ⟨spanned_derived hderived, hparts⟩

theorem checked_mark (update : ℕ → SampleTiming → SampleTiming) :
    Checked t (markEndAt at_ update t) := by
  unfold markEndAt
  cases hvalue : t.elapsedSinceStart at_ with
  | error e =>
    rw [run_bind_error (check_error hvalue)]
    rfl
  | ok value =>
    rw [run_bind_ok (check_ok hvalue)]
    exact meets_bind (checked_valid _) fun _ _ h => h

end

/-! ## Runs -/

/-- A start does not come after the end that is there, and leaves room for the elapsed time. -/
def TimingCall.Fits (t : SampleTiming) : TimingCall → Prop
  | .sampleStartAt at_ | .sampleStartAtWithSource at_ _ =>
    t.start = none → { t with start := some at_ }.Spanned
  | _ => True

theorem valid_started (h : t.Valid) (at_ : WallTimestamp) (timestamp : Option WallTimestamp) :
    { t with start := some at_, timestamp }.Valid ↔ { t with start := some at_ }.Spanned :=
  valid_iff.trans (and_iff_left (valid_iff.mp h).2)

/-- What a call does: it fails and changes nothing, or it leaves a valid value valid unless it is a
start that does not fit. -/
def Performed (t : SampleTiming) (call : TimingCall) :
    EStateM.Result ResultError SampleTiming Unit → Prop :=
  Meets (fun _ t' => t.Valid → (t'.Valid ↔ call.Fits t)) (fun t' => t' = t ∧ call.Fits t)

theorem perform_spec (call : TimingCall) (t : SampleTiming) :
    Performed t call (perform call t) := by
  have hchecked {result} (hfits : call.Fits t) (h : Checked t result) : Performed t call result :=
    h.mono (fun _ _ hval _ => iff_of_true hval hfits) fun _ herror => ⟨herror, hfits⟩
  have hsta (at_ : WallTimestamp) : Meets (fun _ t' => t.start = none ∧ ∀ timestamp, t.Valid →
        ({ t' with timestamp }.Valid ↔ { t with start := some at_ }.Spanned))
      (fun t' => t' = t ∧ t.start ≠ none) (sampleStartAt at_ t) := by
    unfold sampleStartAt
    split_ifs with hsome
    · exact ⟨rfl, Option.isSome_iff_ne_none.mp hsome⟩
    · exact ⟨Option.not_isSome_iff_eq_none.mp hsome, fun timestamp h =>
        valid_started h at_ timestamp⟩
  cases call with
  | setTimestamp value => exact fun h => iff_of_true h trivial
  | setStart value | setEnd value | setElapsed value | setLatency value | setConnect value
  | setIdle value =>
    rw [perform]
    exact hchecked trivial (replace_checked _)
  | sampleEndAt at_ | aggregateChild child =>
    rw [perform]
    exact hchecked trivial (checked_valid _)
  | samplePauseAt at_ =>
    rw [perform, samplePauseAt]
    split_ifs
    · exact ⟨rfl, trivial⟩
    · exact fun h => iff_of_true h trivial
  | sampleStartAt at_ =>
    refine (hsta at_).mono (fun _ t' h ht => ?_) fun _ h => ⟨h.1, fun hnone => absurd hnone h.2⟩
    rw [TimingCall.Fits, forall_prop_of_true h.1]
    exact h.2 t'.timestamp ht
  | sampleStartAtWithSource at_ source =>
    refine meets_bind ((hsta at_).mono (fun _ _ h => h)
      fun _ h => ⟨h.1, fun hnone => absurd hnone h.2⟩) fun _ t' h => ?_
    split_ifs
    all_goals
      intro ht
      rw [TimingCall.Fits, forall_prop_of_true h.1]
      exact h.2 _ ht
  | sampleEndAtWithSource at_ source =>
    exact hchecked trivial (checked_endAt at_ source)
  | sampleResumeAt at_ =>
    exact hchecked trivial (meets_bind (checked_resumeAt at_) fun _ _ h => h)
  | latencyEndAt at_ | connectEndAt at_ =>
    exact hchecked trivial (meets_bind (checked_mark at_ _) fun _ _ h => h)

def after (call : TimingCall) (t : SampleTiming) : SampleTiming :=
  match perform call t with
  | .ok _ t' => t'
  | .error _ t' => t'

/-- The value is valid before each call and after the last. -/
def ValidAlong : List TimingCall → SampleTiming → Prop
  | [], t => t.Valid
  | call :: calls, t => t.Valid ∧ ValidAlong calls (after call t)

def FitsAlong : List TimingCall → SampleTiming → Prop
  | [], _ => True
  | call :: calls, t => call.Fits t ∧ FitsAlong calls (after call t)

theorem valid_after (h : t.Valid) (call : TimingCall) : (after call t).Valid ↔ call.Fits t := by
  have hspec := perform_spec call t
  unfold after
  cases hrun : perform call t with
  | ok _ t' =>
    rw [hrun] at hspec
    exact hspec h
  | error e t' =>
    rw [hrun] at hspec
    obtain ⟨rfl, hfits⟩ := hspec
    exact iff_of_true h hfits

theorem validAlong_iff (calls : List TimingCall) (h : t.Valid) :
    ValidAlong calls t ↔ FitsAlong calls t := by
  induction calls generalizing t with
  | nil => exact iff_of_true h trivial
  | cons call calls ih =>
    refine (and_iff_right h).trans ⟨fun hrest => ?_, fun hfits => ?_⟩
    · have hafter : (after call t).Valid := by
        cases calls with
        | nil => exact hrest
        | cons => exact hrest.1
      exact ⟨(valid_after h call).mp hafter, (ih hafter).mp hrest⟩
    · exact (ih ((valid_after h call).mpr hfits.1)).mpr hfits.2

/-- From an empty value, calls keep the value valid and those that fail leave it as it was, exactly
if no sample is started after its end or with too little room for the elapsed time. -/
theorem timing_valid_iff (calls : List TimingCall) :
    (ValidAlong calls .empty ∧ ∀ call t e t', perform call t = .error e t' → t' = t) ↔
      FitsAlong calls .empty := by
  have hempty : empty.Valid := rfl
  rw [validAlong_iff calls hempty]
  refine and_iff_left fun call t e t' h => ?_
  have hspec := perform_spec call t
  rw [h] at hspec
  exact hspec.1

/-- A sample that is started after its end. -/
theorem start_after_end : (after (.sampleStartAt 10) (after (.setEnd (some 5)) .empty)).validate =
      .error (.invalidTiming .endBeforeStart) := rfl

/-! ## Life cycles -/

def pauseAll : List (ℤ × ℤ) → Timing Unit
  | [] => pure ()
  | (pause, resume) :: pauses => do
    samplePauseAt pause
    let _ ← sampleResumeAt resume
    pauseAll pauses

/-- A sample is started, paused and resumed, and ended. -/
def lifeCycle (start : ℤ) (pauses : List (ℤ × ℤ)) (end_ : ℤ) : Timing Unit := do
  sampleStartAt start
  pauseAll pauses
  sampleEndAt end_

/-- The pauses follow each other between two timestamps. -/
def Ordered : ℤ → List (ℤ × ℤ) → ℤ → Prop
  | now, [], end_ => now ≤ end_
  | now, (pause, resume) :: pauses, end_ =>
    now ≤ pause ∧ pause ≤ resume ∧ Ordered resume pauses end_

def paused : List (ℤ × ℤ) → ℕ
  | [] => 0
  | (pause, resume) :: pauses => (resume - pause).toNat + paused pauses

variable {start end_ : ℤ} {pauses : List (ℤ × ℤ)}

theorem Ordered.paused_le (h : Ordered start pauses end_) :
    start ≤ end_ ∧ paused pauses ≤ (end_ - start).toNat := by
  induction pauses generalizing start with
  | nil => exact ⟨h, Nat.zero_le _⟩
  | cons first pauses ih =>
    obtain ⟨hpause, hresume, hrest⟩ := h
    obtain ⟨hle, hsum⟩ := ih hrest
    rw [paused]
    omega

/-- A sample that is started, not paused and not ended. -/
def running (start : ℤ) (idle : Option ℕ) : SampleTiming :=
  ⟨none, some start, none, none, none, none, none, idle⟩

def ended (start end_ : ℤ) (idle : Option ℕ) : SampleTiming :=
  ⟨none, some start, some end_, none, some ((end_ - start).toNat - idle.getD 0), none, none, idle⟩

theorem pauseAll_running {now : ℤ} (start : ℤ) (idle : Option ℕ)
    (horder : Ordered now pauses end_) (hfits : idle.getD 0 + paused pauses ≤ u64Max) :
    ∃ idle', pauseAll pauses (running start idle) = .ok () (running start idle') ∧
      idle'.getD 0 = idle.getD 0 + paused pauses := by
  induction pauses generalizing now idle with
  | nil => exact ⟨idle, rfl, rfl⟩
  | cons first pauses ih =>
    obtain ⟨pause, resume⟩ := first
    obtain ⟨-, hresume, hrest⟩ := horder
    rw [paused] at hfits
    have hspan : checkedSpanTo pause resume = .ok (resume - pause).toNat :=
      spanTo_ok.mpr ⟨hresume, rfl, by omega⟩
    have hadd : checkedAdd u64Max (idle.getD 0) (resume - pause).toNat =
        some (idle.getD 0 + (resume - pause).toNat) := checkedAdd_le (by omega)
    have hpaused : samplePauseAt pause (running start idle) =
        .ok () { running start idle with pauseStart := some pause } := rfl
    have hresumed : sampleResumeAt resume { running start idle with pauseStart := some pause } =
        .ok (resume - pause).toNat
          (running start (some (idle.getD 0 + (resume - pause).toNat))) := by
      simp only [sampleResumeAt, replace, running, hspan, hadd, bind, Except.bind]
      rfl
    obtain ⟨idle', hall, hidle⟩ := ih (some (idle.getD 0 + (resume - pause).toNat)) hrest
      (by rw [Option.getD_some]; omega)
    refine ⟨idle', ?_, ?_⟩
    · rw [pauseAll, run_bind_ok hpaused, run_bind_ok hresumed, hall]
    · rw [hidle, paused, Option.getD_some, Nat.add_assoc]

/-- The idle time is checked against what is left of the span without it. -/
theorem sampleEndAt_running {idle : Option ℕ} (horder : start ≤ end_)
    (hfits : (end_ - start).toNat ≤ u64Max) (hidle : idle.getD 0 ≤ (end_ - start).toNat) :
    sampleEndAt end_ (running start idle) = .ok () t ↔
      2 * idle.getD 0 ≤ (end_ - start).toNat ∧ t = ended start end_ idle := by
  have hspan := spanTo_ok.mpr ⟨horder, rfl, hfits⟩
  have hderived : { running start idle with end_ := some end_ }.derived =
      .ok (ended start end_ idle) :=
    bind_ok.mpr ⟨_, hspan, bind_ok.mpr ⟨_, if_neg (Nat.not_lt.mpr hidle), rfl⟩⟩
  have hparts : (ended start end_ idle).validateComponents = .ok () ↔
      2 * idle.getD 0 ≤ (end_ - start).toNat := by
    cases idle with
    | none => exact iff_of_true rfl (Nat.zero_le _)
    | some idle =>
      rw [validateComponents, ite_error_ok, ite_error_ok, ite_error_ok]
      simp only [ended, exceeds, Option.getD_some, decide_eq_true_eq] at hidle ⊢
      grind
  rw [sampleEndAt, replaceValid_ok]
  constructor
  · rintro ⟨hcopy, hval⟩
    cases hderived.symm.trans hcopy
    exact ⟨hparts.mp (valid_iff.mp hval).2, rfl⟩
  · rintro ⟨hhalf, rfl⟩
    exact ⟨hderived, valid_iff.mpr ⟨spanned_derived hderived, hparts.mpr hhalf⟩⟩

/-- The life cycle of a sample whose timestamps are in order succeeds, with the pauses as idle time
and the rest of the span as elapsed time, exactly if it is paused for at most half of the span. -/
theorem lifeCycle_iff (horder : Ordered start pauses end_) (hfits : (end_ - start).toNat ≤ u64Max) :
    (∃ t, lifeCycle start pauses end_ .empty = .ok () t ∧ t.idle.getD 0 = paused pauses ∧
      ∃ elapsed, t.elapsed = some elapsed ∧ (elapsed + paused pauses : ℤ) = end_ - start) ↔
    2 * paused pauses ≤ end_ - start := by
  obtain ⟨hle, hpaused⟩ := horder.paused_le
  have hstart : sampleStartAt start .empty = .ok () (running start none) := rfl
  obtain ⟨idle, hall, hidle⟩ := pauseAll_running start none horder (by rw [Option.getD_none]; omega)
  rw [Option.getD_none, Nat.zero_add] at hidle
  rw [lifeCycle, run_bind_ok hstart, run_bind_ok hall]
  simp only [sampleEndAt_running hle hfits (hidle ▸ hpaused), hidle]
  constructor
  · rintro ⟨t, ⟨hhalf, -⟩, -⟩
    omega
  · intro hhalf
    refine ⟨_, ⟨by omega, rfl⟩, hidle, _, rfl, by omega⟩

/-- A sample of 100 ms that is paused for 40 ms. -/
theorem lifeCycle_short_pause :
    ∃ t, lifeCycle 0 [(10, 30), (50, 70)] 100 .empty = .ok () t ∧ t.idle.getD 0 = 40 ∧
      ∃ elapsed, t.elapsed = some elapsed ∧ (elapsed + 40 : ℤ) = 100 - 0 :=
  (lifeCycle_iff (by simp [Ordered]) (by decide)).mpr (by decide)

/-- A sample of 100 ms that is paused for 60 ms cannot be ended. -/
theorem lifeCycle_long_pause :
    match lifeCycle 0 [(10, 30), (50, 90)] 100 .empty with
    | .ok .. => False
    | .error e _ => e = .invalidTiming .idleExceedsElapsed := rfl

end JmeterRs.Results
