import JmeterRs.Remote.Emission

/-!
# Envelopes that come twice

An envelope that a worker has applied may reach it again.  `Unmoved` says that the second delivery
leaves the phase, the run, the configuration, the sender and the counters as they are and is
answered by the same acknowledgement or refused.  `Reopens` lists when this fails: the profile of
the current generation resets a stopped worker, a worker whose configuration is incomplete takes an
old plan or old properties again, and a run whose identifier has been forgotten is started or
stopped a second time.
-/

namespace JmeterRs.Remote

open Std RemoteWorker

variable {E : Type}

/-! ## Histories -/

def WorkerCall.after [DecidableEq E] (codec : EventCodec E) (call : WorkerCall E)
    (w : RemoteWorker E) : RemoteWorker E :=
  match call.perform codec w with
  | .ok _ w => w
  | .error _ w => w

/-- The envelope that a call applies, if it does not fail. -/
def WorkerCall.applies [DecidableEq E] (codec : EventCodec E) (call : WorkerCall E)
    (w : RemoteWorker E) : List (RemoteEnvelope E) :=
  match call, call.perform codec w with
  | .apply envelope, .ok _ _ => [envelope]
  | _, _ => []

/-- The workers that calls lead to, with the envelopes that were applied. -/
inductive WorkerHistory [DecidableEq E] (codec : EventCodec E) (id : WorkerId)
    (profile : ProfileDescriptor) : List (RemoteEnvelope E) → RemoteWorker E → Prop
  | new : WorkerHistory codec id profile [] (.new id profile)
  | call {applied : List (RemoteEnvelope E)} {w : RemoteWorker E}
      (h : WorkerHistory codec id profile applied w) (call : WorkerCall E) :
      WorkerHistory codec id profile (call.applies codec w ++ applied) (call.after codec w)

/-! ## What a second delivery may not change -/

/-- The part of a worker that a second delivery may not change. -/
structure Shown (E : Type) where
  phase : WorkerPhase
  runId : Option RunId
  plan : Option PlanDescriptor
  properties : Option PropertySet
  sender : Option (SampleSender E)
  nextSequence : ℕ
  deliveredWatermark : ℕ
  nextSampleEnvelopeOrdinal : ℕ

def RemoteWorker.shown (w : RemoteWorker E) : Shown E :=
  ⟨w.phase, w.runId, w.plan, w.properties, w.sender, w.nextSequence, w.deliveredWatermark,
    w.nextSampleEnvelopeOrdinal⟩

/-- The stage that answers a message of the coordinator. -/
def RemoteMessage.answer : RemoteMessage E → Option AckStage
  | .profile _ => some .profile
  | .plan _ => some .plan
  | .properties _ => some .properties
  | .start .. => some .started
  | .stop .. => some .stopped
  | _ => none

/-- The stage of an acknowledgement. -/
def RemoteEnvelope.ackStage (envelope : RemoteEnvelope E) : Option AckStage :=
  match envelope.message with
  | .ack _ stage _ _ _ => some stage
  | _ => none

/-- The result is a refusal or one acknowledgement of the stage, and shows no change. -/
def Still (w : RemoteWorker E) (stage : Option AckStage) :
    EStateM.Result RemoteError (RemoteWorker E) (List (RemoteEnvelope E)) → Prop
  | .error _ w' => w'.shown = w.shown
  | .ok envelopes w' => w'.shown = w.shown ∧ ∃ ack, envelopes = [ack] ∧ ack.ackStage = stage

/-- A delivery of the envelope changes nothing that is shown. -/
def Unmoved (w : RemoteWorker E) (envelope : RemoteEnvelope E) : Prop :=
  Still w envelope.message.answer (apply envelope w)

/-- The request belongs to an earlier configuration. -/
def RemoteWorker.Retired (w : RemoteWorker E) (requestId : RequestId) : Prop :=
  w.profileRequestId.any (requestId < ·) = true

/-- The worker is ready and does not remember the run. -/
def RemoteWorker.Forgot (w : RemoteWorker E) (runId : RunId) : Prop :=
  w.phase = .ready ∧ w.lastRunId ≠ some runId ∧ w.consumedRunIds.contains runId = false

/-- When an envelope that was applied before acts a second time. -/
def Reopens (w : RemoteWorker E) (envelope : RemoteEnvelope E) : Prop :=
  match envelope.message with
  | .profile profile =>
    w.profileRequestId = some envelope.requestId ∧
      profile.validateWithLimits w.wireCodecLimits = .ok () ∧
      (w.phase = .stopped ∨
        w.phase = .idle ∧ w.plan.isSome = true ∧ w.acceptedProfile ≠ some profile)
  | .plan plan =>
    ¬ w.Retired envelope.requestId ∧ w.phase = .idle ∧ w.plan ≠ some plan ∧
      plan.validateWithLimits w.configurationLimits = .ok () ∧
      w.resources.satisfies plan = .ok ()
  | .properties properties =>
    ¬ w.Retired envelope.requestId ∧ w.phase = .idle ∧
      ∃ plan, w.plan = some plan ∧
        validateConfiguration plan properties w.configurationLimits = .ok ()
  | .start runId _ _ => w.Forgot runId
  | .stop runId _ => w.Forgot runId ∨ (w.phase = .running ∧ w.runId = some runId)
  | _ => False

/-! ## What is known about a worker and the envelopes it applied -/

/-- A mode that a sender can be made for. -/
structure Startable (mode : SampleSenderMode) : Prop where
  supported : mode.executionSupported = true
  capacity : mode.capacity.getD 4096 ≠ 0
  bound : mode.hasZeroBound = false

/-- What the configuration of a worker depends on. -/
structure ConfigView (E : Type) where
  advertisedProfile : ProfileDescriptor
  acceptedProfile : Option ProfileDescriptor
  profileRequestId : Option RequestId
  plan : Option PlanDescriptor
  properties : Option PropertySet
  resources : WorkerResources
  wireCodecLimits : RemoteLimits
  phase : WorkerPhase
  threadCount : ℕ
  senderMode : Option SampleSenderMode
  batchTimeMs : Option ℕ
  sender : Option (SampleSender E)
  nextSequence : ℕ

def RemoteWorker.configView (w : RemoteWorker E) : ConfigView E :=
  ⟨w.advertisedProfile, w.acceptedProfile, w.profileRequestId, w.plan, w.properties, w.resources,
    w.wireCodecLimits, w.phase, w.threadCount, w.senderMode, w.batchTimeMs, w.sender,
    w.nextSequence⟩

structure Kept (v : ConfigView E) : Prop where
  limits : v.wireCodecLimits.isValid = true
  batch : v.batchTimeMs ≠ some 0
  advertised : v.acceptedProfile.isSome = true →
    v.advertisedProfile.validateWithLimits v.wireCodecLimits = .ok ()
  accepted : ∀ profile, v.acceptedProfile = some profile →
    v.advertisedProfile.supports profile = true
  available : ∀ plan, v.plan = some plan → v.resources.satisfies plan = .ok ()
  idle : v.phase = .idle → v.properties = none ∧ v.sender = none ∧ v.nextSequence = 0
  staged : v.plan.isSome = true → v.acceptedProfile.isSome = true
  configured : v.phase ≠ .idle → v.plan.isSome = true ∧ v.properties.isSome = true
  running : v.phase = .running →
    v.threadCount ≠ 0 ∧ ∀ mode, v.senderMode = some mode → Startable mode

def KnownMessage (v : ConfigView E) (requestId : RequestId) : RemoteMessage E → Prop
  | .profile profile => v.advertisedProfile.supports profile = true ∧
      ∃ generation, v.profileRequestId = some generation ∧ requestId ≤ generation
  | .plan _ | .properties _ => True
  | .start runId threadCount mode => validateRunId runId = .ok () ∧ threadCount ≠ 0 ∧ Startable mode
  | .stop runId _ => validateRunId runId = .ok ()
  | _ => False

/-- What is known about an envelope that was applied. -/
structure Known (v : ConfigView E) (envelope : RemoteEnvelope E) : Prop where
  control : ¬ (envelope.requestId = 0 ∨ usesSampleEnvelopeNamespace envelope.requestId = true)
  accepted : v.acceptedProfile.isSome = true
  message : KnownMessage v envelope.requestId envelope.message

/-- The configuration has gone on: what was accepted stays, the generation does not go back. -/
structure Later (v v' : ConfigView E) : Prop where
  advertised : v'.advertisedProfile = v.advertisedProfile
  accepted : v.acceptedProfile.isSome = true → v'.acceptedProfile.isSome = true
  generation : ∀ generation, v.profileRequestId = some generation →
    ∃ generation', v'.profileRequestId = some generation' ∧ generation ≤ generation'

variable {v v' v'' : ConfigView E} {w : RemoteWorker E} {envelope : RemoteEnvelope E}

theorem Later.of_eq (hadvance : v'.advertisedProfile = v.advertisedProfile)
    (hacc : v'.acceptedProfile = v.acceptedProfile)
    (hgen : v'.profileRequestId = v.profileRequestId) : Later v v' :=
  ⟨hadvance, fun h => hacc ▸ h, fun generation h =>
    ⟨generation, hgen.trans h, Nat.le_refl _⟩⟩

theorem KnownMessage.later {requestId : RequestId} {message : RemoteMessage E}
    (h : KnownMessage v requestId message) (hlater : Later v v') :
    KnownMessage v' requestId message := by
  cases message with
  | profile profile =>
    obtain ⟨hsupports, generation, hgen, hle⟩ := h
    obtain ⟨generation', hgen', hle'⟩ := hlater.generation generation hgen
    refine ⟨?_, generation', hgen', Nat.le_trans hle hle'⟩
    rw [hlater.advertised]
    exact hsupports
  | _ => exact h

theorem Known.later (h : Known v envelope) (hlater : Later v v') : Known v' envelope :=
  ⟨h.control, hlater.accepted h.accepted, h.message.later hlater⟩

/-! ### The checks -/

theorem not_isNone {α : Type} {o : Option α} : ¬ o.isNone = true ↔ o.isSome = true := by
  cases o <;> simp

theorem ne_idle {phase : WorkerPhase} (h : w.phase = phase) (hphase : phase ≠ .idle) :
    w.configView.phase ≠ .idle :=
  fun hidle => hphase (h.symm.trans hidle)

section

variable {requestId : RequestId} {runId : RunId} {profile : ProfileDescriptor}

/-- When a profile begins a new configuration. -/
theorem profile_fresh : w.checkProfile requestId profile = .ok false ↔ ¬ w.Retired requestId ∧
      w.advertisedProfile.validateWithLimits w.wireCodecLimits = .ok () ∧
      profile.validateWithLimits w.wireCodecLimits = .ok () ∧
      ¬ ((w.phase = .idle ∨ w.phase = .ready) ∧ w.acceptedProfile = some profile) ∧
      (w.phase = .idle ∨ w.phase = .stopped) ∧ w.advertisedProfile.supports profile = true := by
  unfold checkProfile RemoteWorker.Retired
  rw [ite_error_ok, bind_ok]
  refine and_congr_right fun _ => ?_
  constructor
  · rintro ⟨_, hadvance, h⟩
    obtain ⟨_, hprofile, h⟩ := bind_ok.mp h
    split_ifs at h with hsame hphase hsupports
    · cases h
    · exact ⟨hadvance, hprofile, hsame, hphase, hsupports⟩
  · rintro ⟨hadvance, hprofile, hsame, hphase, hsupports⟩
    refine ⟨(), hadvance, bind_ok.mpr ⟨(), hprofile, ?_⟩⟩
    rw [if_neg hsame, if_neg (not_not.mpr hphase), if_neg (not_not.mpr hsupports)]

/-- When a profile is accepted already. -/
theorem profile_same (h : w.checkProfile requestId profile = .ok true) :
    ¬ w.Retired requestId ∧ w.acceptedProfile = some profile := by
  unfold checkProfile at h
  rw [ite_error_ok] at h
  obtain ⟨hret, h⟩ := h
  obtain ⟨_, -, h⟩ := bind_ok.mp h
  obtain ⟨_, -, h⟩ := bind_ok.mp h
  split_ifs at h with hsame
  · exact ⟨hret, hsame.2⟩
  · cases h

/-- When a plan is staged. -/
theorem plan_fresh {plan : PlanDescriptor} :
    w.checkPlan requestId plan = .ok false ↔ ¬ w.Retired requestId ∧
      w.acceptedProfile.isSome = true ∧ w.phase = .idle ∧ w.plan ≠ some plan ∧
      plan.validateWithLimits w.configurationLimits = .ok () ∧
      w.resources.satisfies plan = .ok () := by
  unfold checkPlan RemoteWorker.Retired
  rw [ite_error_ok, ite_error_ok, bind_ok]
  refine and_congr_right fun _ => ?_
  constructor
  · rintro ⟨hready, _, hvalid, h⟩
    rw [not_or, not_not, not_isNone] at hready
    split_ifs at h with hsame hphase
    · cases h
    · obtain ⟨_, hsatisfies, -⟩ := bind_ok.mp h
      exact ⟨hready.1, hready.2.resolve_right hphase, hsame, hvalid, hsatisfies⟩
  · rintro ⟨hacc, hphase, hsame, hvalid, hsatisfies⟩
    refine ⟨?_, (), hvalid, ?_⟩
    · rw [not_or, not_not, not_isNone]
      exact ⟨hacc, .inl hphase⟩
    · rw [if_neg hsame, if_neg (by rw [hphase]; exact nofun)]
      exact bind_ok.mpr ⟨(), hsatisfies, rfl⟩

/-- When properties are staged. -/
theorem properties_fresh {properties : PropertySet} :
    w.checkProperties requestId properties = .ok false ↔ ¬ w.Retired requestId ∧
      w.acceptedProfile.isSome = true ∧ w.phase = .idle ∧ w.properties ≠ some properties ∧
      ∃ plan, w.plan = some plan ∧
        validateConfiguration plan properties w.configurationLimits = .ok () := by
  unfold checkProperties RemoteWorker.Retired
  rw [ite_error_ok, ite_error_ok, bind_ok]
  refine and_congr_right fun _ => ?_
  constructor
  · rintro ⟨hready, _, hvalid, h⟩
    rw [not_or, not_or, not_not, not_isNone, not_isNone] at hready
    obtain ⟨hacc, hplan, hphase⟩ := hready
    obtain ⟨plan, hplan⟩ := Option.isSome_iff_exists.mp hplan
    rw [hplan] at hvalid
    split_ifs at h with hsame hphase'
    · cases h
    · exact ⟨hacc, hphase.resolve_right hphase', hsame, plan, hplan, hvalid⟩
  · rintro ⟨hacc, hphase, hsame, plan, hplan, hvalid⟩
    refine ⟨?_, (), ?_, ?_⟩
    · rw [not_or, not_or, not_not, not_isNone, not_isNone, hplan]
      exact ⟨hacc, rfl, .inl hphase⟩
    · rw [hplan]
      exact hvalid
    · rw [if_neg hsame, if_neg (by rw [hphase]; exact nofun)]

theorem withBatchTime_ok (config : SenderConfig) {time : Option ℕ} (h : time ≠ some 0) :
    ∃ config', config.withBatchTimeMs time = some config' := by
  cases time with
  | none => exact ⟨config, rfl⟩
  | some time => exact ⟨_, if_neg fun hzero => h (congrArg some hzero)⟩

variable {mode : SampleSenderMode}

/-- A sender can be made for a startable mode. -/
theorem senderFor_ok (hkept : Kept w.configView) (hmode : Startable mode) :
    ∃ sender, w.senderFor mode hmode.supported = .ok sender := by
  have hlimits : w.wireCodecLimits.isValid = true := hkept.limits
  unfold senderFor SenderConfig.fromLimitsAndCodec
  rw [if_neg (by simp [hmode.capacity, hmode.bound, hlimits])]
  obtain ⟨config, hconfig⟩ := withBatchTime_ok _ hkept.batch
  exact ⟨.new config, bind_ok.mpr ⟨_, rfl, bind_ok.mpr
    ⟨config, SampleSender.need_eq_ok.mpr hconfig, rfl⟩⟩⟩

theorem senderFor_mode {supported : mode.executionSupported = true} {sender : SampleSender E}
    (h : w.senderFor mode supported = .ok sender) : Startable mode := by
  obtain ⟨config, hconfig, -⟩ := bind_ok.mp h
  rw [SampleSender.need_eq_ok] at hconfig
  unfold SenderConfig.fromLimitsAndCodec at hconfig
  split_ifs at hconfig with hinv
  rw [not_or, not_or] at hinv
  exact ⟨supported, hinv.1, Bool.eq_false_iff.mpr hinv.2.2⟩

/-- When a run begins. -/
theorem start_fresh (hkept : Kept w.configView) {threadCount : ℕ} :
    (∃ sender, w.checkStart runId threadCount mode = .ok sender) ↔
      w.Forgot runId ∧ threadCount ≠ 0 ∧ Startable mode := by
  unfold checkStart RemoteWorker.Forgot
  constructor
  · rintro ⟨sender, h⟩
    rw [ite_error_ok, ite_error_ok, ite_error_ok] at h
    obtain ⟨hlast, hcons, hcount, h⟩ := h
    split at h
    · rw [ite_error_ok, not_not] at h
      obtain ⟨hphase, h⟩ := h
      obtain ⟨plan, -, h⟩ := bind_ok.mp h
      obtain ⟨_, -, h⟩ := bind_ok.mp h
      refine ⟨⟨hphase, fun hsame => hlast ⟨hphase, hsame⟩, ?_⟩, hcount, senderFor_mode h⟩
      exact Bool.eq_false_iff.mpr fun hmem => hcons ⟨hphase, hmem⟩
    · cases h
  · rintro ⟨⟨hphase, hlast, hcons⟩, hcount, hmode⟩
    obtain ⟨sender, hsender⟩ := senderFor_ok hkept hmode
    obtain ⟨plan, hplan⟩ := Option.isSome_iff_exists.mp
      (hkept.configured (ne_idle hphase (by decide))).1
    have hsatisfies : w.resources.satisfies plan = .ok () := hkept.available plan hplan
    refine ⟨sender, ?_⟩
    rw [if_neg (fun h => hlast h.2), if_neg (fun h => Bool.noConfusion (hcons.symm.trans h.2)),
      if_neg hcount, dif_pos hmode.supported, if_neg (not_not.mpr hphase)]
    exact bind_ok.mpr ⟨plan, SampleSender.need_eq_ok.mpr hplan,
      bind_ok.mpr ⟨(), hsatisfies, hsender⟩⟩

end

/-! ### What a call keeps -/

/-- What a call leads to. -/
abbrev Onward (w w' : RemoteWorker E) : Prop :=
  Kept w'.configView ∧ Later w.configView w'.configView

/-- What applying a message leads to. -/
structure Advance (v v' : ConfigView E) (requestId : RequestId) (message : RemoteMessage E) :
    Prop where
  kept : Kept v'
  later : Later v v'
  accepted : v'.acceptedProfile.isSome = true
  known : KnownMessage v' requestId message

theorem Kept.accepted_active (h : Kept v) (hphase : v.phase ≠ .idle) :
    v.acceptedProfile.isSome = true :=
  h.staged (h.configured hphase).1

/-- The run of a configured worker goes on. -/
theorem Kept.active (h : Kept v) (hphase : v.phase ≠ .idle) (phase : WorkerPhase)
    (hact : phase ≠ .idle) {threadCount : ℕ} {senderMode : Option SampleSenderMode}
    (hrunning : phase = .running → threadCount ≠ 0 ∧ ∀ mode,
      senderMode = some mode → Startable mode)
    (sender : Option (SampleSender E)) (nextSequence : ℕ) :
    Kept { v with phase, threadCount, senderMode, sender, nextSequence } where
  __ := h
  idle hidle := absurd hidle hact
  configured _ := h.configured hphase
  running := hrunning

theorem Later.refl (v : ConfigView E) : Later v v := .of_eq rfl rfl rfl

section

variable {w' : RemoteWorker E} {requestId : RequestId} {envelopes : List (RemoteEnvelope E)}
  {plan : PlanDescriptor} {profile : ProfileDescriptor} {properties : PropertySet} {runId : RunId}
  {mode : StopMode} {missing : String} {delivered : List (RemoteSample E)}

theorem not_retired_le (h : ¬ w.Retired requestId) {generation : RequestId}
    (hgen : w.profileRequestId = some generation) : generation ≤ requestId := by
  unfold RemoteWorker.Retired at h
  rw [hgen, Option.any_some, decide_eq_true_iff] at h
  exact Nat.le_of_not_lt h

/-- A new configuration has no plan, so the worker is not ready. -/
theorem ready_reset : (w.reset requestId profile).recomputeReady = w.reset requestId profile :=
  if_neg fun h => nomatch h.2.1

/-- An idle worker has no properties, so a plan does not make it ready. -/
theorem ready_plan (hkept : Kept w.configView) (hphase : w.phase = .idle) :
    { w with plan := some plan }.recomputeReady = { w with plan := some plan } := by
  refine if_neg fun hready => ?_
  have hsome : w.properties.isSome = true := hready.2.2.1
  rw [show w.properties = none from (hkept.idle hphase).1] at hsome
  cases hsome

theorem ready_properties (hacc : w.acceptedProfile.isSome = true)
    (hphase : w.phase = .idle) (hplan : w.plan = some plan) :
    { w with properties := some properties }.recomputeReady =
      { w with properties := some properties, phase := .ready } := by
  refine if_pos ⟨hacc, ?_, rfl, .inl hphase⟩
  show w.plan.isSome = true
  rw [hplan]
  rfl

section

variable (h : Kept w.configView)

include h

theorem profile_advance (heq : acceptProfile requestId profile w = .ok envelopes w') :
    Advance w.configView w'.configView requestId (.profile profile) := by
  have hgen : ¬ w.Retired requestId → ∀ generation, w.profileRequestId = some generation →
      ∃ generation', some requestId = some generation' ∧ generation ≤ generation' :=
    fun hret generation hgen =>
      ⟨requestId, rfl, not_retired_le hret hgen⟩
  unfold acceptProfile at heq
  split at heq
  · cases heq
  · next hcheck =>
    cases heq
    obtain ⟨hret, hacc⟩ := profile_same hcheck
    have hsome : w.acceptedProfile.isSome = true := by
      rw [hacc]
      rfl
    exact ⟨{ h with }, ⟨rfl, id, hgen hret⟩, hsome, h.accepted profile hacc,
      requestId, rfl, Nat.le_refl _⟩
  · next hcheck =>
    obtain ⟨hret, hadvance, -, -, -, hsupports⟩ := profile_fresh.mp hcheck
    rw [ready_reset] at heq
    cases heq
    refine ⟨⟨h.limits, h.batch, fun _ => hadvance, ?_, nofun, fun _ => ⟨rfl, rfl, rfl⟩, nofun,
      fun hphase => absurd rfl hphase, nofun⟩, ⟨rfl, fun _ => rfl, hgen hret⟩, rfl,
      hsupports, requestId, rfl, Nat.le_refl _⟩
    rintro other hother
    cases hother
    exact hsupports

theorem plan_advance (heq : acceptPlan requestId plan w = .ok envelopes w') :
    Advance w.configView w'.configView requestId (.plan plan) := by
  unfold acceptPlan at heq
  split at heq
  · cases heq
  · next hcheck =>
    cases heq
    exact ⟨h, .refl _, not_isNone.mp (checkPlan_ok hcheck).1, trivial⟩
  · next hcheck =>
    obtain ⟨-, hacc, hphase, -, -, hsatisfies⟩ := plan_fresh.mp hcheck
    rw [ready_plan h hphase] at heq
    cases heq
    refine ⟨{ h with available := ?_, staged := fun _ => hacc, configured := ?_ },
      .of_eq rfl rfl rfl, hacc, trivial⟩
    · rintro other ⟨⟩
      exact hsatisfies
    · exact fun hact => absurd hphase hact

theorem properties_advance (heq : acceptProperties requestId properties w = .ok envelopes w') :
    Advance w.configView w'.configView requestId (.properties properties) := by
  unfold acceptProperties at heq
  split at heq
  · cases heq
  · next hcheck =>
    cases heq
    exact ⟨h, .refl _, not_isNone.mp (properties_ok hcheck).1, trivial⟩
  · next hcheck =>
    obtain ⟨-, hacc, hphase, -, plan, hplan, -⟩ := properties_fresh.mp hcheck
    rw [ready_properties hacc hphase hplan] at heq
    cases heq
    have hsome : w.plan.isSome = true := by
      rw [hplan]
      rfl
    exact ⟨{ h with idle := nofun, configured := fun _ => ⟨hsome, rfl⟩, running := nofun },
      .of_eq rfl rfl rfl, hacc, trivial⟩

theorem start_advance {threadCount : ℕ} {mode : SampleSenderMode}
    (heq : start requestId runId threadCount mode w = .ok envelopes w') :
    Advance w.configView w'.configView requestId (.start runId threadCount mode) := by
  unfold start at heq
  split at heq
  · cases heq
  · next hrun =>
    split_ifs at heq with hretry
    · cases heq
      obtain ⟨hphase, -, rfl, hmode⟩ := hretry
      obtain ⟨hcount, hstartable⟩ := h.running hphase
      have hact := ne_idle hphase nofun
      exact ⟨h, .refl _, h.accepted_active hact, hrun, hcount, hstartable mode hmode⟩
    · split at heq
      · cases heq
      · next sender hcheck =>
        cases heq
        obtain ⟨⟨hphase, -⟩, hcount, hmode⟩ := (start_fresh h).mp ⟨sender, hcheck⟩
        have hact := ne_idle hphase nofun
        refine ⟨h.active hact .running nofun (fun _ => ⟨hcount, ?_⟩) _ _, .of_eq rfl rfl rfl,
          h.accepted_active hact, hrun, hcount, hmode⟩
        rintro other hother
        cases hother
        exact hmode

end

/-! A hand-over changes the watermark and the correlations only. -/

theorem envelopesFor_frame (heq : envelopesForDelivered missing delivered w = .ok envelopes w') :
    w'.configView = w.configView := by
  induction delivered generalizing w envelopes with
  | nil =>
    cases heq
    rfl
  | cons sample rest ih =>
    unfold envelopesForDelivered at heq
    split at heq
    · cases heq
    · split at heq
      · rename_i hrest
        cases heq
        have hsame := ih hrest
        exact hsame
      · cases heq

theorem handOver_frame {keys : List SampleKey}
    (heq : handOver missing keys delivered w = .ok envelopes w') :
    w'.configView = w.configView := by
  have hsame := envelopesFor_frame heq
  exact hsame

theorem stopSender_frame (mode : StopMode) (sender : SampleSender E) (w : RemoteWorker E) :
    ∃ sender', (w.stopSender mode sender).2.configView =
      { w.configView with sender := some sender' } := by
  cases mode <;> exact ⟨_, rfl⟩

/-- A stop changes the phase and the sender. -/
theorem stopRun_frame (heq : stopRun requestId runId mode w = .ok envelopes w') :
    ∃ sender, w'.configView = { w.configView with phase := .stopped, sender } := by
  unfold stopRun at heq
  split at heq
  · cases heq
  · rename_i samples middle hsamples
    cases heq
    unfold stopSamples at hsamples
    split at hsamples
    · cases hsamples
      exact ⟨w.sender, rfl⟩
    · rename_i sender hsender
      obtain ⟨sender', hsender'⟩ := stopSender_frame mode sender { w with phase := .stopping }
      refine ⟨some sender', ?_⟩
      have hmiddle : middle.configView = _ := (handOver_frame hsamples).trans hsender'
      show { middle.configView with phase := .stopped } = _
      rw [hmiddle]
      rfl

theorem stop_advance (h : Kept w.configView)
    (heq : stop requestId runId mode w = .ok envelopes w') :
    Advance w.configView w'.configView requestId (.stop runId mode) := by
  unfold stop at heq
  split at heq
  · cases heq
  · next hrun =>
    split_ifs at heq with hprestart hcons hother hstopped hact
    · cases heq
      have hphase := ne_idle hprestart.2 nofun
      exact ⟨h.active hphase .stopped nofun nofun _ _, .of_eq rfl rfl rfl,
        h.accepted_active hphase, hrun⟩
    · cases heq
      have hphase := ne_idle hstopped nofun
      exact ⟨h, .refl _, h.accepted_active hphase, hrun⟩
    · have hphase := hact.elim (ne_idle · nofun) (ne_idle · nofun)
      obtain ⟨sender, hframe⟩ := stopRun_frame heq
      rw [hframe]
      exact ⟨h.active hphase .stopped nofun nofun _ _, .of_eq rfl rfl rfl,
        h.accepted_active hphase, hrun⟩

theorem apply_advance (h : Kept w.configView) (heq : apply envelope w = .ok envelopes w') :
    Kept w'.configView ∧ Later w.configView w'.configView ∧ Known w'.configView envelope := by
  have hadvance : ¬ (envelope.requestId = 0 ∨ usesSampleEnvelopeNamespace envelope.requestId) ∧
      Advance w.configView w'.configView envelope.requestId envelope.message := by
    obtain ⟨requestId, message⟩ := envelope
    unfold apply at heq
    split_ifs at heq with hnamespace hfailed
    refine ⟨hnamespace, ?_⟩
    cases message with
    | profile profile => exact profile_advance h heq
    | plan plan => exact plan_advance h heq
    | properties properties => exact properties_advance h heq
    | start runId threadCount mode => exact start_advance h heq
    | stop runId mode => exact stop_advance h heq
    | _ => cases heq
  obtain ⟨hcontrol, hkept, hlater, hacc, hknown⟩ := hadvance
  exact ⟨hkept, hlater, hcontrol, hacc, hknown⟩

end

section

variable {w' : RemoteWorker E} {envelopes : List (RemoteEnvelope E)}

theorem setter_ok {α : Type} {f : RemoteWorker E → Except RemoteError α}
    {g : α → RemoteWorker E → RemoteWorker E}
    (heq : ((check f >>= fun a => modify (g a)) >>= fun _ => pure [] :
      Working E (List (RemoteEnvelope E))) w = .ok envelopes w') :
    ∃ a, f w = .ok a ∧ w' = g a w := by
  rw [bind_assoc] at heq
  cases hcheck : f w with
  | error e =>
    rw [run_bind_error (check_error hcheck)] at heq
    cases heq
  | ok a =>
    rw [run_bind_ok (check_ok hcheck)] at heq
    cases heq
    exact ⟨a, rfl, rfl⟩

/-- A worker with a run keeps its configuration while samples go through it. -/
theorem Kept.sends (h : Kept w.configView) (hphase : w.phase ≠ .idle)
    {sender : Option (SampleSender E)} {nextSequence : ℕ}
    (hview : w'.configView = { w.configView with sender, nextSequence }) :
    Onward w w' := by
  unfold Onward
  rw [hview]
  exact ⟨h.active hphase w.phase hphase h.running sender nextSequence, .of_eq rfl rfl rfl⟩

theorem advanceTime_kept (h : Kept w.configView) {nowMs : ℕ}
    (heq : advanceTime nowMs w = .ok envelopes w') : Onward w w' := by
  unfold advanceTime at heq
  split_ifs at heq with hact
  have hphase := hact.elim (ne_idle · nofun) (ne_idle · nofun)
  split at heq
  · cases heq
  · split at heq
    · cases heq
    · have hframe := handOver_frame heq
      exact h.sends hphase hframe

variable [DecidableEq E] {codec : EventCodec E}

section

variable (h : Kept w.configView)

include h

theorem setRes_kept {resources : WorkerResources}
    (heq : (WorkerCall.setResources resources).perform codec w = .ok envelopes w') :
    Onward w w' := by
  obtain ⟨_, hcheck, rfl⟩ := setter_ok heq
  obtain ⟨_, -, hcheck⟩ := bind_ok.mp hcheck
  obtain ⟨_, -, hcheck⟩ := bind_ok.mp hcheck
  refine ⟨{ h with available := ?_ }, .of_eq rfl rfl rfl⟩
  intro plan hplan
  rw [show w.plan = some plan from hplan] at hcheck
  exact hcheck

theorem setConfig_kept {limits : RemoteConfigurationLimits}
    (heq : (WorkerCall.setConfigurationLimits limits).perform codec w = .ok envelopes w') :
    Onward w w' := by
  obtain ⟨resources, hcheck, rfl⟩ := setter_ok heq
  simp only [WorkerResources.setLimits, bind_ok] at hcheck
  obtain ⟨_, -, _, -, _, -, _, -, _, -, hcheck⟩ := hcheck
  cases hcheck
  -- What is available does not depend on the limits.
  exact ⟨{ h with }, .of_eq rfl rfl rfl⟩

theorem setCodec_kept {limits : RemoteLimits}
    (heq : (WorkerCall.setCodecLimits limits).perform codec w = .ok envelopes w') :
    Onward w w' := by
  obtain ⟨_, hcheck, rfl⟩ := setter_ok heq
  obtain ⟨_, -, hcheck⟩ := bind_ok.mp hcheck
  obtain ⟨_, hvalid, hcheck⟩ := bind_ok.mp hcheck
  obtain ⟨_, hadvance, -⟩ := bind_ok.mp hcheck
  refine ⟨{ h with limits := ?_, advertised := fun _ => hadvance }, .of_eq rfl rfl rfl⟩
  exact not_not.mp (failIf_eq_ok.mp hvalid)

theorem setBatchTime_kept {threshold : ℕ}
    (heq : (WorkerCall.setBatchTimeMs threshold).perform codec w = .ok envelopes w') :
    Onward w w' := by
  by_cases hzero : threshold = 0
  · subst hzero
    cases heq
  · have hset : setBatchTimeMs threshold w =
        .ok () { w with batchTimeMs := some threshold } := if_neg hzero
    unfold WorkerCall.perform at heq
    dsimp only at heq
    rw [run_bind_ok hset] at heq
    cases heq
    exact ⟨{ h with batch := fun hbatch => hzero (Option.some.inj hbatch) }, .of_eq rfl rfl rfl⟩

theorem emitSample_kept {event : E} (heq : emitSample codec event w = .ok envelopes w') :
    Onward w w' := by
  unfold emitSample at heq
  split at heq
  · cases heq
  · next emission hcheck =>
    have hphase := ne_idle (checkEmission_ok hcheck).1 nofun
    have hframe := handOver_frame heq
    exact h.sends hphase hframe

theorem perform_kept {call : WorkerCall E} (heq : call.perform codec w = .ok envelopes w') :
    Onward w w' := by
  cases call with
  | setResources resources => exact setRes_kept h heq
  | setConfigurationLimits limits => exact setConfig_kept h heq
  | setCodecLimits limits => exact setCodec_kept h heq
  | setBatchTimeMs threshold => exact setBatchTime_kept h heq
  | apply envelope => exact (apply_advance h heq).imp id And.left
  | emitSample event => exact emitSample_kept h heq
  | advanceTime nowMs => exact advanceTime_kept h heq

end

/-! ### Histories -/

variable {id : WorkerId} {profile : ProfileDescriptor} {applied : List (RemoteEnvelope E)}

section

variable (h : WorkerHistory codec id profile applied w)

include h

theorem WorkerHistory.reachable : ∃ runs, WorkerReachable codec id profile ⟨w, runs⟩ := by
  induction h with
  | new => exact ⟨[], .new⟩
  | call h call ih =>
    obtain ⟨runs, hreachable⟩ := ih
    have hstep := hreachable.step call
    unfold WorkerWorld.step at hstep
    unfold WorkerCall.after
    split at hstep <;> rename_i heq <;> rw [show call.perform codec _ = _ from heq] <;>
      exact ⟨_, hstep⟩

theorem WorkerHistory.law : ∃ runs, WorkerLaw w.runView runs :=
  h.reachable.imp fun _ hreachable => hreachable.law

theorem WorkerHistory.kept :
    Kept w.configView ∧ ∀ envelope ∈ applied, Known w.configView envelope := by
  induction h with
  | new =>
    refine ⟨⟨rfl, nofun, nofun, nofun, nofun, fun _ => ⟨rfl, rfl, rfl⟩, nofun, ?_, nofun⟩, nofun⟩
    exact fun hphase => absurd rfl hphase
  | @call applied w h call ih =>
    obtain ⟨hkept, hknown⟩ := ih
    obtain ⟨runs, hlaw⟩ := h.law
    have hspec : CallSpec ⟨w, runs⟩ (call.perform codec w) := perform_spec hlaw call
    unfold WorkerCall.after WorkerCall.applies
    cases heq : call.perform codec w with
    | error e w' =>
      rw [heq] at hspec
      obtain ⟨rfl, -⟩ := hspec
      cases call <;> exact ⟨hkept, hknown⟩
    | ok envelopes w' =>
      obtain ⟨hkept', hlater⟩ := perform_kept hkept heq
      have hold : ∀ envelope ∈ applied, Known w'.configView envelope :=
        fun envelope henvelope => (hknown envelope henvelope).later hlater
      cases call with
      | apply envelope =>
        refine ⟨hkept', fun other hother => ?_⟩
        rcases List.mem_cons.mp hother with rfl | hother
        · exact (apply_advance hkept heq).2.2
        · exact hold other hother
      | _ => exact ⟨hkept', hold⟩

end

end

/-! ## Second deliveries -/

section

variable {requestId : RequestId} {runs : List (List (RemoteEnvelope E))} {runId : RunId}

theorem not_retired_self (h : w.profileRequestId = some requestId) : ¬ w.Retired requestId := by
  unfold RemoteWorker.Retired
  rw [h, Option.any_some, decide_eq_true_iff]
  exact Nat.lt_irrefl requestId

section

variable (hkept : Kept w.configView) {profile : ProfileDescriptor}

include hkept

/-- The profile of the current generation begins a configuration again. -/
theorem reopens_profile (hknown : Known w.configView ⟨requestId, .profile profile⟩)
    (h : Reopens w ⟨requestId, .profile profile⟩) :
    w.checkProfile requestId profile = .ok false := by
  obtain ⟨hgen, hvalid, hphase⟩ := h
  refine profile_fresh.mpr ⟨not_retired_self hgen, hkept.advertised hknown.accepted,
    hvalid, ?_, ?_, hknown.message.1⟩
  · rintro ⟨hact, hsame⟩
    rcases hphase with hstopped | ⟨-, -, hother⟩
    · rcases hact with hact | hact <;> exact nomatch hact.symm.trans hstopped
    · exact hother hsame
  · rcases hphase with hstopped | ⟨hidle, -⟩
    · exact .inr hstopped
    · exact .inl hidle

theorem reset_shown (hlaw : WorkerLaw w.runView runs)
    (hidle : w.phase = .idle) (hplan : w.plan = none) (requestId : RequestId)
    (profile : ProfileDescriptor) : (w.reset requestId profile).shown = w.shown := by
  obtain ⟨hrun, hwatermark⟩ := hlaw.idle (.inl hidle)
  obtain ⟨hprop, hsender, hsequence⟩ := hkept.idle hidle
  unfold shown
  rw [hidle, hplan, show w.runId = none from hrun, show w.deliveredWatermark = 0 from hwatermark,
    show w.properties = none from hprop, show w.sender = none from hsender,
    show w.nextSequence = 0 from hsequence]
  rfl

theorem acceptProfile_still (hlaw : WorkerLaw w.runView runs)
    (hknown : Known w.configView ⟨requestId, .profile profile⟩) :
    Still w (some .profile) (acceptProfile requestId profile w) ↔
      ¬ Reopens w ⟨requestId, .profile profile⟩ := by
  unfold acceptProfile
  split
  · next hcheck =>
    exact iff_of_true rfl fun h => nomatch hcheck.symm.trans (reopens_profile hkept hknown h)
  · next hcheck =>
    exact iff_of_true ⟨rfl, _, rfl, rfl⟩ fun h =>
      nomatch hcheck.symm.trans (reopens_profile hkept hknown h)
  · next hcheck =>
    obtain ⟨hret, -, hvalid, hother, hphase, -⟩ := profile_fresh.mp hcheck
    obtain ⟨-, generation, hgen, hle⟩ := hknown.message
    -- The request is of the current generation.
    obtain rfl : generation = requestId := Nat.le_antisymm (not_retired_le hret hgen) hle
    rw [ready_reset]
    constructor
    · rintro ⟨hshown, -⟩ ⟨-, -, hstopped | ⟨-, hplan, -⟩⟩
      · exact nomatch (congrArg Shown.phase hshown).trans hstopped
      · have hnone : none = w.plan := congrArg Shown.plan hshown
        rw [← hnone] at hplan
        cases hplan
    · intro hreopens
      have hidle : w.phase = .idle :=
        hphase.resolve_right fun hstopped => hreopens ⟨hgen, hvalid, .inl hstopped⟩
      have hplan : w.plan = none := by
        refine Option.not_isSome_iff_eq_none.mp fun hplan => ?_
        exact hreopens ⟨hgen, hvalid, .inr ⟨hidle, hplan, fun hsame =>
          hother ⟨.inl hidle, hsame⟩⟩⟩
      exact ⟨reset_shown hkept hlaw hidle hplan _ profile, _, rfl, rfl⟩

theorem acceptPlan_still {plan : PlanDescriptor}
    (hknown : Known w.configView ⟨requestId, .plan plan⟩) :
    Still w (some .plan) (acceptPlan requestId plan w) ↔ ¬ Reopens w ⟨requestId, .plan plan⟩ := by
  have hreopens : Reopens w ⟨requestId, .plan plan⟩ → w.checkPlan requestId plan = .ok false :=
    fun ⟨hret, hphase, hother, hvalid, hsatisfies⟩ =>
      plan_fresh.mpr ⟨hret, hknown.accepted, hphase, hother, hvalid, hsatisfies⟩
  unfold acceptPlan
  split
  · next hcheck => exact iff_of_true rfl fun h => nomatch hcheck.symm.trans (hreopens h)
  · next hcheck =>
    exact iff_of_true ⟨rfl, _, rfl, rfl⟩ fun h => nomatch hcheck.symm.trans (hreopens h)
  · next hcheck =>
    obtain ⟨hret, -, hphase, hother, hvalid, hsatisfies⟩ := plan_fresh.mp hcheck
    refine iff_of_false ?_ (not_not.mpr ⟨hret, hphase, hother, hvalid, hsatisfies⟩)
    rw [ready_plan hkept hphase]
    exact fun h => hother (congrArg Shown.plan h.1).symm

theorem acceptProperties_still {properties : PropertySet}
    (hknown : Known w.configView ⟨requestId, .properties properties⟩) :
    Still w (some .properties) (acceptProperties requestId properties w) ↔
      ¬ Reopens w ⟨requestId, .properties properties⟩ := by
  have hreopens : Reopens w ⟨requestId, .properties properties⟩ →
      w.checkProperties requestId properties = .ok false := by
    rintro ⟨hret, hphase, plan, hplan, hvalid⟩
    refine properties_fresh.mpr ⟨hret, hknown.accepted, hphase, ?_, plan, hplan, hvalid⟩
    rw [show w.properties = none from (hkept.idle hphase).1]
    exact nofun
  unfold acceptProperties
  split
  · next hcheck => exact iff_of_true rfl fun h => nomatch hcheck.symm.trans (hreopens h)
  · next hcheck =>
    exact iff_of_true ⟨rfl, _, rfl, rfl⟩ fun h => nomatch hcheck.symm.trans (hreopens h)
  · next hcheck =>
    obtain ⟨hret, hacc, hphase, -, plan, hplan⟩ := properties_fresh.mp hcheck
    refine iff_of_false ?_ (not_not.mpr ⟨hret, hphase, plan, hplan⟩)
    rw [ready_properties hacc hphase hplan.1]
    exact fun h => nomatch (congrArg Shown.phase h.1).trans hphase

theorem start_still {threadCount : ℕ} {mode : SampleSenderMode}
    (hknown : Known w.configView ⟨requestId, .start runId threadCount mode⟩) :
    Still w (some .started) (start requestId runId threadCount mode w) ↔
      ¬ Reopens w ⟨requestId, .start runId threadCount mode⟩ := by
  obtain ⟨hrun, hcount, hmode⟩ := hknown.message
  have hreopens : Reopens w ⟨requestId, .start runId threadCount mode⟩ ↔
      ∃ sender, w.checkStart runId threadCount mode = .ok sender := by
    rw [start_fresh hkept]
    exact ⟨fun h => ⟨h, hcount, hmode⟩, And.left⟩
  rw [hreopens]
  unfold start
  rw [hrun]
  split_ifs with hretry
  · refine iff_of_true ⟨rfl, _, rfl, rfl⟩ ?_
    rintro ⟨sender, hsender⟩
    exact nomatch hretry.1.symm.trans (checkStart_ok hsender).1
  · cases hcheck : w.checkStart runId threadCount mode with
    | error e => exact iff_of_true rfl fun ⟨sender, hsender⟩ => nomatch hsender
    | ok sender =>
      refine iff_of_false ?_ (not_not.mpr ⟨sender, rfl⟩)
      have hphase := (checkStart_ok hcheck).1
      exact fun h => nomatch (congrArg Shown.phase h.1).trans hphase

end

theorem stopRun_ok (hlaw : WorkerLaw w.runView runs) (hphase : w.phase = .running)
    (mode : StopMode) : ∃ envelopes w', stopRun requestId runId mode w = .ok envelopes w' := by
  obtain ⟨run, rest, sender, queue, -, hlines, hholds, -⟩ := hlaw.running hphase
  have hsamples : ∃ samples middle,
      stopSamples mode { w with phase := .stopping } = .ok samples middle := by
    have hholds : Holds ({ w with phase := .stopping } : RemoteWorker E).runView sender queue :=
      { hholds with }
    have hlines : Lines ({ w with phase := .stopping } : RemoteWorker E).runView run queue :=
      { hlines with lined := { hlines.lined with } }
    cases mode with
    | graceful =>
      obtain ⟨middle, heq, -⟩ := stop_graceful hlines hholds
      exact ⟨_, middle, heq⟩
    | immediate =>
      obtain ⟨middle, heq, -⟩ := stop_immediate hholds
      exact ⟨_, middle, heq⟩
  obtain ⟨samples, middle, hsamples⟩ := hsamples
  unfold stopRun
  rw [hsamples]
  exact ⟨_, _, rfl⟩

theorem stop_still (hlaw : WorkerLaw w.runView runs) {mode : StopMode}
    (hknown : Known w.configView ⟨requestId, .stop runId mode⟩) :
    Still w (some .stopped) (stop requestId runId mode w) ↔
      ¬ Reopens w ⟨requestId, .stop runId mode⟩ := by
  have hrun : validateRunId runId = .ok () := hknown.message
  have hready : w.phase = .ready → w.runId.isNone = true ∧ w.phase = .ready := by
    intro hready
    rw [show w.runId = none from (hlaw.idle (.inr hready)).1]
    exact ⟨rfl, hready⟩
  unfold stop
  rw [hrun]
  split_ifs with hprestart hcons hother hstopped hact
  · refine iff_of_true rfl ?_
    rintro (⟨-, hlast, hforgot⟩ | ⟨hrunning, -⟩)
    · rcases hcons with hsame | hmem
      · exact hlast hsame
      · exact nomatch hforgot.symm.trans hmem
    · exact nomatch hprestart.2.symm.trans hrunning
  · refine iff_of_false ?_ (not_not.mpr (.inl ?_))
    · exact fun h => nomatch (congrArg Shown.phase h.1).trans hprestart.2
    · rw [not_or] at hcons
      exact ⟨hprestart.2, hcons.1, Bool.eq_false_iff.mpr hcons.2⟩
  · refine iff_of_true rfl ?_
    rintro (⟨hphase, -⟩ | ⟨-, hsame⟩)
    · exact hprestart (hready hphase)
    · exact hother hsame
  · refine iff_of_true ⟨rfl, _, rfl, rfl⟩ ?_
    rintro (⟨hready, -⟩ | ⟨hrunning, -⟩)
    · exact nomatch hready.symm.trans hstopped
    · exact nomatch hrunning.symm.trans hstopped
  · have hrunning := hlaw.active_running hact
    refine iff_of_false ?_ (not_not.mpr (.inr ⟨hrunning, not_not.mp hother⟩))
    obtain ⟨envelopes, w', heq⟩ := stopRun_ok hlaw hrunning mode
    obtain ⟨sender, hframe⟩ := stopRun_frame heq
    rw [heq]
    rintro ⟨hshown, -⟩
    have hphase : w'.phase = .stopped := congrArg ConfigView.phase hframe
    have hsame : w'.phase = w.phase := congrArg Shown.phase hshown
    exact nomatch (hphase.symm.trans hsame).trans hrunning
  · refine iff_of_true rfl ?_
    rintro (⟨hphase, -⟩ | ⟨hrunning, -⟩)
    · exact hprestart (hready hphase)
    · exact hact (.inl hrunning)

end

/-- An envelope that was applied and comes again changes nothing that is shown, and is refused or
acknowledged as before, exactly if it does not reopen anything. -/
theorem unmoved_iff [DecidableEq E] (codec : EventCodec E) (id : WorkerId)
    (profile : ProfileDescriptor) (applied : List (RemoteEnvelope E)) (w : RemoteWorker E)
    (h : WorkerHistory codec id profile applied w) (envelope : RemoteEnvelope E)
    (hmem : envelope ∈ applied) : Unmoved w envelope ↔ ¬ Reopens w envelope := by
  obtain ⟨hkept, hall⟩ := h.kept
  obtain ⟨runs, hlaw⟩ := h.law
  have hknown := hall envelope hmem
  have hfailed : w.phase ≠ .failed := by
    intro hfailed
    have hphase := hlaw.phase
    unfold PhaseLaw at hphase
    rw [show w.runView.phase = .failed from hfailed] at hphase
    exact hphase
  obtain ⟨requestId, message⟩ := envelope
  unfold Unmoved apply
  rw [if_neg hknown.control, if_neg hfailed]
  cases message with
  | profile profile => exact acceptProfile_still hkept hlaw hknown
  | plan plan => exact acceptPlan_still hkept hknown
  | properties properties => exact acceptProperties_still hkept hknown
  | start runId threadCount mode => exact start_still hkept hknown
  | stop runId mode => exact stop_still hlaw hknown
  | _ => exact hknown.message.elim

/-- The history of a list of calls. -/
def historyOf [DecidableEq E] (codec : EventCodec E) (calls : List (WorkerCall E))
    (start : List (RemoteEnvelope E) × RemoteWorker E) :
    List (RemoteEnvelope E) × RemoteWorker E :=
  calls.foldl (fun h call => (call.applies codec h.2 ++ h.1, call.after codec h.2)) start

theorem WorkerHistory.calls [DecidableEq E] {codec : EventCodec E} {id : WorkerId}
    {profile : ProfileDescriptor} (calls : List (WorkerCall E))
    {start : List (RemoteEnvelope E) × RemoteWorker E}
    (h : WorkerHistory codec id profile start.1 start.2) :
    WorkerHistory codec id profile (historyOf codec calls start).1
      (historyOf codec calls start).2 := by
  induction calls generalizing start with
  | nil => exact h
  | cons call calls ih => exact ih (h.call call)

/-- The history of a worker that was configured, started and stopped. -/
def stoppedHistory : List (RemoteEnvelope Unit) × RemoteWorker Unit :=
  historyOf unitCodec (batchRun .graceful) ([], .new 1 plainProfile)

/-- In a stopped worker the plan of its run is refused and changes nothing. -/
theorem stoppedHistory_plan : ⟨2, .plan ⟨[], [], []⟩⟩ ∈ stoppedHistory.1 ∧
      Unmoved stoppedHistory.2 ⟨2, .plan ⟨[], [], []⟩⟩ := by
  have hmem : ⟨2, .plan ⟨[], [], []⟩⟩ ∈ stoppedHistory.1 := by decide +kernel
  have hphase : stoppedHistory.2.phase = .stopped := by decide +kernel
  refine ⟨hmem, (unmoved_iff unitCodec 1 plainProfile stoppedHistory.1 stoppedHistory.2
    (WorkerHistory.calls (batchRun .graceful) .new) _ hmem).mpr ?_⟩
  exact fun h => nomatch hphase.symm.trans h.2.1

theorem Unmoved.after [DecidableEq E] {codec : EventCodec E} (h : Unmoved w envelope) :
    ((WorkerCall.apply envelope).after codec w).shown = w.shown := by
  unfold Unmoved at h
  show (match apply envelope w with
    | .ok _ w => w
    | .error _ w => w).shown = w.shown
  cases heq : apply envelope w with
  | error e w' =>
    rw [heq] at h
    exact h
  | ok envelopes w' =>
    rw [heq] at h
    exact h.1

/-- The profile that a stopped worker applied resets the worker when it comes again.  The stop of
its last run is acknowledged again before this and refused afterwards. -/
theorem stoppedHistory_profile :
    WorkerHistory unitCodec 1 plainProfile stoppedHistory.1 stoppedHistory.2 ∧
      ⟨1, .profile plainProfile⟩ ∈ stoppedHistory.1 ∧
      ¬ Unmoved stoppedHistory.2 ⟨1, .profile plainProfile⟩ ∧
      (apply ⟨5, .stop 1 .graceful⟩ stoppedHistory.2 matches .ok _ _) ∧
      (apply ⟨5, .stop 1 .graceful⟩
        ((WorkerCall.apply ⟨1, .profile plainProfile⟩).after unitCodec stoppedHistory.2)
          matches .error _ _) := by
  have hbefore : stoppedHistory.2.phase = .stopped := by decide +kernel
  have hafter : ((WorkerCall.apply ⟨1, .profile plainProfile⟩).after unitCodec
      stoppedHistory.2).phase = .idle := by decide +kernel
  refine ⟨WorkerHistory.calls (batchRun .graceful) .new, by decide +kernel, fun h => ?_,
    by decide +kernel, by decide +kernel⟩
  have hsame : ((WorkerCall.apply ⟨1, .profile plainProfile⟩).after unitCodec
      stoppedHistory.2).shown = stoppedHistory.2.shown := h.after
  exact nomatch (hafter.symm.trans (congrArg Shown.phase hsame)).trans hbefore

end JmeterRs.Remote
