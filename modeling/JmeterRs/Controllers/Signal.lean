import Mathlib.Tactic.Common

/-!
# Control signals and the cancellation state

`ControlSignal` is ordered by severity.  A `Cancellation` keeps the run-wide test stop apart from
the two requests local to one virtual user: a stop of the thread, which persists, and a next-loop
action, which is taken once.
-/

namespace JmeterRs.Controllers

/-- The control signals, least severe first. -/
inductive ControlSignal
  | continue
  | nextLoop
  | stopThread
  | stopTestGraceful
  | stopTestImmediate
  deriving DecidableEq, Repr

namespace ControlSignal

/-- The discriminant of the signal, its severity. -/
def toNat : ControlSignal → ℕ
  | .continue => 0
  | .nextLoop => 1
  | .stopThread => 2
  | .stopTestGraceful => 3
  | .stopTestImmediate => 4

/-- The more severe of two signals. -/
def combine (a b : ControlSignal) : ControlSignal :=
  if b.toNat ≤ a.toNat then a else b

/-- Whether the signal stops traversal rather than selecting a next loop iteration. -/
def isStop : ControlSignal → Bool
  | .stopThread | .stopTestGraceful | .stopTestImmediate => true
  | .continue | .nextLoop => false

end ControlSignal

/-- Reads a stored discriminant; values past the last one are an immediate stop. -/
def signalFromU8 : ℕ → ControlSignal
  | 0 => .continue
  | 1 => .nextLoop
  | 2 => .stopThread
  | 3 => .stopTestGraceful
  | _ => .stopTestImmediate

/-- The requests visible to one virtual user.  `testStop` is the discriminant shared by every
user of the run. -/
structure Cancellation where
  testStop : ℕ
  threadStop : Bool
  nextLoop : Bool
  deriving DecidableEq, Repr

namespace Cancellation

def new : Cancellation := ⟨ControlSignal.toNat .continue, false, false⟩

/-- Raises a request; a test stop never falls below one already raised. -/
def request (c : Cancellation) : ControlSignal → Cancellation
  | .continue => c
  | .nextLoop => { c with nextLoop := true }
  | .stopThread => { c with threadStop := true }
  | .stopTestGraceful =>
    { c with testStop := max c.testStop (ControlSignal.toNat .stopTestGraceful) }
  | .stopTestImmediate =>
    { c with testStop := max c.testStop (ControlSignal.toNat .stopTestImmediate) }

/-- The current request, without consuming a next-loop action. -/
def signal (c : Cancellation) : ControlSignal :=
  if (signalFromU8 c.testStop).isStop then signalFromU8 c.testStop
  else if c.threadStop then .stopThread
  else if c.nextLoop then .nextLoop
  else .continue

/-- Takes one pending signal: stops stay visible, a next-loop action is cleared. -/
def takeSignal (c : Cancellation) : ControlSignal × Cancellation :=
  if (signalFromU8 c.testStop).isStop then (signalFromU8 c.testStop, c)
  else if c.threadStop then (.stopThread, c)
  else if c.nextLoop then (.nextLoop, { c with nextLoop := false })
  else (.continue, c)

/-- Taking a next-loop action leaves nothing pending. -/
theorem signal_takeSignal_of_nextLoop {c : Cancellation} (h : c.signal = .nextLoop) :
    c.takeSignal.2.signal = .continue := by
  unfold signal at h
  unfold takeSignal
  split_ifs at h ⊢ with h1 h2 h3
  · rw [h] at h1
    exact absurd h1 (by decide)
  · simp only [signal, if_neg h1, if_neg h2, Bool.false_eq_true, if_false]

end Cancellation

/-! ## The views of several users -/

/-- The state behind the views that `clone_for_user` makes: the test stop is shared, the stop of the
thread and the next-loop action of each user are not. -/
structure Views where
  testStop : ℕ
  users : ℕ → Bool × Bool

inductive ViewCall
  | request (user : ℕ) (signal : ControlSignal)
  | take (user : ℕ)

namespace Views

variable (v : Views) (user : ℕ)

def view : Cancellation := ⟨v.testStop, (v.users user).1, (v.users user).2⟩

def set (c : Cancellation) : Views :=
  ⟨c.testStop, Function.update v.users user (c.threadStop, c.nextLoop)⟩

def step : ViewCall → Views
  | .request user signal => v.set user ((v.view user).request signal)
  | .take user => v.set user (v.view user).takeSignal.2

/-- The stop that a user sees. -/
def stop : ControlSignal := { v.view user with nextLoop := false }.signal

end Views

/-- The stop that a call raises for a user. -/
def ViewCall.stop (user : ℕ) : ViewCall → ControlSignal
  | .request who signal =>
    if signal.isStop ∧ (signal = .stopThread → user = who) then signal else .continue
  | .take _ => .continue

theorem stop_step {v : Views} (h : v.testStop ∈ [0, 3, 4]) (call : ViewCall) (user : ℕ) :
    (v.step call).testStop ∈ [0, 3, 4] ∧
      (v.step call).stop user = (v.stop user).combine (call.stop user) := by
  obtain ⟨testStop, users⟩ := v
  simp only [List.mem_cons, List.not_mem_nil, or_false] at h ⊢
  cases call with
  | take who =>
    have htake (c : Cancellation) :
        c.takeSignal.2.testStop = c.testStop ∧ c.takeSignal.2.threadStop = c.threadStop := by
      unfold Cancellation.takeSignal
      split_ifs <;> exact ⟨rfl, rfl⟩
    have hcon (signal : ControlSignal) : signal.combine .continue = signal := by
      cases signal <;> rfl
    by_cases hwho : user = who <;>
      simp_all [Views.stop, Views.step, Views.set, Views.view, ViewCall.stop]
  | request who signal =>
    -- nothing but the shared stop, the flag of the user and the signal matters
    by_cases hwho : user = who <;> cases hthread : (users user).1 <;> cases signal <;>
      rcases h with h | h | h <;> simp_all [Views.stop, Views.step, Views.set, Views.view,
        ViewCall.stop, Cancellation.request] <;> decide

theorem stop_calls (calls : List ViewCall) (user : ℕ) :
    (calls.foldl Views.step ⟨0, fun _ => (false, false)⟩).stop user =
      (calls.map (·.stop user)).foldl .combine .continue := by
  suffices h : ∀ v : Views, v.testStop ∈ [0, 3, 4] → (calls.foldl .step v).stop user =
      (calls.map (·.stop user)).foldl .combine (v.stop user) from h _ (.head _)
  induction calls with
  | nil => exact fun _ _ => rfl
  | cons call calls ih =>
    intro v hv
    obtain ⟨hnext, hstop⟩ := stop_step hv call user
    rw [List.foldl_cons, ih _ hnext, hstop]
    rfl

/-- A take gives the user the stop that it sees; a next-loop action counts only without a stop. -/
theorem Views.take_stop (v : Views) (user : ℕ) : (v.view user).takeSignal.1 =
    if v.stop user = .continue ∧ (v.users user).2 = true then .nextLoop else v.stop user := by
  obtain ⟨testStop, users⟩ := v
  simp only [Views.stop, Views.view, Cancellation.takeSignal, Cancellation.signal]
  by_cases hshared : (signalFromU8 testStop).isStop = true
  · have hne : signalFromU8 testStop ≠ .continue := by
      intro hcontinue
      rw [hcontinue] at hshared
      cases hshared
    simp [hshared, hne]
  · by_cases hthread : (users user).1 = true <;> by_cases hnext : (users user).2 = true <;>
      simp [hshared, hthread, hnext]

/-- **Stops reach everybody they are for, and are never lost.**  However the users of a run raise
requests and take their signals, each of them sees the most severe of all test stops and of its own
thread stops, and this stop is what it gets whenever it takes its signal.  Only a user without a
stop gets its next-loop action. -/
theorem stops_seen (calls : List ViewCall) (user : ℕ) :
    let v := calls.foldl Views.step ⟨0, fun _ => (false, false)⟩
    let stop := (calls.map (·.stop user)).foldl .combine .continue
    v.stop user = stop ∧ (v.view user).takeSignal.1 =
      if stop = .continue ∧ (v.users user).2 = true then .nextLoop else stop := by
  have hstop := stop_calls calls user
  refine ⟨hstop, ?_⟩
  rw [← hstop]
  exact Views.take_stop _ user

end JmeterRs.Controllers
