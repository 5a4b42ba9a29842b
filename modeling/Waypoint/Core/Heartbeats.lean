import Waypoint.Base.Run
import Waypoint.Core.ModeMachine

/-!
# Heartbeats under two threads

The watchdog knows when the last heartbeat came, the mode machine whether there is one.
-/

namespace Waypoint.Core

open Base

structure Heartbeats where
  machine : ModeMachine := {}
  wd : Watchdog
  /-- the reader is between `Watchdog::kick` and `onHeartbeatRestored` -/
  kicked : Bool := false
  /-- the loop is between a check that fired and `onHeartbeatLost` -/
  fired : Bool := false

/-- The halves of the two handlers, and the requests of the reader thread. -/
inductive HeartbeatAction
  | kick (now : TimePoint)
  | restored
  | check (now : TimePoint)
  | lost
  | setMode (target : Mode)
  | estop
  | recover

namespace Heartbeats

def start (timeout : TimePoint) : Heartbeats := { wd := { timeout := timeout } }

/-- A thread finishes its handler before it does anything else. -/
def next (s : Heartbeats) : HeartbeatAction → Option Heartbeats
  | .kick now => if s.kicked = false then some { s with wd := s.wd.kick now, kicked := true } else none
  | .restored =>
    if s.kicked = true then some { s with machine := s.machine.onHeartbeatRestored, kicked := false } else none
  | .check now =>
    if s.fired = false then some { s with wd := (s.wd.tickAndCheck now).2, fired := (s.wd.tickAndCheck now).1 }
    else none
  | .lost => if s.fired = true then some { s with machine := s.machine.onHeartbeatLost.1, fired := false } else none
  | .setMode target =>
    if s.kicked = false then some { s with machine := (s.machine.requestSetMode target).machine } else none
  | .estop => if s.kicked = false then some { s with machine := s.machine.requestEstop.machine } else none
  | .recover => if s.kicked = false then some { s with machine := s.machine.requestRecover.machine } else none

inductive Step (s : Heartbeats) : HeartbeatAction → Heartbeats → Prop
  | kick (now : TimePoint) (hidle : s.kicked = false) : Step s (.kick now) { s with wd := s.wd.kick now, kicked := true }
  | restored (hkicked : s.kicked = true) :
      Step s .restored { s with machine := s.machine.onHeartbeatRestored, kicked := false }
  | check (now : TimePoint) (hidle : s.fired = false) :
      Step s (.check now) { s with wd := (s.wd.tickAndCheck now).2, fired := (s.wd.tickAndCheck now).1 }
  | lost (hfired : s.fired = true) : Step s .lost { s with machine := s.machine.onHeartbeatLost.1, fired := false }
  | setMode (target : Mode) (hidle : s.kicked = false) :
      Step s (.setMode target) { s with machine := (s.machine.requestSetMode target).machine }
  | estop (hidle : s.kicked = false) : Step s .estop { s with machine := s.machine.requestEstop.machine }
  | recover (hidle : s.kicked = false) : Step s .recover { s with machine := s.machine.requestRecover.machine }

variable {s t : Heartbeats} {a : HeartbeatAction}

theorem step_of_next (h : next s a = some t) : Step s a t := by
  cases a with
  | kick now =>
    simp only [next, Option.ite_none_right_eq_some, Option.some_inj] at h
    exact h.2 ▸ .kick now h.1
  | restored =>
    simp only [next, Option.ite_none_right_eq_some, Option.some_inj] at h
    exact h.2 ▸ .restored h.1
  | check now =>
    simp only [next, Option.ite_none_right_eq_some, Option.some_inj] at h
    exact h.2 ▸ .check now h.1
  | lost =>
    simp only [next, Option.ite_none_right_eq_some, Option.some_inj] at h
    exact h.2 ▸ .lost h.1
  | setMode target =>
    simp only [next, Option.ite_none_right_eq_some, Option.some_inj] at h
    exact h.2 ▸ .setMode target h.1
  | estop =>
    simp only [next, Option.ite_none_right_eq_some, Option.some_inj] at h
    exact h.2 ▸ .estop h.1
  | recover =>
    simp only [next, Option.ite_none_right_eq_some, Option.some_inj] at h
    exact h.2 ▸ .recover h.1

/-- No heartbeat expires while it is being handled, and no driving mode is asked for while a loss is. -/
def Orderly (s : Heartbeats) : HeartbeatAction → Prop
  | .check now => s.kicked = true → now - s.wd.lastKick ≤ s.wd.timeout
  | .setMode target => target.actuating = true → s.fired = false
  | _ => True

instance (s : Heartbeats) (a : HeartbeatAction) : Decidable (Orderly s a) := by
  cases a <;> unfold Orderly <;> infer_instance

/-- A heartbeat that is being handled is live, and so is one that the mode machine counts on while no loss is being handled. -/
structure Accounted (s : Heartbeats) : Prop where
  kicked : s.kicked = true → s.wd.alive = true
  beat : s.fired = false → s.machine.heartbeatOk = true → s.wd.alive = true

theorem accounted_start (timeout : TimePoint) : Accounted (start timeout) :=
  ⟨fun h => (by cases h), fun _ h => (by cases h)⟩

theorem Accounted.request (h : Accounted s) {m : ModeMachine} (hbeat : m.heartbeatOk = s.machine.heartbeatOk) :
    Accounted { s with machine := m } :=
  ⟨h.kicked, fun hfired hok => h.beat hfired (hbeat ▸ hok)⟩

theorem quiet_of_recent {now : TimePoint} (h : now - s.wd.lastKick ≤ s.wd.timeout) : (s.wd.tickAndCheck now).1 = false := by
  unfold Watchdog.tickAndCheck
  split
  · rfl
  · rw [if_neg (Int.not_lt.mpr h)]

theorem accounted_step (h : Accounted s) (horderly : Orderly s a) (hstep : next s a = some t) : Accounted t := by
  cases step_of_next hstep with
  | kick now hidle => exact ⟨fun _ => rfl, fun _ _ => rfl⟩
  | restored hkicked => exact ⟨fun hidle => (by cases hidle), fun _ _ => h.kicked hkicked⟩
  | check now hidle =>
    cases hcheck : (s.wd.tickAndCheck now).1 with
    | false =>
      rw [Watchdog.tickAndCheck_of_not_fired hcheck]
      exact ⟨h.kicked, fun _ => h.beat hidle⟩
    | true =>
      refine ⟨fun hkicked => ?_, fun hfired => (by cases hfired)⟩
      rw [quiet_of_recent (horderly hkicked)] at hcheck
      cases hcheck
  | lost hfired =>
    refine ⟨h.kicked, fun _ hok => ?_⟩
    rw [s.machine.onHeartbeatLost_spec.2.1] at hok
    cases hok
  | setMode target hidle => exact h.request (s.machine.requestSetMode_spec target).2.1
  | estop hidle => exact h.request s.machine.requestEstop_spec.2.1
  | recover hidle => exact h.request s.machine.requestRecover_spec.2.1

theorem setMode_of_entered (hstep : next s a = some t) (hentered : t.machine.mode ≠ s.machine.mode)
    (hact : t.machine.mode.actuating = true) :
    ∃ target, a = .setMode target ∧ target.actuating = true ∧ s.machine.heartbeatOk = true := by
  cases step_of_next hstep with
  | kick now hidle => exact absurd rfl hentered
  | restored hkicked => exact absurd rfl hentered
  | check now hidle => exact absurd rfl hentered
  | lost hfired =>
    dsimp only at hact
    rw [s.machine.onHeartbeatLost_spec.2.2] at hact
    split at hact
    · cases hact
    · rename_i hparked
      exact absurd hact hparked
  | setMode target hidle =>
    rcases (s.machine.requestSetMode_spec target).2.2 with hsame | ⟨-, hmode, hbeat⟩
    · exact absurd hsame hentered
    · dsimp only at hact
      rw [hmode] at hact
      exact ⟨target, rfl, hact, hbeat hact⟩
  | estop hidle =>
    dsimp only at hact
    rw [s.machine.requestEstop_spec.2.2] at hact
    cases hact
  | recover hidle =>
    dsimp only at hact hentered
    rw [s.machine.requestRecover_spec.2.2] at hact hentered
    split at hact
    · cases hact
    · rename_i hmode
      rw [if_neg hmode] at hentered
      exact absurd rfl hentered

/-- In every orderly run, the mode machine counts on a heartbeat between handlers only while the watchdog is alive, and a driving mode is entered only then. -/
theorem heartbeat_accounted (timeout : TimePoint) {actions : List HeartbeatAction} {s : Heartbeats}
    (hrun : Run (Guarded Orderly (Takes next)) (start timeout) actions s) :
    (s.kicked = false → s.fired = false → s.machine.heartbeatOk = true → s.wd.alive = true) ∧
      ∀ a t, Orderly s a → next s a = some t → t.machine.mode ≠ s.machine.mode → t.machine.mode.actuating = true →
        s.wd.alive = true := by
  have haccounted : Accounted s :=
    hrun.invariant Accounted (fun _ _ _ h hstep => accounted_step h hstep.1 hstep.2) (accounted_start timeout)
  refine ⟨fun _ => haccounted.beat, fun a t horderly hstep hentered hact => ?_⟩
  obtain ⟨target, rfl, htarget, hok⟩ := setMode_of_entered hstep hentered hact
  exact haccounted.beat (horderly htarget) hok

theorem heartbeat_accounted_manual :
    ∃ s, Run (Guarded Orderly (Takes next)) (start (milliseconds 500)) [.kick 0, .restored, .check (milliseconds 20)] s ∧
      next s (.setMode .manual) = some { s with machine := ⟨.manual, true⟩ } ∧ s.wd.alive = true := by
  have hrun : Run (Guarded Orderly (Takes next)) (start (milliseconds 500)) [.kick 0, .restored, .check (milliseconds 20)]
      { machine := ⟨.safe, true⟩, wd := ⟨milliseconds 500, 0, true⟩ } := run_guarded_iff.mpr rfl
  exact ⟨_, hrun, rfl, (heartbeat_accounted (milliseconds 500) hrun).2 (.setMode .manual) _ (fun _ => rfl) rfl (by decide) rfl⟩

/-- A heartbeat that is more than its timeout old when its handler goes on: Manual is then entered with a watchdog that never fires. -/
theorem manual_on_dead_watchdog :
    ∃ s t, Run (Takes next) (start (milliseconds 500)) [.kick 0, .check (milliseconds 501), .lost, .restored] s ∧
      s.kicked = false ∧ s.fired = false ∧ s.machine.heartbeatOk = true ∧ s.wd.alive = false ∧
      next s (.setMode .manual) = some t ∧ t.machine.mode = .manual ∧ ∀ now, (t.wd.tickAndCheck now).1 = false := by
  refine ⟨{ machine := ⟨.safe, true⟩, wd := ⟨milliseconds 500, 0, false⟩ },
    { machine := ⟨.manual, true⟩, wd := ⟨milliseconds 500, 0, false⟩ }, run_takes_iff.mpr rfl, rfl, rfl, rfl, rfl, rfl, rfl, ?_⟩
  exact fun now => rfl

end Heartbeats

end Waypoint.Core
