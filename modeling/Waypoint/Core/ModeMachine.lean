import Mathlib.Data.Int.Basic

/-!
# The mode machine and the watchdogs

`mode/ModeMachine.cpp` and `watchdog/Watchdog.cpp`, with whole calls as the unit. The callback runs last in every request, so a request returns the change it announces and the caller acts on it.
-/

namespace Waypoint.Core

inductive Mode
  | manual
  | safe
  | estop
  | autonomous
  deriving DecidableEq

def Mode.actuating : Mode → Bool
  | .manual | .autonomous => true
  | .safe | .estop => false

theorem Mode.actuating_iff {m : Mode} : m.actuating = true ↔ m = .manual ∨ m = .autonomous := by
  cases m <;> simp [Mode.actuating]

structure ModeMachine where
  mode : Mode := .safe
  heartbeatOk : Bool := false

structure Change where
  old : Mode
  now : Mode

namespace ModeMachine

/-- What a request returns, the machine after it, and the change it announces. -/
structure Reply where
  ok : Bool
  machine : ModeMachine
  change : Option Change

variable (m : ModeMachine) (target : Mode)

def transition : ModeMachine × Option Change :=
  if target = m.mode then (m, none)
  else ({ m with mode := target }, some ⟨m.mode, target⟩)

def requestSetMode : Reply :=
  if m.mode = .estop then ⟨false, m, none⟩
  else if target.actuating && !m.heartbeatOk then ⟨false, m, none⟩
  else ⟨true, (m.transition target).1, (m.transition target).2⟩

def requestEstop : Reply :=
  ⟨true, (m.transition .estop).1, (m.transition .estop).2⟩

def requestRecover : Reply :=
  if m.mode = .estop then ⟨true, (m.transition .safe).1, (m.transition .safe).2⟩
  else ⟨false, m, none⟩

def onHeartbeatLost : ModeMachine × Option Change :=
  let m := { m with heartbeatOk := false }
  if m.mode.actuating then m.transition .safe else (m, none)

def onHeartbeatRestored : ModeMachine := { m with heartbeatOk := true }

@[simp] theorem transition_mode : (m.transition target).1.mode = target := by
  unfold transition
  split <;> simp_all

@[simp] theorem transition_heartbeatOk :
    (m.transition target).1.heartbeatOk = m.heartbeatOk := by
  unfold transition
  split <;> rfl

def changeOf (old now : Mode) : Option Change := if old = now then none else some ⟨old, now⟩

theorem transition_change : (m.transition target).2 = changeOf m.mode target := by
  unfold transition changeOf
  by_cases h : target = m.mode
  · rw [if_pos h, if_pos h.symm]
  · rw [if_neg h, if_neg fun he => h he.symm]

@[simp] theorem changeOf_self (m : Mode) : changeOf m m = none := if_pos rfl

theorem requestSetMode_spec :
    (m.requestSetMode target).change = changeOf m.mode (m.requestSetMode target).machine.mode ∧
      (m.requestSetMode target).machine.heartbeatOk = m.heartbeatOk ∧
      ((m.requestSetMode target).machine.mode = m.mode ∨
        m.mode ≠ .estop ∧ (m.requestSetMode target).machine.mode = target ∧
          (target.actuating = true → m.heartbeatOk = true)) := by
  unfold requestSetMode
  split
  · simp
  split
  · simp
  · rename_i hestop hbeat
    refine ⟨by simp [transition_change], by simp, Or.inr ⟨hestop, by simp, fun hact => ?_⟩⟩
    simpa [hact] using hbeat

theorem requestEstop_spec :
    m.requestEstop.change = changeOf m.mode m.requestEstop.machine.mode ∧
      m.requestEstop.machine.heartbeatOk = m.heartbeatOk ∧ m.requestEstop.machine.mode = .estop := by
  simp [requestEstop, transition_change]

theorem requestRecover_spec :
    m.requestRecover.change = changeOf m.mode m.requestRecover.machine.mode ∧
      m.requestRecover.machine.heartbeatOk = m.heartbeatOk ∧
      m.requestRecover.machine.mode = if m.mode = .estop then .safe else m.mode := by
  unfold requestRecover
  split
  · simp [transition_change]
  · simp

theorem onHeartbeatLost_spec :
    m.onHeartbeatLost.2 = changeOf m.mode m.onHeartbeatLost.1.mode ∧
      m.onHeartbeatLost.1.heartbeatOk = false ∧
      m.onHeartbeatLost.1.mode = if m.mode.actuating then .safe else m.mode := by
  unfold onHeartbeatLost
  by_cases hact : m.mode.actuating = true
  · simp [hact, transition_change]
  · simp [hact]

end ModeMachine

abbrev TimePoint := Int

def milliseconds (n : Int) : TimePoint := n * 1000000

structure Watchdog where
  timeout : TimePoint
  lastKick : TimePoint := 0
  alive : Bool := false

namespace Watchdog

def kick (w : Watchdog) (now : TimePoint) : Watchdog := { w with lastKick := now, alive := true }

/-- Fires once, at the first check past the timeout, and stays silent until the next kick. -/
def tickAndCheck (w : Watchdog) (now : TimePoint) : Bool × Watchdog :=
  if !w.alive then (false, w)
  else if now - w.lastKick > w.timeout then (true, { w with alive := false })
  else (false, w)

@[simp] theorem tickAndCheck_timeout (w : Watchdog) (now : TimePoint) :
    (w.tickAndCheck now).2.timeout = w.timeout := by
  unfold tickAndCheck
  split
  · rfl
  · split <;> rfl

@[simp] theorem tickAndCheck_lastKick (w : Watchdog) (now : TimePoint) :
    (w.tickAndCheck now).2.lastKick = w.lastKick := by
  unfold tickAndCheck
  split
  · rfl
  · split <;> rfl

variable {w : Watchdog} {now : TimePoint}

theorem alive_of_tickAndCheck (h : (w.tickAndCheck now).2.alive = true) :
    w.alive = true := by
  unfold tickAndCheck at h
  by_cases ha : w.alive = true
  · exact ha
  · simp [ha] at h

theorem tickAndCheck_of_not_fired (h : (w.tickAndCheck now).1 = false) :
    (w.tickAndCheck now).2 = w := by
  unfold tickAndCheck at h ⊢
  by_cases ha : w.alive = true
  · by_cases ht : now - w.lastKick > w.timeout
    · simp [ha, ht] at h
    · simp [ha, ht]
  · simp [ha]

theorem lastKick_of_quiet (halive : w.alive = true)
    (h : (w.tickAndCheck now).1 = false) : now - w.timeout ≤ w.lastKick := by
  unfold tickAndCheck at h
  by_cases ht : now - w.lastKick > w.timeout
  · simp [halive, ht] at h
  · exact Int.sub_left_le_of_le_add (Int.le_add_of_sub_right_le (Int.not_lt.mp ht))

theorem quiet_of_kicked (htimeout : 0 ≤ w.timeout)
    (hkick : w.alive = true → w.lastKick = now) : (w.tickAndCheck now).1 = false := by
  unfold tickAndCheck
  by_cases halive : w.alive = true
  · have hnot : ¬ now - w.lastKick > w.timeout := by
      rw [hkick halive, Int.sub_self]
      exact Int.not_lt.mpr htimeout
    simp [halive, hnot]
  · simp [halive]

theorem alive_of_fired (h : (w.tickAndCheck now).1 = true) :
    w.alive = true ∧ (w.tickAndCheck now).2.alive = false := by
  unfold tickAndCheck at h ⊢
  by_cases ha : w.alive = true
  · by_cases ht : now - w.lastKick > w.timeout
    · simp [ha, ht]
    · simp [ha, ht] at h
  · simp [ha] at h

end Watchdog

end Waypoint.Core
