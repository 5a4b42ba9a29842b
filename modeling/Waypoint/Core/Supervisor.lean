import Waypoint.Core.Main

/-!
# The supervisor

The part of core that decides whether the rover may move: the mode machine, the two watchdogs, the arming flag and the target.
-/

namespace Waypoint.Core

structure Supervisor where
  machine : ModeMachine
  wd : Watchdog
  driveSafety : Watchdog
  target : BodyVel
  armed : Bool

namespace Supervisor

def mode (a : Supervisor) : Mode := a.machine.mode

def entry : Supervisor where
  machine := {}
  wd := { timeout := CoreState.kHeartbeatTimeout }
  driveSafety := { timeout := CoreState.kDriveCmdTimeout }
  target := {}
  armed := false

variable {μ : Type} (hasDrive : Bool)

def settle (m : ModeMachine) (change : Option Change) (a : Supervisor) : Supervisor :=
  match change, hasDrive with
  | some c, true => { a with machine := m, target := {}, armed := c.now.actuating }
  | _, _ => { a with machine := m }

def checkHeartbeat (now : TimePoint) (a : Supervisor) : Supervisor :=
  let r := a.wd.tickAndCheck now
  let a := { a with wd := r.2 }
  if r.1 then
    let m := a.machine.onHeartbeatLost
    let a := settle hasDrive m.1 m.2 a
    if hasDrive then { a with target := {} } else a
  else a

def checkDrive (now : TimePoint) (a : Supervisor) : Supervisor :=
  if hasDrive then
    let r := a.driveSafety.tickAndCheck now
    let a := { a with driveSafety := r.2 }
    if r.1 then { a with target := {} } else a
  else a

def setModeRequest (m : ModeMachine) (raw : Int) : ModeMachine.Reply :=
  if CoreState.fromProto raw = .estop then m.requestEstop else m.requestSetMode (CoreState.fromProto raw)

def step (a : Supervisor) (e : Stamped μ) : Supervisor :=
  match e.event with
  | .heartbeat => { a with wd := a.wd.kick e.now, machine := a.machine.onHeartbeatRestored }
  | .cmdDrive (some t) =>
    if hasDrive && a.mode.actuating then { a with target := t, driveSafety := a.driveSafety.kick e.now } else a
  | .setMode (some raw) =>
    let r := setModeRequest a.machine raw
    settle hasDrive r.machine r.change a
  | .estop => settle hasDrive a.machine.requestEstop.machine a.machine.requestEstop.change a
  | .recover => settle hasDrive a.machine.requestRecover.machine a.machine.requestRecover.change a
  | .loop _ => checkDrive hasDrive e.now (checkHeartbeat hasDrive e.now a)
  | .cmdDrive none | .setMode none | .servo _ | .servoSync _ | .servoRead _ => a

def run (a : Supervisor) (es : List (Stamped μ)) : Supervisor := es.foldl (step hasDrive) a

/-- A live heartbeat is one fact kept in two places; arming follows the mode; only a fresh command leaves a target. -/
structure Linked (a : Supervisor) : Prop where
  beat : a.machine.heartbeatOk = a.wd.alive
  actuating : a.mode.actuating = true → a.machine.heartbeatOk = true
  armed : a.armed = (hasDrive && a.mode.actuating)
  target : a.target ≠ {} → a.armed = true ∧ a.driveSafety.alive = true

theorem linked_entry : Linked hasDrive entry where
  beat := rfl
  actuating := by simp [entry, mode, Mode.actuating]
  armed := by simp [entry, mode, Mode.actuating]
  target := by simp [entry]

variable {hasDrive} {a : Supervisor} {now : TimePoint}

theorem linked_clear (h : Linked hasDrive a) : Linked hasDrive { a with target := {} } :=
  ⟨h.beat, h.actuating, h.armed, fun ht => absurd rfl ht⟩

/-- A request that keeps the heartbeat flag in step with its watchdog, and enters an actuating mode only with it
set, keeps the link: the change it announces arms or disarms. -/
theorem linked_settle {m : ModeMachine} {change : Option Change}
    (harmed : a.armed = (hasDrive && a.mode.actuating))
    (htarget : a.target ≠ {} → a.armed = true ∧ a.driveSafety.alive = true)
    (hchange : change = ModeMachine.changeOf a.mode m.mode) (hbeat : m.heartbeatOk = a.wd.alive)
    (hact : m.mode.actuating = true → m.heartbeatOk = true) :
    Linked hasDrive (settle hasDrive m change a) := by
  subst hchange
  unfold ModeMachine.changeOf
  by_cases hsame : a.mode = m.mode
  · rw [if_pos hsame]
    refine ⟨hbeat, hact, ?_, htarget⟩
    change a.armed = (hasDrive && m.mode.actuating)
    rw [harmed, hsame]
  · rw [if_neg hsame]
    cases hasDrive with
    | false => exact ⟨hbeat, hact, harmed, htarget⟩
    | true => exact ⟨hbeat, hact, rfl, fun ht => absurd rfl ht⟩

@[simp] theorem settle_machine (a : Supervisor) (m : ModeMachine) (change : Option Change) :
    (settle hasDrive m change a).machine = m := by
  unfold settle
  split <;> rfl

@[simp] theorem settle_wd (a : Supervisor) (m : ModeMachine) (change : Option Change) :
    (settle hasDrive m change a).wd = a.wd := by
  unfold settle
  split <;> rfl

@[simp] theorem settle_driveSafety (a : Supervisor) (m : ModeMachine) (change : Option Change) :
    (settle hasDrive m change a).driveSafety = a.driveSafety := by
  unfold settle
  split <;> rfl

theorem checkHeartbeat_of_quiet (h : (a.wd.tickAndCheck now).1 = false) :
    checkHeartbeat hasDrive now a = a := by
  simp only [checkHeartbeat, h, Bool.false_eq_true, ↓reduceIte, Watchdog.tickAndCheck_of_not_fired h]

theorem checkHeartbeat_of_fired (h : (a.wd.tickAndCheck now).1 = true) :
    checkHeartbeat hasDrive now a =
      if hasDrive then
        { settle hasDrive a.machine.onHeartbeatLost.1 a.machine.onHeartbeatLost.2
            { a with wd := (a.wd.tickAndCheck now).2 } with target := {} }
      else
        settle hasDrive a.machine.onHeartbeatLost.1 a.machine.onHeartbeatLost.2
          { a with wd := (a.wd.tickAndCheck now).2 } := by
  simp only [checkHeartbeat, h, ↓reduceIte]

theorem linked_checkHeartbeat (h : Linked hasDrive a) (now : TimePoint) :
    Linked hasDrive (checkHeartbeat hasDrive now a) := by
  cases hfired : (a.wd.tickAndCheck now).1 with
  | false =>
    rw [checkHeartbeat_of_quiet hfired]
    exact h
  | true =>
    obtain ⟨hchange, hbeat, hmode⟩ := a.machine.onHeartbeatLost_spec
    rw [checkHeartbeat_of_fired hfired]
    have hsettled : Linked hasDrive (settle hasDrive a.machine.onHeartbeatLost.1 a.machine.onHeartbeatLost.2
        { a with wd := (a.wd.tickAndCheck now).2 }) := by
      refine linked_settle h.armed h.target hchange ?_ fun hact => ?_
      · rw [hbeat, (Watchdog.alive_of_fired hfired).2]
      · rw [hmode] at hact
        split at hact <;> simp_all [Mode.actuating]
    split
    · exact linked_clear hsettled
    · exact hsettled

theorem checkDrive_of_quiet (h : (a.driveSafety.tickAndCheck now).1 = false) :
    checkDrive hasDrive now a = a := by
  unfold checkDrive
  split
  · simp only [h, Bool.false_eq_true, ↓reduceIte, Watchdog.tickAndCheck_of_not_fired h]
  · rfl

theorem checkDrive_of_fired (h : (a.driveSafety.tickAndCheck now).1 = true) :
    checkDrive true now a = { a with driveSafety := (a.driveSafety.tickAndCheck now).2, target := {} } := by
  simp only [checkDrive, ↓reduceIte, h]

theorem linked_checkDrive (h : Linked hasDrive a) (now : TimePoint) :
    Linked hasDrive (checkDrive hasDrive now a) := by
  cases hfired : (a.driveSafety.tickAndCheck now).1 with
  | false =>
    rw [checkDrive_of_quiet hfired]
    exact h
  | true =>
    cases hasDrive with
    | false => exact h
    | true =>
      rw [checkDrive_of_fired hfired]
      exact ⟨h.beat, h.actuating, h.armed, fun ht => absurd rfl ht⟩

theorem linked_setModeRequest (h : Linked hasDrive a) (raw : Int) :
    Linked hasDrive (settle hasDrive (setModeRequest a.machine raw).machine
      (setModeRequest a.machine raw).change a) := by
  unfold setModeRequest
  split
  · obtain ⟨hchange, hbeat, hmode⟩ := a.machine.requestEstop_spec
    exact linked_settle h.armed h.target hchange (hbeat.trans h.beat) (by simp [hmode, Mode.actuating])
  obtain ⟨hchange, hbeat, hmode⟩ := a.machine.requestSetMode_spec (CoreState.fromProto raw)
  refine linked_settle h.armed h.target hchange (hbeat.trans h.beat) fun hact => hbeat.trans ?_
  rcases hmode with hmode | ⟨_, hmode, himp⟩
  · rw [hmode] at hact
    exact h.actuating hact
  · rw [hmode] at hact
    exact himp hact

theorem linked_step (h : Linked hasDrive a) (e : Stamped μ) : Linked hasDrive (a.step hasDrive e) := by
  obtain ⟨now, event⟩ := e
  cases event with
  | heartbeat => exact ⟨rfl, fun _ => rfl, h.armed, h.target⟩
  | cmdDrive payload =>
    cases payload with
    | none => exact h
    | some t =>
      simp only [step]
      split
      · rename_i hact
        refine ⟨h.beat, h.actuating, h.armed, fun _ => ⟨?_, rfl⟩⟩
        exact h.armed.trans hact
      · exact h
  | setMode payload =>
    cases payload with
    | none => exact h
    | some raw => exact linked_setModeRequest h raw
  | estop =>
    obtain ⟨hchange, hbeat, hmode⟩ := a.machine.requestEstop_spec
    exact linked_settle h.armed h.target hchange (hbeat.trans h.beat) (by simp [hmode, Mode.actuating])
  | recover =>
    obtain ⟨hchange, hbeat, hmode⟩ := a.machine.requestRecover_spec
    refine linked_settle h.armed h.target hchange (hbeat.trans h.beat) fun hact => hbeat.trans ?_
    rw [hmode] at hact
    split at hact
    · simp [Mode.actuating] at hact
    · exact h.actuating hact
  | servo c => exact h
  | servoSync goals => exact h
  | servoRead servoId => exact h
  | loop motion => exact linked_checkDrive (linked_checkHeartbeat h now) now

theorem linked_run (es : List (Stamped μ)) (h : Linked hasDrive a) :
    Linked hasDrive (a.run hasDrive es) := by
  induction es generalizing a with
  | nil => exact h
  | cons e es ih => exact ih (linked_step h e)

end Supervisor

namespace CoreState

variable {σ μ : Type} {cfg : Config} {w : World σ μ} (s : CoreState σ)

def supervisor : Supervisor where
  machine := s.machine
  wd := s.wd
  driveSafety := s.driveSafety
  target := s.drive.target
  armed := s.drive.armed

@[simp] theorem supervisor_mode : s.supervisor.mode = s.mode := rfl

@[simp] theorem supervisor_driveSafety : s.supervisor.driveSafety = s.driveSafety := rfl

@[simp] theorem supervisor_armed : s.supervisor.armed = s.drive.armed := rfl

theorem supervisor_armDrive (on : Bool) (s : CoreState σ) :
    (armDrive cfg w on s).supervisor =
      if cfg.drive.isSome then { s.supervisor with armed := on, target := if on then s.drive.target else {} }
      else s.supervisor := by
  unfold armDrive
  cases cfg.drive <;> rfl

theorem supervisor_clearTarget :
    (clearTarget cfg s).supervisor =
      if cfg.drive.isSome then { s.supervisor with target := {} } else s.supervisor := by
  unfold clearTarget
  split <;> rfl

theorem supervisor_onChange (c : Change) (s : CoreState σ) :
    (onChange cfg w c s).supervisor =
      if cfg.drive.isSome then { s.supervisor with target := {}, armed := c.now.actuating }
      else s.supervisor := by
  have harm : (armDrive cfg w c.now.actuating (clearTarget cfg s)).supervisor =
      if cfg.drive.isSome then { s.supervisor with target := {}, armed := c.now.actuating }
      else s.supervisor := by
    rw [supervisor_armDrive, supervisor_clearTarget]
    unfold clearTarget
    by_cases hdrive : cfg.drive.isSome = true
    · simp [hdrive, DriveController.setBodyTarget]
    · simp [hdrive]
  unfold onChange
  split
  · exact harm
  · exact harm

theorem supervisor_commit (m : ModeMachine) (change : Option Change) (s : CoreState σ) :
    (commit cfg w m change s).supervisor = s.supervisor.settle cfg.drive.isSome m change := by
  unfold commit Supervisor.settle
  cases change with
  | none => rfl
  | some c =>
    rw [supervisor_onChange]
    cases cfg.drive <;> rfl

theorem supervisor_checkHeartbeat (now : TimePoint) (s : CoreState σ) :
    (checkHeartbeat cfg w now s).supervisor = s.supervisor.checkHeartbeat cfg.drive.isSome now := by
  unfold checkHeartbeat Supervisor.checkHeartbeat
  by_cases hfired : (s.wd.tickAndCheck now).1 = true
  · simp only [hfired, ↓reduceIte, supervisor_clearTarget, supervisor_commit]
    have hfired' : (s.supervisor.wd.tickAndCheck now).1 = true := hfired
    rw [hfired']
    rfl
  · have hfired' : ¬ (s.supervisor.wd.tickAndCheck now).1 = true := hfired
    rw [if_neg hfired, if_neg hfired']
    rfl

theorem supervisor_checkDrive (now : TimePoint) (s : CoreState σ) :
    (checkDrive cfg now s).supervisor = s.supervisor.checkDrive cfg.drive.isSome now := by
  unfold checkDrive Supervisor.checkDrive
  cases cfg.drive with
  | none => rfl
  | some d =>
    change _ = if (s.driveSafety.tickAndCheck now).1 then _ else _
    by_cases hfired : (s.driveSafety.tickAndCheck now).1 = true
    · rw [if_pos hfired]
      simp only [hfired, ↓reduceIte]
      rfl
    · rw [if_neg hfired]
      simp only [hfired]
      rfl

@[simp] theorem supervisor_control (motion : μ) (now : TimePoint) (s : CoreState σ) :
    (control cfg w motion now s).supervisor = s.supervisor := by
  unfold control
  split
  · rfl
  cases cfg.drive with
  | none => rfl
  | some d =>
    simp only [supervisor, DriveController.tick_target, DriveController.tick_armed]

@[simp] theorem supervisor_telemetry (now : TimePoint) (s : CoreState σ) :
    (telemetry cfg w now s).supervisor = s.supervisor := by
  unfold telemetry
  split <;> rfl

/-- Every step of core is a step of the supervisor. -/
theorem supervisor_step (e : Stamped μ) :
    (step cfg w s e).supervisor = s.supervisor.step cfg.drive.isSome e := by
  obtain ⟨now, event⟩ := e
  cases event with
  | heartbeat => rfl
  | cmdDrive payload =>
    simp only [step, onCmdDrive, Supervisor.step]
    cases payload with
    | none => split <;> rfl
    | some t =>
      cases cfg.drive with
      | none => rfl
      | some d =>
        rw [supervisor_mode]
        cases s.mode.actuating <;> rfl
  | setMode payload =>
    cases payload with
    | none => rfl
    | some raw => exact supervisor_commit _ _ _
  | estop => exact supervisor_commit _ _ _
  | recover => exact supervisor_commit _ _ _
  | servo c => rfl
  | servoSync goals => rfl
  | servoRead servoId => rfl
  | loop motion =>
    change (onLoop cfg w motion now s).supervisor = _
    rw [onLoop, supervisor_telemetry, supervisor_control, supervisor_checkDrive, supervisor_checkHeartbeat]
    rfl

theorem supervisor_run (es : List (Stamped μ)) :
    (run cfg w s es).supervisor = s.supervisor.run cfg.drive.isSome es := by
  induction es generalizing s with
  | nil => rfl
  | cons e es ih =>
    change (run cfg w (step cfg w s e) es).supervisor = _
    rw [ih, supervisor_step]
    rfl

end CoreState

end Waypoint.Core
