import Waypoint.Core.Traffic

/-!
# The deadman

A wheel speed other than zero leaves core only within the heartbeat timeout of a heartbeat and within the drive timeout of a drive command, and then it is the twist of the last command.
-/

namespace Waypoint.Core

variable {μ : Type}

/-- `twist` is the drive command in force after `es`: received at `time` in an actuating mode, with no change of mode and no other command since. -/
def LastCommand (modeAfter : List (Stamped μ) → Mode) (es : List (Stamped μ)) (time : TimePoint)
    (twist : BodyVel) : Prop :=
  ∃ pre post, es = pre ++ ⟨time, .cmdDrive (some twist)⟩ :: post ∧ (modeAfter pre).actuating = true ∧
    (∀ p, p <+: post → modeAfter (pre ++ ⟨time, .cmdDrive (some twist)⟩ :: p) = modeAfter pre) ∧
    ∀ e ∈ post, ∀ t, e.event ≠ .cmdDrive (some t)

section LastCommand

variable {modeAfter : List (Stamped μ) → Mode} {es : List (Stamped μ)} {time : TimePoint} {twist : BodyVel}

theorem lastCommand_new (hact : (modeAfter es).actuating = true)
    (hmode : modeAfter (es ++ [⟨time, .cmdDrive (some twist)⟩]) = modeAfter es) :
    LastCommand modeAfter (es ++ [⟨time, .cmdDrive (some twist)⟩]) time twist := by
  refine ⟨es, [], rfl, hact, fun p hp => ?_, by simp⟩
  rw [List.prefix_nil.mp hp]
  exact hmode

theorem lastCommand_later (h : LastCommand modeAfter es time twist) {e : Stamped μ}
    (hcmd : ∀ t, e.event ≠ .cmdDrive (some t)) (hmode : modeAfter (es ++ [e]) = modeAfter es) :
    LastCommand modeAfter (es ++ [e]) time twist := by
  obtain ⟨pre, post, rfl, hact, hsame, hnone⟩ := h
  refine ⟨pre, post ++ [e], by simp, hact, fun p hp => ?_, fun x hx => ?_⟩
  · rcases List.prefix_concat_iff.mp hp with rfl | hp
    · have hpost := hsame post (List.prefix_refl post)
      rw [← hpost, ← hmode, List.append_assoc, List.cons_append]
    · exact hsame p hp
  · rcases List.mem_append.mp hx with hx | hx
    · exact hnone x hx
    · rw [List.mem_singleton.mp hx]
      exact hcmd

end LastCommand

namespace Supervisor

theorem step_wd {hasDrive : Bool} (a : Supervisor) (e : Stamped μ) :
    (a.step hasDrive e).wd =
      match e.event with
      | .heartbeat => a.wd.kick e.now
      | .loop _ => (a.wd.tickAndCheck e.now).2
      | _ => a.wd := by
  obtain ⟨now, event⟩ := e
  cases event with
  | heartbeat => rfl
  | cmdDrive payload =>
    cases payload with
    | none => rfl
    | some t =>
      simp only [step]
      split <;> rfl
  | setMode payload =>
    cases payload with
    | none => rfl
    | some raw => exact settle_wd _ _ _
  | estop => exact settle_wd _ _ _
  | recover => exact settle_wd _ _ _
  | servo c => rfl
  | servoSync goals => rfl
  | servoRead servoId => rfl
  | loop motion =>
    simp only [step, checkDrive, checkHeartbeat]
    repeat' split
    all_goals simp

theorem step_driveSafety_timeout {hasDrive : Bool} (a : Supervisor) (e : Stamped μ) :
    (a.step hasDrive e).driveSafety.timeout = a.driveSafety.timeout := by
  obtain ⟨now, event⟩ := e
  cases event with
  | heartbeat => rfl
  | cmdDrive payload =>
    cases payload with
    | none => rfl
    | some t =>
      simp only [step]
      split <;> rfl
  | setMode payload =>
    cases payload with
    | none => rfl
    | some raw => simp only [step, settle_driveSafety]
  | estop => simp only [step, settle_driveSafety]
  | recover => simp only [step, settle_driveSafety]
  | servo c => rfl
  | servoSync goals => rfl
  | servoRead servoId => rfl
  | loop motion =>
    simp only [step, checkDrive, checkHeartbeat]
    repeat' split
    all_goals simp

variable {a : Supervisor}

theorem settle_target {m : ModeMachine} {change : Option Change}
    (hchange : change = ModeMachine.changeOf a.mode m.mode) (h : (settle true m change a).target ≠ {}) :
    (settle true m change a).target = a.target ∧ (settle true m change a).mode = a.mode := by
  subst hchange
  unfold ModeMachine.changeOf at h ⊢
  by_cases hsame : a.mode = m.mode
  · rw [if_pos hsame]
    exact ⟨rfl, hsame.symm⟩
  · rw [if_neg hsame] at h
    exact absurd rfl h

theorem quiet_of_target {now : TimePoint}
    (h : (checkDrive true now (checkHeartbeat true now a)).target ≠ {}) :
    (a.wd.tickAndCheck now).1 = false ∧ (a.driveSafety.tickAndCheck now).1 = false := by
  cases hbeat : (a.wd.tickAndCheck now).1 with
  | true =>
    exfalso
    rw [checkHeartbeat_of_fired hbeat, if_pos rfl] at h
    unfold checkDrive at h
    simp only [↓reduceIte] at h
    split at h <;> exact h rfl
  | false =>
    rw [checkHeartbeat_of_quiet hbeat] at h
    cases hfired : (a.driveSafety.tickAndCheck now).1 with
    | true =>
      rw [checkDrive_of_fired hfired] at h
      exact absurd rfl h
    | false => exact ⟨rfl, rfl⟩

/-- Where a target comes from: the command just accepted, or the state before, in the same mode. -/
theorem step_target (hlinked : Linked true a) (e : Stamped μ) (h : (a.step true e).target ≠ {}) :
    (∃ t, e.event = .cmdDrive (some t) ∧ a.mode.actuating = true ∧
      a.step true e = { a with target := t, driveSafety := a.driveSafety.kick e.now }) ∨
    (∀ t, e.event ≠ .cmdDrive (some t)) ∧ (a.step true e).target = a.target ∧ (a.step true e).mode = a.mode ∧
      (a.step true e).driveSafety = a.driveSafety := by
  obtain ⟨now, event⟩ := e
  cases event with
  | heartbeat => exact Or.inr ⟨by simp, rfl, rfl, rfl⟩
  | cmdDrive payload =>
    cases payload with
    | none => exact Or.inr ⟨by simp, rfl, rfl, rfl⟩
    | some t =>
      cases hact : a.mode.actuating with
      | true => exact Or.inl ⟨t, rfl, rfl, by simp [step, hact]⟩
      | false =>
        -- outside the actuating modes the rover is disarmed, so there is no target to survive
        have hsame : a.step true (⟨now, .cmdDrive (some t)⟩ : Stamped μ) = a := by simp [step, hact]
        rw [hsame] at h
        have harmed := (hlinked.target h).1
        rw [hlinked.armed, hact] at harmed
        exact absurd harmed (by simp)
  | setMode payload =>
    cases payload with
    | none => exact Or.inr ⟨by simp, rfl, rfl, rfl⟩
    | some raw =>
      have hchange : (setModeRequest a.machine raw).change =
          ModeMachine.changeOf a.mode (setModeRequest a.machine raw).machine.mode := by
        unfold setModeRequest
        split
        · exact a.machine.requestEstop_spec.1
        · exact (a.machine.requestSetMode_spec _).1
      obtain ⟨htarget, hmode⟩ := settle_target hchange h
      exact Or.inr ⟨by simp, htarget, hmode, settle_driveSafety _ _ _⟩
  | estop =>
    obtain ⟨htarget, hmode⟩ := settle_target a.machine.requestEstop_spec.1 h
    exact Or.inr ⟨by simp, htarget, hmode, settle_driveSafety _ _ _⟩
  | recover =>
    obtain ⟨htarget, hmode⟩ := settle_target a.machine.requestRecover_spec.1 h
    exact Or.inr ⟨by simp, htarget, hmode, settle_driveSafety _ _ _⟩
  | servo c => exact Or.inr ⟨by simp, rfl, rfl, rfl⟩
  | servoSync goals => exact Or.inr ⟨by simp, rfl, rfl, rfl⟩
  | servoRead servoId => exact Or.inr ⟨by simp, rfl, rfl, rfl⟩
  | loop motion =>
    obtain ⟨hbeat, hdrive⟩ := quiet_of_target h
    have hsame : a.step true ⟨now, .loop motion⟩ = a := by
      simp only [step]
      rw [checkHeartbeat_of_quiet hbeat, checkDrive_of_quiet hdrive]
    exact Or.inr ⟨by simp, by rw [hsame], by rw [hsame], by rw [hsame]⟩

/-- What the state says about the events that led to it. -/
structure Recorded (es : List (Stamped μ)) (a : Supervisor) : Prop where
  heartbeatTimeout : a.wd.timeout = CoreState.kHeartbeatTimeout
  driveTimeout : a.driveSafety.timeout = CoreState.kDriveCmdTimeout
  heard : a.wd.alive = true → ⟨a.wd.lastKick, .heartbeat⟩ ∈ es
  commanded : a.target ≠ {} →
    LastCommand (fun es => (entry.run true es).mode) es a.driveSafety.lastKick a.target

theorem run_concat (hasDrive : Bool) (a : Supervisor) (es : List (Stamped μ)) (e : Stamped μ) :
    a.run hasDrive (es ++ [e]) = (a.run hasDrive es).step hasDrive e := by
  simp [run]

theorem recorded_run (es : List (Stamped μ)) : Recorded es (entry.run true es) := by
  induction es using List.reverseRecOn with
  | nil => exact ⟨rfl, rfl, by simp [run, entry], by simp [run, entry]⟩
  | append_singleton es e ih =>
    have hlinked : Linked true (entry.run true es) := linked_run es (linked_entry true)
    have hconcat := run_concat true entry es e
    rw [hconcat]
    refine ⟨?_, ?_, fun halive => ?_, fun htarget => ?_⟩
    · rw [step_wd, ← ih.heartbeatTimeout]
      split <;> simp [Watchdog.kick]
    · rw [step_driveSafety_timeout, ih.driveTimeout]
    · rw [step_wd] at halive ⊢
      obtain ⟨now, event⟩ := e
      cases event with
      | heartbeat => exact List.mem_append_right _ List.mem_cons_self
      | loop motion =>
        have hbefore := Watchdog.alive_of_tickAndCheck halive
        simpa using ih.heard hbefore
      | _ => exact List.mem_append_left _ (ih.heard halive)
    · rcases step_target hlinked e htarget with ⟨t, hevent, hact, hstep⟩ | ⟨hcmd, hsame, hmode, hsafety⟩
      · obtain ⟨now, event⟩ := e
        obtain rfl : event = .cmdDrive (some t) := hevent
        have hmode : (entry.run true (es ++ [⟨now, .cmdDrive (some t)⟩])).mode = (entry.run true es).mode := by
          rw [hconcat, hstep]
          rfl
        rw [hstep]
        exact lastCommand_new hact hmode
      · rw [hsame, hsafety]
        refine lastCommand_later (ih.commanded ?_) hcmd ?_
        · rwa [← hsame]
        · rw [hconcat, hmode]

end Supervisor

namespace CoreState

open Base Bus

variable {σ : Type} {cfg : Config} {w : World σ μ} {d : DriveSetup} {t : TimePoint}

section

variable (hdrive : cfg.drive = some d)

include hdrive

theorem armed_of_speed {s : CoreState σ} {motion : μ} {f : Frame}
    (hf : f ∈ sent cfg w s ⟨t, .loop motion⟩) (hspeed : f.nonzeroSpeed = true) :
    (checkDrive cfg t (checkHeartbeat cfg w t s)).drive.target ≠ {} ∧
      ¬ t < (checkDrive cfg t (checkHeartbeat cfg w t s)).next50 := by
  set checked := checkDrive cfg t (checkHeartbeat cfg w t s) with hchecked
  let P (f : Frame) : Prop := f.nonzeroSpeed = true → checked.drive.target ≠ {} ∧ ¬ t < checked.next50
  have hhalts : ∀ f : Frame, f.Halts → P f := by
    intro f hf hspeed
    rw [Frame.Halts, hspeed] at hf
    exact absurd hf.symm Bool.false_ne_true
  have hbefore : Grows P s.bus checked.bus := by
    rw [hchecked, bus_checkDrive]
    exact grows_of_acts ((acts_checkHeartbeat t s).mono hhalts)
  have hcontrol : Grows P checked.bus (control cfg w motion t checked).bus := by
    have hlog := log_control (w := w) hdrive motion t checked
    split at hlog
    · exact ⟨[], by simpa using hlog, by simp⟩
    rename_i hdue
    refine ⟨_, hlog, fun f hf hspeed => ⟨?_, hdue⟩⟩
    rcases List.mem_append.mp hf with hf | hf
    · obtain ⟨id, -, hid⟩ := List.mem_flatMap.mp hf
      exact absurd hspeed (by simpa [Frame.Halts] using (reads_wheelRead hid).halts)
    · exact (DriveController.mem_tickWrites hf).2.2 hspeed
  have hafter : Grows P (control cfg w motion t checked).bus
      (telemetry cfg w t (control cfg w motion t checked)).bus :=
    grows_of_acts ((acts_telemetry t _).mono fun f hf => hhalts f hf.halts)
  exact sent_of_grows (trans_of (Grows P) (trans_of (Grows P) hbefore hcontrol) hafter) f hf hspeed

theorem writes_of_quiet {s : CoreState σ} {motion : μ}
    (hbeat : (s.wd.tickAndCheck t).1 = false) (hsafety : (s.driveSafety.tickAndCheck t).1 = false)
    (hdue : ¬ t < s.next50) :
    (sent cfg w s ⟨t, .loop motion⟩).filter Frame.isWrite =
      DriveController.tickWrites cfg.jointDrv d.kin d.wheels s.drive := by
  have hquiet : checkDrive cfg t (checkHeartbeat cfg w t s) = s := by
    rw [checkHeartbeat_of_quiet hbeat, checkDrive_of_quiet hsafety]
  obtain ⟨reads, hlog, hreads⟩ := grows_of_acts
    (acts_telemetry t (control cfg w motion t s) : Acts w Frame.Reads _ (telemetry cfg w t (control cfg w motion t s)).bus)
  have hcontrol := log_control (w := w) hdrive motion t s
  rw [if_neg hdue] at hcontrol
  have hsent : sent cfg w s ⟨t, .loop motion⟩ =
      (d.wheels.toList.flatMap (DriveController.wheelRead cfg.jointDrv) ++
        DriveController.tickWrites cfg.jointDrv d.kin d.wheels s.drive) ++ reads := by
    refine sent_eq_of_log ?_
    change (onLoop cfg w motion t s).bus.log = _
    rw [onLoop, hquiet, hlog, hcontrol, List.append_assoc]
  have hwheelReads : (d.wheels.toList.flatMap (DriveController.wheelRead cfg.jointDrv)).filter Frame.isWrite = [] := by
    refine List.filter_eq_nil_iff.mpr fun f hf => ?_
    obtain ⟨id, -, hid⟩ := List.mem_flatMap.mp hf
    simpa [Frame.Reads] using reads_wheelRead hid
  have htelemetry : reads.filter Frame.isWrite = [] := 
    List.filter_eq_nil_iff.mpr fun f hf => by simpa [Frame.Reads] using hreads f hf
  have hwrites : (DriveController.tickWrites cfg.jointDrv d.kin d.wheels s.drive).filter Frame.isWrite =
      DriveController.tickWrites cfg.jointDrv d.kin d.wheels s.drive :=
    List.filter_eq_self.mpr fun f hf => (DriveController.mem_tickWrites hf).2.1
  rw [hsent, List.filter_append, List.filter_append, hwheelReads, htelemetry, hwrites, List.nil_append, List.append_nil]

theorem mode_run_entry (wire : σ) (auxRot : AuxRotation) (start : TimePoint) :
    (fun es => (run cfg w (entry wire auxRot start) es).mode) =
      fun es : List (Stamped μ) => (Supervisor.entry.run true es).mode := by
  funext es
  have hrun : (run cfg w (entry wire auxRot start) es).supervisor = _ := supervisor_run (entry wire auxRot start) es
  rw [hdrive, Option.isSome_some] at hrun
  rw [← supervisor_mode, hrun]
  rfl

theorem linked_of_run (wire : σ) (auxRot : AuxRotation) (start : TimePoint)
    (es : List (Stamped μ)) :
    Supervisor.Linked true (run cfg w (entry wire auxRot start) es).supervisor ∧
      Supervisor.Recorded es (run cfg w (entry wire auxRot start) es).supervisor := by
  rw [supervisor_run, hdrive]
  exact ⟨Supervisor.linked_run es (Supervisor.linked_entry true), Supervisor.recorded_run es⟩

theorem quiet_of_checked {s : CoreState σ}
    (h : (checkDrive cfg t (checkHeartbeat cfg w t s)).drive.target ≠ {}) :
    (s.wd.tickAndCheck t).1 = false ∧ (s.driveSafety.tickAndCheck t).1 = false := by
  have hchecked : (checkDrive cfg t (checkHeartbeat cfg w t s)).supervisor =
      Supervisor.checkDrive true t (Supervisor.checkHeartbeat true t s.supervisor) := by
    rw [supervisor_checkDrive, supervisor_checkHeartbeat, hdrive]
    rfl
  have hdriven : (Supervisor.checkDrive true t (Supervisor.checkHeartbeat true t s.supervisor)).target ≠ {} := by
    rw [← hchecked]
    exact h
  exact Supervisor.quiet_of_target hdriven

theorem quiet_of_speed {s : CoreState σ} {motion : μ} {f : Frame}
    (hf : f ∈ sent cfg w s ⟨t, .loop motion⟩) (hspeed : f.nonzeroSpeed = true) :
    (s.wd.tickAndCheck t).1 = false ∧ (s.driveSafety.tickAndCheck t).1 = false ∧ s.drive.target ≠ {} ∧
      ¬ t < s.next50 := by
  obtain ⟨htarget, hdue⟩ := armed_of_speed hdrive hf hspeed
  obtain ⟨hbeat, hsafety⟩ := quiet_of_checked hdrive htarget
  rw [checkHeartbeat_of_quiet hbeat, checkDrive_of_quiet hsafety] at htarget hdue
  exact ⟨hbeat, hsafety, htarget, hdue⟩

end

/-- Core's deadman: whenever an iteration of the loop commands a speed, a heartbeat and a drive command are recent
enough, the mode is an actuating one, and what is written is the twist of the command in force. -/
theorem deadman {cfg : Config} {d : DriveSetup} (hdrive : cfg.drive = some d) (w : World σ μ) (wire : σ)
    (auxRot : AuxRotation) (start : TimePoint) (es : List (Stamped μ)) (s : CoreState σ)
    (hs : s = run cfg w (entry wire auxRot start) es) :
    (∀ t motion, ∀ f ∈ sent cfg w s ⟨t, .loop motion⟩, f.nonzeroSpeed = true →
      (s.mode = .manual ∨ s.mode = .autonomous) ∧ (step cfg w s ⟨t, .loop motion⟩).mode = s.mode ∧
      (∃ e ∈ es, e.event = .heartbeat ∧ t - milliseconds 500 ≤ e.now) ∧
      ∃ time twist, t - milliseconds 300 ≤ time ∧
        LastCommand (fun es => (run cfg w (entry wire auxRot start) es).mode) es time twist ∧
        (sent cfg w s ⟨t, .loop motion⟩).filter Frame.isWrite =
          (d.wheels.velocityCommands (d.kin.bodyToWheels twist)).flatMap cfg.jointDrv.commandFrames) ∧
    (s.mode.actuating = true → s.machine.heartbeatOk = true ∧ s.wd.alive = true) ∧
    (s.drive.armed = true ↔ s.mode.actuating = true) ∧
    (s.drive.target ≠ {} → s.drive.armed = true ∧ s.driveSafety.alive = true) := by
  obtain ⟨hlinked, hrecorded⟩ := linked_of_run (w := w) hdrive wire auxRot start es
  rw [← hs] at hlinked hrecorded
  have hbeat : s.machine.heartbeatOk = s.wd.alive := hlinked.beat
  have hactuating : s.mode.actuating = true → s.machine.heartbeatOk = true := hlinked.actuating
  have harmed : s.drive.armed = s.mode.actuating := hlinked.armed
  have htarget : s.drive.target ≠ {} → s.drive.armed = true ∧ s.driveSafety.alive = true := hlinked.target
  refine ⟨fun t motion f hf hspeed => ?_, fun hact => ⟨hactuating hact, hbeat.symm.trans (hactuating hact)⟩,
    by rw [harmed], htarget⟩
  obtain ⟨hquietBeat, hquietDrive, hdriven, hdue⟩ := quiet_of_speed hdrive hf hspeed
  obtain ⟨harm, hsafety⟩ := htarget hdriven
  have hact : s.mode.actuating = true := harmed.symm.trans harm
  have halive : s.wd.alive = true := hbeat.symm.trans (hactuating hact)
  have hmode : (step cfg w s ⟨t, .loop motion⟩).mode = s.mode := by
    change (onLoop cfg w motion t s).supervisor.mode = s.supervisor.mode
    rw [onLoop, supervisor_telemetry, supervisor_control, checkHeartbeat_of_quiet hquietBeat,
      checkDrive_of_quiet hquietDrive]
  have hbeatTime := Watchdog.lastKick_of_quiet halive hquietBeat
  have hcmdTime := Watchdog.lastKick_of_quiet hsafety hquietDrive
  rw [show s.wd.timeout = milliseconds 500 from hrecorded.heartbeatTimeout] at hbeatTime
  rw [show s.driveSafety.timeout = milliseconds 300 from hrecorded.driveTimeout] at hcmdTime
  refine ⟨Mode.actuating_iff.mp hact, hmode, ⟨_, hrecorded.heard halive, rfl, hbeatTime⟩,
    s.driveSafety.lastKick, s.drive.target, hcmdTime, ?_, ?_⟩
  · rw [mode_run_entry hdrive]
    exact hrecorded.commanded hdriven
  · rw [writes_of_quiet hdrive hquietBeat hquietDrive hdue, DriveController.tickWrites, if_pos harm]

/-- On the rover, with a heartbeat at 0 and a command 1 ms later, the iteration at 2 ms does command a speed. -/
theorem deadman_rover :
    ∃ cfg d, Config.ofDocument Descriptor.waypointRover = some cfg ∧ cfg.drive = some d ∧
      ∃ s : CoreState Unit,
        s = run cfg World.silent (entry () { ids := [], maxFailures := 3 } 0)
          [⟨0, .heartbeat⟩, ⟨0, .setMode (some 1)⟩, ⟨milliseconds 1, .cmdDrive (some { vx := 1 })⟩] ∧
        ((sent cfg World.silent s ⟨milliseconds 2, .loop ()⟩).any Frame.nonzeroSpeed) = true ∧
        (s.mode = .manual ∨ s.mode = .autonomous) := by
  have hcfg : (Config.ofDocument Descriptor.waypointRover).isSome = true := by decide +kernel
  obtain ⟨cfg, hcfg⟩ := Option.isSome_iff_exists.mp hcfg
  have hdrive : ((Config.ofDocument Descriptor.waypointRover).bind Config.drive).isSome = true := by decide +kernel
  rw [hcfg, Option.bind_some] at hdrive
  obtain ⟨d, hdrive⟩ := Option.isSome_iff_exists.mp hdrive
  have hspeed : ((Config.ofDocument Descriptor.waypointRover).map fun cfg =>
      (sent cfg World.silent (run cfg World.silent (entry () { ids := [], maxFailures := 3 } 0)
        [⟨0, .heartbeat⟩, ⟨0, .setMode (some 1)⟩, ⟨milliseconds 1, .cmdDrive (some { vx := 1 })⟩])
        ⟨milliseconds 2, .loop ()⟩).any Frame.nonzeroSpeed) = some true := by decide +kernel
  rw [hcfg, Option.map_some, Option.some_inj] at hspeed
  refine ⟨cfg, d, hcfg, hdrive, _, rfl, hspeed, ?_⟩
  obtain ⟨f, hf, hnonzero⟩ := List.any_eq_true.mp hspeed
  exact ((deadman hdrive World.silent () _ 0 _ _ rfl).1 _ _ f hf hnonzero).1

/-- An iteration that finds no heartbeat of the last 500 ms stops the rover, and until the next heartbeat nothing that is received sets it in motion again. -/
theorem lapse_stops (hdrive : cfg.drive = some d) (wire : σ) (auxRot : AuxRotation) (start : TimePoint) (motion : μ)
    (es later : List (Stamped μ)) (hlapsed : ∀ e ∈ es, e.event = .heartbeat → e.now < t - milliseconds 500)
    (hlater : ∀ e ∈ later, e.event ≠ .heartbeat) (s : CoreState σ)
    (hs : s = run cfg w (entry wire auxRot start) (es ++ ⟨t, .loop motion⟩ :: later)) :
    s.mode.actuating = false ∧ s.drive.armed = false ∧ s.drive.target = {} := by
  obtain ⟨hlinked, -⟩ := linked_of_run (w := w) hdrive wire auxRot start (es ++ ⟨t, .loop motion⟩ :: later)
  obtain ⟨-, hrecorded⟩ := linked_of_run (w := w) hdrive wire auxRot start es
  rw [← hs] at hlinked
  have hdead : s.supervisor.wd.alive ≠ true := by
    rw [hs, run, List.foldl_append, List.foldl_cons, ← run, ← run, supervisor_run, supervisor_step]
    refine List.foldlRecOn (motive := fun a : Supervisor => a.wd.alive ≠ true) later _ (fun halive => ?_) fun a ha e he halive => ?_
    · rw [Supervisor.step_wd] at halive
      have hheard := Watchdog.alive_of_tickAndCheck halive
      have hquiet := Bool.eq_false_iff.mpr fun hfired => Bool.noConfusion ((Watchdog.alive_of_fired hfired).2.symm.trans halive)
      have hrecent := Watchdog.lastKick_of_quiet hheard hquiet
      rw [hrecorded.heartbeatTimeout] at hrecent
      exact absurd (hlapsed _ (hrecorded.heard hheard) rfl) (Int.not_lt.mpr hrecent)
    · rw [Supervisor.step_wd] at halive
      split at halive
      · exact hlater e he ‹_›
      · exact ha (Watchdog.alive_of_tickAndCheck halive)
      · exact ha halive
  have hmode : s.mode.actuating = false :=
    Bool.eq_false_iff.mpr fun hact => hdead (hlinked.beat.symm.trans (hlinked.actuating hact))
  have harmed : s.drive.armed = false := hlinked.armed.trans hmode
  refine ⟨hmode, harmed, ?_⟩
  by_contra htarget
  cases harmed.symm.trans (hlinked.target htarget).1

theorem lapse_stops_rover :
    ∃ cfg d, Config.ofDocument Descriptor.waypointRover = some cfg ∧ cfg.drive = some d ∧
      (run cfg World.silent (entry () { ids := [], maxFailures := 3 } 0) [⟨0, .heartbeat⟩, ⟨0, .setMode (some 1)⟩,
        ⟨milliseconds 501, .loop ()⟩, ⟨milliseconds 502, .setMode (some 1)⟩]).mode.actuating = false := by
  have hdrive : ((Config.ofDocument Descriptor.waypointRover).bind Config.drive).isSome = true := by decide +kernel
  obtain ⟨d, hdrive⟩ := Option.isSome_iff_exists.mp hdrive
  obtain ⟨cfg, hcfg, hdrive⟩ := Option.bind_eq_some_iff.mp hdrive
  exact ⟨cfg, d, hcfg, hdrive, (lapse_stops (t := milliseconds 501) hdrive () _ 0 () [_, _] [_] (by simp [milliseconds]) (by simp) _ rfl).1⟩

end CoreState

end Waypoint.Core
