import Waypoint.Core.Traffic

/-!
# E-stop is sticky and quiet

Once core is in Estop it stays there until `rpc.recover`, and it writes nothing to the bus but the torque-off of an overcurrent trip.
-/

namespace Waypoint.Core

open Base Bus

variable {σ μ : Type}

namespace Supervisor

variable {hasDrive : Bool}

theorem mode_checkDrive (now : TimePoint) (a : Supervisor) : (checkDrive hasDrive now a).mode = a.mode := by
  unfold checkDrive
  split
  · dsimp only
    split <;> rfl
  · rfl

theorem mode_checkHeartbeat (now : TimePoint) (a : Supervisor) :
    (checkHeartbeat hasDrive now a).mode =
      if (a.wd.tickAndCheck now).1 && a.mode.actuating then .safe else a.mode := by
  cases hfired : (a.wd.tickAndCheck now).1 with
  | false =>
    rw [checkHeartbeat_of_quiet hfired]
    rfl
  | true =>
    have hmode : (checkHeartbeat hasDrive now a).mode = a.machine.onHeartbeatLost.1.mode := by
      rw [checkHeartbeat_of_fired hfired]
      split <;> simp [mode]
    rw [hmode, a.machine.onHeartbeatLost_spec.2.2]
    rfl

/-- The mode after each event. Only three requests and a lost heartbeat can change it. -/
theorem mode_step (a : Supervisor) (e : Stamped μ) :
    (a.step hasDrive e).mode =
      match e.event with
      | .estop => .estop
      | .recover => if a.mode = .estop then .safe else a.mode
      | .setMode (some raw) => (setModeRequest a.machine raw).machine.mode
      | .loop _ => if (a.wd.tickAndCheck e.now).1 && a.mode.actuating then .safe else a.mode
      | _ => a.mode := by
  obtain ⟨now, event⟩ := e
  cases event with
  | heartbeat => rfl
  | cmdDrive payload =>
    cases payload with
    | none => rfl
    | some t =>
      simp only [step]
      split <;> rfl
  | setMode payload =>
    cases payload with
    | none => rfl
    | some raw => simp only [step, mode, settle_machine]
  | estop => simp only [step, mode, settle_machine, a.machine.requestEstop_spec.2.2]
  | recover =>
    change (settle hasDrive _ _ a).machine.mode = _
    rw [settle_machine, a.machine.requestRecover_spec.2.2]
    rfl
  | servo c => rfl
  | servoSync goals => rfl
  | servoRead servoId => rfl
  | loop motion => simp only [step, mode_checkDrive, mode_checkHeartbeat]

theorem setModeRequest_of_estop {m : ModeMachine} (h : m.mode = .estop) (raw : Int) :
    (setModeRequest m raw).machine.mode = .estop ∧ (setModeRequest m raw).change = none := by
  unfold setModeRequest
  split
  · obtain ⟨hchange, -, hmode⟩ := m.requestEstop_spec
    rw [hchange, hmode, h]
    exact ⟨rfl, ModeMachine.changeOf_self _⟩
  obtain ⟨hchange, -, hmode | ⟨hne, -⟩⟩ := m.requestSetMode_spec (CoreState.fromProto raw)
  · rw [hchange, hmode, h]
    exact ⟨rfl, ModeMachine.changeOf_self _⟩
  · exact absurd h hne

variable {a : Supervisor}

theorem estop_step (h : a.mode = .estop) {e : Stamped μ} (he : e.event ≠ .recover) :
    (a.step hasDrive e).mode = .estop := by
  rw [mode_step]
  obtain ⟨now, event⟩ := e
  cases event with
  | recover => exact absurd rfl he
  | setMode payload =>
    cases payload with
    | none => exact h
    | some raw => exact (setModeRequest_of_estop h raw).1
  | estop => rfl
  | loop motion => simp [h, Mode.actuating]
  | _ => exact h

theorem actuating_step (h : a.mode = .safe) {e : Stamped μ}
    (hact : (a.step hasDrive e).mode.actuating = true) :
    ∃ raw, e.event = .setMode (some raw) ∧ a.machine.heartbeatOk = true := by
  rw [mode_step] at hact
  obtain ⟨now, event⟩ := e
  have hidle : a.mode.actuating = false := by rw [h]; rfl
  cases event with
  | setMode payload =>
    cases payload with
    | none => simp [hidle] at hact
    | some raw =>
      refine ⟨raw, rfl, ?_⟩
      simp only [setModeRequest] at hact
      split at hact
      · rw [a.machine.requestEstop_spec.2.2] at hact
        exact absurd hact (by decide)
      obtain ⟨-, -, hmode | ⟨-, hmode, himp⟩⟩ := a.machine.requestSetMode_spec (CoreState.fromProto raw)
      · rw [hmode, show a.machine.mode = .safe from h] at hact
        exact absurd hact (by decide)
      · rw [hmode] at hact
        exact himp hact
  | estop => simp [Mode.actuating] at hact
  | recover => simp [h, Mode.actuating] at hact
  | loop motion => simp [hidle] at hact
  | _ => simp [hidle] at hact

end Supervisor

variable {drv : Sts3215Driver}

theorem Sts3215Driver.uses_readState {w : Wire σ} (id : JointId) :
    Uses w Frame.Reads (drv.readState w id) := by
  unfold Sts3215Driver.readState
  cases drv.info id with
  | none => exact uses_pure _
  | some i => exact uses_bind (Bus.uses_readState rfl) fun _ => uses_pure _

theorem DriveController.uses_tick_of_disarmed {w : Wire σ} {c : DriveController}
    (h : c.armed = false) (k : Kinematics) (j : WheelJoints) : Uses w Frame.Reads (c.tick w drv k j) := by
  unfold DriveController.tick DriveController.measure
  refine uses_bind ?_ fun m => ?_
  · refine uses_bind (Sts3215Driver.uses_readState _) fun _ => ?_
    refine uses_bind (Sts3215Driver.uses_readState _) fun _ => ?_
    refine uses_bind (Sts3215Driver.uses_readState _) fun _ => ?_
    exact uses_bind (Sts3215Driver.uses_readState _) fun _ => uses_pure _
  · simp only [h, Bool.false_eq_true, ↓reduceIte]
    exact uses_pure _

namespace CoreState

variable {cfg : Config} {w : World σ μ}

theorem acts_control_of_disarmed {s : CoreState σ} (h : s.drive.armed = false) (motion : μ) (now : TimePoint) :
    Acts w Frame.Reads s.bus (control cfg w motion now s).bus := by
  unfold control
  split
  · exact .refl _
  have hmove : Acts w Frame.Reads s.bus { s.bus with wire := w.move motion s.bus.wire } :=
    Relation.ReflTransGen.single (.move motion s.bus)
  cases cfg.drive with
  | none => exact hmove
  | some d => exact hmove.trans (acts_of_uses (DriveController.uses_tick_of_disarmed h d.kin d.wheels) _)

theorem bus_checkHeartbeat_of_estop {s : CoreState σ} (h : s.mode = .estop) (now : TimePoint) :
    (checkHeartbeat cfg w now s).bus = s.bus := by
  cases hfired : (s.wd.tickAndCheck now).1 with
  | false => rw [checkHeartbeat_of_quiet hfired]
  | true =>
    obtain ⟨hchange, -, hmode⟩ := s.machine.onHeartbeatLost_spec
    have hm : s.machine.mode = .estop := h
    rw [hmode, hm] at hchange
    simp only [checkHeartbeat, hfired, ↓reduceIte, bus_clearTarget, hchange]
    rfl

/-- In Estop only a read request can make core write. -/
theorem acts_step_of_estop {s : CoreState σ} (hlinked : Supervisor.Linked cfg.drive.isSome s.supervisor)
    (hmode : s.mode = .estop) {e : Stamped μ} (hrecover : e.event ≠ .recover)
    (hread : ∀ servoId, e.event ≠ .servoRead servoId) : Acts w Frame.Reads s.bus (step cfg w s e).bus := by
  obtain ⟨now, event⟩ := e
  cases event with
  | heartbeat => exact .refl _
  | cmdDrive payload =>
    have hidle : s.mode.actuating = false := by rw [hmode]; rfl
    simp only [step, onCmdDrive, hidle, or_true, ↓reduceIte]
    exact .refl _
  | setMode payload =>
    cases payload with
    | none => exact .refl _
    | some raw =>
      change Acts w Frame.Reads s.bus (commit cfg w _ (Supervisor.setModeRequest s.machine raw).change s).bus
      rw [(Supervisor.setModeRequest_of_estop hmode raw).2]
      exact .refl _
  | estop =>
    obtain ⟨hchange, -, hestop⟩ := s.machine.requestEstop_spec
    have hm : s.machine.mode = .estop := hmode
    rw [hestop, hm, ModeMachine.changeOf_self] at hchange
    simp only [step, onEstop, hchange]
    exact .refl _
  | recover => exact absurd rfl hrecover
  | servo c =>
    simp only [step, onServo, hmode, decide_true, ServoControlServer.handleControl_estopped]
    exact .refl _
  | servoSync goals =>
    simp only [step, onServoSync, hmode, decide_true, ServoControlServer.handleSync_estopped]
    exact .refl _
  | servoRead servoId => exact absurd rfl (hread servoId)
  | loop motion =>
    set checked := checkDrive cfg now (checkHeartbeat cfg w now s) with hchecked
    have hsupervisor : checked.supervisor = s.supervisor.step cfg.drive.isSome ⟨now, .loop motion⟩ := by
      rw [hchecked, supervisor_checkDrive, supervisor_checkHeartbeat]
      rfl
    have hdisarmed : checked.drive.armed = false := by
      have harmed := (Supervisor.linked_step hlinked ⟨now, .loop motion⟩).armed
      rw [Supervisor.estop_step (a := s.supervisor) hmode (by simp), ← hsupervisor] at harmed
      simpa [Mode.actuating] using harmed
    have hbus : checked.bus = s.bus := by
      rw [hchecked, bus_checkDrive, bus_checkHeartbeat_of_estop hmode]
    have hcontrol : Acts w Frame.Reads checked.bus (control cfg w motion now checked).bus :=
      acts_control_of_disarmed hdisarmed motion now
    rw [hbus] at hcontrol
    exact hcontrol.trans (acts_telemetry now _)

theorem write_of_estop {s : CoreState σ} (hlinked : Supervisor.Linked cfg.drive.isSome s.supervisor)
    (hmode : s.mode = .estop) {e : Stamped μ} (hrecover : e.event ≠ .recover) {f : Frame}
    (hf : f ∈ sent cfg w s e) (hwrite : f.isWrite = true) :
    ∃ servoId, e.event = .servoRead servoId ∧ f = buildSetTorqueEnable servoId.toUInt8 false ∧
      ((ServoControlServer.handleRead w.toWire servoId s.servoCtl).run s.bus).1.overcurrentTripped = true := by
  by_cases hread : ∃ servoId, e.event = .servoRead servoId
  · obtain ⟨servoId, hread⟩ := hread
    obtain ⟨now, event⟩ := e
    obtain rfl : event = .servoRead servoId := hread
    obtain ⟨fs, hlog, hfs⟩ := ServoControlServer.handleRead_frames (w := w.toWire) servoId s.servoCtl s.bus
    have hsent : sent cfg w s ⟨now, .servoRead servoId⟩ = fs := sent_eq_of_log hlog
    rw [hsent] at hf
    exact ⟨servoId, rfl, hfs f hf hwrite⟩
  · have hacts := acts_step_of_estop (w := w) hlinked hmode hrecover fun servoId h => hread ⟨servoId, h⟩
    have hreads : f.Reads := sent_of_grows (grows_of_acts hacts) f hf
    rw [Frame.Reads, hwrite] at hreads
    exact absurd hreads.symm Bool.false_ne_true

theorem linked_step {s : CoreState σ} (h : Supervisor.Linked cfg.drive.isSome s.supervisor) (e : Stamped μ) :
    Supervisor.Linked cfg.drive.isSome (step cfg w s e).supervisor := by
  rw [supervisor_step]
  exact Supervisor.linked_step h e

theorem estop_run {s : CoreState σ} (hlinked : Supervisor.Linked cfg.drive.isSome s.supervisor)
    (hmode : s.mode = .estop) {es : List (Stamped μ)} (hes : ∀ e ∈ es, e.event ≠ .recover) :
    Supervisor.Linked cfg.drive.isSome (run cfg w s es).supervisor ∧ (run cfg w s es).mode = .estop := by
  induction es generalizing s with
  | nil => exact ⟨hlinked, hmode⟩
  | cons e es ih =>
    refine ih (linked_step hlinked e) ?_ fun x hx => hes x (List.mem_cons_of_mem _ hx)
    rw [← supervisor_mode, supervisor_step]
    exact Supervisor.estop_step (a := s.supervisor) hmode (hes e List.mem_cons_self)

/-- From any point of a run in Estop: the mode stays until a recover, nothing is written but the torque-off of a trip, a
recover leads to Safe, and Safe is left for an actuating mode by `rpc.set_mode` under a live heartbeat only. -/
theorem estop_sticky_and_quiet (cfg : Config) (w : World σ μ) (wire : σ) (auxRot : AuxRotation) (start : TimePoint)
    (es : List (Stamped μ)) (s : CoreState σ) (hs : s = run cfg w (entry wire auxRot start) es) :
    (s.mode = .estop → ∀ later : List (Stamped μ), (∀ e ∈ later, e.event ≠ .recover) →
      (run cfg w s later).mode = .estop ∧
      ∀ e : Stamped μ, e.event ≠ .recover → ∀ f ∈ sent cfg w (run cfg w s later) e, f.isWrite = true →
        ∃ servoId, e.event = .servoRead servoId ∧ f = buildSetTorqueEnable servoId.toUInt8 false ∧
          ((ServoControlServer.handleRead w.toWire servoId (run cfg w s later).servoCtl).run
            (run cfg w s later).bus).1.overcurrentTripped = true) ∧
    (∀ now, (step cfg w s ⟨now, .recover⟩).mode = if s.mode = .estop then .safe else s.mode) ∧
    (s.mode = .safe → ∀ e : Stamped μ, (step cfg w s e).mode.actuating = true →
      ∃ raw, e.event = .setMode (some raw) ∧ s.machine.heartbeatOk = true) := by
  have hlinked : Supervisor.Linked cfg.drive.isSome s.supervisor := by
    rw [hs, supervisor_run]
    exact Supervisor.linked_run es (Supervisor.linked_entry _)
  refine ⟨fun hmode later hlater => ?_, fun now => ?_, fun hmode e hact => ?_⟩
  · obtain ⟨hlinked', hmode'⟩ := estop_run (w := w) hlinked hmode hlater
    exact ⟨hmode', fun e he f hf hwrite => write_of_estop hlinked' hmode' he hf hwrite⟩
  · rw [← supervisor_mode, supervisor_step, Supervisor.mode_step]
    rfl
  · rw [← supervisor_mode, supervisor_step] at hact
    exact Supervisor.actuating_step (a := s.supervisor) hmode hact

theorem estop_sticky_and_quiet_rover :
    ∃ cfg, Config.ofDocument Descriptor.waypointRover = some cfg ∧
      ∃ s : CoreState Unit, s = run cfg World.silent (entry () { ids := [], maxFailures := 3 } 0) [⟨0, .estop⟩] ∧
        s.mode = .estop ∧
        (run cfg World.silent s
          [⟨0, .heartbeat⟩, ⟨0, .setMode (some 1)⟩, ⟨milliseconds 600, .loop ()⟩]).mode = .estop := by
  have hcfg : (Config.ofDocument Descriptor.waypointRover).isSome = true := by decide +kernel
  obtain ⟨cfg, hcfg⟩ := Option.isSome_iff_exists.mp hcfg
  have hmode : (run cfg World.silent (entry () { ids := [], maxFailures := 3 } 0) [⟨0, .estop⟩]).mode = .estop := by
    rw [← supervisor_mode, supervisor_run]
    cases cfg.drive.isSome <;> rfl
  refine ⟨cfg, hcfg, _, rfl, hmode, ?_⟩
  exact ((estop_sticky_and_quiet cfg World.silent () _ 0 _ _ rfl).1 hmode _ (by simp)).1

end CoreState

end Waypoint.Core
