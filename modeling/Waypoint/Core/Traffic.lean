import Waypoint.Core.Supervisor

/-!
# Bus traffic

What the parts of core put on the bus.
-/

namespace Waypoint.Core

open Base Bus

variable {σ μ : Type}

/-- One frame of `P`, or one move of the world behind the bus. -/
inductive Act (w : World σ μ) (P : Frame → Prop) : Bus σ → Bus σ → Prop
  | exchange {f : Frame} (hf : P f) (b : Bus σ) : Act w P b ((Bus.exchange w.toWire f).run b).2
  | sendNoReply {f : Frame} (hf : P f) (b : Bus σ) : Act w P b ((Bus.sendNoReply w.toWire f).run b).2
  | move (motion : μ) (b : Bus σ) : Act w P b { b with wire := w.move motion b.wire }

def Acts (w : World σ μ) (P : Frame → Prop) : Bus σ → Bus σ → Prop := Relation.ReflTransGen (Act w P)

section Acts

variable {w : World σ μ} {P Q : Frame → Prop} {a b c : Bus σ}

theorem Acts.refl (b : Bus σ) : Acts w P b b := Relation.ReflTransGen.refl

theorem Acts.trans (hab : Acts w P a b) (hbc : Acts w P b c) : Acts w P a c := Relation.ReflTransGen.trans hab hbc

theorem Acts.mono (h : Acts w P a b) (hPQ : ∀ f, P f → Q f) : Acts w Q a b := by
  refine Relation.ReflTransGen.mono (fun x y hxy => ?_) a b h
  cases hxy with
  | exchange hf => exact .exchange (hPQ _ hf) x
  | sendNoReply hf => exact .sendNoReply (hPQ _ hf) x
  | move motion => exact .move motion x

theorem acts_of_uses {α : Type} {p : StateM (Bus σ) α} (h : Uses w.toWire P p) (b : Bus σ) :
    Acts w P b (p.run b).2 :=
  h (Relation.ReflTransGen (Act w P)) (fun _ hf b => .single (.exchange hf b))
    (fun _ hf b => .single (.sendNoReply hf b)) b

theorem grows_of_acts (h : Acts w P a b) : Grows P a b := by
  induction h with
  | refl => exact refl_of (Grows P) a
  | tail _ hact ih =>
    refine trans_of (Grows P) ih ?_
    cases hact with
    | exchange hf => exact ⟨_, rfl, by simpa using hf⟩
    | sendNoReply hf => exact ⟨_, rfl, by simpa using hf⟩
    | move motion => exact ⟨[], by simp, by simp⟩

end Acts

def Frame.Reads (f : Frame) : Prop := f.isWrite = false

def Frame.Halts (f : Frame) : Prop := f.nonzeroSpeed = false

theorem Frame.Reads.halts {f : Frame} (h : f.Reads) : f.Halts := by
  cases hspeed : f.nonzeroSpeed with
  | false => exact hspeed
  | true =>
    rw [Frame.Reads, Frame.isWrite_of_nonzeroSpeed hspeed] at h
    exact absurd h.symm Bool.false_ne_true

namespace Sts3215Driver

variable {w : Wire σ} {drv : Sts3215Driver}

theorem uses_setTorqueEnable (id : JointId) (on : Bool) : Uses w Frame.Halts (setTorqueEnable w id on) := by
  unfold setTorqueEnable
  split
  · exact uses_enableTorqueHoldingPosition rfl rfl (fun _ => rfl) rfl
  · exact uses_command rfl

variable {P : Frame → Prop}

theorem uses_writeCommand {c : JointId × JointCommand} (h : ∀ f ∈ drv.commandFrames c, P f) :
    Uses w P (drv.writeCommand w c) := by
  unfold writeCommand
  unfold commandFrames at h
  cases hinfo : drv.info c.1 with
  | none => exact uses_pure _
  | some i =>
    simp only [hinfo, List.mem_append, Option.mem_toList, Option.map_eq_some_iff] at h
    have hspeed : ∀ v, c.2.velocityRadps = some v → P (buildSetGoalSpeed c.1 (rawFromRadps (i.sign * v))) :=
      fun v hv => h _ (Or.inl ⟨v, hv, rfl⟩)
    cases hp : c.2.positionRad with
    | none =>
      cases hv : c.2.velocityRadps with
      | none => exact uses_pure _
      | some v => exact uses_bind (uses_command (hspeed v hv)) fun _ => uses_pure _
    | some p =>
      have hposition : P (buildSetGoalPosition c.1 (ticksFromRad p)) := h _ (Or.inr ⟨p, hp, rfl⟩)
      cases hv : c.2.velocityRadps with
      | none => exact uses_bind (uses_command hposition) fun _ => uses_pure _
      | some v =>
        exact uses_bind (uses_command (hspeed v hv)) fun _ =>
          uses_bind (uses_command hposition) fun _ => uses_pure _

theorem uses_writeCommands {cmds : List (JointId × JointCommand)}
    (h : ∀ c ∈ cmds, ∀ f ∈ drv.commandFrames c, P f) : Uses w P (drv.writeCommands w cmds) :=
  uses_forM cmds fun c hc => uses_writeCommand (h c hc)

theorem commandFrames_velocity (id : JointId) (v : Rat) :
    drv.commandFrames (id, { velocityRadps := some v }) =
      ((drv.info id).map fun i => buildSetGoalSpeed id (rawFromRadps (i.sign * v))).toList := by
  unfold commandFrames
  cases drv.info id <;> rfl

theorem commandFrames_zero {id : JointId} {f : Frame}
    (hf : f ∈ drv.commandFrames (id, { velocityRadps := some 0 })) : f = buildSetGoalSpeed id 0 := by
  simp only [commandFrames_velocity, Option.mem_toList, Option.map_eq_some_iff] at hf
  obtain ⟨i, -, rfl⟩ := hf
  rw [mul_zero, rawFromRadps_zero]

end Sts3215Driver

theorem WheelJoints.mem_velocityCommands {j : WheelJoints} {v : WheelVel} {c : JointId × JointCommand}
    (h : c ∈ j.velocityCommands v) : ∃ x, c = (c.1, { velocityRadps := some x }) ∧
      (x = v.frontLeft ∨ x = v.frontRight ∨ x = v.backLeft ∨ x = v.backRight) := by
  simp only [velocityCommands, List.mem_cons, List.not_mem_nil, or_false] at h
  rcases h with rfl | rfl | rfl | rfl
  · exact ⟨_, rfl, by simp⟩
  · exact ⟨_, rfl, by simp⟩
  · exact ⟨_, rfl, by simp⟩
  · exact ⟨_, rfl, by simp⟩

namespace DriveController

theorem mem_tickWrites {drv : Sts3215Driver} {k : Kinematics} {j : WheelJoints} {c : DriveController} {f : Frame}
    (hf : f ∈ tickWrites drv k j c) :
    c.armed = true ∧ f.isWrite = true ∧ (f.nonzeroSpeed = true → c.target ≠ {}) := by
  unfold tickWrites at hf
  split at hf
  · rename_i harmed
    obtain ⟨cmd, hcmd, hf⟩ := List.mem_flatMap.mp hf
    obtain ⟨x, hx, hspeed⟩ := WheelJoints.mem_velocityCommands hcmd
    rw [hx, Sts3215Driver.commandFrames_velocity, Option.mem_toList, Option.map_eq_some_iff] at hf
    obtain ⟨i, -, rfl⟩ := hf
    refine ⟨harmed, rfl, fun hnonzero htarget => ?_⟩
    have hzero : x = 0 := by
      rw [htarget, Kinematics.bodyToWheels_zero] at hspeed
      simpa using hspeed
    rw [hzero, mul_zero, rawFromRadps_zero, nonzeroSpeed_goalSpeed_zero] at hnonzero
    exact absurd hnonzero Bool.false_ne_true
  · simp at hf

end DriveController

namespace CoreState

variable {cfg : Config} {w : World σ μ}

theorem uses_armDriveBus (wheels : WheelJoints) (on : Bool) :
    Uses w.toWire Frame.Halts (armDriveBus cfg w wheels on) := by
  have htorque : Uses w.toWire Frame.Halts (forM wheels.toList fun id => do
      let _ ← Sts3215Driver.setTorqueEnable w.toWire id on
      pure PUnit.unit) :=
    uses_forM _ fun id _ => uses_bind (Sts3215Driver.uses_setTorqueEnable id on) fun _ => uses_pure _
  unfold armDriveBus
  cases on with
  | true => exact htorque
  | false =>
    refine uses_bind (Sts3215Driver.uses_writeCommands fun c hc f hf => ?_) fun _ => htorque
    obtain ⟨x, hx, hzero⟩ := WheelJoints.mem_velocityCommands hc
    rw [hx, show x = 0 by simpa using hzero] at hf
    rw [Sts3215Driver.commandFrames_zero hf]
    exact nonzeroSpeed_goalSpeed_zero _

theorem uses_stopModuleWheels : Uses w.toWire Frame.Halts (stopModuleWheels cfg w) := by
  refine uses_forM _ fun id _ => uses_bind (Sts3215Driver.uses_writeCommands fun c hc f hf => ?_) fun _ =>
    uses_bind (Sts3215Driver.uses_setTorqueEnable id false) fun _ => uses_pure _
  rw [List.mem_singleton.mp hc] at hf
  rw [Sts3215Driver.commandFrames_zero hf]
  exact nonzeroSpeed_goalSpeed_zero _

@[simp] theorem bus_clearTarget (s : CoreState σ) : (clearTarget cfg s).bus = s.bus := by
  unfold clearTarget
  split <;> rfl

theorem acts_armDrive (on : Bool) (s : CoreState σ) : Acts w Frame.Halts s.bus (armDrive cfg w on s).bus := by
  unfold armDrive
  cases cfg.drive with
  | none => exact .refl _
  | some d => exact acts_of_uses (uses_armDriveBus d.wheels on) s.bus

theorem acts_commit (m : ModeMachine) (change : Option Change) (s : CoreState σ) :
    Acts w Frame.Halts s.bus (commit cfg w m change s).bus := by
  unfold commit
  cases change with
  | none => exact .refl _
  | some c =>
    let cleared := clearTarget cfg { s with machine := m }
    have harm : Acts w Frame.Halts cleared.bus (armDrive cfg w c.now.actuating cleared).bus := acts_armDrive _ _
    rw [bus_clearTarget] at harm
    simp only [onChange]
    split
    · exact harm.trans (acts_of_uses uses_stopModuleWheels _)
    · exact harm

variable {now : TimePoint}

theorem checkHeartbeat_of_quiet {s : CoreState σ} (h : (s.wd.tickAndCheck now).1 = false) :
    checkHeartbeat cfg w now s = s := by
  simp only [checkHeartbeat, h, Bool.false_eq_true, ↓reduceIte, Watchdog.tickAndCheck_of_not_fired h]

theorem acts_checkHeartbeat (now : TimePoint) (s : CoreState σ) :
    Acts w Frame.Halts s.bus (checkHeartbeat cfg w now s).bus := by
  cases hfired : (s.wd.tickAndCheck now).1 with
  | false =>
    rw [checkHeartbeat_of_quiet hfired]
    exact .refl _
  | true =>
    simp only [checkHeartbeat, hfired, ↓reduceIte, bus_clearTarget]
    exact acts_commit _ _ { s with wd := (s.wd.tickAndCheck now).2 }

theorem checkDrive_of_quiet {s : CoreState σ} (h : (s.driveSafety.tickAndCheck now).1 = false) :
    checkDrive cfg now s = s := by
  unfold checkDrive
  cases cfg.drive with
  | none => rfl
  | some d => simp only [h, Bool.false_eq_true, ↓reduceIte, Watchdog.tickAndCheck_of_not_fired h]

@[simp] theorem bus_checkDrive (now : TimePoint) (s : CoreState σ) : (checkDrive cfg now s).bus = s.bus := by
  unfold checkDrive
  cases cfg.drive with
  | none => rfl
  | some d =>
    dsimp only
    split <;> rfl

theorem reads_wheelRead {drv : Sts3215Driver} {id : JointId} {f : Frame}
    (hf : f ∈ DriveController.wheelRead drv id) : f.Reads := by
  unfold DriveController.wheelRead at hf
  split at hf
  · rw [List.mem_singleton.mp hf]
    rfl
  · simp at hf

theorem log_control {d : DriveSetup} (hdrive : cfg.drive = some d) (motion : μ) (now : TimePoint)
    (s : CoreState σ) :
    (control cfg w motion now s).bus.log =
      if now < s.next50 then s.bus.log
      else s.bus.log ++ (d.wheels.toList.flatMap (DriveController.wheelRead cfg.jointDrv) ++
        DriveController.tickWrites cfg.jointDrv d.kin d.wheels s.drive) := by
  unfold control
  split
  · rfl
  · simp only [hdrive]
    exact DriveController.sends_tick d.kin d.wheels s.drive _

theorem uses_readAux (ids : List JointId) (aux : AuxRotation) : Uses w.toWire Frame.Reads (readAux w ids aux) := by
  induction ids generalizing aux with
  | nil => exact uses_pure _
  | cons id ids ih => exact uses_bind (uses_readState rfl) fun state => ih _

theorem acts_telemetry (now : TimePoint) (s : CoreState σ) :
    Acts w Frame.Reads s.bus (telemetry cfg w now s).bus := by
  unfold telemetry
  split
  · exact .refl _
  · refine (acts_of_uses (uses_forM _ fun id _ => ?_) s.bus).trans (acts_of_uses (uses_readAux _ _) _)
    exact uses_bind (uses_readState rfl) fun _ => uses_pure _

variable (cfg w)

def sent (s : CoreState σ) (e : Stamped μ) : List Frame := (step cfg w s e).bus.log.drop s.bus.log.length

variable {cfg w}

theorem sent_eq_of_log {s : CoreState σ} {e : Stamped μ} {fs : List Frame}
    (h : (step cfg w s e).bus.log = s.bus.log ++ fs) : sent cfg w s e = fs := by
  rw [sent, h, List.drop_left]

theorem sent_of_grows {P : Frame → Prop} {s : CoreState σ} {e : Stamped μ}
    (h : Grows P s.bus (step cfg w s e).bus) : ∀ f ∈ sent cfg w s e, P f := by
  obtain ⟨fs, hlog, hP⟩ := h
  rw [sent_eq_of_log hlog]
  exact hP

end CoreState

end Waypoint.Core
