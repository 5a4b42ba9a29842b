import Mathlib.Algebra.Order.Field.Rat
import Waypoint.Core.Descriptor
import Waypoint.Core.Servo.Bus

/-!
# The drive chain

`control/DiffDriveKinematics.cpp`, `joint/Sts3215Driver.cpp` and `control/DriveController.cpp`: from a body twist to wheel speeds, from a wheel speed in rad/s to the signed raw word of the bus, and the controller that connects them once per tick.
-/

namespace Waypoint.Core

open Base Bus

@[ext] structure BodyVel where
  vx : Rat := 0
  omegaZ : Rat := 0
  deriving DecidableEq

structure WheelVel where
  frontLeft : Rat := 0
  frontRight : Rat := 0
  backLeft : Rat := 0
  backRight : Rat := 0

structure Kinematics where
  wheelRadius : Rat
  trackWidth : Rat

def Kinematics.bodyToWheels (k : Kinematics) (b : BodyVel) : WheelVel :=
  let vL := b.vx - b.omegaZ * k.trackWidth / 2
  let vR := b.vx + b.omegaZ * k.trackWidth / 2
  let wL := vL / k.wheelRadius
  let wR := vR / k.wheelRadius
  { frontLeft := wL, frontRight := wR, backLeft := wL, backRight := wR }

@[simp] theorem Kinematics.bodyToWheels_zero (k : Kinematics) : k.bodyToWheels {} = {} := by
  simp [Kinematics.bodyToWheels]

def twoPi : Rat := 2 * 3.14159265358979

def stepsPerRev : Rat := 4096

/-- The conversion of a double to an integer type: towards zero. -/
def truncate (q : Rat) : Int := q.num.tdiv q.den

def rawFromRadps (radps : Rat) : Int :=
  let v := radps / (twoPi / stepsPerRev)
  let v := if v > 32767 then 32767 else v
  let v := if v < -32767 then -32767 else v
  truncate v

def radpsFromRaw (raw : Int) : Rat := raw * (twoPi / stepsPerRev)

def ticksFromRad (rad : Rat) : UInt16 :=
  let v := rad / (twoPi / stepsPerRev)
  let v := if v < 0 then 0 else v
  let v := if v > 4095 then 4095 else v
  UInt16.ofNat (truncate v).toNat

@[simp] theorem rawFromRadps_zero : rawFromRadps 0 = 0 := by
  simp only [rawFromRadps, zero_div]
  decide

structure JointCommand where
  velocityRadps : Option Rat := none
  positionRad : Option Rat := none
  deriving DecidableEq

structure JointState where
  positionRad : Rat
  velocityRadps : Rat
  load : Rat
  currentA : Rat
  voltageV : Rat
  temperatureC : Rat

structure JointInfo where
  invert : Bool := false
  isWheel : Bool := false

def JointInfo.sign (i : JointInfo) : Rat := if i.invert then -1 else 1

structure Sts3215Driver where
  byName : String → Option JointId
  info : JointId → Option JointInfo

namespace Sts3215Driver

def empty : Sts3215Driver := ⟨fun _ => none, fun _ => none⟩

/-- Later joints overwrite earlier entries of the same name or id. -/
def addJoint (drv : Sts3215Driver) (j : Joint) : Sts3215Driver where
  byName name := if name = j.name then some j.busId else drv.byName name
  info id := if id = j.busId then some { invert := j.invert, isWheel := j.type = "wheel" } else drv.info id

def ofDescriptor (d : Descriptor) (driverName : String) : Sts3215Driver :=
  (d.joints.filter fun j => j.driver = driverName).foldl addJoint empty

def idForName (drv : Sts3215Driver) (name : String) : Option JointId := drv.byName name

/-- Every name leads to a known id with the property. -/
def FromJoints (P : JointId → Prop) (drv : Sts3215Driver) : Prop :=
  ∀ name id, drv.byName name = some id → (drv.info id).isSome = true ∧ P id

variable {P : JointId → Prop} {d : Descriptor}

theorem fromJoints_addJoint {drv : Sts3215Driver} (h : drv.FromJoints P) {j : Joint} (hj : P j.busId) :
    (drv.addJoint j).FromJoints P := by
  intro name id hid
  unfold addJoint at hid ⊢
  dsimp only at hid ⊢
  split at hid
  · cases hid
    simp [hj]
  obtain ⟨hinfo, hP⟩ := h name id hid
  refine ⟨?_, hP⟩
  split
  · rfl
  · exact hinfo

theorem fromJoints_ofDescriptor (h : ∀ j ∈ d.joints, P j.busId) (driverName : String) :
    (ofDescriptor d driverName).FromJoints P := by
  unfold ofDescriptor
  have hfold : ∀ (js : List Joint) (drv : Sts3215Driver), (∀ j ∈ js, P j.busId) → drv.FromJoints P →
      (js.foldl addJoint drv).FromJoints P := by
    intro js
    induction js with
    | nil => exact fun _ _ hdrv => hdrv
    | cons j js ih =>
      intro drv hjs hdrv
      exact ih _ (fun k hk => hjs k (List.mem_cons_of_mem _ hk))
        (fromJoints_addJoint hdrv (hjs j List.mem_cons_self))
  refine hfold _ _ (fun j hj => h j (List.mem_of_mem_filter hj)) ?_
  intro name id hid
  cases hid

theorem joint_of_byName {driverName name : String} {id : JointId}
    (h : (ofDescriptor d driverName).byName name = some id) :
    ∃ j ∈ d.joints, j.driver = driverName ∧ j.name = name ∧ j.busId = id := by
  have hfold : ∀ (js : List Joint) (drv : Sts3215Driver), (js.foldl addJoint drv).byName name = some id →
      drv.byName name = some id ∨ ∃ j ∈ js, j.name = name ∧ j.busId = id := by
    intro js
    induction js with
    | nil => exact fun _ hid => .inl hid
    | cons j js ih =>
      intro drv hid
      rcases ih _ hid with hid | ⟨k, hk, hkid⟩
      · change (if name = j.name then some j.busId else drv.byName name) = some id at hid
        by_cases hname : name = j.name
        · rw [if_pos hname] at hid
          exact .inr ⟨j, List.mem_cons_self, hname.symm, Option.some_inj.mp hid⟩
        · rw [if_neg hname] at hid
          exact .inl hid
      · exact .inr ⟨k, List.mem_cons_of_mem _ hk, hkid⟩
  rcases hfold _ _ h with hid | ⟨j, hj, hjid⟩
  · cases hid
  · obtain ⟨hmem, hdriver⟩ := List.mem_filter.mp hj
    exact ⟨j, hmem, by simpa using hdriver, hjid⟩

variable {σ : Type} (w : Wire σ) (drv : Sts3215Driver)

def setTorqueEnable (id : JointId) (on : Bool) : StateM (Bus σ) Int :=
  if on then enableTorqueHoldingPosition w id else Bus.setTorqueEnable w id false

def desiredMode (i : JointInfo) : UInt8 := if i.isWheel then 1 else 0

/-- The mode lives in EEPROM: it is read first and rewritten only on disagreement, whatever the exchanges around it return. -/
def ensureMode (id : JointId) : StateM (Bus σ) Bool :=
  match drv.info id with
  | none => return false
  | some i => do
      let cur ← readOperatingMode w id
      if cur = some (desiredMode i) then return true
      else
        let _ ← Bus.setTorqueEnable w id false
        let _ ← setEEPROMLock w id false
        let e ← setOperatingMode w id (desiredMode i)
        let _ ← setEEPROMLock w id true
        return e = 0

def ensureModes : List JointId → StateM (Bus σ) Nat
  | [] => return 0
  | id :: ids => do
      let ok ← ensureMode w drv id
      let rest ← ensureModes ids
      return (if ok then 1 else 0) + rest

variable (c : JointId × JointCommand)

/-- One command of a batch. A joint this driver does not own is skipped. -/
def writeCommand : StateM (Bus σ) PUnit :=
  match drv.info c.1 with
  | none => pure ⟨⟩
  | some i => do
      match c.2.velocityRadps with
      | some v =>
        let _ ← setGoalSpeed w c.1 (rawFromRadps (i.sign * v))
        pure ()
      | none => pure ()
      match c.2.positionRad with
      | some p =>
        let _ ← setGoalPosition w c.1 (ticksFromRad p)
        pure ⟨⟩
      | none => pure ⟨⟩

def writeCommands (cmds : List (JointId × JointCommand)) : StateM (Bus σ) PUnit :=
  forM cmds (writeCommand w drv)

def readState (id : JointId) : StateM (Bus σ) (Option JointState) :=
  match drv.info id with
  | none => pure none
  | some i => do
      let s ← Bus.readState w id
      return s.map fun s => {
        positionRad := s.positionRaw.toNat * (twoPi / stepsPerRev)
        velocityRadps := i.sign * radpsFromRaw s.speedRaw
        load := s.loadRaw
        currentA := s.currentRaw.toNat * 0.0065
        voltageV := s.voltageDeci.toNat * 0.1
        temperatureC := s.temperatureC.toNat }

/-! The frames of a batch of commands do not depend on what the bus answers. -/

def commandFrames : List Frame :=
  match drv.info c.1 with
  | none => []
  | some i =>
    ((c.2.velocityRadps.map fun v => buildSetGoalSpeed c.1 (rawFromRadps (i.sign * v))).toList) ++
      (c.2.positionRad.map fun p => buildSetGoalPosition c.1 (ticksFromRad p)).toList

variable {w drv}

theorem sends_writeCommand :
    Sends (drv.commandFrames c) (drv.writeCommand w c) := by
  unfold writeCommand commandFrames
  cases drv.info c.1 with
  | none => exact sends_pure _
  | some i =>
    have hsecond : Sends ((c.2.positionRad.map fun p => buildSetGoalPosition c.1 (ticksFromRad p)).toList)
        (match c.2.positionRad with
          | some p => do
              let _ ← setGoalPosition w c.1 (ticksFromRad p)
              pure PUnit.unit
          | none => pure PUnit.unit) := by
      cases c.2.positionRad with
      | none => exact sends_pure _
      | some p => exact sends_bind (sends_command _) fun _ => sends_pure _
    cases c.2.velocityRadps with
    | none => exact hsecond
    | some v => exact sends_bind (sends_command _) fun _ => hsecond

theorem sends_writeCommands (cmds : List (JointId × JointCommand)) :
    Sends (cmds.flatMap drv.commandFrames) (drv.writeCommands w cmds) :=
  sends_forM cmds fun c _ => sends_writeCommand c

theorem sends_readState (id : JointId) :
    Sends (if (drv.info id).isSome then [buildReadStateBlock id] else []) (drv.readState w id) := by
  unfold readState
  cases drv.info id with
  | none => exact sends_pure _
  | some i => exact sends_bind (Bus.sends_readState id) fun _ => sends_pure _

end Sts3215Driver

structure WheelJoints where
  frontLeft : JointId
  frontRight : JointId
  backLeft : JointId
  backRight : JointId

def WheelJoints.toList (j : WheelJoints) : List JointId := [j.frontLeft, j.frontRight, j.backLeft, j.backRight]

def WheelJoints.velocityCommands (j : WheelJoints) (v : WheelVel) : List (JointId × JointCommand) :=
  [(j.frontLeft, { velocityRadps := some v.frontLeft }), (j.frontRight, { velocityRadps := some v.frontRight }),
    (j.backLeft, { velocityRadps := some v.backLeft }), (j.backRight, { velocityRadps := some v.backRight })]

structure DriveController where
  target : BodyVel := {}
  measured : WheelVel := {}
  armed : Bool := false

namespace DriveController

def setBodyTarget (c : DriveController) (t : BodyVel) : DriveController := { c with target := t }

def setArmed (c : DriveController) (armed : Bool) : DriveController :=
  { c with armed := armed, target := if armed then c.target else {} }

variable {σ : Type} (w : Wire σ) (drv : Sts3215Driver)

def measure (j : WheelJoints) : StateM (Bus σ) WheelVel := do
  let speed (s : Option JointState) : Rat := (s.map JointState.velocityRadps).getD 0
  let fl ← drv.readState w j.frontLeft
  let fr ← drv.readState w j.frontRight
  let bl ← drv.readState w j.backLeft
  let br ← drv.readState w j.backRight
  return { frontLeft := speed fl, frontRight := speed fr, backLeft := speed bl, backRight := speed br }

/-- Reads the wheels for telemetry in every mode; writes goal speeds only when armed. -/
def tick (k : Kinematics) (j : WheelJoints) (c : DriveController) : StateM (Bus σ) DriveController := do
  let m ← measure w drv j
  if c.armed then
    drv.writeCommands w (j.velocityCommands (k.bodyToWheels c.target))
  return { c with measured := m }

variable {w drv}

def wheelRead (drv : Sts3215Driver) (id : JointId) : List Frame :=
  if (drv.info id).isSome then [buildReadStateBlock id] else []

theorem sends_measure (j : WheelJoints) : Sends (j.toList.flatMap (wheelRead drv)) (measure w drv j) := by
  unfold measure
  refine sends_bind (Sts3215Driver.sends_readState _) fun _ => ?_
  refine sends_bind (Sts3215Driver.sends_readState _) fun _ => ?_
  refine sends_bind (Sts3215Driver.sends_readState _) fun _ => ?_
  exact sends_bind (Sts3215Driver.sends_readState _) fun _ => sends_pure _

def tickWrites (drv : Sts3215Driver) (k : Kinematics) (j : WheelJoints) (c : DriveController) : List Frame :=
  if c.armed then (j.velocityCommands (k.bodyToWheels c.target)).flatMap drv.commandFrames else []

theorem sends_tick (k : Kinematics) (j : WheelJoints) (c : DriveController) :
    Sends (j.toList.flatMap (wheelRead drv) ++ tickWrites drv k j c) (tick w drv k j c) := by
  unfold tick tickWrites
  refine sends_bind (sends_measure j) fun m => ?_
  by_cases harmed : c.armed = true
  · rw [if_pos harmed, if_pos harmed, ← List.append_nil (List.flatMap _ _)]
    exact sends_bind (Sts3215Driver.sends_writeCommands _) fun _ => sends_pure _
  · rw [if_neg harmed, if_neg harmed]
    exact sends_pure _

theorem tick_target (k : Kinematics) (j : WheelJoints) (c : DriveController) (b : Bus σ) :
    ((tick w drv k j c).run b).1.target = c.target := by
  unfold tick
  by_cases harmed : c.armed = true <;> simp [harmed] <;> rfl

theorem tick_armed (k : Kinematics) (j : WheelJoints) (c : DriveController) (b : Bus σ) :
    ((tick w drv k j c).run b).1.armed = c.armed := by
  unfold tick
  by_cases harmed : c.armed = true <;> simp [harmed] <;> rfl

end DriveController

end Waypoint.Core
