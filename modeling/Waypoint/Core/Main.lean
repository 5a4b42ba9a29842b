import Waypoint.Core.AuxRotation
import Waypoint.Core.Drive
import Waypoint.Core.ModeMachine
import Waypoint.Core.Servo.ControlServer
import Waypoint.Core.Servo.Model

/-!
# Core as a step system

`main.cpp` from the entry of the main loop on: the state shared by the NATS handlers and the control loop, one function for each handler, and one for an iteration of the loop.
-/

namespace Waypoint.Core

open Base Bus

structure DriveSetup where
  kin : Kinematics
  wheels : WheelJoints

/-- What `main` builds from the descriptor before it subscribes. Drive is a capability: absent without kinematics. -/
structure Config where
  jointDrv : Sts3215Driver
  drive : Option DriveSetup
  moduleWheels : List JointId
  deny : List JointId

theorem Descriptor.jointAt_of_resolved {root : Toml} {d : Descriptor} {k : DescriptorKinematics} {first : String × DriverCfg}
    {pos : String} {id : JointId} (hparse : parse root = .ok d) (hk : d.kinematics = some k)
    (hid : (k.wheels.lookup pos).bind (Sts3215Driver.ofDescriptor d first.1).idForName = some id) :
    ∃ j ∈ d.joints, d.jointAt pos = some j ∧ j.driver = first.1 ∧ j.busId = id := by
  obtain ⟨name, hname, hbyName⟩ := Option.bind_eq_some_iff.mp hid
  obtain ⟨j, hj, hdriver, hjname, hbus⟩ := Sts3215Driver.joint_of_byName hbyName
  refine ⟨j, hj, ?_, hdriver, hbus⟩
  have hfound : (jointByName d.joints name).isSome = true :=
    List.find?_isSome.mpr ⟨j, hj, by simpa using hjname⟩
  obtain ⟨j', hj'⟩ := Option.isSome_iff_exists.mp hfound
  have hnames : (d.joints.map Joint.name).Nodup := List.pairwise_map.mpr (names_of_parse hparse)
  have hsame : j'.name = j.name := by
    have := List.find?_some hj'
    simp only [decide_eq_true_eq] at this
    rw [this, hjname]
  rw [List.inj_on_of_nodup_map hnames (List.mem_of_find?_eq_some hj') hj hsame] at hj'
  rw [jointAt, hk, Option.bind_some, hname, Option.bind_some]
  exact hj'

namespace Config

def resolveWheels (drv : Sts3215Driver) (k : DescriptorKinematics) : Option WheelJoints := do
  let wheelId (pos : String) : Option JointId := (k.wheels.lookup pos).bind drv.idForName
  let frontLeft ← wheelId "front_left"
  let frontRight ← wheelId "front_right"
  let backLeft ← wheelId "back_left"
  let backRight ← wheelId "back_right"
  return { frontLeft := frontLeft, frontRight := frontRight, backLeft := backLeft, backRight := backRight }

def resolveDrive (drv : Sts3215Driver) : Option DescriptorKinematics → Option (Option DriveSetup)
  | none => some none
  | some k => do
      let wheels ← resolveWheels drv k
      return some { kin := { wheelRadius := k.wheelRadiusM, trackWidth := k.trackWidthM }, wheels := wheels }

/-- The setup of `main`, on the first driver of the map. Nothing where a wheel does not resolve: the source
dereferences the empty optional there. -/
def ofDescriptor (d : Descriptor) : Option Config := do
  let first ← d.drivers.head?
  let drv := Sts3215Driver.ofDescriptor d first.1
  let drive ← resolveDrive drv d.kinematics
  return { jointDrv := drv, drive := drive, moduleWheels := d.moduleWheelBusIds, deny := d.platformOwnedBusIds }

def ofDocument (doc : Toml) : Option Config :=
  match Descriptor.parse doc with
  | .ok d => ofDescriptor d
  | .error _ => none

variable {drv : Sts3215Driver} {k : DescriptorKinematics} {wheels : WheelJoints}

theorem resolveWheels_eq_some
    (h : resolveWheels drv k = some wheels) :
    (k.wheels.lookup "front_left").bind drv.idForName = some wheels.frontLeft ∧
      (k.wheels.lookup "front_right").bind drv.idForName = some wheels.frontRight ∧
      (k.wheels.lookup "back_left").bind drv.idForName = some wheels.backLeft ∧
      (k.wheels.lookup "back_right").bind drv.idForName = some wheels.backRight := by
  obtain ⟨fl, hfl, h⟩ := Option.bind_eq_some_iff.mp h
  obtain ⟨fr, hfr, h⟩ := Option.bind_eq_some_iff.mp h
  obtain ⟨bl, hbl, h⟩ := Option.bind_eq_some_iff.mp h
  obtain ⟨br, hbr, h⟩ := Option.bind_eq_some_iff.mp h
  cases h
  exact ⟨hfl, hfr, hbl, hbr⟩

theorem named_of_resolveWheels
    (h : resolveWheels drv k = some wheels) : ∀ id ∈ wheels.toList, ∃ name, drv.byName name = some id := by
  have hname : ∀ pos id, (k.wheels.lookup pos).bind drv.idForName = some id → ∃ name, drv.byName name = some id := by
    intro pos id hpos
    obtain ⟨name, -, hid⟩ := Option.bind_eq_some_iff.mp hpos
    exact ⟨name, hid⟩
  obtain ⟨hfl, hfr, hbl, hbr⟩ := resolveWheels_eq_some h
  intro id hid
  simp only [WheelJoints.toList, List.mem_cons, List.not_mem_nil, or_false] at hid
  rcases hid with rfl | rfl | rfl | rfl
  · exact hname _ _ hfl
  · exact hname _ _ hfr
  · exact hname _ _ hbl
  · exact hname _ _ hbr

theorem wheels_known {doc : Toml} {cfg : Config} {d : DriveSetup} (h : ofDocument doc = some cfg)
    (hdrive : cfg.drive = some d) : ∀ id ∈ d.wheels.toList, (cfg.jointDrv.info id).isSome = true ∧ id ≠ 0xFE := by
  unfold ofDocument at h
  split at h
  · rename_i desc hparse
    obtain ⟨first, -, h⟩ := Option.bind_eq_some_iff.mp h
    obtain ⟨drive, hresolve, h⟩ := Option.bind_eq_some_iff.mp h
    cases h
    have hfrom := Sts3215Driver.fromJoints_ofDescriptor (Descriptor.addressable_of_parse hparse) first.1
    dsimp only at hdrive ⊢
    subst hdrive
    unfold resolveDrive at hresolve
    split at hresolve
    · cases hresolve
    rename_i k _
    obtain ⟨wheels, hwheels, hresolve⟩ := Option.bind_eq_some_iff.mp hresolve
    cases hresolve
    intro id hid
    obtain ⟨name, hname⟩ := named_of_resolveWheels hwheels id hid
    obtain ⟨hinfo, haddr⟩ := hfrom name id hname
    refine ⟨hinfo, ?_⟩
    rintro rfl
    exact absurd haddr.2 (by decide)
  · cases h

end Config

structure CoreState (σ : Type) where
  machine : ModeMachine
  wd : Watchdog
  driveSafety : Watchdog
  drive : DriveController
  servoCtl : ServoControlServer
  auxRot : AuxRotation
  bus : Bus σ
  next50 : TimePoint
  next20 : TimePoint

/-- What core handles. A payload is `none` when it does not parse; `rpc.set_mode` carries the wire value of the
mode. An iteration of the loop comes with what the world does meanwhile. -/
inductive Event (μ : Type)
  | heartbeat
  | cmdDrive (payload : Option BodyVel)
  | setMode (payload : Option Int)
  | estop
  | recover
  | servo (c : ServoControl)
  | servoSync (goals : List ServoGoal)
  | servoRead (servoId : UInt32)
  | loop (motion : μ)

structure Stamped (μ : Type) where
  now : TimePoint
  event : Event μ

namespace CoreState

def kHeartbeatTimeout : TimePoint := milliseconds 500

def kDriveCmdTimeout : TimePoint := milliseconds 300

def kAuxReadsPerTick : Nat := 2

def entry {σ : Type} (wire : σ) (auxRot : AuxRotation) (start : TimePoint) : CoreState σ where
  machine := {}
  wd := { timeout := kHeartbeatTimeout }
  driveSafety := { timeout := kDriveCmdTimeout }
  drive := {}
  servoCtl := {}
  auxRot := auxRot
  bus := { wire := wire, log := [] }
  next50 := start
  next20 := start

def mode {σ : Type} (s : CoreState σ) : Mode := s.machine.mode

variable {σ μ : Type} (cfg : Config) (w : World σ μ) (s : CoreState σ)

def onBus (p : StateM (Bus σ) PUnit) : CoreState σ := { s with bus := (p.run s.bus).2 }

/-- Disarming writes zero once before torque goes off: a wheel acts on a latched speed without torque. -/
def armDriveBus (wheels : WheelJoints) (on : Bool) : StateM (Bus σ) PUnit := do
  if !on then
    cfg.jointDrv.writeCommands w.toWire (wheels.velocityCommands {})
  forM wheels.toList fun id => do
    let _ ← Sts3215Driver.setTorqueEnable w.toWire id on
    pure ⟨⟩

def armDrive (on : Bool) (s : CoreState σ) : CoreState σ :=
  match cfg.drive with
  | none => s
  | some d => ({ s with drive := s.drive.setArmed on }).onBus (armDriveBus cfg w d.wheels on)

def stopModuleWheels : StateM (Bus σ) PUnit :=
  forM cfg.moduleWheels fun id => do
    cfg.jointDrv.writeCommands w.toWire [(id, { velocityRadps := some 0 })]
    let _ ← Sts3215Driver.setTorqueEnable w.toWire id false
    pure ⟨⟩

def clearTarget : CoreState σ :=
  if cfg.drive.isSome then { s with drive := s.drive.setBodyTarget {} } else s

def onChange (c : Change) (s : CoreState σ) : CoreState σ :=
  let s := armDrive cfg w c.now.actuating (clearTarget cfg s)
  if c.now = .estop then s.onBus (stopModuleWheels cfg w) else s

def commit (m : ModeMachine) (change : Option Change) (s : CoreState σ) : CoreState σ :=
  let s := { s with machine := m }
  match change with
  | none => s
  | some c => onChange cfg w c s

def fromProto : Int → Mode
  | 1 => .manual
  | 2 => .safe
  | 3 => .autonomous
  | 4 => .estop
  | _ => .safe

def onHeartbeat (now : TimePoint) (s : CoreState σ) : CoreState σ :=
  { s with wd := s.wd.kick now, machine := s.machine.onHeartbeatRestored }

/-- The subscription exists only on a platform with drive. -/
def onCmdDrive (payload : Option BodyVel) (now : TimePoint) (s : CoreState σ) : CoreState σ :=
  if cfg.drive.isNone ∨ s.mode.actuating = false then s
  else
    match payload with
    | none => s
    | some t => { s with drive := s.drive.setBodyTarget t, driveSafety := s.driveSafety.kick now }

def onEstop : CoreState σ :=
  let r := s.machine.requestEstop
  commit cfg w r.machine r.change s

def onRecover : CoreState σ :=
  let r := s.machine.requestRecover
  commit cfg w r.machine r.change s

def onSetMode (payload : Option Int) (s : CoreState σ) : CoreState σ :=
  match payload with
  | none => s
  | some raw =>
    let target := fromProto raw
    let r := if target = .estop then s.machine.requestEstop else s.machine.requestSetMode target
    commit cfg w r.machine r.change s

def onServo (c : ServoControl) (s : CoreState σ) : CoreState σ :=
  let r := (ServoControlServer.handleControl w.toWire cfg.deny (s.mode = .estop) c s.servoCtl).run s.bus
  { s with servoCtl := r.1, bus := r.2 }

def onServoSync (goals : List ServoGoal) (s : CoreState σ) : CoreState σ :=
  s.onBus (ServoControlServer.handleSync w.toWire cfg.deny (s.mode = .estop) goals)

def onServoRead (servoId : UInt32) (s : CoreState σ) : CoreState σ :=
  { s with bus := ((ServoControlServer.handleRead w.toWire servoId s.servoCtl).run s.bus).2 }

def checkHeartbeat (now : TimePoint) (s : CoreState σ) : CoreState σ :=
  let r := s.wd.tickAndCheck now
  let s := { s with wd := r.2 }
  if r.1 then
    let m := s.machine.onHeartbeatLost
    clearTarget cfg (commit cfg w m.1 m.2 s)
  else s

def checkDrive (now : TimePoint) (s : CoreState σ) : CoreState σ :=
  match cfg.drive with
  | none => s
  | some _ =>
    let r := s.driveSafety.tickAndCheck now
    let s := { s with driveSafety := r.2 }
    if r.1 then { s with drive := s.drive.setBodyTarget {} } else s

/-- The 50 Hz part: the world moves, then the controller acts. -/
def control (motion : μ) (now : TimePoint) (s : CoreState σ) : CoreState σ :=
  if now < s.next50 then s
  else
    let s := { s with
      bus := { s.bus with wire := w.move motion s.bus.wire }
      next50 := s.next50 + milliseconds 20 }
    match cfg.drive with
    | none => s
    | some d =>
      let r := (s.drive.tick w.toWire cfg.jointDrv d.kin d.wheels).run s.bus
      { s with drive := r.1, bus := r.2 }

def readAux : List JointId → AuxRotation → StateM (Bus σ) AuxRotation
  | [], aux => pure aux
  | id :: ids, aux => do
      let state ← readState w.toWire id
      readAux ids (aux.recordResult id state.isSome)

/-- The 20 Hz part: reads of the wheels and of the next few other servos. -/
def telemetry (now : TimePoint) (s : CoreState σ) : CoreState σ :=
  if now < s.next20 then s
  else
    let wheels := (cfg.drive.map fun d => d.wheels.toList).getD []
    let s := s.onBus (forM wheels fun id => do
      let _ ← readState w.toWire id
      pure ⟨⟩)
    let (ids, aux) := s.auxRot.next kAuxReadsPerTick
    let r := (readAux w ids aux).run s.bus
    { s with auxRot := r.1, bus := r.2, next20 := s.next20 + milliseconds 50 }

def onLoop (motion : μ) (now : TimePoint) (s : CoreState σ) : CoreState σ :=
  telemetry cfg w now (control cfg w motion now (checkDrive cfg now (checkHeartbeat cfg w now s)))

def step (e : Stamped μ) : CoreState σ :=
  match e.event with
  | .heartbeat => onHeartbeat e.now s
  | .cmdDrive payload => onCmdDrive cfg payload e.now s
  | .setMode payload => onSetMode cfg w payload s
  | .estop => onEstop cfg w s
  | .recover => onRecover cfg w s
  | .servo c => onServo cfg w c s
  | .servoSync goals => onServoSync cfg w goals s
  | .servoRead servoId => onServoRead w servoId s
  | .loop motion => onLoop cfg w motion e.now s

def run (es : List (Stamped μ)) : CoreState σ := es.foldl (step cfg w) s

end CoreState

end Waypoint.Core
