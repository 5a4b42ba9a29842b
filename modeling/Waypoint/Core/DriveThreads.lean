import Waypoint.Core.Freeze
import Waypoint.Core.ModeThreads

/-!
# The drive under two threads

The control loop's `DriveController::tick` and the handlers of the NATS reader thread, one field access or one bus exchange at a time, over the simulated servos.
-/

namespace Waypoint.Core

open Base Bus

/-- The fields both threads touch, and the servos behind the bus. -/
structure DriveShared where
  machine : ModeMachine
  armed : Bool
  vx : Rat
  omegaZ : Rat
  servos : ServoModel

def DriveShared.exchange (s : DriveShared) (f : Frame) : DriveShared :=
  { s with servos := (ServoModel.dispatch s.servos f).2 }

inductive TickPc
  /-- the exchanges of `readState` still to make, then the check of `armed_` -/
  | reading (left : List Frame)
  | readVx
  | readOmega (vx : Rat)
  | writing (left : List Frame)
  deriving DecidableEq

section

variable (cfg : Config) (d : DriveSetup)

def speedFrames (t : BodyVel) : List Frame :=
  (d.wheels.velocityCommands (d.kin.bodyToWheels t)).flatMap cfg.jointDrv.commandFrames

def TickPc.start : TickPc := .reading (d.wheels.toList.flatMap (DriveController.wheelRead cfg.jointDrv))

def TickPc.access (s : DriveShared) : TickPc → Option (TickPc × DriveShared)
  | .reading (f :: left) => some (.reading left, s.exchange f)
  | .reading [] => some (if s.armed then .readVx else .writing [], s)
  | .readVx => some (.readOmega s.vx, s)
  | .readOmega vx => some (.writing (speedFrames cfg d { vx := vx, omegaZ := s.omegaZ }), s)
  | .writing (f :: left) => some (.writing left, s.exchange f)
  | .writing [] => none

variable {cfg d} in
theorem TickPc.access_cases {s s' : DriveShared} {pc pc' : TickPc} (h : pc.access cfg d s = some (pc', s')) :
    (∃ f left, pc = .reading (f :: left) ∧ pc' = .reading left ∧ s' = s.exchange f) ∨
    (pc = .reading [] ∧ pc' = (if s.armed then .readVx else .writing []) ∧ s' = s) ∨
    (pc = .readVx ∧ pc' = .readOmega s.vx ∧ s' = s) ∨
    (∃ vx, pc = .readOmega vx ∧ pc' = .writing (speedFrames cfg d { vx := vx, omegaZ := s.omegaZ }) ∧ s' = s) ∨
    (∃ f left, pc = .writing (f :: left) ∧ pc' = .writing left ∧ s' = s.exchange f) := by
  unfold access at h
  split at h
  · cases h
    exact Or.inl ⟨_, _, rfl, rfl, rfl⟩
  · cases h
    exact Or.inr (Or.inl ⟨rfl, rfl, rfl⟩)
  · cases h
    exact Or.inr (Or.inr (Or.inl ⟨rfl, rfl, rfl⟩))
  · cases h
    exact Or.inr (Or.inr (Or.inr (Or.inl ⟨_, rfl, rfl, rfl⟩)))
  · cases h
    exact Or.inr (Or.inr (Or.inr (Or.inr ⟨_, _, rfl, rfl, rfl⟩)))
  · cases h

def disarmFrames : List Frame :=
  (d.wheels.velocityCommands {}).flatMap cfg.jointDrv.commandFrames ++
    d.wheels.toList.map fun id => buildSetTorqueEnable id false

def moduleStopFrames : List Frame :=
  cfg.moduleWheels.flatMap fun id =>
    cfg.jointDrv.commandFrames (id, { velocityRadps := some 0 }) ++ [buildSetTorqueEnable id false]

def stopFrames (now : Mode) : List Frame :=
  disarmFrames cfg d ++ if now = .estop then moduleStopFrames cfg else []

inductive DriveCall
  | request (c : ModeCall)
  | cmdDrive (t : BodyVel)
  deriving DecidableEq

/-- The next access of a handler. A changed mode runs the callback: `clearVx` and `clearOmega` for `setBodyTarget({})`,
`setArmed` with its own clearing of the target, then the exchanges of `armDrive`. -/
inductive NatsPc
  | mode (pc : ModePc)
  | clearVx (now : Mode)
  | clearOmega (now : Mode)
  | setArmed (now : Mode)
  | disarmVx (now : Mode)
  | disarmOmega (now : Mode)
  | stopping (left : List Frame)
  /-- `enableTorqueHoldingPosition` for each wheel still to arm -/
  | holdMode (left : List JointId)
  | holdState (id : JointId) (left : List JointId)
  | holdGoal (id : JointId) (raw : UInt16) (left : List JointId)
  | holdTorque (id : JointId) (left : List JointId)
  /-- the two reads of the mode in the `cmd.drive` handler, then its `setBodyTarget` -/
  | driveManual (t : BodyVel)
  | driveAutonomous (t : BodyVel)
  | writeVx (t : BodyVel)
  | writeOmega (omegaZ : Rat)

def DriveCall.start : DriveCall → NatsPc
  | request c => .mode c.start
  | cmdDrive t => .driveManual t

def inPositionMode : Option (List UInt8) → Bool
  | some (_ :: mode :: _) => mode = 0
  | _ => false

def NatsPc.access (s : DriveShared) : NatsPc → Option (NatsPc × DriveShared)
  | .mode .done => none
  | .mode .readNow => some (.clearVx s.machine.mode, s)
  | .mode pc => some (.mode (pc.access s.machine).1, { s with machine := (pc.access s.machine).2 })
  | .clearVx now => some (.clearOmega now, { s with vx := 0 })
  | .clearOmega now => some (.setArmed now, { s with omegaZ := 0 })
  | .setArmed now =>
    some (if now.actuating then .holdMode d.wheels.toList else .disarmVx now, { s with armed := now.actuating })
  | .disarmVx now => some (.disarmOmega now, { s with vx := 0 })
  | .disarmOmega now => some (.stopping (stopFrames cfg d now), { s with omegaZ := 0 })
  | .stopping (f :: left) => some (.stopping left, s.exchange f)
  | .stopping [] => none
  | .holdMode (id :: left) =>
    some (if inPositionMode (ServoModel.dispatch s.servos (buildReadMode id)).1 then .holdState id left
      else .holdTorque id left, s.exchange (buildReadMode id))
  | .holdMode [] => none
  | .holdState id left =>
    some (match (ServoModel.dispatch s.servos (buildReadStateBlock id)).1.bind parseState with
      | some st => .holdGoal id st.positionRaw left
      | none => .holdTorque id left, s.exchange (buildReadStateBlock id))
  | .holdGoal id raw left => some (.holdTorque id left, s.exchange (buildSetGoalPosition id raw))
  | .holdTorque id left => some (.holdMode left, s.exchange (buildSetTorqueEnable id true))
  | .driveManual t => some (if s.machine.mode = .manual then .writeVx t else .driveAutonomous t, s)
  | .driveAutonomous t => some (if s.machine.mode = .autonomous then .writeVx t else .mode .done, s)
  | .writeVx t => some (.writeOmega t.omegaZ, { s with vx := t.vx })
  | .writeOmega omegaZ => some (.mode .done, { s with omegaZ := omegaZ })

end

structure DriveThreads where
  shared : DriveShared
  nats : Option (DriveCall × NatsPc) := none
  loop : Option TickPc := none

inductive DriveAction
  | call (c : DriveCall)
  | natsAccess
  | returned (c : DriveCall)
  | tickCall
  | tickAccess
  | tickReturned
  deriving DecidableEq

namespace DriveThreads

variable (cfg : Config) (d : DriveSetup)

def next (s : DriveThreads) : DriveAction → Option DriveThreads
  | .call c => if s.nats = none then some { s with nats := some (c, c.start) } else none
  | .natsAccess => do
      let (c, pc) ← s.nats
      let (pc', shared) ← pc.access cfg d s.shared
      return { s with nats := some (c, pc'), shared := shared }
  | .returned c => do
      let (c', pc) ← s.nats
      if c' = c ∧ (pc.access cfg d s.shared).isNone then some { s with nats := none } else none
  | .tickCall => if s.loop = none then some { s with loop := some (TickPc.start cfg d) } else none
  | .tickAccess => do
      let pc ← s.loop
      let (pc', shared) ← pc.access cfg d s.shared
      return { s with loop := some pc', shared := shared }
  | .tickReturned => do
      let pc ← s.loop
      if (pc.access cfg d s.shared).isNone then some { s with loop := none } else none

variable {cfg d}

theorem next_cases {s t : DriveThreads} {e : DriveAction} (h : s.next cfg d e = some t) :
    (∃ c, e = .call c ∧ s.nats = none ∧ t = { s with nats := some (c, c.start) }) ∨
    (∃ c pc pc' shared, e = .natsAccess ∧ s.nats = some (c, pc) ∧ pc.access cfg d s.shared = some (pc', shared) ∧
      t = { s with nats := some (c, pc'), shared := shared }) ∨
    (∃ c pc, e = .returned c ∧ s.nats = some (c, pc) ∧ pc.access cfg d s.shared = none ∧
      t = { s with nats := none }) ∨
    (e = .tickCall ∧ s.loop = none ∧ t = { s with loop := some (TickPc.start cfg d) }) ∨
    (∃ pc pc' shared, e = .tickAccess ∧ s.loop = some pc ∧ pc.access cfg d s.shared = some (pc', shared) ∧
      t = { s with loop := some pc', shared := shared }) ∨
    (∃ pc, e = .tickReturned ∧ s.loop = some pc ∧ pc.access cfg d s.shared = none ∧
      t = { s with loop := none }) := by
  cases e with
  | call c =>
    simp only [next, Option.ite_none_right_eq_some, Option.some_inj] at h
    exact Or.inl ⟨c, rfl, h.1, h.2.symm⟩
  | natsAccess =>
    obtain ⟨⟨c, pc⟩, hnats, h⟩ := Option.bind_eq_some_iff.mp h
    obtain ⟨⟨pc', shared⟩, haccess, h⟩ := Option.bind_eq_some_iff.mp h
    exact Or.inr (Or.inl ⟨c, pc, pc', shared, rfl, hnats, haccess, (Option.some_inj.mp h).symm⟩)
  | returned c =>
    obtain ⟨⟨c', pc⟩, hnats, h⟩ := Option.bind_eq_some_iff.mp h
    simp only [Option.ite_none_right_eq_some, Option.some_inj, Option.isNone_iff_eq_none] at h
    obtain ⟨⟨rfl, hnone⟩, ht⟩ := h
    exact Or.inr (Or.inr (Or.inl ⟨c', pc, rfl, hnats, hnone, ht.symm⟩))
  | tickCall =>
    simp only [next, Option.ite_none_right_eq_some, Option.some_inj] at h
    exact Or.inr (Or.inr (Or.inr (Or.inl ⟨rfl, h.1, h.2.symm⟩)))
  | tickAccess =>
    obtain ⟨pc, hloop, h⟩ := Option.bind_eq_some_iff.mp h
    obtain ⟨⟨pc', shared⟩, haccess, h⟩ := Option.bind_eq_some_iff.mp h
    exact Or.inr (Or.inr (Or.inr (Or.inr (Or.inl ⟨pc, pc', shared, rfl, hloop, haccess, (Option.some_inj.mp h).symm⟩))))
  | tickReturned =>
    obtain ⟨pc, hloop, h⟩ := Option.bind_eq_some_iff.mp h
    simp only [Option.ite_none_right_eq_some, Option.some_inj, Option.isNone_iff_eq_none] at h
    exact Or.inr (Or.inr (Or.inr (Or.inr (Or.inr ⟨pc, rfl, hloop, h.1, h.2.symm⟩))))

end DriveThreads

end Waypoint.Core
