import Waypoint.Core.Servo.Bus

/-!
# Simulated servos

`sim/ServoModel.cpp` and the frame dispatch of `sim/SimUart.cpp`: a register file per servo, written and read by frames. A servo in wheel mode acts on `GOAL_SPEED` whether or not torque is on.
-/

namespace Waypoint.Core

/-- The values `mirrorPresentRegs` writes back after a step of the plant. -/
structure Readings where
  position : UInt16
  speed : UInt16
  voltage : UInt8
  temperature : UInt8
  current : UInt16

structure World (σ μ : Type) extends Wire σ where
  move : μ → σ → σ

def World.silent : World Unit Unit where
  exchange _ _ := (none, ())
  sendNoReply _ _ := (false, ())
  move _ _ := ()

def World.tallied {σ μ : Type} (w : World σ μ) : World (σ × Nat) μ where
  exchange s f := ((w.exchange s.1 f).1, (w.exchange s.1 f).2, if (w.exchange s.1 f).1.isSome then s.2 else s.2 + 1)
  sendNoReply s f := ((w.sendNoReply s.1 f).1, (w.sendNoReply s.1 f).2, s.2)
  move m s := (w.move m s.1, s.2)

structure Servo where
  present : Bool := true
  regs : Nat → UInt8

structure ServoModel where
  servos : JointId → Option Servo

namespace Servo

def regCount : Nat := 0x50

def storeBytes (regs : Nat → UInt8) (addr : Nat) (data : List UInt8) : Nat → UInt8 :=
  fun a => if addr ≤ a ∧ a < addr + data.length then data.getD (a - addr) 0 else regs a

def writeU16 (regs : Nat → UInt8) (addr : UInt8) (v : UInt16) : Nat → UInt8 :=
  storeBytes regs addr.toNat [lowByte v, highByte v]

def mirrorPresentRegs (s : Servo) (r : Readings) : Servo :=
  let regs := writeU16 s.regs Reg.presentPosition r.position
  let regs := writeU16 regs Reg.presentSpeed r.speed
  let regs := writeU16 regs Reg.presentLoad 0
  let regs := storeBytes regs Reg.presentVoltage.toNat [r.voltage]
  let regs := storeBytes regs Reg.presentTemperature.toNat [r.temperature]
  { s with regs := writeU16 regs Reg.presentCurrent r.current }

def wheel (s : Servo) : Bool := s.regs Reg.mode.toNat = 1

def goalSpeedMagnitude (s : Servo) : UInt16 :=
  wordOfBytes (s.regs Reg.goalSpeed.toNat) (s.regs (Reg.goalSpeed.toNat + 1)) &&& 0x7FFF

def still (s : Servo) : Bool := !s.wheel || s.goalSpeedMagnitude = 0

theorem storeBytes_outside {regs : Nat → UInt8} {addr a : Nat} {data : List UInt8}
    (h : a < addr ∨ addr + data.length ≤ a) : storeBytes regs addr data a = regs a := by
  unfold storeBytes
  rw [if_neg]
  omega

end Servo

namespace ServoModel

def update (m : ServoModel) (id : JointId) (s : Servo) : ServoModel :=
  ⟨fun i => if i = id then some s else m.servos i⟩

def isPresent (m : ServoModel) (id : JointId) : Bool :=
  match m.servos id with
  | some s => s.present
  | none => false

/-- EEPROM addresses below the torque register are frozen while the lock register is set. -/
def writeReg (m : ServoModel) (id : JointId) (addr : UInt8) (data : List UInt8) : Bool × ServoModel :=
  match m.servos id with
  | none => (false, m)
  | some s =>
    if !s.present then (false, m)
    else if data.isEmpty then (false, m)
    else if addr.toNat + data.length > Servo.regCount then (false, m)
    else if s.regs Reg.lock.toNat = 1 ∧ addr < Reg.torqueEnable ∧ addr ≠ Reg.lock then (false, m)
    else (true, m.update id { s with regs := Servo.storeBytes s.regs addr.toNat data })

variable {m : ServoModel} {id : JointId} {s : Servo}

theorem writeReg_present (hs : m.servos id = some s) (hpresent : s.present = true)
    {addr : UInt8} {data : List UInt8} (hdata : data ≠ []) (hbound : addr.toNat + data.length ≤ Servo.regCount)
    (hfree : s.regs Reg.lock.toNat ≠ 1 ∨ Reg.torqueEnable ≤ addr) :
    m.writeReg id addr data = (true, m.update id { s with regs := Servo.storeBytes s.regs addr.toNat data }) := by
  have hunlocked : ¬(s.regs Reg.lock.toNat = 1 ∧ addr < Reg.torqueEnable ∧ addr ≠ Reg.lock) := by
    rintro ⟨hlocked, hlow, -⟩
    rcases hfree with hfree | hfree
    · exact hfree hlocked
    · exact absurd hlow (UInt8.not_lt.mpr hfree)
  have hempty : ¬data.isEmpty = true := fun h => hdata (List.isEmpty_iff.mp h)
  rw [writeReg, hs]
  dsimp only
  rw [if_neg (by rw [hpresent]; decide), if_neg hempty, if_neg (Nat.not_lt.mpr hbound), if_neg hunlocked]

theorem writeReg_absent (hs : m.servos id = some s) (habsent : s.present = false)
    (addr : UInt8) (data : List UInt8) : m.writeReg id addr data = (false, m) := by
  rw [writeReg, hs]
  dsimp only
  rw [if_pos (by rw [habsent]; decide)]

def readRegs (m : ServoModel) (id : JointId) (addr len : UInt8) : Option (List UInt8) :=
  match m.servos id with
  | none => none
  | some s =>
    if !s.present then none
    else if addr.toNat + len.toNat > Servo.regCount then none
    else some ((List.range len.toNat).map fun i => s.regs (addr.toNat + i))

/-- The per-servo chunks of a sync write, in order; a short tail is dropped. -/
def syncWriteRegs (m : ServoModel) (addr : UInt8) (per : Nat) : Nat → List UInt8 → ServoModel
  | 0, _ => m
  | fuel + 1, data =>
    match data with
    | [] => m
    | id :: rest =>
      if rest.length < per then m
      else ((m.writeReg id addr (rest.take per)).2).syncWriteRegs addr per fuel (rest.drop per)

/-- What the simulated bus does with one instruction frame: the reply's error byte and parameters. -/
def dispatch (m : ServoModel) (f : Frame) : Option (List UInt8) × ServoModel :=
  let broadcast := f.id = 0xFE
  match f.instruction, f.params with
  | .ping, _ => (if ¬ broadcast ∧ m.isPresent f.id then some [0] else none, m)
  | .readData, addr :: len :: _ =>
    (if broadcast then none else (m.readRegs f.id addr len).map (0 :: ·), m)
  | .writeData, addr :: data =>
    if broadcast then (none, m)
    else
      let (ok, m') := m.writeReg f.id addr data
      (if ok then some [0] else none, m')
  | .syncWrite, addr :: per :: data => (none, m.syncWriteRegs addr per.toNat data.length data)
  | _, _ => (none, m)

def step (readings : JointId → Readings) (m : ServoModel) : ServoModel :=
  ⟨fun id => (m.servos id).map fun s => if s.present then s.mirrorPresentRegs (readings id) else s⟩

def world : World ServoModel (JointId → Readings) where
  exchange := dispatch
  sendNoReply m f := (true, (dispatch m f).2)
  move := step

end ServoModel

end Waypoint.Core
