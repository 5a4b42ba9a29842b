import Mathlib.Data.List.Basic
import Mathlib.Data.UInt

/-!
# STS3215 instruction frames

`servo/Sts3215Frame.{hpp,cpp}`: the instructions, the registers core touches, the sign-magnitude words of the speed and load registers, and the frames the builders put on the wire.
-/

namespace Waypoint.Core

/-- A bus id, and the handle of the joint on it. -/
abbrev JointId := UInt8

inductive Instruction
  | ping
  | readData
  | writeData
  | regWrite
  | action
  | reset
  | syncWrite
  deriving DecidableEq

structure Frame where
  id : JointId
  instruction : Instruction
  params : List UInt8
  deriving DecidableEq

namespace Reg

def returnDelay : UInt8 := 0x07
def minAngleLimit : UInt8 := 0x09
def compP : UInt8 := 0x15
def compD : UInt8 := 0x16
def compI : UInt8 := 0x17
def mode : UInt8 := 0x21
def torqueEnable : UInt8 := 0x28
def acceleration : UInt8 := 0x29
def goalPosition : UInt8 := 0x2A
def goalSpeed : UInt8 := 0x2E
def torqueLimit : UInt8 := 0x30
def lock : UInt8 := 0x37
def presentPosition : UInt8 := 0x38
def presentSpeed : UInt8 := 0x3A
def presentLoad : UInt8 := 0x3C
def presentVoltage : UInt8 := 0x3E
def presentTemperature : UInt8 := 0x3F
def presentCurrent : UInt8 := 0x45
def maxAcceleration : UInt8 := 0x55

end Reg

def lowByte (v : UInt16) : UInt8 := (v &&& 0xFF).toUInt8

def highByte (v : UInt16) : UInt8 := ((v >>> 8) &&& 0xFF).toUInt8

def wordOfBytes (low high : UInt8) : UInt16 := low.toUInt16 ||| (high.toUInt16 <<< 8)

theorem toNat_lowByte (v : UInt16) : (lowByte v).toNat = v.toNat % 256 := by
  rw [lowByte, UInt16.toNat_toUInt8, UInt16.toNat_and]
  show (v.toNat &&& (2 ^ 8 - 1)) % 2 ^ 8 = v.toNat % 2 ^ 8
  rw [Nat.and_two_pow_sub_one_eq_mod, Nat.mod_mod]

theorem toNat_highByte (v : UInt16) : (highByte v).toNat = v.toNat / 256 := by
  have hv := v.toNat_lt
  rw [highByte, UInt16.toNat_toUInt8, UInt16.toNat_and, UInt16.toNat_shiftRight]
  show (v.toNat >>> 8 &&& (2 ^ 8 - 1)) % 2 ^ 8 = v.toNat / 2 ^ 8
  rw [Nat.and_two_pow_sub_one_eq_mod, Nat.mod_mod, Nat.shiftRight_eq_div_pow]
  apply Nat.mod_eq_of_lt
  omega

theorem toNat_wordOfBytes (low high : UInt8) : (wordOfBytes low high).toNat = high.toNat * 256 + low.toNat := by
  have hlow := low.toNat_lt
  have hhigh := high.toNat_lt
  rw [wordOfBytes, UInt16.toNat_or, UInt16.toNat_shiftLeft, UInt8.toNat_toUInt16, UInt8.toNat_toUInt16]
  show low.toNat ||| high.toNat <<< 8 % 2 ^ 16 = high.toNat * 2 ^ 8 + low.toNat
  rw [Nat.shiftLeft_eq, Nat.mod_eq_of_lt (by omega), Nat.or_comm, ← Nat.shiftLeft_eq, ← Nat.shiftLeft_add_eq_or_of_lt hlow]

theorem wordOfBytes_bytes (v : UInt16) : wordOfBytes (lowByte v) (highByte v) = v := by
  apply UInt16.toNat_inj.mp
  rw [toNat_wordOfBytes, toNat_lowByte, toNat_highByte]
  omega

/-- A direction flag over an unsigned magnitude. The argument is an `int16_t`. -/
def encodeSignMagnitude (v : Int) (signBit : UInt16) : UInt16 :=
  if v < 0 then UInt16.ofNat v.natAbs ||| (1 <<< signBit) else UInt16.ofNat v.natAbs

def decodeSignMagnitude (raw : UInt16) (signBit : UInt16) : Int :=
  let mag : Int := (raw &&& ((1 <<< signBit) - 1)).toNat
  if raw &&& (1 <<< signBit) = 0 then mag else -mag

variable (id : JointId)

def buildPing : Frame := ⟨id, .ping, []⟩

def buildReadStateBlock : Frame := ⟨id, .readData, [Reg.presentPosition, 0x0F]⟩

def buildReadPosition : Frame := ⟨id, .readData, [Reg.presentPosition, 0x02]⟩

def buildReadMode : Frame := ⟨id, .readData, [Reg.mode, 0x01]⟩

def buildWriteByte (reg value : UInt8) : Frame := ⟨id, .writeData, [reg, value]⟩

def buildWriteWord (reg : UInt8) (value : UInt16) : Frame :=
  ⟨id, .writeData, [reg, lowByte value, highByte value]⟩

def buildSetGoalSpeed (signedSpeed : Int) : Frame :=
  buildWriteWord id Reg.goalSpeed (encodeSignMagnitude signedSpeed 15)

def buildSetTorqueEnable (on : Bool) : Frame :=
  buildWriteByte id Reg.torqueEnable (if on then 1 else 0)

def buildSetMode (mode : UInt8) : Frame := buildWriteByte id Reg.mode mode

def buildSetEEPROMLock (locked : Bool) : Frame :=
  buildWriteByte id Reg.lock (if locked then 1 else 0)

def buildSetGoalPosition (raw : UInt16) : Frame := buildWriteWord id Reg.goalPosition raw

def buildSetTorqueLimit (raw : UInt16) : Frame := buildWriteWord id Reg.torqueLimit raw

def buildSetAngleLimits (minRaw maxRaw : UInt16) : Frame :=
  ⟨id, .writeData, [Reg.minAngleLimit, lowByte minRaw, highByte minRaw, lowByte maxRaw, highByte maxRaw]⟩

def buildSyncWriteGoalPositions (goals : List (JointId × UInt16)) : Frame :=
  ⟨0xFE, .syncWrite, Reg.goalPosition :: 2 :: goals.flatMap fun g => [g.1, lowByte g.2, highByte g.2]⟩

def Frame.isWrite (f : Frame) : Bool :=
  f.instruction = .writeData || f.instruction = .syncWrite

def Frame.nonzeroSpeed (f : Frame) : Bool :=
  match f.instruction, f.params with
  | .writeData, [reg, low, high] => reg = Reg.goalSpeed && (low ≠ 0 || high ≠ 0)
  | _, _ => false

theorem Frame.isWrite_of_nonzeroSpeed {f : Frame} (h : f.nonzeroSpeed = true) : f.isWrite = true := by
  unfold Frame.nonzeroSpeed at h
  split at h
  · rename_i hinstr _
    simp [Frame.isWrite, hinstr]
  · simp at h

theorem nonzeroSpeed_goalSpeed_zero : (buildSetGoalSpeed id 0).nonzeroSpeed = false := rfl

end Waypoint.Core
