import Waypoint.Core.Servo.Frame

/-!
# Frames as bytes

`servo/Sts3215Frame.cpp`: the header, length and checksum around a frame, and the decoder the bus runs on what it has received so far.
-/

namespace Waypoint.Core

def Instruction.code : Instruction → UInt8
  | ping => 0x01
  | readData => 0x02
  | writeData => 0x03
  | regWrite => 0x04
  | action => 0x05
  | reset => 0x06
  | syncWrite => 0x83

/-- The sum is kept in 32 bits and cut to 8; the low byte of a sum is the sum of the low bytes. -/
def checksum (id length instr : UInt8) (params : List UInt8) : UInt8 := ~~~(id + length + instr + params.sum)

/-- Header, id, length, instruction or error byte, parameters and checksum. -/
def packet (id instr : UInt8) (params : List UInt8) : List UInt8 :=
  let length := UInt8.ofNat (params.length + 2)
  0xFF :: 0xFF :: id :: length :: instr :: (params ++ [checksum id length instr params])

def encode (f : Frame) : List UInt8 := packet f.id f.instruction.code f.params

/-- A packet whose length byte has room for its parameters. -/
structure Packet where
  id : JointId
  instr : UInt8
  params : List UInt8
  fits : params.length < 254

def Packet.bytes (p : Packet) : List UInt8 := packet p.id p.instr p.params

structure DecodeResult where
  id : JointId
  params : List UInt8
  consumed : Nat

def decode (buf : List UInt8) : Option DecodeResult :=
  if buf.length < 6 then none
  else if buf.getD 0 0 ≠ 0xFF ∨ buf.getD 1 0 ≠ 0xFF then none
  else
    let id := buf.getD 2 0
    let length := buf.getD 3 0
    if length < 2 then none
    else if buf.length < 4 + length.toNat then none
    else
      let err := buf.getD 4 0
      let params := (buf.drop 5).take (length.toNat - 2)
      if checksum id length err params ≠ buf.getD (4 + length.toNat - 1) 0 then none
      else some { id, params := (buf.drop 4).take (length.toNat - 1), consumed := 4 + length.toNat }

theorem length_packet (id instr : UInt8) (params : List UInt8) : (packet id instr params).length = params.length + 6 := by
  simp [packet]

theorem strip_packet (id instr : UInt8) (params : List UInt8) :
    ((packet id instr params).take (params.length + 5)).drop 4 = instr :: params := by
  simp [packet]

section Packets

variable {id instr : UInt8} {params : List UInt8}

theorem toNat_length (h : params.length < 254) : (UInt8.ofNat (params.length + 2)).toNat = params.length + 2 := by
  rw [UInt8.toNat_ofNat_of_lt']
  show params.length + 2 < 2 ^ 8
  omega

theorem decode_of_header (h : params.length < 254) (body : List UInt8) :
    decode (0xFF :: 0xFF :: id :: UInt8.ofNat (params.length + 2) :: instr :: body) =
      if body.length < params.length + 1 then none
      else if checksum id (UInt8.ofNat (params.length + 2)) instr (body.take params.length) ≠ body.getD params.length 0 then
        none
      else some ⟨id, instr :: body.take params.length, params.length + 6⟩ := by
  have hlength := toNat_length h
  have hleast : ¬UInt8.ofNat (params.length + 2) < 2 := by
    rw [UInt8.lt_iff_toNat_lt, hlength]
    show ¬params.length + 2 < 2
    omega
  by_cases hshort : body.length < params.length + 1
  · rw [if_pos hshort, decode]
    by_cases hempty : body.length = 0
    · rw [if_pos (by simp only [List.length_cons]; omega)]
    · rw [if_neg (by simp only [List.length_cons]; omega), if_neg (by simp)]
      simp only [List.getD_cons_succ, List.getD_cons_zero, if_neg hleast, hlength, List.length_cons]
      rw [if_pos (by omega)]
  · rw [if_neg hshort, decode, if_neg (by simp only [List.length_cons]; omega), if_neg (by simp)]
    simp only [List.getD_cons_succ, List.getD_cons_zero, if_neg hleast, hlength, List.length_cons]
    have hindex : 4 + (params.length + 2) - 1 = params.length + 5 := by omega
    have htotal : 4 + (params.length + 2) = params.length + 6 := by omega
    rw [if_neg (by omega), hindex, htotal]
    rfl

theorem decode_packet (id instr : UInt8) (h : params.length < 254) (rest : List UInt8) :
    decode (packet id instr params ++ rest) = some ⟨id, instr :: params, params.length + 6⟩ := by
  have hbuf : packet id instr params ++ rest =
      0xFF :: 0xFF :: id :: UInt8.ofNat (params.length + 2) :: instr ::
        (params ++ checksum id (UInt8.ofNat (params.length + 2)) instr params :: rest) := by
    simp [packet]
  rw [hbuf, decode_of_header h, if_neg (by simp), List.take_left, if_neg (by simp)]

theorem decode_take (h : params.length < 254) {n : Nat} (hn : n < params.length + 6) :
    decode ((packet id instr params).take n) = none := by
  by_cases hfive : n < 5
  · rw [decode, if_pos]
    rw [List.length_take]
    omega
  obtain ⟨m, rfl⟩ := Nat.exists_eq_add_of_le' (Nat.le_of_not_lt hfive)
  rw [packet]
  simp only [List.take_succ_cons]
  rw [decode_of_header h, if_pos]
  rw [List.length_take]
  omega

end Packets

end Waypoint.Core
