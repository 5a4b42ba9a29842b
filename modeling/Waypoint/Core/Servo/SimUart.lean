import Mathlib.Data.List.GetD
import Waypoint.Core.Servo.Exchange
import Waypoint.Core.Servo.Model

/-!
# The simulated line

`sim/SimUart.cpp`: what the bus writes is collected until it holds an instruction packet, which is then carried out on the register files; the answer waits in the receive queue.
-/

namespace Waypoint.Core

def Instruction.ofCode : UInt8 → Option Instruction
  | 0x01 => some ping
  | 0x02 => some readData
  | 0x03 => some writeData
  | 0x04 => some regWrite
  | 0x05 => some action
  | 0x06 => some reset
  | 0x83 => some syncWrite
  | _ => none

structure Parsed where
  id : JointId
  instruction : UInt8
  params : List UInt8
  consumed : Nat

def tryParseInstruction (buf : List UInt8) : Option Parsed :=
  if buf.length < 6 then none
  else if buf.getD 0 0 ≠ 0xFF ∨ buf.getD 1 0 ≠ 0xFF then none
  else
    let id := buf.getD 2 0
    let length := buf.getD 3 0
    if length < 2 then none
    else
      let total := 4 + length.toNat
      if buf.length < total then none
      else
        let instr := buf.getD 4 0
        let params := (buf.drop 5).take (length.toNat - 2)
        if checksum id length instr params ≠ buf.getD (total - 1) 0 then none
        else some { id, instruction := instr, params, consumed := total }

/-- The two parsers accept the same buffers: the byte after the length is the instruction for one, an error for the other. -/
theorem decode_eq_tryParse (buf : List UInt8) :
    decode buf = (tryParseInstruction buf).map fun p => ⟨p.id, p.instruction :: p.params, p.consumed⟩ := by
  unfold decode tryParseInstruction
  split
  · rfl
  split
  · rfl
  rename_i hlong _
  dsimp only
  split
  · rfl
  rename_i hleast
  split
  · rfl
  split
  · rfl
  have hlength : 2 ≤ (buf.getD 3 0).toNat := by
    rw [UInt8.lt_iff_toNat_lt] at hleast
    exact Nat.le_of_not_lt hleast
  obtain ⟨n, hn⟩ := Nat.exists_eq_add_of_le' hlength
  have hfour : buf.drop 4 = buf.getD 4 0 :: buf.drop 5 := by
    rw [List.drop_eq_getElem_cons (by omega : 4 < buf.length), List.getD_eq_getElem _ _ (by omega : 4 < buf.length)]
  simp only [Option.map_some, hn, hfour]
  rfl

variable {buf : List UInt8}

theorem tryParse_eq_some_iff {p : Parsed} :
    tryParseInstruction buf = some p ↔ decode buf = some ⟨p.id, p.instruction :: p.params, p.consumed⟩ := by
  rw [decode_eq_tryParse, Option.map_eq_some_iff]
  constructor
  · intro h
    exact ⟨p, h, rfl⟩
  rintro ⟨q, hq, heq⟩
  cases q
  cases p
  cases heq
  exact hq

theorem tryParse_eq_none_iff : tryParseInstruction buf = none ↔ decode buf = none := by
  rw [decode_eq_tryParse, Option.map_eq_none_iff]

theorem tryParse_packet {params : List UInt8} (id instr : UInt8) (h : params.length < 254) (rest : List UInt8) :
    tryParseInstruction (packet id instr params ++ rest) = some ⟨id, instr, params, params.length + 6⟩ :=
  tryParse_eq_some_iff.mpr (decode_packet id instr h rest)

theorem consumed_of_tryParse {p : Parsed} (h : tryParseInstruction buf = some p) :
    0 < p.consumed ∧ p.consumed ≤ buf.length := by
  unfold tryParseInstruction at h
  dsimp only at h
  iterate 5
    split at h
    · cases h
  cases h
  dsimp only
  omega

/-- What stands in a frame of either kind is read back, whatever follows it, and a part of a frame is read as nothing. -/
theorem frame_codec (id : JointId) (params : List UInt8) (hparams : params.length ≤ 253) (s : List UInt8) :
    (∀ instr : Instruction, tryParseInstruction (encode ⟨id, instr, params⟩ ++ s) =
      some ⟨id, instr.code, params, (encode ⟨id, instr, params⟩).length⟩) ∧
    (∀ err : UInt8, decode (packet id err params ++ s) = some ⟨id, err :: params, (packet id err params).length⟩) ∧
    (∀ instr : UInt8, ∀ n < (packet id instr params).length,
      tryParseInstruction ((packet id instr params).take n) = none ∧ decode ((packet id instr params).take n) = none) := by
  have hfits : params.length < 254 := Nat.lt_succ_of_le hparams
  refine ⟨fun instr => ?_, fun err => ?_, fun instr n hn => ?_⟩
  · rw [encode, tryParse_packet id instr.code hfits, length_packet]
  · rw [decode_packet id err hfits, length_packet]
  · rw [length_packet] at hn
    have hnone : decode ((packet id instr params).take n) = none := decode_take hfits hn
    exact ⟨tryParse_eq_none_iff.mpr hnone, hnone⟩

theorem frame_codec_torque :
    tryParseInstruction (encode (buildSetTorqueEnable 7 true) ++ [0xFF]) = some ⟨7, 0x03, [40, 1], 8⟩ ∧
      tryParseInstruction ((packet 7 0x03 [40, 1]).take 7) = none :=
  ⟨(frame_codec 7 [40, 1] (by decide) [0xFF]).1 .writeData, ((frame_codec 7 [40, 1] (by decide) []).2.2 0x03 7 (by decide)).1⟩

structure SimUart where
  model : ServoModel
  txAccum : List UInt8 := []
  rx : List UInt8 := []
  malformed : UInt32 := 0
  txMode : Bool := false

namespace SimUart

def respond (u : SimUart) (id : JointId) (params : List UInt8) : SimUart := { u with rx := u.rx ++ packet id 0x00 params }

def dispatch (u : SimUart) (f : Parsed) : SimUart :=
  let broadcast := f.id = 0xFE
  match Instruction.ofCode f.instruction with
  | some .ping => if ¬broadcast ∧ u.model.isPresent f.id then u.respond f.id [] else u
  | some .readData =>
    match f.params with
    | addr :: len :: _ =>
      if broadcast then u
      else
        match u.model.readRegs f.id addr len with
        | some data => u.respond f.id data
        | none => u
    | _ => u
  | some .writeData =>
    match f.params with
    | addr :: data =>
      -- broadcast writes are applied nowhere
      if broadcast then u
      else
        match u.model.writeReg f.id addr data with
        | (true, model) => { u with model }.respond f.id []
        | (false, model) => { u with model }
    | [] => u
  | some .syncWrite =>
    match f.params with
    | addr :: per :: data => { u with model := u.model.syncWriteRegs addr per.toNat data.length data }
    | _ => { u with malformed := u.malformed + 1 }
  | _ => u

/-- The loop of `SimUart::write`: packets at the front of what has been collected are carried out, and bytes that cannot start one are skipped. -/
def pump (u : SimUart) : SimUart :=
  if u.txAccum = [] then u
  else
    match _hparse : tryParseInstruction u.txAccum with
    | some f => pump { u.dispatch f with txAccum := u.txAccum.drop f.consumed }
    | none =>
      if 2 ≤ u.txAccum.length ∧ ¬(u.txAccum.getD 0 0 = 0xFF ∧ u.txAccum.getD 1 0 = 0xFF) then
        pump { u with malformed := u.malformed + 1, txAccum := u.txAccum.tail }
      else u
termination_by u.txAccum.length
decreasing_by
  · have hconsumed := consumed_of_tryParse _hparse
    rw [List.length_drop]
    omega
  · rename_i hlong
    rw [List.length_tail]
    omega

/-- The line returns what is written to it unless the bus is driving it. -/
def write (data : List UInt8) (u : SimUart) : Int × SimUart :=
  let u := if u.txMode then u else { u with rx := u.rx ++ data }
  (data.length, { u with txAccum := u.txAccum ++ data }.pump)

def read (n : Nat) (u : SimUart) : List UInt8 × SimUart := (u.rx.take n, { u with rx := u.rx.drop n })

def uart : Uart SimUart where
  write := write
  read := read
  setHalfDuplexDirection tx u := { u with txMode := tx }

structure Idle (u : SimUart) : Prop where
  txAccum : u.txAccum = []
  rx : u.rx = []

def oneServo : SimUart := { model := ⟨fun id => if id = 1 then some { regs := fun _ => 0 } else none⟩ }

def replyBytes (id : JointId) (reply : Option (List UInt8)) : List UInt8 :=
  match reply with
  | some (err :: params) => packet id err params
  | _ => []

def parsed (f : Frame) : Parsed := ⟨f.id, f.instruction.code, f.params, f.params.length + 6⟩

/-- Carrying out a frame is what the servo model does with it; the reply goes into the receive queue. -/
structure CarriesOut (u : SimUart) (f : Frame) (v : SimUart) : Prop where
  model : v.model = (u.model.dispatch f).2
  rx : v.rx = u.rx ++ replyBytes f.id (u.model.dispatch f).1
  txMode : v.txMode = u.txMode

variable {u : SimUart} {f : Frame}

theorem carriesOut_nothing (h : u.model.dispatch f = (none, u.model)) : CarriesOut u f u := by
  refine ⟨?_, ?_, rfl⟩
  · rw [h]
  · rw [h]
    exact (List.append_nil u.rx).symm

theorem carriesOut_dispatch (u : SimUart) (f : Frame) : CarriesOut u f (u.dispatch (parsed f)) := by
  obtain ⟨id, instruction, params⟩ := f
  cases instruction with
  | ping =>
    have hsim : u.dispatch (parsed ⟨id, .ping, params⟩) =
        if ¬id = 0xFE ∧ u.model.isPresent id = true then u.respond id [] else u := rfl
    rw [hsim]
    by_cases hanswers : ¬id = 0xFE ∧ u.model.isPresent id = true
    · have hdispatch : u.model.dispatch ⟨id, .ping, params⟩ = (some [0], u.model) :=
        congrArg (·, u.model) (if_pos hanswers)
      rw [if_pos hanswers]
      exact ⟨by rw [hdispatch]; rfl, by rw [hdispatch]; rfl, rfl⟩
    · rw [if_neg hanswers]
      exact carriesOut_nothing (congrArg (·, u.model) (if_neg hanswers))
  | readData =>
    match params with
    | [] => exact carriesOut_nothing rfl
    | [_] => exact carriesOut_nothing rfl
    | addr :: len :: more =>
      have hdispatch : u.model.dispatch ⟨id, .readData, addr :: len :: more⟩ =
          (if id = 0xFE then none else (u.model.readRegs id addr len).map (0 :: ·), u.model) := rfl
      have hsim : u.dispatch (parsed ⟨id, .readData, addr :: len :: more⟩) =
          if id = 0xFE then u
          else match u.model.readRegs id addr len with
            | some data => u.respond id data
            | none => u := rfl
      rw [hsim]
      by_cases hbroadcast : id = 0xFE
      · rw [if_pos hbroadcast] at hdispatch ⊢
        exact carriesOut_nothing hdispatch
      rw [if_neg hbroadcast] at hdispatch ⊢
      cases hread : u.model.readRegs id addr len with
      | none =>
        rw [hread] at hdispatch
        exact carriesOut_nothing hdispatch
      | some data =>
        rw [hread] at hdispatch
        exact ⟨by rw [hdispatch]; rfl, by rw [hdispatch]; rfl, rfl⟩
  | writeData =>
    match params with
    | [] => exact carriesOut_nothing rfl
    | addr :: data =>
      have hsim : u.dispatch (parsed ⟨id, .writeData, addr :: data⟩) =
          if id = 0xFE then u
          else match u.model.writeReg id addr data with
            | (true, model) => { u with model }.respond id []
            | (false, model) => { u with model } := rfl
      rw [hsim]
      by_cases hbroadcast : id = 0xFE
      · rw [if_pos hbroadcast]
        exact carriesOut_nothing (if_pos hbroadcast)
      have hdispatch : u.model.dispatch ⟨id, .writeData, addr :: data⟩ =
          (if (u.model.writeReg id addr data).1 then some [0] else none, (u.model.writeReg id addr data).2) :=
        if_neg hbroadcast
      rw [if_neg hbroadcast]
      rcases hwrite : u.model.writeReg id addr data with ⟨ok, model⟩
      rw [hwrite] at hdispatch
      cases ok with
      | true => exact ⟨by rw [hdispatch]; rfl, by rw [hdispatch]; rfl, rfl⟩
      | false => exact ⟨by rw [hdispatch], by rw [hdispatch]; exact (List.append_nil u.rx).symm, rfl⟩
  | syncWrite =>
    match params with
    | [] => exact ⟨rfl, (List.append_nil u.rx).symm, rfl⟩
    | [_] => exact ⟨rfl, (List.append_nil u.rx).symm, rfl⟩
    | addr :: per :: data => exact ⟨rfl, (List.append_nil u.rx).symm, rfl⟩
  | _ => exact carriesOut_nothing rfl

theorem pump_empty (h : u.txAccum = []) : u.pump = u := by
  rw [pump, if_pos h]

theorem pump_encode (hfits : f.params.length < 254) (htx : u.txAccum = encode f) :
    u.pump = { u.dispatch (parsed f) with txAccum := [] } := by
  have hparse : tryParseInstruction u.txAccum = some (parsed f) := by
    have hpacket := tryParse_packet f.id f.instruction.code hfits []
    rw [List.append_nil] at hpacket
    rw [htx, encode, hpacket]
    rfl
  have hlength : u.txAccum.length = f.params.length + 6 := by rw [htx, encode, length_packet]
  have hnonempty : u.txAccum ≠ [] := by
    intro hnil
    rw [hnil] at hlength
    cases hlength
  have hrest : u.txAccum.drop (parsed f).consumed = [] := List.drop_of_length_le hlength.le
  rw [pump, if_neg hnonempty]
  split
  · rename_i p hp
    cases hparse.symm.trans hp
    rw [hrest, pump_empty rfl]
  · rename_i hnone
    cases hparse.symm.trans hnone

theorem write_encode (hidle : u.Idle) (hfits : f.params.length < 254) :
    ∃ v : SimUart, (uart.write (encode f) (uart.setHalfDuplexDirection true u)) = (((encode f).length : Int), v) ∧
      v.model = (u.model.dispatch f).2 ∧ v.rx = replyBytes f.id (u.model.dispatch f).1 ∧ v.txAccum = [] := by
  have hwrite : uart.write (encode f) (uart.setHalfDuplexDirection true u) =
      (((encode f).length : Int), { u with txMode := true, txAccum := u.txAccum ++ encode f }.pump) := rfl
  have htx : u.txAccum ++ encode f = encode f := by rw [hidle.txAccum, List.nil_append]
  rw [hwrite, htx, pump_encode hfits rfl]
  obtain ⟨hmodel, hrx, -⟩ := carriesOut_dispatch { u with txMode := true, txAccum := encode f } f
  refine ⟨_, rfl, hmodel, hrx.trans ?_, rfl⟩
  change u.rx ++ _ = _
  rw [hidle.rx]
  rfl

def ShortReply (m : ServoModel) (f : Frame) : Prop := ∀ reply, (m.dispatch f).1 = some reply → reply.length ≤ 59

theorem reply_of_dispatch {m : ServoModel} {reply : List UInt8} (h : (m.dispatch f).1 = some reply) :
    ∃ err params, reply = err :: params := by
  unfold ServoModel.dispatch at h
  dsimp only at h
  split at h
  · split at h
    · exact ⟨0, [], (Option.some.inj h).symm⟩
    · cases h
  · split at h
    · cases h
    · obtain ⟨data, -, rfl⟩ := Option.map_eq_some_iff.mp h
      exact ⟨0, data, rfl⟩
  · split at h
    · cases h
    · split at h
      · exact ⟨0, [], (Option.some.inj h).symm⟩
      · cases h
  · cases h
  · cases h

theorem receive_reply {v : SimUart} {id : JointId} {reply : Option (List UInt8)}
    (hreply : ∀ r, reply = some r → ∃ err params, r = err :: params ∧ params.length ≤ 58)
    (hrx : v.rx = replyBytes id reply) (patience : Nat) :
    uart.receive patience [] v = (reply, { v with rx := [] }) := by
  cases reply with
  | none =>
    have hread : uart.read 64 v = ([], { v with rx := [] }) := by
      change (v.rx.take 64, { v with rx := v.rx.drop 64 }) = _
      rw [hrx]
      rfl
    exact Uart.receive_silent patience hread
  | some r =>
    obtain ⟨err, params, rfl, hshort⟩ := hreply r rfl
    have hlength : (packet id err params).length ≤ 64 := by
      rw [length_packet]
      omega
    have hread : uart.read 64 v = (packet id err params, { v with rx := [] }) := by
      change (v.rx.take 64, { v with rx := v.rx.drop 64 }) = _
      rw [hrx]
      exact Prod.ext (List.take_of_length_le hlength) (by simp only [replyBytes, List.drop_of_length_le hlength])
    have hdecode : decode ([] ++ packet id err params) = some ⟨id, err :: params, params.length + 6⟩ := by
      have hfits : params.length < 254 := by omega
      have hpacket := decode_packet id err hfits []
      rwa [List.append_nil] at hpacket
    rw [Uart.receive_found patience hread (List.cons_ne_nil _ _) hdecode]
    exact Prod.ext (congrArg some (strip_packet id err params)) rfl

/-- On an idle line an exchange is one frame carried out by the servo model, and leaves the line idle. -/
theorem exchange_refines (hidle : u.Idle) (hfits : f.params.length < 254)
    (hshort : ShortReply u.model f) (patience : Nat) :
    ∃ v : SimUart, (uart.wire patience).exchange u f = ((u.model.dispatch f).1, v) ∧ v.Idle ∧
      v.model = (u.model.dispatch f).2 := by
  obtain ⟨v, hwrite, hmodel, hrx, htx⟩ := write_encode hidle hfits
  have hexchange : (uart.wire patience).exchange u f = uart.receive patience [] { v with txMode := false } := by
    change uart.exchangeLocked patience (encode f) u = _
    rw [Uart.exchangeLocked, hwrite]
    exact if_neg (Int.lt_irrefl _)
  have hreply : ∀ r, (u.model.dispatch f).1 = some r → ∃ err params, r = err :: params ∧ params.length ≤ 58 := by
    intro r hr
    obtain ⟨err, params, rfl⟩ := reply_of_dispatch hr
    exact ⟨err, params, rfl, Nat.le_of_succ_le_succ (hshort _ hr)⟩
  refine ⟨{ v with txMode := false, rx := [] }, ?_, ⟨htx, rfl⟩, hmodel⟩
  rw [hexchange]
  exact receive_reply (v := { v with txMode := false }) hreply hrx patience

theorem sendNoReply_refines (hidle : u.Idle) (hfits : f.params.length < 254)
    (hquiet : (u.model.dispatch f).1 = none) (patience : Nat) :
    ∃ v : SimUart, (uart.wire patience).sendNoReply u f = (true, v) ∧ v.Idle ∧ v.model = (u.model.dispatch f).2 := by
  obtain ⟨v, hwrite, hmodel, hrx, htx⟩ := write_encode hidle hfits
  rw [hquiet] at hrx
  refine ⟨{ v with txMode := false }, ?_, ⟨htx, hrx⟩, hmodel⟩
  change uart.sendNoReplyLocked (encode f) u = _
  rw [Uart.sendNoReplyLocked, hwrite]
  exact Prod.ext (decide_eq_true (Int.le_refl _)) rfl

end SimUart

end Waypoint.Core
