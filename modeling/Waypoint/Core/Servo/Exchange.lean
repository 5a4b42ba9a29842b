import Waypoint.Core.Servo.Bus
import Waypoint.Core.Servo.Uart

/-!
# Exchanges over a UART

`Sts3215Bus::exchangeLocked` over any UART: write the request, then read until the decoder finds a packet at the front of what was read, the line falls silent or the time is up.
-/

namespace Waypoint.Core

structure Uart (σ : Type) where
  write : List UInt8 → σ → Int × σ
  read : Nat → σ → List UInt8 × σ
  setHalfDuplexDirection : Bool → σ → σ

namespace Uart

variable {σ : Type} (u : Uart σ)

/-- The read loop. `patience` is the number of reads after the first that the clock has time for. -/
def receive (patience : Nat) (resp : List UInt8) (s : σ) : Option (List UInt8) × σ :=
  match u.read 64 s with
  | ([], s) => (none, s)
  | (chunk, s) =>
    let resp := resp ++ chunk
    match decode resp with
    | some dr => (some ((resp.take (dr.consumed - 1)).drop 4), s)
    | none =>
      match patience with
      | 0 => (none, s)
      | patience + 1 => receive patience resp s

variable {u} {s s' : σ} {resp chunk : List UInt8}

theorem receive_silent (patience : Nat) (hread : u.read 64 s = ([], s')) : u.receive patience resp s = (none, s') := by
  rw [receive.eq_def, hread]

theorem receive_found (patience : Nat) (hread : u.read 64 s = (chunk, s')) (hne : chunk ≠ []) {dr : DecodeResult}
    (hdecode : decode (resp ++ chunk) = some dr) :
    u.receive patience resp s = (some (((resp ++ chunk).take (dr.consumed - 1)).drop 4), s') := by
  obtain ⟨b, bytes, rfl⟩ := List.exists_cons_of_ne_nil hne
  rw [receive.eq_def, hread]
  dsimp only
  rw [hdecode]

theorem receive_again (patience : Nat) (hread : u.read 64 s = (chunk, s')) (hne : chunk ≠ [])
    (hdecode : decode (resp ++ chunk) = none) :
    u.receive (patience + 1) resp s = u.receive patience (resp ++ chunk) s' := by
  obtain ⟨b, bytes, rfl⟩ := List.exists_cons_of_ne_nil hne
  rw [receive.eq_def, hread]
  dsimp only
  rw [hdecode]

variable (u)

/-- A write that falls short leaves the line in its sending direction. -/
def exchangeLocked (patience : Nat) (req : List UInt8) (s : σ) : Option (List UInt8) × σ :=
  match u.write req (u.setHalfDuplexDirection true s) with
  | (n, s) =>
    if n < req.length then (none, s)
    else u.receive patience [] (u.setHalfDuplexDirection false s)

def sendNoReplyLocked (req : List UInt8) (s : σ) : Bool × σ :=
  match u.write req (u.setHalfDuplexDirection true s) with
  | (n, s) => (decide (n ≥ req.length), u.setHalfDuplexDirection false s)

def wire (patience : Nat) : Wire σ where
  exchange s f := u.exchangeLocked patience (encode f) s
  sendNoReply s f := u.sendNoReplyLocked (encode f) s

def scripted : Uart (List (List UInt8)) where
  write data chunks := (data.length, chunks)
  read _ chunks := (chunks.headD [], chunks.tail)
  setHalfDuplexDirection _ chunks := chunks

theorem scripted_exchangeLocked (patience : Nat) (req : List UInt8) (chunks : List (List UInt8)) :
    scripted.exchangeLocked patience req chunks = scripted.receive patience [] chunks :=
  if_neg (Int.lt_irrefl _)

end Uart

/-- The chunks are what reads of at most 64 bytes may return of a stream. -/
structure Split (chunks : List (List UInt8)) (stream : List UInt8) : Prop where
  flatten : chunks.flatten = stream
  nonempty : ∀ c ∈ chunks, c ≠ []
  short : ∀ c ∈ chunks, c.length ≤ 64

section Receive

variable {id instr : UInt8} {params : List UInt8}

theorem receive_packet (hfits : params.length < 254) {chunks : List (List UInt8)} (hchunks : ∀ c ∈ chunks, c ≠ [])
    {resp rest : List UInt8} (hstream : resp ++ chunks.flatten = packet id instr params ++ rest)
    (hresp : resp.length < params.length + 6) {patience : Nat} (htime : chunks.length ≤ patience + 1) :
    (Uart.scripted.receive patience resp chunks).1 = some (instr :: params) := by
  induction chunks generalizing resp patience with
  | nil =>
    have hlength := congrArg List.length hstream
    rw [List.flatten_nil, List.append_nil, List.length_append, length_packet] at hlength
    omega
  | cons chunk chunks ih =>
    rw [List.forall_mem_cons] at hchunks
    rw [List.flatten_cons, ← List.append_assoc] at hstream
    have hread : Uart.scripted.read 64 (chunk :: chunks) = (chunk, chunks) := rfl
    by_cases hwhole : (resp ++ chunk).length < params.length + 6
    · -- a part of the packet: the loop goes on, and there is more to read
      have hpart : resp ++ chunk = (packet id instr params).take (resp ++ chunk).length := by
        have htake := congrArg (List.take (resp ++ chunk).length) hstream
        rwa [List.take_left, List.take_append_of_le_length (by rw [length_packet]; omega)] at htake
      have hdecode : decode (resp ++ chunk) = none := by rw [hpart, decode_take hfits hwhole]
      cases patience with
      | zero =>
        have hnil : chunks = [] := List.length_eq_zero_iff.mp (Nat.le_zero.mp (Nat.le_of_succ_le_succ htime))
        have hlength := congrArg List.length hstream
        rw [hnil, List.flatten_nil, List.append_nil, List.length_append, List.length_append,
          length_packet] at hlength
        rw [List.length_append] at hwhole
        omega
      | succ patience =>
        rw [Uart.receive_again patience hread hchunks.1 hdecode]
        exact ih hchunks.2 hstream hwhole (Nat.le_of_succ_le_succ htime)
    · obtain ⟨after, hafter⟩ : packet id instr params <+: resp ++ chunk := by
        refine List.prefix_of_prefix_length_le ⟨rest, hstream.symm⟩ (List.prefix_append _ chunks.flatten) ?_
        rw [length_packet]
        omega
      have hdecode : decode (resp ++ chunk) = some ⟨id, instr :: params, params.length + 6⟩ := by
        rw [← hafter, decode_packet id instr hfits]
      rw [Uart.receive_found patience hread hchunks.1 hdecode, ← hafter]
      have htake : (packet id instr params ++ after).take (params.length + 6 - 1) =
          (packet id instr params).take (params.length + 5) :=
        List.take_append_of_le_length (by rw [length_packet]; omega)
      rw [htake, strip_packet]

end Receive

inductive ServoRequest
  | ping
  | readPosition
  | readStateBlock
  | readMode
  | setGoalSpeed (signedSpeed : Int)
  | setTorqueEnable (on : Bool)
  | setMode (mode : UInt8)
  | setGoalPosition (raw : UInt16)
  | setTorqueLimit (raw : UInt16)
  | setAngleLimits (minRaw maxRaw : UInt16)
  | setEEPROMLock (locked : Bool)
  | writeByte (reg value : UInt8)
  | writeWord (reg : UInt8) (value : UInt16)

def ServoRequest.build (id : JointId) : ServoRequest → Frame
  | ping => buildPing id
  | readPosition => buildReadPosition id
  | readStateBlock => buildReadStateBlock id
  | readMode => buildReadMode id
  | setGoalSpeed signedSpeed => buildSetGoalSpeed id signedSpeed
  | setTorqueEnable on => buildSetTorqueEnable id on
  | setMode mode => buildSetMode id mode
  | setGoalPosition raw => buildSetGoalPosition id raw
  | setTorqueLimit raw => buildSetTorqueLimit id raw
  | setAngleLimits minRaw maxRaw => buildSetAngleLimits id minRaw maxRaw
  | setEEPROMLock locked => buildSetEEPROMLock id locked
  | writeByte reg value => buildWriteByte id reg value
  | writeWord reg value => buildWriteWord id reg value

theorem ServoRequest.build_params (r : ServoRequest) (id : JointId) : (r.build id).params.length < 254 := by
  cases r <;> exact Nat.le_of_ble_eq_true rfl

def answerPayload (answer : Option Status) : Option (List UInt8) := answer.map fun st => st.err :: st.params

def Frame.echoPayload (f : Frame) : List UInt8 := f.instruction.code :: f.params

def received (echo : Bool) (f : Frame) (answer : Option Status) : List UInt8 :=
  (if echo then encode f else []) ++ answerBytes answer f.id

variable {answer : Option Status} {chunks : List (List UInt8)} {patience : Nat}

theorem receive_answer {id : JointId}
    (hsplit : Split chunks (answerBytes answer id)) (htime : chunks.length ≤ patience + 1) :
    (Uart.scripted.receive patience [] chunks).1 = answerPayload answer := by
  cases answer with
  | none =>
    have hnil : chunks = [] := by
      cases chunks with
      | nil => rfl
      | cons c chunks =>
        have hempty := (List.append_eq_nil_iff.mp hsplit.flatten).1
        exact absurd hempty (hsplit.nonempty c List.mem_cons_self)
    have hsilent : Uart.scripted.read 64 [] = ([], []) := rfl
    rw [hnil, Uart.receive_silent patience hsilent]
    rfl
  | some st =>
    have hstream : [] ++ chunks.flatten = packet id st.err st.params ++ [] := by
      rw [List.append_nil, List.nil_append]
      exact hsplit.flatten
    exact receive_packet st.fits hsplit.nonempty hstream (by simp) htime

theorem receive_echo {f : Frame} (hfits : f.params.length < 254)
    (hsplit : Split chunks (received true f answer)) (htime : chunks.length ≤ patience + 1) :
    (Uart.scripted.receive patience [] chunks).1 = some f.echoPayload :=
  receive_packet hfits hsplit.nonempty hsplit.flatten (by simp) htime

/-- A stream that starts with an echo gives the echo's own bytes, so the caller gets the answer exactly if nothing is echoed or the answer says what the request says. -/
theorem echo_tolerated_iff (id : JointId) (r : ServoRequest) (answer : Option Status) (echo : Bool)
    (chunks : List (List UInt8)) (hsplit : Split chunks (received echo (r.build id) answer)) (patience : Nat)
    (htime : chunks.length ≤ patience + 1) :
    ((Uart.scripted.exchangeLocked patience (encode (r.build id)) chunks).1 = answerPayload answer ↔
      echo = false ∨ answerPayload answer = some (r.build id).echoPayload) ∧
    (r = .ping → answer = none → ∀ log,
      (((Bus.ping (Uart.scripted.wire patience) id).run ⟨chunks, log⟩).1 = -1 ↔ echo = false)) := by
  have hexchange : (Uart.scripted.exchangeLocked patience (encode (r.build id)) chunks).1 =
      if echo then some (r.build id).echoPayload else answerPayload answer := by
    rw [Uart.scripted_exchangeLocked]
    cases echo with
    | true => exact receive_echo (r.build_params id) hsplit htime
    | false => exact receive_answer hsplit htime
  constructor
  · rw [hexchange]
    cases echo with
    | true => exact ⟨fun h => .inr h.symm, fun h => (h.resolve_left Bool.noConfusion).symm⟩
    | false => exact ⟨fun _ => .inl rfl, fun _ => rfl⟩
  · rintro rfl rfl log
    have hping : ((Bus.ping (Uart.scripted.wire patience) id).run ⟨chunks, log⟩).1 =
        if (Uart.scripted.exchangeLocked patience (encode (buildPing id)) chunks).1.isSome then 0 else -1 := rfl
    rw [hping, show buildPing id = ServoRequest.ping.build id from rfl, hexchange]
    cases echo with
    | true => exact ⟨fun h => absurd h (by decide : (0 : Int) ≠ -1), fun h => Bool.noConfusion h⟩
    | false => exact ⟨fun _ => rfl, fun _ => rfl⟩

theorem echo_tolerated_iff_quiet :
    (Uart.scripted.exchangeLocked 1 (encode (buildReadPosition 1))
      [[0xFF, 0xFF, 0x01], [0x04, 0x00, 0x00, 0x08, 0xF2]]).1 = some [0x00, 0x00, 0x08] :=
  (echo_tolerated_iff 1 .readPosition (some ⟨0, [0x00, 0x08], by decide⟩) false
    [[0xFF, 0xFF, 0x01], [0x04, 0x00, 0x00, 0x08, 0xF2]] ⟨by decide, by decide, by decide⟩ 1 (by decide)).1.mpr (.inl rfl)

/-- On a line that echoes, a ping is answered whether or not there is a servo. -/
theorem absent_servo_pinged :
    ((Bus.ping (Uart.scripted.wire 1) 1).run ⟨[encode (buildPing 1)], []⟩).1 = 0 ∧
      ((Bus.ping (Uart.scripted.wire 1) 1).run ⟨[], []⟩).1 = -1 := by
  decide +kernel

end Waypoint.Core
