import Mathlib.Logic.Function.Basic
import Waypoint.Base.Run
import Waypoint.Core.Servo.Codec

/-!
# Exchanges over the receive buffer

`Sts3215Bus::exchangeLocked` with the UART's receive side as a queue of bytes. A servo that was asked puts its status packet into the queue byte by byte, before the exchange that asked has given up, or after.
-/

namespace Waypoint.Core

open Base

/-- What a servo answers; the length byte has room for it. -/
structure Status where
  err : UInt8
  params : List UInt8
  fits : params.length < 254

def Status.packet (st : Status) (id : JointId) : List UInt8 := Core.packet id st.err st.params

def answerBytes (answer : Option Status) (id : JointId) : List UInt8 := (answer.map (·.packet id)).getD []

structure RxByte where
  request : Nat
  byte : UInt8
  deriving DecidableEq

def tagged (request : Nat) (bytes : List UInt8) : List RxByte := bytes.map (⟨request, ·⟩)

structure Exchange where
  number : Nat
  request : Frame
  resp : List RxByte

structure Returned where
  number : Nat
  request : Frame
  payload : List UInt8
  bytes : List RxByte
  deriving DecidableEq

/-- The line between the bus and the servos: requests sent, their answers, the bytes of each that are still to come, the receive queue, the exchange under way and what exchanges have returned. -/
structure Line where
  sent : Nat := 0
  answers : Nat → Option Status := fun _ => none
  outstanding : Nat → List UInt8 := fun _ => []
  rx : List RxByte := []
  current : Option Exchange := none
  returned : List Returned := []

inductive LineAction
  | request (f : Frame) (answer : Option Status)
  | writeFails (f : Frame)
  | sendNoReply (f : Frame)
  /-- the next byte of an answer reaches the queue -/
  | arrive (number : Nat)
  /-- `read` returns some bytes; `expired` is the check of the clock that follows -/
  | read (n : Nat) (expired : Bool)
  | readFails

namespace Line

def next (s : Line) : LineAction → Option Line
  | .request f answer =>
    if s.current = none then
      some { s with
        sent := s.sent + 1
        answers := Function.update s.answers s.sent answer
        outstanding := Function.update s.outstanding s.sent (answerBytes answer f.id)
        current := some ⟨s.sent, f, []⟩ }
    else none
  | .writeFails _ | .sendNoReply _ => if s.current = none then some s else none
  | .arrive number =>
    match s.outstanding number with
    | [] => none
    | b :: rest =>
      some { s with outstanding := Function.update s.outstanding number rest, rx := s.rx ++ [⟨number, b⟩] }
  | .read n expired =>
    match s.current with
    | none => none
    | some e =>
      if n = 0 ∨ 64 < n ∨ s.rx.length < n then none
      else
        let resp := e.resp ++ s.rx.take n
        let s := { s with rx := s.rx.drop n }
        match decode (resp.map (·.byte)) with
        | some dr =>
          -- the caller gets the error byte and the parameters; the rest of `resp` is dropped
          some { s with
            current := none
            returned := s.returned ++ [{
              number := e.number, request := e.request
              payload := ((resp.map (·.byte)).take (dr.consumed - 1)).drop 4
              bytes := resp.take dr.consumed }] }
        | none => some { s with current := if expired then none else some { e with resp } }
  | .readFails => if s.current = none then none else some { s with current := none }

/-- The answer is the one given to this request. -/
def Attributed (s : Line) (r : Returned) : Prop :=
  ∃ st, s.answers r.number = some st ∧ r.bytes = tagged r.number (st.packet r.request.id) ∧ r.payload = st.err :: st.params

/-- A request is written only when no earlier answer is in the queue or still to come. -/
def Settled (s : Line) : LineAction → Prop
  | .request _ _ => s.rx = [] ∧ ∀ k, s.outstanding k = []
  | _ => True

end Line

@[simp] theorem map_byte_tagged (number : Nat) (bytes : List UInt8) : (tagged number bytes).map (·.byte) = bytes := by
  simp [tagged, Function.comp_def]

@[simp] theorem length_tagged (number : Nat) (bytes : List UInt8) : (tagged number bytes).length = bytes.length :=
  List.length_map ..

theorem length_status (st : Status) (id : JointId) : (st.packet id).length = st.params.length + 6 :=
  length_packet id st.err st.params

theorem decode_status (st : Status) (id : JointId) :
    decode (st.packet id) = some ⟨id, st.err :: st.params, st.params.length + 6⟩ := by
  have hpacket := decode_packet id st.err st.fits []
  rwa [List.append_nil] at hpacket

theorem whole_of_decode {resp tail : List RxByte} {answer : Option Status} {number : Nat} {id : JointId}
    (hresp : resp ++ tail = tagged number (answerBytes answer id)) {dr : DecodeResult}
    (hdecode : decode (resp.map (·.byte)) = some dr) :
    ∃ st, answer = some st ∧ resp = tagged number (st.packet id) ∧ dr = ⟨id, st.err :: st.params, st.params.length + 6⟩ := by
  cases answer with
  | none =>
    rw [(List.append_eq_nil_iff.mp hresp).1] at hdecode
    cases hdecode
  | some st =>
    have hanswer : answerBytes (some st) id = st.packet id := rfl
    rw [hanswer] at hresp
    have hmap := congrArg (List.map (·.byte)) hresp
    have hlength := congrArg List.length hresp
    rw [map_byte_tagged, List.map_append] at hmap
    rw [List.length_append, length_tagged, length_status] at hlength
    have hwhole : ¬resp.length < st.params.length + 6 := by
      intro hpart
      have hfront : resp.map (·.byte) = (st.packet id).take resp.length := by
        rw [← hmap, List.take_left' (List.length_map ..)]
      rw [hfront, Status.packet, decode_take st.fits hpart] at hdecode
      cases hdecode
    have htail : tail = [] := List.length_eq_zero_iff.mp (by omega)
    rw [htail, List.append_nil] at hresp
    refine ⟨st, rfl, hresp, ?_⟩
    rw [hresp, map_byte_tagged, decode_status] at hdecode
    exact (Option.some.inj hdecode).symm

namespace Line

/-- The exchange under way has read the front of its own answer, and nothing else is on the line. -/
structure Follows (s : Line) (e : Exchange) : Prop where
  latest : s.sent = e.number + 1
  alone : ∀ k, k ≠ e.number → s.outstanding k = []
  answer : e.resp ++ s.rx ++ tagged e.number (s.outstanding e.number) =
    tagged e.number (answerBytes (s.answers e.number) e.request.id)

/-- Every answer handed out is that of its request. -/
structure Sound (s : Line) : Prop where
  current : ∀ e, s.current = some e → s.Follows e
  returned : ∀ r ∈ s.returned, r.number < s.sent ∧ s.Attributed r

variable {s t : Line}

theorem sound_request {f : Frame} {answer : Option Status} (h : s.Sound)
    (hsettled : s.Settled (.request f answer)) (hnext : s.next (.request f answer) = some t) : t.Sound := by
  obtain ⟨hrx, hquiet⟩ := hsettled
  simp only [next] at hnext
  split at hnext
  · cases hnext
    refine ⟨fun e he => ?_, fun r hr => ?_⟩
    · cases he
      refine ⟨rfl, fun k hk => (Function.update_of_ne hk _ _).trans (hquiet k), ?_⟩
      show [] ++ s.rx ++ tagged s.sent (Function.update s.outstanding s.sent (answerBytes answer f.id) s.sent) =
        tagged s.sent (answerBytes (Function.update s.answers s.sent answer s.sent) f.id)
      rw [hrx, Function.update_self, Function.update_self]
      rfl
    · obtain ⟨hearlier, st, hanswer, hread⟩ := h.returned r hr
      exact ⟨Nat.lt_succ_of_lt hearlier, st, (Function.update_of_ne (Nat.ne_of_lt hearlier) _ _).trans hanswer, hread⟩
  · cases hnext

theorem sound_arrive {number : Nat} (h : s.Sound) (hnext : s.next (.arrive number) = some t) : t.Sound := by
  simp only [next] at hnext
  split at hnext
  · cases hnext
  rename_i b rest houtstanding
  cases hnext
  refine ⟨fun e he => ?_, h.returned⟩
  obtain ⟨hlatest, halone, hanswer⟩ := h.current e he
  -- a byte that arrives is the next of the answer that is being waited for
  have hnumber : number = e.number := by
    by_contra hother
    rw [halone number hother] at houtstanding
    cases houtstanding
  subst hnumber
  refine ⟨hlatest, fun k hk => (Function.update_of_ne hk _ _).trans (halone k hk), ?_⟩
  show e.resp ++ (s.rx ++ [⟨e.number, b⟩]) ++ tagged e.number (Function.update s.outstanding e.number rest e.number) = _
  rw [Function.update_self, ← hanswer, houtstanding]
  simp [tagged]

theorem sound_read {n : Nat} {expired : Bool} (h : s.Sound) (hnext : s.next (.read n expired) = some t) :
    t.Sound := by
  simp only [next] at hnext
  split at hnext
  · cases hnext
  rename_i e he
  obtain ⟨hlatest, halone, hanswer⟩ := h.current e he
  have hread : e.resp ++ s.rx.take n ++ (s.rx.drop n ++ tagged e.number (s.outstanding e.number)) =
      tagged e.number (answerBytes (s.answers e.number) e.request.id) := by
    rw [← hanswer, List.append_assoc, ← List.append_assoc (s.rx.take n), List.take_append_drop, ← List.append_assoc]
  split at hnext
  · cases hnext
  split at hnext
  · rename_i dr hdecode
    cases hnext
    obtain ⟨st, hst, hwhole, rfl⟩ := whole_of_decode hread hdecode
    refine ⟨fun e' he' => (by cases he'), List.forall_mem_append.mpr ⟨h.returned, List.forall_mem_singleton.mpr ?_⟩⟩
    refine ⟨hlatest ▸ Nat.lt_succ_self _, st, hst, ?_, ?_⟩
    · rw [hwhole]
      apply List.take_of_length_le
      rw [length_tagged, length_status]
    · rw [hwhole, map_byte_tagged]
      exact strip_packet e.request.id st.err st.params
  · cases hnext
    refine ⟨fun e' he' => ?_, h.returned⟩
    split at he'
    · cases he'
    · cases he'
      exact ⟨hlatest, halone, (List.append_assoc ..).trans hread⟩

theorem sound_next {a : LineAction} (h : s.Sound) (hsettled : s.Settled a) (hnext : s.next a = some t) :
    t.Sound := by
  cases a with
  | request f answer => exact sound_request h hsettled hnext
  | arrive number => exact sound_arrive h hnext
  | read n expired => exact sound_read h hnext
  | readFails =>
    simp only [next] at hnext
    split at hnext
    · cases hnext
    · cases hnext
      exact ⟨fun e he => (by cases he), h.returned⟩
  | _ =>
    simp only [next] at hnext
    split at hnext
    · cases hnext
      exact h
    · cases hnext

end Line

/-- In every run in which each request is written on a settled line, an exchange returns what the addressed servo answered to that very request. -/
theorem replies_attributed {acts : List LineAction} {t : Line}
    (hrun : Run (Guarded Line.Settled (Takes Line.next)) {} acts t) : ∀ r ∈ t.returned, t.Attributed r := by
  have hinit : ({} : Line).Sound := ⟨fun e he => (by cases he), fun r hr => absurd hr List.not_mem_nil⟩
  have hsound := hrun.invariant Line.Sound (fun s a t h hstep => Line.sound_next h hstep.1 hstep.2) hinit
  exact fun r hr => (hsound.returned r hr).2

def ack : Status := ⟨0, [], by decide⟩

/-- Two exchanges; the answer of the second is read in two pieces. -/
def acknowledged : List LineAction :=
  .request (buildSetTorqueEnable 1 true) (some ack) :: List.replicate 6 (.arrive 0) ++ .read 6 false ::
    .request (buildSetTorqueEnable 2 true) (some ack) :: List.replicate 2 (.arrive 1) ++ .read 2 false ::
      List.replicate 4 (.arrive 1) ++ [.read 4 false]

theorem replies_attributed_acknowledged :
    ∃ t, Run (Guarded Line.Settled (Takes Line.next)) {} acknowledged t ∧ t.returned.length = 2 ∧
      ∀ r ∈ t.returned, t.Attributed r := by
  have hrun : ∃ t, Run (Guarded Line.Settled (Takes Line.next)) {} acknowledged t ∧ t.returned.length = 2 :=
    ⟨_, .cons ⟨⟨rfl, fun _ => rfl⟩, rfl⟩ (.cons ⟨trivial, rfl⟩ (.cons ⟨trivial, rfl⟩ (.cons ⟨trivial, rfl⟩
      (.cons ⟨trivial, rfl⟩ (.cons ⟨trivial, rfl⟩ (.cons ⟨trivial, rfl⟩ (.cons ⟨trivial, rfl⟩
      (.cons ⟨⟨rfl, fun k => by cases k <;> rfl⟩, rfl⟩ (.cons ⟨trivial, rfl⟩ (.cons ⟨trivial, rfl⟩ (.cons ⟨trivial, rfl⟩
      (.cons ⟨trivial, rfl⟩ (.cons ⟨trivial, rfl⟩ (.cons ⟨trivial, rfl⟩ (.cons ⟨trivial, rfl⟩ (.cons ⟨trivial, rfl⟩
      (.nil _))))))))))))))))), rfl⟩
  obtain ⟨t, hrun, hlength⟩ := hrun
  exact ⟨t, hrun, hlength, replies_attributed hrun⟩

def lateAck : List LineAction :=
  [.request (buildSetTorqueEnable 1 true) (some ack), .readFails] ++ List.replicate 6 (.arrive 0) ++
    [.request (buildSetTorqueEnable 2 true) none, .read 6 false]

theorem late_ack_taken_for_another :
    ∃ t, Run (Takes Line.next) {} lateAck t ∧ t.answers 1 = none ∧
      (⟨1, buildSetTorqueEnable 2 true, [0], tagged 0 (ack.packet 1)⟩ : Returned) ∈ t.returned := by
  refine ⟨_, run_takes_iff.mpr rfl, rfl, ?_⟩
  decide

end Waypoint.Core
