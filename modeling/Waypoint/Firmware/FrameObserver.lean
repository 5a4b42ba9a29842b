import Mathlib.Logic.Function.Basic
import Waypoint.Base.Run
import Waypoint.Core.Servo.Codec

/-!
# The frame observer of the servo relay

`firmware/servo-relay/main/frame_observer.c` and `counters.c`: the relay passes bytes between the Pi and the servo bus.
-/

namespace Waypoint.Firmware

open Base

inductive Dir
  | piToServo
  | servoToPi
  deriving DecidableEq

structure Counters where
  framesOk : UInt32 := 0
  framesBadChecksum : UInt32 := 0
  framesTruncated : UInt32 := 0
  framesResync : UInt32 := 0
  bytesTotal : UInt32 := 0
  deriving DecidableEq

namespace Counters

variable (c : Counters)

def incFramesOk : Counters := { c with framesOk := c.framesOk + 1 }

def incFramesBadChecksum : Counters := { c with framesBadChecksum := c.framesBadChecksum + 1 }

def incFramesTruncated : Counters := { c with framesTruncated := c.framesTruncated + 1 }

def incFramesResync : Counters := { c with framesResync := c.framesResync + 1 }

def addBytes (n : UInt32) : Counters := { c with bytesTotal := c.bytesTotal + n }

end Counters

inductive FoState
  | huntFf1
  | huntFf2
  | readId
  | readLength
  | readPayload
  deriving DecidableEq

structure DirState where
  state : FoState := .huntFf1
  id : UInt8 := 0
  length : UInt8 := 0
  remaining : UInt8 := 0
  sum : UInt32 := 0
  lastByteUs : UInt64 := 0

/-- `reset_dir`: the stamp of the last byte stays. -/
def DirState.reset (d : DirState) : DirState :=
  { d with state := .huntFf1, id := 0, length := 0, remaining := 0, sum := 0 }

def maxLength : UInt8 := 64

def timeoutUs : UInt64 := 5000

structure Lane where
  dir : DirState := {}
  counters : Counters := {}

namespace Lane

def feedByte (l : Lane) (b : UInt8) : Lane :=
  match l.dir.state with
  | .huntFf1 => if b = 0xFF then { l with dir := { l.dir with state := .huntFf2 } } else l
  | .huntFf2 => { l with dir := { l.dir with state := if b = 0xFF then .readId else .huntFf1 } }
  | .readId => { l with dir := { l.dir with id := b, sum := b.toUInt32, state := .readLength } }
  | .readLength =>
    if b < 2 ∨ b > maxLength then { dir := l.dir.reset, counters := l.counters.incFramesTruncated }
    else
      { l with dir := { l.dir with length := b, sum := l.dir.sum + b.toUInt32, remaining := b, state := .readPayload } }
  | .readPayload =>
    if l.dir.remaining > 1 then
      { l with dir := { l.dir with sum := l.dir.sum + b.toUInt32, remaining := l.dir.remaining - 1 } }
    else
      let expected := (~~~(l.dir.sum &&& 0xFF)).toUInt8
      { dir := l.dir.reset
        counters := if b = expected then l.counters.incFramesOk else l.counters.incFramesBadChecksum }

def feed (now : UInt64) (buf : List UInt8) (l : Lane) : Lane :=
  let l := buf.foldl feedByte { l with counters := l.counters.addBytes (UInt32.ofNat buf.length) }
  if buf = [] then l else { l with dir := { l.dir with lastByteUs := now } }

/-- The test of `frame_observer_tick`; the age is an unsigned difference. -/
def timedOut (l : Lane) (now : UInt64) : Bool := l.dir.state ≠ .huntFf1 && now - l.dir.lastByteUs > timeoutUs

def tick (now : UInt64) (l : Lane) : Lane :=
  if l.timedOut now then { dir := l.dir.reset, counters := l.counters.incFramesTruncated.incFramesResync } else l

end Lane

structure Observer where
  lanes : Dir → Lane := fun _ => {}
  nowUs : UInt64 := 0

inductive ObserverCall
  | feed (dir : Dir) (buf : List UInt8)
  | tick (nowUs : UInt64)

namespace Observer

def feed (dir : Dir) (buf : List UInt8) (o : Observer) : Observer :=
  { o with lanes := Function.update o.lanes dir ((o.lanes dir).feed o.nowUs buf) }

def tick (nowUs : UInt64) (o : Observer) : Observer where
  lanes dir := (o.lanes dir).tick nowUs
  nowUs := nowUs

def call (o : Observer) : ObserverCall → Observer
  | .feed dir buf => o.feed dir buf
  | .tick nowUs => o.tick nowUs

end Observer

namespace Lane

open Waypoint.Core

variable {l : Lane}

theorem feedByte_payload (h : l.dir.state = .readPayload) (hmore : l.dir.remaining > 1) (b : UInt8) :
    l.feedByte b =
      { l with dir := { l.dir with sum := l.dir.sum + b.toUInt32, remaining := l.dir.remaining - 1 } } := by
  rw [feedByte, h]
  exact if_pos hmore

theorem feedByte_ok (h : l.dir.state = .readPayload) (hlast : ¬l.dir.remaining > 1) {b : UInt8}
    (hsum : b = (~~~(l.dir.sum &&& 0xFF)).toUInt8) :
    l.feedByte b = { dir := l.dir.reset, counters := l.counters.incFramesOk } := by
  rw [feedByte, h]
  exact (if_neg hlast).trans (congrArg _ (if_pos hsum))

theorem feedByte_bad (h : l.dir.state = .readPayload) (hlast : ¬l.dir.remaining > 1) {b : UInt8}
    (hsum : b ≠ (~~~(l.dir.sum &&& 0xFF)).toUInt8) :
    l.feedByte b = { dir := l.dir.reset, counters := l.counters.incFramesBadChecksum } := by
  rw [feedByte, h]
  exact (if_neg hlast).trans (congrArg _ (if_neg hsum))

theorem foldl_payload (bytes : List UInt8) (h : l.dir.state = .readPayload)
    (hremaining : l.dir.remaining.toNat = bytes.length + 1) :
    bytes.foldl feedByte l =
      { l with dir := { l.dir with sum := l.dir.sum + (bytes.map UInt8.toUInt32).sum, remaining := 1 } } := by
  induction bytes generalizing l with
  | nil =>
    have hone : l.dir.remaining = 1 := UInt8.toNat_inj.mp hremaining
    obtain ⟨⟨state, id, length, remaining, sum, lastByteUs⟩, counters⟩ := l
    dsimp only at hone
    subst hone
    simp
  | cons b bytes ih =>
    have hmore : l.dir.remaining > 1 := by
      rw [gt_iff_lt, UInt8.lt_iff_toNat_lt, hremaining, List.length_cons]
      show 1 < bytes.length + 1 + 1
      omega
    rw [List.foldl_cons, feedByte_payload h hmore]
    refine (ih ?_ ?_).trans ?_
    · exact h
    · show (l.dir.remaining - 1).toNat = _
      rw [UInt8.toNat_sub_of_le _ _ (UInt8.le_of_lt hmore), hremaining, List.length_cons]
      show bytes.length + 1 + 1 - 1 = _
      omega
    · rw [List.map_cons, List.sum_cons, ← UInt32.add_assoc]

theorem toUInt8_sum (bytes : List UInt8) : (bytes.map UInt8.toUInt32).sum.toUInt8 = bytes.sum := by
  induction bytes with
  | nil => rfl
  | cons b bytes ih => rw [List.map_cons, List.sum_cons, UInt32.toUInt8_add, ih, List.sum_cons, UInt8.toUInt8_toUInt32]

theorem expected_eq (id length instr : UInt8) (params : List UInt8) :
    (~~~((id.toUInt32 + length.toUInt32 + ((instr :: params).map UInt8.toUInt32).sum) &&& 0xFF)).toUInt8 =
      checksum id length instr params := by
  rw [checksum, UInt32.toUInt8_not, UInt32.toUInt8_and, UInt32.toUInt8_add, UInt32.toUInt8_add, toUInt8_sum,
    UInt8.toUInt8_toUInt32, UInt8.toUInt8_toUInt32, List.sum_cons, ← UInt8.add_assoc]
  show ~~~(_ &&& (-1 : UInt8)) = _
  rw [UInt8.and_neg_one]

theorem foldl_header (h : l.dir.state = .huntFf1) (id : UInt8) {length : UInt8} (hadmitted : ¬(length < 2 ∨ length > maxLength)) :
    [0xFF, 0xFF, id, length].foldl feedByte l =
      { l with dir := { state := .readPayload, id := id, length := length, remaining := length
                        sum := id.toUInt32 + length.toUInt32, lastByteUs := l.dir.lastByteUs } } := by
  obtain ⟨⟨state, id', length', remaining, sum, lastByteUs⟩, counters⟩ := l
  dsimp only at h
  subst h
  exact if_neg hadmitted

theorem foldl_packet (h : l.dir.state = .huntFf1) {p : Packet} (hshort : p.params.length + 2 ≤ maxLength.toNat) :
    p.bytes.foldl feedByte l = { dir := l.dir.reset, counters := l.counters.incFramesOk } := by
  obtain ⟨id, instr, params, hfits⟩ := p
  have hlength := toNat_length hfits
  have hadmitted : ¬(UInt8.ofNat (params.length + 2) < 2 ∨ UInt8.ofNat (params.length + 2) > maxLength) := by
    rw [gt_iff_lt, UInt8.lt_iff_toNat_lt, UInt8.lt_iff_toNat_lt, hlength]
    show ¬(params.length + 2 < 2 ∨ maxLength.toNat < params.length + 2)
    dsimp only at hshort
    omega
  have hbytes : Packet.bytes ⟨id, instr, params, hfits⟩ =
      [0xFF, 0xFF, id, UInt8.ofNat (params.length + 2)] ++ (instr :: params) ++
        [checksum id (UInt8.ofNat (params.length + 2)) instr params] := by
    simp [Packet.bytes, packet]
  rw [hbytes, List.foldl_append, List.foldl_append, foldl_header h id hadmitted, foldl_payload (instr :: params) rfl hlength,
    ← expected_eq, List.foldl_cons, List.foldl_nil]
  apply feedByte_ok
  · rfl
  · exact (by decide : ¬(1 : UInt8) > 1)
  · rfl

theorem foldl_packets (h : l.dir.state = .huntFf1) {ps : List Packet}
    (hshort : ∀ p ∈ ps, p.params.length + 2 ≤ maxLength.toNat) :
    ((ps.flatMap Packet.bytes).foldl feedByte l).dir.state = .huntFf1 ∧
      ((ps.flatMap Packet.bytes).foldl feedByte l).counters =
        { l.counters with framesOk := l.counters.framesOk + UInt32.ofNat ps.length } := by
  induction ps generalizing l with
  | nil => exact ⟨h, by simp⟩
  | cons p ps ih =>
    rw [List.forall_mem_cons] at hshort
    rw [List.flatMap_cons, List.foldl_append, foldl_packet h hshort.1]
    obtain ⟨hstate, hcounters⟩ := ih (l := { dir := l.dir.reset, counters := l.counters.incFramesOk }) rfl hshort.2
    refine ⟨hstate, hcounters.trans ?_⟩
    simp only [Counters.incFramesOk, List.length_cons, UInt32.ofNat_add]
    rw [UInt32.add_assoc, UInt32.add_comm 1]
    rfl

def restamp (l : Lane) (bytes : UInt32) (stamp : UInt64) : Lane where
  dir := { l.dir with lastByteUs := stamp }
  counters := { l.counters with bytesTotal := bytes }

theorem feedByte_restamp (l : Lane) (bytes : UInt32) (stamp : UInt64) (b : UInt8) :
    (l.restamp bytes stamp).feedByte b = (l.feedByte b).restamp bytes stamp := by
  have hsame : (l.restamp bytes stamp).dir.state = l.dir.state := rfl
  cases hstate : l.dir.state with
  | huntFf1 | readLength =>
    simp only [feedByte, hsame, hstate]
    split <;> rfl
  | huntFf2 | readId =>
    simp only [feedByte, hsame, hstate]
    rfl
  | readPayload =>
    rw [hstate] at hsame
    by_cases hmore : l.dir.remaining > 1
    · rw [feedByte_payload hstate hmore, feedByte_payload hsame hmore]
      rfl
    by_cases hsum : b = (~~~(l.dir.sum &&& 0xFF)).toUInt8
    · rw [feedByte_ok hstate hmore hsum, feedByte_ok hsame hmore hsum]
      rfl
    · rw [feedByte_bad hstate hmore hsum, feedByte_bad hsame hmore hsum]
      rfl

theorem foldl_restamp (l : Lane) (bytes : UInt32) (stamp : UInt64) (buf : List UInt8) :
    buf.foldl feedByte (l.restamp bytes stamp) = (buf.foldl feedByte l).restamp bytes stamp := by
  induction buf generalizing l with
  | nil => rfl
  | cons b buf ih => rw [List.foldl_cons, feedByte_restamp, ih, List.foldl_cons]

theorem feed_eq (now : UInt64) (buf : List UInt8) (l : Lane) :
    l.feed now buf = (buf.foldl feedByte l).restamp (l.counters.bytesTotal + UInt32.ofNat buf.length)
      (if buf = [] then l.dir.lastByteUs else now) := by
  have hcount : { l with counters := l.counters.addBytes (UInt32.ofNat buf.length) } =
      l.restamp (l.counters.bytesTotal + UInt32.ofNat buf.length) l.dir.lastByteUs := rfl
  rw [feed, hcount, foldl_restamp]
  split <;> rfl

theorem tick_of_recent {now : UInt64} (hstamp : l.dir.state ≠ .huntFf1 → l.dir.lastByteUs ≤ now)
    (hrecent : l.dir.state ≠ .huntFf1 → now.toNat ≤ l.dir.lastByteUs.toNat + 5000) : l.tick now = l := by
  rw [tick, if_neg]
  intro hout
  simp only [timedOut, Bool.and_eq_true, decide_eq_true_eq] at hout
  obtain ⟨hstate, hage⟩ := hout
  have hlate := hrecent hstate
  rw [gt_iff_lt, UInt64.lt_iff_toNat_lt, UInt64.toNat_sub_of_le _ _ (hstamp hstate)] at hage
  change 5000 < _ at hage
  omega

end Lane

namespace Observer

variable {dir : Dir} {o : Observer}

def fedIn (dir : Dir) : List ObserverCall → List UInt8
  | [] => []
  | .feed d buf :: calls => (if d = dir then buf else []) ++ fedIn dir calls
  | .tick _ :: calls => fedIn dir calls

/-- Ticks do not go back, and none times out a frame under way in the direction. -/
def Timely (dir : Dir) (o : Observer) : ObserverCall → Prop
  | .feed _ _ => True
  | .tick nowUs =>
    o.nowUs ≤ nowUs ∧
      ((o.lanes dir).dir.state ≠ .huntFf1 → nowUs.toNat ≤ (o.lanes dir).dir.lastByteUs.toNat + 5000)

/-- The last byte of a frame under way is not stamped later than now. -/
def Stamped (dir : Dir) (o : Observer) : Prop :=
  (o.lanes dir).dir.state ≠ .huntFf1 → (o.lanes dir).dir.lastByteUs ≤ o.nowUs

theorem lanes_feed_self (dir : Dir) (buf : List UInt8) (o : Observer) :
    (o.feed dir buf).lanes dir = (o.lanes dir).feed o.nowUs buf := Function.update_self ..

theorem lanes_feed_of_ne {d : Dir} (h : dir ≠ d) (buf : List UInt8) (o : Observer) :
    (o.feed d buf).lanes dir = o.lanes dir := Function.update_of_ne h ..

theorem stamped_feed (h : Stamped dir o) (d : Dir) (buf : List UInt8) : Stamped dir (o.feed d buf) := by
  unfold Stamped
  by_cases hdir : dir = d
  · subst hdir
    rw [lanes_feed_self, Lane.feed_eq]
    by_cases hempty : buf = []
    · subst hempty
      exact h
    · rw [if_neg hempty]
      exact fun _ => UInt64.le_refl _
  · rw [lanes_feed_of_ne hdir]
    exact h

/-- Timely ticks and the bytes of the other direction do nothing to a direction, so its lane is what its bytes make of it. -/
theorem lane_calls {calls : List ObserverCall} (hstamped : Stamped dir o) (htimely : Along call (Timely dir) o calls) :
    ∃ stamp, (calls.foldl call o).lanes dir = ((fedIn dir calls).foldl Lane.feedByte (o.lanes dir)).restamp
      ((o.lanes dir).counters.bytesTotal + UInt32.ofNat (fedIn dir calls).length) stamp := by
  induction calls generalizing o with
  | nil =>
    refine ⟨(o.lanes dir).dir.lastByteUs, ?_⟩
    simp [fedIn, Lane.restamp]
  | cons c calls ih =>
    rw [along_cons] at htimely
    cases c with
    | feed d buf =>
      obtain ⟨stamp, hlane⟩ := ih (stamped_feed hstamped d buf) htimely.2
      refine ⟨stamp, hlane.trans ?_⟩
      by_cases hdir : d = dir
      · subst hdir
        rw [lanes_feed_self, Lane.feed_eq, Lane.foldl_restamp, fedIn, if_pos rfl, List.foldl_append,
          List.length_append, UInt32.ofNat_add, ← UInt32.add_assoc]
        rfl
      · rw [lanes_feed_of_ne (Ne.symm hdir), fedIn, if_neg hdir, List.nil_append]
    | tick nowUs =>
      obtain ⟨⟨hclock, hrecent⟩, htimely⟩ := htimely
      have hsame : (o.call (.tick nowUs)).lanes dir = o.lanes dir :=
        Lane.tick_of_recent (fun h => UInt64.le_trans (hstamped h) hclock) hrecent
      have hstamped' : Stamped dir (o.call (.tick nowUs)) := by
        intro hstate
        rw [hsame] at hstate ⊢
        exact UInt64.le_trans (hstamped hstate) hclock
      obtain ⟨stamp, hlane⟩ := ih hstamped' htimely
      rw [hsame] at hlane
      exact ⟨stamp, hlane⟩

open Waypoint.Core

/-- However the packets of a direction are cut, and whatever goes the other way: each of them is counted once, and
nothing else is counted but the bytes. -/
theorem packets_counted (dir : Dir) (o : Observer) (hhunt : (o.lanes dir).dir.state = .huntFf1) (ps : List Packet)
    (hshort : ∀ p ∈ ps, p.params.length + 2 ≤ maxLength.toNat) (calls : List ObserverCall)
    (hfed : fedIn dir calls = ps.flatMap Packet.bytes) (htimely : Along call (Timely dir) o calls) :
    ((calls.foldl call o).lanes dir).dir.state = .huntFf1 ∧
      ((calls.foldl call o).lanes dir).counters = { (o.lanes dir).counters with
        framesOk := (o.lanes dir).counters.framesOk + UInt32.ofNat ps.length
        bytesTotal := (o.lanes dir).counters.bytesTotal + UInt32.ofNat (ps.flatMap Packet.bytes).length } := by
  obtain ⟨stamp, hlane⟩ := lane_calls (fun h => absurd hhunt h) htimely
  obtain ⟨hstate, hcounters⟩ := Lane.foldl_packets hhunt hshort
  rw [hlane, hfed]
  refine ⟨hstate, ?_⟩
  simp only [Lane.restamp, hcounters]

theorem packets_counted_pings :
    (([ObserverCall.tick 100, .feed .piToServo [0xFF, 0xFF, 0x01], .feed .servoToPi [0xFF, 0xFF, 0x00], .tick 5100,
      .feed .piToServo [0x02, 0x01, 0xFB, 0xFF, 0xFF, 0x02, 0x02, 0x01, 0xFA]].foldl call {}).lanes .piToServo).counters =
      { framesOk := 2, bytesTotal := 12 } :=
  (packets_counted .piToServo {} rfl [⟨1, 1, [], by decide⟩, ⟨2, 1, [], by decide⟩] (by decide)
    [.tick 100, .feed .piToServo [0xFF, 0xFF, 0x01], .feed .servoToPi [0xFF, 0xFF, 0x00], .tick 5100,
      .feed .piToServo [0x02, 0x01, 0xFB, 0xFF, 0xFF, 0x02, 0x02, 0x01, 0xFA]] (by decide)
    ⟨⟨by decide, by decide⟩, trivial, trivial, ⟨by decide, by decide⟩, trivial, trivial⟩).2

end Observer

end Waypoint.Firmware
