import Mathlib.Data.List.Sort
import Waypoint.Base.Run
import Waypoint.Core.Nats.Parser

/-!
# Reconnecting

`nats/Connection.cpp` under its threads. The reader thread, on a transport that has failed, connects anew, takes a snapshot of the subscriptions, and then writes CONNECT and a SUB for each of them in one go.
-/

namespace Waypoint.Core.Nats

open Base

def serializeConnect (verbose pedantic : Bool) : List UInt8 :=
  ascii "CONNECT \x7b\"verbose\":" ++ ascii (if verbose then "true" else "false") ++
    ascii ",\"pedantic\":" ++ ascii (if pedantic then "true" else "false") ++
    ascii ",\"name\":\"waypoint-core\",\"lang\":\"cpp\",\"version\":\"0.4.0\"\x7d" ++ crlf

def serializePub (subject reply data : List UInt8) : List UInt8 :=
  ascii "PUB " ++ subject ++ (if reply.isEmpty then [] else ascii " " ++ reply) ++
    ascii " " ++ decimal data.length ++ crlf ++ data ++ crlf

def serializeSub (subject sid : List UInt8) : List UInt8 :=
  ascii "SUB " ++ subject ++ ascii " " ++ sid ++ crlf

def serializePong : List UInt8 := ascii "PONG" ++ crlf

structure Sub where
  sid : Nat
  subject : List UInt8
  deriving DecidableEq

def Sub.line (x : Sub) : List UInt8 := serializeSub x.subject (decimal x.sid)

inductive ReaderPc
  | reading
  /-- in `reconnectLoop`, before it closes the transport -/
  | sleeping
  | closed
  | connected
  | snapshotted (snapshot : List Sub)
  deriving DecidableEq

structure Connection where
  subs : List Sub := []
  nextSid : Nat := 1
  allocated : List Sub := []
  /-- calls of `subscribe` that have registered, and have yet to write their line -/
  registered : List Sub := []
  reader : ReaderPc := .reading
  /-- what has been written on the open transport -/
  transport : Option (List (List UInt8))
  past : List (List (List UInt8)) := []

/-- The steps of the threads. `ok` says whether the transport takes a write, or the connection is made. -/
inductive ConnAction
  | allocate (subject : List UInt8)
  | register (x : Sub)
  | writeSub (x : Sub) (ok : Bool)
  | publish (subject reply data : List UInt8) (ok : Bool)
  | pong (ok : Bool)
  | readFails
  | close
  | connect (ok : Bool)
  | snapshot
  | handshake (okConnect : Bool) (okSub : Sub → Bool)

namespace Connection

def connectLine : List UInt8 := serializeConnect false false

def start : Connection := { transport := some [connectLine] }

def write (s : Connection) (ok : Bool) (frames : List (List UInt8)) : Connection :=
  { s with transport := s.transport.map fun log => if ok then log ++ frames else log }

def insertSub (x : Sub) (subs : List Sub) : List Sub := subs.orderedInsert (fun a b => a.sid ≤ b.sid) x

def next (s : Connection) : ConnAction → Option Connection
  | .allocate subject =>
    some { s with nextSid := s.nextSid + 1, allocated := s.allocated ++ [⟨s.nextSid, subject⟩] }
  | .register x =>
    if x ∈ s.allocated then
      some { s with subs := insertSub x s.subs, allocated := s.allocated.erase x, registered := s.registered ++ [x] }
    else none
  | .writeSub x ok =>
    if x ∈ s.registered then some { s.write ok [x.line] with registered := s.registered.erase x } else none
  | .publish subject reply data ok => some (s.write ok [serializePub subject reply data])
  | .pong ok => if s.reader = .reading then some (s.write ok [serializePong]) else none
  | .readFails => if s.reader = .reading then some { s with reader := .sleeping } else none
  | .close =>
    if s.reader = .sleeping then
      some { s with reader := .closed, transport := none, past := s.past ++ s.transport.toList }
    else none
  | .connect ok =>
    if s.reader = .closed then
      some { s with reader := if ok then .connected else .sleeping, transport := if ok then some [] else none }
    else none
  | .snapshot => if s.reader = .connected then some { s with reader := .snapshotted s.subs } else none
  | .handshake okConnect okSub =>
    match s.reader with
    | .snapshotted snapshot =>
      if okConnect then
        some { s.write true (connectLine :: (snapshot.filter okSub).map Sub.line) with reader := .reading }
      else some { s with reader := .sleeping }
    | _ => none

/-- Nobody else writes between a new connection and its CONNECT, and a SUB is taken by the transport it is meant for. -/
def Orderly (s : Connection) : ConnAction → Prop
  | .writeSub _ ok => s.transport ≠ some [] ∧ (s.reader = .reading → ok = true)
  | .publish _ _ _ _ => s.transport ≠ some []
  | .handshake okConnect okSub => okConnect = true → ∀ x, okSub x = true
  | _ => True

def Opened (log : List (List UInt8)) : Prop := log = [] ∨ ∃ rest, log = connectLine :: rest

def Fresh (s : Connection) : Prop := s.reader = .connected ∨ ∃ snapshot, s.reader = .snapshotted snapshot

/-- What holds between the steps of the threads. -/
structure Sound (s : Connection) : Prop where
  past : ∀ log ∈ s.past, Opened log
  transport : ∀ log ∈ s.transport, Opened log
  fresh : s.Fresh → s.transport = some []
  /-- no subscription is forgotten: one that is not in the snapshot has its own line to come -/
  covered : ∀ snapshot, s.reader = .snapshotted snapshot → ∀ x ∈ s.subs, x ∈ s.registered ∨ x ∈ snapshot
  announced : s.reader = .reading →
    ∃ rest, s.transport = some (connectLine :: rest) ∧ ∀ x ∈ s.subs, x ∈ s.registered ∨ x.line ∈ rest

theorem sound_start : Sound start where
  past log h := by cases h
  transport log h := by
    cases h
    exact .inr ⟨[], rfl⟩
  fresh h := by rcases h with h | ⟨_, h⟩ <;> cases h
  covered _ h := by cases h
  announced _ := ⟨[], rfl, fun x hx => (by cases hx)⟩

variable {s t : Connection} {a : ConnAction}

theorem Opened.append {log : List (List UInt8)} (h : Opened log) (hne : log ≠ []) (frames : List (List UInt8)) :
    Opened (log ++ frames) := by
  obtain ⟨rest, rfl⟩ := h.resolve_left hne
  exact .inr ⟨rest ++ frames, rfl⟩

theorem sound_away (hpast : ∀ log ∈ s.past, Opened log) (htransport : ∀ log ∈ s.transport, Opened log)
    (haway : s.reader = .sleeping ∨ s.reader = .closed) : Sound s where
  past := hpast
  transport := htransport
  fresh h := by rcases haway with haway | haway <;> rcases h with h | ⟨_, h⟩ <;> cases haway.symm.trans h
  covered _ h := by rcases haway with haway | haway <;> cases haway.symm.trans h
  announced h := by rcases haway with haway | haway <;> cases haway.symm.trans h

theorem Sound.write (h : Sound s) (hbegun : s.transport ≠ some []) (ok : Bool) (frames : List (List UInt8))
    {left : List Sub}
    (hleft : ∀ x ∈ s.registered, x ∈ left ∨ (s.reader = .reading → ok = true ∧ x.line ∈ frames)) :
    Sound { s.write ok frames with registered := left } where
  past := h.past
  transport := by
    intro log hlog
    obtain ⟨old, hold, rfl⟩ := Option.map_eq_some_iff.mp hlog
    have hne : old ≠ [] := fun hnil => hbegun (hnil ▸ hold)
    cases ok with
    | false => exact h.transport old hold
    | true => exact (h.transport old hold).append hne frames
  fresh hfresh := absurd (h.fresh hfresh) hbegun
  covered snapshot hreader := absurd (h.fresh (.inr ⟨snapshot, hreader⟩)) hbegun
  announced hreader := by
    obtain ⟨rest, htransport, hlines⟩ := h.announced hreader
    refine ⟨if ok then rest ++ frames else rest, ?_, fun x hx => ?_⟩
    · change s.transport.map _ = _
      rw [htransport]
      cases ok <;> rfl
    rcases hlines x hx with hpending | hline
    · rcases hleft x hpending with hstill | hwritten
      · exact .inl hstill
      · obtain ⟨rfl, hframe⟩ := hwritten hreader
        exact .inr (List.mem_append_right _ hframe)
    · right
      cases ok with
      | false => exact hline
      | true => exact List.mem_append_left _ hline

theorem begun_of_reading (h : Sound s) (hreader : s.reader = .reading) : s.transport ≠ some [] := by
  obtain ⟨rest, htransport, -⟩ := h.announced hreader
  rw [htransport]
  exact fun h => (by cases h)

theorem Sound.register (h : Sound s) (x : Sub) (allocated : List Sub) :
    Sound { s with subs := insertSub x s.subs, allocated := allocated, registered := s.registered ++ [x] } := by
  have hsubs {P : Sub → Prop} (hold : ∀ y ∈ s.subs, y ∈ s.registered ∨ P y) :
      ∀ y ∈ insertSub x s.subs, y ∈ s.registered ++ [x] ∨ P y := by
    intro y hy
    rcases (List.mem_orderedInsert _).mp hy with rfl | hy
    · exact .inl (List.mem_append_right _ List.mem_cons_self)
    · exact (hold y hy).imp_left (List.mem_append_left _)
  refine ⟨h.past, h.transport, h.fresh, fun snapshot hreader => hsubs (h.covered snapshot hreader), fun hreader => ?_⟩
  obtain ⟨rest, htransport, hlines⟩ := h.announced hreader
  exact ⟨rest, htransport, hsubs hlines⟩

theorem Sound.handshake (h : Sound s) {snapshot : List Sub} (hreader : s.reader = .snapshotted snapshot) :
    Sound { s.write true (connectLine :: snapshot.map Sub.line) with reader := .reading } := by
  have hempty := h.fresh (.inr ⟨snapshot, hreader⟩)
  have hlog : (s.write true (connectLine :: snapshot.map Sub.line)).transport =
      some (connectLine :: snapshot.map Sub.line) := by
    rw [Connection.write, hempty]
    rfl
  refine ⟨h.past, fun log hmem => ?_, fun hfresh => ?_, fun _ hreader => (by cases hreader), fun _ => ?_⟩
  · cases hlog.symm.trans hmem
    exact .inr ⟨_, rfl⟩
  · rcases hfresh with hfresh | ⟨_, hfresh⟩ <;> cases hfresh
  · exact ⟨_, hlog, fun x hx => (h.covered snapshot hreader x hx).imp_right List.mem_map_of_mem⟩

theorem sound_step (h : Sound s) (horderly : Orderly s a) (hstep : next s a = some t) : Sound t := by
  cases a with
  | allocate subject =>
    cases hstep
    exact ⟨h.past, h.transport, h.fresh, h.covered, h.announced⟩
  | register x =>
    simp only [next, Option.ite_none_right_eq_some, Option.some_inj] at hstep
    obtain ⟨-, rfl⟩ := hstep
    exact h.register x _
  | writeSub x ok =>
    simp only [next, Option.ite_none_right_eq_some, Option.some_inj] at hstep
    obtain ⟨-, rfl⟩ := hstep
    refine h.write horderly.1 ok [x.line] fun y hy => ?_
    by_cases hyx : y = x
    · right
      intro hreader
      rw [hyx]
      exact ⟨horderly.2 hreader, List.mem_cons_self⟩
    · exact .inl ((List.mem_erase_of_ne hyx).mpr hy)
  | publish subject reply data ok =>
    cases hstep
    exact h.write horderly ok _ fun x hx => .inl hx
  | pong ok =>
    simp only [next, Option.ite_none_right_eq_some, Option.some_inj] at hstep
    obtain ⟨hreader, rfl⟩ := hstep
    exact h.write (begun_of_reading h hreader) ok _ fun x hx => .inl hx
  | readFails =>
    simp only [next, Option.ite_none_right_eq_some, Option.some_inj] at hstep
    obtain ⟨-, rfl⟩ := hstep
    exact sound_away h.past h.transport (.inl rfl)
  | close =>
    simp only [next, Option.ite_none_right_eq_some, Option.some_inj] at hstep
    obtain ⟨-, rfl⟩ := hstep
    refine sound_away (fun log hlog => ?_) (fun log hlog => (by cases hlog)) (.inr rfl)
    rcases List.mem_append.mp hlog with hlog | hlog
    · exact h.past log hlog
    · exact h.transport log (Option.mem_toList.mp hlog)
  | connect ok =>
    simp only [next, Option.ite_none_right_eq_some, Option.some_inj] at hstep
    obtain ⟨-, rfl⟩ := hstep
    cases ok with
    | false => exact sound_away h.past (fun log hlog => (by cases hlog)) (.inl rfl)
    | true =>
      refine ⟨h.past, fun log hlog => ?_, fun _ => rfl, fun _ hreader => (by cases hreader), fun hreader => (by cases hreader)⟩
      cases hlog
      exact .inl rfl
  | snapshot =>
    simp only [next, Option.ite_none_right_eq_some, Option.some_inj] at hstep
    obtain ⟨hreader, rfl⟩ := hstep
    refine ⟨h.past, h.transport, fun _ => h.fresh (.inl hreader), fun snapshot hsnapshot x hx => .inr ?_,
      fun hreader => (by cases hreader)⟩
    cases hsnapshot
    exact hx
  | handshake okConnect okSub =>
    cases hreader : s.reader with
    | snapshotted snapshot =>
      simp only [next, hreader] at hstep
      cases okConnect with
      | false =>
        cases hstep
        exact sound_away h.past h.transport (.inl rfl)
      | true =>
        cases hstep
        rw [List.filter_eq_self.mpr fun x _ => horderly rfl x]
        exact h.handshake hreader
    | _ =>
      simp only [next, hreader] at hstep
      cases hstep

/-- In every orderly run each connection starts with CONNECT, and while the reader reads and no call of `subscribe` has its line to write, every subscription has its SUB on the current connection, after its CONNECT. -/
theorem handshake_in_order {actions : List ConnAction} {s : Connection}
    (hrun : Run (Guarded Orderly (Takes next)) start actions s) :
    (∀ log ∈ s.past ++ s.transport.toList, log = [] ∨ ∃ rest, log = connectLine :: rest) ∧
      (s.reader = .reading → s.registered = [] →
        ∃ rest, s.transport = some (connectLine :: rest) ∧ ∀ x ∈ s.subs, x.line ∈ rest) := by
  have hsound : Sound s := hrun.invariant Sound (fun _ _ _ h hstep => sound_step h hstep.1 hstep.2) sound_start
  constructor
  · intro log hlog
    rcases List.mem_append.mp hlog with hlog | hlog
    · exact hsound.past log hlog
    · exact hsound.transport log (Option.mem_toList.mp hlog)
  · intro hreader hregistered
    obtain ⟨rest, htransport, hlines⟩ := hsound.announced hreader
    refine ⟨rest, htransport, fun x hx => (hlines x hx).resolve_left ?_⟩
    rw [hregistered]
    exact List.not_mem_nil

def resubscription : List ConnAction :=
  [.allocate (ascii "a"), .register ⟨1, ascii "a"⟩, .writeSub ⟨1, ascii "a"⟩ true, .readFails, .close, .connect true, .snapshot,
    .handshake true fun _ => true]

theorem handshake_in_order_resubscribed :
    ∃ s, Run (Guarded Orderly (Takes next)) start resubscription s ∧ s.reader = .reading ∧ s.subs = [⟨1, ascii "a"⟩] ∧
      ∃ rest, s.transport = some (connectLine :: rest) ∧ ∀ x ∈ s.subs, x.line ∈ rest := by
  have hrun : Run (Guarded Orderly (Takes next)) start resubscription
      { subs := [⟨1, ascii "a"⟩], nextSid := 2, transport := some [connectLine, serializeSub (ascii "a") (decimal 1)],
        past := [[connectLine, serializeSub (ascii "a") (decimal 1)]] } := by
    refine .cons ⟨trivial, rfl⟩ (.cons ⟨trivial, rfl⟩ (.cons ⟨⟨fun h => (by cases h), fun _ => rfl⟩, rfl⟩ ?_))
    refine .cons ⟨trivial, rfl⟩ (.cons ⟨trivial, rfl⟩ (.cons ⟨trivial, rfl⟩ (.cons ⟨trivial, rfl⟩ ?_)))
    exact .cons ⟨fun _ _ => rfl, rfl⟩ (.nil _)
  exact ⟨_, hrun, rfl, rfl, (handshake_in_order hrun).2 rfl rfl⟩

def lateSubscribe : List ConnAction :=
  [.readFails, .close, .connect true, .snapshot, .allocate (ascii "a"), .register ⟨1, ascii "a"⟩,
    .writeSub ⟨1, ascii "a"⟩ true, .handshake true fun _ => true]

/-- The reader is back, nobody is subscribing, and the one SUB of the connection stands before its CONNECT. -/
theorem sub_before_connect :
    ∃ s, Run (Takes next) start lateSubscribe s ∧ s.reader = .reading ∧ s.allocated = [] ∧ s.registered = [] ∧
      s.subs = [⟨1, ascii "a"⟩] ∧ s.transport = some [serializeSub (ascii "a") (decimal 1), connectLine] ∧
      serializeSub (ascii "a") (decimal 1) ≠ connectLine :=
  ⟨_, run_takes_iff.mpr rfl, rfl, rfl, rfl, rfl, rfl, by decide +kernel⟩

end Connection

end Waypoint.Core.Nats
