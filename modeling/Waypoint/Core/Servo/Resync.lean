import Mathlib.Data.List.Chain
import Waypoint.Core.Servo.SimUart

/-!
# Resynchronisation of the simulated line

What `SimUart::write` makes of the bytes it has collected: whole packets at the front are carried out, bytes that cannot start one are skipped, and the rest waits, however the bytes were cut.
-/

namespace Waypoint.Core

/-! ### The parser on longer buffers -/

section Parser

variable {buf more : List UInt8} {p : Parsed}

def Unframed (buf : List UInt8) : Prop := 2 ≤ buf.length ∧ ¬(buf.getD 0 0 = 0xFF ∧ buf.getD 1 0 = 0xFF)

instance (buf : List UInt8) : Decidable (Unframed buf) := inferInstanceAs (Decidable (_ ∧ _))

/-- Once the buffer holds as many bytes as its length byte asks for, what follows does not matter. -/
theorem tryParse_append (hsix : 6 ≤ buf.length) (htotal : 4 + (buf.getD 3 0).toNat ≤ buf.length) (more : List UInt8) :
    tryParseInstruction (buf ++ more) = tryParseInstruction buf := by
  have hget (i : Nat) (hi : i < buf.length) : (buf ++ more).getD i 0 = buf.getD i 0 := List.getD_append _ _ _ _ hi
  have hlength : buf.length ≤ (buf ++ more).length := by
    rw [List.length_append]
    omega
  have hlong : ¬buf.length < 6 := Nat.not_lt.mpr hsix
  have hlong' : ¬(buf ++ more).length < 6 := Nat.not_lt.mpr (hsix.trans hlength)
  have hwhole : ¬buf.length < 4 + (buf.getD 3 0).toNat := Nat.not_lt.mpr htotal
  have hwhole' : ¬(buf ++ more).length < 4 + (buf.getD 3 0).toNat := Nat.not_lt.mpr (htotal.trans hlength)
  unfold tryParseInstruction
  rw [if_neg hlong, if_neg hlong', hget 0 (by omega), hget 1 (by omega), hget 2 (by omega), hget 3 (by omega),
    hget 4 (by omega)]
  dsimp only
  by_cases hleast : buf.getD 3 0 < 2
  · simp only [if_pos hleast]
  have hdrop : ((buf ++ more).drop 5).take ((buf.getD 3 0).toNat - 2) = (buf.drop 5).take ((buf.getD 3 0).toNat - 2) := by
    rw [List.drop_append_of_le_length (by omega), List.take_append_of_le_length]
    rw [List.length_drop]
    omega
  have hlast : 4 + (buf.getD 3 0).toNat - 1 < buf.length := by omega
  simp only [if_neg hleast, if_neg hwhole, if_neg hwhole', hdrop, hget _ hlast]

theorem inv_tryParse (h : tryParseInstruction buf = some p) :
    buf.getD 0 0 = 0xFF ∧ buf.getD 1 0 = 0xFF ∧ p.consumed = 4 + (buf.getD 3 0).toNat ∧ 6 ≤ p.consumed ∧
      p.consumed ≤ buf.length := by
  unfold tryParseInstruction at h
  dsimp only at h
  split at h
  · cases h
  split at h
  · cases h
  rename_i hheader
  rw [not_or, not_not, not_not] at hheader
  split at h
  · cases h
  rename_i hleast
  rw [UInt8.not_lt] at hleast
  have htwo : 2 ≤ (buf.getD 3 0).toNat := hleast
  iterate 2
    split at h
    · cases h
  cases h
  dsimp only
  exact ⟨hheader.1, hheader.2, rfl, by omega, by omega⟩

theorem tryParse_append_of_some (h : tryParseInstruction buf = some p) (more : List UInt8) :
    tryParseInstruction (buf ++ more) = some p := by
  obtain ⟨-, -, hconsumed, hsix, hle⟩ := inv_tryParse h
  rw [tryParse_append (hsix.trans hle) (hconsumed ▸ hle), h]

theorem Unframed.append (h : Unframed buf) (more : List UInt8) : Unframed (buf ++ more) := by
  obtain ⟨hlong, hheader⟩ := h
  refine ⟨by rw [List.length_append]; omega, ?_⟩
  rwa [List.getD_append _ _ _ _ (by omega : 0 < buf.length), List.getD_append _ _ _ _ (by omega : 1 < buf.length)]

theorem Unframed.tryParse (h : Unframed buf) : tryParseInstruction buf = none := by
  cases hparse : tryParseInstruction buf with
  | none => rfl
  | some p =>
    obtain ⟨hzero, hone, -⟩ := inv_tryParse hparse
    exact absurd ⟨hzero, hone⟩ h.2

end Parser

/-! ### Draining the collected bytes -/

inductive Pumped
  | carried (f : Parsed)
  | skipped

def Pumped.frame : Pumped → Option Parsed
  | carried f => some f
  | skipped => none

def drain (acc : List UInt8) : List Pumped × List UInt8 :=
  if acc = [] then ([], acc)
  else
    match _hparse : tryParseInstruction acc with
    | some f => (.carried f :: (drain (acc.drop f.consumed)).1, (drain (acc.drop f.consumed)).2)
    | none =>
      if Unframed acc then (.skipped :: (drain acc.tail).1, (drain acc.tail).2)
      else ([], acc)
termination_by acc.length
decreasing_by
  · have hconsumed := consumed_of_tryParse _hparse
    rw [List.length_drop]
    omega
  rename_i hunframed
  have hlong := hunframed.1
  rw [List.length_tail]
  omega

def drained (acc : List UInt8) : List Parsed := (drain acc).1.filterMap Pumped.frame

def residue (acc : List UInt8) : List UInt8 := (drain acc).2

/-- All of the bytes wait. -/
abbrev Settled (acc : List UInt8) : Prop := drain acc = ([], acc)

section Drain

variable {acc more : List UInt8}

@[simp] theorem drain_nil : drain [] = ([], []) := by
  rw [drain, if_pos rfl]

theorem drain_found {f : Parsed} (h : tryParseInstruction acc = some f) :
    drain acc = (.carried f :: (drain (acc.drop f.consumed)).1, (drain (acc.drop f.consumed)).2) := by
  have hnonempty : acc ≠ [] := by
    intro hnil
    obtain ⟨hzero, -⟩ := inv_tryParse h
    rw [hnil] at hzero
    exact absurd hzero (by decide)
  rw [drain, if_neg hnonempty]
  split
  · rename_i g hg
    cases h.symm.trans hg
    rfl
  · rename_i hnone
    cases h.symm.trans hnone

theorem drain_unframed (h : Unframed acc) : drain acc = (.skipped :: (drain acc.tail).1, (drain acc.tail).2) := by
  have hnonempty : acc ≠ [] := by
    intro hnil
    have hlong := h.1
    rw [hnil] at hlong
    exact absurd hlong (by decide)
  rw [drain, if_neg hnonempty]
  split
  · rename_i g hg
    cases h.tryParse.symm.trans hg
  · rw [if_pos h]

theorem drain_waiting (hparse : tryParseInstruction acc = none) (h : ¬Unframed acc) : drain acc = ([], acc) := by
  by_cases hnil : acc = []
  · rw [hnil, drain_nil]
  rw [drain, if_neg hnil]
  split
  · rename_i g hg
    cases hparse.symm.trans hg
  · rw [if_neg h]

theorem drain_append (acc more : List UInt8) :
    drain (acc ++ more) = ((drain acc).1 ++ (drain (residue acc ++ more)).1, (drain (residue acc ++ more)).2) := by
  induction acc using drain.induct with
  | case1 => rw [residue, drain_nil, List.nil_append, List.nil_append]
  | case2 acc hnil f hparse ih =>
    have hconsumed := (consumed_of_tryParse hparse).2
    rw [residue, drain_found hparse, drain_found (tryParse_append_of_some hparse more),
      List.drop_append_of_le_length hconsumed, ih]
    rfl
  | case3 acc hnil hparse hunframed ih =>
    have htail : (acc ++ more).tail = acc.tail ++ more := List.tail_append_of_ne_nil hnil
    rw [residue, drain_unframed hunframed, drain_unframed (hunframed.append more), htail, ih]
    rfl
  | case4 acc hnil hparse hwaiting =>
    rw [residue, drain_waiting hparse hwaiting]
    rfl

theorem drained_append (acc more : List UInt8) : drained (acc ++ more) = drained acc ++ drained (residue acc ++ more) := by
  rw [drained, drain_append, List.filterMap_append]
  rfl

theorem residue_append (acc more : List UInt8) : residue (acc ++ more) = residue (residue acc ++ more) := by
  rw [residue, drain_append]
  rfl

theorem drain_residue (acc : List UInt8) : Settled (residue acc) := by
  have htwice := drain_append acc []
  rw [List.append_nil, List.append_nil] at htwice
  have hrounds : (drain acc).1 ++ [] = (drain acc).1 ++ (drain (residue acc)).1 := by
    rw [List.append_nil]
    exact congrArg Prod.fst htwice
  exact Prod.ext (List.append_cancel_left hrounds).symm (congrArg Prod.snd htwice).symm

end Drain

/-! ### Calls on the line -/

namespace SimUart

inductive UartCall
  | write (data : List UInt8)
  | read (n : Nat)
  | setHalfDuplexDirection (tx : Bool)

def call (u : SimUart) : UartCall → SimUart
  | .write data => (uart.write data u).2
  | .read n => (uart.read n u).2
  | .setHalfDuplexDirection tx => uart.setHalfDuplexDirection tx u

def UartCall.data : UartCall → List UInt8
  | write data => data
  | _ => []

def written (calls : List UartCall) : List UInt8 := calls.flatMap UartCall.data

theorem written_write (data : List UInt8) : written [.write data] = data := List.append_nil data

/-- What the servo model makes of a packet, and the answers so far. An instruction that is not known is passed over. -/
def serve (s : ServoModel × List UInt8) (f : Parsed) : ServoModel × List UInt8 :=
  match Instruction.ofCode f.instruction with
  | some instruction =>
    let (reply, model) := s.1.dispatch ⟨f.id, instruction, f.params⟩
    (model, s.2 ++ replyBytes f.id reply)
  | none => s

def pumped (u : SimUart) : Pumped → SimUart
  | .carried f => u.dispatch f
  | .skipped => { u with malformed := u.malformed + 1 }

theorem dispatch_txAccum (u : SimUart) (acc : List UInt8) (f : Parsed) :
    { u with txAccum := acc }.dispatch f = { u.dispatch f with txAccum := acc } := by
  unfold dispatch
  dsimp only
  split
  · split <;> rfl
  · split
    · split
      · rfl
      · split <;> rfl
    · rfl
  · split
    · split
      · rfl
      · split <;> rfl
    · rfl
  · split <;> rfl
  · rfl

theorem foldl_pumped_txAccum (u : SimUart) (acc : List UInt8) (rounds : List Pumped) :
    rounds.foldl pumped { u with txAccum := acc } = { rounds.foldl pumped u with txAccum := acc } := by
  induction rounds generalizing u with
  | nil => rfl
  | cons r rounds ih =>
    rw [List.foldl_cons, List.foldl_cons]
    cases r with
    | carried f => rw [pumped, dispatch_txAccum, ih]; rfl
    | skipped => exact ih { u with malformed := u.malformed + 1 }

/-- The loop of `SimUart::write` does the rounds of `drain`, one after the other. -/
theorem pump_eq (u : SimUart) : u.pump = { (drain u.txAccum).1.foldl pumped u with txAccum := residue u.txAccum } := by
  induction u using pump.induct with
  | case1 u hnil =>
    rw [pump_empty hnil, residue, hnil, drain_nil, ← hnil]
    rfl
  | case2 u hnil f hparse ih =>
    rw [pump, if_neg hnil]
    split
    · rename_i g hg
      cases hparse.symm.trans hg
      rw [ih, residue, residue, drain_found hparse, foldl_pumped_txAccum]
      rfl
    · rename_i hnone
      cases hparse.symm.trans hnone
  | case3 u hnil hparse hskip ih =>
    rw [pump, if_neg hnil]
    split
    · rename_i g hg
      cases hparse.symm.trans hg
    rw [if_pos hskip, ih, residue, residue, drain_unframed hskip]
    have hcomm := foldl_pumped_txAccum { u with malformed := u.malformed + 1 } u.txAccum.tail (drain u.txAccum.tail).1
    rw [hcomm]
    rfl
  | case4 u hnil hparse hwait =>
    rw [pump, if_neg hnil]
    split
    · rename_i g hg
      cases hparse.symm.trans hg
    · rw [if_neg hwait, residue, drain_waiting hparse hwait]
      rfl

theorem code_of_ofCode {code : UInt8} {instruction : Instruction} (h : Instruction.ofCode code = some instruction) :
    instruction.code = code := by
  unfold Instruction.ofCode at h
  split at h <;> cases h <;> rfl

theorem dispatch_serves (u : SimUart) (f : Parsed) :
    ((u.dispatch f).model, (u.dispatch f).rx) = serve (u.model, u.rx) f ∧ (u.dispatch f).txMode = u.txMode := by
  unfold serve
  cases hcode : Instruction.ofCode f.instruction with
  | some instruction =>
    have hsame : u.dispatch f = u.dispatch (parsed ⟨f.id, instruction, f.params⟩) := by
      rw [dispatch, dispatch, parsed, code_of_ofCode hcode]
    obtain ⟨hmodel, hrx, htx⟩ := carriesOut_dispatch u ⟨f.id, instruction, f.params⟩
    rw [hsame]
    exact ⟨Prod.ext hmodel hrx, htx⟩
  | none =>
    have hnothing : u.dispatch f = u := by
      rw [dispatch, hcode]
    rw [hnothing]
    exact ⟨rfl, rfl⟩

theorem foldl_pumped_serves (rounds : List Pumped) (u : SimUart) :
    ((rounds.foldl pumped u).model, (rounds.foldl pumped u).rx) = (rounds.filterMap Pumped.frame).foldl serve (u.model, u.rx) ∧
      (rounds.foldl pumped u).txMode = u.txMode := by
  induction rounds generalizing u with
  | nil => exact ⟨rfl, rfl⟩
  | cons r rounds ih =>
    rw [List.foldl_cons]
    obtain ⟨hseen, htx⟩ := ih (u.pumped r)
    cases r with
    | carried f =>
      obtain ⟨hserve, hmode⟩ := dispatch_serves u f
      rw [hseen, htx]
      exact ⟨congrArg (List.foldl serve · (rounds.filterMap Pumped.frame)) hserve, hmode⟩
    | skipped =>
      rw [hseen, htx]
      exact ⟨rfl, rfl⟩

theorem foldl_serve (fs : List Parsed) (m : ServoModel) (rx : List UInt8) :
    fs.foldl serve (m, rx) = ((fs.foldl serve (m, [])).1, rx ++ (fs.foldl serve (m, [])).2) := by
  induction fs generalizing m rx with
  | nil => exact Prod.ext rfl (List.append_nil rx).symm
  | cons f fs ih =>
    have hserve (rx : List UInt8) : serve (m, rx) f = ((serve (m, []) f).1, rx ++ (serve (m, []) f).2) := by
      unfold serve
      split
      · rfl
      · exact Prod.ext rfl (List.append_nil rx).symm
    rw [List.foldl_cons, List.foldl_cons, hserve rx, ih, ih (serve (m, []) f).1 (serve (m, []) f).2, List.append_assoc]

theorem txAccum_write (u : SimUart) (data : List UInt8) : (u.call (.write data)).txAccum = residue (u.txAccum ++ data) := by
  change (pump _).txAccum = _
  rw [pump_eq]
  cases u.txMode <;> rfl

theorem settled_write (u : SimUart) (data : List UInt8) : Settled (u.call (.write data)).txAccum := by
  rw [txAccum_write]
  exact drain_residue _

theorem seen_write (u : SimUart) (data : List UInt8) :
    (u.call (.write data)).model = ((drained (u.txAccum ++ data)).foldl serve (u.model, [])).1 ∧
      (u.txMode = true → (u.call (.write data)).rx = u.rx ++ ((drained (u.txAccum ++ data)).foldl serve (u.model, [])).2 ∧
        (u.call (.write data)).txMode = true) := by
  have hcall : u.call (.write data) =
      pump { (if u.txMode then u else { u with rx := u.rx ++ data }) with txAccum := u.txAccum ++ data } := by
    cases hmode : u.txMode <;> simp [call, uart, write, hmode]
  obtain ⟨hseen, htx⟩ := foldl_pumped_serves (drain (u.txAccum ++ data)).1
    { (if u.txMode then u else { u with rx := u.rx ++ data }) with txAccum := u.txAccum ++ data }
  rw [foldl_serve] at hseen
  obtain ⟨hmodel, hrx⟩ := Prod.mk.inj hseen
  rw [hcall, pump_eq]
  refine ⟨hmodel.trans ?_, fun hmode => ⟨hrx.trans ?_, htx.trans ?_⟩⟩
  · cases u.txMode <;> rfl
  · simp [hmode, drained]
  · simp [hmode]

variable {u : SimUart}

theorem txAccum_calls (calls : List UartCall) (h : Settled u.txAccum) :
    (calls.foldl call u).txAccum = residue (u.txAccum ++ written calls) := by
  induction calls generalizing u with
  | nil =>
    rw [written, List.flatMap_nil, List.append_nil, residue, h]
    rfl
  | cons c calls ih =>
    have hwritten : written (c :: calls) = c.data ++ written calls := List.flatMap_cons
    rw [List.foldl_cons, hwritten]
    cases c with
    | write data =>
      have hacc := txAccum_write u data
      rw [ih (settled_write u data), hacc, UartCall.data, ← List.append_assoc, residue_append (u.txAccum ++ data)]
    | read n => exact ih (u := u.call (.read n)) h
    | setHalfDuplexDirection tx => exact ih (u := u.call (.setHalfDuplexDirection tx)) h

/-- The packets that the collected bytes hold are all that the servo model sees of a sequence of calls; as long as the bus
drives the line, their answers are all that it finds in the queue. -/
theorem seen_calls (calls : List UartCall) (h : Settled u.txAccum) :
    (calls.foldl call u).model = ((drained (u.txAccum ++ written calls)).foldl serve (u.model, [])).1 ∧
      (u.txMode = true → (∀ c ∈ calls, c = .write c.data) →
        (calls.foldl call u).rx = u.rx ++ ((drained (u.txAccum ++ written calls)).foldl serve (u.model, [])).2) := by
  induction calls generalizing u with
  | nil =>
    rw [written, List.flatMap_nil, List.append_nil, drained, h]
    exact ⟨rfl, fun _ _ => (List.append_nil u.rx).symm⟩
  | cons c calls ih =>
    have hwritten : written (c :: calls) = c.data ++ written calls := List.flatMap_cons
    rw [List.foldl_cons, hwritten]
    cases c with
    | write data =>
      have hacc := txAccum_write u data
      obtain ⟨hmodel, hrx⟩ := seen_write u data
      obtain ⟨hrest, hqueue⟩ := ih (settled_write u data)
      rw [hacc, hmodel] at hrest hqueue
      rw [UartCall.data, ← List.append_assoc, drained_append (u.txAccum ++ data), List.foldl_append,
        ← Prod.mk.eta (p := (drained (u.txAccum ++ data)).foldl serve (u.model, [])), foldl_serve]
      refine ⟨hrest, fun hmode hwrites => ?_⟩
      rw [hqueue (hrx hmode).2 fun c hc => hwrites c (List.mem_cons_of_mem _ hc), (hrx hmode).1, List.append_assoc]
    | read n => exact ⟨(ih (u := u.call (.read n)) h).1, fun _ hwrites => nomatch hwrites _ List.mem_cons_self⟩
    | setHalfDuplexDirection tx =>
      exact ⟨(ih (u := u.call (.setHalfDuplexDirection tx)) h).1, fun _ hwrites => nomatch hwrites _ List.mem_cons_self⟩

end SimUart

/-! ### Packets on a line with no header begun -/

def Packet.parsed (p : Packet) : Parsed := ⟨p.id, p.instr, p.params, p.params.length + 6⟩

section Packets

theorem drain_packet (p : Packet) (rest : List UInt8) :
    drain (p.bytes ++ rest) = (.carried p.parsed :: (drain rest).1, (drain rest).2) := by
  have hparse : tryParseInstruction (p.bytes ++ rest) = some p.parsed := tryParse_packet p.id p.instr p.fits rest
  have hrest : (p.bytes ++ rest).drop p.parsed.consumed = rest := List.drop_left' (length_packet p.id p.instr p.params)
  rw [drain_found hparse, hrest]

theorem drain_packets (ps : List Packet) : drain (ps.flatMap Packet.bytes) = (ps.map fun p => .carried p.parsed, []) := by
  induction ps with
  | nil => exact drain_nil
  | cons p ps ih => rw [List.flatMap_cons, drain_packet, ih, List.map_cons]

/-- What waits is not the beginning of a header. -/
structure Free (acc : List UInt8) : Prop where
  settled : Settled acc
  unbegun : acc.head? ≠ some 0xFF

variable {acc : List UInt8}

theorem Free.short (h : Free acc) : acc = [] ∨ ∃ x, acc = [x] ∧ x ≠ 0xFF := by
  match acc, h with
  | [], _ => exact .inl rfl
  | [x], h =>
    refine .inr ⟨x, rfl, fun hx => h.unbegun ?_⟩
    rw [hx]
    rfl
  | x :: y :: rest, h =>
    have hx : x ≠ 0xFF := fun hx => h.unbegun (congrArg some hx)
    have hunframed : Unframed (x :: y :: rest) := ⟨Nat.le_add_left 2 _, fun hheader => hx hheader.1⟩
    cases (drain_unframed hunframed).symm.trans h.settled

theorem Free.packets (h : Free acc) (ps : List Packet) :
    drained (acc ++ ps.flatMap Packet.bytes) = ps.map Packet.parsed ∧ Free (residue (acc ++ ps.flatMap Packet.bytes)) := by
  have hframes : (ps.map fun p => Pumped.carried p.parsed).filterMap Pumped.frame = ps.map Packet.parsed := by
    rw [List.filterMap_map, ← List.filterMap_eq_map]
    rfl
  rcases h.short with rfl | ⟨x, rfl, hx⟩
  · rw [List.nil_append, drained, residue, drain_packets]
    exact ⟨hframes, drain_nil, (Option.some_ne_none _).symm⟩
  cases ps with
  | nil =>
    rw [List.flatMap_nil, List.append_nil, drained, residue, h.settled]
    exact ⟨rfl, h⟩
  | cons p ps =>
    have hunframed : Unframed ([x] ++ (p :: ps).flatMap Packet.bytes) :=
      ⟨Nat.le_add_left 2 _, fun hheader => hx hheader.1⟩
    rw [drained, residue, drain_unframed hunframed, List.singleton_append, List.tail_cons, drain_packets]
    exact ⟨hframes, drain_nil, (Option.some_ne_none _).symm⟩

end Packets

/-! ### A header that is never given up -/

/-- Whatever follows, the parser does not move on. -/
def Stuck (acc : List UInt8) : Prop := ∀ more, Settled (acc ++ more)

section Stuck

variable {acc : List UInt8}

theorem Stuck.append (h : Stuck acc) (more : List UInt8) : Stuck (acc ++ more) := by
  intro later
  rw [List.append_assoc]
  exact h (more ++ later)

theorem Stuck.residue_eq (h : Stuck acc) : residue acc = acc := by
  have hnone := h []
  rw [List.append_nil] at hnone
  rw [residue, hnone]

theorem Stuck.residue (h : Stuck acc) : Stuck (residue acc) := by
  rw [h.residue_eq]
  exact h

theorem Stuck.drained_eq (h : Stuck acc) (more : List UInt8) : drained (acc ++ more) = [] := by
  rw [drained, h more]
  rfl

variable {rest : List UInt8}

theorem stuck_of_header (h : ∀ more, tryParseInstruction (0xFF :: 0xFF :: rest ++ more) = none) :
    Stuck (0xFF :: 0xFF :: rest) :=
  fun more => drain_waiting (h more) fun hunframed => hunframed.2 ⟨rfl, rfl⟩

theorem stuck_of_unparsed (hsix : 6 ≤ (0xFF :: 0xFF :: rest).length)
    (htotal : 4 + ((0xFF :: 0xFF :: rest).getD 3 0).toNat ≤ (0xFF :: 0xFF :: rest).length)
    (h : tryParseInstruction (0xFF :: 0xFF :: rest) = none) : Stuck (0xFF :: 0xFF :: rest) :=
  stuck_of_header fun more => (tryParse_append hsix htotal more).trans h

theorem begun_cases (hsettled : Settled acc) (hbegun : acc.head? = some 0xFF) :
    acc = [0xFF] ∨ ∃ rest, acc = 0xFF :: 0xFF :: rest := by
  match acc, hsettled, hbegun with
  | [x], _, hbegun => exact .inl (congrArg (fun x => [x]) (Option.some_inj.mp hbegun))
  | x :: y :: rest, hsettled, hbegun =>
    obtain rfl : x = 0xFF := Option.some_inj.mp hbegun
    by_cases hy : y = 0xFF
    · exact .inr ⟨rest, by rw [hy]⟩
    · have hunframed : Unframed (0xFF :: y :: rest) := ⟨Nat.le_add_left 2 _, fun hheader => hy hheader.2⟩
      cases (drain_unframed hunframed).symm.trans hsettled

theorem lt_consumed_of_settled {more : List UInt8} {p : Parsed} (hsettled : Settled acc)
    (h : tryParseInstruction (acc ++ more) = some p) : acc.length < p.consumed := by
  obtain ⟨-, -, hconsumed, hsix, -⟩ := inv_tryParse h
  by_contra hwithin
  have hthree : 3 < acc.length := by omega
  rw [List.getD_append _ _ _ _ hthree] at hconsumed
  have hfound := (tryParse_append (by omega) (by omega) more).symm.trans h
  cases (drain_found hfound).symm.trans hsettled

theorem stuck_of_short {id length : UInt8} (h : length < 2) (rest : List UInt8) :
    Stuck (0xFF :: 0xFF :: id :: length :: rest) := by
  refine stuck_of_header fun more => ?_
  cases hparse : tryParseInstruction (0xFF :: 0xFF :: id :: length :: rest ++ more) with
  | none => rfl
  | some p =>
    obtain ⟨-, -, hconsumed, hsix, -⟩ := inv_tryParse hparse
    have htotal : p.consumed = 4 + length.toNat := hconsumed
    have hlt : length.toNat < 2 := h
    omega

def fullPacket : Packet := ⟨1, 3, List.replicate 253 1, List.length_replicate ▸ Nat.lt_succ_self 253⟩

def fullBody : List UInt8 := 0xFF :: 0x01 :: 0xFF :: 0x03 :: List.replicate 253 1

theorem bytes_fullPacket : fullPacket.bytes = 0xFF :: (fullBody ++ [0xFF]) := by
  have hlength : UInt8.ofNat ((List.replicate 253 (1 : UInt8)).length + 2) = 0xFF := by
    rw [List.length_replicate]
    rfl
  have hsum (n : Nat) : (List.replicate n (1 : UInt8)).sum = UInt8.ofNat n := by
    induction n with
    | zero => rfl
    | succ n ih => rw [List.replicate_succ, List.sum_cons, ih, Nat.add_comm, UInt8.ofNat_add]; rfl
  have hchecksum : checksum 1 0xFF 3 (List.replicate 253 1) = 0xFF := by
    rw [checksum, hsum]
    rfl
  change packet 1 3 (List.replicate 253 1) = _
  rw [packet, hlength, hchecksum]
  rfl

theorem stuck_fullPacket : Stuck (0xFF :: fullPacket.bytes) := by
  rw [bytes_fullPacket]
  exact stuck_of_short (by decide) _

theorem residue_skip {body : List UInt8} (h : (body ++ [0xFF]).IsChain fun x y => ¬(x = 0xFF ∧ y = 0xFF))
    (rest : List UInt8) : residue (body ++ 0xFF :: rest) = residue (0xFF :: rest) := by
  induction body with
  | nil => rfl
  | cons x body ih =>
    have hunframed : Unframed (x :: body ++ 0xFF :: rest) := by
      cases body with
      | nil => exact ⟨Nat.le_add_left 2 _, (List.isChain_cons_cons.mp h).1⟩
      | cons y body => exact ⟨Nat.le_add_left 2 _, (List.isChain_cons_cons.mp h).1⟩
    have htail : (body ++ [0xFF]).IsChain fun x y => ¬(x = 0xFF ∧ y = 0xFF) := List.IsChain.tail h
    rw [residue, drain_unframed hunframed]
    exact ih htail

theorem isChain_fullBody : (fullBody ++ [0xFF]).IsChain fun x y => ¬(x = 0xFF ∧ y = 0xFF) := by
  have hones (n : Nat) {x : UInt8} (hx : x ≠ 0xFF) :
      (x :: (List.replicate n 1 ++ [0xFF])).IsChain fun x y => ¬(x = 0xFF ∧ y = 0xFF) := by
    induction n generalizing x with
    | zero => exact List.isChain_pair.mpr fun h => hx h.1
    | succ n ih => exact List.isChain_cons_cons.mpr ⟨fun h => hx h.1, ih (by decide)⟩
  refine List.isChain_cons_cons.mpr ⟨by decide, List.isChain_cons_cons.mpr ⟨by decide, ?_⟩⟩
  exact List.isChain_cons_cons.mpr ⟨by decide, hones 253 (by decide)⟩

theorem residue_fullPacket {k : Nat} (hpos : 1 ≤ k) (hk : k ≤ 257) :
    residue (fullPacket.bytes.drop k ++ fullPacket.bytes) = 0xFF :: fullPacket.bytes := by
  have hlength : fullBody.length = 257 := by decide +kernel
  obtain ⟨j, rfl⟩ := Nat.exists_eq_add_of_le' hpos
  have hdrop : fullPacket.bytes.drop (j + 1) = fullBody.drop j ++ [0xFF] := by
    rw [bytes_fullPacket, List.drop_succ_cons, List.drop_append_of_le_length (by omega)]
  have hpart : (fullBody.drop j ++ [0xFF]).IsChain fun x y => ¬(x = 0xFF ∧ y = 0xFF) := by
    rw [← List.drop_append_of_le_length (by omega)]
    exact List.IsChain.drop isChain_fullBody j
  rw [hdrop, List.append_assoc, List.singleton_append, residue_skip hpart, stuck_fullPacket.residue_eq]

theorem length_fullPacket : fullPacket.bytes.length = 259 := by
  rw [Packet.bytes, length_packet, fullPacket, List.length_replicate]

theorem stuck_of_begun (hsettled : Settled acc) (hbegun : acc.head? = some 0xFF) :
    Stuck (residue (acc ++ (fullPacket.bytes ++ fullPacket.bytes))) := by
  rcases begun_cases hsettled hbegun with rfl | ⟨rest, hacc⟩
  · exact (stuck_fullPacket.append fullPacket.bytes).residue
  have htwo : 2 ≤ acc.length := hacc ▸ Nat.le_add_left 2 _
  have hfull := length_fullPacket
  have hlength : (acc ++ (fullPacket.bytes ++ fullPacket.bytes)).length = acc.length + 518 := by
    rw [List.length_append, List.length_append, hfull]
  have hbyte := ((acc ++ (fullPacket.bytes ++ fullPacket.bytes)).getD 3 0).toNat_lt
  cases hparse : tryParseInstruction (acc ++ (fullPacket.bytes ++ fullPacket.bytes)) with
  | none =>
    have hsix : 6 ≤ (acc ++ (fullPacket.bytes ++ fullPacket.bytes)).length := by omega
    have htotal : 4 + ((acc ++ (fullPacket.bytes ++ fullPacket.bytes)).getD 3 0).toNat ≤
        (acc ++ (fullPacket.bytes ++ fullPacket.bytes)).length := by omega
    subst hacc
    exact (stuck_of_unparsed hsix htotal hparse).residue
  | some p =>
    obtain ⟨-, -, hconsumed, -⟩ := inv_tryParse hparse
    have hbeyond := lt_consumed_of_settled hsettled hparse
    have hdrop : (acc ++ (fullPacket.bytes ++ fullPacket.bytes)).drop p.consumed =
        fullPacket.bytes.drop (p.consumed - acc.length) ++ fullPacket.bytes := by
      rw [List.drop_append, List.drop_of_length_le hbeyond.le, List.nil_append, List.drop_append_of_le_length (by omega)]
    have hresidue : residue (acc ++ (fullPacket.bytes ++ fullPacket.bytes)) = 0xFF :: fullPacket.bytes := by
      rw [residue, drain_found hparse, hdrop]
      exact residue_fullPacket (by omega) (by omega)
    rw [hresidue]
    exact stuck_fullPacket

def flood (n : Nat) : List Packet := List.replicate (n + 2) fullPacket

theorem length_flood (n : Nat) : n ≤ ((flood n).flatMap Packet.bytes).length := by
  rw [flood, List.length_flatMap, List.map_replicate, length_fullPacket, List.sum_replicate_nat]
  omega

theorem stuck_flood (n : Nat) (hsettled : Settled acc) (hbegun : acc.head? = some 0xFF) :
    Stuck (residue (acc ++ (flood n).flatMap Packet.bytes)) := by
  have hsplit : acc ++ (flood n).flatMap Packet.bytes =
      acc ++ (fullPacket.bytes ++ fullPacket.bytes) ++ (List.replicate n fullPacket).flatMap Packet.bytes := by
    rw [List.append_assoc, List.append_assoc]
    rfl
  have hstuck := (stuck_of_begun hsettled hbegun).append ((List.replicate n fullPacket).flatMap Packet.bytes)
  rw [hsplit, residue_append]
  exact hstuck.residue

end Stuck

namespace SimUart

/-- The servo model has carried out the packets, and answered them. -/
structure Serves (u : SimUart) (later : List UartCall) (after : List Packet) : Prop where
  model : (later.foldl call u).model = ((after.map Packet.parsed).foldl serve (u.model, [])).1
  answers : u.txMode = true → (∀ c ∈ later, c = .write c.data) →
    (later.foldl call u).rx = u.rx ++ ((after.map Packet.parsed).foldl serve (u.model, [])).2

/-- After so many bytes of whole packets, every later packet is carried out, in whatever pieces they are written. -/
def Resynchronises (u : SimUart) : Prop :=
  ∃ n, ∀ (before : List Packet) (calls : List UartCall), written calls = before.flatMap Packet.bytes →
    n ≤ (written calls).length → ∀ (after : List Packet) (later : List UartCall),
      written later = after.flatMap Packet.bytes → (calls.foldl call u).Serves later after

variable {u : SimUart}

theorem seen_of_stuck (h : Stuck u.txAccum) (later : List UartCall) :
    (later.foldl call u).model = u.model ∧
      (u.txMode = true → (∀ c ∈ later, c = .write c.data) → (later.foldl call u).rx = u.rx) := by
  have hsettled := h []
  rw [List.append_nil] at hsettled
  have hseen := seen_calls later hsettled
  rw [h.drained_eq] at hseen
  simpa using hseen

theorem isPresent_writeReg (m : ServoModel) (i id : JointId) (addr : UInt8) (data : List UInt8) :
    (m.writeReg i addr data).2.isPresent id = m.isPresent id := by
  unfold ServoModel.writeReg
  split
  · rfl
  rename_i s hs
  repeat' split
  all_goals first | rfl | skip
  by_cases hid : id = i
  · simp [ServoModel.isPresent, ServoModel.update, hid, hs]
  · simp [ServoModel.isPresent, ServoModel.update, hid]

theorem isPresent_syncWriteRegs (m : ServoModel) (addr : UInt8) (per fuel : Nat) (data : List UInt8) (id : JointId) :
    (m.syncWriteRegs addr per fuel data).isPresent id = m.isPresent id := by
  induction fuel generalizing m data with
  | zero => rfl
  | succ fuel ih =>
    unfold ServoModel.syncWriteRegs
    split
    · rfl
    split
    · rfl
    · rw [ih, isPresent_writeReg]

theorem isPresent_serve (fs : List Parsed) (s : ServoModel × List UInt8) (id : JointId) :
    (fs.foldl serve s).1.isPresent id = s.1.isPresent id := by
  induction fs generalizing s with
  | nil => rfl
  | cons f fs ih =>
    rw [List.foldl_cons, ih]
    unfold serve
    split
    · dsimp only
      unfold ServoModel.dispatch
      dsimp only
      split
      · rfl
      · rfl
      · split
        · rfl
        · exact isPresent_writeReg ..
      · exact isPresent_syncWriteRegs ..
      · rfl
    · rfl

/-- A begun header swallows the packets after it; then a servo that is there does not answer a ping. -/
theorem not_resynchronises_of_begun (hsettled : Settled u.txAccum)
    (hbegun : u.txAccum.head? = some 0xFF) {id : JointId} (hid : id ≠ 0xFE) (hpresent : u.model.isPresent id = true) :
    ¬u.Resynchronises := by
  rintro ⟨n, hresync⟩
  have hwritten : written [.write ((flood n).flatMap Packet.bytes), .setHalfDuplexDirection true] =
      (flood n).flatMap Packet.bytes := List.append_nil _
  have hserves := hresync (flood n) _ hwritten ((length_flood n).trans_eq (congrArg List.length hwritten.symm))
    [⟨id, 1, [], by decide⟩] [.write ([⟨id, 1, [], by decide⟩].flatMap Packet.bytes)] (written_write _)
  have hacc := txAccum_calls [.write ((flood n).flatMap Packet.bytes), .setHalfDuplexDirection true] hsettled
  obtain ⟨hmodel, -⟩ := seen_calls [.write ((flood n).flatMap Packet.bytes), .setHalfDuplexDirection true] hsettled
  rw [hwritten] at hacc
  have hstuck := seen_of_stuck (hacc ▸ stuck_flood n hsettled hbegun)
    [.write ([⟨id, 1, [], by decide⟩].flatMap Packet.bytes)]
  have hlater := (congrArg (·.isPresent id) hmodel).trans ((isPresent_serve _ _ id).trans hpresent)
  have hqueue := (hstuck.2 rfl (by simp [UartCall.data])).symm.trans (hserves.answers rfl (by simp [UartCall.data]))
  generalize [UartCall.write ((flood n).flatMap Packet.bytes), .setHalfDuplexDirection true].foldl call u = v at hqueue hlater
  -- the answer that is missing
  have hanswer : (serve (v.model, []) ⟨id, 1, [], 6⟩).2 = packet id 0 [] := by
    simp [serve, Instruction.ofCode, ServoModel.dispatch, hid, hlater, replyBytes]
  have hnone := List.self_eq_append_right.mp hqueue
  change (serve (v.model, []) ⟨id, 1, [], 6⟩).2 = [] at hnone
  cases hanswer.symm.trans hnone

theorem resynchronises_of_unbegun (hsettled : Settled u.txAccum)
    (hunbegun : u.txAccum.head? ≠ some 0xFF) : u.Resynchronises := by
  refine ⟨0, fun before calls hbefore _ after later hlater => ?_⟩
  have hfree : Free (calls.foldl call u).txAccum := by
    rw [txAccum_calls calls hsettled, hbefore]
    exact (Free.packets ⟨hsettled, hunbegun⟩ before).2
  have hseen := seen_calls later hfree.settled
  rw [hlater, (hfree.packets after).1] at hseen
  exact ⟨hseen.1, hseen.2⟩

/-- With a servo on the line, it finds back to the packets it is sent after exactly those inputs that leave no header begun. -/
theorem resynchronises_iff {m : ServoModel} {id : JointId} (hid : id ≠ 0xFE) (hpresent : m.isPresent id = true)
    (garbage : List UartCall) :
    (garbage.foldl call { model := m }).Resynchronises ↔
      (garbage.foldl call { model := m }).txAccum.head? ≠ some 0xFF := by
  have hsettled : Settled (garbage.foldl call { model := m }).txAccum := by
    rw [txAccum_calls garbage (u := { model := m }) drain_nil]
    exact drain_residue _
  constructor
  · intro hresync hbegun
    have hkept := (congrArg (·.isPresent id) (seen_calls garbage (u := { model := m }) drain_nil).1).trans
      ((isPresent_serve _ _ id).trans hpresent)
    exact not_resynchronises_of_begun hsettled hbegun hid hkept hresync
  · exact resynchronises_of_unbegun hsettled

theorem resynchronises_iff_noise : ([.write [0x12, 0x34, 0x56]].foldl call oneServo).Resynchronises := by
  refine (resynchronises_iff (show (1 : JointId) ≠ 0xFE by decide) rfl [.write [0x12, 0x34, 0x56]]).mpr ?_
  rw [List.foldl_cons, List.foldl_nil, txAccum_write]
  decide +kernel

/-- A ping with a wrong checksum: no packet after it reaches the servo. -/
theorem corrupt_ping_holds_line :
    ¬(oneServo.call (.write [0xFF, 0xFF, 0x01, 0x02, 0x01, 0x00])).Resynchronises ∧
      ∀ later : List UartCall,
        (later.foldl call (oneServo.call (.write [0xFF, 0xFF, 0x01, 0x02, 0x01, 0x00]))).model = oneServo.model := by
  have hstuck : Stuck [0xFF, 0xFF, 0x01, 0x02, 0x01, 0x00] := stuck_of_unparsed (by decide) (by decide) (by decide)
  have hacc : (oneServo.call (.write [0xFF, 0xFF, 0x01, 0x02, 0x01, 0x00])).txAccum = [0xFF, 0xFF, 0x01, 0x02, 0x01, 0x00] := by
    rw [txAccum_write]
    exact hstuck.residue_eq
  have hmodel : (oneServo.call (.write [0xFF, 0xFF, 0x01, 0x02, 0x01, 0x00])).model = oneServo.model := by
    have hdrained : drained (oneServo.txAccum ++ [0xFF, 0xFF, 0x01, 0x02, 0x01, 0x00]) = [] := by
      rw [drained, show oneServo.txAccum ++ [0xFF, 0xFF, 0x01, 0x02, 0x01, 0x00] = [0xFF, 0xFF, 0x01, 0x02, 0x01, 0x00] ++ [] from rfl, hstuck []]
      rfl
    rw [(seen_write oneServo _).1, hdrained]
    rfl
  refine ⟨not_resynchronises_of_begun ?_ ?_ (show (1 : JointId) ≠ 0xFE by decide) (hmodel ▸ rfl), fun later => ?_⟩
  · rw [hacc]
    exact hstuck []
  · rw [hacc]
    rfl
  · exact (seen_of_stuck (hacc.symm ▸ hstuck) later).1.trans hmodel

end SimUart

end Waypoint.Core
