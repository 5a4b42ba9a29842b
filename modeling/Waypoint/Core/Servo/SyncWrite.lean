import Waypoint.Core.Servo.Guard
import Waypoint.Core.Servo.SimUart

/-!
# Sync writes

A sync write is one broadcast frame with a goal for each servo in it. Its length byte counts three bytes a goal, in eight bits, and the server neither bounds the number of goals nor drops repeated ids.
-/

namespace Waypoint.Core

open Bus

namespace Servo

theorem storeBytes_storeBytes (regs : Nat → UInt8) (addr : Nat) {data data' : List UInt8} (h : data.length = data'.length) :
    storeBytes (storeBytes regs addr data) addr data' = storeBytes regs addr data' := by
  funext a
  unfold storeBytes
  rw [h]
  split
  · rfl
  · rfl

def withGoal (s : Servo) (raw : UInt16) : Servo :=
  if s.present then { s with regs := writeU16 s.regs Reg.goalPosition raw } else s

theorem withGoal_withGoal (s : Servo) (raw raw' : UInt16) : (s.withGoal raw).withGoal raw' = s.withGoal raw' := by
  unfold withGoal
  by_cases hpresent : s.present = true
  · rw [if_pos hpresent, if_pos hpresent]
    dsimp only
    rw [if_pos hpresent]
    exact congrArg (Servo.mk s.present) (storeBytes_storeBytes s.regs _ rfl)
  · rw [if_neg hpresent, if_neg hpresent]

end Servo

def lastGoal (goals : List (JointId × UInt16)) (id : JointId) : Option UInt16 :=
  ((goals.filter (·.1 = id)).getLast?).map (·.2)

theorem lastGoal_concat (goals : List (JointId × UInt16)) (g : JointId × UInt16) (id : JointId) :
    lastGoal (goals ++ [g]) id = if g.1 = id then some g.2 else lastGoal goals id := by
  unfold lastGoal
  rw [List.filter_append]
  by_cases hid : g.1 = id
  · rw [if_pos hid, List.filter_singleton, decide_eq_true hid]
    simp
  · rw [if_neg hid, List.filter_singleton, decide_eq_false hid]
    simp

def Servo.follow (goals : List (JointId × UInt16)) (id : JointId) (s : Servo) : Servo :=
  match lastGoal goals id with
  | some raw => s.withGoal raw
  | none => s

theorem Servo.follow_concat (goals : List (JointId × UInt16)) (g : JointId × UInt16) (id : JointId) (s : Servo) :
    s.follow (goals ++ [g]) id = if g.1 = id then (s.follow goals id).withGoal g.2 else s.follow goals id := by
  unfold follow
  rw [lastGoal_concat]
  by_cases hid : g.1 = id
  · rw [if_pos hid, if_pos hid]
    cases lastGoal goals id with
    | none => rfl
    | some raw => exact (s.withGoal_withGoal raw g.2).symm
  · rw [if_neg hid, if_neg hid]

namespace ServoModel

def writeGoal (m : ServoModel) (g : JointId × UInt16) : ServoModel :=
  (m.writeReg g.1 Reg.goalPosition [lowByte g.2, highByte g.2]).2

theorem servos_writeGoal (m : ServoModel) (g : JointId × UInt16) (id : JointId) :
    (m.writeGoal g).servos id = (m.servos id).map fun s => if g.1 = id then s.withGoal g.2 else s := by
  by_cases hid : g.1 = id
  · subst hid
    cases hs : m.servos g.1 with
    | none =>
      have hnothing : m.writeGoal g = m := by rw [writeGoal, writeReg, hs]
      rw [hnothing]
      exact hs
    | some s =>
      rw [Option.map_some, if_pos rfl, writeGoal, Servo.withGoal]
      by_cases hpresent : s.present = true
      · have hbound : Reg.goalPosition.toNat + [lowByte g.2, highByte g.2].length ≤ Servo.regCount :=
          (by decide : 0x2A + 2 ≤ 0x50)
        rw [writeReg_present hs hpresent (List.cons_ne_nil _ _) hbound (.inr (by decide)), if_pos hpresent]
        exact if_pos rfl
      · rw [writeReg_absent hs (Bool.eq_false_iff.mpr hpresent), if_neg hpresent]
        exact hs
  · have hother : (m.writeGoal g).servos id = m.servos id := servos_writeReg_of_ne m (Ne.symm hid) _ _
    rw [hother]
    simp only [if_neg hid, Option.map_id']

theorem syncWriteRegs_goals (goals : List (JointId × UInt16)) (fuel : Nat) (hfuel : goals.length ≤ fuel) (m : ServoModel) :
    m.syncWriteRegs Reg.goalPosition 2 fuel (goals.flatMap fun g => [g.1, lowByte g.2, highByte g.2]) =
      goals.foldl writeGoal m := by
  induction goals generalizing fuel m with
  | nil => cases fuel <;> rfl
  | cons g goals ih =>
    cases fuel with
    | zero => simp at hfuel
    | succ fuel =>
      rw [List.flatMap_cons, List.cons_append, syncWriteRegs, if_neg (by simp), List.foldl_cons]
      exact ih fuel (by simpa using hfuel) _

theorem servos_foldl_writeGoal (goals : List (JointId × UInt16)) (m : ServoModel) (id : JointId) :
    (goals.foldl writeGoal m).servos id = (m.servos id).map (Servo.follow goals id) := by
  induction goals using List.reverseRecOn with
  | nil => exact Option.map_id'.symm
  | append_singleton goals g ih =>
    rw [List.foldl_append, List.foldl_cons, List.foldl_nil, servos_writeGoal, ih, Option.map_map]
    congr 1
    funext s
    exact (s.follow_concat goals g id).symm

theorem dispatch_syncWrite (m : ServoModel) (goals : List (JointId × UInt16)) :
    m.dispatch (buildSyncWriteGoalPositions goals) = (none, goals.foldl writeGoal m) := by
  have hdispatch : m.dispatch (buildSyncWriteGoalPositions goals) =
      (none, m.syncWriteRegs Reg.goalPosition 2 _ (goals.flatMap fun g => [g.1, lowByte g.2, highByte g.2])) := rfl
  have hfuel : goals.length ≤ (goals.flatMap fun g => [g.1, lowByte g.2, highByte g.2]).length := by
    rw [List.length_flatMap]
    simp
    omega
  rw [hdispatch, syncWriteRegs_goals goals _ hfuel]

end ServoModel

theorem length_syncWrite (goals : List (JointId × UInt16)) :
    (buildSyncWriteGoalPositions goals).params.length = 3 * goals.length + 2 := by
  rw [buildSyncWriteGoalPositions]
  simp [List.length_flatMap]
  omega

def syncWritten (patience : Nat) (deny : List UInt8) (goals : List ServoGoal) (u : SimUart) : Bus SimUart :=
  ((ServoControlServer.handleSync (SimUart.uart.wire patience) deny false goals).run ⟨u, []⟩).2

open ServoControlServer in
/-- Every goal that passes the id gates reaches its servo: one frame goes out, the parser of the line gives it back whole, and each servo has the last goal for its id, with nothing else changed. -/
structure Delivered (patience : Nat) (deny : List UInt8) (goals : List ServoGoal) (u : SimUart) : Prop where
  frames : (syncWritten patience deny goals u).log =
    if admittedGoals deny goals = [] then [] else [buildSyncWriteGoalPositions (admittedGoals deny goals)]
  accepted : ∀ f ∈ (syncWritten patience deny goals u).log, tryParseInstruction (encode f) = some (SimUart.parsed f)
  servos : ∀ id, (syncWritten patience deny goals u).wire.model.servos id =
    (u.model.servos id).map (Servo.follow (admittedGoals deny goals) id)

section Delivery

open ServoControlServer

variable {patience : Nat} {deny : List UInt8} {goals : List ServoGoal} {u : SimUart}

theorem syncWritten_nothing (patience : Nat) (h : admittedGoals deny goals = []) : syncWritten patience deny goals u = ⟨u, []⟩ := by
  have hrun : syncWritten patience deny goals u =
      ((syncWriteGoalPositions (SimUart.uart.wire patience) (admittedGoals deny goals)).run ⟨u, []⟩).2 := rfl
  rw [hrun, h]
  rfl

theorem syncWritten_frame (patience : Nat) (h : admittedGoals deny goals ≠ []) :
    syncWritten patience deny goals u =
      ⟨((SimUart.uart.wire patience).sendNoReply u (buildSyncWriteGoalPositions (admittedGoals deny goals))).2,
        [buildSyncWriteGoalPositions (admittedGoals deny goals)]⟩ := by
  have hrun : syncWritten patience deny goals u =
      ((syncWriteGoalPositions (SimUart.uart.wire patience) (admittedGoals deny goals)).run ⟨u, []⟩).2 := rfl
  have hsome : (admittedGoals deny goals).isEmpty = false := List.isEmpty_eq_false_iff.mpr h
  rw [hrun, syncWriteGoalPositions, hsome]
  rfl

theorem delivered_of_short (hidle : u.Idle) (hshort : (admittedGoals deny goals).length ≤ 83) :
    Delivered patience deny goals u := by
  by_cases hnil : admittedGoals deny goals = []
  · have hafter := syncWritten_nothing patience (u := u) hnil
    refine ⟨?_, ?_, ?_⟩
    · rw [hafter, if_pos hnil]
    · rw [hafter]
      exact fun f hf => (List.not_mem_nil hf).elim
    · intro id
      rw [hafter, hnil]
      exact Option.map_id'.symm
  · have hafter := syncWritten_frame patience (u := u) hnil
    have hfits : (buildSyncWriteGoalPositions (admittedGoals deny goals)).params.length < 254 := by
      rw [length_syncWrite]
      omega
    have hdispatch := u.model.dispatch_syncWrite (admittedGoals deny goals)
    obtain ⟨v, hsend, -, hmodel⟩ := SimUart.sendNoReply_refines hidle hfits (by rw [hdispatch]) patience
    refine ⟨?_, ?_, ?_⟩
    · rw [hafter, if_neg hnil]
    · rw [hafter]
      intro f hf
      rw [List.mem_singleton.mp hf]
      have hparse := tryParse_packet 0xFE (Instruction.syncWrite.code) hfits []
      rw [List.append_nil] at hparse
      exact hparse
    · intro id
      rw [hafter, hsend]
      dsimp only
      rw [hmodel, hdispatch]
      exact ServoModel.servos_foldl_writeGoal _ u.model id

theorem consumed_le {buf : List UInt8} {p : Parsed} (h : tryParseInstruction buf = some p) : p.consumed ≤ 259 := by
  unfold tryParseInstruction at h
  dsimp only at h
  iterate 5
    split at h
    · cases h
  cases h
  have hlength := (buf.getD 3 0).toNat_lt
  dsimp only
  omega

/-- A sync write is delivered exactly if no more than 83 of its goals pass the gates. -/
theorem sync_write_delivered_iff (patience : Nat) (deny : List UInt8) (goals : List ServoGoal) (u : SimUart)
    (hidle : u.Idle) : Delivered patience deny goals u ↔ (admittedGoals deny goals).length ≤ 83 := by
  constructor
  · intro hdelivered
    by_cases hnil : admittedGoals deny goals = []
    · rw [hnil]
      exact Nat.zero_le 83
    have hlog := hdelivered.frames
    rw [if_neg hnil] at hlog
    have hparse := hdelivered.accepted _ (hlog ▸ List.mem_singleton_self _)
    have hconsumed : (buildSyncWriteGoalPositions (admittedGoals deny goals)).params.length + 6 ≤ 259 := consumed_le hparse
    rw [length_syncWrite] at hconsumed
    omega
  · exact delivered_of_short hidle

end Delivery

theorem sync_write_delivered_iff_twice :
    ((syncWritten 0 [] [⟨1, 100⟩, ⟨1, 0x1800⟩] SimUart.oneServo).wire.model.servos 1) =
      some { regs := Servo.writeU16 (fun _ => 0) Reg.goalPosition 0x800 } :=
  ((sync_write_delivered_iff 0 [] [⟨1, 100⟩, ⟨1, 0x1800⟩] SimUart.oneServo ⟨rfl, rfl⟩).mpr (by decide)).servos 1

/-- With 84 goals the length byte is zero: nothing is parsed and the servo keeps its goal. -/
theorem eighty_four_goals_lost :
    let goals := List.replicate 84 (⟨1, 0x800⟩ : ServoGoal)
    tryParseInstruction (encode (buildSyncWriteGoalPositions (ServoControlServer.admittedGoals [] goals))) = none ∧
      ((syncWritten 0 [] goals SimUart.oneServo).wire.model.servos 1).map (·.regs 0x2B) = some 0 ∧
      ¬Delivered 0 [] goals SimUart.oneServo := by
  refine ⟨by decide +kernel, by decide +kernel, ?_⟩
  intro hdelivered
  have hservo := congrArg (Option.map (·.regs 0x2B)) (hdelivered.servos 1)
  revert hservo
  decide +kernel

end Waypoint.Core
