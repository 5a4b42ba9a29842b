import Waypoint.Core.Servo.Model

/-!
# The safe-goal latch on a bus that loses frames

`Sts3215Bus::enableTorqueHoldingPosition` with its four exchanges failing independently: a request may be lost, or carried out and its reply lost.
-/

namespace Waypoint.Core

open Base

inductive Fate
  | lost
  /-- the request is carried out, and its reply is lost -/
  | unheard
  | answered
  deriving DecidableEq

def Fate.carry (fate : Fate) (m : ServoModel) (f : Frame) : Option (List UInt8) × ServoModel :=
  match fate with
  | lost => (none, m)
  | unheard => (none, (m.dispatch f).2)
  | answered => m.dispatch f

structure Fates where
  mode : Fate
  state : Fate
  goal : Fate
  torque : Fate

def Fates.of (p : Fates) (f : Frame) : Fate :=
  match f.params.head? with
  | some reg =>
    if reg = Reg.mode then p.mode
    else if reg = Reg.presentPosition then p.state
    else if reg = Reg.goalPosition then p.goal
    else if reg = Reg.torqueEnable then p.torque
    else .answered
  | none => .answered

def lossy (p : Fates) : Wire ServoModel where
  exchange m f := (p.of f).carry m f
  sendNoReply m f := (true, (m.dispatch f).2)

namespace Servo

variable (s : Servo)

def goalPosition : UInt16 :=
  wordOfBytes (s.regs Reg.goalPosition.toNat) (s.regs (Reg.goalPosition.toNat + 1))

def presentPosition : UInt16 :=
  wordOfBytes (s.regs Reg.presentPosition.toNat) (s.regs (Reg.presentPosition.toNat + 1))

def torque : UInt8 := s.regs Reg.torqueEnable.toNat

def storeGoal (raw : UInt16) : Servo :=
  { s with regs := storeBytes s.regs Reg.goalPosition.toNat [lowByte raw, highByte raw] }

def storeTorque (on : UInt8) : Servo := { s with regs := storeBytes s.regs Reg.torqueEnable.toNat [on] }

@[simp] theorem goalPosition_storeGoal (raw : UInt16) : (s.storeGoal raw).goalPosition = raw :=
  wordOfBytes_bytes raw

@[simp] theorem torque_storeGoal (raw : UInt16) : (s.storeGoal raw).torque = s.torque := by
  have hbelow : Reg.torqueEnable.toNat < Reg.goalPosition.toNat := by decide
  show storeBytes s.regs Reg.goalPosition.toNat [lowByte raw, highByte raw] Reg.torqueEnable.toNat = _
  exact storeBytes_outside (.inl hbelow)

@[simp] theorem goalPosition_storeTorque (on : UInt8) : (s.storeTorque on).goalPosition = s.goalPosition := by
  have habove : Reg.torqueEnable.toNat + 1 ≤ Reg.goalPosition.toNat := by decide
  show wordOfBytes (storeBytes s.regs Reg.torqueEnable.toNat [on] Reg.goalPosition.toNat)
    (storeBytes s.regs Reg.torqueEnable.toNat [on] (Reg.goalPosition.toNat + 1)) = _
  rw [storeBytes_outside (.inr habove), storeBytes_outside (.inr (Nat.le_succ_of_le habove))]
  rfl

def latched (p : Fates) : Servo :=
  if p.mode = .answered ∧ p.state = .answered ∧ p.goal ≠ .lost then s.storeGoal s.presentPosition else s

@[simp] theorem torque_latched (p : Fates) : (s.latched p).torque = s.torque := by
  unfold latched
  split
  · exact s.torque_storeGoal _
  · rfl

theorem goalPosition_latched (p : Fates) :
    (s.latched p).goalPosition = s.presentPosition ↔ s.goalPosition = s.presentPosition ∨
      p.mode = .answered ∧ p.state = .answered ∧ p.goal ≠ .lost := by
  unfold latched
  split
  · rename_i hlatched
    exact ⟨fun _ => .inr hlatched, fun _ => s.goalPosition_storeGoal _⟩
  · rename_i hstale
    exact ⟨.inl, fun h => h.resolve_right hstale⟩

end Servo

section Exchanges

variable {m : ServoModel} {id : JointId} {s : Servo} (hid : id ≠ 0xFE) (hs : m.servos id = some s)
  (hpresent : s.present = true) (p : Fates)

include hid hs hpresent

theorem lossy_read (reg len : UInt8) (hlen : reg.toNat + len.toNat ≤ Servo.regCount) :
    (lossy p).exchange m ⟨id, .readData, [reg, len]⟩ =
      (if p.of ⟨id, .readData, [reg, len]⟩ = .answered then
        some (0 :: (List.range len.toNat).map fun i => s.regs (reg.toNat + i)) else none, m) := by
  have hdispatch : m.dispatch ⟨id, .readData, [reg, len]⟩ =
      (some (0 :: (List.range len.toNat).map fun i => s.regs (reg.toNat + i)), m) := by
    simp [ServoModel.dispatch, ServoModel.readRegs, hid, hs, hpresent, Nat.not_lt.mpr hlen]
  show (p.of _).carry m _ = _
  cases p.of ⟨id, .readData, [reg, len]⟩ with
  | lost => rfl
  | unheard =>
    rw [Fate.carry, hdispatch]
    rfl
  | answered => exact hdispatch

theorem lossy_write (reg : UInt8) (data : List UInt8) (hdata : data ≠ [])
    (hlen : reg.toNat + data.length ≤ Servo.regCount) (hunlocked : ¬reg < Reg.torqueEnable) :
    ((lossy p).exchange m ⟨id, .writeData, reg :: data⟩).2 =
      if p.of ⟨id, .writeData, reg :: data⟩ = .lost then m
      else m.update id { s with regs := Servo.storeBytes s.regs reg.toNat data } := by
  have hdispatch : (m.dispatch ⟨id, .writeData, reg :: data⟩).2 =
      m.update id { s with regs := Servo.storeBytes s.regs reg.toNat data } := by
    simp [ServoModel.dispatch, ServoModel.writeReg, hid, hs, hpresent, hdata, Nat.not_lt.mpr hlen, hunlocked]
  show ((p.of _).carry m _).2 = _
  cases p.of ⟨id, .writeData, reg :: data⟩ with
  | lost => rfl
  | unheard => exact hdispatch
  | answered => exact hdispatch

theorem lossy_writeGoal (raw : UInt16) :
    ((lossy p).exchange m (buildSetGoalPosition id raw)).2 =
      if p.goal = .lost then m else m.update id (s.storeGoal raw) := by
  have hroom : Reg.goalPosition.toNat + 2 ≤ Servo.regCount := by decide
  exact lossy_write hid hs hpresent p Reg.goalPosition [lowByte raw, highByte raw] (by simp) hroom (by decide)

theorem servos_torque (log : List Frame) :
    ((Bus.command (lossy p) (buildSetTorqueEnable id true)).run ⟨m, log⟩).2.wire.servos id =
      some (if p.torque = .lost then s else s.storeTorque 1) := by
  have hwrite : ((lossy p).exchange m (buildSetTorqueEnable id true)).2 =
      if p.torque = .lost then m else m.update id (s.storeTorque 1) :=
    lossy_write hid hs hpresent p Reg.torqueEnable [1] (by simp) (by decide) (by decide)
  show ((lossy p).exchange m (buildSetTorqueEnable id true)).2.servos id = _
  rw [hwrite]
  split
  · exact hs
  · exact if_pos rfl

theorem run_readOperatingMode (log : List Frame) :
    (Bus.readOperatingMode (lossy p) id).run ⟨m, log⟩ =
      (if p.mode = .answered then some (s.regs Reg.mode.toNat) else none, ⟨m, log ++ [buildReadMode id]⟩) := by
  have hread : (lossy p).exchange m (buildReadMode id) =
      (if p.mode = .answered then some [0, s.regs Reg.mode.toNat] else none, m) :=
    lossy_read hid hs hpresent p Reg.mode 1 (by decide)
  show ((((lossy p).exchange m (buildReadMode id)).1.bind _,
    ⟨((lossy p).exchange m (buildReadMode id)).2, _⟩) : Option UInt8 × Bus ServoModel) = _
  rw [hread]
  split
  · rfl
  · rfl

theorem run_readState (log : List Frame) :
    ∃ st, st.positionRaw = s.presentPosition ∧ (Bus.readState (lossy p) id).run ⟨m, log⟩ =
      (if p.state = .answered then some st else none, ⟨m, log ++ [buildReadStateBlock id]⟩) := by
  have hread : (lossy p).exchange m (buildReadStateBlock id) =
      (if p.state = .answered then some (0 :: (List.range 15).map fun i => s.regs (Reg.presentPosition.toNat + i)) else none,
        m) :=
    lossy_read hid hs hpresent p Reg.presentPosition 0x0F (by decide)
  have hparse : ∃ st, Bus.parseState (0 :: (List.range 15).map fun i => s.regs (Reg.presentPosition.toNat + i)) = some st ∧
      st.positionRaw = s.presentPosition := ⟨_, rfl, rfl⟩
  obtain ⟨st, hparse, hst⟩ := hparse
  refine ⟨st, hst, ?_⟩
  show ((((lossy p).exchange m (buildReadStateBlock id)).1.bind Bus.parseState,
    ⟨((lossy p).exchange m (buildReadStateBlock id)).2, _⟩) : Option ServoState × Bus ServoModel) = _
  rw [hread]
  split
  · rw [Option.bind_some, hparse]
  · rfl

theorem servos_enableTorqueHoldingPosition (hposition : s.regs Reg.mode.toNat = 0) (log : List Frame) :
    ((Bus.enableTorqueHoldingPosition (lossy p) id).run ⟨m, log⟩).2.wire.servos id =
      some (if p.torque = .lost then s.latched p else (s.latched p).storeTorque 1) := by
  have hmode := run_readOperatingMode hid hs hpresent p log
  obtain ⟨st, hst, hstate⟩ := run_readState hid hs hpresent p (log ++ [buildReadMode id])
  rw [hposition] at hmode
  unfold Servo.latched
  rw [Bus.enableTorqueHoldingPosition, StateT.run_bind, hmode]
  by_cases hheard : p.mode = .answered
  · rw [if_pos hheard]
    show ((Bus.readState (lossy p) id >>= _).run ⟨m, _⟩).2.wire.servos id = _
    rw [StateT.run_bind, hstate]
    by_cases hread : p.state = .answered
    · rw [if_pos hread]
      show ((Bus.command (lossy p) (buildSetTorqueEnable id true)).run
        ⟨((lossy p).exchange m (buildSetGoalPosition id st.positionRaw)).2, _⟩).2.wire.servos id = _
      rw [lossy_writeGoal hid hs hpresent, hst]
      by_cases hgoal : p.goal = .lost
      · simp only [hgoal, if_true, ne_eq, not_true_eq_false, and_false, if_false]
        exact servos_torque hid hs hpresent p _
      simp only [hheard, hread, hgoal, if_false, ne_eq, not_false_eq_true, and_self, if_true]
      have hlatched : (m.update id (s.storeGoal s.presentPosition)).servos id = some (s.storeGoal s.presentPosition) :=
        if_pos rfl
      exact servos_torque hid hlatched hpresent p _
    · simp only [hread, if_false, false_and, and_false]
      exact servos_torque hid hs hpresent p _
  · simp only [hheard, if_false, false_and]
    exact servos_torque hid hs hpresent p _

end Exchanges

/-- A servo in position mode holds where it stands when torque comes on, and keeps its torque register otherwise, exactly if torque does not come on, the goal is the present position already, or the call has latched it. -/
theorem goal_latched_iff (p : Fates) {m : ServoModel} {id : JointId} {s : Servo} (hid : id ≠ 0xFE)
    (hs : m.servos id = some s) (hpresent : s.present = true) (hposition : s.regs Reg.mode.toNat = 0) (log : List Frame) :
    (∃ after, ((Bus.enableTorqueHoldingPosition (lossy p) id).run ⟨m, log⟩).2.wire.servos id = some after ∧
        (p.torque ≠ .lost → after.torque = 1 ∧ after.goalPosition = s.presentPosition) ∧
        (p.torque = .lost → after.torque = s.torque)) ↔
      p.torque = .lost ∨ s.goalPosition = s.presentPosition ∨
        p.mode = .answered ∧ p.state = .answered ∧ p.goal ≠ .lost := by
  rw [servos_enableTorqueHoldingPosition hid hs hpresent p hposition log]
  by_cases htorque : p.torque = .lost
  · rw [if_pos htorque]
    exact ⟨fun _ => .inl htorque, fun _ => ⟨_, rfl, fun hon => absurd htorque hon, fun _ => s.torque_latched p⟩⟩
  rw [if_neg htorque, ← s.goalPosition_latched p, or_iff_right htorque]
  constructor
  · rintro ⟨after, heq, hon, -⟩
    cases heq
    exact (Servo.goalPosition_storeTorque _ 1).symm.trans (hon htorque).2
  · intro hgoal
    refine ⟨_, rfl, fun _ => ⟨rfl, ?_⟩, fun hlost => absurd hlost htorque⟩
    exact (Servo.goalPosition_storeTorque _ 1).trans hgoal

def staleServo : Servo := ⟨true, fun a => if a = 0x39 then 0x08 else 0⟩

def staleServos : ServoModel := ⟨fun id => if id = 3 then some staleServo else none⟩

theorem goal_latched_iff_answered :
    ∃ after, ((Bus.enableTorqueHoldingPosition (lossy ⟨.answered, .answered, .unheard, .answered⟩) 3).run
        ⟨staleServos, []⟩).2.wire.servos 3 = some after ∧ after.torque = 1 ∧ after.goalPosition = 2048 := by
  have hs : staleServos.servos 3 = some staleServo := rfl
  obtain ⟨after, hafter, hon, -⟩ :=
    (goal_latched_iff ⟨.answered, .answered, .unheard, .answered⟩ (by decide) hs rfl rfl []).mpr (by decide)
  exact ⟨after, hafter, hon (by decide)⟩

/-- The reply to the mode read is lost, and torque comes on with the old goal. -/
theorem stale_goal_torqued :
    ∃ after, ((Bus.enableTorqueHoldingPosition (lossy ⟨.unheard, .answered, .answered, .answered⟩) 3).run
        ⟨staleServos, []⟩).2.wire.servos 3 = some after ∧
      after.torque = 1 ∧ after.goalPosition = 0 ∧ staleServo.presentPosition = 2048 :=
  ⟨_, rfl, by decide, by decide, by decide⟩

end Waypoint.Core
