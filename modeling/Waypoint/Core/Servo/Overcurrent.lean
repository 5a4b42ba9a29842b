import Waypoint.Core.Servo.ControlServer

/-!
# The overcurrent trip

A module sets a limit for the current of a servo, and a read of the servo that finds more cuts its torque.
-/

namespace Waypoint.Core

open Base Bus

def ServoState.currentMagnitude (st : ServoState) : UInt16 := st.currentRaw &&& 0x7FFF

def Overcurrent (limit : UInt32) (st : ServoState) : Prop := 0 < limit ∧ limit.toNat < st.currentMagnitude.toNat

namespace ServoControlServer

inductive ServerCall
  | control (c : ServoControl)
  | read (servoId : UInt32)

variable {σ : Type} (w : Wire σ) (deny : List UInt8)

def serve (x : ServoControlServer × Bus σ) : ServerCall → ServoControlServer × Bus σ
  | .control c => (handleControl w deny false c x.1).run x.2
  | .read servoId => (x.1, ((handleRead w servoId x.1).run x.2).2)

/-- A read answers that the servo was tripped. -/
def Reports (servoId : UInt32) (x : ServoControlServer × Bus σ) : Prop :=
  ((handleRead w servoId x.1).run x.2).1.overcurrentTripped = true

/-- A read switches the torque of the servo off. -/
def Disables (servoId : UInt32) (x : ServoControlServer × Bus σ) : Prop :=
  ∃ fs, ((handleRead w servoId x.1).run x.2).2.log = x.2.log ++ fs ∧ buildSetTorqueEnable servoId.toUInt8 false ∈ fs

def noteLimit (servoId limit : UInt32) : ServerCall → UInt32
  | .control ⟨id, .setOvercurrentLimit raw⟩ => if id = servoId then raw else limit
  | _ => limit

def lastLimit (servoId : UInt32) (calls : List ServerCall) : UInt32 := calls.foldl (noteLimit servoId) 0

variable {w deny} {servoId : UInt32}

theorem handleControl_other {estopped : Bool} {id : UInt32} {op : ServoOp} (h : ∀ raw, op ≠ .setOvercurrentLimit raw)
    (srv : ServoControlServer) (b : Bus σ) : ((handleControl w deny estopped ⟨id, op⟩ srv).run b).1 = srv := by
  unfold handleControl
  split
  · rfl
  split
  · rfl
  split
  · rfl
  split
  · rename_i raw hop
    exact absurd hop (h raw)
  · rfl

variable {limit : UInt32} {st : ServoState}

theorem ceil_serve (hrange : inRange servoId = true) (hallowed : isDenied deny servoId = false)
    {x : ServoControlServer × Bus σ} (h : x.1.overcurrentCeil servoId = limit.toUInt16) (c : ServerCall) :
    (serve w deny x c).1.overcurrentCeil servoId = (noteLimit servoId limit c).toUInt16 := by
  cases c with
  | read id => exact h
  | control c =>
    obtain ⟨id, op⟩ := c
    cases op with
    | setOvercurrentLimit raw =>
      by_cases hid : id = servoId
      · subst hid
        have hset : serve w deny x (.control ⟨id, .setOvercurrentLimit raw⟩) = (x.1.setCeil id raw.toUInt16, x.2) := by
          rw [serve, handleControl, hrange, hallowed]
          rfl
        rw [hset, noteLimit, if_pos rfl, setCeil]
        exact if_pos rfl
      · have hkept : (serve w deny x (.control ⟨id, .setOvercurrentLimit raw⟩)).1.overcurrentCeil servoId =
            x.1.overcurrentCeil servoId := by
          rw [serve, handleControl]
          split
          · rfl
          · split
            · rfl
            · exact if_neg (Ne.symm hid)
        rw [hkept, noteLimit, if_neg hid, h]
    | _ =>
      rw [serve, handleControl_other (fun raw hop => by cases hop)]
      exact h

theorem ceil_calls (hrange : inRange servoId = true) (hallowed : isDenied deny servoId = false) (b : Bus σ)
    (calls : List ServerCall) :
    (calls.foldl (serve w deny) ({}, b)).1.overcurrentCeil servoId = (lastLimit servoId calls).toUInt16 := by
  have hfold {x : ServoControlServer × Bus σ} {limit : UInt32} (h : x.1.overcurrentCeil servoId = limit.toUInt16) :
      (calls.foldl (serve w deny) x).1.overcurrentCeil servoId = (calls.foldl (noteLimit servoId) limit).toUInt16 := by
    induction calls generalizing x limit with
    | nil => exact h
    | cons c calls ih => exact ih (ceil_serve hrange hallowed h c)
  exact hfold rfl

section Read

variable {x : ServoControlServer × Bus σ} {st : ServoState}

section

variable (hrange : inRange servoId = true)

include hrange

theorem run_handleRead (hread : ((readState w servoId.toUInt8).run x.2).1 = some st) :
    (handleRead w servoId x.1).run x.2 = (checkTrip w servoId x.1 st).run ((readState w servoId.toUInt8).run x.2).2 := by
  rw [handleRead, hrange, Bool.not_true, if_neg Bool.false_ne_true, StateT.run_bind]
  generalize (readState w servoId.toUInt8).run x.2 = answer at hread ⊢
  obtain ⟨reading, b⟩ := answer
  subst hread
  rfl

theorem reports_iff (hread : ((readState w servoId.toUInt8).run x.2).1 = some st) :
    Reports w servoId x ↔ OverCeiling (x.1.overcurrentCeil servoId) st := by
  rw [Reports, run_handleRead hrange hread]
  by_cases htrip : OverCeiling (x.1.overcurrentCeil servoId) st
  · rw [checkTrip_over htrip]
    exact ⟨fun _ => htrip, fun _ => rfl⟩
  · rw [checkTrip_under htrip]
    exact ⟨fun h => (by cases h), fun h => absurd h htrip⟩

theorem log_handleRead
    (hread : ((readState w servoId.toUInt8).run x.2).1 = some st) :
    ((handleRead w servoId x.1).run x.2).2.log = x.2.log ++ buildReadStateBlock servoId.toUInt8 ::
      if OverCeiling (x.1.overcurrentCeil servoId) st then [buildSetTorqueEnable servoId.toUInt8 false] else [] := by
  have hreading := sends_readState (w := w) servoId.toUInt8 x.2
  rw [run_handleRead hrange hread]
  by_cases htrip : OverCeiling (x.1.overcurrentCeil servoId) st
  · rw [if_pos htrip, checkTrip_over htrip, ← List.singleton_append, ← List.append_assoc, ← hreading]
    exact sends_bind (sends_command _) (fun _ => sends_pure _) _
  · rw [if_neg htrip, checkTrip_under htrip]
    exact hreading

theorem disables_iff (hread : ((readState w servoId.toUInt8).run x.2).1 = some st) :
    Disables w servoId x ↔ OverCeiling (x.1.overcurrentCeil servoId) st := by
  rw [Disables, log_handleRead hrange hread]
  constructor
  · rintro ⟨fs, hfs, hmem⟩
    obtain rfl := List.append_cancel_left hfs
    rcases List.mem_cons.mp hmem with hmem | hmem
    · cases hmem
    · by_contra htrip
      rw [if_neg htrip] at hmem
      cases hmem
  · intro htrip
    rw [if_pos htrip]
    exact ⟨_, rfl, List.mem_cons_of_mem _ List.mem_cons_self⟩

end

end Read

theorem overCeiling_of_overcurrent (h : Overcurrent limit st) :
    OverCeiling limit.toUInt16 st := by
  obtain ⟨hset, hover⟩ := h
  have hpos : 0 < limit.toNat := hset
  have hmagnitude : st.currentMagnitude.toNat = st.currentRaw.toNat % 2 ^ 15 := by
    rw [ServoState.currentMagnitude, UInt16.toNat_and]
    exact Nat.and_two_pow_sub_one_eq_mod _ 15
  have hceil : limit.toUInt16.toNat = limit.toNat := by
    rw [UInt32.toNat_toUInt16]
    omega
  constructor
  · show 0 < limit.toUInt16.toNat
    omega
  · show limit.toUInt16.toNat < st.currentRaw.toNat
    omega

theorem overcurrent_iff (h : OverCeiling limit.toUInt16 st) :
    Overcurrent limit st ↔ limit.toNat < st.currentMagnitude.toNat := by
  have hpos : 0 < limit.toUInt16.toNat := h.1
  rw [UInt32.toNat_toUInt16] at hpos
  have hset : 0 < limit.toNat := by omega
  exact ⟨fun hover => hover.2, fun hover => ⟨hset, hover⟩⟩

/-- A read trips as it should in exactly these cases: the limit has no low half, the word of the register does not exceed that half, or the magnitude exceeds the limit. -/
theorem overcurrent_trip_iff {σ : Type} (w : Wire σ) (deny : List UInt8) (b : Bus σ) (calls : List ServerCall)
    {servoId : UInt32} (hrange : inRange servoId = true) (hallowed : isDenied deny servoId = false) {st : ServoState}
    (hread : ((readState w servoId.toUInt8).run (calls.foldl (serve w deny) ({}, b)).2).1 = some st) :
    ((Reports w servoId (calls.foldl (serve w deny) ({}, b)) ↔ Overcurrent (lastLimit servoId calls) st) ∧
        (Disables w servoId (calls.foldl (serve w deny) ({}, b)) ↔ Overcurrent (lastLimit servoId calls) st)) ↔
      (lastLimit servoId calls).toUInt16 = 0 ∨ st.currentRaw ≤ (lastLimit servoId calls).toUInt16 ∨
        (lastLimit servoId calls).toNat < st.currentMagnitude.toNat := by
  rw [reports_iff hrange hread, disables_iff hrange hread, ceil_calls hrange hallowed, and_self_iff]
  by_cases htrip : OverCeiling (lastLimit servoId calls).toUInt16 st
  · have hset : (lastLimit servoId calls).toUInt16 ≠ 0 := fun h => absurd (h ▸ htrip.1) (by decide)
    rw [iff_true_left htrip, overcurrent_iff htrip]
    exact ⟨fun hover => .inr (.inr hover), fun h => (h.resolve_left hset).resolve_left (UInt16.not_le.mpr htrip.2)⟩
  have hnot : ¬Overcurrent (lastLimit servoId calls) st := fun h => htrip (overCeiling_of_overcurrent h)
  rw [iff_false_left htrip]
  refine iff_of_true hnot ?_
  by_cases hzero : (lastLimit servoId calls).toUInt16 = 0
  · exact .inl hzero
  · exact .inr (.inl (UInt16.not_lt.mp fun hover => htrip ⟨UInt16.pos_iff_ne_zero.mpr hzero, hover⟩))

def currentWire (low high : UInt8) : Wire Unit where
  exchange s _ := (some [0, 0, 0, 0, 0, 0, 0, 0, 0, 0, 0, 0, 0, 0, low, high], s)
  sendNoReply s _ := (true, s)

theorem overcurrent_trip_at_512 :
    Reports (currentWire 0x00 0x02) 3 ([.control ⟨3, .setOvercurrentLimit 256⟩].foldl (serve (currentWire 0x00 0x02) []) ({}, ⟨(), []⟩)) ↔
      Overcurrent (lastLimit 3 [.control ⟨3, .setOvercurrentLimit 256⟩]) ⟨0, 0, 0, 0, 0, 512⟩ :=
  ((overcurrent_trip_iff (currentWire 0x00 0x02) [] ⟨(), []⟩ [.control ⟨3, .setOvercurrentLimit 256⟩] rfl rfl rfl).mpr
    (.inr (.inr (by decide)))).1

/-- One unit of current in the other direction trips a limit of 100. -/
theorem reversed_current_trips :
    ((readState (currentWire 0x01 0x80) 3).run
        ([.control ⟨3, .setOvercurrentLimit 100⟩].foldl (serve (currentWire 0x01 0x80) []) ({}, ⟨(), []⟩)).2).1 =
        some ⟨0, 0, 0, 0, 0, 0x8001⟩ ∧
      Reports (currentWire 0x01 0x80) 3
        ([.control ⟨3, .setOvercurrentLimit 100⟩].foldl (serve (currentWire 0x01 0x80) []) ({}, ⟨(), []⟩)) ∧
      Disables (currentWire 0x01 0x80) 3
        ([.control ⟨3, .setOvercurrentLimit 100⟩].foldl (serve (currentWire 0x01 0x80) []) ({}, ⟨(), []⟩)) ∧
      ¬Overcurrent (lastLimit 3 [.control ⟨3, .setOvercurrentLimit 100⟩]) ⟨0, 0, 0, 0, 0, 0x8001⟩ := by
  refine ⟨rfl, rfl, ?_, fun h => absurd h.2 (by decide)⟩
  exact ⟨[buildReadStateBlock 3, buildSetTorqueEnable 3 false], rfl, by decide⟩

end ServoControlServer

end Waypoint.Core
