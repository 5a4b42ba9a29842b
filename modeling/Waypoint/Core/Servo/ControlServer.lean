import Waypoint.Core.Servo.Bus

/-!
# The module servo server

`servo/ServoControlServer.cpp`: the surface through which modules reach servos.
-/

namespace Waypoint.Core

open Base Bus

structure ServoTuning where
  pCoefficient : Option UInt32 := none
  iCoefficient : Option UInt32 := none
  dCoefficient : Option UInt32 := none
  acceleration : Option UInt32 := none
  maxAcceleration : Option UInt32 := none
  returnDelay : Option UInt32 := none

/-- The `op` of a `ServoControl` message. The goal velocity is an `sint32`. -/
inductive ServoOp
  | setMode (mode : UInt32)
  | setTorqueEnable (on : Bool)
  | setGoalPosition (raw : UInt32)
  | setTorqueLimit (raw : UInt32)
  | setAngleLimits (minRaw maxRaw : UInt32)
  | setOvercurrentLimit (raw : UInt32)
  | setGoalSpeed (raw : UInt32)
  | setGoalVelocity (raw : Int)
  | setTuning (t : ServoTuning)
  | notSet

structure ServoControl where
  servoId : UInt32
  op : ServoOp

structure ServoGoal where
  servoId : UInt32
  goalPosition : UInt32

structure ServoReadReply where
  servoId : UInt32
  ok : Bool
  state : Option ServoState
  moving : Bool := false
  overcurrentTripped : Bool := false

structure ServoControlServer where
  /-- Indexed by servo id; zero disables the trip. -/
  overcurrentCeil : UInt32 → UInt16 := fun _ => 0

namespace ServoControlServer

def inRange (id : UInt32) : Bool := 1 ≤ id && id ≤ 12

def isDenied (deny : List UInt8) (id : UInt32) : Bool := deny.contains id.toUInt8

def ServoTuning.toTuning (t : ServoTuning) : Tuning where
  pCoef := t.pCoefficient.map UInt32.toUInt8
  iCoef := t.iCoefficient.map UInt32.toUInt8
  dCoef := t.dCoefficient.map UInt32.toUInt8
  acceleration := t.acceleration.map UInt32.toUInt8
  returnDelay := t.returnDelay.map UInt32.toUInt8
  maxAcceleration := t.maxAcceleration.map UInt32.toUInt16

def clampVelocity (v : Int) : Int :=
  let v := if v > 32767 then 32767 else v
  if v < -32767 then -32767 else v

variable {σ : Type} (w : Wire σ)

/-- The operations that reach the bus. The overcurrent limit stays in the server. -/
def applyOp (id : JointId) : ServoOp → StateM (Bus σ) PUnit
  | .setMode mode => do
      let _ ← setEEPROMLock w id false
      let _ ← setOperatingMode w id mode.toUInt8
      let _ ← setEEPROMLock w id true
      pure ⟨⟩
  | .setTorqueEnable on => do
      let _ ← if on then enableTorqueHoldingPosition w id else Bus.setTorqueEnable w id false
      pure ⟨⟩
  | .setGoalPosition raw => do
      let _ ← Bus.setGoalPosition w id (raw &&& 0x0FFF).toUInt16
      pure ⟨⟩
  | .setTorqueLimit raw => do
      let _ ← Bus.setTorqueLimit w id raw.toUInt16
      pure ⟨⟩
  | .setAngleLimits minRaw maxRaw => do
      let _ ← Bus.setAngleLimits w id minRaw.toUInt16 maxRaw.toUInt16
      pure ⟨⟩
  | .setGoalSpeed raw => do
      -- position-mode speed cap: the direction bit is masked off
      let _ ← Bus.setGoalSpeed w id (raw &&& 0x7FFF).toNat
      pure ⟨⟩
  | .setGoalVelocity raw => do
      let _ ← Bus.setGoalSpeed w id (clampVelocity raw)
      pure ⟨⟩
  | .setTuning t => do
      let _ ← Bus.setTuning w id (ServoTuning.toTuning t)
      pure ⟨⟩
  | .setOvercurrentLimit _ | .notSet => pure ⟨⟩

def setCeil (srv : ServoControlServer) (id : UInt32) (raw : UInt16) : ServoControlServer :=
  { srv with overcurrentCeil := fun i => if i = id then raw else srv.overcurrentCeil i }

def handleControl (deny : List UInt8) (estopped : Bool) (c : ServoControl) (srv : ServoControlServer) :
    StateM (Bus σ) ServoControlServer :=
  if !inRange c.servoId then pure srv
  else if isDenied deny c.servoId then pure srv
  else if estopped then pure srv
  else
    match c.op with
    | .setOvercurrentLimit raw => pure (srv.setCeil c.servoId raw.toUInt16)
    | op => do
        applyOp w c.servoId.toUInt8 op
        return srv

def admittedGoals (deny : List UInt8) (goals : List ServoGoal) : List (JointId × UInt16) :=
  (goals.filter fun g => inRange g.servoId && !isDenied deny g.servoId).map fun g =>
    (g.servoId.toUInt8, (g.goalPosition &&& 0x0FFF).toUInt16)

def handleSync (deny : List UInt8) (estopped : Bool) (goals : List ServoGoal) : StateM (Bus σ) PUnit :=
  if estopped then pure ⟨⟩
  else do
    let _ ← syncWriteGoalPositions w (admittedGoals deny goals)
    pure ⟨⟩

def checkTrip (servoId : UInt32) (srv : ServoControlServer) (st : ServoState) : StateM (Bus σ) ServoReadReply :=
  let reply : ServoReadReply := { servoId := servoId, ok := true, state := some st, moving := st.speedRaw ≠ 0 }
  let ceil := srv.overcurrentCeil servoId
  if ceil > 0 ∧ st.currentRaw > ceil then do
    let _ ← Bus.setTorqueEnable w servoId.toUInt8 false
    return { reply with overcurrentTripped := true }
  else return reply

def handleRead (servoId : UInt32) (srv : ServoControlServer) : StateM (Bus σ) ServoReadReply :=
  if !inRange servoId then pure { servoId := servoId, ok := false, state := none }
  else do
    let reading ← readState w servoId.toUInt8
    match reading with
    | none => return { servoId := servoId, ok := false, state := none }
    | some st => checkTrip w servoId srv st

variable {w}

@[simp] theorem handleControl_estopped (deny : List UInt8) (c : ServoControl) (srv : ServoControlServer) :
    handleControl w deny true c srv = pure srv := by
  unfold handleControl
  split
  · rfl
  · split
    · rfl
    · rfl

@[simp] theorem handleSync_estopped (deny : List UInt8) (goals : List ServoGoal) :
    handleSync w deny true goals = pure ⟨⟩ := rfl

def OverCeiling (ceil : UInt16) (st : ServoState) : Prop := ceil > 0 ∧ st.currentRaw > ceil

instance (ceil : UInt16) (st : ServoState) : Decidable (OverCeiling ceil st) := inferInstanceAs (Decidable (_ ∧ _))

section Trip

variable {servoId : UInt32} {srv : ServoControlServer} {st : ServoState}

theorem checkTrip_over (h : OverCeiling (srv.overcurrentCeil servoId) st) :
    checkTrip w servoId srv st = (do
      let _ ← Bus.setTorqueEnable w servoId.toUInt8 false
      return { servoId := servoId, ok := true, state := some st, moving := st.speedRaw ≠ 0, overcurrentTripped := true }) :=
  if_pos h

theorem checkTrip_under (h : ¬OverCeiling (srv.overcurrentCeil servoId) st) :
    checkTrip w servoId srv st = pure { servoId := servoId, ok := true, state := some st, moving := st.speedRaw ≠ 0 } :=
  if_neg h

end Trip

theorem checkTrip_frames (servoId : UInt32) (srv : ServoControlServer) (st : ServoState) (b : Bus σ) :
    ∃ fs, ((checkTrip w servoId srv st).run b).2.log = b.log ++ fs ∧
      ∀ f ∈ fs, f = buildSetTorqueEnable servoId.toUInt8 false ∧
        ((checkTrip w servoId srv st).run b).1.overcurrentTripped = true := by
  by_cases htrip : OverCeiling (srv.overcurrentCeil servoId) st
  · rw [checkTrip_over htrip]
    refine ⟨_, sends_bind (sends_command _) (fun _ => sends_pure _) b, fun f hf => ⟨?_, rfl⟩⟩
    simpa using hf
  · rw [checkTrip_under htrip]
    exact ⟨[], sends_pure _ b, by simp⟩

theorem handleRead_frames (servoId : UInt32) (srv : ServoControlServer) (b : Bus σ) :
    ∃ fs, ((handleRead w servoId srv).run b).2.log = b.log ++ fs ∧
      ∀ f ∈ fs, f.isWrite = true → f = buildSetTorqueEnable servoId.toUInt8 false ∧
        ((handleRead w servoId srv).run b).1.overcurrentTripped = true := by
  unfold handleRead
  by_cases hrange : inRange servoId = true
  · rw [hrange, Bool.not_true, if_neg Bool.false_ne_true, StateT.run_bind]
    have hread := Bus.sends_readState (w := w) servoId.toUInt8 b
    generalize (readState w servoId.toUInt8).run b = answer at hread ⊢
    obtain ⟨reading, b'⟩ := answer
    have hquiet : (buildReadStateBlock servoId.toUInt8).isWrite = false := rfl
    cases reading with
    | none =>
      refine ⟨_, hread, fun f hf hwrite => ?_⟩
      rw [List.mem_singleton.mp hf, hquiet] at hwrite
      exact absurd hwrite Bool.false_ne_true
    | some st =>
      obtain ⟨fs, hlog, hfs⟩ := checkTrip_frames (w := w) servoId srv st b'
      refine ⟨[buildReadStateBlock servoId.toUInt8] ++ fs, ?_, fun f hf hwrite => ?_⟩
      · rw [← List.append_assoc, ← hread]
        exact hlog
      rcases List.mem_append.mp hf with h | h
      · rw [List.mem_singleton.mp h, hquiet] at hwrite
        exact absurd hwrite Bool.false_ne_true
      · exact hfs f h
  · rw [if_pos (by simpa using hrange)]
    exact ⟨[], sends_pure _ b, by simp⟩

variable {P : Frame → Prop} {servoId : UInt32} {srv : ServoControlServer}

theorem uses_checkTrip {st : ServoState}
    (htrip : srv.overcurrentCeil servoId ≠ 0 → P (buildSetTorqueEnable servoId.toUInt8 false)) :
    Uses w P (checkTrip w servoId srv st) := by
  by_cases hover : OverCeiling (srv.overcurrentCeil servoId) st
  · have hset : srv.overcurrentCeil servoId ≠ 0 := fun h => absurd (h ▸ hover.1) (by decide)
    rw [checkTrip_over hover]
    exact uses_bind (uses_command (htrip hset)) fun _ => uses_pure _
  · rw [checkTrip_under hover]
    exact uses_pure _

theorem uses_handleRead
    (hread : P (buildReadStateBlock servoId.toUInt8))
    (htrip : srv.overcurrentCeil servoId ≠ 0 → P (buildSetTorqueEnable servoId.toUInt8 false)) :
    Uses w P (handleRead w servoId srv) := by
  unfold handleRead
  split
  · exact uses_pure _
  refine uses_bind (uses_readState hread) fun reading => ?_
  cases reading with
  | none => exact uses_pure _
  | some st => exact uses_checkTrip htrip

end ServoControlServer

end Waypoint.Core
