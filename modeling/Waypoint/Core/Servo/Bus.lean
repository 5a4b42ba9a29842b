import Waypoint.Base.Effect
import Waypoint.Core.Servo.Frame

/-!
# The servo bus

`servo/Sts3215Bus.cpp` over an arbitrary wire, which answers an exchange with the reply's error byte and parameters, or with nothing when it times out.
-/

namespace Waypoint.Core

open Base

structure Wire (σ : Type) where
  exchange : σ → Frame → Option (List UInt8) × σ
  sendNoReply : σ → Frame → Bool × σ

structure Bus (σ : Type) where
  wire : σ
  log : List Frame

structure ServoState where
  positionRaw : UInt16
  speedRaw : Int
  loadRaw : Int
  voltageDeci : UInt8
  temperatureC : UInt8
  currentRaw : UInt16

structure Tuning where
  pCoef : Option UInt8 := none
  iCoef : Option UInt8 := none
  dCoef : Option UInt8 := none
  acceleration : Option UInt8 := none
  returnDelay : Option UInt8 := none
  maxAcceleration : Option UInt16 := none

namespace Bus

variable {σ : Type} (w : Wire σ)

def exchange (f : Frame) : StateM (Bus σ) (Option (List UInt8)) := do
  let b ← get
  let (reply, wire) := w.exchange b.wire f
  set { wire := wire, log := b.log ++ [f] : Bus σ }
  return reply

def sendNoReply (f : Frame) : StateM (Bus σ) Bool := do
  let b ← get
  let (ok, wire) := w.sendNoReply b.wire f
  set { wire := wire, log := b.log ++ [f] : Bus σ }
  return ok

/-- An exchange whose reply only says whether it worked: `0` or `-1`. -/
def command (f : Frame) : StateM (Bus σ) Int := do
  let reply ← exchange w f
  return if reply.isSome then 0 else -1

def ping (id : JointId) : StateM (Bus σ) Int := command w (buildPing id)

def parseState : List UInt8 → Option ServoState
  | _err :: d0 :: d1 :: d2 :: d3 :: d4 :: d5 :: d6 :: d7 :: _d8 :: _d9 :: _d10 :: _d11 :: _d12 :: d13 :: d14 :: _ =>
    some {
      positionRaw := wordOfBytes d0 d1
      speedRaw := decodeSignMagnitude (wordOfBytes d2 d3) 15
      loadRaw := decodeSignMagnitude (wordOfBytes d4 d5) 10
      voltageDeci := d6
      temperatureC := d7
      currentRaw := wordOfBytes d13 d14 }
  | _ => none

def readState (id : JointId) : StateM (Bus σ) (Option ServoState) := do
  let reply ← exchange w (buildReadStateBlock id)
  return reply.bind parseState

def setGoalSpeed (id : JointId) (signedSpeed : Int) : StateM (Bus σ) Int :=
  command w (buildSetGoalSpeed id signedSpeed)

def setTorqueEnable (id : JointId) (on : Bool) : StateM (Bus σ) Int :=
  command w (buildSetTorqueEnable id on)

def readOperatingMode (id : JointId) : StateM (Bus σ) (Option UInt8) := do
  let reply ← exchange w (buildReadMode id)
  return reply.bind fun
    | _err :: mode :: _ => some mode
    | _ => none

def setOperatingMode (id : JointId) (mode : UInt8) : StateM (Bus σ) Int := command w (buildSetMode id mode)

def setEEPROMLock (id : JointId) (locked : Bool) : StateM (Bus σ) Int := command w (buildSetEEPROMLock id locked)

def setGoalPosition (id : JointId) (raw : UInt16) : StateM (Bus σ) Int := command w (buildSetGoalPosition id raw)

def setTorqueLimit (id : JointId) (raw : UInt16) : StateM (Bus σ) Int := command w (buildSetTorqueLimit id raw)

def setAngleLimits (id : JointId) (minRaw maxRaw : UInt16) : StateM (Bus σ) Int := do
  let _ ← exchange w (buildSetEEPROMLock id false)
  let ok ← exchange w (buildSetAngleLimits id minRaw maxRaw)
  let _ ← exchange w (buildSetEEPROMLock id true)
  return if ok.isSome then 0 else -1

def writeField {α : Type} (build : α → Frame) : Option α → StateM (Bus σ) Bool
  | none => return true
  | some value => do
      let reply ← exchange w (build value)
      return reply.isSome

/-- The EEPROM fields share one unlock and relock, and skip it when none of them is set. -/
def writeEepromFields (id : JointId) (t : Tuning) : StateM (Bus σ) Bool := do
  if t.returnDelay.isSome || t.pCoef.isSome || t.dCoef.isSome || t.iCoef.isSome then
    let _ ← exchange w (buildSetEEPROMLock id false)
    let okDelay ← writeField w (buildWriteByte id Reg.returnDelay) t.returnDelay
    let okP ← writeField w (buildWriteByte id Reg.compP) t.pCoef
    let okD ← writeField w (buildWriteByte id Reg.compD) t.dCoef
    let okI ← writeField w (buildWriteByte id Reg.compI) t.iCoef
    let _ ← exchange w (buildSetEEPROMLock id true)
    return okDelay && okP && okD && okI
  else
    return true

def setTuning (id : JointId) (t : Tuning) : StateM (Bus σ) Int := do
  let okEeprom ← writeEepromFields w id t
  let okAcc ← writeField w (buildWriteByte id Reg.acceleration) t.acceleration
  let okMax ← writeField w (buildWriteWord id Reg.maxAcceleration) t.maxAcceleration
  return if okEeprom && okAcc && okMax then 0 else -1

/-- In position mode the goal is set to the present position before torque comes on; a reply that is
missing or short skips that step, not the torque. -/
def enableTorqueHoldingPosition (id : JointId) : StateM (Bus σ) Int := do
  let mode ← readOperatingMode w id
  if mode = some 0 then
    let state ← readState w id
    match state with
    | some s =>
      let _ ← exchange w (buildSetGoalPosition id s.positionRaw)
      pure ()
    | none => pure ()
  command w (buildSetTorqueEnable id true)

def syncWriteGoalPositions (goals : List (JointId × UInt16)) : StateM (Bus σ) Int := do
  if goals.isEmpty then return 0
  let ok ← sendNoReply w (buildSyncWriteGoalPositions goals)
  return if ok then 0 else -1

/-- All that the program does to the bus are exchanges of such frames. -/
def Uses {α : Type} (P : Frame → Prop) (p : StateM (Bus σ) α) : Prop :=
  ∀ (r : Bus σ → Bus σ → Prop) [Std.Refl r] [IsTrans (Bus σ) r],
    (∀ f, P f → Keeps r (exchange w f)) → (∀ f, P f → Keeps r (sendNoReply w f)) → Keeps r p

section Uses

variable {w} {α β : Type} {P Q : Frame → Prop}

theorem uses_pure (a : α) : Uses w P (pure a : StateM (Bus σ) α) :=
  fun _ _ _ _ _ => keeps_pure a

theorem uses_bind {p : StateM (Bus σ) α} {k : α → StateM (Bus σ) β}
    (hp : Uses w P p) (hk : ∀ a, Uses w P (k a)) : Uses w P (p >>= k) :=
  fun r _ _ hex hsend => keeps_bind (hp r hex hsend) fun a => hk a r hex hsend

theorem uses_forM {p : α → StateM (Bus σ) PUnit} (xs : List α)
    (hp : ∀ a ∈ xs, Uses w P (p a)) : Uses w P (forM xs p) :=
  fun r _ _ hex hsend => keeps_forM xs fun a ha => hp a ha r hex hsend

variable {f : Frame} {id : JointId}

theorem uses_exchange (hf : P f) : Uses w P (exchange w f) :=
  fun _ _ _ hex _ => hex f hf

theorem uses_sendNoReply (hf : P f) : Uses w P (sendNoReply w f) :=
  fun _ _ _ _ hsend => hsend f hf

theorem uses_command (hf : P f) : Uses w P (command w f) :=
  uses_bind (uses_exchange hf) fun _ => uses_pure _

theorem uses_readState (hf : P (buildReadStateBlock id)) : Uses w P (readState w id) :=
  uses_bind (uses_exchange hf) fun _ => uses_pure _

theorem uses_enableTorqueHoldingPosition (hmode : P (buildReadMode id))
    (hstate : P (buildReadStateBlock id)) (hgoal : ∀ raw, P (buildSetGoalPosition id raw))
    (htorque : P (buildSetTorqueEnable id true)) : Uses w P (enableTorqueHoldingPosition w id) := by
  have hrest : Uses w P (command w (buildSetTorqueEnable id true)) := uses_command htorque
  refine uses_bind (uses_bind (uses_exchange hmode) fun _ => uses_pure _) fun mode => ?_
  split
  · refine uses_bind (uses_readState hstate) fun state => ?_
    cases state with
    | none => exact hrest
    | some s => exact uses_bind (uses_exchange (hgoal _)) fun _ => hrest
  · exact hrest

end Uses

def Grows (P : Frame → Prop) (b b' : Bus σ) : Prop :=
  ∃ fs, b'.log = b.log ++ fs ∧ ∀ f ∈ fs, P f

instance (P : Frame → Prop) : Std.Refl (@Grows σ P) :=
  ⟨fun b => ⟨[], by simp, by simp⟩⟩

instance (P : Frame → Prop) : IsTrans (Bus σ) (Grows P) :=
  ⟨fun a b c hab hbc => by
    obtain ⟨fs, hfs, hP⟩ := hab
    obtain ⟨gs, hgs, hQ⟩ := hbc
    refine ⟨fs ++ gs, by rw [hgs, hfs, List.append_assoc], fun f hf => ?_⟩
    rcases List.mem_append.mp hf with h | h
    · exact hP f h
    · exact hQ f h⟩

variable {P : Frame → Prop} {f : Frame}

theorem keeps_grows_exchange {w : Wire σ} (hf : P f) : Keeps (Grows P) (exchange w f) :=
  fun _ => ⟨[f], rfl, List.forall_mem_singleton.mpr hf⟩

theorem keeps_grows_sendNoReply {w : Wire σ} (hf : P f) :
    Keeps (Grows P) (sendNoReply w f) :=
  fun _ => ⟨[f], rfl, List.forall_mem_singleton.mpr hf⟩

def Sends {α : Type} (fs : List Frame) (p : StateM (Bus σ) α) : Prop :=
  ∀ b, (p.run b).2.log = b.log ++ fs

section Sends

variable {w} {α β : Type}

theorem sends_pure (a : α) : Sends [] (pure a : StateM (Bus σ) α) :=
  fun b => (List.append_nil b.log).symm

theorem sends_bind {fs gs : List Frame} {p : StateM (Bus σ) α} {k : α → StateM (Bus σ) β}
    (hp : Sends fs p) (hk : ∀ a, Sends gs (k a)) : Sends (fs ++ gs) (p >>= k) := by
  intro b
  rw [StateT.run_bind, ← List.append_assoc, ← hp b]
  exact hk _ _

theorem sends_exchange (f : Frame) : Sends [f] (exchange w f) := fun _ => rfl

theorem sends_command (f : Frame) : Sends [f] (command w f) :=
  sends_bind (sends_exchange f) fun _ => sends_pure _

theorem sends_readState (id : JointId) : Sends [buildReadStateBlock id] (readState w id) :=
  sends_bind (sends_exchange _) fun _ => sends_pure _

theorem sends_forM {frames : α → List Frame} {p : α → StateM (Bus σ) PUnit} (xs : List α)
    (hp : ∀ a ∈ xs, Sends (frames a) (p a)) : Sends (xs.flatMap frames) (forM xs p) := by
  induction xs with
  | nil => exact sends_pure _
  | cons x xs ih =>
    rw [List.forM_cons, List.flatMap_cons]
    exact sends_bind (hp x List.mem_cons_self)
      fun _ => ih fun a ha => hp a (List.mem_cons_of_mem _ ha)

end Sends

end Bus

end Waypoint.Core
