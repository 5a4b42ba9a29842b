import Waypoint.Base.Bracket
import Waypoint.Core.Drive
import Waypoint.Core.Servo.ControlServer

/-!
# EEPROM writes

The registers of a servo below `TORQUE_ENABLE` are kept in EEPROM and take a write only while the lock register is open.
-/

namespace Waypoint.Core

open Base Bus

/-- What a write to one servo puts into a register; the operations here send no sync write. -/
def Frame.written (f : Frame) (reg : UInt8) : Option UInt8 :=
  match f.instruction, f.params with
  | .writeData, addr :: data => if addr ≤ reg then data[reg.toNat - addr.toNat]? else none
  | _, _ => none

def eeprom : LockUse Frame JointId where
  sets f id := if id = f.id then (f.written Reg.lock).map (· = 1) else none
  works f id := id = f.id ∧ ∃ reg < Reg.torqueEnable, (f.written reg).isSome

section Frames

variable {id k : JointId} {addr : UInt8} {data : List UInt8}

theorem written_write (reg : UInt8) :
    Frame.written ⟨id, .writeData, addr :: data⟩ reg = if addr ≤ reg then data[reg.toNat - addr.toNat]? else none := rfl

theorem sets_of_beside (h : addr.toNat + data.length ≤ Reg.lock.toNat ∨ Reg.lock < addr) :
    eeprom.sets ⟨id, .writeData, addr :: data⟩ k = none := by
  have hwritten : Frame.written ⟨id, .writeData, addr :: data⟩ Reg.lock = none := by
    rw [written_write]
    split
    · rename_i hbelow
      rcases h with hend | habove
      · exact List.getElem?_eq_none (by omega)
      · exact absurd hbelow (UInt8.not_le.mpr habove)
    · rfl
  show (if k = id then _ else none) = none
  rw [hwritten]
  split <;> rfl

theorem not_works_of_le (h : Reg.torqueEnable ≤ addr) : ¬eeprom.works ⟨id, .writeData, addr :: data⟩ k := by
  rintro ⟨-, reg, hreg, hwritten⟩
  rw [written_write, if_neg (UInt8.not_le.mpr (UInt8.lt_of_lt_of_le hreg h))] at hwritten
  cases hwritten

theorem key_of_works {f : Frame} (h : eeprom.works f k) : k = f.id := h.1

theorem sets_lock (locked : Bool) : eeprom.sets (buildSetEEPROMLock id locked) k = if k = id then some locked else none := by
  cases locked <;> rfl

def Frame.Plain (f : Frame) : Prop := ∀ k, ¬eeprom.works f k ∧ eeprom.sets f k = none

theorem plain_write (hram : Reg.torqueEnable ≤ addr)
    (hbeside : addr.toNat + data.length ≤ Reg.lock.toNat ∨ Reg.lock < addr) :
    Frame.Plain ⟨id, .writeData, addr :: data⟩ :=
  fun _ => ⟨not_works_of_le hram, sets_of_beside hbeside⟩

theorem plain_read (id : JointId) (params : List UInt8) : Frame.Plain ⟨id, .readData, params⟩ := by
  refine fun k => ⟨?_, ?_⟩
  · rintro ⟨-, reg, -, hwritten⟩
    cases hwritten
  · show (if k = id then none else none) = none
    split <;> rfl

theorem bracketed_plain {fs : List Frame} (h : ∀ f ∈ fs, f.Plain) : eeprom.Bracketed fs :=
  LockUse.bracketed_of_idle (fun f hf k => (h f hf k).1) fun f hf k => (h f hf k).2

theorem bracketed_eeprom (id : JointId) (body : List Frame) (h : ∀ f ∈ body, f.id = id ∧ ∀ k, eeprom.sets f k = none) :
    eeprom.Bracketed (buildSetEEPROMLock id false :: body ++ [buildSetEEPROMLock id true]) := by
  refine LockUse.bracketed_session id (fun k => sets_lock false) (fun k => sets_lock true) (fun k => ?_) ?_
  · exact ⟨not_works_of_le (by decide), not_works_of_le (by decide)⟩
  · exact fun f hf k => ⟨(h f hf).2 k, fun hwork => (key_of_works hwork).trans (h f hf).1⟩

end Frames

section Programs

variable {σ α : Type} {w : Wire σ}

/-- Whatever was unlocked is locked again. -/
def Closes (b b' : Bus σ) : Prop := ∃ fs, b'.log = b.log ++ fs ∧ eeprom.Bracketed fs

instance : Std.Refl (@Closes σ) := ⟨fun b => ⟨[], by simp, bracketed_plain (by simp)⟩⟩

instance : IsTrans (Bus σ) Closes :=
  ⟨fun a b c ⟨fs, hfs, hbracketed⟩ ⟨gs, hgs, hbracketed'⟩ =>
    ⟨fs ++ gs, by rw [hgs, hfs, List.append_assoc], hbracketed.append hbracketed'⟩⟩

theorem closes_of_sends {fs : List Frame} {p : StateM (Bus σ) α} (hsends : Sends fs p) (h : eeprom.Bracketed fs) :
    Keeps Closes p :=
  fun b => ⟨fs, hsends b, h⟩

theorem closes_of_uses {p : StateM (Bus σ) α} (h : Uses w Frame.Plain p) : Keeps Closes p := by
  refine h Closes ?_ ?_
  · exact fun f hf b => ⟨[f], rfl, bracketed_plain (List.forall_mem_singleton.mpr hf)⟩
  · exact fun f hf b => ⟨[f], rfl, bracketed_plain (List.forall_mem_singleton.mpr hf)⟩

variable (id : JointId)

theorem bracketed_one (f : Frame) (hid : f.id = id) (h : ∀ k, eeprom.sets f k = none) :
    eeprom.Bracketed ([buildSetEEPROMLock id false] ++ ([f] ++ ([buildSetEEPROMLock id true] ++ []))) :=
  bracketed_eeprom id [f] (List.forall_mem_singleton.mpr ⟨hid, h⟩)

theorem closes_setAngleLimits (minRaw maxRaw : UInt16) :
    Keeps Closes (setAngleLimits w id minRaw maxRaw) := by
  refine closes_of_sends ?_ (bracketed_one id (buildSetAngleLimits id minRaw maxRaw) rfl ?_)
  · refine sends_bind (sends_exchange _) fun _ => ?_
    refine sends_bind (sends_exchange _) fun _ => ?_
    exact sends_bind (sends_exchange _) fun _ => sends_pure _
  · exact fun k => sets_of_beside (.inl (Nat.le_of_ble_eq_true rfl))

theorem sends_writeField {α : Type} (build : α → Frame) (field : Option α) :
    Sends (field.map build).toList (writeField w build field) := by
  cases field with
  | none => exact sends_pure _
  | some value => exact sends_bind (sends_exchange _) fun _ => sends_pure _

def Tuning.eepromFrames (t : Tuning) : List Frame :=
  (t.returnDelay.map (buildWriteByte id Reg.returnDelay)).toList ++
    ((t.pCoef.map (buildWriteByte id Reg.compP)).toList ++
      ((t.dCoef.map (buildWriteByte id Reg.compD)).toList ++ (t.iCoef.map (buildWriteByte id Reg.compI)).toList))

theorem Tuning.mem_eepromFrames {id : JointId} {t : Tuning} {f : Frame} (h : f ∈ t.eepromFrames id) :
    ∃ reg value, f = buildWriteByte id reg value ∧ reg < Reg.torqueEnable := by
  have hfield {reg : UInt8} {field : Option UInt8} (hreg : reg < Reg.torqueEnable)
      (hmem : f ∈ (field.map (buildWriteByte id reg)).toList) :
      ∃ reg value, f = buildWriteByte id reg value ∧ reg < Reg.torqueEnable := by
    obtain ⟨value, -, hvalue⟩ := Option.map_eq_some_iff.mp (Option.mem_toList.mp hmem)
    exact ⟨reg, value, hvalue.symm, hreg⟩
  rw [Tuning.eepromFrames, List.mem_append, List.mem_append, List.mem_append] at h
  rcases h with h | h | h | h
  · exact hfield (by decide) h
  · exact hfield (by decide) h
  · exact hfield (by decide) h
  · exact hfield (by decide) h

theorem bracketed_eepromFrames (t : Tuning) :
    eeprom.Bracketed (buildSetEEPROMLock id false :: t.eepromFrames id ++ [buildSetEEPROMLock id true]) := by
  refine bracketed_eeprom id _ fun f hf => ?_
  obtain ⟨reg, value, rfl, hreg⟩ := Tuning.mem_eepromFrames hf
  refine ⟨rfl, fun k => sets_of_beside (.inl ?_)⟩
  have hlt : reg.toNat < 40 := hreg
  show reg.toNat + 1 ≤ 55
  omega

theorem closes_writeEepromFields (t : Tuning) : Keeps Closes (writeEepromFields w id t) := by
  unfold writeEepromFields
  split
  · have hsends := sends_bind (sends_exchange (w := w) (buildSetEEPROMLock id false)) fun _ =>
      sends_bind (sends_writeField (w := w) (buildWriteByte id Reg.returnDelay) t.returnDelay) fun okDelay =>
        sends_bind (sends_writeField (w := w) (buildWriteByte id Reg.compP) t.pCoef) fun okP =>
          sends_bind (sends_writeField (w := w) (buildWriteByte id Reg.compD) t.dCoef) fun okD =>
            sends_bind (sends_writeField (w := w) (buildWriteByte id Reg.compI) t.iCoef) fun okI =>
              sends_bind (sends_exchange (w := w) (buildSetEEPROMLock id true)) fun _ =>
                sends_pure (okDelay && okP && okD && okI)
    refine closes_of_sends hsends ?_
    simpa [Tuning.eepromFrames] using bracketed_eepromFrames id t
  · exact keeps_pure _

theorem closes_setTuning (t : Tuning) : Keeps Closes (setTuning w id t) := by
  refine keeps_bind (closes_writeEepromFields id t) fun okEeprom => ?_
  refine keeps_bind (closes_of_sends (sends_writeField _ _) (bracketed_plain ?_)) fun okAcc => ?_
  · intro f hf
    obtain ⟨value, -, rfl⟩ := Option.map_eq_some_iff.mp (Option.mem_toList.mp hf)
    exact plain_write (by decide) (.inl (Nat.le_of_ble_eq_true rfl))
  refine keeps_bind (closes_of_sends (sends_writeField _ _) (bracketed_plain ?_)) fun okMax => keeps_pure _
  intro f hf
  obtain ⟨value, -, rfl⟩ := Option.map_eq_some_iff.mp (Option.mem_toList.mp hf)
  exact plain_write (by decide) (.inr (by decide))

theorem closes_mode (mode : UInt8) {k : Int → α} :
    Keeps Closes (do
      let _ ← setEEPROMLock w id false
      let e ← setOperatingMode w id mode
      let _ ← setEEPROMLock w id true
      return k e) := by
  refine closes_of_sends ?_ (bracketed_one id (buildSetMode id mode) rfl ?_)
  · refine sends_bind (sends_command _) fun _ => ?_
    refine sends_bind (sends_command _) fun _ => ?_
    exact sends_bind (sends_command _) fun _ => sends_pure _
  · exact fun k => sets_of_beside (.inl (Nat.le_of_ble_eq_true rfl))

theorem plain_setTorqueEnable (on : Bool) : (buildSetTorqueEnable id on).Plain :=
  plain_write (by decide) (.inl (Nat.le_of_ble_eq_true rfl))

theorem closes_applyOp (op : ServoOp) : Keeps Closes (ServoControlServer.applyOp w id op) := by
  have hgoal (raw : UInt16) : (buildSetGoalPosition id raw).Plain :=
    plain_write (by decide) (.inl (Nat.le_of_ble_eq_true rfl))
  have hspeed (v : Int) : (buildSetGoalSpeed id v).Plain :=
    plain_write (by decide) (.inl (Nat.le_of_ble_eq_true rfl))
  cases op with
  | setMode mode => exact closes_mode id mode.toUInt8
  | setTorqueEnable on =>
    cases on with
    | false =>
      have huses := uses_command (w := w) (plain_setTorqueEnable id false)
      exact keeps_bind (closes_of_uses huses) fun _ => keeps_pure _
    | true =>
      have huses := uses_enableTorqueHoldingPosition (w := w) (plain_read id _) (plain_read id _) hgoal
        (plain_setTorqueEnable id true)
      exact keeps_bind (closes_of_uses huses) fun _ => keeps_pure _
  | setGoalPosition raw =>
    exact keeps_bind (closes_of_uses (w := w) (uses_command (hgoal _))) fun _ => keeps_pure _
  | setTorqueLimit raw =>
    have hlimit : (buildSetTorqueLimit id raw.toUInt16).Plain :=
      plain_write (by decide) (.inl (Nat.le_of_ble_eq_true rfl))
    exact keeps_bind (closes_of_uses (w := w) (uses_command hlimit)) fun _ => keeps_pure _
  | setAngleLimits minRaw maxRaw => exact keeps_bind (closes_setAngleLimits id _ _) fun _ => keeps_pure _
  | setOvercurrentLimit raw => exact keeps_pure _
  | setGoalSpeed raw => exact keeps_bind (closes_of_uses (w := w) (uses_command (hspeed _))) fun _ => keeps_pure _
  | setGoalVelocity raw => exact keeps_bind (closes_of_uses (w := w) (uses_command (hspeed _))) fun _ => keeps_pure _
  | setTuning t => exact keeps_bind (closes_setTuning id _) fun _ => keeps_pure _
  | notSet => exact keeps_pure _

theorem closes_handleControl (deny : List UInt8) (estopped : Bool) (c : ServoControl) (srv : ServoControlServer) :
    Keeps Closes (ServoControlServer.handleControl w deny estopped c srv) := by
  unfold ServoControlServer.handleControl
  split
  · exact keeps_pure _
  split
  · exact keeps_pure _
  split
  · exact keeps_pure _
  · split
    · exact keeps_pure _
    · exact keeps_bind (closes_applyOp _ _) fun _ => keeps_pure _

theorem closes_ensureMode (drv : Sts3215Driver) (id : JointId) : Keeps Closes (drv.ensureMode w id) := by
  unfold Sts3215Driver.ensureMode
  cases drv.info id with
  | none => exact keeps_pure _
  | some i =>
    refine keeps_bind (closes_of_uses (w := w) ?_) fun cur => ?_
    · exact uses_bind (uses_exchange (plain_read id _)) fun _ => uses_pure _
    split
    · exact keeps_pure _
    · refine keeps_bind (closes_of_uses (w := w) (uses_command (plain_setTorqueEnable id false))) fun _ => ?_
      exact closes_mode id (Sts3215Driver.desiredMode i)

theorem closes_ensureModes (drv : Sts3215Driver) (ids : List JointId) : Keeps Closes (drv.ensureModes w ids) := by
  induction ids with
  | nil => exact keeps_pure _
  | cons id ids ih =>
    refine keeps_bind (closes_ensureMode drv id) fun ok => ?_
    exact keeps_bind ih fun rest => keeps_pure _

end Programs

inductive EepromOp
  | setAngleLimits (id : JointId) (minRaw maxRaw : UInt16)
  | setTuning (id : JointId) (t : Tuning)
  | control (deny : List UInt8) (estopped : Bool) (c : ServoControl) (srv : ServoControlServer)
  | ensureModes (drv : Sts3215Driver) (presentIds : List JointId)

def EepromOp.run {σ : Type} (w : Wire σ) : EepromOp → StateM (Bus σ) PUnit
  | .setAngleLimits id minRaw maxRaw => do
      let _ ← Bus.setAngleLimits w id minRaw maxRaw
  | .setTuning id t => do
      let _ ← Bus.setTuning w id t
  | .control deny estopped c srv => do
      let _ ← ServoControlServer.handleControl w deny estopped c srv
  | .ensureModes drv presentIds => do
      let _ ← drv.ensureModes w presentIds

/-- Whatever is behind the wire, each EEPROM write of an operation stands between an unlock and a lock of its servo, and no servo is left unlocked. -/
theorem eeprom_writes_bracketed {σ : Type} (w : Wire σ) (op : EepromOp) (b : Bus σ) :
    ∃ fs, ((op.run w).run b).2.log = b.log ++ fs ∧ eeprom.Bracketed fs := by
  have hcloses : Keeps Closes (op.run w) := by
    cases op with
    | setAngleLimits id minRaw maxRaw => exact keeps_bind (closes_setAngleLimits id minRaw maxRaw) fun _ => keeps_pure _
    | setTuning id t => exact keeps_bind (closes_setTuning id t) fun _ => keeps_pure _
    | control deny estopped c srv => exact keeps_bind (closes_handleControl deny estopped c srv) fun _ => keeps_pure _
    | ensureModes drv presentIds => exact keeps_bind (closes_ensureModes drv presentIds) fun _ => keeps_pure _
  exact hcloses b

example : eeprom.works (buildSetMode 3 1) 3 := ⟨rfl, Reg.mode, by decide, rfl⟩

end Waypoint.Core
