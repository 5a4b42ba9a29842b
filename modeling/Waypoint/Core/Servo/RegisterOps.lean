import Waypoint.Core.Servo.SimUart

/-!
# Bus operations as register updates

Every operation of the bus that sets something is, to its caller, a list of register cells and the bytes they get.
-/

namespace Waypoint.Core

open Base

def setCells (regs : Nat → UInt8) (cells : List (Nat × UInt8)) : Nat → UInt8 :=
  cells.foldl (fun regs c => Function.update regs c.1 c.2) regs

def wordCells (addr v : Nat) : List (Nat × UInt8) := [(addr, UInt8.ofNat (v % 256)), (addr + 1, UInt8.ofNat (v / 256))]

def fieldCells {α : Type} (cells : α → List (Nat × UInt8)) : Option α → List (Nat × UInt8)
  | none => []
  | some value => cells value

theorem setCells_append (regs : Nat → UInt8) (cells cells' : List (Nat × UInt8)) :
    setCells regs (cells ++ cells') = setCells (setCells regs cells) cells' :=
  List.foldl_append

variable {a : Nat} {id : JointId}

theorem setCells_of_ne {cells : List (Nat × UInt8)} (h : ∀ c ∈ cells, a ≠ c.1) (regs : Nat → UInt8) :
    setCells regs cells a = regs a := by
  induction cells generalizing regs with
  | nil => rfl
  | cons c cells ih =>
    rw [List.forall_mem_cons] at h
    exact (ih h.2 _).trans (Function.update_of_ne h.1 _ _)

namespace Servo

variable (regs : Nat → UInt8) (addr : Nat)

theorem storeBytes_nil : storeBytes regs addr [] = regs := by
  funext a
  exact storeBytes_outside (by rw [List.length_nil]; omega)

theorem storeBytes_cons (b : UInt8) (data : List UInt8) :
    storeBytes regs addr (b :: data) = storeBytes (Function.update regs addr b) (addr + 1) data := by
  funext a
  unfold storeBytes
  rw [List.length_cons]
  by_cases hfirst : a = addr
  · subst hfirst
    rw [if_pos (by omega), if_neg (by omega), Function.update_self, Nat.sub_self, List.getD_cons_zero]
  by_cases hinside : addr ≤ a ∧ a < addr + (data.length + 1)
  · obtain ⟨k, rfl⟩ : ∃ k, a = addr + 1 + k := ⟨a - (addr + 1), by omega⟩
    rw [if_pos hinside, if_pos (by omega), show addr + 1 + k - addr = k + 1 by omega, Nat.add_sub_cancel_left,
      List.getD_cons_succ]
  · rw [if_neg hinside, if_neg (by omega), Function.update_of_ne hfirst]

theorem storeBytes_byte (b : UInt8) :
    storeBytes regs addr [b] = setCells regs [(addr, b)] := by
  rw [storeBytes_cons, storeBytes_nil]
  rfl

theorem word_bytes (v : UInt16) : [(addr, lowByte v), (addr + 1, highByte v)] = wordCells addr v.toNat := by
  have hv := v.toNat_lt
  have hlow : lowByte v = UInt8.ofNat (v.toNat % 256) := by
    apply UInt8.toNat_inj.mp
    rw [toNat_lowByte, UInt8.toNat_ofNat_of_lt' (show v.toNat % 256 < 2 ^ 8 by omega)]
  have hhigh : highByte v = UInt8.ofNat (v.toNat / 256) := by
    apply UInt8.toNat_inj.mp
    rw [toNat_highByte, UInt8.toNat_ofNat_of_lt' (show v.toNat / 256 < 2 ^ 8 by omega)]
  rw [wordCells, hlow, hhigh]

theorem storeBytes_word (v : UInt16) :
    storeBytes regs addr [lowByte v, highByte v] = setCells regs (wordCells addr v.toNat) := by
  rw [storeBytes_cons, storeBytes_byte, ← word_bytes]
  rfl

theorem storeBytes_words (v v' : UInt16) :
    storeBytes regs addr [lowByte v, highByte v, lowByte v', highByte v'] =
      setCells regs (wordCells addr v.toNat ++ wordCells (addr + 2) v'.toNat) := by
  rw [storeBytes_cons, storeBytes_cons, storeBytes_word, setCells_append, ← word_bytes addr v]
  rfl

end Servo

/-- The operations that set something. A speed is a sign and fifteen bits. -/
inductive BusOp
  | setGoalSpeed (signedSpeed : Int) (bounded : signedSpeed.natAbs ≤ 32767)
  | setTorqueEnable (on : Bool)
  | setOperatingMode (mode : UInt8)
  | setEEPROMLock (locked : Bool)
  | setGoalPosition (raw : UInt16)
  | setTorqueLimit (raw : UInt16)
  | setAngleLimits (minRaw maxRaw : UInt16)
  | setTuning (t : Tuning)

def signMagnitude (v : Int) : Nat := v.natAbs + if v < 0 then 2 ^ 15 else 0

theorem toNat_encodeSignMagnitude {v : Int} (h : v.natAbs ≤ 32767) : (encodeSignMagnitude v 15).toNat = signMagnitude v := by
  have hmagnitude : (UInt16.ofNat v.natAbs).toNat = v.natAbs :=
    UInt16.toNat_ofNat_of_lt' (show v.natAbs < 2 ^ 16 by omega)
  unfold encodeSignMagnitude signMagnitude
  by_cases hneg : v < 0
  · rw [if_pos hneg, if_pos hneg, UInt16.toNat_or, hmagnitude, Nat.add_comm]
    show v.natAbs ||| 2 ^ 15 * 1 = 2 ^ 15 * 1 + v.natAbs
    rw [Nat.two_pow_add_eq_or_of_lt (show v.natAbs < 2 ^ 15 by omega), Nat.or_comm]
  · rw [if_neg hneg, if_neg hneg, hmagnitude, Nat.add_zero]

namespace BusOp

variable {σ : Type}

def run (w : Wire σ) (id : JointId) : BusOp → StateM (Bus σ) Int
  | setGoalSpeed signedSpeed _ => Bus.setGoalSpeed w id signedSpeed
  | setTorqueEnable on => Bus.setTorqueEnable w id on
  | setOperatingMode mode => Bus.setOperatingMode w id mode
  | setEEPROMLock locked => Bus.setEEPROMLock w id locked
  | setGoalPosition raw => Bus.setGoalPosition w id raw
  | setTorqueLimit raw => Bus.setTorqueLimit w id raw
  | setAngleLimits minRaw maxRaw => Bus.setAngleLimits w id minRaw maxRaw
  | setTuning t => Bus.setTuning w id t

end BusOp

def Tuning.eepromCells (t : Tuning) : List (Nat × UInt8) :=
  fieldCells (fun v => [(0x07, v)]) t.returnDelay ++ fieldCells (fun v => [(0x15, v)]) t.pCoef ++
    fieldCells (fun v => [(0x16, v)]) t.dCoef ++ fieldCells (fun v => [(0x17, v)]) t.iCoef

def BusOp.cells : BusOp → List (Nat × UInt8)
  | setGoalSpeed signedSpeed _ => wordCells 0x2E (signMagnitude signedSpeed)
  | setTorqueEnable on => [(0x28, if on then 1 else 0)]
  | setOperatingMode mode => [(0x21, mode)]
  | setEEPROMLock locked => [(0x37, if locked then 1 else 0)]
  | setGoalPosition raw => wordCells 0x2A raw.toNat
  | setTorqueLimit raw => wordCells 0x30 raw.toNat
  | setAngleLimits minRaw maxRaw => wordCells 0x09 minRaw.toNat ++ wordCells 0x0B maxRaw.toNat ++ [(0x37, 1)]
  | setTuning t =>
    (if t.eepromCells = [] then [] else t.eepromCells ++ [(0x37, 1)]) ++
      fieldCells (fun v => [(0x29, v)]) t.acceleration ++
      fieldCells (fun v : UInt16 => wordCells 0x55 v.toNat) t.maxAcceleration

def BusOp.maxAcceleration : BusOp → Option UInt16
  | setTuning t => t.maxAcceleration
  | _ => none

/-- The operation succeeded: it returned 0, the servo's registers are updated as documented, the other servos are as they were, and nothing is left on the line. -/
structure BusOp.Done (op : BusOp) (id : JointId) (s : Servo) (u : SimUart) (r : Int) (v : SimUart) : Prop where
  returned : r = 0
  servo : v.model.servos id = some { s with regs := setCells s.regs op.cells }
  others : ∀ other, other ≠ id → v.model.servos other = u.model.servos other
  idle : v.Idle

theorem ServoModel.update_update (m : ServoModel) (id : JointId) (s s' : Servo) :
    (m.update id s).update id s' = m.update id s' := by
  refine congrArg ServoModel.mk (funext fun other => ?_)
  by_cases hother : other = id
  · simp only [update, if_pos hother]
  · simp only [update, if_neg hother]

theorem ServoModel.update_self {m : ServoModel} {s : Servo} (h : m.servos id = some s) : m.update id s = m := by
  refine congrArg ServoModel.mk (funext fun other => ?_)
  by_cases hother : other = id
  · rw [if_pos hother, hother, h]
  · rw [if_neg hother]

theorem ServoModel.dispatch_write (hid : id ≠ 0xFE) (m : ServoModel) (addr : UInt8) (data : List UInt8) :
    m.dispatch ⟨id, .writeData, addr :: data⟩ =
      (if (m.writeReg id addr data).1 then some [0] else none, (m.writeReg id addr data).2) :=
  if_neg hid

/-- The line is idle and the servo has these registers; nothing else has changed since `u`. -/
structure Shows (u : SimUart) (id : JointId) (s : Servo) (regs : Nat → UInt8) (b : Bus SimUart) : Prop where
  idle : b.wire.Idle
  model : b.wire.model = u.model.update id { s with regs }

section Writes

variable {patience : Nat} {u : SimUart} {id : JointId} {s : Servo} {regs : Nat → UInt8}

variable {f : Frame} {regs' : Nat → UInt8} {addr reg : UInt8} {data : List UInt8}

theorem ends_exchange (hfits : f.params.length < 254) {reply : Option (List UInt8)}
    (hshort : ∀ r, reply = some r → r.length ≤ 59)
    (hdispatch : (u.model.update id { s with regs }).dispatch f = (reply, u.model.update id { s with regs := regs' })) :
    Ends (Shows u id s regs) (Bus.exchange (SimUart.uart.wire patience) f) fun r b => r = reply ∧ Shows u id s regs' b := by
  intro b hb
  have hshows : b.wire.model.dispatch f = (reply, u.model.update id { s with regs := regs' }) := by rw [hb.model, hdispatch]
  obtain ⟨v, hexchange, hidle, hmodel⟩ := SimUart.exchange_refines hb.idle hfits
    (fun r hr => hshort r (by rw [hshows] at hr; exact hr)) patience
  rw [hshows] at hexchange hmodel
  have hrun : (Bus.exchange (SimUart.uart.wire patience) f).run b =
      (((SimUart.uart.wire patience).exchange b.wire f).1,
        ⟨((SimUart.uart.wire patience).exchange b.wire f).2, b.log ++ [f]⟩) := rfl
  rw [hrun, hexchange]
  exact ⟨rfl, hidle, hmodel⟩

variable (hid : id ≠ 0xFE) (hpresent : s.present = true)

include hid hpresent

theorem ends_write (hdata : data ≠ [])
    (hbound : addr.toNat + data.length ≤ Servo.regCount)
    (hfree : regs Reg.lock.toNat ≠ 1 ∨ Reg.torqueEnable ≤ addr) :
    Ends (Shows u id s regs) (Bus.exchange (SimUart.uart.wire patience) ⟨id, .writeData, addr :: data⟩)
      fun r b => r = some [0] ∧ Shows u id s (Servo.storeBytes regs addr.toNat data) b := by
  have hlength : data.length ≤ 0x50 := Nat.le_trans (Nat.le_add_left _ _) hbound
  have hservo : (u.model.update id { s with regs }).servos id = some { s with regs } := if_pos rfl
  refine ends_exchange (by rw [List.length_cons]; omega) ?_ ?_
  · intro r hr
    cases hr
    decide
  · rw [ServoModel.dispatch_write hid, ServoModel.writeReg_present hservo hpresent hdata hbound hfree,
      ServoModel.update_update]
    rfl

theorem ends_write_past (hlength : data.length ≤ 252)
    (hpast : Servo.regCount < addr.toNat + data.length) :
    Ends (Shows u id s regs) (Bus.exchange (SimUart.uart.wire patience) ⟨id, .writeData, addr :: data⟩)
      fun r b => r = none ∧ Shows u id s regs b := by
  have hservo : (u.model.update id { s with regs }).servos id = some { s with regs } := if_pos rfl
  refine ends_exchange (by rw [List.length_cons]; omega) (fun r hr => by cases hr) ?_
  have hrefused : (u.model.update id { s with regs }).writeReg id addr data = (false, u.model.update id { s with regs }) := by
    rw [ServoModel.writeReg, hservo]
    dsimp only
    rw [if_neg (by rw [hpresent]; decide)]
    split
    · rfl
    · rfl
  rw [ServoModel.dispatch_write hid, hrefused]
  rfl

theorem ends_writeByte (value : UInt8) (hbound : reg.toNat < Servo.regCount)
    (hfree : regs Reg.lock.toNat ≠ 1 ∨ Reg.torqueEnable ≤ reg) :
    Ends (Shows u id s regs) (Bus.exchange (SimUart.uart.wire patience) (buildWriteByte id reg value))
      fun r b => r = some [0] ∧ Shows u id s (setCells regs [(reg.toNat, value)]) b := by
  rw [← Servo.storeBytes_byte]
  exact ends_write hid hpresent (List.cons_ne_nil _ _) hbound hfree

theorem ends_writeWord (value : UInt16) (hbound : reg.toNat + 2 ≤ Servo.regCount)
    (hfree : regs Reg.lock.toNat ≠ 1 ∨ Reg.torqueEnable ≤ reg) :
    Ends (Shows u id s regs) (Bus.exchange (SimUart.uart.wire patience) (buildWriteWord id reg value))
      fun r b => r = some [0] ∧ Shows u id s (setCells regs (wordCells reg.toNat value.toNat)) b := by
  rw [← Servo.storeBytes_word]
  exact ends_write hid hpresent (List.cons_ne_nil _ _) hbound hfree

omit hid hpresent in
theorem ends_command
    (h : Ends (Shows u id s regs) (Bus.exchange (SimUart.uart.wire patience) f)
      fun r b => r = some [0] ∧ Shows u id s regs' b) :
    Ends (Shows u id s regs) (Bus.command (SimUart.uart.wire patience) f) fun r b => r = 0 ∧ Shows u id s regs' b :=
  ends_bind_eq h (ends_pure fun _ hb => ⟨rfl, hb⟩)

theorem ends_lock (locked : Bool) :
    Ends (Shows u id s regs) (Bus.exchange (SimUart.uart.wire patience) (buildSetEEPROMLock id locked))
      fun r b => r = some [0] ∧ Shows u id s (setCells regs [(0x37, if locked then 1 else 0)]) b :=
  ends_writeByte hid hpresent _ (by decide) (.inr (by decide))

theorem ends_unlock (hlock : regs 0x37 = 0) :
    Ends (Shows u id s regs) (Bus.exchange (SimUart.uart.wire patience) (buildSetEEPROMLock id false))
      fun r b => r = some [0] ∧ Shows u id s regs b := by
  have hsame : setCells regs [(0x37, 0)] = regs := by
    rw [← hlock]
    exact Function.update_eq_self 0x37 regs
  intro b hb
  obtain ⟨hreply, hafter⟩ := ends_lock hid hpresent false b hb
  rw [if_neg Bool.false_ne_true, hsame] at hafter
  exact ⟨hreply, hafter⟩

theorem ends_writeField (hbound : reg.toNat < Servo.regCount)
    (hfree : regs Reg.lock.toNat ≠ 1 ∨ Reg.torqueEnable ≤ reg) (field : Option UInt8) :
    Ends (Shows u id s regs) (Bus.writeField (SimUart.uart.wire patience) (buildWriteByte id reg) field)
      fun ok b => ok = true ∧ Shows u id s (setCells regs (fieldCells (fun v => [(reg.toNat, v)]) field)) b := by
  cases field with
  | none => exact ends_pure fun _ hb => ⟨rfl, hb⟩
  | some value => exact ends_bind_eq (ends_writeByte hid hpresent value hbound hfree) (ends_pure fun _ hb => ⟨rfl, hb⟩)

end Writes

theorem setCells_field_of_ne {addr : Nat} (h : a ≠ addr) (regs : Nat → UInt8) (field : Option UInt8) :
    setCells regs (fieldCells (fun v => [(addr, v)]) field) a = regs a := by
  refine setCells_of_ne ?_ regs
  intro c hc
  cases field with
  | none => cases hc
  | some value =>
    rw [List.mem_singleton.mp hc]
    exact h

theorem Tuning.eepromCells_eq_nil_iff (t : Tuning) :
    t.eepromCells = [] ↔ ¬(t.returnDelay.isSome || t.pCoef.isSome || t.dCoef.isSome || t.iCoef.isSome) = true := by
  have hfield : ∀ (addr : Nat) (field : Option UInt8),
      fieldCells (fun v => [(addr, v)]) field = [] ↔ ¬field.isSome = true := by
    intro addr field
    cases field with
    | none => exact iff_of_true rfl Bool.false_ne_true
    | some value => exact iff_of_false (List.cons_ne_nil _ _) (not_not_intro rfl)
  unfold eepromCells
  simp only [List.append_eq_nil_iff, hfield, Bool.or_eq_true, not_or]

section Operations

variable {patience : Nat} {u : SimUart} {id : JointId} {s : Servo} {regs : Nat → UInt8}
variable (hid : id ≠ 0xFE) (hpresent : s.present = true)

include hid hpresent

theorem ends_writeEepromFields (hlock : regs 0x37 = 0) (t : Tuning) :
    Ends (Shows u id s regs) (Bus.writeEepromFields (SimUart.uart.wire patience) id t)
      fun ok b => ok = true ∧
        Shows u id s (setCells regs (if t.eepromCells = [] then [] else t.eepromCells ++ [(0x37, 1)])) b := by
  have hopen : ∀ {regs' : Nat → UInt8}, regs' 0x37 = 0 → ∀ {reg : UInt8}, regs' Reg.lock.toNat ≠ 1 ∨ Reg.torqueEnable ≤ reg :=
    fun h _ => .inl fun h' => absurd (h.symm.trans h') (by decide)
  unfold Bus.writeEepromFields
  split
  · rename_i hany
    rw [if_neg fun hnil => (t.eepromCells_eq_nil_iff.mp hnil) hany]
    have hdelay := (setCells_field_of_ne (by decide : 0x37 ≠ 0x07) regs t.returnDelay).trans hlock
    have hp := (setCells_field_of_ne (by decide : 0x37 ≠ 0x15) _ t.pCoef).trans hdelay
    have hd := (setCells_field_of_ne (by decide : 0x37 ≠ 0x16) _ t.dCoef).trans hp
    refine ends_bind_eq (ends_unlock hid hpresent hlock) ?_
    refine ends_bind_eq (ends_writeField hid hpresent (by decide) (hopen hlock) t.returnDelay) ?_
    refine ends_bind_eq (ends_writeField hid hpresent (by decide) (hopen hdelay) t.pCoef) ?_
    refine ends_bind_eq (ends_writeField hid hpresent (by decide) (hopen hp) t.dCoef) ?_
    refine ends_bind_eq (ends_writeField hid hpresent (by decide) (hopen hd) t.iCoef) ?_
    refine ends_bind_eq (ends_lock hid hpresent true) (ends_pure fun b hb => ⟨rfl, ?_⟩)
    rw [Tuning.eepromCells, setCells_append, setCells_append, setCells_append, setCells_append]
    exact hb
  · rename_i hnone
    rw [if_pos (t.eepromCells_eq_nil_iff.mpr hnone)]
    exact ends_pure fun b hb => ⟨rfl, hb⟩

theorem ends_setTuning (last : Bool) {regs' : Nat → UInt8} (t : Tuning) (hlock : regs 0x37 = 0)
    (hlast : Ends (Shows u id s (setCells regs ((if t.eepromCells = [] then [] else t.eepromCells ++ [(0x37, 1)]) ++
        fieldCells (fun v => [(0x29, v)]) t.acceleration)))
      (Bus.writeField (SimUart.uart.wire patience) (buildWriteWord id Reg.maxAcceleration) t.maxAcceleration)
      fun ok b => ok = last ∧ Shows u id s regs' b) :
    Ends (Shows u id s regs) (Bus.setTuning (SimUart.uart.wire patience) id t)
      fun r b => r = (if last then 0 else -1) ∧ Shows u id s regs' b := by
  refine ends_bind_eq (ends_writeEepromFields hid hpresent hlock t) ?_
  refine ends_bind_eq (ends_writeField hid hpresent (by decide) (.inr (by decide)) t.acceleration) ?_
  rw [setCells_append] at hlast
  exact ends_bind_eq hlast (ends_pure fun b hb => ⟨rfl, hb⟩)

theorem ends_run (patience : Nat) (hlock : s.regs 0x37 = 0) (op : BusOp) (hceiling : op.maxAcceleration = none) :
    Ends (Shows u id s s.regs) (op.run (SimUart.uart.wire patience) id)
      fun r b => r = 0 ∧ Shows u id s (setCells s.regs op.cells) b := by
  have hopen : ∀ {reg : UInt8}, s.regs Reg.lock.toNat ≠ 1 ∨ Reg.torqueEnable ≤ reg :=
    .inl fun h => absurd (hlock.symm.trans h) (by decide)
  cases op with
  | setGoalSpeed signedSpeed bounded =>
    rw [BusOp.cells, ← toNat_encodeSignMagnitude bounded]
    exact ends_command (ends_writeWord hid hpresent _ (by decide) hopen)
  | setTorqueEnable on => exact ends_command (ends_writeByte hid hpresent _ (by decide) hopen)
  | setOperatingMode mode => exact ends_command (ends_writeByte hid hpresent mode (by decide) hopen)
  | setEEPROMLock locked => exact ends_command (ends_lock hid hpresent locked)
  | setGoalPosition raw => exact ends_command (ends_writeWord hid hpresent raw (by decide) hopen)
  | setTorqueLimit raw => exact ends_command (ends_writeWord hid hpresent raw (by decide) hopen)
  | setAngleLimits minRaw maxRaw =>
    have hbound : Reg.minAngleLimit.toNat + [lowByte minRaw, highByte minRaw, lowByte maxRaw, highByte maxRaw].length ≤
        Servo.regCount := (by decide : 0x09 + 4 ≤ 0x50)
    refine ends_bind_eq (ends_unlock hid hpresent hlock) ?_
    refine ends_bind_eq (ends_write hid hpresent (List.cons_ne_nil _ _) hbound hopen) ?_
    refine ends_bind_eq (ends_lock hid hpresent true) (ends_pure fun b hb => ⟨rfl, ?_⟩)
    rw [Servo.storeBytes_words] at hb
    rw [BusOp.cells, setCells_append]
    exact hb
  | setTuning t =>
    have hfield : t.maxAcceleration = none := hceiling
    refine ends_setTuning hid hpresent true t hlock ?_
    rw [hfield, BusOp.cells, hfield]
    refine ends_pure fun b hb => ⟨rfl, ?_⟩
    rw [fieldCells, List.append_nil]
    exact hb

theorem ends_run_ceiling (patience : Nat) (hlock : s.regs 0x37 = 0) {t : Tuning} {ceiling : UInt16} (hceiling : t.maxAcceleration = some ceiling) :
    Ends (Shows u id s s.regs) ((BusOp.setTuning t).run (SimUart.uart.wire patience) id) fun r _ => r = -1 := by
  have hpast : ∀ regs, Ends (Shows u id s regs)
      (Bus.writeField (SimUart.uart.wire patience) (buildWriteWord id Reg.maxAcceleration) t.maxAcceleration)
      fun ok b => ok = false ∧ Shows u id s regs b := by
    intro regs
    rw [hceiling]
    exact ends_bind_eq (ends_write_past hid hpresent (by simp) (by simp; decide)) (ends_pure fun b hb => ⟨rfl, hb⟩)
  intro b hb
  exact (ends_setTuning hid hpresent false t hlock (hpast _) b hb).1

end Operations

/-- Over an idle line to a servo that is present and unlocked, an operation does what is documented exactly if it sets no acceleration ceiling. -/
theorem bus_op_done_iff (patience : Nat) (u : SimUart) (hidle : u.Idle) (id : JointId) (hid : id ≠ 0xFE) (s : Servo)
    (hs : u.model.servos id = some s) (hpresent : s.present = true) (hlock : s.regs 0x37 = 0) (op : BusOp)
    (log : List Frame) :
    op.Done id s u ((op.run (SimUart.uart.wire patience) id).run ⟨u, log⟩).1
        ((op.run (SimUart.uart.wire patience) id).run ⟨u, log⟩).2.wire ↔
      op.maxAcceleration = none := by
  have hstart : Shows u id s s.regs ⟨u, log⟩ := ⟨hidle, (ServoModel.update_self hs).symm⟩
  constructor
  · intro hdone
    cases hceiling : op.maxAcceleration with
    | none => rfl
    | some ceiling =>
      cases op with
      | setTuning t =>
        have hrefused := ends_run_ceiling hid hpresent patience hlock hceiling ⟨u, log⟩ hstart
        exact absurd (hrefused.symm.trans hdone.returned) (by decide)
      | _ => cases hceiling
  · intro hceiling
    obtain ⟨hreturned, hafter⟩ := ends_run hid hpresent patience hlock op hceiling ⟨u, log⟩ hstart
    refine ⟨hreturned, ?_, ?_, hafter.idle⟩
    · rw [hafter.model]
      exact if_pos rfl
    · intro other hother
      rw [hafter.model]
      exact if_neg hother

theorem bus_op_done_iff_limits :
    (((BusOp.setAngleLimits 0x100 0xE00).run (SimUart.uart.wire 0) 1).run ⟨SimUart.oneServo, []⟩).2.wire.model.servos 1 =
      some { regs := setCells (fun _ => 0) [(9, 0), (10, 1), (11, 0), (12, 14), (0x37, 1)] } :=
  ((bus_op_done_iff 0 SimUart.oneServo ⟨rfl, rfl⟩ 1 (by decide) { regs := fun _ => 0 } rfl rfl rfl
    (.setAngleLimits 0x100 0xE00) []).mpr rfl).servo

/-- An acceleration ceiling is not set, and the request fails. -/
theorem acceleration_ceiling_refused :
    (((BusOp.setTuning { maxAcceleration := some 1000 }).run (SimUart.uart.wire 0) 1).run ⟨SimUart.oneServo, []⟩).1 = -1 ∧
      ((((BusOp.setTuning { maxAcceleration := some 1000 }).run (SimUart.uart.wire 0) 1).run
        ⟨SimUart.oneServo, []⟩).2.wire.model.servos 1).map (·.regs 0x55) = some 0 := by
  decide +kernel

end Waypoint.Core
