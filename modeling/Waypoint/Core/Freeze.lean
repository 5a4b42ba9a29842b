import Waypoint.Core.Estop

/-!
# What E-stop does to moving servos

A servo in wheel mode turns at its goal speed whatever its torque, so what counts in Estop is the mode and goal-speed registers.
-/

namespace Waypoint.Core

open Base Bus

/-- Presence, mode and the two bytes of the goal speed. -/
structure Motion where
  present : Bool
  mode : UInt8
  low : UInt8
  high : UInt8

def Servo.motion (s : Servo) : Motion where
  present := s.present
  mode := s.regs Reg.mode.toNat
  low := s.regs Reg.goalSpeed.toNat
  high := s.regs (Reg.goalSpeed.toNat + 1)

def Motion.still (m : Motion) : Bool := !decide (m.mode = 1) || decide (wordOfBytes m.low m.high &&& 0x7FFF = 0)

theorem Servo.still_eq (s : Servo) : s.still = s.motion.still := rfl

def Motion.halt (m : Motion) : Motion := if m.present then { m with low := 0, high := 0 } else m

theorem Motion.halt_present (m : Motion) : m.halt.present = m.present := by
  unfold Motion.halt
  split <;> rfl

theorem Motion.still_halt {m : Motion} (h : m.present = true) : m.halt.still = true := by
  simp only [Motion.halt, h, ↓reduceIte, Motion.still]
  exact Bool.or_eq_true_iff.mpr (Or.inr rfl)

theorem Motion.halt_halt (m : Motion) : m.halt.halt = m.halt := by
  unfold Motion.halt
  by_cases h : m.present = true
  · simp [h]
  · simp [h]

def Motion.Spared (addr len : Nat) : Prop :=
  (Reg.mode.toNat < addr ∨ addr + len ≤ Reg.mode.toNat) ∧
    (Reg.goalSpeed.toNat + 1 < addr ∨ addr + len ≤ Reg.goalSpeed.toNat)

instance (addr len : Nat) : Decidable (Motion.Spared addr len) := inferInstanceAs (Decidable (_ ∧ _))

theorem Servo.motion_storeBytes {s : Servo} {addr : Nat} {data : List UInt8} (h : Motion.Spared addr data.length) :
    ({ s with regs := storeBytes s.regs addr data } : Servo).motion = s.motion := by
  obtain ⟨hmode, hspeed⟩ := h
  have hlow : Reg.goalSpeed.toNat < addr ∨ addr + data.length ≤ Reg.goalSpeed.toNat := by omega
  have hhigh : Reg.goalSpeed.toNat + 1 < addr ∨ addr + data.length ≤ Reg.goalSpeed.toNat + 1 := by omega
  simp only [Servo.motion, storeBytes_outside hmode, storeBytes_outside hlow, storeBytes_outside hhigh]

theorem Servo.motion_mirrorPresentRegs (s : Servo) (r : Readings) : (s.mirrorPresentRegs r).motion = s.motion := rfl

namespace ServoModel

variable (m : ServoModel)

def motion (id : JointId) : Option Motion := (m.servos id).map Servo.motion

theorem motion_update (id : JointId) (s : Servo) (i : JointId) :
    (m.update id s).motion i = if i = id then some s.motion else m.motion i := by
  unfold motion update
  by_cases h : i = id
  · simp [h]
  · simp [h]

theorem motion_step (readings : JointId → Readings) (m : ServoModel) (id : JointId) :
    (step readings m).motion id = m.motion id := by
  change ((m.servos id).map _).map Servo.motion = (m.servos id).map Servo.motion
  cases m.servos id with
  | none => rfl
  | some s =>
    simp only [Option.map_some, Option.some_inj]
    split
    · exact Servo.motion_mirrorPresentRegs s _
    · rfl

theorem writeReg_cases (id : JointId) (addr : UInt8) (data : List UInt8) :
    (m.writeReg id addr data).2 = m ∨ ∃ s, m.servos id = some s ∧ s.present = true ∧
      (m.writeReg id addr data).2 = m.update id { s with regs := Servo.storeBytes s.regs addr.toNat data } := by
  unfold writeReg
  cases m.servos id with
  | none => exact Or.inl rfl
  | some s =>
    dsimp only
    by_cases hp : s.present = true
    · rw [if_neg (by simpa using hp)]
      repeat' split
      · exact Or.inl rfl
      · exact Or.inl rfl
      · exact Or.inl rfl
      · exact Or.inr ⟨s, rfl, hp, rfl⟩
    · rw [if_pos (by simpa using hp)]
      exact Or.inl rfl

theorem motion_writeReg {m : ServoModel} {id : JointId} {addr : UInt8} {data : List UInt8}
    (h : Motion.Spared addr.toNat data.length) (i : JointId) : (m.writeReg id addr data).2.motion i = m.motion i := by
  rcases writeReg_cases m id addr data with hm | ⟨s, hs, -, hm⟩
  · rw [hm]
  rw [hm, motion_update, Servo.motion_storeBytes h]
  by_cases heq : i = id
  · rw [if_pos heq, heq, motion, hs, Option.map_some]
  · rw [if_neg heq]

theorem motion_writeReg_ne {m : ServoModel} {id i : JointId} {addr : UInt8} {data : List UInt8} (h : i ≠ id) :
    (m.writeReg id addr data).2.motion i = m.motion i := by
  rcases writeReg_cases m id addr data with hm | ⟨s, -, -, hm⟩
  · rw [hm]
  · rw [hm, motion_update, if_neg h]

theorem motion_writeReg_zero (id i : JointId) :
    (m.writeReg id Reg.goalSpeed [0, 0]).2.motion i =
      if i = id then (m.motion i).map Motion.halt else m.motion i := by
  by_cases heq : i = id
  · subst heq
    rw [if_pos rfl]
    unfold writeReg motion
    cases hs : m.servos i with
    | none => simp [hs]
    | some s =>
      by_cases hp : s.present = true
      · have hunlocked : ¬ (s.regs Reg.lock.toNat = 1 ∧ Reg.goalSpeed < Reg.torqueEnable ∧ Reg.goalSpeed ≠ Reg.lock) :=
          fun h => absurd h.2.1 (by decide)
        have hrange : ¬ Reg.goalSpeed.toNat + [(0 : UInt8), 0].length > Servo.regCount := by decide
        simp only [hp, Bool.not_true, Bool.false_eq_true, ↓reduceIte, List.isEmpty_cons, hrange, hunlocked, update,
          Option.map_some, Option.some_inj]
        simp only [Servo.motion, Motion.halt, hp, ↓reduceIte]
        rfl
      · simp [hs, hp, Servo.motion, Motion.halt]
  · rw [if_neg heq, motion_writeReg_ne heq]

theorem dispatch_of_reads {f : Frame} (h : f.Reads) (m : ServoModel) : (dispatch m f).2 = m := by
  obtain ⟨id, instruction, params⟩ := f
  cases instruction with
  | writeData => exact absurd h (by simp [Frame.Reads, Frame.isWrite])
  | syncWrite => exact absurd h (by simp [Frame.Reads, Frame.isWrite])
  | readData =>
    rcases params with _ | ⟨addr, _ | ⟨len, rest⟩⟩ <;> rfl
  | _ => rfl

theorem dispatch_writeData (id : JointId) (addr : UInt8) (data : List UInt8) :
    (dispatch m ⟨id, .writeData, addr :: data⟩).2 = if id = 0xFE then m else (m.writeReg id addr data).2 := by
  change (if id = 0xFE then (none, m) else _).2 = _
  split <;> rfl

end ServoModel

def Frame.Idles (f : Frame) : Prop := f.Reads ∨ ∃ id, f = buildSetTorqueEnable id false

/-- The listed servos are halted and no other is touched. -/
def Stops (ids : List JointId) (b b' : Bus ServoModel) : Prop :=
  ∀ id, id ≠ 0xFE → b'.wire.motion id = if id ∈ ids then (b.wire.motion id).map Motion.halt else b.wire.motion id

section Stops

variable {α β : Type} {ids more : List JointId} {a b c : Bus ServoModel}

theorem stops_nil (h : ∀ id, b.wire.motion id = a.wire.motion id) : Stops [] a b := by
  intro id _
  rw [h, if_neg List.not_mem_nil]

theorem stops_append (hab : Stops ids a b) (hbc : Stops more b c) : Stops (ids ++ more) a c := by
  intro id hid
  rw [hbc id hid, hab id hid]
  by_cases hfirst : id ∈ ids <;> by_cases hsecond : id ∈ more <;>
    simp [hfirst, hsecond, Option.map_map, Function.comp_def, Motion.halt_halt]

theorem stops_congr (h : Stops ids a b) (hids : ∀ id, id ∈ ids ↔ id ∈ more) : Stops more a b := by
  intro id hid
  rw [h id hid]
  simp only [hids]

def Stopping (ids : List JointId) (p : StateM (Bus ServoModel) α) : Prop := ∀ b, Stops ids b (p.run b).2

theorem stopping_pure (x : α) : Stopping [] (pure x : StateM (Bus ServoModel) α) :=
  fun _ => stops_nil fun _ => rfl

theorem stopping_bind {p : StateM (Bus ServoModel) α} {k : α → StateM (Bus ServoModel) β}
    (hp : Stopping ids p) (hk : ∀ x, Stopping more (k x)) : Stopping (ids ++ more) (p >>= k) := by
  intro b
  rw [StateT.run_bind]
  exact stops_append (hp b) (hk _ _)

theorem stopping_forM {each : α → List JointId} {p : α → StateM (Bus ServoModel) PUnit} (xs : List α)
    (hp : ∀ x ∈ xs, Stopping (each x) (p x)) : Stopping (xs.flatMap each) (forM xs p) := by
  induction xs with
  | nil => exact stopping_pure _
  | cons x xs ih =>
    rw [List.forM_cons, List.flatMap_cons]
    exact stopping_bind (hp x List.mem_cons_self) fun _ => ih fun y hy => hp y (List.mem_cons_of_mem _ hy)

theorem stopping_torqueOff (id : JointId) :
    Stopping [] (Sts3215Driver.setTorqueEnable ServoModel.world.toWire id false) := by
  intro b
  refine stops_nil fun i => ?_
  change (ServoModel.dispatch b.wire (buildSetTorqueEnable id false)).2.motion i = _
  rw [buildSetTorqueEnable, buildWriteByte, ServoModel.dispatch_writeData]
  split
  · rfl
  · exact ServoModel.motion_writeReg (by decide) i

theorem stopping_goalSpeed_zero (id : JointId) : Stopping [id] (setGoalSpeed ServoModel.world.toWire id 0) := by
  intro b i hi
  change (ServoModel.dispatch b.wire ⟨id, .writeData, [Reg.goalSpeed, 0, 0]⟩).2.motion i = _
  rw [ServoModel.dispatch_writeData]
  split
  · rename_i hbroadcast
    rw [if_neg]
    simpa [hbroadcast] using hi
  · rw [ServoModel.motion_writeReg_zero]
    simp only [List.mem_singleton]

def Sts3215Driver.known (drv : Sts3215Driver) (ids : List JointId) : List JointId :=
  ids.filter fun id => (drv.info id).isSome

theorem stopping_writeCommand_zero (drv : Sts3215Driver) (id : JointId) :
    Stopping (drv.known [id]) (drv.writeCommand ServoModel.world.toWire (id, { velocityRadps := some 0 })) := by
  unfold Sts3215Driver.writeCommand Sts3215Driver.known
  cases hinfo : drv.info id with
  | none =>
    simp only [List.filter_cons, hinfo]
    exact stopping_pure _
  | some i =>
    simp only [List.filter_cons, hinfo, mul_zero, rawFromRadps_zero]
    exact stopping_bind (stopping_goalSpeed_zero id) fun _ => stopping_pure _

theorem stopping_writeCommands_zero (drv : Sts3215Driver) (cmds : List (JointId × JointCommand))
    (h : ∀ c ∈ cmds, c = (c.1, { velocityRadps := some 0 })) :
    Stopping (drv.known (cmds.map Prod.fst)) (drv.writeCommands ServoModel.world.toWire cmds) := by
  have hall : Stopping (cmds.flatMap fun c => drv.known [c.1]) (drv.writeCommands ServoModel.world.toWire cmds) :=
    stopping_forM cmds fun c hc => by
      rw [h c hc]
      exact stopping_writeCommand_zero drv c.1
  refine fun b => stops_congr (hall b) fun id => ?_
  simp only [Sts3215Driver.known, List.mem_flatMap, List.mem_filter, List.mem_singleton, List.mem_map]
  exact ⟨fun ⟨c, hc, heq, hknown⟩ => ⟨⟨c, hc, heq.symm⟩, hknown⟩, fun ⟨⟨c, hc, heq⟩, hknown⟩ => ⟨c, hc, heq.symm, hknown⟩⟩

end Stops

/-- The servos the E-stop handler writes a zero speed to: the drive wheels and the module-owned wheel joints. -/
def Config.stopIds (cfg : Config) : List JointId :=
  cfg.jointDrv.known (((cfg.drive.map fun d => d.wheels.toList).getD []) ++ cfg.moduleWheels)

namespace CoreState

variable {cfg : Config}

theorem stopping_armDriveBus (wheels : WheelJoints) :
    Stopping (cfg.jointDrv.known wheels.toList) (armDriveBus cfg ServoModel.world wheels false) := by
  have hzero : Stopping (cfg.jointDrv.known wheels.toList)
      (cfg.jointDrv.writeCommands ServoModel.world.toWire (wheels.velocityCommands {})) :=
    stopping_writeCommands_zero cfg.jointDrv (wheels.velocityCommands {}) fun c hc => by
      obtain ⟨x, hx, hspeed⟩ := WheelJoints.mem_velocityCommands hc
      rw [hx, show x = 0 by simpa using hspeed]
  have htorque : Stopping (wheels.toList.flatMap fun _ => [])
      (forM wheels.toList fun id => do
        let _ ← Sts3215Driver.setTorqueEnable ServoModel.world.toWire id false
        pure PUnit.unit) :=
    stopping_forM wheels.toList fun id _ => stopping_bind (stopping_torqueOff id) fun _ => stopping_pure _
  exact fun b => stops_congr (stopping_bind hzero (fun _ => htorque) b) fun id => by simp

theorem stopping_stopModuleWheels :
    Stopping (cfg.jointDrv.known cfg.moduleWheels) (stopModuleWheels cfg ServoModel.world) := by
  have hall : Stopping (cfg.moduleWheels.flatMap fun id => cfg.jointDrv.known [id] ++ ([] ++ []))
      (stopModuleWheels cfg ServoModel.world) :=
    stopping_forM cfg.moduleWheels fun id _ =>
      stopping_bind (stopping_writeCommands_zero cfg.jointDrv _ fun c hc => by rw [List.mem_singleton.mp hc])
        fun _ => stopping_bind (stopping_torqueOff id) fun _ => stopping_pure _
  refine fun b => stops_congr (hall b) fun id => ?_
  simp [Sts3215Driver.known, List.mem_filter]

theorem stops_onChange (c : Change) (hc : c.now = .estop) (s : CoreState ServoModel) :
    Stops cfg.stopIds s.bus (onChange cfg ServoModel.world c s).bus := by
  have harm : Stops (cfg.jointDrv.known ((cfg.drive.map fun d => d.wheels.toList).getD [])) s.bus
      (armDrive cfg ServoModel.world false (clearTarget cfg s)).bus := by
    rw [show s.bus = (clearTarget cfg s).bus from (bus_clearTarget s).symm]
    unfold armDrive
    cases cfg.drive with
    | none => exact stops_nil fun _ => rfl
    | some d => exact stopping_armDriveBus d.wheels _
  simp only [onChange, hc, ↓reduceIte]
  refine stops_congr (stops_append harm (stopping_stopModuleWheels _)) fun id => ?_
  simp only [Config.stopIds, Sts3215Driver.known, List.filter_append]

def onBoard (id : JointId) : Prop := 1 ≤ id ∧ id ≤ 12

/-- No servo on the board moves. -/
def Frozen (m : ServoModel) : Prop := ∀ id, onBoard id → ∀ sv, m.servos id = some sv → sv.present = true → sv.still = true

/-- Every servo that could move is on the stop list. -/
def Stoppable (cfg : Config) (m : ServoModel) : Prop :=
  ∀ id, onBoard id → ∀ sv, m.servos id = some sv → sv.present = true → sv.still = false → id ∈ cfg.stopIds

theorem ne_broadcast {id : JointId} (h : onBoard id) : id ≠ 0xFE := by
  rintro rfl
  exact absurd h.2 (by decide)

theorem frozen_iff_motion (m : ServoModel) :
    Frozen m ↔ ∀ id, onBoard id → ∀ x ∈ m.motion id, x.present = true → x.still = true := by
  unfold Frozen ServoModel.motion
  simp only [Option.mem_map]
  exact ⟨fun h id hid x ⟨sv, hsv, hx⟩ hp => by subst hx; exact h id hid sv hsv hp,
    fun h id hid sv hsv hp => h id hid sv.motion ⟨sv, hsv, rfl⟩ hp⟩

/-- After the stop the servos are still exactly if the handler could reach all that turned. -/
theorem frozen_of_stops {b b' : Bus ServoModel} (h : Stops cfg.stopIds b b') :
    Frozen b'.wire ↔ Stoppable cfg b.wire := by
  rw [frozen_iff_motion]
  refine ⟨fun hfrozen id hid sv hsv hp hturns => ?_, fun hstop id hid x hx hp => ?_⟩
  · by_contra hout
    have hmotion := h id (ne_broadcast hid)
    rw [if_neg hout, ServoModel.motion, ServoModel.motion, hsv, Option.map_some] at hmotion
    have hstill := hfrozen id hid sv.motion hmotion hp
    rw [← Servo.still_eq, hturns] at hstill
    exact Bool.false_ne_true hstill
  · rw [h id (ne_broadcast hid), ServoModel.motion] at hx
    cases hsv : b.wire.servos id with
    | none => simp [hsv] at hx
    | some sv =>
      rw [hsv] at hx
      by_cases hin : id ∈ cfg.stopIds
      · rw [if_pos hin] at hx
        obtain rfl : sv.motion.halt = x := by simpa using hx
        exact Motion.still_halt (by rwa [Motion.halt_present] at hp)
      rw [if_neg hin] at hx
      obtain rfl : sv.motion = x := by simpa using hx
      cases hturns : sv.still with
      | true => exact hturns
      | false => exact absurd (hstop id hid sv hsv hp hturns) hin

theorem motion_of_acts {a b : Bus ServoModel} (h : Acts ServoModel.world Frame.Idles a b) (id : JointId) :
    b.wire.motion id = a.wire.motion id := by
  induction h with
  | refl => rfl
  | @tail b c _ hact ih =>
    have hdispatch : ∀ f : Frame, f.Idles → (ServoModel.dispatch b.wire f).2.motion id = b.wire.motion id := by
      rintro f (hreads | ⟨i, rfl⟩)
      · rw [ServoModel.dispatch_of_reads hreads]
      rw [buildSetTorqueEnable, buildWriteByte, ServoModel.dispatch_writeData]
      split
      · rfl
      · exact ServoModel.motion_writeReg (by decide) id
    cases hact with
    | exchange hf => exact (hdispatch _ hf).trans ih
    | sendNoReply hf => exact (hdispatch _ hf).trans ih
    | move motion => exact (ServoModel.motion_step motion b.wire id).trans ih

variable {s : CoreState ServoModel} {e : Stamped (JointId → Readings)}

theorem acts_of_estop (hlinked : Supervisor.Linked cfg.drive.isSome s.supervisor)
    (hmode : s.mode = .estop) (hrecover : e.event ≠ .recover) :
    Acts ServoModel.world Frame.Idles s.bus (step cfg ServoModel.world s e).bus := by
  by_cases hread : ∃ servoId, e.event = .servoRead servoId
  · obtain ⟨servoId, hread⟩ := hread
    obtain ⟨now, event⟩ := e
    obtain rfl : event = .servoRead servoId := hread
    exact acts_of_uses (ServoControlServer.uses_handleRead (.inl rfl) fun _ => .inr ⟨_, rfl⟩) s.bus
  · exact (acts_step_of_estop hlinked hmode hrecover fun servoId h => hread ⟨servoId, h⟩).mono fun f hf => Or.inl hf

def EntersEstop {σ μ : Type} (s : CoreState σ) (e : Stamped μ) : Prop :=
  s.mode ≠ .estop ∧ (e.event = .estop ∨ ∃ raw, e.event = .setMode (some raw) ∧ fromProto raw = .estop)

theorem onEstop_of_ne {σ μ : Type} {w : World σ μ} {s : CoreState σ} (h : s.mode ≠ .estop) :
    onEstop cfg w s = onChange cfg w ⟨s.mode, .estop⟩ { s with machine := s.machine.requestEstop.machine } := by
  obtain ⟨hchange, -, hmode⟩ := s.machine.requestEstop_spec
  have hleft : s.machine.mode ≠ .estop := h
  rw [hmode, ModeMachine.changeOf, if_neg hleft] at hchange
  simp only [onEstop, commit, hchange]
  rfl

theorem stops_of_entersEstop (cfg : Config) (h : EntersEstop s e) :
    Stops cfg.stopIds s.bus (step cfg ServoModel.world s e).bus ∧ (step cfg ServoModel.world s e).mode = .estop := by
  have hstep : step cfg ServoModel.world s e = onEstop cfg ServoModel.world s := by
    obtain ⟨now, event⟩ := e
    obtain ⟨-, rfl | ⟨raw, rfl, hraw⟩⟩ := h
    · rfl
    · simp only [step, onSetMode, hraw, ↓reduceIte]
      rfl
  refine ⟨?_, ?_⟩
  · rw [hstep, onEstop_of_ne h.1]
    exact stops_onChange _ rfl { s with machine := s.machine.requestEstop.machine }
  · rw [hstep, ← supervisor_mode]
    unfold onEstop
    rw [supervisor_commit, Supervisor.mode, Supervisor.settle_machine, s.machine.requestEstop_spec.2.2]

theorem estop_cases
    (h : (step cfg ServoModel.world s e).mode = .estop) :
    s.mode = .estop ∧ e.event ≠ .recover ∨ EntersEstop s e := by
  by_cases hmode : s.mode = .estop
  · refine Or.inl ⟨hmode, fun hrecover => ?_⟩
    rw [← supervisor_mode, supervisor_step, Supervisor.mode_step, hrecover] at h
    simp [hmode] at h
  refine Or.inr ⟨hmode, ?_⟩
  rw [← supervisor_mode, supervisor_step, Supervisor.mode_step] at h
  obtain ⟨now, event⟩ := e
  cases event with
  | estop => exact Or.inl rfl
  | setMode payload =>
    cases payload with
    | none => exact absurd h hmode
    | some raw =>
      refine Or.inr ⟨raw, rfl, ?_⟩
      by_contra hraw
      simp only [Supervisor.setModeRequest, hraw, ↓reduceIte] at h
      obtain ⟨-, -, hset | ⟨-, hset, -⟩⟩ := s.machine.requestSetMode_spec (fromProto raw)
      · exact hmode (hset.symm.trans h)
      · exact hraw (hset.symm.trans h)
  | recover => simp [hmode] at h
  | loop motion =>
    dsimp only at h
    split at h
    · cases h
    · exact absurd h hmode
  | _ => exact absurd h hmode

theorem frozen_step (hlinked : Supervisor.Linked cfg.drive.isSome s.supervisor)
    (hmode : s.mode = .estop) (hrecover : e.event ≠ .recover)
    (h : Frozen s.bus.wire) : Frozen (step cfg ServoModel.world s e).bus.wire := by
  rw [frozen_iff_motion] at h ⊢
  intro id hid x hx hp
  rw [motion_of_acts (acts_of_estop hlinked hmode hrecover) id] at hx
  exact h id hid x hx hp

theorem run_concat {σ μ : Type} {cfg : Config} {w : World σ μ} (s : CoreState σ) (es : List (Stamped μ))
    (e : Stamped μ) : run cfg w s (es ++ [e]) = step cfg w (run cfg w s es) e := by
  simp [run]

/-- In every run, the servos are still in all states in Estop exactly when each entry into Estop found every turning
servo among those its handler stops. -/
theorem frozen_in_estop_iff (cfg : Config) (m : ServoModel) (auxRot : AuxRotation) (start : TimePoint)
    (es : List (Stamped (JointId → Readings))) :
    (∀ pre, pre <+: es → (run cfg ServoModel.world (entry m auxRot start) pre).mode = .estop →
      Frozen (run cfg ServoModel.world (entry m auxRot start) pre).bus.wire) ↔
    (∀ pre e, pre ++ [e] <+: es → EntersEstop (run cfg ServoModel.world (entry m auxRot start) pre) e →
      Stoppable cfg (run cfg ServoModel.world (entry m auxRot start) pre).bus.wire) := by
  refine ⟨fun h pre e hpre henters => ?_, fun h pre hpre hmode => ?_⟩
  · obtain ⟨hstops, hmode⟩ := stops_of_entersEstop cfg henters
    rw [← frozen_of_stops hstops, ← run_concat]
    exact h _ hpre (by rwa [run_concat])
  induction pre using List.reverseRecOn with
  | nil => cases hmode
  | append_singleton pre e ih =>
    rw [run_concat] at hmode ⊢
    rcases estop_cases hmode with ⟨hbefore, hrecover⟩ | henters
    · have hlinked : Supervisor.Linked cfg.drive.isSome
          (run cfg ServoModel.world (entry m auxRot start) pre).supervisor := by
        rw [supervisor_run]
        exact Supervisor.linked_run pre (Supervisor.linked_entry _)
      exact frozen_step hlinked hbefore hrecover (ih ((List.prefix_append pre [e]).trans hpre) hbefore)
    · exact (frozen_of_stops (stops_of_entersEstop cfg henters).1).mpr (h pre e hpre henters)

def twelveServos : ServoModel := ⟨fun id => if 1 ≤ id ∧ id ≤ 12 then some { regs := fun _ => 0 } else none⟩

def spinThenStop : List (Stamped (JointId → Readings)) :=
  [⟨0, .servo { servoId := 1, op := .setMode 1 }⟩, ⟨0, .servo { servoId := 1, op := .setGoalVelocity 500 }⟩, ⟨0, .estop⟩]

/-- On the bench platform servo 1 is an arm joint, not a joint of type wheel: the E-stop leaves it turning, although
every exchange is answered. -/
theorem not_frozen_in_estop :
    ¬ ∀ (doc : Toml) (cfg : Config), Config.ofDocument doc = some cfg →
      ∀ (m : ServoModel), (∀ id sv, m.servos id = some sv → sv.goalSpeedMagnitude = 0) →
      ∀ (auxRot : AuxRotation) (start : TimePoint) (es : List (Stamped (JointId → Readings))),
        (run cfg ServoModel.world.tallied (entry (m, 0) auxRot start) es).bus.wire.2 = 0 →
        (run cfg ServoModel.world (entry m auxRot start) es).mode = .estop →
        Frozen (run cfg ServoModel.world (entry m auxRot start) es).bus.wire := by
  intro h
  have hrun : ((Config.ofDocument Descriptor.waypointBench).map fun cfg =>
      let s := run cfg ServoModel.world (entry twelveServos { ids := [], maxFailures := 3 } 0) spinThenStop
      let t := run cfg ServoModel.world.tallied (entry (twelveServos, 0) { ids := [], maxFailures := 3 } 0) spinThenStop
      (t.bus.wire.2, s.mode, (s.bus.wire.servos 1).map fun sv => (sv.present, sv.still))) =
      some (0, .estop, some (true, false)) := by decide +kernel
  obtain ⟨cfg, hcfg, hrun⟩ := Option.map_eq_some_iff.mp hrun
  simp only [Prod.mk.injEq] at hrun
  obtain ⟨hanswered, hmode, hservo⟩ := hrun
  obtain ⟨sv, hsv, hspins⟩ := Option.map_eq_some_iff.mp hservo
  simp only [Prod.mk.injEq] at hspins
  have hzero : ∀ id sv, twelveServos.servos id = some sv → sv.goalSpeedMagnitude = 0 := by
    intro id sv hsv
    unfold twelveServos at hsv
    dsimp only at hsv
    split at hsv
    · cases hsv
      rfl
    · cases hsv
  have hstill := h _ cfg hcfg twelveServos hzero _ _ _ hanswered hmode 1 ⟨by decide, by decide⟩ sv hsv hspins.1
  rw [hspins.2] at hstill
  exact Bool.false_ne_true hstill

end CoreState

end Waypoint.Core
