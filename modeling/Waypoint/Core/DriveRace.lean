import Waypoint.Core.DriveThreads

/-!
# E-stop against the tick

A tick that has passed its check of `armed_` goes on to write the speeds it computed, whatever the E-stop handler does meanwhile.
-/

namespace Waypoint.Core

open Base Bus

/-! ### Wheels at rest -/

/-- A servo that is there has no goal speed. -/
def AtRest (m : ServoModel) (id : JointId) : Prop := ∀ x ∈ m.motion id, x.present = true → x.low = 0 ∧ x.high = 0

def SpeedFrame (f : Frame) : Prop := ∃ id raw, f = buildSetGoalSpeed id raw

def StopFrame (f : Frame) : Prop := (∃ id, f = buildSetGoalSpeed id 0) ∨ ∃ id, f = buildSetTorqueEnable id false

variable {m : ServoModel} {id : JointId} {f : Frame}

theorem atRest_halt {m' : ServoModel} (h : m'.motion id = (m.motion id).map Motion.halt) :
    AtRest m' id := by
  intro x hx hp
  rw [h] at hx
  obtain ⟨y, -, rfl⟩ := Option.mem_map.mp hx
  rw [Motion.halt_present] at hp
  simp [Motion.halt, hp]

theorem atRest_congr {m' : ServoModel} (h : m'.motion id = m.motion id) (hrest : AtRest m id) :
    AtRest m' id := by
  intro x hx
  rw [h] at hx
  exact hrest x hx

theorem atRest_zero (m : ServoModel) (hid : id ≠ 0xFE) :
    AtRest (ServoModel.dispatch m (buildSetGoalSpeed id 0)).2 id := by
  have hdispatch := ServoModel.dispatch_writeData m id Reg.goalSpeed [0, 0]
  rw [if_neg hid] at hdispatch
  refine atRest_halt (m := m) ?_
  change (ServoModel.dispatch m ⟨id, .writeData, Reg.goalSpeed :: [0, 0]⟩).2.motion id = _
  rw [hdispatch, ServoModel.motion_writeReg_zero, if_pos rfl]

theorem atRest_speed (hrest : AtRest m id) (hf : SpeedFrame f)
    (hzero : f.id = id → f.nonzeroSpeed = false) : AtRest (ServoModel.dispatch m f).2 id := by
  obtain ⟨i, raw, rfl⟩ := hf
  rw [buildSetGoalSpeed, buildWriteWord] at hzero ⊢
  generalize lowByte (encodeSignMagnitude raw 15) = low at hzero ⊢
  generalize highByte (encodeSignMagnitude raw 15) = high at hzero ⊢
  rw [ServoModel.dispatch_writeData]
  split
  · exact hrest
  by_cases hid : i = id
  · have hbytes := hzero hid
    simp only [Frame.nonzeroSpeed, decide_true, Bool.true_and, Bool.or_eq_false_iff, decide_eq_false_iff_not, ne_eq,
      not_not] at hbytes
    obtain ⟨rfl, rfl⟩ := hbytes
    refine atRest_halt (m := m) ?_
    rw [ServoModel.motion_writeReg_zero, if_pos hid.symm]
  · exact atRest_congr (ServoModel.motion_writeReg_ne fun h => hid h.symm) hrest

theorem atRest_stop (hrest : AtRest m id) (hf : StopFrame f) :
    AtRest (ServoModel.dispatch m f).2 id := by
  rcases hf with ⟨i, rfl⟩ | ⟨i, rfl⟩
  · exact atRest_speed hrest ⟨i, 0, rfl⟩ fun _ => nonzeroSpeed_goalSpeed_zero i
  refine atRest_congr ?_ hrest
  rw [buildSetTorqueEnable, buildWriteByte, ServoModel.dispatch_writeData]
  split
  · rfl
  · exact ServoModel.motion_writeReg (by decide) id

theorem atRest_reads (hrest : AtRest m id) (hf : f.Reads) :
    AtRest (ServoModel.dispatch m f).2 id := by
  rwa [ServoModel.dispatch_of_reads hf]

section

variable {cfg : Config} {d : DriveSetup}

theorem mem_speedFrames {t : BodyVel} {f : Frame} (hf : f ∈ speedFrames cfg d t) :
    SpeedFrame f ∧ (f.nonzeroSpeed = true → t ≠ {}) := by
  refine ⟨?_, ?_⟩
  · obtain ⟨c, hc, hf⟩ := List.mem_flatMap.mp hf
    obtain ⟨x, hx, -⟩ := WheelJoints.mem_velocityCommands hc
    rw [hx, Sts3215Driver.commandFrames_velocity, Option.mem_toList, Option.map_eq_some_iff] at hf
    obtain ⟨i, -, rfl⟩ := hf
    exact ⟨_, _, rfl⟩
  · exact (DriveController.mem_tickWrites (c := { target := t, armed := true }) hf).2.2

theorem stopFrame_of_mem {now : Mode} {f : Frame} (hf : f ∈ stopFrames cfg d now) : StopFrame f := by
  have hmodule : f ∈ moduleStopFrames cfg → StopFrame f := by
    intro hf
    obtain ⟨id, -, hf⟩ := List.mem_flatMap.mp hf
    rcases List.mem_append.mp hf with hf | hf
    · exact Or.inl ⟨id, Sts3215Driver.commandFrames_zero hf⟩
    · exact Or.inr ⟨id, List.mem_singleton.mp hf⟩
  rcases List.mem_append.mp hf with hf | hf
  · rcases List.mem_append.mp hf with hf | hf
    · obtain ⟨c, hc, hf⟩ := List.mem_flatMap.mp hf
      obtain ⟨x, hx, hzero⟩ := WheelJoints.mem_velocityCommands hc
      rw [hx, show x = 0 by simpa using hzero] at hf
      exact Or.inl ⟨c.1, Sts3215Driver.commandFrames_zero hf⟩
    · obtain ⟨id, -, rfl⟩ := List.mem_map.mp hf
      exact Or.inr ⟨id, rfl⟩
  · split at hf
    · exact hmodule hf
    · simp at hf

theorem zero_mem_stopFrames {now : Mode} {id : JointId} (hid : id ∈ d.wheels.toList)
    (hknown : (cfg.jointDrv.info id).isSome = true) : buildSetGoalSpeed id 0 ∈ stopFrames cfg d now := by
  obtain ⟨i, hinfo⟩ := Option.isSome_iff_exists.mp hknown
  refine List.mem_append_left _ (List.mem_append_left _ (List.mem_flatMap.mpr ⟨(id, { velocityRadps := some 0 }), ?_, ?_⟩))
  · simpa [WheelJoints.toList, WheelJoints.velocityCommands] using hid
  · rw [Sts3215Driver.commandFrames_velocity, hinfo]
    simp

end

/-! ### What the tick in flight is still going to write -/

namespace DriveThreads

variable (cfg : Config) (d : DriveSetup)

def pending (s : DriveThreads) : List Frame :=
  match s.loop with
  | none => []
  | some (.reading _) => if s.shared.armed then speedFrames cfg d { vx := s.shared.vx, omegaZ := s.shared.omegaZ } else []
  | some .readVx => speedFrames cfg d { vx := s.shared.vx, omegaZ := s.shared.omegaZ }
  | some (.readOmega vx) => speedFrames cfg d { vx := vx, omegaZ := s.shared.omegaZ }
  | some (.writing left) => left

def WellFormed (s : DriveThreads) : Prop :=
  (∀ left, s.loop = some (.reading left) → ∀ f ∈ left, f.Reads) ∧
    ∀ left, s.loop = some (.writing left) → ∀ f ∈ left, SpeedFrame f

/-- The wheel stands, and no frame under way moves it. -/
def Settled (s : DriveThreads) (id : JointId) : Prop :=
  AtRest s.shared.servos id ∧ ∀ g ∈ s.pending cfg d, g.id = id → g.nonzeroSpeed = false

def isTick : DriveAction → Bool
  | .tickCall | .tickAccess | .tickReturned => true
  | _ => false

variable {cfg d} {s t : DriveThreads} {e : DriveAction} {pc pc' : NatsPc} {es : List DriveAction}

theorem wellFormed_next (h : WellFormed s) (hnext : s.next cfg d e = some t) :
    WellFormed t := by
  rcases next_cases hnext with ⟨c, rfl, -, rfl⟩ | ⟨c, pc, pc', shared, rfl, -, -, rfl⟩ | ⟨c, pc, rfl, -, -, rfl⟩ |
    ⟨rfl, -, rfl⟩ | ⟨pc, pc', shared, rfl, hloop, haccess, rfl⟩ | ⟨pc, rfl, -, -, rfl⟩
  · exact h
  · exact h
  · exact h
  · refine ⟨fun left hleft f hf => ?_, by simp [TickPc.start]⟩
    cases hleft
    obtain ⟨id, -, hid⟩ := List.mem_flatMap.mp hf
    exact CoreState.reads_wheelRead hid
  · rcases TickPc.access_cases haccess with ⟨g, left, rfl, rfl, -⟩ | ⟨rfl, rfl, -⟩ | ⟨rfl, rfl, -⟩ | ⟨vx, rfl, rfl, -⟩ |
      ⟨g, left, rfl, rfl, -⟩
    · refine ⟨fun rest hrest f hf => ?_, by simp⟩
      cases hrest
      exact h.1 _ hloop f (List.mem_cons_of_mem _ hf)
    · cases s.shared.armed <;> simp [WellFormed]
    · simp [WellFormed]
    · refine ⟨by simp, fun rest hrest f hf => ?_⟩
      cases hrest
      exact (mem_speedFrames hf).1
    · refine ⟨by simp, fun rest hrest f hf => ?_⟩
      cases hrest
      exact h.2 _ hloop f (List.mem_cons_of_mem _ hf)
  · simp [WellFormed]

theorem settled_tick (htick : isTick e = true) (hform : WellFormed s)
    (harmed : s.shared.armed = false) (hnext : s.next cfg d e = some t) {id : JointId} (h : Settled cfg d s id) :
    Settled cfg d t id := by
  obtain ⟨hrest, hpending⟩ := h
  rcases next_cases hnext with ⟨c, rfl, -, rfl⟩ | ⟨c, pc, pc', shared, rfl, -, -, rfl⟩ | ⟨c, pc, rfl, -, -, rfl⟩ |
    ⟨rfl, -, rfl⟩ | ⟨pc, pc', shared, rfl, hloop, haccess, rfl⟩ | ⟨pc, rfl, -, -, rfl⟩
  · cases htick
  · cases htick
  · cases htick
  · exact ⟨hrest, by simp [pending, TickPc.start, harmed]⟩
  · rw [pending, hloop] at hpending
    rcases TickPc.access_cases haccess with ⟨g, left, rfl, rfl, rfl⟩ | ⟨rfl, rfl, rfl⟩ | ⟨rfl, rfl, rfl⟩ |
      ⟨vx, rfl, rfl, rfl⟩ | ⟨g, left, rfl, rfl, rfl⟩
    · exact ⟨atRest_reads hrest (hform.1 _ hloop g List.mem_cons_self), by simp [pending, DriveShared.exchange, harmed]⟩
    · exact ⟨hrest, by simp [pending, harmed]⟩
    · exact ⟨hrest, hpending⟩
    · exact ⟨hrest, hpending⟩
    · exact ⟨atRest_speed hrest (hform.2 _ hloop g List.mem_cons_self) (hpending g List.mem_cons_self),
        fun f hf => hpending f (List.mem_cons_of_mem _ hf)⟩
  · exact ⟨hrest, by simp [pending]⟩

theorem tick_frame (htick : isTick e = true)
    (hnext : s.next cfg d e = some t) :
    t.nats = s.nats ∧ t.shared.machine = s.shared.machine ∧ t.shared.armed = s.shared.armed ∧
      t.shared.vx = s.shared.vx ∧ t.shared.omegaZ = s.shared.omegaZ := by
  rcases next_cases hnext with ⟨c, rfl, -, rfl⟩ | ⟨c, pc, pc', shared, rfl, -, -, rfl⟩ | ⟨c, pc, rfl, -, -, rfl⟩ |
    ⟨rfl, -, rfl⟩ | ⟨pc, pc', shared, rfl, hloop, haccess, rfl⟩ | ⟨pc, rfl, -, -, rfl⟩
  · cases htick
  · cases htick
  · cases htick
  · exact ⟨rfl, rfl, rfl, rfl, rfl⟩
  · rcases TickPc.access_cases haccess with ⟨_, _, -, -, rfl⟩ | ⟨-, -, rfl⟩ | ⟨-, -, rfl⟩ | ⟨_, -, -, rfl⟩ |
      ⟨_, _, -, -, rfl⟩
    all_goals exact ⟨rfl, rfl, rfl, rfl, rfl⟩
  · exact ⟨rfl, rfl, rfl, rfl, rfl⟩

/-! ### Standing still -/

variable (cfg d) in
/-- Disarmed, without a target, and every wheel settled. -/
structure Halted (s : DriveThreads) : Prop where
  form : WellFormed s
  armed : s.shared.armed = false
  vx : s.shared.vx = 0
  omegaZ : s.shared.omegaZ = 0
  settled : ∀ id ∈ d.wheels.toList, Settled cfg d s id

theorem halted_tick (htick : isTick e = true) (h : Halted cfg d s)
    (hnext : s.next cfg d e = some t) : Halted cfg d t := by
  obtain ⟨-, -, harmed, hvx, homega⟩ := tick_frame htick hnext
  exact ⟨wellFormed_next h.form hnext, harmed.trans h.armed, hvx.trans h.vx, homega.trans h.omegaZ,
    fun id hid => settled_tick htick h.form h.armed hnext (h.settled id hid)⟩

theorem pending_congr (hloop : t.loop = s.loop) (harmed : t.shared.armed = s.shared.armed)
    (hvx : t.shared.vx = s.shared.vx) (homega : t.shared.omegaZ = s.shared.omegaZ) :
    t.pending cfg d = s.pending cfg d := by
  unfold pending
  rw [hloop, harmed, hvx, homega]

theorem halted_nats (h : Halted cfg d s) (hloop : t.loop = s.loop)
    (harmed : t.shared.armed = false) (hvx : t.shared.vx = 0) (homega : t.shared.omegaZ = 0)
    (hrest : ∀ id, AtRest s.shared.servos id → AtRest t.shared.servos id) : Halted cfg d t := by
  have hpending : t.pending cfg d = s.pending cfg d :=
    pending_congr hloop (harmed.trans h.armed.symm) (hvx.trans h.vx.symm) (homega.trans h.omegaZ.symm)
  refine ⟨?_, harmed, hvx, homega, fun id hid => ⟨hrest id (h.settled id hid).1, ?_⟩⟩
  · unfold WellFormed
    rw [hloop]
    exact h.form
  · rw [hpending]
    exact (h.settled id hid).2

theorem Halted.moved (h : Halted cfg d s) (nats : Option (DriveCall × NatsPc)) :
    Halted cfg d { s with nats := nats } :=
  halted_nats h rfl h.armed h.vx h.omegaZ fun _ hrest => hrest

/-! ### The E-stop handler -/

variable (cfg d) in
/-- When the reader thread sends a servo its zero, the tick in flight has no speed for it left to write. -/
def Clear (s : DriveThreads) (e : DriveAction) : Prop :=
  ∀ c id left, e = .natsAccess → s.nats = some (c, .stopping (buildSetGoalSpeed id 0 :: left)) →
    ∀ g ∈ s.pending cfg d, g.id = id → g.nonzeroSpeed = false

variable (cfg d) in
/-- What an E-stop under way has brought about at each of its accesses. -/
def Stage (s : DriveThreads) : NatsPc → Prop
  | .mode (.compare .estop) | .mode (.readOld .estop) => s.shared.machine.mode ≠ .estop
  | .mode (.write .estop) => True
  | .mode .readNow | .clearVx .estop => s.shared.machine.mode = .estop
  | .clearOmega .estop => s.shared.machine.mode = .estop ∧ s.shared.vx = 0
  | .setArmed .estop => s.shared.machine.mode = .estop ∧ s.shared.vx = 0 ∧ s.shared.omegaZ = 0
  | .disarmVx .estop | .disarmOmega .estop =>
    s.shared.machine.mode = .estop ∧ s.shared.vx = 0 ∧ s.shared.omegaZ = 0 ∧ s.shared.armed = false
  | .stopping left =>
    (s.shared.machine.mode = .estop ∧ s.shared.vx = 0 ∧ s.shared.omegaZ = 0 ∧ s.shared.armed = false) ∧
      (∀ f ∈ left, StopFrame f) ∧ ∀ id ∈ d.wheels.toList, buildSetGoalSpeed id 0 ∈ left ∨ Settled cfg d s id
  | _ => False

variable (cfg d) in
def Underway (s : DriveThreads) : Prop :=
  WellFormed s ∧ (s.nats = none ∧ s.shared.machine.mode ≠ .estop ∨
    ∃ pc, s.nats = some (.request .estop, pc) ∧ Stage cfg d s pc)

theorem stage_tick (htick : isTick e = true) (hform : WellFormed s)
    (hnext : s.next cfg d e = some t) (h : Stage cfg d s pc) : Stage cfg d t pc := by
  obtain ⟨-, hmachine, harmed, hvx, homega⟩ := tick_frame htick hnext
  unfold Stage at h ⊢
  rw [hmachine, harmed, hvx, homega]
  split at h
  all_goals try exact h
  obtain ⟨hfields, hstop, hwheels⟩ := h
  refine ⟨hfields, hstop, fun id hid => ?_⟩
  rcases hwheels id hid with hleft | hsettled
  · exact Or.inl hleft
  · exact Or.inr (settled_tick htick hform hfields.2.2.2 hnext hsettled)

theorem stage_access {shared : DriveShared}
    (hknown : ∀ id ∈ d.wheels.toList, (cfg.jointDrv.info id).isSome = true ∧ id ≠ 0xFE)
    (hok : Clear cfg d s .natsAccess) (hnats : s.nats = some (.request .estop, pc)) (h : Stage cfg d s pc)
    (haccess : pc.access cfg d s.shared = some (pc', shared))
    (ht : t = { s with nats := some (.request .estop, pc'), shared := shared }) : Stage cfg d t pc' := by
  subst ht
  unfold Stage at h
  split at h
  · cases haccess
    rw [ModePc.access, if_neg (Ne.symm h)]
    exact h
  · cases haccess
    trivial
  · cases haccess
    rfl
  · cases haccess
    rw [h]
    exact h
  · cases haccess
    exact ⟨h, rfl⟩
  · cases haccess
    exact ⟨h.1, h.2, rfl⟩
  · cases haccess
    exact ⟨h.1, h.2.1, h.2.2, rfl⟩
  · cases haccess
    exact ⟨h.1, rfl, h.2.2⟩
  · -- the handler turns to its exchanges: every wheel still has its zero ahead
    cases haccess
    exact ⟨⟨h.1, h.2.1, rfl, h.2.2.2⟩, fun f hf => stopFrame_of_mem hf,
      fun id hid => Or.inl (zero_mem_stopFrames hid (hknown id hid).1)⟩
  · rename_i left
    cases left with
    | nil => cases haccess
    | cons f left =>
      cases haccess
      obtain ⟨hfields, hstop, hwheels⟩ := h
      refine ⟨hfields, fun g hg => hstop g (List.mem_cons_of_mem _ hg), fun id hid => ?_⟩
      rcases hwheels id hid with hleft | hsettled
      · rcases List.mem_cons.mp hleft with rfl | hleft
        · exact Or.inr ⟨atRest_zero _ (hknown id hid).2, hok _ _ _ rfl hnats⟩
        · exact Or.inl hleft
      · exact Or.inr ⟨atRest_stop hsettled.1 (hstop f List.mem_cons_self), hsettled.2⟩
  · exact absurd h id

theorem underway_next
    (hknown : ∀ id ∈ d.wheels.toList, (cfg.jointDrv.info id).isSome = true ∧ id ≠ 0xFE)
    (hok : Clear cfg d s e) (hcall : ∀ c, e = .call c → c = .request .estop) (hreturn : e ≠ .returned (.request .estop))
    (h : Underway cfg d s) (hnext : s.next cfg d e = some t) : Underway cfg d t := by
  obtain ⟨hform, h⟩ := h
  refine ⟨wellFormed_next hform hnext, ?_⟩
  by_cases htick : isTick e = true
  · obtain ⟨hnats, hmachine, -⟩ := tick_frame htick hnext
    rw [hnats, hmachine]
    rcases h with h | ⟨pc, hpc, hstage⟩
    · exact Or.inl h
    · exact Or.inr ⟨pc, hpc, stage_tick htick hform hnext hstage⟩
  · rcases next_cases hnext with ⟨c, rfl, hnone, rfl⟩ | ⟨c, pc, pc', shared, rfl, hnats, haccess, rfl⟩ |
      ⟨c, pc, rfl, hnats, -, rfl⟩ | ⟨rfl, -, -⟩ | ⟨_, _, _, rfl, -, -, -⟩ | ⟨_, rfl, -, -, -⟩
    · obtain rfl := hcall c rfl
      rcases h with ⟨-, hmode⟩ | ⟨pc, hpc, -⟩
      · exact Or.inr ⟨_, rfl, hmode⟩
      · rw [hnone] at hpc
        cases hpc
    · rcases h with ⟨hnone, -⟩ | ⟨pc'', hpc, hstage⟩
      · rw [hnone] at hnats
        cases hnats
      · rw [hnats] at hpc
        cases hpc
        exact Or.inr ⟨pc', rfl, stage_access hknown hok hnats hstage haccess rfl⟩
    · rcases h with ⟨hnone, -⟩ | ⟨pc', hpc, -⟩
      · rw [hnone] at hnats
        cases hnats
      · rw [hnats] at hpc
        cases hpc
        exact absurd rfl hreturn
    · exact absurd rfl htick
    · exact absurd rfl htick
    · exact absurd rfl htick

theorem halted_of_stage (hform : WellFormed s) (h : Stage cfg d s pc)
    (hdone : pc.access cfg d s.shared = none) : s.shared.machine.mode = .estop ∧ Halted cfg d s := by
  unfold Stage at h
  split at h
  all_goals try cases hdone
  · rename_i left
    cases left with
    | nil =>
      obtain ⟨⟨hmode, hvx, homega, harmed⟩, -, hwheels⟩ := h
      refine ⟨hmode, hform, harmed, hvx, homega, fun id hid => ?_⟩
      rcases hwheels id hid with hleft | hsettled
      · cases hleft
      · exact hsettled
    | cons f left => cases hdone
  · exact absurd h id

/-! ### After the E-stop -/

variable (cfg d) in
def Halting (Q : Mode → Prop) (R : NatsPc → Prop) (s : DriveThreads) : Prop :=
  Q s.shared.machine.mode ∧ Halted cfg d s ∧ ∀ c pc, s.nats = some (c, pc) → R pc

/-- An access that stays in `R`, keeps the mode in `Q`, sets no field and disturbs no wheel at rest. -/
structure Harmless (Q : Mode → Prop) (R : NatsPc → Prop) (s s' : DriveShared) (pc' : NatsPc) : Prop where
  pc : R pc'
  mode : Q s'.machine.mode
  armed : s'.armed = false
  vx : s'.vx = 0
  omegaZ : s'.omegaZ = 0
  rest : ∀ id, AtRest s.servos id → AtRest s'.servos id

theorem halting_next {Q : Mode → Prop} {R : NatsPc → Prop}
    (hcall : ∀ c : DriveCall, e = .call c → R c.start)
    (hnats : ∀ {s s' : DriveShared} {pc pc' : NatsPc}, Q s.machine.mode → s.armed = false → s.vx = 0 → s.omegaZ = 0 →
      R pc → pc.access cfg d s = some (pc', s') → Harmless Q R s s' pc')
    (h : Halting cfg d Q R s) (hnext : s.next cfg d e = some t) : Halting cfg d Q R t := by
  obtain ⟨hmode, hhalted, hpc⟩ := h
  by_cases htick : isTick e = true
  · obtain ⟨hsame, hmachine, -⟩ := tick_frame htick hnext
    refine ⟨?_, halted_tick htick hhalted hnext, ?_⟩
    · rw [hmachine]
      exact hmode
    · rw [hsame]
      exact hpc
  · rcases next_cases hnext with ⟨c, rfl, -, rfl⟩ | ⟨c, pc, pc', shared, rfl, hat, haccess, rfl⟩ |
      ⟨c, pc, rfl, -, -, rfl⟩ | ⟨rfl, -, -⟩ | ⟨_, _, _, rfl, -, -, -⟩ | ⟨_, rfl, -, -, -⟩
    · refine ⟨hmode, hhalted.moved _, ?_⟩
      rintro c' pc ⟨⟩
      exact hcall c rfl
    · have hharmless := hnats hmode hhalted.armed hhalted.vx hhalted.omegaZ (hpc c pc hat) haccess
      refine ⟨hharmless.mode,
        halted_nats hhalted rfl hharmless.armed hharmless.vx hharmless.omegaZ hharmless.rest, ?_⟩
      rintro c' pc'' ⟨⟩
      exact hharmless.pc
    · refine ⟨hmode, hhalted.moved _, ?_⟩
      rintro c' pc' ⟨⟩
    · exact absurd rfl htick
    · exact absurd rfl htick
    · exact absurd rfl htick

/-- Accesses that leave Estop as it is. -/
def Inert : NatsPc → Prop
  | .mode (.setModeCheck _) | .mode .restore | .mode (.compare .estop) | .mode .done => True
  | .driveManual _ | .driveAutonomous _ => True
  | _ => False

theorem inert_access {s s' : DriveShared} (hmode : s.machine.mode = .estop) (harmed : s.armed = false)
    (hvx : s.vx = 0) (homega : s.omegaZ = 0) (h : Inert pc) (haccess : pc.access cfg d s = some (pc', s')) :
    Harmless (· = .estop) Inert s s' pc' := by
  have hsame : ∀ {pc'}, Inert pc' → Harmless (· = .estop) Inert s s pc' := fun hpc =>
    ⟨hpc, hmode, harmed, hvx, homega, fun _ hrest => hrest⟩
  unfold Inert at h
  split at h
  · cases haccess
    exact hsame (by simp [ModePc.access, hmode, Inert])
  · cases haccess
    exact ⟨trivial, hmode, harmed, hvx, homega, fun _ hrest => hrest⟩
  · cases haccess
    exact hsame (by simp [ModePc.access, hmode, Inert])
  · cases haccess
  · cases haccess
    exact hsame (by simp [hmode, Inert])
  · cases haccess
    exact hsame (by simp [hmode, Inert])
  · exact absurd h id

/-- Accesses that give no wheel a speed. -/
def Calm : NatsPc → Prop
  | .mode .recoverCheck | .mode .restore | .mode .readNow | .mode .done => True
  | .mode (.compare target) | .mode (.readOld target) | .mode (.write target) => target.actuating = false
  | .clearVx now | .clearOmega now | .setArmed now | .disarmVx now | .disarmOmega now => now.actuating = false
  | .stopping left => ∀ f ∈ left, StopFrame f
  | .driveManual _ | .driveAutonomous _ => True
  | _ => False

theorem calm_access {s s' : DriveShared} (hmode : s.machine.mode.actuating = false)
    (harmed : s.armed = false) (hvx : s.vx = 0) (homega : s.omegaZ = 0) (h : Calm pc)
    (haccess : pc.access cfg d s = some (pc', s')) : Harmless (Mode.actuating · = false) Calm s s' pc' := by
  have hsame : ∀ {pc'}, Calm pc' → Harmless (Mode.actuating · = false) Calm s s pc' := fun hpc =>
    ⟨hpc, hmode, harmed, hvx, homega, fun _ hrest => hrest⟩
  unfold Calm at h
  split at h
  · cases haccess
    refine hsame ?_
    rw [ModePc.access]
    split
    · rfl
    · trivial
  · cases haccess
    exact ⟨trivial, hmode, harmed, hvx, homega, fun _ hrest => hrest⟩
  · cases haccess
    exact hsame hmode
  · cases haccess
  · cases haccess
    refine hsame ?_
    rw [ModePc.access]
    split
    · trivial
    · exact h
  · cases haccess
    exact hsame h
  · cases haccess
    exact ⟨trivial, h, harmed, hvx, homega, fun _ h => h⟩
  · cases haccess
    exact ⟨h, hmode, harmed, rfl, homega, fun _ h => h⟩
  · cases haccess
    exact ⟨h, hmode, harmed, hvx, rfl, fun _ h => h⟩
  · cases haccess
    exact ⟨by simp [h, Calm], hmode, h, hvx, homega, fun _ h => h⟩
  · cases haccess
    exact ⟨h, hmode, harmed, rfl, homega, fun _ h => h⟩
  · cases haccess
    exact ⟨fun f hf => stopFrame_of_mem hf, hmode, harmed, hvx, rfl, fun _ h => h⟩
  · rename_i left
    cases left with
    | nil => cases haccess
    | cons f left =>
      cases haccess
      exact ⟨fun g hg => h g (List.mem_cons_of_mem _ hg), hmode, harmed, hvx, homega,
        fun _ hrest => atRest_stop hrest (h f List.mem_cons_self)⟩
  · cases haccess
    refine hsame ?_
    have hne : s.machine.mode ≠ .manual := fun hm => by simp [hm, Mode.actuating] at hmode
    simp [hne, Calm]
  · cases haccess
    refine hsame ?_
    have hne : s.machine.mode ≠ .autonomous := fun hm => by simp [hm, Mode.actuating] at hmode
    simp [hne, Calm]
  · exact absurd h id

theorem latched_of_returned {doc : Toml} (hcfg : Config.ofDocument doc = some cfg) (hdrive : cfg.drive = some d)
    {shared : DriveShared} (hmode : shared.machine.mode.actuating = true) {before : List DriveAction}
    (hrun : Run (Guarded (Clear cfg d) (Takes (next cfg d))) { shared := shared } before s)
    (hreturn : s.next cfg d (.returned (.request .estop)) = some t)
    (hcalls : ∀ c, .call c ∈ before → c = .request .estop) (hfirst : .returned (.request .estop) ∉ before) :
    Halting cfg d (· = .estop) Inert t := by
  have hunderway : Underway cfg d s := by
    refine hrun.invariant_of_allowed
      (fun e => (∀ c, e = .call c → c = .request .estop) ∧ e ≠ .returned (.request .estop))
      (fun _ _ _ hallowed h hstep => underway_next (Config.wheels_known hcfg hdrive) hstep.1 hallowed.1 hallowed.2 h hstep.2)
      (fun e he => ⟨?_, ?_⟩) ⟨by simp [WellFormed], Or.inl ⟨rfl, ?_⟩⟩
    · rintro c rfl
      exact hcalls c he
    · rintro rfl
      exact hfirst he
    · intro h
      rw [show shared.machine.mode = .estop from h] at hmode
      cases hmode
  rcases next_cases hreturn with ⟨_, h, -⟩ | ⟨_, _, _, _, h, -⟩ | ⟨c, pc, h, hnats, hdone, rfl⟩ | ⟨h, -⟩ | ⟨_, _, _, h, -⟩ |
    ⟨_, h, -⟩
  · cases h
  · cases h
  · obtain ⟨hform, ⟨hnone, -⟩ | ⟨pc', hpc, hstage⟩⟩ := hunderway
    · rw [hnone] at hnats
      cases hnats
    cases h
    rw [hnats] at hpc
    cases hpc
    obtain ⟨hestop, hhalted⟩ := halted_of_stage hform hstage hdone
    refine ⟨hestop, hhalted.moved _, ?_⟩
    rintro c pc' ⟨⟩
  · cases h
  · cases h
  · cases h

theorem latched_run (hrun : Run (Takes (next cfg d)) s es t)
    (hrecover : .call (.request .recover) ∉ es) (h : Halting cfg d (· = .estop) Inert s) :
    Halting cfg d (· = .estop) Inert t := by
  refine hrun.invariant_of_allowed (fun e => e ≠ .call (.request .recover))
    (fun _ _ _ hallowed h hstep => halting_next (fun c hc => ?_) inert_access h hstep) (fun e he => ?_) h
  · match c with
    | .request .recover => exact absurd hc hallowed
    | .request (.setMode _) | .request .estop | .request .restored | .cmdDrive _ => trivial
  · rintro rfl
    exact hrecover he

theorem lowered_run
    (hrun : Run (Takes (next cfg d)) s (.call (.request .recover) :: es) t)
    (hset : ∀ target, .call (.request (.setMode target)) ∉ es) (h : Halting cfg d (· = .estop) Inert s) :
    Halting cfg d (Mode.actuating · = false) Calm t := by
  cases hrun with
  | cons hcall hes =>
    refine hes.invariant_of_allowed (fun e => ∀ target, e ≠ .call (.request (.setMode target)))
      (fun _ _ _ hallowed h hstep => halting_next (fun c hc => ?_) calm_access h hstep) (fun e he => ?_) ?_
    · match c with
      | .request (.setMode target) => exact absurd hc (hallowed target)
      | .request .recover | .request .restored | .cmdDrive _ => trivial
      | .request .estop => rfl
    · rintro target rfl
      exact hset target he
    · obtain ⟨hmode, hhalted, -⟩ := h
      simp only [Takes, next, Option.ite_none_right_eq_some, Option.some_inj] at hcall
      obtain ⟨-, rfl⟩ := hcall
      refine ⟨?_, hhalted.moved _, ?_⟩
      · change s.shared.machine.mode.actuating = false
        rw [hmode]
        rfl
      · rintro c pc ⟨⟩
        trivial

/-- In every run in which no zero goes out to a wheel that the tick in flight still has a speed for: after the E-stop has
returned the wheels stand, and stay so until a recover followed by a `set_mode`. -/
theorem estop_wins {doc : Toml} {cfg : Config} {d : DriveSetup} (hcfg : Config.ofDocument doc = some cfg)
    (hdrive : cfg.drive = some d) {shared : DriveShared} (hmode : shared.machine.mode.actuating = true)
    {before after : List DriveAction} {t : DriveThreads}
    (hrun : Run (Guarded (Clear cfg d) (Takes (next cfg d))) { shared := shared }
      (before ++ .returned (.request .estop) :: after) t)
    (hcalls : ∀ c, .call c ∈ before → c = .request .estop) (hfirst : .returned (.request .estop) ∉ before)
    (hafter : ∀ p q, after = p ++ .call (.request .recover) :: q →
      ∀ target, .call (.request (.setMode target)) ∉ q) :
    ∀ id ∈ d.wheels.toList, AtRest t.shared.servos id := by
  obtain ⟨s, hbefore, hrest⟩ := hrun.of_append
  cases hrest with
  | cons hreturn hlater =>
    have hlatched := latched_of_returned hcfg hdrive hmode hbefore hreturn.2 hcalls hfirst
    by_cases hrecover : .call (.request .recover) ∈ after
    · obtain ⟨p, q, rfl, hp⟩ := List.eq_append_cons_of_mem hrecover
      obtain ⟨u, hfirstPart, hsecondPart⟩ := hlater.unguard.of_append
      have hlow := lowered_run hsecondPart (hafter p q rfl) (latched_run hfirstPart hp hlatched)
      exact fun id hid => (hlow.2.1.settled id hid).1
    · exact fun id hid => ((latched_run hlater.unguard hrecover hlatched).2.1.settled id hid).1

/-! ### The race on the rover -/

def roverServos : ServoModel :=
  ⟨fun id => if 1 ≤ id ∧ id ≤ 12 then some { regs := fun a => if a = Reg.mode.toNat ∧ 7 ≤ id then 1 else 0 } else none⟩

def driving : DriveShared where
  machine := { mode := .manual, heartbeatOk := true }
  armed := true
  vx := 1
  omegaZ := 0
  servos := roverServos

def tickToWrites : List DriveAction := .tickCall :: List.replicate 7 .tickAccess

def estopAccesses : List DriveAction := .call (.request .estop) :: List.replicate 21 .natsAccess

def lateWrites : List DriveAction := List.replicate 4 .tickAccess ++ [.tickReturned]

/-- A tick computes its speeds, the E-stop runs from beginning to end, and the tick then writes. -/
theorem estop_loses :
    ¬ ∀ (doc : Toml) (cfg : Config) (d : DriveSetup), Config.ofDocument doc = some cfg → cfg.drive = some d →
      ∀ shared : DriveShared, shared.machine.mode.actuating = true → shared.armed = true →
      ∀ (before after : List DriveAction) (t : DriveThreads),
        Run (Takes (next cfg d)) { shared := shared } (before ++ .returned (.request .estop) :: after) t →
        (∀ c, .call c ∈ before → c = .request .estop) → .returned (.request .estop) ∉ before →
        (∀ c, .call c ∉ after) → t.loop = none →
        ∀ id ∈ d.wheels.toList, AtRest t.shared.servos id := by
  intro h
  have hresult : ((Config.ofDocument Descriptor.waypointRover).bind fun cfg => cfg.drive.bind fun d =>
      ((tickToWrites ++ estopAccesses ++ DriveAction.returned (.request .estop) :: lateWrites).foldlM (next cfg d)
        ({ shared := driving } : DriveThreads)).map fun t =>
          (t.loop, decide (10 ∈ d.wheels.toList), (t.shared.servos.motion 10).map fun x => (x.present, decide (x.low = 0)))) =
      some (none, true, some (true, false)) := by decide +kernel
  obtain ⟨cfg, hcfg, hresult⟩ := Option.bind_eq_some_iff.mp hresult
  obtain ⟨d, hdrive, hresult⟩ := Option.bind_eq_some_iff.mp hresult
  obtain ⟨t, hrun, hresult⟩ := Option.map_eq_some_iff.mp hresult
  simp only [Prod.mk.injEq, decide_eq_true_eq, Option.map_eq_some_iff, decide_eq_false_iff_not] at hresult
  obtain ⟨hloop, hwheel, x, hx, hpresent, hlow⟩ := hresult
  have hrest := h _ cfg d hcfg hdrive driving rfl rfl _ _ t (run_takes_iff.mpr hrun)
    (by simp [tickToWrites, estopAccesses]) (by simp [tickToWrites, estopAccesses]) (by simp [lateWrites]) hloop 10 hwheel
  exact hlow (hrest x hx hpresent).1

/-- The frame that a handler which stops the wheels sends next. -/
def sends : NatsPc → Option Frame
  | .stopping (f :: _) => some f
  | _ => none

theorem stopping_of_sends {pc : NatsPc} (h : sends pc = some f) : ∃ left, pc = .stopping (f :: left) := by
  unfold sends at h
  split at h
  · cases h
    exact ⟨_, rfl⟩
  · cases h

instance (m : ServoModel) (id : JointId) : Decidable (AtRest m id) :=
  inferInstanceAs (Decidable (∀ x ∈ m.motion id, _ → _))

instance (cfg : Config) (d : DriveSetup) (s : DriveThreads) (e : DriveAction) : Decidable (Clear cfg d s e) :=
  decidable_of_iff (e = .natsAccess → ∀ n ∈ s.nats, ∀ f ∈ sends n.2, f = buildSetGoalSpeed f.id 0 →
      ∀ g ∈ s.pending cfg d, g.id = f.id → g.nonzeroSpeed = false) <| by
    constructor
    · intro h c id left he hnats
      exact h he _ hnats _ rfl rfl
    · rintro h he ⟨c, pc⟩ hnats f hf hzero
      obtain ⟨left, rfl⟩ := stopping_of_sends hf
      exact h c f.id left he (hzero ▸ hnats)

def wholeTick : List DriveAction := tickToWrites ++ lateWrites

/-- The tick after the E-stop reads the wheels and finds the drive disarmed. -/
def disarmedTick : List DriveAction := .tickCall :: List.replicate 5 .tickAccess ++ [.tickReturned]

theorem estop_wins_rover :
    ∃ cfg ∈ Config.ofDocument Descriptor.waypointRover, ∃ d ∈ cfg.drive, ∃ s t,
      Run (Guarded (Clear cfg d) (Takes (next cfg d))) { shared := driving } wholeTick s ∧ ¬AtRest s.shared.servos 10 ∧
      Run (Guarded (Clear cfg d) (Takes (next cfg d))) s (estopAccesses ++ .returned (.request .estop) :: disarmedTick) t ∧
      ∀ id ∈ d.wheels.toList, AtRest t.shared.servos id := by
  have hruns : ∃ cfg ∈ Config.ofDocument Descriptor.waypointRover, ∃ d ∈ cfg.drive,
      ∃ s ∈ wholeTick.foldlM (fun s e => if Clear cfg d s e then next cfg d s e else none) { shared := driving },
        ¬AtRest s.shared.servos 10 ∧ ((estopAccesses ++ .returned (.request .estop) :: disarmedTick).foldlM
          (fun s e => if Clear cfg d s e then next cfg d s e else none) s).isSome := by
    decide +kernel
  obtain ⟨cfg, hcfg, d, hdrive, s, hs, hmoves, ht⟩ := hruns
  obtain ⟨t, ht⟩ := Option.isSome_iff_exists.mp ht
  rw [Option.mem_def, ← run_guarded_iff] at hs
  rw [← run_guarded_iff] at ht
  have hrun := hs.append ht
  rw [← List.append_assoc] at hrun
  refine ⟨cfg, hcfg, d, hdrive, s, t, hs, hmoves, ht, ?_⟩
  refine estop_wins hcfg hdrive rfl hrun (by simp [wholeTick, tickToWrites, lateWrites, estopAccesses])
    (by simp [wholeTick, tickToWrites, lateWrites, estopAccesses]) fun p q hpq => ?_
  have hrecover : .call (.request .recover) ∈ disarmedTick := hpq ▸ List.mem_append_right _ List.mem_cons_self
  exact absurd hrecover (by decide)

end DriveThreads

end Waypoint.Core
