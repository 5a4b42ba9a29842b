import Waypoint.Core.Supervisor

/-!
# Boot

`main.cpp` up to the entry of the main loop. The drive is built on the first driver of the descriptor, and a wheel whose joint another driver owns does not resolve.
-/

namespace Waypoint.Core

open Base

namespace Descriptor

theorem drivers_of_parse {root : Toml} {d : Descriptor} (h : parse root = .ok d) : d.drivers ≠ [] := by
  simp only [parse, fail, ite_error_eq_ok, bind_eq_ok] at h
  obtain ⟨-, -, -, drivers, -, hdrivers, joints, -, -, h⟩ := h
  have hnonempty : drivers ≠ [] := by
    intro hnil
    exact hdrivers (by rw [hnil]; rfl)
  split at h
  · rw [ite_error_eq_ok] at h
    cases h.2
    exact hnonempty
  split at h
  · cases h
  · obtain ⟨k, -, h⟩ := bind_eq_ok.mp h
    cases h
    exact hnonempty

end Descriptor

namespace Sts3215Driver

theorem byName_foldl {js : List Joint} {drv : Sts3215Driver} {name : String}
    (h : (drv.byName name).isSome = true ∨ ∃ j ∈ js, j.name = name) : ((js.foldl addJoint drv).byName name).isSome = true := by
  induction js generalizing drv with
  | nil => exact h.resolve_right fun ⟨_, hmem, _⟩ => (by cases hmem)
  | cons j js ih =>
    refine ih ?_
    by_cases hname : name = j.name
    · left
      change (if name = j.name then some j.busId else drv.byName name).isSome = true
      rw [if_pos hname]
      rfl
    · rcases h with hold | ⟨k, hk, hkname⟩
      · left
        change (if name = j.name then some j.busId else drv.byName name).isSome = true
        rwa [if_neg hname]
      · rcases List.mem_cons.mp hk with rfl | hk
        · exact absurd hkname.symm hname
        · exact .inr ⟨k, hk, hkname⟩

theorem byName_of_joint {d : Descriptor} {driverName : String} {j : Joint} (hmem : j ∈ d.joints)
    (hdriver : j.driver = driverName) : ((ofDescriptor d driverName).byName j.name).isSome = true :=
  byName_foldl (.inr ⟨j, List.mem_filter.mpr ⟨hmem, decide_eq_true hdriver⟩, rfl⟩)

end Sts3215Driver

namespace Config

variable {k : DescriptorKinematics}

theorem resolveWheels_isSome_iff {drv : Sts3215Driver} :
    (resolveWheels drv k).isSome = true ↔
      ∀ pos ∈ Descriptor.wheelPositions, ((k.wheels.lookup pos).bind drv.idForName).isSome = true := by
  constructor
  · intro h
    obtain ⟨wheels, hwheels⟩ := Option.isSome_iff_exists.mp h
    obtain ⟨hfl, hfr, hbl, hbr⟩ := resolveWheels_eq_some hwheels
    intro pos hpos
    simp only [Descriptor.wheelPositions, List.mem_cons, List.not_mem_nil, or_false] at hpos
    rcases hpos with rfl | rfl | rfl | rfl
    · rw [hfl]; rfl
    · rw [hfr]; rfl
    · rw [hbl]; rfl
    · rw [hbr]; rfl
  · intro h
    have hid (pos : String) (hpos : pos ∈ Descriptor.wheelPositions) := Option.isSome_iff_exists.mp (h pos hpos)
    obtain ⟨fl, hfl⟩ := hid "front_left" (by decide)
    obtain ⟨fr, hfr⟩ := hid "front_right" (by decide)
    obtain ⟨bl, hbl⟩ := hid "back_left" (by decide)
    obtain ⟨br, hbr⟩ := hid "back_right" (by decide)
    simp only [resolveWheels, hfl, hfr, hbl, hbr]
    rfl

theorem ofDescriptor_isSome_iff {d : Descriptor} {first : String × DriverCfg}
    (hfirst : d.drivers.head? = some first) (hk : d.kinematics = some k) :
    (ofDescriptor d).isSome = true ↔ (resolveWheels (Sts3215Driver.ofDescriptor d first.1) k).isSome = true := by
  rw [ofDescriptor, hfirst, hk]
  cases hwheels : resolveWheels (Sts3215Driver.ofDescriptor d first.1) k with
  | none => simp [resolveDrive, hwheels]
  | some wheels => simp [resolveDrive, hwheels]

/-- Boot has an id for every wheel exactly where the first driver owns all the joints of the wheel map. -/
theorem boot_resolves_wheels_iff {root : Toml} {d : Descriptor} (hparse : Descriptor.parse root = .ok d)
    (hdrive : d.hasDrive = true) :
    (ofDescriptor d).isSome = true ↔
      ∀ first ∈ d.drivers.head?, ∀ pos ∈ Descriptor.wheelPositions, ∀ j ∈ d.jointAt pos, j.driver = first.1 := by
  obtain ⟨k, hk⟩ := Option.isSome_iff_exists.mp hdrive
  obtain ⟨first, hfirst⟩ := Option.isSome_iff_exists.mp (List.isSome_head?.mpr (Descriptor.drivers_of_parse hparse))
  rw [ofDescriptor_isSome_iff hfirst hk, resolveWheels_isSome_iff]
  constructor
  · intro hresolves first' hfirst' pos hpos j hj
    obtain rfl : first = first' := Option.some_inj.mp (hfirst.symm.trans hfirst')
    obtain ⟨id, hid⟩ := Option.isSome_iff_exists.mp (hresolves pos hpos)
    obtain ⟨j', -, hat, hdriver, -⟩ := Descriptor.jointAt_of_resolved hparse hk hid
    obtain rfl : j = j' := Option.some_inj.mp (hj.symm.trans hat)
    exact hdriver
  · intro howned pos hpos
    obtain ⟨j, hat, -⟩ := Descriptor.wheels_of_parse hparse hdrive pos hpos
    have hdriver := howned first hfirst pos hpos j hat
    rw [Descriptor.jointAt, hk, Option.bind_some] at hat
    obtain ⟨name, hname, hj⟩ := Option.bind_eq_some_iff.mp hat
    have hsame : j.name = name := by simpa using List.find?_some hj
    rw [hname, Option.bind_some, ← hsame]
    exact Sts3215Driver.byName_of_joint (List.mem_of_find?_eq_some hj) hdriver

theorem boot_resolves_wheels_rover :
    ∃ d, Descriptor.parse Descriptor.waypointRover = .ok d ∧ d.hasDrive = true ∧
      ((ofDescriptor d).isSome = true ↔
        ∀ first ∈ d.drivers.head?, ∀ pos ∈ Descriptor.wheelPositions, ∀ j ∈ d.jointAt pos, j.driver = first.1) := by
  have hparse : ((Descriptor.parse Descriptor.waypointRover).toOption.map Descriptor.hasDrive) = some true := by decide +kernel
  obtain ⟨d, hd, hdrive⟩ := Option.map_eq_some_iff.mp hparse
  have hok := toOption_eq_some.mp hd
  exact ⟨d, hok, hdrive, boot_resolves_wheels_iff hok hdrive⟩

/-- The shipped rover with a second bus, whose name comes before the one its joints are on. -/
def twoBusRover : Toml :=
  .table (("drivers", .table [
      ("aux", .table [("kind", .string "sts3215"), ("port", .string "/dev/ttyUSB0")]),
      ("main", .table [("kind", .string "sts3215"), ("port", .string "/dev/ttyAMA0")])]) ::
    (Descriptor.waypointRover.asTable.getD []).tail)

theorem boot_dereferences_nothing :
    ∃ d, Descriptor.parse twoBusRover = .ok d ∧ d.hasDrive = true ∧ ofDescriptor d = none := by
  have hparse : ((Descriptor.parse twoBusRover).toOption.map fun d => (d.hasDrive, (ofDescriptor d).isNone)) =
      some (true, true) := by decide +kernel
  obtain ⟨d, hd, hresult⟩ := Option.map_eq_some_iff.mp hparse
  obtain ⟨hdrive, hnone⟩ := Prod.mk.inj hresult
  exact ⟨d, toOption_eq_some.mp hd, hdrive, Option.isNone_iff_eq_none.mp hnone⟩

end Config

inductive Topic
  | heartbeat
  | cmdDrive
  | setMode
  | estop
  | recover
  | servo
  | servoRead
  | servoSync
  deriving DecidableEq

def Config.topics (cfg : Config) : List Topic :=
  .heartbeat :: ((if cfg.drive.isSome then [.cmdDrive] else []) ++
    [.setMode, .estop, .recover, .servo, .servoRead, .servoSync])

def Event.topic {μ : Type} : Event μ → Option Topic
  | .heartbeat => some .heartbeat
  | .cmdDrive _ => some .cmdDrive
  | .setMode _ => some .setMode
  | .estop => some .estop
  | .recover => some .recover
  | .servo _ => some .servo
  | .servoSync _ => some .servoSync
  | .servoRead _ => some .servoRead
  | .loop _ => none

/-- Where `main` is: what is still to be subscribed, pinged, put in its mode or released. -/
inductive BootPc
  | subscribing (left : List Topic)
  | scanning (left present : List JointId)
  | ensuring (left present : List JointId)
  | disarming (present : List JointId)
  | releasing (left auxIDs : List JointId)
  | entered
  deriving DecidableEq

structure Boot (σ : Type) where
  pc : BootPc
  core : CoreState σ

/-- A step of `main` at a reading of the clock, or a whole handler of the reader thread. -/
inductive BootAction (μ : Type)
  | boot (now : TimePoint)
  | message (e : Stamped μ)

namespace Boot

def kAuxMaxFailures : Nat := 3

def start {σ : Type} (cfg : Config) (wire : σ) : Boot σ where
  pc := .subscribing cfg.topics
  core := CoreState.entry wire { ids := [], maxFailures := kAuxMaxFailures } 0

def auxIDs (cfg : Config) (present : List JointId) : List JointId :=
  present.filter fun id => !((cfg.drive.map fun d => d.wheels.toList).getD []).contains id

variable {σ μ : Type} (cfg : Config) (w : World σ μ) (allBusIds : List JointId)

def advance (now : TimePoint) (s : Boot σ) : Option (Boot σ) :=
  match s.pc with
  | .subscribing (_ :: left) => some { s with pc := .subscribing left }
  | .subscribing [] => some { s with pc := .scanning allBusIds [] }
  | .scanning (id :: left) present =>
    let r := (Bus.ping w.toWire id).run s.core.bus
    some { pc := .scanning left (if r.1 = 0 then present ++ [id] else present), core := { s.core with bus := r.2 } }
  | .scanning [] present => some { s with pc := .ensuring present present }
  | .ensuring (id :: left) present =>
    some { pc := .ensuring left present
           core := { s.core with bus := ((cfg.jointDrv.ensureMode w.toWire id).run s.core.bus).2 } }
  | .ensuring [] present => some { s with pc := .disarming present }
  | .disarming present =>
    some { pc := .releasing (auxIDs cfg present) (auxIDs cfg present), core := CoreState.armDrive cfg w false s.core }
  | .releasing (id :: left) aux =>
    some { pc := .releasing left aux
           core := { s.core with bus := ((Bus.setTorqueEnable w.toWire id false).run s.core.bus).2 } }
  | .releasing [] aux =>
    some { pc := .entered
           core := { s.core with auxRot := { ids := aux, maxFailures := kAuxMaxFailures }, next50 := now, next20 := now } }
  | .entered => none

def subscribed (s : Boot σ) (e : Event μ) : Bool :=
  match e.topic, s.pc with
  | none, _ | _, .entered => false
  | some topic, .subscribing left => cfg.topics.contains topic && !left.contains topic
  | some topic, _ => cfg.topics.contains topic

def next (s : Boot σ) : BootAction μ → Option (Boot σ)
  | .boot now => advance cfg w allBusIds now s
  | .message e => if subscribed cfg s e.event then some { s with core := s.core.step cfg w e } else none

def remodes : Boot σ → List (BootAction μ) → Bool
  | _, [] => false
  | s, a :: actions =>
    match next cfg w allBusIds s a with
    | none => false
    | some m => decide (m.core.mode ≠ s.core.mode) || remodes m actions

/-- The drive follows a change of the mode, and else stays as it is. -/
def Follows (s t : Boot σ) : Prop :=
  t.core.mode = s.core.mode ∧ t.core.drive.armed = s.core.drive.armed ∨
    t.core.mode ≠ s.core.mode ∧ t.core.drive.armed = t.core.mode.actuating

/-- The start has disarmed the drive. -/
def Past (s : Boot σ) : Prop :=
  match s.pc with
  | .releasing _ _ | .entered => True
  | _ => False

variable {cfg w allBusIds} {s t : Boot σ} {a : BootAction μ} {actions : List (BootAction μ)}

theorem settle_follows {b : Supervisor} {m : ModeMachine} {change : Option Change}
    (hchange : change = ModeMachine.changeOf b.mode m.mode) :
    (b.settle true m change).mode = b.mode ∧ (b.settle true m change).armed = b.armed ∨
      (b.settle true m change).mode ≠ b.mode ∧ (b.settle true m change).armed = (b.settle true m change).mode.actuating := by
  subst hchange
  unfold ModeMachine.changeOf
  by_cases hsame : b.mode = m.mode
  · rw [if_pos hsame]
    exact .inl ⟨hsame.symm, rfl⟩
  · rw [if_neg hsame]
    exact .inr ⟨fun h => hsame h.symm, rfl⟩

theorem step_follows (b : Supervisor) (e : Stamped μ) (htopic : e.event.topic.isSome = true) :
    (b.step true e).mode = b.mode ∧ (b.step true e).armed = b.armed ∨
      (b.step true e).mode ≠ b.mode ∧ (b.step true e).armed = (b.step true e).mode.actuating := by
  obtain ⟨now, event⟩ := e
  cases event with
  | heartbeat => exact .inl ⟨rfl, rfl⟩
  | cmdDrive payload =>
    cases payload with
    | none => exact .inl ⟨rfl, rfl⟩
    | some target =>
      simp only [Supervisor.step]
      split
      · exact .inl ⟨rfl, rfl⟩
      · exact .inl ⟨rfl, rfl⟩
  | setMode payload =>
    cases payload with
    | none => exact .inl ⟨rfl, rfl⟩
    | some raw =>
      refine settle_follows ?_
      unfold Supervisor.setModeRequest
      split
      · exact b.machine.requestEstop_spec.1
      · exact (b.machine.requestSetMode_spec _).1
  | estop => exact settle_follows b.machine.requestEstop_spec.1
  | recover => exact settle_follows b.machine.requestRecover_spec.1
  | servo c => exact .inl ⟨rfl, rfl⟩
  | servoSync goals => exact .inl ⟨rfl, rfl⟩
  | servoRead servoId => exact .inl ⟨rfl, rfl⟩
  | loop motion => cases htopic

theorem message_follows (hdrive : cfg.drive.isSome = true) {e : Stamped μ} (h : next cfg w allBusIds s (.message e) = some t) :
    t.pc = s.pc ∧ Follows s t := by
  simp only [next, Option.ite_none_right_eq_some, Option.some_inj] at h
  obtain ⟨hsubscribed, rfl⟩ := h
  have htopic : e.event.topic.isSome = true := by
    unfold subscribed at hsubscribed
    split at hsubscribed
    · cases hsubscribed
    · cases hsubscribed
    · rename_i htopic _
      rw [htopic]
      rfl
    · rename_i htopic _ _
      rw [htopic]
      rfl
  have hstep := step_follows s.core.supervisor e htopic
  rw [← hdrive, ← CoreState.supervisor_step] at hstep
  exact ⟨rfl, hstep⟩

theorem past_follows (hdrive : cfg.drive.isSome = true) (hpast : Past s) (h : next cfg w allBusIds s a = some t) :
    Past t ∧ Follows s t := by
  cases a with
  | message e =>
    obtain ⟨hpc, hfollows⟩ := message_follows hdrive h
    refine ⟨?_, hfollows⟩
    rw [Past, hpc]
    exact hpast
  | boot now =>
    obtain ⟨pc, core⟩ := s
    cases pc with
    | releasing left aux =>
      cases left with
      | nil =>
        cases h
        exact ⟨trivial, .inl ⟨rfl, rfl⟩⟩
      | cons id left =>
        cases h
        exact ⟨trivial, .inl ⟨rfl, rfl⟩⟩
    | entered => cases h
    | _ => cases hpast

theorem disarms (hdrive : cfg.drive.isSome = true) (hbefore : ¬Past s) (hpast : Past t)
    (h : next cfg w allBusIds s a = some t) :
    ∃ now present, a = .boot now ∧ s.pc = .disarming present := by
  cases a with
  | message e =>
    obtain ⟨hpc, -⟩ := message_follows hdrive h
    rw [Past, hpc] at hpast
    exact absurd hpast hbefore
  | boot now =>
    obtain ⟨pc, core⟩ := s
    cases pc with
    | subscribing left => cases left <;> (cases h; cases hpast)
    | scanning left present => cases left <;> (cases h; cases hpast)
    | ensuring left present => cases left <;> (cases h; cases hpast)
    | disarming present => exact ⟨now, present, rfl, rfl⟩
    | _ => exact absurd trivial hbefore

theorem remodes_cons (h : next cfg w allBusIds s a = some t) :
    remodes cfg w allBusIds s (a :: actions) = (decide (t.core.mode ≠ s.core.mode) || remodes cfg w allBusIds t actions) := by
  rw [remodes, h]

theorem run_past (hdrive : cfg.drive.isSome = true) (hrun : Run (Takes (next cfg w allBusIds)) s actions t) (hpast : Past s) :
    (remodes cfg w allBusIds s actions = true → t.core.drive.armed = t.core.mode.actuating) ∧
      (remodes cfg w allBusIds s actions = false →
        t.core.mode = s.core.mode ∧ t.core.drive.armed = s.core.drive.armed) := by
  induction hrun with
  | nil s => exact ⟨fun h => (by cases h), fun _ => ⟨rfl, rfl⟩⟩
  | @cons s m t a actions hfirst hrest ih =>
    obtain ⟨hpast', hfollows⟩ := past_follows hdrive hpast hfirst
    obtain ⟨hchanged, hsame⟩ := ih hpast'
    rw [remodes_cons hfirst]
    rcases hfollows with ⟨hmode, harmed⟩ | ⟨hmode, harmed⟩
    · rw [decide_eq_false (not_not.mpr hmode), Bool.false_or, ← hmode, ← harmed]
      exact ⟨hchanged, hsame⟩
    rw [decide_eq_true hmode, Bool.true_or]
    refine ⟨fun _ => ?_, fun h => (by cases h)⟩
    cases hlater : remodes cfg w allBusIds m actions with
    | true => exact hchanged hlater
    | false =>
      obtain ⟨hkept, hkeptArmed⟩ := hsame hlater
      rw [hkept, hkeptArmed, harmed]

variable {now : TimePoint} {present : List JointId}

theorem disarm_spec (hdrive : cfg.drive.isSome = true)
    (hpc : s.pc = .disarming present) (h : next cfg w allBusIds s (.boot now) = some t) :
    Past t ∧ t.core.mode = s.core.mode ∧ t.core.drive.armed = false := by
  obtain ⟨pc, core⟩ := s
  obtain rfl : pc = .disarming present := hpc
  cases h
  have hdisarmed : (CoreState.armDrive cfg w false core).supervisor = _ := CoreState.supervisor_armDrive false core
  rw [if_pos hdrive] at hdisarmed
  exact ⟨trivial, congrArg Supervisor.mode hdisarmed, congrArg Supervisor.armed hdisarmed⟩

theorem split_of_past (hdrive : cfg.drive.isSome = true) (hrun : Run (Takes (next cfg w allBusIds)) s actions t)
    (hbefore : ¬Past s) (hpast : Past t) :
    ∃ before now after m present, actions = before ++ .boot now :: after ∧
      Run (Takes (next cfg w allBusIds)) s before m ∧ m.pc = .disarming present := by
  induction hrun with
  | nil s => exact absurd hpast hbefore
  | @cons s m t a actions hfirst hrest ih =>
    by_cases hmid : Past m
    · obtain ⟨now, present, rfl, hpc⟩ := disarms hdrive hbefore hmid hfirst
      exact ⟨[], now, actions, s, present, rfl, .nil s, hpc⟩
    · obtain ⟨before, now, after, m', present, rfl, hrun, hpc⟩ := ih hmid hpast
      exact ⟨a :: before, now, after, m', present, rfl, .cons hfirst hrun, hpc⟩

theorem armed_after_disarm_iff (hdrive : cfg.drive.isSome = true)
    (hpc : s.pc = .disarming present) (hrun : Run (Takes (next cfg w allBusIds)) s (.boot now :: actions) t) :
    t.core.drive.armed = t.core.mode.actuating ↔
      s.core.mode.actuating = false ∨ remodes cfg w allBusIds s (.boot now :: actions) = true := by
  cases hrun with
  | cons hfirst hrest =>
    obtain ⟨hpast, hmode, hdisarmed⟩ := disarm_spec hdrive hpc hfirst
    obtain ⟨hchanged, hsame⟩ := run_past hdrive hrest hpast
    rw [remodes_cons hfirst, decide_eq_false (not_not.mpr hmode), Bool.false_or]
    cases hremodes : remodes cfg w allBusIds _ actions with
    | true => exact iff_of_true (hchanged hremodes) (.inr rfl)
    | false =>
      obtain ⟨hkept, hkeptArmed⟩ := hsame hremodes
      rw [hkept, hkeptArmed, hdisarmed, hmode]
      exact ⟨fun h => .inl h.symm, fun h => (h.resolve_right Bool.false_ne_true).symm⟩

/-- At loop entry the drive is armed as the mode asks exactly if the disarm found a mode that does not drive, or a message after it changed the mode. -/
theorem armed_at_entry_iff (cfg : Config) (w : World σ μ) (allBusIds : List JointId) (wire : σ)
    (hdrive : cfg.drive.isSome = true) {actions : List (BootAction μ)} {t : Boot σ}
    (hrun : Run (Takes (next cfg w allBusIds)) (start cfg wire) actions t) (hentered : t.pc = .entered) :
    t.core.drive.armed = t.core.mode.actuating ↔
      ∃ before now after s present, actions = before ++ .boot now :: after ∧
        Run (Takes (next cfg w allBusIds)) (start cfg wire) before s ∧ s.pc = .disarming present ∧
        (s.core.mode.actuating = false ∨ remodes cfg w allBusIds s (.boot now :: after) = true) := by
  have hpast : Past t := by
    rw [Past, hentered]
    trivial
  constructor
  · intro harmed
    obtain ⟨before, now, after, s, present, rfl, hbefore, hpc⟩ := split_of_past hdrive hrun (fun h => h) hpast
    obtain ⟨s', hbefore', hafter⟩ := hrun.of_append
    cases Option.some_inj.mp ((run_takes_iff.mp hbefore).symm.trans (run_takes_iff.mp hbefore'))
    exact ⟨before, now, after, s, present, rfl, hbefore, hpc, (armed_after_disarm_iff hdrive hpc hafter).mp harmed⟩
  · rintro ⟨before, now, after, s, present, rfl, hbefore, hpc, hgood⟩
    obtain ⟨s', hbefore', hafter⟩ := hrun.of_append
    cases Option.some_inj.mp ((run_takes_iff.mp hbefore).symm.trans (run_takes_iff.mp hbefore'))
    exact (armed_after_disarm_iff hdrive hpc hafter).mpr hgood

/-- A heartbeat while the bus is scanned, and a request for Manual once the drive has been disarmed. -/
def manualAtTheEnd : List (BootAction Unit) :=
  List.replicate 9 (.boot 0) ++ .message ⟨0, .heartbeat⟩ :: List.replicate 15 (.boot 0) ++
    [.message ⟨0, .setMode (some 1)⟩, .boot 0]

theorem armed_at_entry_quiet :
    ∃ d cfg t, Descriptor.parse Descriptor.waypointRover = .ok d ∧ Config.ofDescriptor d = some cfg ∧
      Run (Takes (next cfg World.silent d.allBusIds)) (start cfg ()) manualAtTheEnd t ∧
      ∃ before now after s present, manualAtTheEnd = before ++ .boot now :: after ∧
        Run (Takes (next cfg World.silent d.allBusIds)) (start cfg ()) before s ∧ s.pc = .disarming present ∧
        (s.core.mode.actuating = false ∨ remodes cfg World.silent d.allBusIds s (.boot now :: after) = true) := by
  have hresult : ((Descriptor.parse Descriptor.waypointRover).toOption.bind fun d => (Config.ofDescriptor d).bind fun cfg =>
      (manualAtTheEnd.foldlM (next cfg World.silent d.allBusIds) (start cfg ())).map fun t =>
        (cfg.drive.isSome, t.pc, decide (t.core.drive.armed = t.core.mode.actuating))) =
      some (true, .entered, true) := by decide +kernel
  obtain ⟨d, hparse, hresult⟩ := Option.bind_eq_some_iff.mp hresult
  obtain ⟨cfg, hcfg, hresult⟩ := Option.bind_eq_some_iff.mp hresult
  obtain ⟨t, hrun, hresult⟩ := Option.map_eq_some_iff.mp hresult
  simp only [Prod.mk.injEq, decide_eq_true_eq] at hresult
  obtain ⟨hdrive, hentered, harmed⟩ := hresult
  refine ⟨d, cfg, t, toOption_eq_some.mp hparse, hcfg, run_takes_iff.mpr hrun, ?_⟩
  exact (armed_at_entry_iff cfg World.silent d.allBusIds () hdrive (run_takes_iff.mpr hrun) hentered).mp harmed

def manualDuringScan : List (BootAction Unit) :=
  List.replicate 9 (.boot 0) ++ [.message ⟨0, .heartbeat⟩, .message ⟨0, .setMode (some 1)⟩] ++ List.replicate 16 (.boot 0)

/-- The rover enters its loop in Manual with the drive disarmed. -/
theorem manual_enters_disarmed :
    ∃ d cfg t, Descriptor.parse Descriptor.waypointRover = .ok d ∧ Config.ofDescriptor d = some cfg ∧
      cfg.drive.isSome = true ∧ Run (Takes (next cfg World.silent d.allBusIds)) (start cfg ()) manualDuringScan t ∧
      t.pc = .entered ∧ t.core.mode = .manual ∧ t.core.drive.armed = false := by
  have hresult : ((Descriptor.parse Descriptor.waypointRover).toOption.bind fun d => (Config.ofDescriptor d).bind fun cfg =>
      (manualDuringScan.foldlM (next cfg World.silent d.allBusIds) (start cfg ())).map fun t =>
        (cfg.drive.isSome, t.pc, t.core.mode, t.core.drive.armed)) = some (true, .entered, .manual, false) := by
    decide +kernel
  obtain ⟨d, hparse, hresult⟩ := Option.bind_eq_some_iff.mp hresult
  obtain ⟨cfg, hcfg, hresult⟩ := Option.bind_eq_some_iff.mp hresult
  obtain ⟨t, hrun, hresult⟩ := Option.map_eq_some_iff.mp hresult
  obtain ⟨hdrive, hentered, hmode, harmed⟩ := by simpa only [Prod.mk.injEq] using hresult
  exact ⟨d, cfg, t, toOption_eq_some.mp hparse, hcfg, hdrive, run_takes_iff.mpr hrun, hentered, hmode, harmed⟩

end Boot

end Waypoint.Core
