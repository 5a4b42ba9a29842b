import Mathlib.Algebra.Order.Field.Basic
import Mathlib.Tactic.Linarith
import Waypoint.Core.Deadman
import Waypoint.Platform.DriveWheels

/-!
# Declared velocity limits

A platform-owned wheel has to declare `limits.velocity_radps`, and core keeps the limit of every joint. Nothing between the drive command and the bus reads it.
-/

namespace Waypoint.Core

open Base

namespace Descriptor

/-- A command keeps a joint's limit where it reaches one: a platform-owned wheel of the driver core runs. -/
def Obeys (d : Descriptor) (c : JointId × JointCommand) : Prop :=
  ∀ j ∈ d.joints, d.drivers.head?.map Prod.fst = some j.driver → j.type = "wheel" → j.ownership = "platform" →
    j.busId = c.1 → ∀ limit ∈ j.limits.velocityRadps, ∀ v ∈ c.2.velocityRadps, |v| ≤ limit

instance (d : Descriptor) (c : JointId × JointCommand) : Decidable (d.Obeys c) := by
  unfold Obeys
  infer_instance

def WithinLimits (d : Descriptor) (cmds : List (JointId × JointCommand)) : Prop := ∀ c ∈ cmds, d.Obeys c

instance (d : Descriptor) (cmds : List (JointId × JointCommand)) : Decidable (d.WithinLimits cmds) := by
  unfold WithinLimits
  infer_instance

/-- The wheel at the position may have this speed over ground. -/
def Allows (d : Descriptor) (k : DescriptorKinematics) (pos : String) (v : Rat) : Prop :=
  ∀ j ∈ d.jointAt pos, j.ownership = "platform" → ∀ limit ∈ j.limits.velocityRadps, |v| ≤ limit * k.wheelRadiusM

/-- No wheel is asked for more than its limit. -/
def Permits (d : Descriptor) (t : BodyVel) : Prop :=
  ∀ k ∈ d.kinematics,
    (∀ pos ∈ ["front_left", "back_left"], d.Allows k pos (t.vx - t.omegaZ * k.trackWidthM / 2)) ∧
      ∀ pos ∈ ["front_right", "back_right"], d.Allows k pos (t.vx + t.omegaZ * k.trackWidthM / 2)

section Accepted

variable {root : Toml} {d : Descriptor} {k : DescriptorKinematics} {first : String × DriverCfg} {pos : String}
  {id : JointId}

theorem obeys_iff (hparse : parse root = .ok d) (hk : d.kinematics = some k) (hfirst : d.drivers.head? = some first)
    (hpos : pos ∈ wheelPositions)
    (hid : (k.wheels.lookup pos).bind (Sts3215Driver.ofDescriptor d first.1).idForName = some id) (v : Rat) :
    d.Obeys (id, { velocityRadps := some (v / k.wheelRadiusM) }) ↔ d.Allows k pos v := by
  obtain ⟨j, hj, hat, hdriver, hbus⟩ := jointAt_of_resolved hparse hk hid
  have hwheel : j.type = "wheel" := by
    obtain ⟨j', hj', htype⟩ := wheels_of_parse hparse (by rw [hasDrive, hk]; rfl) pos hpos
    rwa [Option.some_inj.mp (hat.symm.trans hj')]
  have hradius := wheelRadius_pos_of_parse hparse hk
  have hscale (limit : Rat) : |v / k.wheelRadiusM| ≤ limit ↔ |v| ≤ limit * k.wheelRadiusM := by
    rw [abs_div, abs_of_pos hradius, div_le_iff₀ hradius]
  have hrunning : d.drivers.head?.map Prod.fst = some first.1 := by rw [hfirst, Option.map_some]
  constructor
  · intro h j' hj' howned limit hlimit
    obtain rfl : j = j' := Option.some_inj.mp (hat.symm.trans hj')
    exact (hscale limit).mp (h j hj (by rw [hrunning, hdriver]) hwheel howned hbus limit hlimit _ rfl)
  intro h j' hj' hdriver' _ howned hbus' limit hlimit u hu
  -- the id reaches only this joint: no two joints of the driver share a bus id
  have hids : (d.joints.map fun j => (j.driver, j.busId)).Nodup :=
    List.pairwise_map.mpr ((busIds_of_parse hparse).imp fun hne hsame => hne (Prod.mk.inj hsame))
  have hsame : (j'.driver, j'.busId) = (j.driver, j.busId) := by
    rw [hrunning] at hdriver'
    rw [← Option.some_inj.mp hdriver', hdriver, hbus, hbus']
  obtain rfl : j' = j := List.inj_on_of_nodup_map hids hj' hj hsame
  cases hu
  exact (hscale limit).mpr (h j' hat howned limit hlimit)

end Accepted

variable {d : Descriptor} {cfg : Config}

/-- The wheel speeds of a twist keep the limits exactly if the descriptor permits the twist. -/
theorem withinLimits_iff {root : Toml} {drive : DriveSetup}
    (hparse : parse root = .ok d) (hcfg : Config.ofDescriptor d = some cfg) (hdrive : cfg.drive = some drive)
    (t : BodyVel) :
    d.WithinLimits (drive.wheels.velocityCommands (drive.kin.bodyToWheels t)) ↔ d.Permits t := by
  obtain ⟨first, hfirst, h⟩ := Option.bind_eq_some_iff.mp hcfg
  obtain ⟨setup, hresolve, h⟩ := Option.bind_eq_some_iff.mp h
  cases h
  obtain rfl : setup = some drive := hdrive
  cases hk : d.kinematics with
  | none =>
    rw [hk] at hresolve
    cases hresolve
  | some k =>
    rw [hk] at hresolve
    obtain ⟨wheels, hwheels, hresolve⟩ := Option.bind_eq_some_iff.mp hresolve
    cases hresolve
    obtain ⟨hfl, hfr, hbl, hbr⟩ := Config.resolveWheels_eq_some hwheels
    have hobeys (pos : String) (hpos : pos ∈ wheelPositions) (id : JointId)
        (hid : (k.wheels.lookup pos).bind (Sts3215Driver.ofDescriptor d first.1).idForName = some id) (v : Rat) :=
      obeys_iff hparse hk hfirst hpos hid v
    simp only [WithinLimits, Permits, WheelJoints.velocityCommands, Kinematics.bodyToWheels, hk,
      List.forall_mem_cons, Option.mem_def, Option.some.injEq, forall_eq',
      hobeys "front_left" (by decide) _ hfl, hobeys "front_right" (by decide) _ hfr,
      hobeys "back_left" (by decide) _ hbl, hobeys "back_right" (by decide) _ hbr]
    tauto

theorem permits_of_no_drive (hcfg : Config.ofDescriptor d = some cfg)
    (hdrive : cfg.drive = none) (t : BodyVel) : d.Permits t := by
  obtain ⟨first, -, h⟩ := Option.bind_eq_some_iff.mp hcfg
  obtain ⟨setup, hresolve, h⟩ := Option.bind_eq_some_iff.mp h
  cases h
  obtain rfl : setup = none := hdrive
  intro k hk
  rw [Option.mem_def] at hk
  rw [hk] at hresolve
  obtain ⟨wheels, -, hresolve⟩ := Option.bind_eq_some_iff.mp hresolve
  cases hresolve

end Descriptor

def DriveController.tickCommands (k : Kinematics) (j : WheelJoints) (c : DriveController) :
    List (JointId × JointCommand) :=
  if c.armed then j.velocityCommands (k.bodyToWheels c.target) else []

theorem DriveController.tickWrites_eq (drv : Sts3215Driver) (k : Kinematics) (j : WheelJoints) (c : DriveController) :
    tickWrites drv k j c = (tickCommands k j c).flatMap drv.commandFrames := by
  unfold tickWrites tickCommands
  split
  · rfl
  · rfl

namespace CoreState

variable {σ μ : Type} {cfg : Config} {w : World σ μ} {drive : DriveSetup}

/-- The commands of the tick in an iteration of the loop at `now`: from the state that the watchdog checks leave, and none where the tick is not due. -/
def loopCommands (cfg : Config) (w : World σ μ) (now : TimePoint) (s : CoreState σ) : List (JointId × JointCommand) :=
  let s := checkDrive cfg now (checkHeartbeat cfg w now s)
  match cfg.drive with
  | none => []
  | some d => if now < s.next50 then [] else s.drive.tickCommands d.kin d.wheels

theorem loopCommands_eq (hdrive : cfg.drive = some drive) (now : TimePoint) (s : CoreState σ) :
    loopCommands cfg w now s =
      if now < (checkDrive cfg now (checkHeartbeat cfg w now s)).next50 then []
      else (checkDrive cfg now (checkHeartbeat cfg w now s)).drive.tickCommands drive.kin drive.wheels := by
  rw [loopCommands, hdrive]

/-- They are what the control part of the iteration writes on the bus, after its reads. -/
theorem log_control_loopCommands (hdrive : cfg.drive = some drive) (motion : μ) (now : TimePoint) (s : CoreState σ) :
    ∃ reads : List Frame, (∀ f ∈ reads, f.Reads) ∧
      (control cfg w motion now (checkDrive cfg now (checkHeartbeat cfg w now s))).bus.log =
        (checkDrive cfg now (checkHeartbeat cfg w now s)).bus.log ++
          (reads ++ (loopCommands cfg w now s).flatMap cfg.jointDrv.commandFrames) := by
  rw [log_control hdrive, loopCommands_eq hdrive]
  set checked := checkDrive cfg now (checkHeartbeat cfg w now s)
  by_cases hearly : now < checked.next50
  · exact ⟨[], by simp, by simp [hearly]⟩
  refine ⟨drive.wheels.toList.flatMap (DriveController.wheelRead cfg.jointDrv), fun f hf => ?_, ?_⟩
  · obtain ⟨id, -, hid⟩ := List.mem_flatMap.mp hf
    exact reads_wheelRead hid
  · rw [if_neg hearly, if_neg hearly, DriveController.tickWrites_eq]

theorem loopCommands_cases (hdrive : cfg.drive = some drive) (wire : σ) (auxRot : AuxRotation) (start : TimePoint)
    (es : List (Stamped μ)) (now : TimePoint) :
    loopCommands cfg w now (run cfg w (entry wire auxRot start) es) = [] ∨
      ∃ t, loopCommands cfg w now (run cfg w (entry wire auxRot start) es) =
          drive.wheels.velocityCommands (drive.kin.bodyToWheels t) ∧
        (t = {} ∨ ∃ e ∈ es, e.event = .cmdDrive (some t)) := by
  set s := run cfg w (entry wire auxRot start) es with hs
  rw [loopCommands_eq hdrive]
  set checked := checkDrive cfg now (checkHeartbeat cfg w now s) with hchecked
  by_cases hearly : now < checked.next50
  · exact .inl (if_pos hearly)
  rw [if_neg hearly, DriveController.tickCommands]
  by_cases harmed : checked.drive.armed = true
  · rw [if_pos harmed]
    refine .inr ⟨checked.drive.target, rfl, ?_⟩
    by_cases htarget : checked.drive.target = {}
    · exact .inl htarget
    right
    obtain ⟨hbeat, hsafety⟩ := quiet_of_checked hdrive htarget
    -- with both watchdogs quiet the target is the one of the run
    have hsame : checked = s := by
      rw [hchecked, checkHeartbeat_of_quiet hbeat, checkDrive_of_quiet hsafety]
    rw [hsame] at htarget ⊢
    obtain ⟨-, hrecorded⟩ := linked_of_run (w := w) hdrive wire auxRot start es
    rw [← hs] at hrecorded
    obtain ⟨pre, post, hes, -⟩ := hrecorded.commanded htarget
    exact ⟨_, hes ▸ List.mem_append_right _ List.mem_cons_self, rfl⟩
  · exact .inl (if_neg harmed)

theorem next50_commit (m : ModeMachine) (change : Option Change) (s : CoreState σ) :
    (commit cfg w m change s).next50 = s.next50 := by
  have harm (on : Bool) (s : CoreState σ) : (armDrive cfg w on s).next50 = s.next50 := by
    unfold armDrive
    split
    · rfl
    · rfl
  have hclear (s : CoreState σ) : (clearTarget cfg s).next50 = s.next50 := by
    unfold clearTarget
    split
    · rfl
    · rfl
  cases change with
  | none => rfl
  | some c =>
    have hboth := (harm c.now.actuating (clearTarget cfg { s with machine := m })).trans (hclear _)
    simp only [commit, onChange]
    split
    · exact hboth
    · exact hboth

theorem loopCommands_of_quiet (hdrive : cfg.drive = some drive) {s : CoreState σ} {now : TimePoint}
    (hbeat : (s.wd.tickAndCheck now).1 = false) (hsafety : (s.driveSafety.tickAndCheck now).1 = false)
    (hdue : ¬ now < s.next50) (harmed : s.drive.armed = true) :
    loopCommands cfg w now s = drive.wheels.velocityCommands (drive.kin.bodyToWheels s.drive.target) := by
  rw [loopCommands_eq hdrive, checkHeartbeat_of_quiet hbeat, checkDrive_of_quiet hsafety, if_neg hdue,
    DriveController.tickCommands, if_pos harmed]

def firstEvents (start : TimePoint) (command : Option BodyVel) : List (Stamped μ) :=
  [⟨start, .heartbeat⟩, ⟨start, .setMode (some 1)⟩, ⟨start, .cmdDrive command⟩]

theorem supervisor_first (hdrive : cfg.drive = some drive) (w : World σ μ) (wire : σ) (auxRot : AuxRotation)
    (start : TimePoint) (command : Option BodyVel) :
    (run cfg w (entry wire auxRot start) (firstEvents start command)).supervisor =
      { machine := ⟨.manual, true⟩
        wd := ⟨kHeartbeatTimeout, start, true⟩
        driveSafety := ⟨kDriveCmdTimeout, if command.isSome then start else 0, command.isSome⟩
        target := command.getD {}
        armed := true } := by
  rw [supervisor_run, hdrive]
  cases command with
  | none => rfl
  | some t => rfl

theorem next50_first (w : World σ μ) (wire : σ) (auxRot : AuxRotation) (start : TimePoint) (command : Option BodyVel) :
    (run cfg w (entry wire auxRot start) (firstEvents start command)).next50 = start := by
  have hmode : (onSetMode cfg w (some 1) (onHeartbeat start (entry wire auxRot start))).next50 = start :=
    next50_commit _ _ _
  change (onCmdDrive cfg command start
    (onSetMode cfg w (some 1) (onHeartbeat start (entry wire auxRot start)))).next50 = start
  unfold onCmdDrive
  split
  · exact hmode
  · cases command with
    | none => exact hmode
    | some t => exact hmode

theorem loopCommands_first (hdrive : cfg.drive = some drive) (w : World σ μ) (wire : σ) (auxRot : AuxRotation)
    (start : TimePoint) (command : Option BodyVel) :
    loopCommands cfg w start (run cfg w (entry wire auxRot start) (firstEvents start command)) =
      drive.wheels.velocityCommands (drive.kin.bodyToWheels (command.getD {})) := by
  have hstate := supervisor_first hdrive w wire auxRot start command
  have hnext : (run cfg w (entry wire auxRot start) (firstEvents start command)).next50 = start :=
    next50_first w wire auxRot start command
  set s := run cfg w (entry wire auxRot start) (firstEvents start command)
  have hbeat : (s.wd.tickAndCheck start).1 = false := by
    rw [show s.wd = ⟨kHeartbeatTimeout, start, true⟩ from congrArg Supervisor.wd hstate]
    exact Watchdog.quiet_of_kicked (by decide : 0 ≤ kHeartbeatTimeout) fun _ => rfl
  have hsafety : (s.driveSafety.tickAndCheck start).1 = false := by
    rw [← supervisor_driveSafety, hstate]
    exact Watchdog.quiet_of_kicked (by decide : 0 ≤ kDriveCmdTimeout) fun h => if_pos h
  have hdue : ¬ start < s.next50 := by
    rw [hnext]
    exact lt_irrefl start
  have harmed : s.drive.armed = true := congrArg Supervisor.armed hstate
  rw [loopCommands_of_quiet hdrive hbeat hsafety hdue harmed]
  have htarget : s.drive.target = command.getD {} := congrArg Supervisor.target hstate
  rw [htarget]

/-- The limits hold in every run whose drive commands come from `twists` exactly if the platform permits each of those twists and standing still: nothing on the way to the wheels enforces them. -/
theorem limits_enforced_iff {root : Toml} {d : Descriptor} {cfg : Config} (hparse : Descriptor.parse root = .ok d)
    (hcfg : Config.ofDescriptor d = some cfg) (w : World σ μ) (wire : σ) (auxRot : AuxRotation) (start : TimePoint)
    (twists : Set BodyVel) :
    (∀ es : List (Stamped μ), (∀ e ∈ es, ∀ t, e.event = .cmdDrive (some t) → t ∈ twists) →
        ∀ now, d.WithinLimits (loopCommands cfg w now (run cfg w (entry wire auxRot start) es))) ↔
      d.Permits {} ∧ ∀ t ∈ twists, d.Permits t := by
  cases hdrive : cfg.drive with
  | none =>
    have hpermits := Descriptor.permits_of_no_drive hcfg hdrive
    constructor
    · intro _
      exact ⟨hpermits {}, fun t _ => hpermits t⟩
    · intro _ es _ now c hc
      rw [loopCommands, hdrive] at hc
      cases hc
  | some drive =>
    have hpermits := Descriptor.withinLimits_iff hparse hcfg hdrive
    constructor
    · intro h
      have hfirst (command : Option BodyVel) (hcommand : ∀ t ∈ command, t ∈ twists) :
          d.Permits (command.getD {}) := by
        rw [← hpermits, ← loopCommands_first hdrive w wire auxRot start command]
        refine h _ (fun e he t ht => hcommand t ?_) start
        simp only [firstEvents, List.mem_cons, List.not_mem_nil, or_false] at he
        rcases he with rfl | rfl | rfl
        · cases ht
        · cases ht
        · cases ht
          rfl
      exact ⟨hfirst none (by simp), fun t ht => hfirst (some t) (by simpa using ht)⟩
    · rintro ⟨hzero, htwists⟩ es hes now
      rcases loopCommands_cases (w := w) hdrive wire auxRot start es now with hnone | ⟨t, hcommands, ht⟩
      · rw [hnone]
        exact fun c hc => absurd hc List.not_mem_nil
      rw [hcommands, hpermits]
      rcases ht with rfl | ⟨e, he, hevent⟩
      · exact hzero
      · exact htwists t (hes e he t hevent)

end CoreState

end Waypoint.Core

namespace Waypoint.Platform

open Waypoint.Core CoreState

theorem permits_roverCore {t : BodyVel} (hvx : |t.vx| ≤ 1 / 2) (homega : |t.omegaZ| ≤ 1) :
    (roverCore "platform").Permits t := by
  have hlimits : ∀ j ∈ (roverCore "platform").joints, j.limits.velocityRadps = some 10 := by decide
  have hallows (k : DescriptorKinematics) (hk : k ∈ (roverCore "platform").kinematics) (pos : String) (v : Rat)
      (hv : |v| ≤ 10 * k.wheelRadiusM) : (roverCore "platform").Allows k pos v := by
    intro j hj _ limit hlimit
    rw [hlimits j (Core.Descriptor.mem_of_jointAt hj)] at hlimit
    cases hlimit
    exact hv
  obtain ⟨hvx₀, hvx₁⟩ := abs_le.mp hvx
  obtain ⟨homega₀, homega₁⟩ := abs_le.mp homega
  have hleft : |t.vx - t.omegaZ * 0.30 / 2| ≤ 10 * 0.07425 := abs_le.mpr ⟨by linarith, by linarith⟩
  have hright : |t.vx + t.omegaZ * 0.30 / 2| ≤ 10 * 0.07425 := abs_le.mpr ⟨by linarith, by linarith⟩
  intro k hk
  obtain rfl := Option.some_inj.mp hk
  exact ⟨fun pos _ => hallows _ rfl pos _ hleft, fun pos _ => hallows _ rfl pos _ hright⟩

theorem limits_enforced_slow :
    ∃ cfg, Config.ofDescriptor (roverCore "platform") = some cfg ∧
      ∀ es : List (Stamped Unit),
        (∀ e ∈ es, ∀ t, e.event = .cmdDrive (some t) → |t.vx| ≤ 1 / 2 ∧ |t.omegaZ| ≤ 1) →
        ∀ now, (roverCore "platform").WithinLimits
          (loopCommands cfg World.silent now (run cfg World.silent (entry () { ids := [], maxFailures := 3 } 0) es)) := by
  have hparse : Core.Descriptor.parse (roverToml "platform") = .ok (roverCore "platform") := by decide +kernel
  have hcfg : (Config.ofDescriptor (roverCore "platform")).isSome = true := by decide +kernel
  obtain ⟨cfg, hcfg⟩ := Option.isSome_iff_exists.mp hcfg
  refine ⟨cfg, hcfg, ?_⟩
  refine (limits_enforced_iff hparse hcfg World.silent () { ids := [], maxFailures := 3 } 0
    { t | |t.vx| ≤ 1 / 2 ∧ |t.omegaZ| ≤ 1 }).mpr ⟨?_, fun t ht => permits_roverCore ht.1 ht.2⟩
  exact permits_roverCore (by decide +kernel) (by decide +kernel)

/-- One metre per second straight ahead, on a descriptor that both readers accept: every wheel is told to turn at 13.4 radians per second, its limit being 10. -/
theorem fast_twist_over_limit :
    (rover "platform").validate = .ok () ∧
      Core.Descriptor.parse (roverToml "platform") = .ok (roverCore "platform") ∧
      ∃ cfg, Config.ofDescriptor (roverCore "platform") = some cfg ∧
        ∃ es : List (Stamped Unit),
          es = [⟨0, .heartbeat⟩, ⟨0, .setMode (some 1)⟩, ⟨milliseconds 1, .cmdDrive (some { vx := 1 })⟩] ∧
          loopCommands cfg World.silent (milliseconds 2)
              (run cfg World.silent (entry () { ids := [], maxFailures := 3 } 0) es) =
            [10, 9, 7, 8].map (fun id => (id, { velocityRadps := some (1 / 0.07425) })) ∧
          ¬ (roverCore "platform").WithinLimits (loopCommands cfg World.silent (milliseconds 2)
              (run cfg World.silent (entry () { ids := [], maxFailures := 3 } 0) es)) := by
  have hcfg : (Config.ofDescriptor (roverCore "platform")).isSome = true := by decide +kernel
  have hcommands : (Config.ofDescriptor (roverCore "platform")).map (fun cfg =>
      loopCommands cfg World.silent (milliseconds 2) (run cfg World.silent (entry () { ids := [], maxFailures := 3 } 0)
        [⟨0, .heartbeat⟩, ⟨0, .setMode (some 1)⟩, ⟨milliseconds 1, .cmdDrive (some { vx := 1 })⟩])) =
      some ([10, 9, 7, 8].map fun id => (id, { velocityRadps := some (1 / 0.07425) })) := by decide +kernel
  obtain ⟨cfg, hcfg⟩ := Option.isSome_iff_exists.mp hcfg
  rw [hcfg, Option.map_some, Option.some_inj] at hcommands
  refine ⟨by decide +kernel, by decide +kernel, cfg, hcfg, _, rfl, hcommands, ?_⟩
  rw [hcommands]
  decide +kernel

end Waypoint.Platform
