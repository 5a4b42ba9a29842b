import Mathlib.Data.Rat.Defs
import Mathlib.Data.UInt
import Waypoint.Base.Except

/-!
# The platform descriptor as the agent reads it

The validator of the shared descriptor package, on the decoded document. Joints are checked in order, each against the ones before it; the wheel map is checked against all joints.
-/

namespace Waypoint.Platform

open Base

structure PlatformInfo where
  id : String
  name : String := ""
  vehicleClass : String
  deriving DecidableEq

structure Driver where
  kind : String
  port : String := ""
  baud : Int := 0
  deriving DecidableEq

structure Limits where
  velocityRadps : Option Rat := none
  positionMinRad : Option Rat := none
  positionMaxRad : Option Rat := none
  deriving DecidableEq

structure Joint where
  name : String
  driver : String
  busID : UInt32
  type : String
  ownership : String
  invert : Bool := false
  commandInterfaces : List String := []
  stateInterfaces : List String := []
  limits : Option Limits := none
  deriving DecidableEq

structure Kinematics where
  model : String
  wheelRadiusM : Rat
  trackWidthM : Rat
  wheels : List (String × String)
  deriving DecidableEq

structure Sensor where
  name : String
  kind : String
  deriving DecidableEq

structure Descriptor where
  schema : Int
  platform : PlatformInfo
  drivers : List (String × Driver) := []
  joints : List Joint := []
  kinematics : Option Kinematics := none
  sensors : List Sensor := []
  deriving DecidableEq

def supportedSchema : Int := 1

def vehicleClasses : List String := ["diff_drive_rover", "fixed_base"]

def driverKinds : List String := ["sts3215", "sim"]

def jointTypes : List String := ["wheel", "revolute", "gripper"]

def ownerships : List String := ["platform", "module"]

def cmdInterfaces : List String := ["position", "velocity", "effort"]

def stateInterfaces : List String := ["position", "velocity", "load", "current", "voltage", "temperature"]

def sensorKinds : List String := ["imu", "gps", "camera"]

def wheelPositions : List String := ["front_left", "front_right", "back_left", "back_right"]

def checkDriver (entry : String × Driver) : Except String Unit := do
  require (entry.2.kind ∈ driverKinds)
    ("descriptor: driver " ++ entry.1.quote ++ " kind " ++ entry.2.kind.quote ++ " is not a known kind")
  require (¬(entry.2.kind = "sts3215" ∧ entry.2.port = ""))
    ("descriptor: driver " ++ entry.1.quote ++ " (sts3215) requires port")

def checkLimits (j : Joint) : Except String Unit :=
  let limits := j.limits.getD {}
  if j.ownership = "platform" then
    if j.type = "wheel" then
      require (limits.velocityRadps.isSome = true)
        ("descriptor: platform-owned wheel joint " ++ j.name.quote ++ " requires limits.velocity_radps")
    else
      require (limits.positionMinRad.isSome = true ∧ limits.positionMaxRad.isSome = true)
        ("descriptor: platform-owned joint " ++ j.name.quote ++
          " requires limits.position_min_rad and position_max_rad")
  else .ok ()

def checkJoint (drivers : List (String × Driver)) (seen : List Joint) (j : Joint) : Except String (List Joint) := do
  require (j.name ≠ "") "descriptor: joint with empty name"
  require (j.name ∉ seen.map (·.name)) ("descriptor: duplicate joint name " ++ j.name.quote)
  require ((drivers.lookup j.driver).isSome = true)
    ("descriptor: joint " ++ j.name.quote ++ " references undefined driver " ++ j.driver.quote)
  require ((j.driver, j.busID) ∉ seen.map fun k => (k.driver, k.busID))
    ("descriptor: duplicate bus_id " ++ toString j.busID.toNat ++ " on driver " ++ j.driver.quote)
  require (j.type ∈ jointTypes) ("descriptor: joint " ++ j.name.quote ++ " has unknown joint type " ++ j.type.quote)
  require (j.ownership ∈ ownerships)
    ("descriptor: joint " ++ j.name.quote ++ " has unknown ownership " ++ j.ownership.quote)
  checkAll (fun c => decide (c ∈ cmdInterfaces))
    (fun c => "descriptor: joint " ++ j.name.quote ++ " command_interfaces has unknown value " ++ c.quote)
    j.commandInterfaces
  checkAll (fun s => decide (s ∈ stateInterfaces))
    (fun s => "descriptor: joint " ++ j.name.quote ++ " state_interfaces has unknown value " ++ s.quote)
    j.stateInterfaces
  checkLimits j
  return seen ++ [j]

namespace Descriptor

def validateJoints (d : Descriptor) : Except String Unit := do
  let _ ← d.joints.foldlM (checkJoint d.drivers) []

def byName (d : Descriptor) (name : String) : Option Joint := d.joints.reverse.find? fun j => j.name = name

def checkWheel (d : Descriptor) (k : Kinematics) (pos : String) : Except String Unit :=
  match k.wheels.lookup pos with
  | none => .error ("descriptor: kinematics.wheels missing position " ++ pos.quote)
  | some name =>
    match d.byName name with
    | none => .error ("descriptor: kinematics.wheels " ++ pos ++ " references unknown joint " ++ name.quote)
    | some j =>
      require (j.type = "wheel")
        ("descriptor: kinematics.wheels " ++ pos ++ " references non-wheel joint " ++ name.quote)

def validateKinematics (d : Descriptor) : Except String Unit :=
  if d.platform.vehicleClass = "fixed_base" then
    require (d.kinematics.isNone = true) "descriptor: vehicle_class fixed_base must not declare [kinematics]"
  else if d.platform.vehicleClass ≠ "diff_drive_rover" then .ok ()
  else
    match d.kinematics with
    | none => .error "descriptor: vehicle_class diff_drive_rover requires [kinematics]"
    | some k => do
        require (k.model = "diff_drive")
          ("descriptor: kinematics.model " ++ k.model.quote ++ " does not match vehicle_class diff_drive_rover")
        require (¬(k.wheelRadiusM ≤ 0 ∨ k.trackWidthM ≤ 0))
          "descriptor: kinematics wheel_radius_m and track_width_m must be positive"
        wheelPositions.forM (d.checkWheel k)
        checkAll (fun w => decide (w.1 ∈ wheelPositions))
          (fun w => "descriptor: kinematics.wheels has unknown position " ++ w.1.quote) k.wheels

def validate (d : Descriptor) : Except String Unit := do
  require (d.schema = supportedSchema)
    ("descriptor: unsupported schema " ++ toString d.schema ++ " (supported: " ++ toString supportedSchema ++ ")")
  require (d.platform.id ≠ "") "descriptor: platform.id is required"
  require (d.platform.vehicleClass ∈ vehicleClasses)
    ("descriptor: vehicle_class " ++ d.platform.vehicleClass.quote ++ " is not a known class")
  d.drivers.forM checkDriver
  d.validateJoints
  d.validateKinematics
  checkAll (fun s => decide (s.kind ∈ sensorKinds))
    (fun s => "descriptor: sensor " ++ s.name.quote ++ " kind " ++ s.kind.quote ++ " is not a known kind") d.sensors

def platformOwnedBusIDs (d : Descriptor) : List UInt32 :=
  (d.joints.filter fun j => j.ownership = "platform").map (·.busID)

def jointAt (d : Descriptor) (pos : String) : Option Joint :=
  (d.kinematics.bind fun k => k.wheels.lookup pos).bind d.byName

/-- Joints differ in their names, and on one driver in their bus ids; the wheel map names a wheel for every position. -/
structure Accepted (d : Descriptor) : Prop where
  names : d.joints.Pairwise fun j k => j.name ≠ k.name
  busIDs : d.joints.Pairwise fun j k => (j.driver, j.busID) ≠ (k.driver, k.busID)
  wheels : d.kinematics.isSome = true → ∀ pos ∈ wheelPositions, ∃ j, d.jointAt pos = some j ∧ j.type = "wheel"

theorem checkJoint_eq_ok {drivers : List (String × Driver)} {seen out : List Joint} {j : Joint}
    (h : checkJoint drivers seen j = .ok out) :
    out = seen ++ [j] ∧ j.name ∉ seen.map (·.name) ∧ (j.driver, j.busID) ∉ seen.map fun k => (k.driver, k.busID) := by
  simp only [checkJoint, bind_eq_ok, require_eq_ok] at h
  obtain ⟨-, -, -, hname, -, -, -, hbusID, -, -, -, -, -, -, -, -, -, -, hout⟩ := h
  cases hout
  exact ⟨rfl, hname, hbusID⟩

variable {d : Descriptor}

theorem pairwise_of_validateJoints (h : d.validateJoints = .ok ()) :
    d.joints.Pairwise fun j k => j.name ≠ k.name ∧ (j.driver, j.busID) ≠ (k.driver, k.busID) := by
  obtain ⟨out, hfold, -⟩ := bind_eq_ok.mp h
  have hjoints : out = [] ++ d.joints := foldlM_collect (fun _ _ _ hcheck => (checkJoint_eq_ok hcheck).1) hfold
  rw [List.nil_append] at hjoints
  rw [← hjoints]
  refine foldlM_invariant _ (fun seen j out hseen hcheck => ?_) d.joints List.Pairwise.nil hfold
  obtain ⟨rfl, hname, hbusID⟩ := checkJoint_eq_ok hcheck
  refine List.pairwise_append.mpr ⟨hseen, List.pairwise_singleton _ _, fun k hk j' hj' => ?_⟩
  rw [List.mem_singleton.mp hj']
  exact ⟨fun heq => hname (heq ▸ List.mem_map_of_mem hk),
    fun heq => hbusID (heq ▸ List.mem_map_of_mem (f := fun k => (k.driver, k.busID)) hk)⟩

theorem jointAt_of_checkWheel {k : Kinematics} (hk : d.kinematics = some k) {pos : String}
    (h : d.checkWheel k pos = .ok ()) : ∃ j, d.jointAt pos = some j ∧ j.type = "wheel" := by
  unfold checkWheel at h
  split at h
  · cases h
  rename_i name hname
  split at h
  · cases h
  rename_i j hj
  refine ⟨j, ?_, require_eq_ok.mp h⟩
  rw [jointAt, hk]
  change (k.wheels.lookup pos).bind d.byName = some j
  rw [hname]
  exact hj

theorem wheels_of_validateKinematics (h : d.validateKinematics = .ok ()) (hdrive : d.kinematics.isSome = true)
    (hclass : d.platform.vehicleClass ∈ vehicleClasses) :
    ∀ pos ∈ wheelPositions, ∃ j, d.jointAt pos = some j ∧ j.type = "wheel" := by
  obtain ⟨k, hk⟩ := Option.isSome_iff_exists.mp hdrive
  unfold validateKinematics at h
  split at h
  · rw [require_eq_ok, hk] at h
    cases h
  split at h
  · rename_i hfixed hother
    simp only [vehicleClasses, List.mem_cons, List.not_mem_nil, or_false] at hclass
    rcases hclass with hclass | hclass
    · exact absurd hclass hother
    · exact absurd hclass hfixed
  · rw [hk] at h
    simp only [bind_eq_ok] at h
    obtain ⟨-, -, -, -, _, hwheels, -⟩ := h
    exact fun pos hpos => jointAt_of_checkWheel hk (forM_eq_ok.mp hwheels pos hpos)

theorem accepted_of_validate (h : d.validate = .ok ()) : d.Accepted := by
  simp only [validate, bind_eq_ok, require_eq_ok] at h
  obtain ⟨-, -, -, -, -, hclass, -, -, _, hjoints, _, hkinematics, -⟩ := h
  have hpairwise := pairwise_of_validateJoints hjoints
  exact
    { names := hpairwise.imp And.left, busIDs := hpairwise.imp And.right
      wheels := fun hdrive => wheels_of_validateKinematics hkinematics hdrive hclass }

end Descriptor

end Waypoint.Platform
