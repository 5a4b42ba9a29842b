import Mathlib.Data.Rat.Defs
import Waypoint.Base.Except
import Waypoint.Core.Servo.Frame

/-!
# The platform descriptor as core reads it

`platform/Descriptor.cpp` from the decoded TOML document on.
-/

namespace Waypoint.Core

open Base

inductive Toml
  | string (s : String)
  | integer (i : Int)
  | float (q : Rat)
  | boolean (b : Bool)
  | dateTime
  | array (items : List Toml)
  | table (entries : List (String × Toml))

namespace Toml

def asTable : Toml → Option (List (String × Toml))
  | .table entries => some entries
  | _ => none

def asArray : Toml → Option (List Toml)
  | .array items => some items
  | _ => none

def get (t : Toml) (key : String) : Option Toml := t.asTable.bind fun entries => entries.lookup key

def stringValue : Toml → Option String
  | .string s => some s
  | _ => none

def intValue : Toml → Option Int
  | .integer i => some i
  | .float q => if q.den = 1 then some q.num else none
  | .boolean b => some (if b then 1 else 0)
  | _ => none

/-- An integer converts to a double only where doubles still hold every whole number. -/
def doubleValue : Toml → Option Rat
  | .integer i => if -2 ^ 53 ≤ i ∧ i ≤ 2 ^ 53 then some i else none
  | .float q => some q
  | _ => none

def boolValue : Toml → Option Bool
  | .boolean b => some b
  | .integer i => some (i != 0)
  | _ => none

end Toml

structure Limits where
  velocityRadps : Option Rat := none
  positionMinRad : Option Rat := none
  positionMaxRad : Option Rat := none
  deriving DecidableEq

structure Joint where
  name : String
  driver : String
  busId : JointId
  type : String
  ownership : String
  invert : Bool := false
  commandInterfaces : List String := []
  limits : Limits := {}
  deriving DecidableEq

structure DriverCfg where
  kind : String
  port : String
  baud : Int := 1000000
  deriving DecidableEq

structure DescriptorKinematics where
  model : String
  wheelRadiusM : Rat
  trackWidthM : Rat
  wheels : List (String × String)
  deriving DecidableEq

structure Descriptor where
  schema : Int
  platformId : String
  platformName : String
  vehicleClass : String
  drivers : List (String × DriverCfg)
  joints : List Joint
  kinematics : Option DescriptorKinematics
  deriving DecidableEq

namespace Descriptor

def hasDrive (d : Descriptor) : Bool := d.kinematics.isSome

def jointByName (joints : List Joint) (name : String) : Option Joint := joints.find? fun j => j.name = name

def platformOwnedBusIds (d : Descriptor) : List JointId :=
  (d.joints.filter fun j => j.ownership = "platform").map Joint.busId

/-- Module-owned continuous-rotation servos, the set an estop zeroes. -/
def moduleWheelBusIds (d : Descriptor) : List JointId :=
  (d.joints.filter fun j => j.ownership = "module" ∧ j.type = "wheel").map Joint.busId

def allBusIds (d : Descriptor) : List JointId := d.joints.map Joint.busId

def fail {α : Type} (msg : String) : Except String α := .error ("descriptor: " ++ msg)

def toInt32 (i : Int) : Int := (i + 2 ^ 31) % 2 ^ 32 - 2 ^ 31

def stringAt (t : Toml) (key : String) : Option String := (t.get key).bind Toml.stringValue

def parseJoint (t : Toml) : Except String Joint :=
  match stringAt t "name", stringAt t "driver", (t.get "bus_id").bind Toml.intValue, stringAt t "type",
      stringAt t "ownership" with
  | some name, some driver, some busId, some type, some ownership =>
    if busId < 1 ∨ busId > 253 then fail ("joint " ++ name ++ " bus_id out of range")
    else .ok {
      name := name
      driver := driver
      busId := UInt8.ofNat busId.toNat
      type := type
      ownership := ownership
      invert := ((t.get "invert").bind Toml.boolValue).getD false
      commandInterfaces := (((t.get "command_interfaces").bind Toml.asArray).getD []).filterMap Toml.stringValue
      limits :=
        match t.get "limits" with
        | some (.table entries) =>
          let lim := Toml.table entries
          { velocityRadps := (lim.get "velocity_radps").bind Toml.doubleValue
            positionMinRad := (lim.get "position_min_rad").bind Toml.doubleValue
            positionMaxRad := (lim.get "position_max_rad").bind Toml.doubleValue }
        | _ => {} }
  | _, _, _, _, _ => fail "joint missing required field (name/driver/bus_id/type/ownership)"

def parseDriver (acc : List (String × DriverCfg)) (entry : String × Toml) :
    Except String (List (String × DriverCfg)) :=
  match entry.2.asTable with
  | none => .ok acc
  | some _ =>
    let cfg : DriverCfg := {
      kind := (stringAt entry.2 "kind").getD ""
      port := (stringAt entry.2 "port").getD ""
      baud := toInt32 (((entry.2.get "baud").bind Toml.intValue).getD 1000000) }
    if cfg.kind ≠ "sts3215" ∧ cfg.kind ≠ "sim" then
      fail ("driver " ++ entry.1 ++ " has unknown kind \"" ++ cfg.kind ++ "\"")
    else if cfg.kind = "sts3215" ∧ cfg.port = "" then
      fail ("driver " ++ entry.1 ++ " (sts3215) requires port")
    else .ok (acc ++ [(entry.1, cfg)])

def addJoint (drivers : List (String × DriverCfg)) (acc : List Joint) (el : Toml) : Except String (List Joint) :=
  match el.asTable with
  | none => fail "joints entries must be tables"
  | some _ => do
      let j ← parseJoint el
      if acc.any fun k => k.name = j.name then
        fail ("duplicate joint name \"" ++ j.name ++ "\"")
      else if (drivers.lookup j.driver).isNone then
        fail ("joint \"" ++ j.name ++ "\" references undefined driver \"" ++ j.driver ++ "\"")
      else if acc.any fun k => k.driver = j.driver ∧ k.busId = j.busId then
        fail ("duplicate bus_id " ++ toString j.busId.toNat ++ " on driver \"" ++ j.driver ++ "\"")
      else .ok (acc ++ [j])

def parseWheel (acc : List (String × String)) (entry : String × Toml) : Except String (List (String × String)) :=
  match entry.2.stringValue with
  | none => fail "kinematics.wheels values must be strings"
  | some jointName => .ok (acc ++ [(entry.1, jointName)])

def wheelPositions : List String := ["front_left", "front_right", "back_left", "back_right"]

def checkWheel (wheels : List (String × String)) (joints : List Joint) (pos : String) : Except String Unit :=
  match wheels.lookup pos with
  | none => fail ("kinematics.wheels missing position \"" ++ pos ++ "\"")
  | some name =>
    match jointByName joints name with
    | none => fail ("kinematics.wheels " ++ pos ++ " must reference a declared wheel joint")
    | some j =>
      if j.type ≠ "wheel" then fail ("kinematics.wheels " ++ pos ++ " must reference a declared wheel joint")
      else .ok ()

def parseKinematics (kin : Toml) (joints : List Joint) : Except String DescriptorKinematics := do
  let model := (stringAt kin "model").getD ""
  let wheelRadiusM := ((kin.get "wheel_radius_m").bind Toml.doubleValue).getD 0
  let trackWidthM := ((kin.get "track_width_m").bind Toml.doubleValue).getD 0
  if model ≠ "diff_drive" ∨ wheelRadiusM ≤ 0 ∨ trackWidthM ≤ 0 then
    fail "kinematics requires model=\"diff_drive\" and positive wheel_radius_m/track_width_m"
  else
    let wheels ← (((kin.get "wheels").bind Toml.asTable).getD []).foldlM parseWheel []
    wheelPositions.forM (checkWheel wheels joints)
    return { model := model, wheelRadiusM := wheelRadiusM, trackWidthM := trackWidthM, wheels := wheels }

def parse (root : Toml) : Except String Descriptor := do
  let schema := toInt32 (((root.get "schema").bind Toml.intValue).getD 0)
  if schema ≠ 1 then
    fail ("unsupported schema " ++ toString schema ++ " (supported: 1)")
  else
  let platform (key : String) : String := (((root.get "platform").bind fun t => stringAt t key)).getD ""
  let vehicleClass := platform "vehicle_class"
  if platform "id" = "" then
    fail "platform.id is required"
  else if vehicleClass ≠ "diff_drive_rover" ∧ vehicleClass ≠ "fixed_base" then
    fail ("unknown vehicle_class \"" ++ vehicleClass ++ "\"")
  else
  let drivers ← (((root.get "drivers").bind Toml.asTable).getD []).foldlM parseDriver []
  if drivers.isEmpty then
    fail "[drivers] is required"
  else
  let joints ← (((root.get "joints").bind Toml.asArray).getD []).foldlM (addJoint drivers) []
  if joints.isEmpty then
    fail "[[joints]] is required"
  else
  let base : Descriptor := {
    schema := schema
    platformId := platform "id"
    platformName := platform "name"
    vehicleClass := vehicleClass
    drivers := drivers
    joints := joints
    kinematics := none }
  let kin := (root.get "kinematics").filter fun t => t.asTable.isSome
  if vehicleClass = "fixed_base" then
    if kin.isSome then fail "vehicle_class fixed_base must not declare [kinematics]" else return base
  else
    match kin with
    | none => fail "[kinematics] is required for diff_drive_rover"
    | some kin => do
        let k ← parseKinematics kin joints
        return { base with kinematics := some k }

def Addressable (id : JointId) : Prop := 1 ≤ id ∧ id ≤ 253

theorem addressable_of_parseJoint {t : Toml} {j : Joint} (h : parseJoint t = .ok j) : Addressable j.busId := by
  unfold parseJoint fail at h
  split at h
  · rename_i busId _ _ _ _ _ _ _
    rw [ite_error_eq_ok] at h
    obtain ⟨hrange, h⟩ := h
    cases h
    have hlt : busId.toNat < 256 := by omega
    refine ⟨?_, ?_⟩
    · rw [UInt8.le_iff_toNat_le, UInt8.toNat_ofNat_of_lt' hlt]
      change 1 ≤ busId.toNat
      omega
    · rw [UInt8.le_iff_toNat_le, UInt8.toNat_ofNat_of_lt' hlt]
      change busId.toNat ≤ 253
      omega
  · cases h

theorem addressable_of_addJoint {drivers : List (String × DriverCfg)} {acc out : List Joint} {el : Toml}
    (hacc : ∀ j ∈ acc, Addressable j.busId) (h : addJoint drivers acc el = .ok out) :
    ∀ j ∈ out, Addressable j.busId := by
  unfold addJoint fail at h
  split at h
  · cases h
  simp only [bind_eq_ok, ite_error_eq_ok] at h
  obtain ⟨j, hj, -, -, -, hout⟩ := h
  cases hout
  intro k hk
  rcases List.mem_append.mp hk with hk | hk
  · exact hacc k hk
  · rw [List.mem_singleton.mp hk]
    exact addressable_of_parseJoint hj

variable {root : Toml} {d : Descriptor}

theorem parse_cases (h : parse root = .ok d) :
    (∃ drivers items, List.foldlM (addJoint drivers) [] items = .ok d.joints) ∧
      (d.kinematics = none ∨ ∃ kin k, d.kinematics = some k ∧ parseKinematics kin d.joints = .ok k) := by
  simp only [parse, fail, ite_error_eq_ok, bind_eq_ok] at h
  obtain ⟨-, -, -, drivers, -, -, joints, hfold, -, h⟩ := h
  split at h
  · rw [ite_error_eq_ok] at h
    cases h.2
    exact ⟨⟨drivers, _, hfold⟩, .inl rfl⟩
  split at h
  · cases h
  · obtain ⟨k, hk, h⟩ := bind_eq_ok.mp h
    cases h
    exact ⟨⟨drivers, _, hfold⟩, .inr ⟨_, k, rfl, hk⟩⟩

theorem addressable_of_parse (h : parse root = .ok d) :
    ∀ j ∈ d.joints, Addressable j.busId := by
  obtain ⟨⟨drivers, items, hfold⟩, -⟩ := parse_cases h
  exact foldlM_invariant (fun joints => ∀ j ∈ joints, Addressable j.busId)
    (fun _ _ _ hacc hadd => addressable_of_addJoint hacc hadd) items (by simp) hfold

def jointAt (d : Descriptor) (pos : String) : Option Joint :=
  (d.kinematics.bind fun k => k.wheels.lookup pos).bind (jointByName d.joints)

section

variable (h : parse root = .ok d)

include h

theorem distinct_of_parse :
    d.joints.Pairwise fun j k => j.name ≠ k.name ∧ ¬(j.driver = k.driver ∧ j.busId = k.busId) := by
  obtain ⟨⟨drivers, items, hfold⟩, -⟩ := parse_cases h
  refine foldlM_invariant _ (fun acc el out hacc hadd => ?_) items List.Pairwise.nil hfold
  unfold addJoint fail at hadd
  split at hadd
  · cases hadd
  simp only [bind_eq_ok, ite_error_eq_ok] at hadd
  obtain ⟨j, -, hname, -, hfree, hout⟩ := hadd
  cases hout
  refine List.pairwise_append.mpr ⟨hacc, List.pairwise_singleton _ _, fun k hk j' hj' => ?_⟩
  rw [List.mem_singleton.mp hj']
  constructor
  · intro hsame
    exact hname (List.any_eq_true.mpr ⟨k, hk, by simpa using hsame⟩)
  · intro hsame
    exact hfree (List.any_eq_true.mpr ⟨k, hk, by simpa using hsame⟩)

theorem names_of_parse :
    d.joints.Pairwise fun j k => j.name ≠ k.name :=
  (distinct_of_parse h).imp And.left

theorem busIds_of_parse :
    d.joints.Pairwise fun j k => ¬(j.driver = k.driver ∧ j.busId = k.busId) :=
  (distinct_of_parse h).imp And.right

theorem wheelRadius_pos_of_parse {k : DescriptorKinematics}
    (hk : d.kinematics = some k) : 0 < k.wheelRadiusM := by
  obtain ⟨-, hnone | ⟨kin, k', hk', hparse⟩⟩ := parse_cases h
  · rw [hnone] at hk
    cases hk
  obtain rfl : k' = k := Option.some_inj.mp (hk'.symm.trans hk)
  simp only [parseKinematics, fail, ite_error_eq_ok, bind_eq_ok] at hparse
  obtain ⟨hpositive, wheels, -, _, -, hout⟩ := hparse
  cases hout
  exact Rat.not_le.mp fun hle => hpositive (.inr (.inl hle))

theorem wheels_of_parse (hdrive : d.hasDrive = true) :
    ∀ pos ∈ wheelPositions, ∃ j, d.jointAt pos = some j ∧ j.type = "wheel" := by
  obtain ⟨-, hnone | ⟨kin, k, hk, hparse⟩⟩ := parse_cases h
  · rw [hasDrive, hnone] at hdrive
    cases hdrive
  intro pos hpos
  simp only [parseKinematics, fail, ite_error_eq_ok, bind_eq_ok] at hparse
  obtain ⟨-, wheels, -, _, hwheels, hout⟩ := hparse
  have hcheck := forM_eq_ok.mp hwheels pos hpos
  cases hout
  unfold checkWheel fail at hcheck
  split at hcheck
  · cases hcheck
  rename_i name hname
  split at hcheck
  · cases hcheck
  rename_i j hj
  rw [ite_error_eq_ok] at hcheck
  refine ⟨j, ?_, by simpa using hcheck.1⟩
  rw [jointAt, hk]
  change (wheels.lookup pos).bind (jointByName d.joints) = some j
  rw [hname]
  exact hj

end

def driversMain : String × Toml :=
  ("drivers", .table [("main", .table [("baud", .integer 1000000), ("kind", .string "sts3215"),
    ("port", .string "/dev/ttyAMA0")])])

def positionJoint (name : String) (busId : Int) (type : String) : Toml :=
  .table [("bus_id", .integer busId), ("command_interfaces", .array [.string "position"]), ("driver", .string "main"),
    ("name", .string name), ("ownership", .string "module"), ("type", .string type)]

def wheelJoint (name : String) (busId : Int) (ownership : String) (more : List (String × Toml)) : Toml :=
  .table ([("bus_id", .integer busId), ("command_interfaces", .array [.string "velocity"]), ("driver", .string "main"),
    ("name", .string name), ("ownership", .string ownership), ("type", .string "wheel")] ++ more)

def armJoints (sixth : String) : List Toml :=
  [positionJoint "arm_1" 1 "revolute", positionJoint "arm_2" 2 "revolute", positionJoint "arm_3" 3 "revolute",
    positionJoint "arm_4" 4 "revolute", positionJoint "arm_5" 5 "revolute", positionJoint sixth 6 "gripper"]

def driveLimits : String × Toml := ("limits", .table [("velocity_radps", .float 10)])

def waypointRover : Toml :=
  .table [
    driversMain,
    ("joints", .array (armJoints "arm_6" ++ [
      wheelJoint "wheel_back_left" 7 "platform" [("invert", .boolean true), driveLimits],
      wheelJoint "wheel_back_right" 8 "platform" [driveLimits],
      wheelJoint "wheel_front_right" 9 "platform" [driveLimits],
      wheelJoint "wheel_front_left" 10 "platform" [("invert", .boolean true), driveLimits],
      wheelJoint "drill_1" 11 "module" [],
      wheelJoint "drill_2" 12 "module" []])),
    ("kinematics", .table [("model", .string "diff_drive"), ("track_width_m", .float 0.30),
      ("wheel_radius_m", .float 0.07425),
      ("wheels", .table [("back_left", .string "wheel_back_left"), ("back_right", .string "wheel_back_right"),
        ("front_left", .string "wheel_front_left"), ("front_right", .string "wheel_front_right")])]),
    ("platform", .table [("id", .string "waypoint-rover"), ("name", .string "Waypoint Rover"),
      ("vehicle_class", .string "diff_drive_rover")]),
    ("schema", .integer 1)]

def waypointBench : Toml :=
  .table [
    driversMain,
    ("joints", .array (armJoints "gripper")),
    ("platform", .table [("id", .string "waypoint-bench"), ("name", .string "Waypoint Bench"),
      ("vehicle_class", .string "fixed_base")]),
    ("schema", .integer 1)]

end Descriptor

end Waypoint.Core
