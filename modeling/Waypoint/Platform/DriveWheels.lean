import Mathlib.Data.List.Pairwise
import Waypoint.Core.Descriptor
import Waypoint.Core.Servo.Guard
import Waypoint.Platform.Descriptor

/-!
# Drive wheels and the deny list

The servos that modules may not command are derived from the ownership of joints, and the wheels the drive controller turns from the kinematics.
-/

namespace Waypoint.Platform

open Base

theorem owned_iff {α δ β : Type} {xs : List α} {driver : α → δ} {bus : α → β} {owned : α → Prop}
    (hxs : xs.Pairwise fun x y => ¬(driver x = driver y ∧ bus x = bus y)) {x : α} (hx : x ∈ xs) :
    (∃ y ∈ xs, owned y ∧ bus y = bus x) ↔ owned x ∨ ∃ y ∈ xs, driver y ≠ driver x ∧ owned y ∧ bus y = bus x := by
  constructor
  · rintro ⟨y, hy, howned, hbus⟩
    by_cases hsame : driver y = driver x
    · have hyx : y = x := by
        by_contra hne
        have : Std.Symm fun x y => ¬(driver x = driver y ∧ bus x = bus y) :=
          ⟨fun _ _ h hswap => h ⟨hswap.1.symm, hswap.2.symm⟩⟩
        exact hxs.forall hy hx hne ⟨hsame, hbus⟩
      exact .inl (hyx ▸ howned)
    · exact .inr ⟨y, hy, hsame, howned, hbus⟩
  · rintro (howned | ⟨y, hy, -, howned, hbus⟩)
    · exact ⟨x, hx, howned, rfl⟩
    · exact ⟨y, hy, howned, hbus⟩

namespace Descriptor

def WheelsDenied (d : Descriptor) : Prop :=
  d.kinematics.isSome = true → ∀ pos ∈ wheelPositions, ∃ j, d.jointAt pos = some j ∧ j.busID ∈ d.platformOwnedBusIDs

def WheelsOwned (d : Descriptor) : Prop :=
  d.kinematics.isSome = true → ∀ pos ∈ wheelPositions, ∀ j, d.jointAt pos = some j →
    j.ownership = "platform" ∨ ∃ k ∈ d.joints, k.driver ≠ j.driver ∧ k.ownership = "platform" ∧ k.busID = j.busID

variable {d : Descriptor}

theorem mem_of_jointAt {pos : String} {j : Joint} (h : d.jointAt pos = some j) : j ∈ d.joints := by
  obtain ⟨name, -, hj⟩ := Option.bind_eq_some_iff.mp h
  exact List.mem_reverse.mp (List.mem_of_find?_eq_some hj)

theorem mem_platformOwnedBusIDs {id : UInt32} :
    id ∈ d.platformOwnedBusIDs ↔ ∃ j ∈ d.joints, j.ownership = "platform" ∧ j.busID = id := by
  simp [platformOwnedBusIDs, and_assoc]

theorem wheelsDenied_iff (h : d.validate = .ok ()) : d.WheelsDenied ↔ d.WheelsOwned := by
  have haccepted := accepted_of_validate h
  have hjoints : d.joints.Pairwise fun j k => ¬(j.driver = k.driver ∧ j.busID = k.busID) :=
    haccepted.busIDs.imp fun hne hsame => hne (Prod.ext hsame.1 hsame.2)
  refine forall_congr' fun hdrive => forall₂_congr fun pos hpos => ?_
  obtain ⟨wheel, hwheel, -⟩ := haccepted.wheels hdrive pos hpos
  have howned : wheel.busID ∈ d.platformOwnedBusIDs ↔ _ :=
    mem_platformOwnedBusIDs.trans (owned_iff hjoints (mem_of_jointAt hwheel))
  simp only [hwheel, Option.some.injEq, exists_eq_left', forall_eq']
  exact howned

end Descriptor

end Waypoint.Platform

namespace Waypoint.Core.Descriptor

open Base

def WheelsDenied (d : Descriptor) : Prop :=
  d.hasDrive = true → ∀ pos ∈ wheelPositions, ∃ j, d.jointAt pos = some j ∧ j.busId ∈ d.platformOwnedBusIds

def WheelsOwned (d : Descriptor) : Prop :=
  d.hasDrive = true → ∀ pos ∈ wheelPositions, ∀ j, d.jointAt pos = some j →
    j.ownership = "platform" ∨ ∃ k ∈ d.joints, k.driver ≠ j.driver ∧ k.ownership = "platform" ∧ k.busId = j.busId

variable {d : Descriptor}

theorem mem_of_jointAt {pos : String} {j : Joint} (h : d.jointAt pos = some j) : j ∈ d.joints := by
  obtain ⟨name, -, hj⟩ := Option.bind_eq_some_iff.mp h
  exact List.mem_of_find?_eq_some hj

theorem mem_platformOwnedBusIds {id : JointId} :
    id ∈ d.platformOwnedBusIds ↔ ∃ j ∈ d.joints, j.ownership = "platform" ∧ j.busId = id := by
  simp [platformOwnedBusIds, and_assoc]

theorem wheelsDenied_iff {root : Toml} (h : parse root = .ok d) : d.WheelsDenied ↔ d.WheelsOwned := by
  refine forall_congr' fun hdrive => forall₂_congr fun pos hpos => ?_
  obtain ⟨wheel, hwheel, -⟩ := wheels_of_parse h hdrive pos hpos
  have howned : wheel.busId ∈ d.platformOwnedBusIds ↔ _ :=
    mem_platformOwnedBusIds.trans (Platform.owned_iff (busIds_of_parse h) (mem_of_jointAt hwheel))
  simp only [hwheel, Option.some.injEq, exists_eq_left', forall_eq']
  exact howned

end Waypoint.Core.Descriptor

namespace Waypoint.Platform

/-- For both readers of the descriptor, the drive wheels are on the deny list exactly if they are declared platform-owned or covered by another driver's joint. -/
theorem drive_wheels_denied_iff (d : Descriptor) (root : Core.Toml) (c : Core.Descriptor) :
    (d.validate = .ok () → (d.WheelsDenied ↔ d.WheelsOwned)) ∧
      (Core.Descriptor.parse root = .ok c → (c.WheelsDenied ↔ c.WheelsOwned)) :=
  ⟨Descriptor.wheelsDenied_iff, Core.Descriptor.wheelsDenied_iff⟩

def wheel (name : String) (busID : UInt32) (ownership : String) : Joint :=
  { name, driver := "main", busID, type := "wheel", ownership, commandInterfaces := ["velocity"]
    limits := some { velocityRadps := some 10 } }

def rover (frontLeft : String) : Descriptor where
  schema := 1
  platform := { id := "waypoint-rover", vehicleClass := "diff_drive_rover" }
  drivers := [("main", { kind := "sts3215", port := "/dev/ttyAMA0", baud := 1000000 })]
  joints := [wheel "wheel_back_left" 7 "platform", wheel "wheel_back_right" 8 "platform",
    wheel "wheel_front_right" 9 "platform", wheel "wheel_front_left" 10 frontLeft]
  kinematics := some
    { model := "diff_drive", wheelRadiusM := 0.07425, trackWidthM := 0.30
      wheels := [("back_left", "wheel_back_left"), ("back_right", "wheel_back_right"),
        ("front_left", "wheel_front_left"), ("front_right", "wheel_front_right")] }

def roverToml (frontLeft : String) : Core.Toml :=
  .table [
    Core.Descriptor.driversMain,
    ("joints", .array [
      Core.Descriptor.wheelJoint "wheel_back_left" 7 "platform" [Core.Descriptor.driveLimits],
      Core.Descriptor.wheelJoint "wheel_back_right" 8 "platform" [Core.Descriptor.driveLimits],
      Core.Descriptor.wheelJoint "wheel_front_right" 9 "platform" [Core.Descriptor.driveLimits],
      Core.Descriptor.wheelJoint "wheel_front_left" 10 frontLeft [Core.Descriptor.driveLimits]]),
    ("kinematics", .table [("model", .string "diff_drive"), ("track_width_m", .float 0.30),
      ("wheel_radius_m", .float 0.07425),
      ("wheels", .table [("back_left", .string "wheel_back_left"), ("back_right", .string "wheel_back_right"),
        ("front_left", .string "wheel_front_left"), ("front_right", .string "wheel_front_right")])]),
    ("platform", .table [("id", .string "waypoint-rover"), ("vehicle_class", .string "diff_drive_rover")]),
    ("schema", .integer 1)]

def coreWheel (name : String) (busId : Core.JointId) (ownership : String) : Core.Joint :=
  { name, driver := "main", busId, type := "wheel", ownership, commandInterfaces := ["velocity"]
    limits := { velocityRadps := some 10 } }

def roverCore (frontLeft : String) : Core.Descriptor where
  schema := 1
  platformId := "waypoint-rover"
  platformName := ""
  vehicleClass := "diff_drive_rover"
  drivers := [("main", { kind := "sts3215", port := "/dev/ttyAMA0" })]
  joints := [coreWheel "wheel_back_left" 7 "platform", coreWheel "wheel_back_right" 8 "platform",
    coreWheel "wheel_front_right" 9 "platform", coreWheel "wheel_front_left" 10 frontLeft]
  kinematics := some
    { model := "diff_drive", wheelRadiusM := 0.07425, trackWidthM := 0.30
      wheels := [("back_left", "wheel_back_left"), ("back_right", "wheel_back_right"),
        ("front_left", "wheel_front_left"), ("front_right", "wheel_front_right")] }

theorem drive_wheels_denied_iff_rover :
    (rover "platform").validate = .ok () ∧ (rover "platform").WheelsDenied ∧
      Core.Descriptor.parse (roverToml "platform") = .ok (roverCore "platform") ∧ (roverCore "platform").WheelsDenied := by
  have hvalid : (rover "platform").validate = .ok () := by decide +kernel
  have hparse : Core.Descriptor.parse (roverToml "platform") = .ok (roverCore "platform") := by decide +kernel
  obtain ⟨hagent, hcore⟩ := drive_wheels_denied_iff (rover "platform") (roverToml "platform") (roverCore "platform")
  refine ⟨hvalid, (hagent hvalid).mpr fun _ pos _ j hj => .inl ?_,
    hparse, (hcore hparse).mpr fun _ pos _ j hj => .inl ?_⟩
  · have hjoints : ∀ j ∈ (rover "platform").joints, j.ownership = "platform" := by decide
    exact hjoints j (Descriptor.mem_of_jointAt hj)
  · have hjoints : ∀ j ∈ (roverCore "platform").joints, j.ownership = "platform" := by decide
    exact hjoints j (Core.Descriptor.mem_of_jointAt hj)

/-- A front left wheel that a module owns is accepted, is not on the deny list, and is driven when a module says so. -/
theorem module_commands_drive_wheel :
    (rover "module").validate = .ok () ∧ ¬(rover "module").WheelsDenied ∧
      Core.Descriptor.parse (roverToml "module") = .ok (roverCore "module") ∧ ¬(roverCore "module").WheelsDenied ∧
      Core.buildSetGoalSpeed 10 500 ∈ (Core.ServoControlServer.session Core.World.silent.toWire
        (roverCore "module").platformOwnedBusIds ⟨(), []⟩ [.control false ⟨10, .setGoalVelocity 500⟩]).2.log := by
  refine ⟨by decide +kernel, fun h => ?_, by decide +kernel, fun h => ?_, by decide +kernel⟩
  · obtain ⟨j, hj, hmem⟩ := h rfl "front_left" (by decide)
    have hwheel : (rover "module").jointAt "front_left" = some (wheel "wheel_front_left" 10 "module") := by decide +kernel
    cases hj.symm.trans hwheel
    exact absurd hmem (by decide)
  · obtain ⟨j, hj, hmem⟩ := h rfl "front_left" (by decide)
    have hwheel : (roverCore "module").jointAt "front_left" = some (coreWheel "wheel_front_left" 10 "module") := by
      decide +kernel
    cases hj.symm.trans hwheel
    exact absurd hmem (by decide)

end Waypoint.Platform
