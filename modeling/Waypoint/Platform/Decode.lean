import Waypoint.Core.Descriptor
import Waypoint.Platform.Descriptor

/-!
# Decoding a descriptor

`descriptor.Parse` from the document on: decode it into the Go types, refuse keys that no field has, validate.
-/

namespace Waypoint.Platform

def readString : Option Core.Toml → Option String
  | none => some ""
  | some v => v.stringValue

def readInt (least most : Int) : Option Core.Toml → Option Int
  | none => some 0
  | some (.integer i) => if least ≤ i ∧ i ≤ most then some i else none
  | some _ => none

/-- A float field also takes the integers that a double holds exactly. -/
def readFloat : Option Core.Toml → Option Rat
  | none => some 0
  | some (.integer i) => if i.natAbs < 2 ^ 53 then some i else none
  | some (.float q) => some q
  | some _ => none

def readBool : Option Core.Toml → Option Bool
  | none => some false
  | some (.boolean b) => some b
  | some _ => none

section Containers

variable {α : Type} (read : Option Core.Toml → Option α)

def readPointer : Option Core.Toml → Option (Option α)
  | none => some none
  | some v => (read (some v)).map some

def readStruct (read : Core.Toml → Option α) : Option Core.Toml → Option α
  | none => read (.table [])
  | some (.table entries) => read (.table entries)
  | some _ => none

def readSlice : Option Core.Toml → Option (List α)
  | none => some []
  | some (.array items) => items.mapM fun el => read (some el)
  | some _ => none

def readMap : Option Core.Toml → Option (List (String × α))
  | none => some []
  | some (.table entries) => entries.mapM fun e => (read (some e.2)).map fun a => (e.1, a)
  | some _ => none

end Containers

variable (t : Core.Toml)

def readPlatform : Option PlatformInfo := do
  let id ← readString (t.get "id")
  let name ← readString (t.get "name")
  let vehicleClass ← readString (t.get "vehicle_class")
  return { id, name, vehicleClass }

def readDriver : Option Driver := do
  let kind ← readString (t.get "kind")
  let port ← readString (t.get "port")
  let baud ← readInt (-2 ^ 63) (2 ^ 63 - 1) (t.get "baud")
  return { kind, port, baud }

def readLimits : Option Limits := do
  let velocityRadps ← readPointer readFloat (t.get "velocity_radps")
  let positionMinRad ← readPointer readFloat (t.get "position_min_rad")
  let positionMaxRad ← readPointer readFloat (t.get "position_max_rad")
  return { velocityRadps, positionMinRad, positionMaxRad }

def readJoint : Option Joint := do
  let name ← readString (t.get "name")
  let driver ← readString (t.get "driver")
  let busID ← readInt 0 (2 ^ 32 - 1) (t.get "bus_id")
  let type ← readString (t.get "type")
  let ownership ← readString (t.get "ownership")
  let invert ← readBool (t.get "invert")
  let commandInterfaces ← readSlice readString (t.get "command_interfaces")
  let stateInterfaces ← readSlice readString (t.get "state_interfaces")
  let limits ← readPointer (readStruct readLimits) (t.get "limits")
  return {
    name, driver, type, ownership, invert, commandInterfaces, stateInterfaces, limits
    busID := UInt32.ofNat busID.toNat }

def readKinematics : Option Kinematics := do
  let model ← readString (t.get "model")
  let wheelRadiusM ← readFloat (t.get "wheel_radius_m")
  let trackWidthM ← readFloat (t.get "track_width_m")
  let wheels ← readMap readString (t.get "wheels")
  return { model, wheelRadiusM, trackWidthM, wheels }

def readSensor : Option Sensor := do
  let name ← readString (t.get "name")
  let kind ← readString (t.get "kind")
  return { name, kind }

def readDescriptor (root : Core.Toml) : Option Descriptor := do
  let schema ← readInt (-2 ^ 63) (2 ^ 63 - 1) (root.get "schema")
  let platform ← readStruct readPlatform (root.get "platform")
  let drivers ← readMap (readStruct readDriver) (root.get "drivers")
  let joints ← readSlice (readStruct readJoint) (root.get "joints")
  let kinematics ← readPointer (readStruct readKinematics) (root.get "kinematics")
  let sensors ← readSlice (readStruct readSensor) (root.get "sensors")
  return { schema, platform, drivers, joints, kinematics, sensors }

def keysIn (keys : List String) (t : Core.Toml) : Bool := (t.asTable.getD []).all fun e => decide (e.1 ∈ keys)

def knownJoint : Bool :=
  keysIn ["name", "driver", "bus_id", "type", "ownership", "invert", "command_interfaces", "state_interfaces", "limits"] t &&
    (t.get "limits").all (keysIn ["velocity_radps", "position_min_rad", "position_max_rad"])

def known (root : Core.Toml) : Bool :=
  keysIn ["schema", "platform", "drivers", "joints", "kinematics", "allocation", "sensors", "modes", "observations",
      "actions"] root &&
    (root.get "platform").all (keysIn ["id", "name", "vehicle_class"]) &&
    (((root.get "drivers").bind Core.Toml.asTable).getD []).all (fun e => keysIn ["kind", "port", "baud"] e.2) &&
    (((root.get "joints").bind Core.Toml.asArray).getD []).all knownJoint &&
    (root.get "kinematics").all (keysIn ["model", "wheel_radius_m", "track_width_m", "wheels"]) &&
    (root.get "allocation").all (keysIn []) &&
    (((root.get "sensors").bind Core.Toml.asArray).getD []).all (keysIn ["name", "kind", "frame", "rate_hz"]) &&
    (root.get "modes").all (keysIn ["available"]) &&
    (root.get "observations").all (fun t => keysIn ["streams"] t &&
      (((t.get "streams").bind Core.Toml.asArray).getD []).all (keysIn ["subject", "message", "rate_hz"])) &&
    (root.get "actions").all (keysIn ["altitudes"])

/-- `toml.Decode` into a descriptor, with the keys it reports as undecoded. -/
structure TomlPackage where
  decode : Core.Toml → Except String (Descriptor × List String)
  /-- in the schema's spelling, a decoded document is what the readers read -/
  reads : ∀ root d undecoded, known root = true → decode root = .ok (d, undecoded) → readDescriptor root = some d

def Descriptor.parse (toml : TomlPackage) (root : Core.Toml) : Except String Descriptor :=
  match toml.decode root with
  | .error err => .error ("descriptor: " ++ err)
  | .ok (_, key :: _) => .error ("descriptor: unknown key " ++ key.quote)
  | .ok (d, []) => do
      d.validate
      return d

def Descriptor.busIDFor (d : Descriptor) (name : String) : Option UInt32 :=
  (d.joints.find? fun j => j.name = name).map (·.busID)

theorem Descriptor.parse_eq_ok {toml : TomlPackage} {root : Core.Toml} (hknown : known root = true) {d : Descriptor}
    (h : Descriptor.parse toml root = .ok d) : readDescriptor root = some d ∧ d.validate = .ok () := by
  unfold Descriptor.parse at h
  split at h
  · cases h
  · cases h
  rename_i d' hdecode
  obtain ⟨⟨⟩, hvalid, hreturn⟩ := Base.bind_eq_ok.mp h
  cases hreturn
  exact ⟨toml.reads root d [] hknown hdecode, hvalid⟩

end Waypoint.Platform
