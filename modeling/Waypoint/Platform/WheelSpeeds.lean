import Mathlib.Tactic.FieldSimp
import Mathlib.Tactic.Ring
import Waypoint.Base.Overwrite
import Waypoint.Base.Table
import Waypoint.Platform.Agreement
import Waypoint.Platform.VelocityLimits

/-!
# A twist as wheel speeds, three times

The descriptor package turns a twist into one signed speed for each wheel joint, the browser's copy of it does the same, and core commands the wheels.
-/

namespace Waypoint.Platform

open Base

/-! ### The descriptor package -/

namespace Descriptor

def wheelSpeed (d : Descriptor) (k : Kinematics) (vxMps wzRadps : Rat) (wheel : String × String) : Rat :=
  let vL := vxMps - wzRadps * k.trackWidthM / 2
  let vR := vxMps + wzRadps * k.trackWidthM / 2
  let v := if wheel.1 = "front_right" ∨ wheel.1 = "back_right" then vR else vL
  let w := v / k.wheelRadiusM
  if (d.byName wheel.2).any (·.invert) then -w else w

/-- `WheelSpeeds`, where the loop visits the entries of the wheel map in the order given. -/
def wheelSpeeds (d : Descriptor) (visited : List (String × String)) (vxMps wzRadps : Rat) :
    Except String (String → Option Rat) :=
  match d.kinematics with
  | none => .error "descriptor: WheelSpeeds requires diff_drive kinematics"
  | some k =>
    if k.model ≠ "diff_drive" then .error "descriptor: WheelSpeeds requires diff_drive kinematics"
    else .ok (written Prod.snd (d.wheelSpeed k vxMps wzRadps) visited)

end Descriptor

/-! ### The browser -/

namespace Ts

structure Joint where
  name : String
  invert : Option Bool

/-- The interface `PlatformDescriptor`, as far as it is read here. -/
structure PlatformDescriptor where
  schema : Int
  vehicleClass : String
  joints : List Joint
  kinematics : Option Kinematics

def integer : Core.Toml → Option Int
  | .integer i => some i
  | _ => none

def number : Core.Toml → Option Rat
  | .integer i => some i
  | .float q => some q
  | _ => none

def flag : Option Core.Toml → Option (Option Bool)
  | none => some none
  | some (.boolean b) => some (some b)
  | some _ => none

def viewJoint (t : Core.Toml) : Option Joint := do
  let name ← (t.get "name").bind Core.Toml.stringValue
  let invert ← flag (t.get "invert")
  return { name, invert }

def viewKinematics (t : Core.Toml) : Option Kinematics := do
  let model ← (t.get "model").bind Core.Toml.stringValue
  let wheelRadiusM ← (t.get "wheel_radius_m").bind number
  let trackWidthM ← (t.get "track_width_m").bind number
  let wheels ← (t.get "wheels").bind Core.Toml.asTable
  let wheels ← wheels.mapM fun e => e.2.stringValue.map fun name => (e.1, name)
  return { model, wheelRadiusM, trackWidthM, wheels }

mutual

/-- No integer is beyond those that a JavaScript number holds safely. -/
def safe : Core.Toml → Bool
  | .integer i => decide (i.natAbs < 2 ^ 53)
  | .array items => safeItems items
  | .table entries => safeEntries entries
  | _ => true

def safeItems : List Core.Toml → Bool
  | [] => true
  | t :: items => safe t && safeItems items

def safeEntries : List (String × Core.Toml) → Bool
  | [] => true
  | (_, t) :: entries => safe t && safeEntries entries

end

/-- `smol-toml` from the document on. By its documentation numbers are the document's, and an integer that a number cannot
hold is an error. -/
structure SmolToml where
  parse : Core.Toml → Except String Core.Toml
  lossless : ∀ root, safe root = true → parse root = .ok root
  refuses : ∀ root, safe root = false → ∃ err, parse root = .error err

/-- The parsed object as a `PlatformDescriptor`, where it has the shape of the interface. -/
def view (root : Core.Toml) : Option PlatformDescriptor := do
  let schema ← (root.get "schema").bind integer
  let vehicleClass ← (root.get "platform").bind fun t => (t.get "vehicle_class").bind Core.Toml.stringValue
  let items ← (root.get "joints").bind Core.Toml.asArray
  let joints ← items.mapM viewJoint
  let kinematics ←
    match root.get "kinematics" with
    | none => some none
    | some t => (viewKinematics t).map some
  return { schema, vehicleClass, joints, kinematics }

def parseDescriptor (d : PlatformDescriptor) : Except String PlatformDescriptor := do
  require (d.schema = 1) ("descriptor: unsupported schema " ++ toString d.schema)
  require (d.vehicleClass ∈ ["diff_drive_rover", "fixed_base"]) ("descriptor: unknown vehicle_class " ++ d.vehicleClass)
  require (¬(d.vehicleClass = "diff_drive_rover" ∧ d.kinematics.isNone))
    "descriptor: diff_drive_rover requires [kinematics]"
  require (¬(d.vehicleClass = "fixed_base" ∧ d.kinematics.isSome)) "descriptor: fixed_base must not declare [kinematics]"
  return d

/-- `out[name] = w` on an object literal: `__proto__` is an accessor there that ignores a number. -/
def setProperty (out : String → Option Rat) (name : String) (w : Rat) : String → Option Rat :=
  if name = "__proto__" then out else Function.update out name (some w)

def PlatformDescriptor.wheelSpeed (d : PlatformDescriptor) (k : Kinematics) (vxMps wzRadps : Rat) (wheel : String × String) : Rat :=
  let vL := vxMps - (wzRadps * k.trackWidthM) / 2
  let vR := vxMps + (wzRadps * k.trackWidthM) / 2
  let v := if wheel.1 = "front_right" ∨ wheel.1 = "back_right" then vR else vL
  let w := v / k.wheelRadiusM
  if ((d.joints.find? fun j => j.name = wheel.2).bind (·.invert)) = some true then -w else w

/-- `wheelSpeeds`, where `Object.entries` lists the wheel map in the order given. -/
def PlatformDescriptor.wheelSpeeds (d : PlatformDescriptor) (visited : List (String × String)) (vxMps wzRadps : Rat) :
    Except String (String → Option Rat) :=
  match d.kinematics with
  | none => .error "descriptor: wheelSpeeds requires diff_drive kinematics"
  | some k =>
    if k.model ≠ "diff_drive" then .error "descriptor: wheelSpeeds requires diff_drive kinematics"
    else .ok (visited.foldl (fun out e => setProperty out e.2 (d.wheelSpeed k vxMps wzRadps e)) fun _ => none)

end Ts

/-! ### Orders of the loop -/

section Orders

variable {d : Descriptor} {k : Kinematics} {vx wz : Rat}

theorem Descriptor.wheelSpeeds_eq (hk : d.kinematics = some k) (hmodel : k.model = "diff_drive")
    (visited : List (String × String)) :
    d.wheelSpeeds visited vx wz = .ok (written Prod.snd (d.wheelSpeed k vx wz) visited) := by
  rw [wheelSpeeds, hk]
  dsimp only
  rw [if_neg (not_not_intro hmodel)]

/-- No joint is both a left and a right wheel. -/
def Kinematics.SidesApart (k : Kinematics) : Prop :=
  ∀ left ∈ ["front_left", "back_left"], ∀ right ∈ ["front_right", "back_right"], k.wheels.lookup left ≠ k.wheels.lookup right

instance (k : Kinematics) : Decidable k.SidesApart := by
  unfold Kinematics.SidesApart
  infer_instance

variable {pos : String}

theorem wheelSpeed_left (name : String) (hpos : pos ∈ ["front_left", "back_left"]) :
    d.wheelSpeed k vx wz (pos, name) = d.wheelSpeed k vx wz ("front_left", name) := by
  simp only [List.mem_cons, List.not_mem_nil, or_false] at hpos
  rcases hpos with rfl | rfl <;> rfl

theorem wheelSpeed_right (name : String) (hpos : pos ∈ ["front_right", "back_right"]) :
    d.wheelSpeed k vx wz (pos, name) = d.wheelSpeed k vx wz ("front_right", name) := by
  simp only [List.mem_cons, List.not_mem_nil, or_false] at hpos
  rcases hpos with rfl | rfl <;> rfl

theorem wheelSpeed_sides (hradius : k.wheelRadiusM ≠ 0) (htrack : k.trackWidthM ≠ 0) {name left right : String}
    (hleft : left ∈ ["front_left", "back_left"]) (hright : right ∈ ["front_right", "back_right"]) :
    d.wheelSpeed k vx wz (left, name) = d.wheelSpeed k vx wz (right, name) ↔ wz = 0 := by
  have hsides : (vx - wz * k.trackWidthM / 2) / k.wheelRadiusM = (vx + wz * k.trackWidthM / 2) / k.wheelRadiusM ↔ wz = 0 := by
    rw [div_left_inj' hradius]
    constructor
    · intro h
      have hzero : wz * k.trackWidthM = 0 := by linarith
      exact (mul_eq_zero.mp hzero).resolve_right htrack
    · rintro rfl
      ring
  rw [wheelSpeed_left name hleft, wheelSpeed_right name hright, Descriptor.wheelSpeed, Descriptor.wheelSpeed]
  by_cases hinvert : (d.byName name).any (·.invert) = true
  · rw [if_pos hinvert, if_pos hinvert, neg_inj]
    exact hsides
  · rw [if_neg hinvert, if_neg hinvert]
    exact hsides

theorem mem_positions (h : pos ∈ wheelPositions) :
    pos ∈ ["front_left", "back_left"] ∨ pos ∈ ["front_right", "back_right"] := by
  simp only [wheelPositions, List.mem_cons, List.not_mem_nil, or_false] at h ⊢
  tauto

/-- What the validator says of the wheel map. -/
structure WheelMap (d : Descriptor) (k : Kinematics) : Prop where
  model : k.model = "diff_drive"
  radius : 0 < k.wheelRadiusM
  track : 0 < k.trackWidthM
  positions : ∀ e ∈ k.wheels, e.1 ∈ wheelPositions
  joints : ∀ pos ∈ wheelPositions, ∃ j, k.wheels.lookup pos = some j.name ∧ d.byName j.name = some j

theorem wheelMap_of_validate (h : d.validate = .ok ()) (hk : d.kinematics = some k) : WheelMap d k := by
  have hvalid := validated_of_validate h
  obtain ⟨-, hnone⟩ | ⟨hclass, k', hk', hmodel, hpositive, hcheck⟩ := hvalid.kinematics
  · rw [hk] at hnone
    cases hnone
  cases hk.symm.trans hk'
  rw [not_or, not_le, not_le] at hpositive
  refine ⟨hmodel, hpositive.1, hpositive.2, ?_, fun pos hpos => ?_⟩
  · simp only [Descriptor.validate, bind_eq_ok] at h
    obtain ⟨_, -, _, -, _, -, _, -, _, -, _, hkinematics, -⟩ := h
    rw [Descriptor.validateKinematics, if_neg (by rw [hclass]; decide), if_neg (not_not_intro hclass), hk] at hkinematics
    simp only [bind_eq_ok, checkAll_eq_ok, decide_eq_true_eq] at hkinematics
    obtain ⟨_, -, _, -, _, -, hpositions⟩ := hkinematics
    exact hpositions
  · obtain ⟨j, hj, -⟩ := Descriptor.jointAt_of_checkWheel hk (hcheck pos hpos)
    rw [Descriptor.jointAt, hk, Option.bind_some] at hj
    obtain ⟨name, hname, hbyName⟩ := Option.bind_eq_some_iff.mp hj
    have hjname : j.name = name := by simpa using List.find?_some hbyName
    exact ⟨j, hjname ▸ hname, hjname ▸ hbyName⟩

/-- The agent reads the document as a descriptor with these kinematics, and accepts it. -/
structure Accepted (root : Core.Toml) (d : Descriptor) (k : Kinematics) : Prop where
  read : readDescriptor root = some d
  valid : Validated d
  kinematics : d.kinematics = some k
  wheels : WheelMap d k

theorem Accepted.jointAt {root : Core.Toml} (h : Accepted root d k) (hpos : pos ∈ wheelPositions) :
    ∃ j, k.wheels.lookup pos = some j.name ∧ d.byName j.name = some j ∧ d.jointAt pos = some j := by
  obtain ⟨j, hlookup, hbyName⟩ := h.wheels.joints pos hpos
  refine ⟨j, hlookup, hbyName, ?_⟩
  rw [Descriptor.jointAt, h.kinematics, Option.bind_some, hlookup]
  exact hbyName

theorem consistent_iff (h : WheelMap d k) (hkeys : (k.wheels.map Prod.fst).Nodup) :
    Consistent Prod.snd (d.wheelSpeed k vx wz) k.wheels ↔ wz = 0 ∨ k.SidesApart := by
  have hsides {name left right : String} (hleft : left ∈ ["front_left", "back_left"])
      (hright : right ∈ ["front_right", "back_right"]) :
      d.wheelSpeed k vx wz (left, name) = d.wheelSpeed k vx wz (right, name) ↔ wz = 0 :=
    wheelSpeed_sides h.radius.ne' h.track.ne' hleft hright
  constructor
  · intro hconsistent
    by_contra hnot
    rw [not_or] at hnot
    refine hnot.2 fun left hleft right hright heq => hnot.1 ?_
    have hpos : left ∈ wheelPositions := by
      simp only [List.mem_cons, List.not_mem_nil, or_false] at hleft
      rcases hleft with rfl | rfl <;> decide
    obtain ⟨j, hlookup, -⟩ := h.joints left hpos
    rw [← hsides hleft hright]
    exact hconsistent (left, j.name) ((lookup_eq_some_iff_mem hkeys).mp hlookup) (right, j.name)
      ((lookup_eq_some_iff_mem hkeys).mp (heq ▸ hlookup)) rfl
  · rintro hcases ⟨pos, name⟩ ha ⟨pos', name'⟩ hb rfl
    have hla := (lookup_eq_some_iff_mem hkeys).mpr ha
    have hlb := (lookup_eq_some_iff_mem hkeys).mpr hb
    rcases mem_positions (h.positions _ ha) with hleft | hright
    · rcases mem_positions (h.positions _ hb) with hleft' | hright'
      · rw [wheelSpeed_left _ hleft, wheelSpeed_left _ hleft']
      · exact (hsides hleft hright').mpr (hcases.resolve_right fun hapart => hapart pos hleft pos' hright' (hla.trans hlb.symm))
    rcases mem_positions (h.positions _ hb) with hleft' | hright'
    · exact ((hsides hleft' hright).mpr
        (hcases.resolve_right fun hapart => hapart pos' hleft' pos hright (hlb.trans hla.symm))).symm
    · rw [wheelSpeed_right _ hright, wheelSpeed_right _ hright']

end Orders

/-! ### The browser's view of an accepted document -/

theorem invert_of_readJoint {el : Core.Toml} {j : Joint} (h : readJoint el = some j) :
    readBool (el.get "invert") = some j.invert := by
  simp only [readJoint, Option.bind_eq_bind, Option.bind_eq_some_iff] at h
  obtain ⟨_, -, _, -, _, -, _, -, _, -, invert, hinvert, _, -, _, -, _, -, hout⟩ := h
  cases hout
  exact hinvert

namespace Ts

structure SameJoint (j : Platform.Joint) (t : Joint) : Prop where
  name : t.name = j.name
  invert : t.invert.getD false = j.invert

variable {v : Option Core.Toml} {d : Descriptor} {k : Kinematics} {t : PlatformDescriptor}

theorem flag_of_readBool {b : Bool} (h : readBool v = some b) :
    ∃ o, flag v = some o ∧ o.getD false = b := by
  unfold readBool at h
  split at h
  · exact ⟨none, rfl, Option.some.inj h⟩
  · exact ⟨some _, rfl, Option.some.inj h⟩
  · cases h

theorem viewJoint_of_read {el : Core.Toml} {j : Platform.Joint} (hread : readJoint el = some j) (hname : j.name ≠ "") :
    ∃ t, viewJoint el = some t ∧ SameJoint j t := by
  obtain ⟨o, hflag, ho⟩ := flag_of_readBool (invert_of_readJoint hread)
  refine ⟨⟨j.name, o⟩, ?_, rfl, ho⟩
  rw [viewJoint, stringValue_of_ne (readJoint_eq_some hread).1 hname, hflag]
  rfl

theorem viewJoints_of_read {items : List Core.Toml} {joints : List Platform.Joint} (hread : ReadJoints items joints)
    (hnames : ∀ j ∈ joints, j.name ≠ "") :
    ∃ ts, items.mapM viewJoint = some ts ∧ List.Forall₂ SameJoint joints ts := by
  induction hread with
  | nil => exact ⟨[], rfl, .nil⟩
  | cons hhead _ ih =>
    rw [List.forall_mem_cons] at hnames
    obtain ⟨t, ht, hsame⟩ := viewJoint_of_read (table_of_readStruct hhead).2 hnames.1
    obtain ⟨ts, hts, hsames⟩ := ih hnames.2
    refine ⟨t :: ts, ?_, .cons hsame hsames⟩
    rw [List.mapM_cons, ht, hts]
    rfl

theorem number_of_readFloat {q : Rat} (h : readFloat v = some q) (hq : q ≠ 0) : v.bind number = some q := by
  unfold readFloat at h
  split at h
  · exact absurd (Option.some.inj h).symm hq
  · split at h
    · exact h
    · cases h
  · exact h
  · cases h

theorem viewKinematics_of_read {t : Core.Toml} (hread : readKinematics t = some k)
    (hmap : WheelMap d k) : viewKinematics t = some k := by
  obtain ⟨rmodel, rradius, rtrack, rwheels⟩ := readKinematics_eq_some hread
  have hwheels : ∃ entries, t.get "wheels" = some (.table entries) ∧
      (entries.mapM fun e => e.2.stringValue.map fun name => (e.1, name)) = some k.wheels := by
    unfold readMap at rwheels
    split at rwheels
    · obtain ⟨j, hlookup, -⟩ := hmap.joints "front_left" (by decide)
      rw [← Option.some.inj rwheels] at hlookup
      cases hlookup
    · rename_i entries hget
      exact ⟨entries, hget, rwheels⟩
    · cases rwheels
  obtain ⟨entries, hget, hentries⟩ := hwheels
  rw [viewKinematics, stringValue_of_ne rmodel (by rw [hmap.model]; decide), number_of_readFloat rradius hmap.radius.ne',
    number_of_readFloat rtrack hmap.track.ne', hget]
  change ((entries.mapM fun e : String × Core.Toml => e.2.stringValue.map fun name => (e.1, name)).bind fun wheels => _) = _
  rw [hentries]
  rfl

section Read

variable {root : Core.Toml} (h : Accepted root d k)

include h

theorem vehicleClass_of_read :
    ((root.get "platform").bind fun t => (t.get "vehicle_class").bind Core.Toml.stringValue) = some "diff_drive_rover" := by
  have hclass : d.platform.vehicleClass = "diff_drive_rover" := by
    rcases h.valid.kinematics with ⟨-, hnone⟩ | ⟨hclass, -⟩
    · rw [h.kinematics] at hnone
      cases hnone
    · exact hclass
  have hvalue := (platform_of_read (readDescriptor_eq_some h.read).2.1).2
  rw [hclass] at hvalue
  cases hget : (root.get "platform").bind fun t => Core.Descriptor.stringAt t "vehicle_class" with
  | none =>
    rw [hget] at hvalue
    exact absurd hvalue (by decide)
  | some name =>
    rw [hget] at hvalue
    exact hget.trans (congrArg some hvalue)

theorem items_of_read : ∃ items, root.get "joints" = some (.array items) ∧ ReadJoints items d.joints := by
  obtain ⟨-, -, -, rjoints, -⟩ := readDescriptor_eq_some h.read
  have hjoints := readJoints_of_read rjoints
  unfold readSlice at rjoints
  split at rjoints
  · obtain ⟨j, -, hbyName⟩ := h.wheels.joints "front_left" (by decide)
    rw [Descriptor.byName, ← Option.some.inj rjoints] at hbyName
    cases hbyName
  · rename_i items hget
    rw [jointItems, hget] at hjoints
    exact ⟨items, hget, hjoints⟩
  · cases rjoints

theorem kinematics_of_read : ∃ t, root.get "kinematics" = some t ∧ viewKinematics t = some k := by
  obtain ⟨-, -, -, -, rkinematics⟩ := readDescriptor_eq_some h.read
  rw [h.kinematics] at rkinematics
  cases hget : root.get "kinematics" with
  | none =>
    rw [hget] at rkinematics
    cases rkinematics
  | some t =>
    rw [hget] at rkinematics
    obtain ⟨k', hstruct, hk'⟩ := Option.map_eq_some_iff.mp rkinematics
    cases hk'
    exact ⟨t, rfl, viewKinematics_of_read (table_of_readStruct hstruct).2 h.wheels⟩

theorem view_of_read :
    ∃ t, view root = some t ∧ parseDescriptor t = .ok t ∧ List.Forall₂ SameJoint d.joints t.joints ∧ t.kinematics = some k := by
  have hschema : root.get "schema" = some (.integer 1) := by
    have rschema := (readDescriptor_eq_some h.read).1
    rw [h.valid.schema] at rschema
    exact integer_of_readInt rschema one_ne_zero
  obtain ⟨items, hget, hitems⟩ := items_of_read h
  obtain ⟨ts, hts, hsame⟩ := viewJoints_of_read hitems fun j hj => (h.valid.checked j hj).name
  obtain ⟨t, hkinematics, hview⟩ := kinematics_of_read h
  refine ⟨⟨1, "diff_drive_rover", ts, some k⟩, ?_, rfl, hsame, rfl⟩
  rw [view, hschema, vehicleClass_of_read h, hget]
  change ((items.mapM viewJoint).bind fun joints => _) = _
  rw [hts, hkinematics]
  change (((viewKinematics t).map some).bind fun kinematics => _) = _
  rw [hview]
  rfl

end Read

theorem wheelSpeed_eq (hnames : d.joints.Pairwise fun j k => j.name ≠ k.name)
    (hsame : List.Forall₂ SameJoint d.joints t.joints) (k : Kinematics) (vx wz : Rat) :
    t.wheelSpeed k vx wz = d.wheelSpeed k vx wz := by
  funext wheel
  have hrel := find_rel (fun _ _ h => h.name) hsame wheel.2
  rw [← find_reverse hnames] at hrel
  have hinvert : ((t.joints.find? fun j => j.name = wheel.2).bind (·.invert)) = some true ↔
      (d.byName wheel.2).any (·.invert) = true := by
    rw [Descriptor.byName]
    generalize d.joints.reverse.find? (fun j => j.name = wheel.2) = o at hrel ⊢
    generalize t.joints.find? (fun j => j.name = wheel.2) = o' at hrel ⊢
    cases hrel with
    | none => simp
    | @some j tj h =>
      rw [Option.bind_some, Option.any_some, ← h.invert]
      cases tj.invert with
      | none => simp
      | some b => simp
  rw [PlatformDescriptor.wheelSpeed, Descriptor.wheelSpeed]
  simp only [hinvert]

theorem foldl_setProperty (value : String × String → Rat) (visited : List (String × String)) :
    visited.foldl (fun out e => setProperty out e.2 (value e)) (fun _ => none) =
      written Prod.snd value (visited.filter fun e => e.2 ≠ "__proto__") := by
  rw [written, List.foldl_filter]
  congr 1
  funext out e
  rw [setProperty]
  by_cases hproto : e.2 = "__proto__"
  · rw [if_pos hproto, if_neg (by simp [hproto])]
  · rw [if_neg hproto, if_pos (by simp [hproto])]

theorem wheelSpeeds_eq (hk : t.kinematics = some k) (hmodel : k.model = "diff_drive")
    (visited : List (String × String)) (vx wz : Rat) :
    t.wheelSpeeds visited vx wz =
      .ok (written Prod.snd (t.wheelSpeed k vx wz) (visited.filter fun e => e.2 ≠ "__proto__")) := by
  rw [PlatformDescriptor.wheelSpeeds, hk]
  dsimp only
  rw [if_neg (not_not_intro hmodel), foldl_setProperty]

end Ts

end Waypoint.Platform

/-! ### Core -/

namespace Waypoint.Core

namespace Sts3215Driver

def signedSpeeds (drv : Sts3215Driver) (cmds : List (JointId × JointCommand)) : List (JointId × Rat) :=
  cmds.filterMap fun c => do
    let i ← drv.info c.1
    let v ← c.2.velocityRadps
    return (c.1, i.sign * v)

theorem flatMap_commandFrames (drv : Sts3215Driver) {cmds : List (JointId × JointCommand)}
    (h : ∀ c ∈ cmds, c.2.positionRad = none) :
    cmds.flatMap drv.commandFrames = (drv.signedSpeeds cmds).map fun s => buildSetGoalSpeed s.1 (rawFromRadps s.2) := by
  induction cmds with
  | nil => rfl
  | cons c cmds ih =>
    rw [List.forall_mem_cons] at h
    rw [List.flatMap_cons, ih h.2, signedSpeeds, signedSpeeds, List.filterMap_cons, commandFrames, h.1]
    cases drv.info c.1 with
    | none => rfl
    | some i =>
      cases c.2.velocityRadps with
      | none => rfl
      | some v => rfl

theorem info_of_joint {d : Descriptor} (hids : d.joints.Pairwise fun j k => ¬(j.driver = k.driver ∧ j.busId = k.busId))
    {driverName : String} {j : Joint} (hj : j ∈ d.joints) (hdriver : j.driver = driverName) :
    (ofDescriptor d driverName).info j.busId = some { invert := j.invert, isWheel := j.type = "wheel" } := by
  have hfold : ∀ js : List Joint, js.Pairwise (fun j k => j.busId ≠ k.busId) → j ∈ js →
      (js.foldl addJoint empty).info j.busId = some { invert := j.invert, isWheel := j.type = "wheel" } := by
    intro js
    induction js using List.reverseRecOn with
    | nil => exact fun _ hmem => absurd hmem List.not_mem_nil
    | append_singleton js k ih =>
      intro hpairwise hmem
      obtain ⟨hfirst, -, hlast⟩ := List.pairwise_append.mp hpairwise
      rw [List.foldl_concat]
      change (if j.busId = k.busId then some _ else (js.foldl addJoint empty).info j.busId) = _
      rcases List.mem_append.mp hmem with hmem | hmem
      · rw [if_neg (hlast j hmem k List.mem_cons_self)]
        exact ih hfirst hmem
      · rw [List.mem_singleton.mp hmem, if_pos rfl]
  refine hfold _ ?_ (List.mem_filter.mpr ⟨hj, by simpa using hdriver⟩)
  rw [List.pairwise_filter]
  refine hids.imp fun hne hdj hdk hid => hne ⟨?_, hid⟩
  rw [of_decide_eq_true hdj, of_decide_eq_true hdk]

end Sts3215Driver

namespace Config

variable {root : Toml} {c : Descriptor} {ck : DescriptorKinematics} {cfg : Config} {drive : DriveSetup}

def wheelSpeed (ck : DescriptorKinematics) (t : BodyVel) (pos : String) (j : Joint) : Rat :=
  (if j.invert then -1 else 1) *
    ((if pos = "front_right" ∨ pos = "back_right" then t.vx + t.omegaZ * ck.trackWidthM / 2
      else t.vx - t.omegaZ * ck.trackWidthM / 2) / ck.wheelRadiusM)

theorem speeds_of_setup (hparse : Descriptor.parse root = .ok c) (hck : c.kinematics = some ck)
    (hcfg : ofDescriptor c = some cfg) (hdrive : cfg.drive = some drive) (t : BodyVel) :
    ∃ driver, (∀ pos ∈ Descriptor.wheelPositions, ∃ j ∈ c.joints, c.jointAt pos = some j ∧ j.driver = driver) ∧
      ∀ s, s ∈ cfg.jointDrv.signedSpeeds (drive.wheels.velocityCommands (drive.kin.bodyToWheels t)) ↔
        ∃ pos ∈ Descriptor.wheelPositions, ∃ j, c.jointAt pos = some j ∧ s = (j.busId, wheelSpeed ck t pos j) := by
  obtain ⟨first, -, h⟩ := Option.bind_eq_some_iff.mp hcfg
  obtain ⟨setup, hresolve, h⟩ := Option.bind_eq_some_iff.mp h
  cases h
  obtain rfl : setup = some drive := hdrive
  rw [hck] at hresolve
  obtain ⟨wheels, hwheels, hresolve⟩ := Option.bind_eq_some_iff.mp hresolve
  cases hresolve
  obtain ⟨hfl, hfr, hbl, hbr⟩ := resolveWheels_eq_some hwheels
  have hinfo {j : Joint} (hj : j ∈ c.joints) (hdriver : j.driver = first.1) :=
    Sts3215Driver.info_of_joint (Descriptor.busIds_of_parse hparse) hj hdriver
  obtain ⟨fl, hflMem, hflAt, hflDriver, hflId⟩ := Descriptor.jointAt_of_resolved hparse hck hfl
  obtain ⟨fr, hfrMem, hfrAt, hfrDriver, hfrId⟩ := Descriptor.jointAt_of_resolved hparse hck hfr
  obtain ⟨bl, hblMem, hblAt, hblDriver, hblId⟩ := Descriptor.jointAt_of_resolved hparse hck hbl
  obtain ⟨br, hbrMem, hbrAt, hbrDriver, hbrId⟩ := Descriptor.jointAt_of_resolved hparse hck hbr
  refine ⟨first.1, ?_, ?_⟩
  · simp only [Descriptor.wheelPositions, List.forall_mem_cons]
    exact ⟨⟨fl, hflMem, hflAt, hflDriver⟩, ⟨fr, hfrMem, hfrAt, hfrDriver⟩, ⟨bl, hblMem, hblAt, hblDriver⟩,
      ⟨br, hbrMem, hbrAt, hbrDriver⟩, fun _ hnil => absurd hnil List.not_mem_nil⟩
  have hspeeds : (Sts3215Driver.ofDescriptor c first.1).signedSpeeds (wheels.velocityCommands
      (Kinematics.bodyToWheels { wheelRadius := ck.wheelRadiusM, trackWidth := ck.trackWidthM } t)) =
      [(fl.busId, wheelSpeed ck t "front_left" fl), (fr.busId, wheelSpeed ck t "front_right" fr),
        (bl.busId, wheelSpeed ck t "back_left" bl), (br.busId, wheelSpeed ck t "back_right" br)] := by
    simp only [Sts3215Driver.signedSpeeds, WheelJoints.velocityCommands, List.filterMap_cons, List.filterMap_nil, ← hflId,
      ← hfrId, ← hblId, ← hbrId, hinfo hflMem hflDriver, hinfo hfrMem hfrDriver, hinfo hblMem hblDriver,
      hinfo hbrMem hbrDriver, Option.bind_eq_bind, Option.bind_some, Option.pure_def]
    rfl
  intro s
  rw [hspeeds]
  simp only [Descriptor.wheelPositions, List.mem_cons, List.not_mem_nil, or_false, exists_eq_or_imp, exists_eq_left,
    hflAt, hfrAt, hblAt, hbrAt, Option.some.injEq, exists_eq_left']

end Config

end Waypoint.Core

namespace Waypoint.Platform

open Base

/-! ### Three maps -/

/-- What the three make of a twist, all alike: one map for every order of the loops, with an entry for every position, and at each position what core commands to the joint. -/
structure SpeedsAgree (js : Ts.SmolToml) (root : Core.Toml) (d : Descriptor) (k : Kinematics) (vx wz : Rat) (out : String → Option Rat) : Prop where
  orders : ∀ visited, visited.Perm k.wheels → d.wheelSpeeds visited vx wz = .ok out
  entries : ∀ pos ∈ wheelPositions, ∃ j v, d.jointAt pos = some j ∧ out j.name = some v
  core : ∀ c cfg drive, Core.Descriptor.parse root = .ok c → Core.Config.ofDescriptor c = some cfg → cfg.drive = some drive →
    ∀ pos ∈ wheelPositions, ∃ j cj, d.jointAt pos = some j ∧ c.jointAt pos = some cj ∧
      (∃ v, (cj.busId, v) ∈
        cfg.jointDrv.signedSpeeds (drive.wheels.velocityCommands (drive.kin.bodyToWheels { vx := vx, omegaZ := wz }))) ∧
      ∀ v, (cj.busId, v) ∈
          cfg.jointDrv.signedSpeeds (drive.wheels.velocityCommands (drive.kin.bodyToWheels { vx := vx, omegaZ := wz })) →
        out j.name = some v
  browser : ∃ object t, js.parse root = .ok object ∧ Ts.view object = some t ∧ Ts.parseDescriptor t = .ok t ∧
    ∀ visited, visited.Perm k.wheels → t.wheelSpeeds visited vx wz = .ok out

section Agree

variable {js : Ts.SmolToml} {root : Core.Toml} {d : Descriptor} {k : Kinematics} {vx wz : Rat}

theorem getD_of_readBool {v : Option Core.Toml} {b : Bool} (h : readBool v = some b) :
    (v.bind Core.Toml.boolValue).getD false = b := by
  unfold readBool at h
  split at h
  · exact Option.some.inj h
  · exact Option.some.inj h
  · cases h

variable {j : Joint} {out : String → Option Rat}

theorem invert_of_parseJoint {el : Core.Toml} {c : Core.Joint} (hread : readJoint el = some j)
    (hparse : Core.Descriptor.parseJoint el = .ok c) : c.invert = j.invert := by
  unfold Core.Descriptor.parseJoint Core.Descriptor.fail at hparse
  split at hparse
  · rw [ite_error_eq_ok] at hparse
    rw [← Except.ok.inj hparse.2]
    exact getD_of_readBool (invert_of_readJoint hread)
  · cases hparse

theorem wheels_of_parse (h : Accepted root d k) {c : Core.Descriptor} (hc : Core.Descriptor.parse root = .ok c) :
    c.kinematics = some ⟨k.model, k.wheelRadiusM, k.trackWidthM, k.wheels⟩ ∧
      ∀ pos ∈ wheelPositions, ∃ j cj, k.wheels.lookup pos = some j.name ∧ d.byName j.name = some j ∧ d.jointAt pos = some j ∧
        c.jointAt pos = some cj ∧ cj.name = j.name ∧ cj.invert = j.invert := by
  obtain ⟨⟨drivers, hfold⟩, -, hkinematics⟩ := parts_of_parse h.read h.valid hc
  have hck : c.kinematics = some ⟨k.model, k.wheelRadiusM, k.trackWidthM, k.wheels⟩ := by
    rcases hkinematics with ⟨hnone, -⟩ | ⟨t, k', ck, hk', hkin, hck, hparse⟩
    · rw [h.kinematics] at hnone
      cases hnone
    · cases h.kinematics.symm.trans hk'
      rw [hck, parseKinematics_eq hkin hparse]
  obtain ⟨cs, hcs, hparsed⟩ := parsed_of_addJoints hfold
  have hitems := readJoints_of_read (readDescriptor_eq_some h.read).2.2.2.1
  have hsame : List.Forall₂ (fun j cj => cj.name = j.name ∧ cj.invert = j.invert) d.joints c.joints := by
    rw [hcs]
    refine (forall₂_of_common (S := fun _ _ => True) (fun el j cj hel hcj => ⟨?_, trivial⟩) hitems hparsed).1
    have hel := (table_of_readStruct hel).2
    exact ⟨(sameJoint_of_parseJoint hel hcj).1.name, invert_of_parseJoint hel hcj⟩
  refine ⟨hck, fun pos hpos => ?_⟩
  obtain ⟨j, hlookup, hbyName, hat⟩ := h.jointAt hpos
  have hrel := find_rel (fun _ _ h => h.1) hsame j.name
  rw [← find_reverse (h.valid.distinct.imp And.left)] at hrel
  rw [show d.joints.reverse.find? (fun a => a.name = j.name) = some j from hbyName] at hrel
  have hcat : c.jointAt pos = c.joints.find? fun b => b.name = j.name := by
    rw [Core.Descriptor.jointAt, hck, Option.bind_some, hlookup]
    rfl
  cases hfound : c.joints.find? fun b => b.name = j.name with
  | none =>
    rw [hfound] at hrel
    cases hrel
  | some cj =>
    rw [hfound] at hrel hcat
    cases hrel with
    | some hj => exact ⟨j, cj, hlookup, hbyName, hat, hcat, hj⟩

theorem coreSpeed_eq {cj : Core.Joint} (hbyName : d.byName j.name = some j) (hinvert : cj.invert = j.invert)
    (pos : String) :
    Core.Config.wheelSpeed ⟨k.model, k.wheelRadiusM, k.trackWidthM, k.wheels⟩ { vx := vx, omegaZ := wz } pos cj =
      d.wheelSpeed k vx wz (pos, j.name) := by
  rw [Core.Config.wheelSpeed, Descriptor.wheelSpeed, hbyName, hinvert]
  dsimp only [Option.any_some]
  by_cases hsign : j.invert = true
  · rw [if_pos hsign, if_pos hsign, neg_one_mul]
  · rw [if_neg hsign, if_neg hsign, one_mul]

theorem speedsAgree_of_consistent (h : Accepted root d k) (hkeys : (k.wheels.map Prod.fst).Nodup)
    (hconsistent : Consistent Prod.snd (d.wheelSpeed k vx wz) k.wheels) (hproto : ∀ e ∈ k.wheels, e.2 ≠ "__proto__")
    (hsafe : Ts.safe root = true) :
    SpeedsAgree js root d k vx wz (written Prod.snd (d.wheelSpeed k vx wz) k.wheels) := by
  have hentry {pos name : String} (hlookup : k.wheels.lookup pos = some name) :
      written Prod.snd (d.wheelSpeed k vx wz) k.wheels name = some (d.wheelSpeed k vx wz (pos, name)) :=
    hconsistent.written_eq ((lookup_eq_some_iff_mem hkeys).mp hlookup)
  refine ⟨fun visited hperm => ?_, fun pos hpos => ?_, fun c cfg drive hc hcfg hdrive pos hpos => ?_, ?_⟩
  · rw [Descriptor.wheelSpeeds_eq h.kinematics h.wheels.model, hconsistent.written_perm hperm]
  · obtain ⟨j, hlookup, -, hat⟩ := h.jointAt hpos
    exact ⟨j, _, hat, hentry hlookup⟩
  · obtain ⟨hck, hwheels⟩ := wheels_of_parse h hc
    obtain ⟨driver, hjoints, hspeeds⟩ := Core.Config.speeds_of_setup hc hck hcfg hdrive { vx := vx, omegaZ := wz }
    obtain ⟨j, cj, -, -, hat, hcat, hname, -⟩ := hwheels pos hpos
    refine ⟨j, cj, hat, hcat, ⟨_, (hspeeds _).mpr ⟨pos, hpos, cj, hcat, rfl⟩⟩, fun v hv => ?_⟩
    obtain ⟨pos', hpos', cj', hcat', heq⟩ := (hspeeds _).mp hv
    obtain ⟨hid, rfl⟩ := Prod.mk.inj heq
    -- the command is for this joint: both are on the driver, where the bus ids differ
    have hsame : cj = cj' := by
      obtain ⟨a, ha, haat, hadriver⟩ := hjoints pos hpos
      obtain ⟨b, hb, hbat, hbdriver⟩ := hjoints pos' hpos'
      cases hcat.symm.trans haat
      cases hcat'.symm.trans hbat
      have hids : (c.joints.map fun j => (j.driver, j.busId)).Nodup :=
        List.pairwise_map.mpr ((Core.Descriptor.busIds_of_parse hc).imp fun hne hsame => hne (Prod.mk.inj hsame))
      exact List.inj_on_of_nodup_map hids ha hb (Prod.ext (hadriver.trans hbdriver.symm) hid)
    obtain ⟨j', cj'', hlookup', hbyName', -, hcat'', hname', hinvert'⟩ := hwheels pos' hpos'
    cases hcat'.symm.trans hcat''
    rw [coreSpeed_eq hbyName' hinvert', ← hentry hlookup', ← hname, hsame, hname']
  · obtain ⟨t, hview, hparse, hsame, hkin⟩ := Ts.view_of_read h
    refine ⟨root, t, js.lossless root hsafe, hview, hparse, fun visited hperm => ?_⟩
    have hall : visited.filter (fun e => e.2 ≠ "__proto__") = visited :=
      List.filter_eq_self.mpr fun e he => by simpa using hproto e (hperm.mem_iff.mp he)
    rw [Ts.wheelSpeeds_eq hkin h.wheels.model, Ts.wheelSpeed_eq (h.valid.distinct.imp And.left) hsame, hall,
      hconsistent.written_perm hperm]

theorem safe_of_agree (hagree : SpeedsAgree js root d k vx wz out) : Ts.safe root = true := by
  obtain ⟨object, -, hparse, -⟩ := hagree.browser
  by_contra hunsafe
  obtain ⟨err, herr⟩ := js.refuses root (Bool.eq_false_iff.mpr hunsafe)
  cases hparse.symm.trans herr

theorem proto_free_of_agree (h : Accepted root d k) (hagree : SpeedsAgree js root d k vx wz out) :
    ∀ e ∈ k.wheels, e.2 ≠ "__proto__" := by
  intro e he hproto
  obtain ⟨object, t, hobject, hview, -, hbrowser⟩ := hagree.browser
  cases hobject.symm.trans (js.lossless root (safe_of_agree hagree))
  obtain ⟨t', hview', -, -, hkin⟩ := Ts.view_of_read h
  cases hview.symm.trans hview'
  have hagent := hagree.orders k.wheels (.refl _)
  have hbrowser := hbrowser k.wheels (.refl _)
  rw [Descriptor.wheelSpeeds_eq h.kinematics h.wheels.model] at hagent
  rw [Ts.wheelSpeeds_eq hkin h.wheels.model] at hbrowser
  have heq := congrFun ((Except.ok.inj hagent).trans (Except.ok.inj hbrowser).symm) e.2
  obtain ⟨v, hv⟩ := Option.ne_none_iff_exists'.mp (heq ▸ written_ne_none he)
  obtain ⟨f, hf, hfe, -⟩ := mem_of_written hv
  rw [List.mem_filter, decide_eq_true_eq] at hf
  exact hf.2 (hfe.trans hproto)

end Agree

/-- For a document that the agent accepts, and a twist: the descriptor package, the browser and core agree on the wheel speeds, whatever the order of the loops, exactly if the twist does not rotate or no joint is both a left and a right wheel, no wheel is called `__proto__`, and the document has no integer that the browser refuses. -/
theorem wheelSpeeds_agree_iff (toml : TomlPackage) (js : Ts.SmolToml) (root : Core.Toml) (hknown : known root = true) (d : Descriptor)
    (hparse : Descriptor.parse toml root = .ok d) (k : Kinematics) (hk : d.kinematics = some k)
    (hkeys : (k.wheels.map Prod.fst).Nodup) (vx wz : Rat) :
    (∃ out, SpeedsAgree js root d k vx wz out) ↔
      (wz = 0 ∨ k.SidesApart) ∧ (∀ pos ∈ wheelPositions, k.wheels.lookup pos ≠ some "__proto__") ∧ Ts.safe root = true := by
  obtain ⟨hread, hvalidate⟩ := Descriptor.parse_eq_ok hknown hparse
  have hmap := wheelMap_of_validate hvalidate hk
  have haccepted : Accepted root d k := ⟨hread, validated_of_validate hvalidate, hk, hmap⟩
  constructor
  · rintro ⟨out, h⟩
    have hconsistent : Consistent Prod.snd (d.wheelSpeed k vx wz) k.wheels := by
      refine written_perm_iff.mp ⟨out, fun visited hperm => ?_⟩
      have hout := h.orders visited hperm
      rw [Descriptor.wheelSpeeds_eq hk hmap.model] at hout
      exact Except.ok.inj hout
    refine ⟨(consistent_iff hmap hkeys).mp hconsistent, fun pos _ hlookup => ?_, safe_of_agree h⟩
    exact proto_free_of_agree haccepted h _ ((lookup_eq_some_iff_mem hkeys).mp hlookup) rfl
  · rintro ⟨hsides, hproto, hsafe⟩
    refine ⟨_, speedsAgree_of_consistent haccepted hkeys ((consistent_iff hmap hkeys).mpr hsides) (fun e he heq => ?_) hsafe⟩
    exact hproto e.1 (hmap.positions e he) ((lookup_eq_some_iff_mem hkeys).mpr (heq ▸ he))

def Ts.SmolToml.checked : Ts.SmolToml where
  parse root := if Ts.safe root then .ok root else .error "integer value cannot be represented losslessly"
  lossless _ h := if_pos h
  refuses _ h := ⟨_, if_neg (Bool.eq_false_iff.mp h)⟩

theorem wheelSpeeds_agree_iff_rover :
    ∃ k, (rover "platform").kinematics = some k ∧
      ∃ out, SpeedsAgree .checked (roverToml "platform") (rover "platform") k (1 / 2) 1 out :=
  ⟨_, rfl, (wheelSpeeds_agree_iff .reader .checked (roverToml "platform") (by decide +kernel) (rover "platform")
    (by decide +kernel) _ rfl (by decide) (1 / 2) 1).mpr ⟨.inr (by decide), by decide, by decide +kernel⟩⟩

/-! ### One joint on both sides -/

def sharedDocument : Core.Toml :=
  .table [
    ("drivers", .table [("main", .table [("kind", .string "sim")])]),
    ("joints", .array [
      Core.Descriptor.wheelJoint "wheel_left" 1 "platform" [Core.Descriptor.driveLimits],
      Core.Descriptor.wheelJoint "wheel_right" 2 "platform" [Core.Descriptor.driveLimits]]),
    ("kinematics", .table [("model", .string "diff_drive"), ("track_width_m", .float 0.3), ("wheel_radius_m", .float 0.1),
      ("wheels", .table [("back_left", .string "wheel_left"), ("back_right", .string "wheel_right"),
        ("front_left", .string "wheel_left"), ("front_right", .string "wheel_left")])]),
    ("platform", .table [("id", .string "shared"), ("vehicle_class", .string "diff_drive_rover")]),
    ("schema", .integer 1)]

def sharedDescriptor : Descriptor where
  schema := 1
  platform := { id := "shared", vehicleClass := "diff_drive_rover" }
  drivers := [("main", { kind := "sim" })]
  joints := [wheel "wheel_left" 1 "platform", wheel "wheel_right" 2 "platform"]
  kinematics := some
    { model := "diff_drive", wheelRadiusM := 0.1, trackWidthM := 0.3
      wheels := [("back_left", "wheel_left"), ("back_right", "wheel_right"), ("front_left", "wheel_left"),
        ("front_right", "wheel_left")] }

/-- Turning on the spot: the map has one speed of the left wheel or the other, by the entry visited last, and core commands both. -/
theorem shared_wheel_depends_on_order :
    known sharedDocument = true ∧ Descriptor.parse .reader sharedDocument = .ok sharedDescriptor ∧
      (sharedDescriptor.wheelSpeeds [("back_left", "wheel_left"), ("back_right", "wheel_right"), ("front_left", "wheel_left"),
        ("front_right", "wheel_left")] 0 1).map (· "wheel_left") = .ok (some (3 / 2)) ∧
      (sharedDescriptor.wheelSpeeds [("back_left", "wheel_left"), ("back_right", "wheel_right"), ("front_right", "wheel_left"),
        ("front_left", "wheel_left")] 0 1).map (· "wheel_left") = .ok (some (-3 / 2)) ∧
      ((Core.Config.ofDocument sharedDocument).bind fun cfg => cfg.drive.map fun drive =>
          cfg.jointDrv.signedSpeeds (drive.wheels.velocityCommands (drive.kin.bodyToWheels { omegaZ := 1 }))) =
        some [(1, -3 / 2), (1, 3 / 2), (1, -3 / 2), (2, 3 / 2)] ∧
      ∃ k, sharedDescriptor.kinematics = some k ∧ ¬∃ out, SpeedsAgree .checked sharedDocument sharedDescriptor k 0 1 out := by
  have hfirst : (sharedDescriptor.wheelSpeeds [("back_left", "wheel_left"), ("back_right", "wheel_right"),
      ("front_left", "wheel_left"), ("front_right", "wheel_left")] 0 1).map (· "wheel_left") = .ok (some (3 / 2)) := by
    decide +kernel
  have hsecond : (sharedDescriptor.wheelSpeeds [("back_left", "wheel_left"), ("back_right", "wheel_right"),
      ("front_right", "wheel_left"), ("front_left", "wheel_left")] 0 1).map (· "wheel_left") = .ok (some (-3 / 2)) := by
    decide +kernel
  refine ⟨by decide +kernel, by decide +kernel, hfirst, hsecond, by decide +kernel, _, rfl, ?_⟩
  rintro ⟨out, h⟩
  rw [h.orders _ (.refl _)] at hfirst
  rw [h.orders _ (by decide)] at hsecond
  exact absurd (hfirst.symm.trans hsecond) (by decide +kernel)

end Waypoint.Platform
