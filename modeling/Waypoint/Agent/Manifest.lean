import Waypoint.Base.Except
import Waypoint.Base.Text
import Mathlib.Algebra.Order.Ring.Rat

/-!
# Module manifests

The validator every module manifest goes through before the agent attaches the module.
-/

namespace Waypoint.Agent

open Base

structure RawComponent where
  className : String := ""
  stateRateHz : Rat := 0

structure RawStatic where
  tabID : String := ""
  bundle : String := ""

structure RawProxy where
  tabID : String := ""
  port : Int := 0
  lanOnly : Bool := false

structure TeleopWindowBinding where
  windowID : String := ""
  label : String := ""
  entry : String := ""
  bindings : List String := []
  deriving DecidableEq

structure RawUI where
  tabID : String := ""
  static : Option RawStatic := none
  proxy : Option RawProxy := none
  teleop : Option TeleopWindowBinding := none

structure Permissions where
  publish : List String := []
  subscribe : List String := []
  hardware : List String := []
  deriving DecidableEq

structure RawHealth where
  probe : String := ""
  intervalS : Int := 0
  timeoutS : Int := 0

structure Hardware where
  devices : List String := []
  readOnly : List String := []
  readWrite : List String := []
  capabilities : List String := []
  deriving DecidableEq

structure ConfigField where
  key : String
  label : String := ""
  type : String := ""
  default : String := ""
  help : String := ""
  required : Bool := false
  deriving DecidableEq

structure RawManifest where
  name : String := ""
  label : String := ""
  version : String := ""
  apiVersion : String := ""
  language : String := ""
  entrypoint : String := ""
  permissions : Permissions := {}
  health : RawHealth := {}
  ui : RawUI := {}
  hardware : Hardware := {}
  provides : List String := []
  requires : List String := []
  component : Option RawComponent := none
  componentList : List RawComponent := []
  configFields : List ConfigField := []

structure Component where
  className : String
  stateRateHz : Rat
  deriving DecidableEq

structure HealthProbe where
  probe : String
  interval : Int
  timeout : Int
  deriving DecidableEq

inductive UIKind
  | none
  | static
  | proxy
  deriving DecidableEq

structure UIBinding where
  kind : UIKind := .none
  tabID : String := ""
  staticBundle : String := ""
  proxyPort : UInt16 := 0
  lanOnly : Bool := false
  teleop : Option TeleopWindowBinding := none
  deriving DecidableEq

structure Manifest where
  name : String
  label : String
  version : String
  apiVersion : String
  language : String
  entrypoint : String
  permissions : Permissions
  health : HealthProbe
  ui : UIBinding
  hardware : Hardware
  provides : List String
  requires : List String
  components : List Component
  configFields : List ConfigField
  deriving DecidableEq

def lowerLetter (c : Char) : Bool := 'a' ≤ c && c ≤ 'z'

/-- The patterns of the validator: a lower-case letter, then a bounded number of lower-case letters, digits and one further character. -/
def wordRe (extra : Char) (least most : Nat) (s : String) : Bool :=
  match s.toList with
  | [] => false
  | c :: rest =>
    lowerLetter c && decide (least ≤ rest.length ∧ rest.length ≤ most) &&
      rest.all fun c => lowerLetter c || ('0' ≤ c && c ≤ '9') || c = extra

def validModuleName (s : String) : Bool := wordRe '-' 0 63 s

def componentClassRe (s : String) : Bool := wordRe '-' 1 31 s

def configFieldKeyRe (s : String) : Bool := wordRe '_' 0 63 s

variable {extra : Char} {least most : Nat} {s : String}

theorem head_of_wordRe (h : wordRe extra least most s = true) :
    ∃ c rest, s.toList = c :: rest ∧ lowerLetter c = true := by
  unfold wordRe at h
  split at h
  · cases h
  · rename_i c rest hlist
    simp only [Bool.and_eq_true] at h
    exact ⟨c, rest, hlist, h.1.1⟩

theorem not_mem_of_wordRe {d : Char} (h : wordRe extra least most s = true)
    (hd : (lowerLetter d || ('0' ≤ d && d ≤ '9') || d = extra) = false) : d ∉ s.toList := by
  unfold wordRe at h
  split at h
  · cases h
  rename_i c rest hlist
  simp only [Bool.and_eq_true, List.all_eq_true] at h
  rw [hlist, List.mem_cons, not_or]
  refine ⟨?_, fun hrest => ?_⟩
  · rintro rfl
    rw [h.1.1] at hd
    cases hd
  · exact absurd (h.2 d hrest) (by simpa using hd)

def allowedDevicePrefixes : List String :=
  ["/dev/i2c-", "/dev/spidev", "/dev/ttyUSB", "/dev/ttyACM", "/dev/video", "/dev/gpiochip"]

def allowedReadOnlyPaths : List String := ["/sys/class/hwmon", "/sys/class/gpio", "/sys/class/thermal"]

def allowedReadWritePaths : List String := ["/var/lib/waypoint-module-"]

def allowedCapabilities : List String := ["NET_ADMIN", "SYS_NICE"]

def knownCapabilities : List String := ["uplink"]

def knownRequires : List String := ["servo-control", "teleop-input", "drive-control"]

def subjectInOwnSandbox (name subj : String) : Bool :=
  let start := "waypoint.*.module." ++ name ++ "."
  hasPrefix subj start && decide (start.length < subj.length)

def addComponent (out : List Component) (e : RawComponent) : Except String (List Component) :=
  if componentClassRe e.className = false then
    .error ("manifest: component class " ++ e.className.quote ++ " must match [a-z][a-z0-9-]\x7b1,31\x7d")
  else if e.className ∈ out.map (·.className) then .error ("manifest: duplicate component class " ++ e.className.quote)
  else
    let rate := if e.stateRateHz = 0 then 10 else e.stateRateHz
    if rate < 0 ∨ 100 < rate then
      .error ("manifest: component state_rate_hz " ++ toString e.stateRateHz ++ " out of range (0, 100]")
    else .ok (out ++ [⟨e.className, rate⟩])

variable (raw : RawManifest)

/-- `[component]` and `[[components]]` exclude each other; the single form yields one entry. -/
def buildComponents : Except String (List Component) :=
  if raw.component.isSome ∧ raw.componentList ≠ [] then
    .error "manifest: [component] and [[components]] are mutually exclusive"
  else (raw.component.toList ++ raw.componentList).foldlM addComponent []

/-- One setting, with its position in the list; a missing label is the key. -/
def addConfigField (out : List ConfigField) (f : ConfigField × Nat) : Except String (List ConfigField) :=
  let (f, i) := f
  if configFieldKeyRe f.key = false then
    .error ("manifest: config.fields[" ++ toString i ++ "].key " ++ f.key.quote ++
      " must match [a-z][a-z0-9_]\x7b0,63\x7d")
  else if f.key ∈ out.map (·.key) then .error ("manifest: duplicate config.fields key " ++ f.key.quote)
  else .ok (out ++ [{ f with label := if f.label = "" then f.key else f.label }])

def buildConfigFields : Except String (List ConfigField) :=
  raw.configFields.zipIdx.foldlM addConfigField []

def buildTab (raw : RawUI) : Except String UIBinding :=
  match raw.static, raw.proxy with
  | some _, some _ => .error "manifest: [ui.static] and [ui.proxy] are mutually exclusive"
  | some s, none => .ok { kind := .static, tabID := s.tabID, staticBundle := s.bundle }
  | none, some p =>
    if p.lanOnly = false then .error "manifest: [ui.proxy].lan_only must be true in v1"
    else if p.port < 1 ∨ 65535 < p.port then
      .error ("manifest: [ui.proxy].port " ++ toString p.port ++ " out of range")
    else .ok { kind := .proxy, tabID := p.tabID, proxyPort := p.port.toNat.toUInt16, lanOnly := true }
  | none, none => .ok (if raw.tabID ≠ "" then { kind := .static, tabID := raw.tabID } else {})

def buildUI : Except String UIBinding := do
  let ui ← buildTab raw.ui
  require (ui.kind = .none ∨ hasPrefix ui.tabID "m-" = true)
    ("manifest: ui.tab_id " ++ ui.tabID.quote ++ " must start with m- (reserved prefix)")
  return { ui with teleop := raw.ui.teleop }

def checkPaths (what : String) (allowed : List String) (paths : List String) : Except String Unit :=
  checkAll (fun p => allowed.any fun start => hasPrefix p start)
    (fun p => "manifest: " ++ what ++ " " ++ p.quote ++ " not in allow-list") paths

def buildHardware : Except String Hardware := do
  checkPaths "device" allowedDevicePrefixes raw.hardware.devices
  checkPaths "read_only path" allowedReadOnlyPaths raw.hardware.readOnly
  checkPaths "read_write path" allowedReadWritePaths raw.hardware.readWrite
  checkAll (fun c => decide (c ∈ allowedCapabilities))
    (fun c => "manifest: capability " ++ c.quote ++ " not in allow-list") raw.hardware.capabilities
  return raw.hardware

/-- Seconds of the file as a `time.Duration`, which wraps. -/
def seconds (s : Int) : Int := (s * 1000000000).bmod (2 ^ 64)

def parseManifest (data : Except String RawManifest) : Except String Manifest := do
  let raw ← data.mapError ("manifest: decode: " ++ ·)
  require (raw.name ≠ "") "manifest: name is required"
  require (validModuleName raw.name = true)
    ("manifest: name " ++ raw.name.quote ++ " must match [a-z][a-z0-9-]\x7b0,63\x7d")
  require (raw.entrypoint ≠ "") "manifest: entrypoint is required"
  checkAll (subjectInOwnSandbox raw.name)
    (fun subj => "manifest: subject " ++ subj.quote ++ " is outside module sandbox waypoint.*.module." ++ raw.name ++ ".*")
    (raw.permissions.publish ++ raw.permissions.subscribe)
  checkAll (fun c => decide (c ∈ knownCapabilities))
    (fun c => "manifest: unknown capability " ++ c.quote ++ " in provides") raw.provides
  checkAll (fun c => decide (c ∈ knownRequires))
    (fun c => "manifest: unknown required capability " ++ c.quote ++ " in requires") raw.requires
  let components ← buildComponents raw
  let configFields ← buildConfigFields raw
  let ui ← buildUI raw
  let hardware ← buildHardware raw
  return {
    name := raw.name, label := raw.label, version := raw.version, apiVersion := raw.apiVersion,
    language := raw.language, entrypoint := raw.entrypoint, permissions := raw.permissions,
    health := ⟨raw.health.probe, seconds raw.health.intervalS, seconds raw.health.timeoutS⟩,
    ui, hardware, provides := raw.provides, requires := raw.requires, components, configFields }

/-- What `ParseManifest` has checked. -/
structure Manifest.Checked (m : Manifest) : Prop where
  name : validModuleName m.name = true
  entrypoint : m.entrypoint ≠ ""
  subjects : ∀ subj ∈ m.permissions.publish ++ m.permissions.subscribe, subjectInOwnSandbox m.name subj = true
  provides : ∀ c ∈ m.provides, c ∈ knownCapabilities
  requires : ∀ c ∈ m.requires, c ∈ knownRequires
  devices : ∀ d ∈ m.hardware.devices, ∃ start ∈ allowedDevicePrefixes, hasPrefix d start = true
  readOnly : ∀ p ∈ m.hardware.readOnly, ∃ start ∈ allowedReadOnlyPaths, hasPrefix p start = true
  readWrite : ∀ p ∈ m.hardware.readWrite, ∃ start ∈ allowedReadWritePaths, hasPrefix p start = true
  capabilities : ∀ c ∈ m.hardware.capabilities, c ∈ allowedCapabilities

theorem checkPaths_eq_ok {what : String} {allowed paths : List String} :
    checkPaths what allowed paths = .ok () ↔ ∀ p ∈ paths, ∃ start ∈ allowed, hasPrefix p start = true := by
  simp [checkPaths, checkAll_eq_ok]

theorem buildHardware_eq_ok {raw : RawManifest} {hw : Hardware} (h : buildHardware raw = .ok hw) :
    raw.hardware = hw ∧ checkPaths "device" allowedDevicePrefixes hw.devices = .ok () ∧
      checkPaths "read_only path" allowedReadOnlyPaths hw.readOnly = .ok () ∧
      checkPaths "read_write path" allowedReadWritePaths hw.readWrite = .ok () ∧
      ∀ c ∈ hw.capabilities, c ∈ allowedCapabilities := by
  simp only [buildHardware, bind_eq_ok, checkAll_eq_ok, decide_eq_true_eq] at h
  obtain ⟨_, hdevices, _, hreadOnly, _, hreadWrite, _, hcapabilities, hhw⟩ := h
  cases hhw
  exact ⟨rfl, hdevices, hreadOnly, hreadWrite, hcapabilities⟩

theorem checked_of_parseManifest {data : Except String RawManifest} {m : Manifest} (h : parseManifest data = .ok m) :
    m.Checked := by
  unfold parseManifest at h
  rw [bind_eq_ok] at h
  obtain ⟨raw, -, h⟩ := h
  simp only [bind_eq_ok, require_eq_ok, checkAll_eq_ok, decide_eq_true_eq] at h
  obtain ⟨-, -, -, hname, -, hentrypoint, -, hsubjects, -, hprovides, -, hrequires, _, -, _, -, _, -, hw, hhw, h⟩ := h
  obtain ⟨-, hdevices, hreadOnly, hreadWrite, hcapabilities⟩ := buildHardware_eq_ok hhw
  cases h
  exact
    { name := hname, entrypoint := hentrypoint, subjects := hsubjects, provides := hprovides, requires := hrequires
      devices := checkPaths_eq_ok.mp hdevices, readOnly := checkPaths_eq_ok.mp hreadOnly
      readWrite := checkPaths_eq_ok.mp hreadWrite, capabilities := hcapabilities }

end Waypoint.Agent
