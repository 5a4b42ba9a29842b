import Waypoint.Agent.Manifest
import Waypoint.Base.LexPath

/-!
# Hardware drop-ins

What a module's hardware section grants is written into a systemd drop-in next to its unit. systemd reads the file line by line, so a value that contains a character that ends a line ends its directive there and begins another one.
-/

namespace Waypoint.Agent

open Base

/-- `RenderHardwareDropin`; without a source mapping the read-write paths bind to themselves. -/
def renderHardwareDropin (h : Hardware) (rwSource : Option (String → String)) : String :=
  if h.devices.length = 0 ∧ h.readOnly.length = 0 ∧ h.readWrite.length = 0 ∧ h.capabilities.length = 0 then ""
  else
    let b := "[Service]\n"
    let b := h.devices.foldl (fun b d => b ++ "DeviceAllow=" ++ d ++ " rw\n") b
    let b := h.readOnly.foldl (fun b p => b ++ "BindReadOnlyPaths=" ++ p ++ "\n") b
    let b := h.readWrite.foldl
      (fun b p => b ++ "BindPaths=" ++ (match rwSource with
        | some source => source p ++ ":"
        | none => "") ++ p ++ "\n") b
    h.capabilities.foldl
      (fun b c => b ++ "AmbientCapabilities=CAP_" ++ c ++ "\n" ++ "CapabilityBoundingSet=CAP_" ++ c ++ "\n") b

inductive FileOp
  | mkdirAll (path : String)
  | writeFile (path body : String)
  deriving DecidableEq

structure Reconciler where
  dropinDir : String
  stateBackingRoot : String

namespace Reconciler

def rwSource (r : Reconciler) : Option (String → String) :=
  if r.stateBackingRoot ≠ "" then some (join r.stateBackingRoot) else none

def makeSources (r : Reconciler) (h : Hardware) : List FileOp :=
  match r.rwSource with
  | some source => h.readWrite.map fun p => .mkdirAll (source p)
  | none => []

def writeHardwareDropin (r : Reconciler) (moduleID : String) (h : Hardware) : List FileOp :=
  if r.dropinDir = "" then []
  else
    let body := renderHardwareDropin h r.rwSource
    if body = "" then r.makeSources h
    else
      let dir := join r.dropinDir ("waypoint-module-" ++ moduleID ++ ".service.d")
      r.makeSources h ++ [.mkdirAll dir, .writeFile (join dir "30-hardware.conf") body]

end Reconciler

namespace Hardware

variable (h : Hardware) (source : String → String)

def pathDirectives : List String :=
  h.devices.map (fun d => "DeviceAllow=" ++ d ++ " rw") ++ h.readOnly.map (fun p => "BindReadOnlyPaths=" ++ p) ++
    h.readWrite.map (fun p => "BindPaths=" ++ source p ++ ":" ++ p)

def capabilityDirectives : List String :=
  h.capabilities.flatMap fun c => ["AmbientCapabilities=CAP_" ++ c, "CapabilityBoundingSet=CAP_" ++ c]

/-- The lines a drop-in may have: the section and the directives of declared values. -/
inductive Granted : String → Prop
  | service : Granted "[Service]"
  | device {d : String} (hd : d ∈ h.devices) : Granted ("DeviceAllow=" ++ d ++ " rw")
  | readOnly {p : String} (hp : p ∈ h.readOnly) : Granted ("BindReadOnlyPaths=" ++ p)
  | readWrite {p : String} (hp : p ∈ h.readWrite) : Granted ("BindPaths=" ++ source p ++ ":" ++ p)
  | ambient {c : String} (hc : c ∈ h.capabilities) : Granted ("AmbientCapabilities=CAP_" ++ c)
  | bounding {c : String} (hc : c ∈ h.capabilities) : Granted ("CapabilityBoundingSet=CAP_" ++ c)

variable {h source}

theorem granted_iff {x : String} :
    h.Granted source x ↔ x ∈ "[Service]" :: (h.pathDirectives source ++ h.capabilityDirectives) := by
  simp only [pathDirectives, capabilityDirectives, List.mem_cons, List.mem_append, List.mem_map, List.mem_flatMap,
    List.not_mem_nil, or_false]
  constructor
  · rintro (_ | hd | hp | hp | hc | hc)
    · exact .inl rfl
    · exact .inr (.inl (.inl (.inl ⟨_, hd, rfl⟩)))
    · exact .inr (.inl (.inl (.inr ⟨_, hp, rfl⟩)))
    · exact .inr (.inl (.inr ⟨_, hp, rfl⟩))
    · exact .inr (.inr ⟨_, hc, .inl rfl⟩)
    · exact .inr (.inr ⟨_, hc, .inr rfl⟩)
  · rintro (rfl | ((⟨d, hd, rfl⟩ | ⟨p, hp, rfl⟩) | ⟨p, hp, rfl⟩) | ⟨c, hc, rfl | rfl⟩)
    · exact .service
    · exact .device hd
    · exact .readOnly hp
    · exact .readWrite hp
    · exact .ambient hc
    · exact .bounding hc

end Hardware

theorem foldl_write {α : Type} {step : String → α → String} (f : α → List String)
    (hstep : ∀ b x, step b x = b ++ unlines (f x)) (b : String) (xs : List α) :
    xs.foldl step b = b ++ unlines (xs.flatMap f) := by
  induction xs generalizing b with
  | nil => simp [unlines]
  | cons x xs ih => rw [List.foldl_cons, ih, hstep, List.flatMap_cons, unlines_append, String.append_assoc]

theorem renderHardwareDropin_eq (h : Hardware) (source : String → String) :
    renderHardwareDropin h (some source) = "" ∧ h.pathDirectives source = [] ∨
      renderHardwareDropin h (some source) =
        unlines ("[Service]" :: (h.pathDirectives source ++ h.capabilityDirectives)) := by
  unfold renderHardwareDropin
  split
  · rename_i hnone
    simp only [List.length_eq_zero_iff] at hnone
    exact .inl ⟨rfl, by simp [Hardware.pathDirectives, hnone]⟩
  right
  rw [foldl_write (fun c => ["AmbientCapabilities=CAP_" ++ c, "CapabilityBoundingSet=CAP_" ++ c])
      (fun b c => by simp [unlines, ← String.toList_inj]),
    foldl_write (fun p => ["BindPaths=" ++ source p ++ ":" ++ p]) (fun b p => by simp [unlines, ← String.toList_inj]),
    foldl_write (fun p => ["BindReadOnlyPaths=" ++ p]) (fun b p => by simp [unlines, ← String.toList_inj]),
    foldl_write (fun d => ["DeviceAllow=" ++ d ++ " rw"]) (fun b d => by simp [unlines, ← String.toList_inj])]
  simp [unlines, Hardware.pathDirectives, Hardware.capabilityDirectives, List.map_eq_flatMap, String.append_assoc]

theorem unended_capabilityDirective {m : Manifest} (hchecked : m.Checked) {x : String}
    (hx : x ∈ m.hardware.capabilityDirectives) : unended x = true := by
  simp only [Hardware.capabilityDirectives, List.mem_flatMap, List.mem_cons, List.not_mem_nil, or_false] at hx
  obtain ⟨c, hc, hx⟩ := hx
  have hallowed := hchecked.capabilities c hc
  simp only [allowedCapabilities, List.mem_cons, List.not_mem_nil, or_false] at hallowed
  obtain rfl | rfl := hallowed <;> obtain rfl | rfl := hx <;> decide +kernel

namespace Hardware

variable (R : LineReader) (h : Hardware) (source : String → String)

/-- A path directive that does not stay on its line, if there is one, only repeats lines that the directives of other values
give as well. -/
def EndsRepeat : Prop :=
  ∀ x ∈ h.pathDirectives source, unended x = false →
    ∀ line ∈ R.lines (x ++ "\n"), line ∈ "[Service]" :: (h.pathDirectives source ++ h.capabilityDirectives)

theorem head_directive {x : String} (hx : x ∈ "[Service]" :: (h.pathDirectives source ++ h.capabilityDirectives)) :
    ∃ c ∈ x.toList.head?, endsLine c = false := by
  cases granted_iff.mpr hx with
  | service => exact ⟨'[', rfl, rfl⟩
  | device hd => exact ⟨'D', by simp, rfl⟩
  | readOnly hp => exact ⟨'B', by simp, rfl⟩
  | readWrite hp => exact ⟨'B', by simp, rfl⟩
  | ambient hc => exact ⟨'A', by simp, rfl⟩
  | bounding hc => exact ⟨'C', by simp, rfl⟩

end Hardware

/-- Every line of an accepted module's drop-in grants something declared exactly when no declared path begins a line of its own
inside its value. -/
theorem dropin_granted_iff (R : LineReader) {data : Except String RawManifest} {m : Manifest}
    (hparse : parseManifest data = .ok m) (root : String) :
    (∀ line ∈ R.lines (renderHardwareDropin m.hardware (some (join root))), m.hardware.Granted (join root) line) ↔
      m.hardware.EndsRepeat R (join root) := by
  obtain ⟨hempty, hnone⟩ | hrender := renderHardwareDropin_eq m.hardware (join root)
  · rw [hempty, Hardware.EndsRepeat, hnone, R.lines_empty]
    simp
  rw [hrender, R.lines_unlines fun x hx => m.hardware.head_directive (join root) hx]
  constructor
  · intro hlines x hx _ line hline
    refine Hardware.granted_iff.mp (hlines line (List.mem_flatMap.mpr ⟨x, ?_, hline⟩))
    exact List.mem_cons_of_mem _ (List.mem_append_left _ hx)
  intro hrepeat line hline
  obtain ⟨x, hx, hline⟩ := List.mem_flatMap.mp hline
  rw [Hardware.granted_iff]
  cases hends : unended x with
  | false =>
    obtain rfl | hx := List.mem_cons.mp hx
    · cases hends.symm.trans (by decide +kernel : unended "[Service]" = true)
    · obtain hx | hx := List.mem_append.mp hx
      · exact hrepeat x hx hends line hline
      · cases hends.symm.trans (unended_capabilityDirective (checked_of_parseManifest hparse) hx)
  | true =>
    rw [R.lines_single hends, List.mem_singleton] at hline
    rwa [hline]

def cameraManifest (hardware : Hardware) : RawManifest :=
  { name := "camera", entrypoint := "/usr/bin/camera", hardware }

theorem dropin_granted_iff_camera :
    ∃ m, parseManifest (.ok (cameraManifest { devices := ["/dev/video0"], capabilities := ["SYS_NICE"] })) = .ok m ∧
      ∀ line ∈ LineReader.systemd.lines (renderHardwareDropin m.hardware (some (join "/data"))),
        m.hardware.Granted (join "/data") line := by
  obtain ⟨m, hparse, hhardware⟩ : ∃ m,
      parseManifest (.ok (cameraManifest { devices := ["/dev/video0"], capabilities := ["SYS_NICE"] })) = .ok m ∧
        m.hardware = { devices := ["/dev/video0"], capabilities := ["SYS_NICE"] } := ⟨_, rfl, rfl⟩
  refine ⟨m, hparse, (dropin_granted_iff .systemd hparse "/data").mpr fun x hx hends => ?_⟩
  rw [hhardware] at hx
  obtain rfl : x = "DeviceAllow=/dev/video0 rw" := by simpa [Hardware.pathDirectives] using hx
  exact absurd hends (by decide +kernel)

/-- A device name with the character `e` in it passes the prefix test and writes a line of its choice. -/
def Injects (e : String) : Prop :=
  ∃ m, parseManifest (.ok (cameraManifest { devices := ["/dev/video0 rw" ++ e ++ "User=root" ++ e ++ "#"] })) = .ok m ∧
    "User=root" ∈ LineReader.systemd.lines (renderHardwareDropin m.hardware (some (join "/data"))) ∧
    ¬m.hardware.Granted (join "/data") "User=root"

theorem dropin_injected : Injects "\n" ∧ Injects "\r" ∧ Injects "\x00" := by
  have hrefused : ∀ h : Hardware, ¬h.Granted (join "/data") "User=root" := by
    intro h
    generalize hroot : "User=root" = line
    intro hgranted
    cases hgranted <;> simp [← String.toList_inj] at hroot
  exact ⟨⟨_, rfl, by decide +kernel, hrefused _⟩, ⟨_, rfl, by decide +kernel, hrefused _⟩, ⟨_, rfl, by decide +kernel, hrefused _⟩⟩

end Waypoint.Agent
