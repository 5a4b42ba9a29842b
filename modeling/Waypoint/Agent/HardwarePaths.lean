import Waypoint.Agent.Dropin

/-!
# Where hardware paths lead

The validator tests the paths of a hardware section by string prefixes; here the test is compared with what the paths mean once `.`, `..` and doubled slashes are resolved.
-/

namespace Waypoint.Agent

open Base LexPath

/-- What the allow-lists are for: device nodes of the allowed kinds, the allowed read-only directories, the module's own state directory, and a backing directory below the root. -/
structure Manifest.Confined (m : Manifest) (root : String) : Prop where
  devices : ∀ d ∈ m.hardware.devices, ∃ start ∈ allowedDevicePrefixes, hasPrefix (clean d) start = true
  noUart : ∀ d ∈ m.hardware.devices, hasPrefix (clean d) "/dev/ttyAMA" = false
  readOnly : ∀ p ∈ m.hardware.readOnly, ∃ dir ∈ allowedReadOnlyPaths, Within (ofString dir) (ofString (clean p))
  readWrite : ∀ p ∈ m.hardware.readWrite,
    Within (ofString ("/var/lib/waypoint-module-" ++ m.name)) (ofString (clean p))
  backing : ∀ p ∈ m.hardware.readWrite, Below (ofString root) (ofString (join root p))

/-- No path climbs, by `..`, out of the element in which its prefix ends. -/
structure Manifest.NeverClimbs (m : Manifest) : Prop where
  devices : ∀ d ∈ m.hardware.devices, inside 0 ((fields '/' d).drop 3) = true
  readOnly : ∀ p ∈ m.hardware.readOnly, inside 0 ((fields '/' p).drop 4) = true
  readWrite : ∀ p ∈ m.hardware.readWrite, inside 0 ((fields '/' p).drop 4) = true

/-- The paths begin, element by element, with an allowed directory and with the module's own. -/
structure Manifest.WholeElements (m : Manifest) : Prop where
  readOnly : ∀ p ∈ m.hardware.readOnly, ∃ dir ∈ allowedReadOnlyPaths, fields '/' dir <+: fields '/' p
  readWrite : ∀ p ∈ m.hardware.readWrite, fields '/' ("/var/lib/waypoint-module-" ++ m.name) <+: fields '/' p

theorem names_device {start : String} (hstart : start ∈ allowedDevicePrefixes) : ∃ stem, Names start ["dev"] stem := by
  have hdirs : ∀ e ∈ ["dev"], Plain e := by simp [Plain]
  simp only [allowedDevicePrefixes, List.mem_cons, List.not_mem_nil, or_false] at hstart
  obtain rfl | rfl | rfl | rfl | rfl | rfl := hstart
  · exact ⟨"i2c-", rfl, rfl, hdirs, plain_append (by decide) (by decide)⟩
  · exact ⟨"spidev", rfl, rfl, hdirs, plain_append (by decide) (by decide)⟩
  · exact ⟨"ttyUSB", rfl, rfl, hdirs, plain_append (by decide) (by decide)⟩
  · exact ⟨"ttyACM", rfl, rfl, hdirs, plain_append (by decide) (by decide)⟩
  · exact ⟨"video", rfl, rfl, hdirs, plain_append (by decide) (by decide)⟩
  · exact ⟨"gpiochip", rfl, rfl, hdirs, plain_append (by decide) (by decide)⟩

theorem names_readOnly {start : String} (hstart : start ∈ allowedReadOnlyPaths) :
    ∃ stem, Names start ["sys", "class"] stem := by
  have hdirs : ∀ e ∈ ["sys", "class"], Plain e := by simp [Plain]
  simp only [allowedReadOnlyPaths, List.mem_cons, List.not_mem_nil, or_false] at hstart
  obtain rfl | rfl | rfl := hstart
  · exact ⟨"hwmon", rfl, rfl, hdirs, plain_append (by decide) (by decide)⟩
  · exact ⟨"gpio", rfl, rfl, hdirs, plain_append (by decide) (by decide)⟩
  · exact ⟨"thermal", rfl, rfl, hdirs, plain_append (by decide) (by decide)⟩

theorem names_readWrite : Names "/var/lib/waypoint-module-" ["var", "lib"] "waypoint-module-" :=
  ⟨rfl, rfl, by simp [Plain], plain_append (by decide) (by decide)⟩

theorem not_uart {start s : String} (hstart : start ∈ allowedDevicePrefixes) (hstarts : hasPrefix s start = true) :
    hasPrefix s "/dev/ttyAMA" = false := by
  obtain ⟨rest, rfl⟩ := hasPrefix_iff.mp hstarts
  simp only [allowedDevicePrefixes, List.mem_cons, List.not_mem_nil, or_false] at hstart
  obtain rfl | rfl | rfl | rfl | rfl | rfl := hstart <;> simp [hasPrefix, List.isPrefixOf]

theorem fields_stateDir {name : String} (hname : validModuleName name = true) :
    fields '/' ("/var/lib/waypoint-module-" ++ name) = "" :: (["var", "lib"] ++ ["waypoint-module-" ++ name]) :=
  fields_append (names_readWrite.fields_eq.trans (List.cons_append ..).symm)
    (fields_of_not_mem (not_mem_of_wordRe hname (by decide)))

section OnePath

variable {start stem p : String} {dirs : List String}

theorem hasPrefix_clean (hnames : Names start dirs stem) (hstarts : hasPrefix p start = true)
    (hinside : inside 0 ((fields '/' p).drop (dirs.length + 2)) = true) : hasPrefix (clean p) start = true := by
  obtain ⟨t, tail, hfields⟩ := hnames.fields_of_hasPrefix hstarts
  rw [hfields] at hinside
  obtain ⟨rest, -, hpath⟩ := ofString_absolute hfields hnames.dirs_plain (hnames.stem_plain t) (by simpa using hinside)
  rw [clean, hpath, hnames.written]
  exact hasPrefix_render dirs rest stem t

theorem within_clean_iff {dir name : String} (hnames : Names start dirs stem) (hstarts : hasPrefix p start = true)
    (hinside : inside 0 ((fields '/' p).drop (dirs.length + 2)) = true) (hdir : fields '/' dir = "" :: (dirs ++ [name]))
    (hname : Plain name) : Within (ofString dir) (ofString (clean p)) ↔ fields '/' dir <+: fields '/' p := by
  obtain ⟨t, tail, hfields⟩ := hnames.fields_of_hasPrefix hstarts
  rw [ofString_clean]
  rw [hfields] at hinside
  exact within_iff_fields hdir hname hfields hnames.dirs_plain (hnames.stem_plain t) (by simpa using hinside)

theorem below_join (hnames : Names start dirs stem) (hstarts : hasPrefix p start = true)
    (hinside : inside 0 ((fields '/' p).drop (dirs.length + 2)) = true) {root : String} (hroot : root ≠ "") :
    Below (ofString root) (ofString (join root p)) := by
  obtain ⟨t, tail, hfields⟩ := hnames.fields_of_hasPrefix hstarts
  rw [hfields] at hinside
  obtain ⟨rest, hrest, hfold⟩ := foldl_push_absolute hnames.dirs_plain (hnames.stem_plain t)
    (show inside 0 tail = true by simpa using hinside) (ofString root)
  rw [join, if_pos hroot, ofString_clean, ofString_append hroot, hfields, List.foldl_cons,
    show (ofString root).push "" = ofString root by simp [push], hfold]
  refine ⟨⟨rfl, dirs ++ (stem ++ t) :: rest, ?_, rfl⟩, ?_⟩
  · simp only [List.mem_append, List.mem_cons, not_or]
    exact ⟨fun h => (hnames.dirs_plain _ h).2.2 rfl, fun h => (hnames.stem_plain t).2.2 h.symm, hrest⟩
  · intro h
    simpa using congrArg elements h

end OnePath

/-- Among manifests whose paths do not climb, exactly those whose read-only and read-write paths match the allowed directories by whole elements are confined. -/
theorem paths_confined_iff {data : Except String RawManifest} {m : Manifest} (hparse : parseManifest data = .ok m)
    {root : String} (hroot : root ≠ "") (hclimbs : m.NeverClimbs) : m.Confined root ↔ m.WholeElements := by
  have hchecked := checked_of_parseManifest hparse
  have hreadOnly : ∀ p ∈ m.hardware.readOnly, ∀ dir ∈ allowedReadOnlyPaths,
      (Within (ofString dir) (ofString (clean p)) ↔ fields '/' dir <+: fields '/' p) := by
    intro p hp dir hdir
    obtain ⟨start, hstart, hstarts⟩ := hchecked.readOnly p hp
    obtain ⟨stem, hnames⟩ := names_readOnly hstart
    obtain ⟨name, hdirNames⟩ := names_readOnly hdir
    exact within_clean_iff hnames hstarts (hclimbs.readOnly p hp) hdirNames.fields_eq
      (by simpa using hdirNames.stem_plain "")
  have hstart : ∀ p ∈ m.hardware.readWrite, hasPrefix p "/var/lib/waypoint-module-" = true := by
    intro p hp
    obtain ⟨start, hstart, hstarts⟩ := hchecked.readWrite p hp
    rwa [List.mem_singleton.mp hstart] at hstarts
  have hreadWrite : ∀ p ∈ m.hardware.readWrite,
      (Within (ofString ("/var/lib/waypoint-module-" ++ m.name)) (ofString (clean p)) ↔
        fields '/' ("/var/lib/waypoint-module-" ++ m.name) <+: fields '/' p) := fun p hp =>
    within_clean_iff names_readWrite (hstart p hp) (hclimbs.readWrite p hp) (fields_stateDir hchecked.name)
      (names_readWrite.stem_plain m.name)
  constructor
  · intro hconfined
    refine ⟨fun p hp => ?_, fun p hp => (hreadWrite p hp).mp (hconfined.readWrite p hp)⟩
    obtain ⟨dir, hdir, hwithin⟩ := hconfined.readOnly p hp
    exact ⟨dir, hdir, (hreadOnly p hp dir hdir).mp hwithin⟩
  · intro hwhole
    have hdevices : ∀ d ∈ m.hardware.devices, ∃ start ∈ allowedDevicePrefixes, hasPrefix (clean d) start = true := by
      intro d hd
      obtain ⟨start, hstart, hstarts⟩ := hchecked.devices d hd
      obtain ⟨stem, hnames⟩ := names_device hstart
      exact ⟨start, hstart, hasPrefix_clean hnames hstarts (hclimbs.devices d hd)⟩
    refine ⟨hdevices, fun d hd => ?_, fun p hp => ?_, fun p hp => ?_, fun p hp => ?_⟩
    · obtain ⟨start, hstart, hstarts⟩ := hdevices d hd
      exact not_uart hstart hstarts
    · obtain ⟨dir, hdir, hstarts⟩ := hwhole.readOnly p hp
      exact ⟨dir, hdir, (hreadOnly p hp dir hdir).mpr hstarts⟩
    · exact (hreadWrite p hp).mpr (hwhole.readWrite p hp)
    · exact below_join names_readWrite (hstart p hp) (hclimbs.readWrite p hp) hroot

def cameraHardware : Hardware where
  devices := ["/dev/video0", "/dev/i2c-1"]
  readOnly := ["/sys/class/hwmon/hwmon0"]
  readWrite := ["/var/lib/waypoint-module-camera"]

theorem paths_confined_iff_camera :
    ∃ m, parseManifest (.ok (cameraManifest cameraHardware)) = .ok m ∧ m.NeverClimbs ∧
      m.Confined "/data/waypoint/module-state" := by
  obtain ⟨m, hparse, hname, hhardware⟩ : ∃ m, parseManifest (.ok (cameraManifest cameraHardware)) = .ok m ∧
      m.name = "camera" ∧ m.hardware = cameraHardware := ⟨_, rfl, rfl, rfl⟩
  have hclimbs : m.NeverClimbs := by constructor <;> rw [hhardware] <;> decide
  refine ⟨m, hparse, hclimbs, (paths_confined_iff hparse (by decide) hclimbs).mpr ⟨?_, ?_⟩⟩
  · rw [hhardware]
    decide
  · rw [hhardware, hname]
    decide

/-- Accepted paths that lead to the servo UART, to a sibling of an allowed directory, to another module's state and, for the backing directory, out of the root. -/
theorem paths_not_confined :
    ∃ m, parseManifest (.ok (cameraManifest {
        devices := ["/dev/i2c-1/../ttyAMA0"]
        readOnly := ["/sys/class/gpio-private"]
        readWrite := ["/var/lib/waypoint-module-other", "/var/lib/waypoint-module-camera/../../../../../../etc"] })) =
        .ok m ∧
      clean "/dev/i2c-1/../ttyAMA0" = "/dev/ttyAMA0" ∧
      join "/data/waypoint/module-state" "/var/lib/waypoint-module-camera/../../../../../../etc" = "/etc" ∧
      ¬m.Confined "/data/waypoint/module-state" := by
  refine ⟨_, rfl, by decide +kernel, by decide +kernel, fun hconfined => ?_⟩
  have huart := hconfined.noUart "/dev/i2c-1/../ttyAMA0" List.mem_cons_self
  exact absurd huart (by decide +kernel)

end Waypoint.Agent
