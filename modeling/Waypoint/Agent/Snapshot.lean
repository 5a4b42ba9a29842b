import Mathlib.Data.List.Sort
import Mathlib.Logic.Function.Basic
import Waypoint.Agent.Manifest
import Waypoint.Base.Subject

/-!
# The module snapshot

What a rover tells the fleet about its modules.
-/

namespace Waypoint.Agent

open Base

structure RoverModuleConfig where
  id : String
  enable : Bool

def Manifest.Accepted (m : Manifest) : Prop := ∃ data, parseManifest data = .ok m

def addManifest (out : String → Option Manifest) (entry : String × Except String (Except String RawManifest)) :
    Except String (String → Option Manifest) := do
  let data ← entry.2.mapError ("modules: read " ++ entry.1.quote ++ ": " ++ ·)
  let m ← (parseManifest data).mapError ("modules: " ++ entry.1.quote ++ ": " ++ ·)
  return Function.update out m.name (some m)

def readManifests (entries : List (String × Except String (Except String RawManifest))) :
    Except String (String → Option Manifest) :=
  entries.foldlM addManifest fun _ => none

def discover (entries : List (String × Except String (Except String RawManifest)))
    (rover : Except String (List RoverModuleConfig)) : Except String (List Manifest) := do
  let manifests ← readManifests entries
  let modules ← rover
  return (modules.filter (·.enable)).filterMap fun r => manifests r.id

variable {entries : List (String × Except String (Except String RawManifest))}

theorem readManifests_accepted
    {manifests : String → Option Manifest} (h : readManifests entries = .ok manifests) :
    ∀ name m, manifests name = some m → m.name = name ∧ m.Accepted := by
  refine foldlM_invariant (fun out => ∀ name m, out name = some m → m.name = name ∧ m.Accepted) ?_ entries ?_ h
  · intro out entry out' hout hadd name m hm
    simp only [addManifest, bind_eq_ok, mapError_eq_ok] at hadd
    obtain ⟨data, -, added, hparse, hadd⟩ := hadd
    cases hadd
    by_cases hname : name = added.name
    · rw [hname, Function.update_self] at hm
      cases hm
      exact ⟨hname.symm, data, hparse⟩
    · rw [Function.update_of_ne hname] at hm
      exact hout name m hm
  · exact fun name m hm => (by cases hm)

theorem discover_spec
    {rover : Except String (List RoverModuleConfig)} {specs : List Manifest} (h : discover entries rover = .ok specs) :
    (∀ m ∈ specs, m.Accepted) ∧ ∀ m ∈ specs, ∀ m' ∈ specs, m.name = m'.name → m = m' := by
  simp only [discover, bind_eq_ok] at h
  obtain ⟨manifests, hread, modules, -, h⟩ := h
  cases h
  have hspec : ∀ m ∈ (modules.filter (·.enable)).filterMap (fun r => manifests r.id),
      manifests m.name = some m ∧ m.Accepted := by
    intro m hm
    obtain ⟨r, -, hr⟩ := List.mem_filterMap.mp hm
    obtain ⟨hname, haccepted⟩ := readManifests_accepted hread r.id m hr
    exact ⟨hname ▸ hr, haccepted⟩
  refine ⟨fun m hm => (hspec m hm).2, fun m hm m' hm' hname => ?_⟩
  have hsame := (hspec m hm).1
  rw [hname, (hspec m' hm').1] at hsame
  exact (Option.some.inj hsame).symm

inductive ModuleOrigin
  | unspecified
  | fromProxy
  | fromLocal

inductive ModuleUIKind
  | unspecified
  | static
  | proxy

structure ModuleUI where
  kind : ModuleUIKind
  tabID : String
  lanOnly : Bool
  teleop : Option TeleopWindowBinding

structure ModuleInfo where
  id : String
  label : String := ""
  version : String := ""
  tabID : String := ""
  healthy : Bool := false
  ui : Option ModuleUI := none
  origin : ModuleOrigin := .unspecified
  component : Option Component := none
  components : List Component := []
  configFields : List ConfigField := []
  lastSeen : Option Nat := none

structure ModuleSnapshot where
  t : Nat := 0
  modules : List ModuleInfo

/-- A module with a teleop window and no tab still needs an entry for its window. -/
def uiToProto (ui : UIBinding) : Option ModuleUI :=
  if ui.kind = .none ∧ ui.teleop = none then none
  else
    some {
      kind := match ui.kind with
        | .none => .unspecified
        | .static => .static
        | .proxy => .proxy
      tabID := ui.tabID, lanOnly := ui.lanOnly, teleop := ui.teleop }

/-- The first component also fills the field of agents that knew only one. -/
def manifestToInfo (m : Manifest) (healthy : Bool) (origin : ModuleOrigin) : ModuleInfo :=
  { id := m.name, label := m.label, version := m.version, tabID := m.ui.tabID, healthy, ui := uiToProto m.ui, origin
    component := m.components.head?, components := m.components, configFields := m.configFields }

structure RuntimeModule where
  manifest : Manifest
  origin : ModuleOrigin

/-- The publisher's maps, and what holds of the manifests in them. Times are in nanoseconds. -/
structure SnapshotPublisher where
  roverID : String
  specs : List Manifest
  healthy : String → Bool := fun _ => false
  lastSeen : String → Option Nat := fun _ => none
  runtime : List (String × RuntimeModule) := []
  specs_accepted : ∀ m ∈ specs, m.Accepted
  specs_agree : ∀ m ∈ specs, ∀ m' ∈ specs, m.name = m'.name → m = m'
  runtime_accepted : ∀ e ∈ runtime, e.2.manifest.Accepted
  runtime_keys : (runtime.map Prod.fst).Nodup

namespace SnapshotPublisher

def subject (p : SnapshotPublisher) : String := "waypoint." ++ p.roverID ++ ".infra.modules"

def newSnapshotPublisher (roverID : String) {entries : List (String × Except String (Except String RawManifest))}
    {rover : Except String (List RoverModuleConfig)} {specs : List Manifest} (h : discover entries rover = .ok specs) :
    SnapshotPublisher :=
  { roverID, specs, specs_accepted := (discover_spec h).1, specs_agree := (discover_spec h).2
    runtime_accepted := fun _ he => absurd he List.not_mem_nil, runtime_keys := List.nodup_nil }

def setHealth (p : SnapshotPublisher) (moduleID : String) (healthy : Bool) (now : Nat) : SnapshotPublisher :=
  { p with
    healthy := Function.update p.healthy moduleID healthy
    lastSeen := if healthy then Function.update p.lastSeen moduleID (some now) else p.lastSeen }

theorem nodup_filter_keys {l : List (String × RuntimeModule)} (h : (l.map Prod.fst).Nodup) (id : String) :
    ((l.filter (·.1 ≠ id)).map Prod.fst).Nodup :=
  h.sublist (List.filter_sublist.map Prod.fst)

def setRuntimeModule (p : SnapshotPublisher) (id : String) (m : Manifest) (hm : m.Accepted) (origin : ModuleOrigin) :
    SnapshotPublisher :=
  { p with
    runtime := (id, ⟨m, origin⟩) :: p.runtime.filter (·.1 ≠ id)
    runtime_accepted := List.forall_mem_cons.mpr
      ⟨hm, fun e he => p.runtime_accepted e (List.mem_of_mem_filter he)⟩
    runtime_keys := List.nodup_cons.mpr ⟨by simp, nodup_filter_keys p.runtime_keys id⟩ }

def removeRuntimeModule (p : SnapshotPublisher) (id : String) : SnapshotPublisher :=
  { p with
    runtime := p.runtime.filter (·.1 ≠ id)
    healthy := Function.update p.healthy id false
    lastSeen := Function.update p.lastSeen id none
    runtime_accepted := fun e he => p.runtime_accepted e (List.mem_of_mem_filter he)
    runtime_keys := nodup_filter_keys p.runtime_keys id }

def entry (p : SnapshotPublisher) (id : String) (m : Manifest) (origin : ModuleOrigin) : ModuleInfo :=
  { manifestToInfo m (p.healthy id) origin with id, lastSeen := p.lastSeen id }

def buildSnapshot (p : SnapshotPublisher) (now : Nat) : ModuleSnapshot :=
  let baked := p.specs.filter fun m => (p.runtime.lookup m.name).isNone
  let attached := (p.runtime.map Prod.fst).insertionSort (· ≤ ·)
  { t := now
    modules := baked.map (fun m => p.entry m.name m .unspecified) ++
      attached.filterMap fun id => (p.runtime.lookup id).map fun rm => p.entry id rm.manifest rm.origin }

/-- The snapshot lists the module with this manifest. -/
def Shows (p : SnapshotPublisher) (id : String) (m : Manifest) : Prop :=
  (m ∈ p.specs ∧ p.runtime.lookup m.name = none ∧ m.name = id) ∨ ∃ origin, p.runtime.lookup id = some ⟨m, origin⟩

variable {p : SnapshotPublisher} {id : String} {m : Manifest}

theorem Shows.unique {m' : Manifest} (h : p.Shows id m) (h' : p.Shows id m') :
    m = m' := by
  rcases h with ⟨hm, hhidden, rfl⟩ | ⟨origin, hm⟩
  · rcases h' with ⟨hm', -, hname⟩ | ⟨origin, hm'⟩
    · exact p.specs_agree m hm m' hm' hname.symm
    · rw [hhidden] at hm'
      cases hm'
  · rcases h' with ⟨-, hhidden, rfl⟩ | ⟨origin', hm'⟩
    · rw [hhidden] at hm
      cases hm
    · rw [hm] at hm'
      cases hm'
      rfl

theorem shows_of_mem {now : Nat} {info : ModuleInfo} (h : info ∈ (p.buildSnapshot now).modules) :
    ∃ m origin, p.Shows info.id m ∧ info = p.entry info.id m origin := by
  rcases List.mem_append.mp h with h | h
  · obtain ⟨m, hm, rfl⟩ := List.mem_map.mp h
    rw [List.mem_filter, Option.isNone_iff_eq_none] at hm
    exact ⟨m, .unspecified, .inl ⟨hm.1, hm.2, rfl⟩, rfl⟩
  · obtain ⟨id, -, hid⟩ := List.mem_filterMap.mp h
    obtain ⟨rm, hlookup, rfl⟩ := Option.map_eq_some_iff.mp hid
    exact ⟨rm.manifest, rm.origin, .inr ⟨rm.origin, hlookup⟩, rfl⟩

theorem mem_of_shows (h : p.Shows id m) (now : Nat) :
    ∃ origin, p.entry id m origin ∈ (p.buildSnapshot now).modules := by
  rcases h with ⟨hm, hhidden, rfl⟩ | ⟨origin, hlookup⟩
  · refine ⟨.unspecified, List.mem_append_left _ (List.mem_map.mpr ⟨m, ?_, rfl⟩)⟩
    rw [List.mem_filter, Option.isNone_iff_eq_none]
    exact ⟨hm, hhidden⟩
  refine ⟨origin, List.mem_append_right _ (List.mem_filterMap.mpr ⟨id, ?_, ?_⟩)⟩
  · obtain ⟨before, after, hruntime, -⟩ := List.lookup_eq_some_iff.mp hlookup
    rw [List.mem_insertionSort, hruntime]
    simp
  · rw [hlookup]
    rfl

end SnapshotPublisher

end Waypoint.Agent
