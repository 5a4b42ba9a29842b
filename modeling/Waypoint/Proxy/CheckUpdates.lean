import Mathlib.Data.List.Sort
import Waypoint.Proxy.DesiredPush
import Waypoint.Proxy.Register

/-!
# Checking for updates

`CheckModule` of `modules/checkupdates.go`.
-/

namespace Waypoint.Proxy

open Base Agent

structure GitHubAsset where
  name : String
  url : String

structure GitHubRelease where
  tagName : String
  assets : List GitHubAsset := []

def trimStart (c : Char) (s : String) : String :=
  match s.toList with
  | [] => s
  | d :: cs => if d = c then String.ofList cs else s

def GitHubRelease.version (rel : GitHubRelease) : String := trimStart 'v' rel.tagName

structure AssetURLs where
  manifest : String := ""
  raw : String := ""
  sig : String := ""

inductive FleetEvent
  | desired (roverID moduleID version : String)
  | pushed (roverID : String) (set : List ModuleDesired)

/-- The registry, the `auto_update` column of `rover_module_state`, and what has been done to the rovers, the latest in front. -/
structure Fleet where
  registry : RegistryStore := {}
  autoUpdate : String × String → Bool := fun _ => false
  log : List FleetEvent := []

structure RoverModuleRow where
  roverID : String
  desiredVersion : String
  autoUpdate : Bool

structure CheckUpdater where
  api : RegisterAPI
  /-- none if there is no pusher: then a push is not made, and is not an error -/
  pusher : Option DesiredPusher
  assetBase : String := ""
  collate : String → String → Bool := fun a b => decide (a ≤ b)

structure ReleaseAnswers where
  manifest : String → Except String (List UInt8)
  raw : String → Except String (List UInt8)
  bundle : String → Except String (List UInt8)
  put : Option String := none
  cacheStaticTree : Option String := none
  ingestVersion : Option String := none

/-- What the calls of one check answer; a fault is the text of its error. -/
structure CheckAnswers where
  getModule : Option String := none
  /-- how many rows `ListVersions` has read when it fails -/
  listVersions : Option Nat := none
  listReleases : Except String (List GitHubRelease)
  release : String → ReleaseAnswers
  roversForModule : Option String := none
  setDesiredVersion : String → Option String := fun _ => none
  setAutoUpdate : String → Option String := fun _ => none
  push : String → Option String := fun _ => none
  /-- the modules whose versions the push to a rover cannot list -/
  unlisted : String → List String := fun _ => []

structure CheckResult where
  ingested : List String := []
  latest : String := ""
  autoUpdatedRovers : List String := []
  deriving DecidableEq

/-- A check that stops with an error leaves what it has done. -/
abbrev Checking := ExceptT String (StateM Fleet)

/-! ### The repository -/

namespace Fleet

def versions (s : Fleet) (moduleID : String) : List String := (s.registry.repo.listVersions moduleID).map (·.1)

def desiredVersion (s : Fleet) (roverID moduleID : String) : Option String :=
  (s.registry.repo.desired.lookup (roverID, moduleID)).map (·.desiredVersion)

def roversForModule (s : Fleet) (collate : String → String → Bool) (moduleID : String) : List RoverModuleRow :=
  (s.registry.repo.desired.entries.filterMap fun e =>
    if e.1.2 = moduleID then some ⟨e.1.1, e.2.desiredVersion, s.autoUpdate e.1⟩ else none).insertionSort
      fun a b => collate a.roverID b.roverID = true

def setAutoUpdate (s : Fleet) (roverID moduleID : String) (auto : Bool) : Fleet :=
  if (roverID, moduleID) ∈ s.registry.repo.desired then
    { s with autoUpdate := Function.update s.autoUpdate (roverID, moduleID) auto }
  else s

def setDesiredVersion (roverID moduleID version : String) (s : Fleet) : Option Fleet :=
  (s.registry.repo.setDesiredVersion roverID moduleID version).map fun repo =>
    { s with
      registry := { s.registry with repo := repo }
      log := .desired roverID moduleID version :: s.log }

def ingestVersion (moduleID ver : String) (row : VersionRow) (s : Fleet) : Option Fleet :=
  (s.registry.repo.ingestVersion moduleID ver row).map fun repo => { s with registry := { s.registry with repo := repo } }

end Fleet

def call (fault : Option String) : Checking Unit := MonadExcept.ofExcept (RegisterAPI.orFault fault ())

def write (change : Fleet → Option Fleet) : Checking Unit := do
  match change (← get) with
  | none => throw "violates foreign key constraint"
  | some s => set s

/-! ### Releases -/

namespace CheckUpdater

variable (u : CheckUpdater)

def parseOwnerRepo (repoURL : String) : Except String (String × String) :=
  match u.api.parseURL repoURL with
  | none => .error "github: repo must be an https://github.com URL"
  | some url =>
    if url.host ≠ "github.com" then .error "github: repo must be an https://github.com URL"
    else
      match fields '/' (String.ofList (trimSlashes url.path.toList)) with
      | [owner, repo] =>
        if owner = "" ∨ repo = "" then .error "github: expected github.com/<owner>/<repo>" else .ok (owner, repo)
      | _ => .error "github: expected github.com/<owner>/<repo>"

def asset (url : String) : String :=
  if u.assetBase ≠ "" ∧ hasPrefix url "http" = false then u.assetBase ++ "/" ++ trimStart '/' url else url

def pick (urls : AssetURLs) (a : GitHubAsset) : AssetURLs :=
  if a.name = "manifest.json" then { urls with manifest := u.asset a.url }
  else if (cutSuffix a.name ".raw.cosign").isSome then { urls with sig := u.asset a.url }
  else if (cutSuffix a.name ".raw").isSome then { urls with raw := u.asset a.url }
  else urls

/-- The part of `ingestRelease` before anything is stored: the manifest's bytes and the verified image. -/
def fetchRelease (expectedSAN ver : String) (rel : GitHubRelease) (ans : ReleaseAnswers) :
    Except String (List UInt8 × Image) := do
  let urls := rel.assets.foldl u.pick {}
  require (urls.manifest ≠ "" ∧ urls.raw ≠ "" ∧ urls.sig ≠ "")
    ("release " ++ ver ++ " missing manifest/raw/cosign asset")
  let manBytes ← ans.manifest urls.manifest
  let manifest ← u.api.parseManifest manBytes
  require (manifest.version = ver)
    ("manifest version " ++ manifest.version.quote ++ " does not match release tag " ++ ver.quote)
  let rawBytes ← ans.raw urls.raw
  let sigBytes ← ans.bundle urls.sig
  let _ ← (u.api.verify rawBytes sigBytes expectedSAN).mapError ("verify: " ++ ·)
  return (manBytes, rawBytes)

def put (moduleID ver : String) (raw : Image) (s : Fleet) : Fleet :=
  { s with registry := { s.registry with
      blobs := Function.update s.registry.blobs (blobPath u.api.root moduleID ver) (some raw) } }

def ingestRelease (moduleID : String) (mod : ModuleRow) (ver : String) (rel : GitHubRelease) (ans : ReleaseAnswers) :
    Checking Unit := do
  let release ← MonadExcept.ofExcept (u.fetchRelease mod.expectedIdentitySAN ver rel ans)
  call ans.put
  modify (u.put moduleID ver release.2)
  call (ans.cacheStaticTree.map ("cache static tree: " ++ ·))
  call ans.ingestVersion
  write (Fleet.ingestVersion moduleID ver {
    rawPath := blobPath u.api.root moduleID ver
    rawSha256 := u.api.sha256 release.2
    manifestJSON := release.1 })

def ingestNew [Semver] (moduleID : String) (mod : ModuleRow) (ans : String → ReleaseAnswers) :
    List GitHubRelease → List String → Checking (List String)
  | [], _ => pure []
  | rel :: rels, known =>
    if rel.version ∈ known ∨ isNewerVersion rel.version known = false then ingestNew moduleID mod ans rels known
    else do
      wrapError (fun e => "ingest " ++ rel.version ++ ": " ++ e)
        (u.ingestRelease moduleID mod rel.version rel (ans rel.version))
      let later ← ingestNew moduleID mod ans rels (known ++ [rel.version])
      return rel.version :: later

/-! ### Rovers -/

def push (roverID : String) (fault : Option String) (unlisted : List String) : Checking Unit :=
  match u.pusher with
  | none => pure ()
  | some p => do
      call fault
      modify fun s =>
        let set := p.assemble roverID s.registry.repo unlisted (s.registry.repo.desiredForRover roverID)
        { s with log := .pushed roverID set :: s.log }

def bump (moduleID latest : String) (ans : CheckAnswers) (rm : RoverModuleRow) : Checking Unit :=
  if rm.autoUpdate = false ∨ rm.desiredVersion = latest then pure ()
  else do
    call (ans.setDesiredVersion rm.roverID)
    write (Fleet.setDesiredVersion rm.roverID moduleID latest)
    -- the error of `SetAutoUpdate` is dropped
    modify fun s => if ans.setAutoUpdate rm.roverID = none then s.setAutoUpdate rm.roverID moduleID true else s
    u.push rm.roverID (ans.push rm.roverID) (ans.unlisted rm.roverID)

end CheckUpdater

def later [Semver] (latest v : String) : String := if latest = "" ∨ isNewerVersion v [latest] = true then v else latest

def latestOf [Semver] (known : List String) : String := known.foldl later ""

/-- The versions that the check knows of; the error of `ListVersions` is dropped. -/
def CheckAnswers.known (ans : CheckAnswers) (s : Fleet) (moduleID : String) : List String :=
  match ans.listVersions with
  | none => s.versions moduleID
  | some n => (s.versions moduleID).take n

namespace CheckUpdater

variable (u : CheckUpdater)

/-- The loop over the rovers, which returns only if every rover that is not skipped has been bumped. -/
def autoUpdate (moduleID latest : String) (ans : CheckAnswers) : Checking (List String) := do
  call ans.roversForModule
  let rovers := (← get).roversForModule u.collate moduleID
  forM rovers (u.bump moduleID latest ans)
  return (rovers.filter fun rm => rm.autoUpdate && decide (rm.desiredVersion ≠ latest)).map (·.roverID)

/-- The README, which is refreshed on the way and read by nothing here, is left out. -/
def checkModule [Semver] (moduleID : String) (ans : CheckAnswers) : Checking CheckResult := do
  call ans.getModule
  let s ← get
  let mod ← MonadExcept.ofExcept ((s.registry.repo.getModule moduleID).elim (.error "no rows in result set") .ok)
  let _ ← MonadExcept.ofExcept (u.parseOwnerRepo mod.sourceRepoURL)
  let known := ans.known s moduleID
  let releases ← MonadExcept.ofExcept ans.listReleases
  let ingested ← u.ingestNew moduleID mod ans.release releases known
  let latest := latestOf (known ++ ingested)
  if ingested ≠ [] ∧ latest ≠ "" then do
    let bumped ← u.autoUpdate moduleID latest ans
    return { ingested := ingested, latest := latest, autoUpdatedRovers := bumped }
  else return { ingested := ingested, latest := latest }

end CheckUpdater

/-! ### Calls and writes -/

variable {s t : Fleet} {moduleID v : String} {rels : List GitHubRelease} {known : List String}

variable {x : Unit} {change : Fleet → Option Fleet} {roverID version latest : String}

theorem returns_call_iff {fault : Option String} : Returns (call fault) s x t ↔ fault = none ∧ t = s := by
  refine returns_ofExcept_iff.trans (and_congr_left fun _ => ?_)
  cases fault with
  | none => exact ⟨fun _ => rfl, fun _ => rfl⟩
  | some e => exact ⟨fun h => (by cases h), fun h => (by cases h)⟩

theorem run_write (change : Fleet → Option Fleet) (s : Fleet) :
    (write change).run.run s =
      match change s with
      | none => (.error "violates foreign key constraint", s)
      | some t => (.ok (), t) := by
  change (match change s with | none => throw _ | some t => set t : Checking Unit).run.run s = _
  cases change s <;> rfl

theorem returns_write_iff :
    Returns (write change) s x t ↔ change s = some t := by
  unfold Returns
  rw [run_write]
  cases change s with
  | none => exact ⟨fun h => (by cases h), fun h => (by cases h)⟩
  | some t' => exact ⟨fun h => (by cases h; rfl), fun h => (by cases h; rfl)⟩

theorem keeps_write {r : Fleet → Fleet → Prop} [Std.Refl r]
    (h : ∀ s t, change s = some t → r s t) : Keeps r (write change).run := by
  intro s
  rw [run_write]
  cases hchange : change s with
  | none => exact refl_of r s
  | some t => exact h s t hchange

theorem ingestVersion_eq_some {ver : String} {row : VersionRow}
    (h : s.ingestVersion moduleID ver row = some t) :
    t = { s with registry := { s.registry with repo := { s.registry.repo with
      versions := s.registry.repo.versions.insertOrIgnore (moduleID, ver) row } } } := by
  obtain ⟨repo, hrepo, rfl⟩ := Option.map_eq_some_iff.mp h
  rw [s.registry.repo.ingestVersion_eq_some hrepo]

theorem setDesiredVersion_eq_some
    (h : s.setDesiredVersion roverID moduleID version = some t) :
    ∃ config, t = { s with
      registry := { s.registry with repo := { s.registry.repo with
        desired := s.registry.repo.desired.insert (roverID, moduleID) ⟨version, config⟩ } }
      log := .desired roverID moduleID version :: s.log } := by
  obtain ⟨repo, hrepo, rfl⟩ := Option.map_eq_some_iff.mp h
  obtain ⟨-, hrepo⟩ := Option.ite_none_right_eq_some.mp hrepo
  cases hrepo
  exact ⟨_, rfl⟩

/-! ### Where the writes of a check stay

A relation between states that admits the single writes admits the loops made of them, wherever they stop. -/

/-- The relation admits what is written for a release of the module. -/
structure CheckUpdater.IngestsWithin (u : CheckUpdater) (moduleID : String) (r : Fleet → Fleet → Prop) : Prop where
  put : ∀ ver raw s, r s (u.put moduleID ver raw s)
  write : ∀ ver row s t, s.ingestVersion moduleID ver row = some t → r s t

/-- The relation admits what is written and sent for a rover with the module. -/
structure BumpsWithin (moduleID : String) (r : Fleet → Fleet → Prop) : Prop where
  write : ∀ roverID version s t, s.setDesiredVersion roverID moduleID version = some t → r s t
  setAutoUpdate : ∀ roverID s, r s (s.setAutoUpdate roverID moduleID true)
  pushed : ∀ roverID set s, r s { s with log := .pushed roverID set :: s.log }

namespace CheckUpdater

variable {u : CheckUpdater} {moduleID : String} {r : Fleet → Fleet → Prop} [Std.Refl r] [IsTrans Fleet r]

theorem keeps_ingestRelease (h : u.IngestsWithin moduleID r) (mod : ModuleRow) (ver : String) (rel : GitHubRelease)
    (ans : ReleaseAnswers) : Keeps r (u.ingestRelease moduleID mod ver rel ans).run := by
  refine keeps_then (keeps_ofExcept _) fun release => keeps_then (keeps_ofExcept _) fun _ => ?_
  refine keeps_then (keeps_modify (h.put ver release.2)) fun _ => keeps_then (keeps_ofExcept _) fun _ => ?_
  exact keeps_then (keeps_ofExcept _) fun _ => keeps_write (h.write ver _)

theorem keeps_ingestNew [Semver] (h : u.IngestsWithin moduleID r) (mod : ModuleRow) (ans : String → ReleaseAnswers)
    (rels : List GitHubRelease) (known : List String) : Keeps r (u.ingestNew moduleID mod ans rels known).run := by
  induction rels generalizing known with
  | nil => exact keeps_ok _
  | cons rel rels ih =>
    unfold ingestNew
    split
    · exact ih known
    · exact keeps_then (keeps_wrapError (keeps_ingestRelease h _ _ _ _)) fun _ => keeps_then (ih _) fun _ => keeps_ok _

theorem keeps_push (h : BumpsWithin moduleID r) (roverID : String) (fault : Option String) (unlisted : List String) :
    Keeps r (u.push roverID fault unlisted).run := by
  unfold push
  cases u.pusher with
  | none => exact keeps_ok _
  | some p => exact keeps_then (keeps_ofExcept _) fun _ => keeps_modify fun s => h.pushed roverID _ s

theorem keeps_bump (h : BumpsWithin moduleID r) (latest : String) (ans : CheckAnswers) (rm : RoverModuleRow) :
    Keeps r (u.bump moduleID latest ans rm).run := by
  unfold bump
  split
  · exact keeps_ok _
  refine keeps_then (keeps_ofExcept _) fun _ => keeps_then (keeps_write (h.write rm.roverID latest)) fun _ => ?_
  refine keeps_then (keeps_modify fun s => ?_) fun _ => keeps_push h _ _ _
  split
  · exact h.setAutoUpdate rm.roverID s
  · exact refl_of r s

theorem keeps_autoUpdate (h : BumpsWithin moduleID r) (latest : String) (ans : CheckAnswers) :
    Keeps r (u.autoUpdate moduleID latest ans).run := by
  refine keeps_then (keeps_ofExcept _) fun _ => keeps_then keeps_get fun s => ?_
  exact keeps_then (keeps_each _ fun rm _ => keeps_bump h latest ans rm) fun _ => keeps_ok _

theorem keeps_checkModule [Semver] (hingests : u.IngestsWithin moduleID r) (hbumps : BumpsWithin moduleID r) (ans : CheckAnswers) :
    Keeps r (u.checkModule moduleID ans).run := by
  refine keeps_then (keeps_ofExcept _) fun _ => keeps_then keeps_get fun s => keeps_then (keeps_ofExcept _) fun mod => ?_
  refine keeps_then (keeps_ofExcept _) fun _ => keeps_then (keeps_ofExcept _) fun releases => ?_
  refine keeps_then (keeps_ingestNew hingests _ _ _ _) fun ingested => ?_
  dsimp only
  split
  · exact keeps_then (keeps_autoUpdate hbumps _ _) fun _ => keeps_ok _
  · exact keeps_ok _

end CheckUpdater

/-- Nothing was done to the rovers. -/
structure Untouched (s t : Fleet) : Prop where
  desired : t.registry.repo.desired = s.registry.repo.desired
  autoUpdate : t.autoUpdate = s.autoUpdate
  log : t.log = s.log

instance : Std.Refl Untouched := ⟨fun _ => ⟨rfl, rfl, rfl⟩⟩

instance : IsTrans Fleet Untouched :=
  ⟨fun _ _ _ h h' => ⟨h'.desired.trans h.desired, h'.autoUpdate.trans h.autoUpdate, h'.log.trans h.log⟩⟩

theorem CheckUpdater.ingestsWithin_untouched (u : CheckUpdater) (moduleID : String) : u.IngestsWithin moduleID Untouched where
  put _ _ _ := ⟨rfl, rfl, rfl⟩
  write ver row s t h := by
    rw [ingestVersion_eq_some h]
    exact ⟨rfl, rfl, rfl⟩

/-! ### What a check ingests -/

def newVersions [Semver] : List GitHubRelease → List String → List String
  | [], _ => []
  | rel :: rels, known =>
    if isNewerVersion rel.version known = true then rel.version :: newVersions rels (known ++ [rel.version])
    else newVersions rels known

theorem newVersions_eq_nil_iff [Semver] :
    newVersions rels known = [] ↔ ∀ rel ∈ rels, isNewerVersion rel.version known = false := by
  induction rels with
  | nil => simp [newVersions]
  | cons rel rels ih =>
    rw [newVersions, List.forall_mem_cons]
    by_cases hnewer : isNewerVersion rel.version known = true
    · simp [hnewer]
    · rw [if_neg hnewer, ih, Bool.not_eq_true] at *
      simp [hnewer]

theorem isValid_of_mem_newVersions [Semver]
    (h : v ∈ newVersions rels known) : Semver.isValid (canon v) = true := by
  induction rels generalizing known with
  | nil => cases h
  | cons rel rels ih =>
    unfold newVersions at h
    split at h
    · rename_i hnewer
      rcases List.mem_cons.mp h with rfl | h
      · exact (Bool.and_eq_true_iff.mp hnewer).1
      · exact ih h
    · exact ih h

theorem CheckUpdater.returns_ingestNew [Semver] {u : CheckUpdater} {mod : ModuleRow}
    {ans : String → ReleaseAnswers} {ingested : List String}
    (h : Returns (u.ingestNew moduleID mod ans rels known) s ingested t) : ingested = newVersions rels known := by
  induction rels generalizing known ingested s t with
  | nil => exact (returns_ok_iff.mp h).1
  | cons rel rels ih =>
    unfold newVersions
    unfold ingestNew at h
    by_cases hnewer : isNewerVersion rel.version known = true
    · rw [if_neg (by simp [hnewer, not_mem_of_isNewerVersion hnewer])] at h
      obtain ⟨_, m, -, h⟩ := returns_then_iff.mp h
      obtain ⟨later, m', hlater, h⟩ := returns_then_iff.mp h
      rw [if_pos hnewer, (returns_ok_iff.mp h).1, ih hlater]
    · rw [if_pos (.inr (Bool.not_eq_true _ ▸ hnewer))] at h
      rw [if_neg hnewer, ih h]

/-! ### The newest version -/

theorem not_isValid_empty [Semver] : Semver.isValid (canon "") = false := Semver.not_isValid_v

theorem ne_empty_of_isValid [Semver] (h : Semver.isValid (canon v) = true) : v ≠ "" := by
  rintro rfl
  rw [not_isValid_empty] at h
  cases h

theorem later_ne_empty [Semver] (h : latest ≠ "" ∨ Semver.isValid (canon v) = true) : later latest v ≠ "" := by
  unfold later
  by_cases hnewer : isNewerVersion v [latest] = true
  · rw [if_pos (.inr hnewer)]
    exact ne_empty_of_isValid (Bool.and_eq_true_iff.mp hnewer).1
  by_cases hlatest : latest = ""
  · rw [if_pos (.inl hlatest)]
    exact ne_empty_of_isValid (h.resolve_left (not_not_intro hlatest))
  · rwa [if_neg (not_or.mpr ⟨hlatest, hnewer⟩)]

theorem foldl_later_ne_empty [Semver] (h : latest ≠ "") (known : List String) : known.foldl later latest ≠ "" := by
  induction known generalizing latest with
  | nil => exact h
  | cons v known ih => exact ih (later_ne_empty (.inl h))

theorem latestOf_ne_empty [Semver] (hv : v ∈ known) (hvalid : Semver.isValid (canon v) = true) :
    latestOf known ≠ "" := by
  obtain ⟨before, after, rfl⟩ := List.append_of_mem hv
  rw [latestOf, List.foldl_append, List.foldl_cons]
  exact foldl_later_ne_empty (later_ne_empty (.inr hvalid)) after

/-! ### The rovers of a module -/

namespace Fleet

variable {s : Fleet} {collate : String → String → Bool} {moduleID : String}

theorem mem_roversForModule {rm : RoverModuleRow} :
    rm ∈ s.roversForModule collate moduleID ↔
      s.desiredVersion rm.roverID moduleID = some rm.desiredVersion ∧ s.autoUpdate (rm.roverID, moduleID) = rm.autoUpdate := by
  rw [roversForModule, List.mem_insertionSort, List.mem_filterMap, desiredVersion, Option.map_eq_some_iff]
  constructor
  · rintro ⟨⟨⟨id, m⟩, row⟩, he, hrow⟩
    obtain ⟨hm, hrow⟩ := Option.ite_none_right_eq_some.mp hrow
    cases hrow
    cases hm
    exact ⟨⟨row, Table.mem_entries_iff.mp he, rfl⟩, rfl⟩
  · rintro ⟨⟨row, hrow, hversion⟩, hauto⟩
    refine ⟨⟨(rm.roverID, moduleID), row⟩, Table.mem_entries_iff.mpr hrow, ?_⟩
    rw [if_pos rfl, hversion, hauto]

theorem nodup_roversForModule : ((s.roversForModule collate moduleID).map (·.roverID)).Nodup := by
  have hkeys := List.nodupKeys_iff_pairwise.mp s.registry.repo.desired.nodupKeys
  rw [roversForModule, ((List.perm_insertionSort _ _).map _).nodup_iff, List.Nodup, List.pairwise_map, List.pairwise_filterMap]
  refine hkeys.imp fun {e e'} hne b hb b' hb' heq => hne ?_
  obtain ⟨hm, hb⟩ := Option.ite_none_right_eq_some.mp hb
  obtain ⟨hm', hb'⟩ := Option.ite_none_right_eq_some.mp hb'
  cases hb
  cases hb'
  exact Prod.ext heq (hm.trans hm'.symm)

end Fleet

/-- Since the last change of the rover's row a set was pushed to it that has the module at the version. -/
def pushedSince (roverID moduleID version : String) : List FleetEvent → Bool
  | [] => false
  | .desired r m _ :: older => decide ((r, m) ≠ (roverID, moduleID)) && pushedSince roverID moduleID version older
  | .pushed r set :: older =>
    (decide (r = roverID) && set.any fun e => decide (e.id = moduleID ∧ e.version = version)) ||
      pushedSince roverID moduleID version older

theorem pushedSince_pushed_of_mem {set : List ModuleDesired} {log : List FleetEvent}
    (h : ∃ e ∈ set, e.id = moduleID ∧ e.version = version) :
    pushedSince roverID moduleID version (.pushed roverID set :: log) = true := by
  rw [pushedSince, decide_eq_true rfl, Bool.true_and, Bool.or_eq_true, List.any_eq_true]
  exact .inl (h.imp fun e he => ⟨he.1, decide_eq_true he.2⟩)

@[ext] structure Standing where
  version : Option String
  autoUpdate : Bool
  pushed : Bool

namespace Fleet

def standing (moduleID latest : String) (s : Fleet) (roverID : String) : Standing where
  version := s.desiredVersion roverID moduleID
  autoUpdate := s.autoUpdate (roverID, moduleID)
  pushed := pushedSince roverID moduleID latest s.log

variable {s t : Fleet} {roverID moduleID latest : String}

theorem standing_of_untouched (h : Untouched s t) : t.standing moduleID latest = s.standing moduleID latest := by
  funext r
  rw [standing, standing, desiredVersion, desiredVersion, h.desired, h.autoUpdate, h.log]

theorem standing_setDesiredVersion (latest : String) {version : String} (h : s.setDesiredVersion roverID moduleID version = some t) :
    t.standing moduleID latest =
      Function.update (s.standing moduleID latest) roverID ⟨some version, s.autoUpdate (roverID, moduleID), false⟩ := by
  obtain ⟨config, rfl⟩ := setDesiredVersion_eq_some h
  funext r
  by_cases hr : r = roverID
  · subst hr
    simp [standing, desiredVersion, pushedSince]
  · have hkey : (r, moduleID) ≠ (roverID, moduleID) := fun heq => hr (congrArg Prod.fst heq)
    simp [standing, desiredVersion, pushedSince, hr, Ne.symm hr, AList.lookup_insert_ne hkey]

theorem standing_setAutoUpdate :
    ∃ auto, (s.autoUpdate (roverID, moduleID) = true → auto = true) ∧
      (s.setAutoUpdate roverID moduleID true).standing moduleID latest =
        Function.update (s.standing moduleID latest) roverID { s.standing moduleID latest roverID with autoUpdate := auto } := by
  unfold setAutoUpdate
  split
  · refine ⟨true, fun _ => rfl, ?_⟩
    funext r
    by_cases hr : r = roverID
    · subst hr
      simp [standing, desiredVersion]
    · simp [standing, desiredVersion, hr]
  · refine ⟨s.autoUpdate (roverID, moduleID), id, ?_⟩
    exact (Function.update_eq_self roverID _).symm

theorem mem_assemble {p : DesiredPusher} {unlisted : List String} (hversion : s.desiredVersion roverID moduleID = some latest)
    (hlatest : latest ≠ "") :
    ∃ e ∈ p.assemble roverID s.registry.repo unlisted (s.registry.repo.desiredForRover roverID),
      e.id = moduleID ∧ e.version = latest := by
  obtain ⟨row, hrow, hdesired⟩ := Option.map_eq_some_iff.mp hversion
  refine ⟨p.entry roverID s.registry.repo unlisted moduleID row, ?_, rfl, hdesired⟩
  refine List.mem_filterMap.mpr ⟨(moduleID, row), ?_, if_neg (hdesired ▸ hlatest)⟩
  exact List.mem_filterMap.mpr ⟨_, Table.mem_entries_iff.mpr hrow, if_pos rfl⟩

end Fleet

namespace CheckUpdater

variable {u : CheckUpdater} {s t : Fleet} {moduleID latest : String}

theorem standing_push {roverID : String} {fault : Option String} {unlisted : List String} {x : Unit}
    (hversion : s.desiredVersion roverID moduleID = some latest) (hlatest : latest ≠ "")
    (h : Returns (u.push roverID fault unlisted) s x t) :
    t.standing moduleID latest = Function.update (s.standing moduleID latest) roverID
      { s.standing moduleID latest roverID with
        pushed := u.pusher.isSome || (s.standing moduleID latest roverID).pushed } := by
  unfold push at h
  cases hpusher : u.pusher with
  | none =>
    rw [hpusher] at h
    rw [(returns_ok_iff.mp h).2]
    exact (Function.update_eq_self roverID _).symm
  | some p =>
    rw [hpusher] at h
    obtain ⟨_, m, hcall, hlog⟩ := returns_then_iff.mp h
    rw [returns_modify_iff.mp hlog, (returns_call_iff.mp hcall).2]
    funext r
    by_cases hr : r = roverID
    · subst hr
      simp [Fleet.standing, Fleet.desiredVersion, pushedSince_pushed_of_mem (Fleet.mem_assemble hversion hlatest)]
    · simp [Fleet.standing, Fleet.desiredVersion, pushedSince, hr, Ne.symm hr]

def Bumped (u : CheckUpdater) (latest : String) (rm : RoverModuleRow) (a b : Standing) : Prop :=
  if rm.autoUpdate = false ∨ rm.desiredVersion = latest then b = a
  else b.version = some latest ∧ (a.autoUpdate = true → b.autoUpdate = true) ∧ b.pushed = u.pusher.isSome

variable {ans : CheckAnswers}

theorem returns_bump {rm : RoverModuleRow} (hlatest : latest ≠ "")
    (h : Returns (u.bump moduleID latest ans rm) s ⟨⟩ t) :
    (∀ r, r ≠ rm.roverID → t.standing moduleID latest r = s.standing moduleID latest r) ∧
      u.Bumped latest rm (s.standing moduleID latest rm.roverID) (t.standing moduleID latest rm.roverID) := by
  unfold bump at h
  unfold Bumped
  split at h
  · rename_i hskip
    rw [if_pos hskip, (returns_ok_iff.mp h).2]
    exact ⟨fun _ _ => rfl, rfl⟩
  rename_i hbump
  rw [if_neg hbump]
  obtain ⟨_, s₀, hcall, h⟩ := returns_then_iff.mp h
  obtain ⟨_, s₁, hwrite, h⟩ := returns_then_iff.mp h
  obtain ⟨_, s₂, hauto, hpush⟩ := returns_then_iff.mp h
  rw [(returns_call_iff.mp hcall).2] at hwrite
  have hs₁ := Fleet.standing_setDesiredVersion latest (returns_write_iff.mp hwrite)
  obtain ⟨auto, hkept, hs₂⟩ : ∃ auto, (s₁.autoUpdate (rm.roverID, moduleID) = true → auto = true) ∧
      s₂.standing moduleID latest = Function.update (s₁.standing moduleID latest) rm.roverID
        { s₁.standing moduleID latest rm.roverID with autoUpdate := auto } := by
    rw [returns_modify_iff.mp hauto]
    split
    · exact Fleet.standing_setAutoUpdate
    · exact ⟨s₁.autoUpdate (rm.roverID, moduleID), id, (Function.update_eq_self rm.roverID _).symm⟩
  have hversion : s₂.desiredVersion rm.roverID moduleID = some latest := by
    have hself := congrFun hs₂ rm.roverID
    rw [Function.update_self, hs₁, Function.update_self] at hself
    exact congrArg Standing.version hself
  have ht := standing_push hversion hlatest hpush
  have hautoUpdate : s₁.autoUpdate (rm.roverID, moduleID) = s.autoUpdate (rm.roverID, moduleID) := by
    have hself := congrFun hs₁ rm.roverID
    rw [Function.update_self] at hself
    exact congrArg Standing.autoUpdate hself
  refine ⟨fun r hr => ?_, ?_, fun hset => ?_, ?_⟩
  · rw [ht, Function.update_of_ne hr, hs₂, Function.update_of_ne hr, hs₁, Function.update_of_ne hr]
  · rw [ht, Function.update_self, hs₂, Function.update_self, hs₁, Function.update_self]
  · rw [ht, Function.update_self, hs₂, Function.update_self]
    exact hkept (hautoUpdate.trans hset)
  · rw [ht, Function.update_self, hs₂, Function.update_self, hs₁, Function.update_self]
    exact Bool.or_false _

/-- A rover that follows the module is at the latest version afterwards. -/
def Moved (u : CheckUpdater) (latest : String) (a b : Standing) : Prop :=
  if a.autoUpdate = true ∧ a.version ≠ none ∧ a.version ≠ some latest then b = ⟨some latest, true, u.pusher.isSome⟩
  else b = a

theorem returns_autoUpdate {bumped : List String} (hlatest : latest ≠ "")
    (h : Returns (u.autoUpdate moduleID latest ans) s bumped t) (roverID : String) :
    u.Moved latest (s.standing moduleID latest roverID) (t.standing moduleID latest roverID) := by
  simp only [autoUpdate, returns_then_iff, returns_call_iff, returns_get_iff, returns_ok_iff] at h
  obtain ⟨_, _, ⟨-, rfl⟩, _, s, ⟨rfl, rfl⟩, ⟨⟩, _, hloop, -, rfl⟩ := h
  obtain ⟨hself, hothers⟩ := returned_parts (·.roverID) (Fleet.standing moduleID latest) (u.Bumped latest)
    (fun rm s t hround => returns_bump hlatest hround) Fleet.nodup_roversForModule hloop
  unfold Moved
  by_cases hrow : s.desiredVersion roverID moduleID = none
  · -- without a row the loop does not come to the rover
    have hnot : roverID ∉ (s.roversForModule u.collate moduleID).map (·.roverID) := by
      intro hmem
      obtain ⟨rm, hrm, rfl⟩ := List.mem_map.mp hmem
      cases (Fleet.mem_roversForModule.mp hrm).1.symm.trans hrow
    rw [if_neg (fun hmoved => hmoved.2.1 hrow)]
    exact hothers roverID hnot
  · obtain ⟨version, hversion⟩ := Option.ne_none_iff_exists'.mp hrow
    have hround := hself ⟨roverID, version, s.autoUpdate (roverID, moduleID)⟩ (Fleet.mem_roversForModule.mpr ⟨hversion, rfl⟩)
    by_cases hskip : s.autoUpdate (roverID, moduleID) = false ∨ version = latest
    · rw [Bumped, if_pos hskip] at hround
      refine (if_neg fun hmoved => ?_).mpr hround
      rcases hskip with hoff | rfl
      · exact absurd hmoved.1 (Bool.eq_false_iff.mp hoff)
      · exact hmoved.2.2 hversion
    · rw [Bumped, if_neg hskip] at hround
      obtain ⟨hlatest, hkept, hpushed⟩ := hround
      obtain ⟨hon, hother⟩ := not_or.mp hskip
      have hmoved : (s.standing moduleID latest roverID).version ≠ some latest :=
        fun heq => hother (Option.some.inj (hversion.symm.trans heq))
      rw [if_pos ⟨Bool.of_not_eq_false hon, hrow, hmoved⟩]
      exact Standing.ext hlatest (hkept (Bool.of_not_eq_false hon)) hpushed

variable {res : CheckResult}

theorem checkModule_cases [Semver] (h : Returns (u.checkModule moduleID ans) s res t) :
    ∃ mod releases m, ans.listReleases = .ok releases ∧
      Returns (u.ingestNew moduleID mod ans.release releases (ans.known s moduleID)) s res.ingested m ∧
      res.latest = latestOf (ans.known s moduleID ++ res.ingested) ∧
      (res.ingested = [] ∧ t = m ∨
        res.ingested ≠ [] ∧ res.latest ≠ "" ∧ Returns (u.autoUpdate moduleID res.latest ans) m res.autoUpdatedRovers t) := by
  simp only [checkModule, returns_then_iff, returns_call_iff, returns_get_iff, returns_ofExcept_iff] at h
  obtain ⟨_, _, ⟨-, rfl⟩, _, _, ⟨rfl, rfl⟩, mod, _, ⟨-, rfl⟩, _, _, ⟨-, rfl⟩, releases, s, ⟨hreleases, rfl⟩, ingested, m,
    hingest, hend⟩ := h
  refine ⟨mod, releases, m, hreleases, ?_⟩
  by_cases hnew : ingested = []
  · rw [if_neg (fun hboth => hboth.1 hnew)] at hend
    obtain ⟨rfl, rfl⟩ := returns_ok_iff.mp hend
    exact ⟨hingest, rfl, .inl ⟨hnew, rfl⟩⟩
  -- something that was ingested is a version, so there is a latest one
  have hlatest : latestOf (ans.known s moduleID ++ ingested) ≠ "" := by
    obtain ⟨v, hv⟩ := List.exists_mem_of_ne_nil ingested hnew
    rw [returns_ingestNew hingest] at hv
    exact latestOf_ne_empty (List.mem_append_right _ (returns_ingestNew hingest ▸ hv)) (isValid_of_mem_newVersions hv)
  rw [if_pos ⟨hnew, hlatest⟩] at hend
  obtain ⟨bumped, _, hbumped, hreturn⟩ := returns_then_iff.mp hend
  obtain ⟨rfl, rfl⟩ := returns_ok_iff.mp hreturn
  exact ⟨hingest, rfl, .inr ⟨hnew, hlatest, hbumped⟩⟩

/-- What a check that returns has done to the rovers of its module. -/
theorem standing_checkModule [Semver] (h : Returns (u.checkModule moduleID ans) s res t) :
    res.ingested = [] ∧ t.standing moduleID res.latest = s.standing moduleID res.latest ∨
      res.ingested ≠ [] ∧
        ∀ r, u.Moved res.latest (s.standing moduleID res.latest r) (t.standing moduleID res.latest r) := by
  obtain ⟨mod, releases, m, -, hingest, -, hend⟩ := checkModule_cases h
  have huntouched := (keeps_ingestNew (u.ingestsWithin_untouched moduleID) mod ans.release releases _).ends hingest
  rcases hend with ⟨hnone, rfl⟩ | ⟨hnew, hlatest, hbumped⟩
  · exact .inl ⟨hnone, Fleet.standing_of_untouched huntouched⟩
  · have hmoved := returns_autoUpdate hlatest hbumped
    rw [Fleet.standing_of_untouched huntouched] at hmoved
    exact .inr ⟨hnew, hmoved⟩

end CheckUpdater

end Waypoint.Proxy
