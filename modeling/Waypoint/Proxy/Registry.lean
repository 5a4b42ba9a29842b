import Waypoint.Base.LexPath
import Waypoint.Base.Semver
import Waypoint.Base.Table

/-!
# The module registry

`db/modules_repo.go`, `modules/semver.go` and `modules/blob.go` of the proxy: modules with the identity that signs them, their versions, the version that each rover should run, and the store of the images.
-/

namespace Waypoint.Proxy

open Base LexPath

structure ModuleRow where
  displayName : String
  sourceRepoURL : String
  expectedIdentitySAN : String
  registeredBy : String
  repoVisibility : String
  githubTokenEnc : Option (List UInt8)

structure VersionRow where
  rawPath : String
  rawSha256 : String
  manifestJSON : List UInt8 := []

structure DesiredRow where
  desiredVersion : String
  configTOML : String

/-- `module_registry`, `module_versions` and `rover_module_state`. -/
structure ModulesRepo where
  modules : Table String ModuleRow := ∅
  versions : Table (String × String) VersionRow := ∅
  desired : Table (String × String) DesiredRow := ∅

namespace ModulesRepo

/-- A conflict keeps who registered the module first, and a stored token unless there is a new one. -/
def registerModule (moduleID : String) (row : ModuleRow) (repo : ModulesRepo) : ModulesRepo :=
  let row := { row with repoVisibility := if row.repoVisibility = "" then "public" else row.repoVisibility }
  match repo.modules.lookup moduleID with
  | none => { repo with modules := repo.modules.insert moduleID row }
  | some old =>
    let merged := { row with
      registeredBy := old.registeredBy
      githubTokenEnc := row.githubTokenEnc <|> old.githubTokenEnc }
    { repo with modules := repo.modules.insert moduleID merged }

def getModule (repo : ModulesRepo) (moduleID : String) : Option ModuleRow := repo.modules.lookup moduleID

def ingestVersion (moduleID version : String) (row : VersionRow) (repo : ModulesRepo) : Option ModulesRepo :=
  if moduleID ∈ repo.modules then
    some { repo with versions := repo.versions.insertOrIgnore (moduleID, version) row }
  else none

/-- The newest version is in front. -/
def listVersions (repo : ModulesRepo) (moduleID : String) : List (String × VersionRow) :=
  repo.versions.entries.filterMap fun e => if e.1.1 = moduleID then some (e.1.2, e.2) else none

def setDesired (roverID moduleID : String) (row : DesiredRow) (repo : ModulesRepo) : Option ModulesRepo :=
  if moduleID ∈ repo.modules then some { repo with desired := repo.desired.insert (roverID, moduleID) row } else none

def setDesiredVersion (roverID moduleID version : String) (repo : ModulesRepo) : Option ModulesRepo :=
  repo.setDesired roverID moduleID
    { desiredVersion := version, configTOML := ((repo.desired.lookup (roverID, moduleID)).map (·.configTOML)).getD "" }

def unpin (roverID moduleID : String) (repo : ModulesRepo) : ModulesRepo :=
  { repo with desired := repo.desired.erase (roverID, moduleID) }

def desiredForRover (repo : ModulesRepo) (roverID : String) : List (String × DesiredRow) :=
  repo.desired.entries.filterMap fun e => if e.1.1 = roverID then some (e.1.2, e.2) else none

variable (repo : ModulesRepo)

theorem expectedIdentitySAN_registerModule (moduleID : String) (row : ModuleRow) :
    ∃ m, (repo.registerModule moduleID row).getModule moduleID = some m ∧
      m.expectedIdentitySAN = row.expectedIdentitySAN := by
  unfold registerModule getModule
  cases repo.modules.lookup moduleID with
  | none => exact ⟨_, AList.lookup_insert repo.modules, rfl⟩
  | some old => exact ⟨_, AList.lookup_insert repo.modules, rfl⟩

variable {moduleID version : String} {row : VersionRow}

theorem getModule_registerModule_of_ne {other : String} (hne : other ≠ moduleID) (row : ModuleRow) :
    (repo.registerModule moduleID row).getModule other = repo.getModule other := by
  unfold registerModule getModule
  cases repo.modules.lookup moduleID with
  | none => exact AList.lookup_insert_ne hne
  | some old => exact AList.lookup_insert_ne hne

@[simp] theorem versions_registerModule (moduleID : String) (row : ModuleRow) :
    (repo.registerModule moduleID row).versions = repo.versions := by
  unfold registerModule
  cases repo.modules.lookup moduleID <;> rfl

theorem mem_listVersions :
    (version, row) ∈ repo.listVersions moduleID ↔ repo.versions.lookup (moduleID, version) = some row := by
  rw [← Table.mem_entries_iff, listVersions, List.mem_filterMap]
  constructor
  · rintro ⟨⟨⟨id, v⟩, r⟩, he, hkey⟩
    split at hkey
    · rename_i hid
      cases hkey
      cases hid
      exact he
    · cases hkey
  · exact fun he => ⟨_, he, if_pos rfl⟩

theorem ingestVersion_eq_some {repo' : ModulesRepo}
    (h : repo.ingestVersion moduleID version row = some repo') :
    repo' = { repo with versions := repo.versions.insertOrIgnore (moduleID, version) row } := by
  unfold ingestVersion at h
  split at h
  · exact (Option.some.inj h).symm
  · cases h

end ModulesRepo

def canon (v : String) : String := if v.toList.head? = some 'v' then v else "v" ++ v

def isNewerVersion [Semver] (candidate : String) (existing : List String) : Bool :=
  Semver.isValid (canon candidate) && existing.all fun e => Semver.cmp (canon candidate) (canon e) = .gt

variable {candidate version moduleID : String} {existing : List String}

theorem not_mem_of_isNewerVersion [Semver]
    (h : isNewerVersion candidate existing = true) : candidate ∉ existing := by
  intro hmem
  rw [isNewerVersion, Bool.and_eq_true, List.all_eq_true] at h
  have hnewer := of_decide_eq_true (h.2 candidate hmem)
  rw [Semver.cmp_self] at hnewer
  cases hnewer

theorem not_slash_of_isNewerVersion [Semver]
    (h : isNewerVersion candidate existing = true) : '/' ∉ candidate.toList := by
  rw [isNewerVersion, Bool.and_eq_true] at h
  have hchars := Semver.isVersionChar_of_isValid h.1
  intro hslash
  have hcanon : '/' ∈ (canon candidate).toList := by
    unfold canon
    split
    · exact hslash
    · rw [String.toList_append]
      exact List.mem_append_right _ hslash
  exact absurd (hchars '/' hcanon) (by decide)

def isIDChar (c : Char) : Bool := ('a' ≤ c && c ≤ 'z') || ('0' ≤ c && c ≤ '9')

/-- The pattern of a module id: `^[a-z0-9][a-z0-9-]{0,30}$`. -/
def moduleIDPattern (s : String) : Bool :=
  match s.toList with
  | [] => false
  | c :: rest => isIDChar c && decide (rest.length ≤ 30) && rest.all fun c => isIDChar c || c = '-'

def blobPath (root moduleID version : String) : String := joinAll [joinAll [root, moduleID], version ++ ".raw"]

theorem name_of_moduleIDPattern {id : String} (h : moduleIDPattern id = true) : Name id := by
  unfold moduleIDPattern at h
  split at h
  · cases h
  rename_i c rest hlist
  simp only [Bool.and_eq_true, List.all_eq_true] at h
  obtain ⟨⟨hc, -⟩, hrest⟩ := h
  have hhead : ∀ t : String, t.toList.head? ≠ some c → id ≠ t := by
    rintro t ht rfl
    exact ht (by rw [hlist]; rfl)
  have hdot : c ≠ '.' := by
    rintro rfl
    exact absurd hc (by decide)
  refine ⟨⟨hhead "" (by simp), hhead "." (by simpa using hdot.symm), hhead ".." (by simpa using hdot.symm)⟩, ?_⟩
  rw [hlist, List.mem_cons, not_or]
  refine ⟨?_, fun hslash => absurd (hrest '/' hslash) (by decide)⟩
  rintro rfl
  exact absurd hc (by decide)

theorem name_blob (h : '/' ∉ version.toList) : Name (version ++ ".raw") := by
  have hlong : ∀ t : String, t.length < 4 → version ++ ".raw" ≠ t := by
    rintro t ht rfl
    have hraw : ".raw".length = 4 := by decide
    rw [String.length_append] at ht
    omega
  refine ⟨⟨hlong "" (by decide), hlong "." (by decide), hlong ".." (by decide)⟩, ?_⟩
  rw [String.toList_append, List.mem_append, not_or]
  exact ⟨h, by decide⟩

structure Blobbed (moduleID version : String) : Prop where
  moduleID : moduleIDPattern moduleID = true
  version : '/' ∉ version.toList

theorem ofString_blobPath (root : String) (h : Blobbed moduleID version) :
    ofString (blobPath root moduleID version) =
      ⟨(ofString root).rooted, (ofString root).elements ++ [moduleID, version ++ ".raw"]⟩ := by
  rw [blobPath, ofString_joinAll _ (by simp) (by simpa using name_blob h.version),
    ofString_joinAll _ (by simp) (by simpa using name_of_moduleIDPattern h.moduleID)]
  simp

theorem blobPath_injective {root moduleID' version' : String} (h : Blobbed moduleID version)
    (h' : Blobbed moduleID' version') (heq : blobPath root moduleID version = blobPath root moduleID' version') :
    moduleID = moduleID' ∧ version = version' := by
  have hpaths := congrArg ofString heq
  rw [ofString_blobPath root h, ofString_blobPath root h', LexPath.mk.injEq] at hpaths
  have hnames := List.append_cancel_left hpaths.2
  rw [List.cons.injEq, List.cons.injEq] at hnames
  exact ⟨hnames.1, by simpa using hnames.2.1⟩

end Waypoint.Proxy
