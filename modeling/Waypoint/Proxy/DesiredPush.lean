import Waypoint.Agent.ManagerThreads
import Waypoint.Proxy.Registry

/-!
# Pushing desired sets to a rover

`HandleSetDesired`, `HandleUnpin` and the version bump of `CheckModule` write the rows of one rover and then call `DesiredPusher.Push`, which reads the rows and publishes the set they make.
-/

namespace Waypoint.Proxy

open Base Agent

structure DesiredPusher where
  baseURL : String
  /-- `signBlobPath`, of rover, module and version -/
  signBlobPath : String → String → String → String

def shaIn (versions : List (String × VersionRow)) (version : String) : String :=
  ((versions.lookup version).map (·.rawSha256)).getD ""

theorem registered_of_shaIn {repo : ModulesRepo} {moduleID version : String} {failed : List String} {sha : String}
    (hsha : shaIn (if moduleID ∈ failed then [] else repo.listVersions moduleID) version = sha) (hfound : sha ≠ "") :
    ∃ row, repo.versions.lookup (moduleID, version) = some row ∧ row.rawSha256 = sha := by
  by_cases hfailed : moduleID ∈ failed
  · rw [if_pos hfailed] at hsha
    exact absurd hsha.symm hfound
  rw [if_neg hfailed, shaIn] at hsha
  cases hlookup : (repo.listVersions moduleID).lookup version with
  | none =>
    rw [hlookup] at hsha
    exact absurd hsha.symm hfound
  | some row =>
    rw [hlookup] at hsha
    obtain ⟨before, after, hlist, -⟩ := List.lookup_eq_some_iff.mp hlookup
    refine ⟨row, repo.mem_listVersions.mp ?_, hsha⟩
    rw [hlist]
    exact List.mem_append_right _ List.mem_cons_self

namespace DesiredPusher

variable (p : DesiredPusher) (roverID : String) (repo : ModulesRepo) (failed : List String)

def rawUrl (moduleID version : String) : String :=
  p.baseURL ++ "/" ++ roverID ++ "/modules/" ++ moduleID ++ "/" ++ version ++ ".raw?sig=" ++
    p.signBlobPath roverID moduleID version

/-- The entry of a row. Where the lookup of the module's versions fails, its error is dropped. -/
def entry (moduleID : String) (row : DesiredRow) : ModuleDesired where
  id := moduleID
  version := row.desiredVersion
  rawUrl := p.rawUrl roverID moduleID row.desiredVersion
  rawSha256 := shaIn (if moduleID ∈ failed then [] else repo.listVersions moduleID) row.desiredVersion
  configToml := row.configTOML

/-- The set that `Push` makes of the rows it has read; a row without a version is passed over. -/
def assemble (rows : List (String × DesiredRow)) : List ModuleDesired :=
  rows.filterMap fun e => if e.2.desiredVersion = "" then none else some (p.entry roverID repo failed e.1 e.2)

end DesiredPusher

inductive DesiredWrite
  | setDesired (moduleID : String) (row : DesiredRow)
  | unpin (moduleID : String)
  | bump (moduleID version : String)

structure DesiredRequest where
  write : DesiredWrite
  refused : Bool := false

/-- The write of a request; one that is not taken ends the request before its push. -/
def ModulesRepo.request (roverID : String) (repo : ModulesRepo) (req : DesiredRequest) : Option ModulesRepo :=
  if req.refused then none
  else
    match req.write with
    | .setDesired moduleID row => repo.setDesired roverID moduleID row
    | .unpin moduleID => some (repo.unpin roverID moduleID)
    | .bump moduleID version => repo.setDesiredVersion roverID moduleID version

/-- The proxy's repository and requests, the sets on their way to the rover, and what the rover stores. -/
structure DesiredLink where
  core : Published ModulesRepo (List (String × DesiredRow))
  wire : List (List ModuleDesired) := []
  rover : DesiredSets := {}

namespace DesiredLink

inductive Action
  | write (t : Nat) (req : DesiredRequest)
  | read (t : Nat)
  | publish (t : Nat) (failed : List String)
  | deliver

section

variable (pusher : DesiredPusher) (roverID : String)

abbrev rows (repo : ModulesRepo) : List (String × DesiredRow) := repo.desiredForRover roverID

def init (repo : ModulesRepo) (rover : DesiredSets) : DesiredLink :=
  { core := .init (rows roverID) repo, rover := rover }

def request (s : DesiredLink) (a : Published.Action DesiredRequest) : Option DesiredLink :=
  (s.core.next (ModulesRepo.request roverID) (rows roverID) a).map fun core => { s with core := core }

def send (s : DesiredLink) (failed : List String) : DesiredLink :=
  { s with wire := s.wire ++ [pusher.assemble roverID s.core.store failed s.core.latest] }

def next (s : DesiredLink) : Action → Option DesiredLink
  | .write t req => s.request roverID (.change t req)
  | .read t => s.request roverID (.take t)
  | .publish t failed => (s.request roverID (.publish t)).map fun s => s.send pusher roverID failed
  | .deliver =>
    match s.wire with
    | [] => none
    | set :: wire => (s.rover.store (.handleDesired set)).map fun rover => { s with wire := wire, rover := rover }

/-- Rows that have changed since they were read are published only while newer ones are still to come. -/
def Orderly (s : DesiredLink) : Action → Prop
  | .publish t _ => s.core.Orderly (rows roverID) (.publish t : Published.Action DesiredRequest)
  | _ => True

end

def listed (m : ModuleDesired) : String × String × String := (m.id, m.version, m.configToml)

def rowOf (e : String × DesiredRow) : String × String × String := (e.1, e.2.desiredVersion, e.2.configTOML)

def versioned (rows : List (String × DesiredRow)) : List (String × DesiredRow) :=
  rows.filter fun e => e.2.desiredVersion ≠ ""

/-- The set has the rows that name a version, as they are. -/
def Lists (set : List ModuleDesired) (rows : List (String × DesiredRow)) : Prop :=
  set.map listed = (versioned rows).map rowOf

def final (s : DesiredLink) : List ModuleDesired := s.wire.getLast?.getD s.rover.proxyDesired

variable {pusher : DesiredPusher} {roverID : String}

theorem lists_assemble (repo : ModulesRepo) (failed : List String) (rows : List (String × DesiredRow)) :
    Lists (pusher.assemble roverID repo failed rows) rows := by
  unfold Lists DesiredPusher.assemble versioned
  induction rows with
  | nil => rfl
  | cons e rows ih =>
    by_cases hversion : e.2.desiredVersion = ""
    · simpa [hversion] using ih
    · have hentry : listed (pusher.entry roverID repo failed e.1 e.2) = rowOf e := rfl
      simpa [hversion, hentry] using ih

/-- The reader of the publications is the rover, as far as the rows have versions. -/
structure Tracks (roverID : String) (s : DesiredLink) : Prop where
  fresh : s.core.Fresh (rows roverID)
  final : Lists s.final s.core.latest

theorem tracks_init {repo : ModulesRepo} {rover : DesiredSets}
    (h : Lists rover.proxyDesired (repo.desiredForRover roverID)) : (init roverID repo rover).Tracks roverID where
  fresh := Published.fresh_init repo
  final := h

variable {s s' : DesiredLink} {a : Published.Action DesiredRequest}

theorem request_eq_some (h : s.request roverID a = some s') :
    ∃ core, s.core.next (ModulesRepo.request roverID) (rows roverID) a = some core ∧ s' = { s with core := core } := by
  obtain ⟨core, hcore, hs'⟩ := Option.map_eq_some_iff.mp h
  exact ⟨core, hcore, hs'.symm⟩

theorem latest_next {core core' : Published ModulesRepo (List (String × DesiredRow))}
    (h : core.next (ModulesRepo.request roverID) (rows roverID) a = some core')
    (ha : ∀ t, a ≠ .publish t) : core'.latest = core.latest := by
  obtain ⟨t, req, rfl, -, ⟨-, rfl⟩ | ⟨store, -, rfl⟩⟩ | ⟨t, rfl, -, rfl⟩ | ⟨t, v, rfl, -, -⟩ := Published.next_cases h
  · rfl
  · rfl
  · rfl
  · exact absurd rfl (ha t)

theorem tracks_request (hs : s.Tracks roverID)
    (h : s.request roverID a = some s') (ha : ∀ t, a ≠ .publish t)
    (hok : s.core.Orderly (rows roverID) a) : s'.Tracks roverID := by
  obtain ⟨core, hcore, rfl⟩ := request_eq_some h
  refine ⟨Published.fresh_next hs.fresh hok hcore, ?_⟩
  change Lists s.final core.latest
  rw [latest_next hcore ha]
  exact hs.final

theorem tracks_next {a : Action} (hs : s.Tracks roverID) (hok : s.Orderly roverID a)
    (h : s.next pusher roverID a = some s') : s'.Tracks roverID := by
  cases a with
  | write t req => exact tracks_request hs h (fun _ => by simp) trivial
  | read t => exact tracks_request hs h (fun _ => by simp) trivial
  | publish t failed =>
    obtain ⟨m, hm, rfl⟩ := Option.map_eq_some_iff.mp h
    obtain ⟨core, hcore, rfl⟩ := request_eq_some hm
    refine ⟨Published.fresh_next hs.fresh (show s.core.Orderly (rows roverID) (.publish t) from hok) hcore, ?_⟩
    have hsent : (send pusher roverID { s with core := core } failed).final =
        pusher.assemble roverID core.store failed core.latest := by
      simp [final, send]
    rw [hsent]
    exact lists_assemble core.store failed core.latest
  | deliver =>
    simp only [next] at h
    split at h
    · cases h
    rename_i set wire hwire
    cases h
    refine ⟨hs.fresh, ?_⟩
    have hfinal := hs.final
    rw [final, hwire, List.getLast?_cons, Option.getD_some] at hfinal
    exact hfinal

/-- Where pushes are orderly, the rover ends with exactly the rows that have a version. -/
theorem rover_lists_versioned_rows {repo : ModulesRepo} {rover : DesiredSets} {es : List Action} {s : DesiredLink}
    (hstart : Lists rover.proxyDesired (repo.desiredForRover roverID))
    (hrun : Run (Guarded (Orderly roverID) (Takes (next pusher roverID))) (init roverID repo rover) es s)
    (hquiet : s.core.Quiet) (hwire : s.wire = []) :
    s.rover.proxyDesired.map listed = (versioned (s.core.store.desiredForRover roverID)).map rowOf := by
  have htracks := hrun.invariant (Tracks roverID) (fun _ _ _ hs hstep => tracks_next hs hstep.1 hstep.2) (tracks_init hstart)
  have hfinal := htracks.final
  rw [final, hwire, Published.latest_of_quiet htracks.fresh hquiet] at hfinal
  exact hfinal

def camera : ModuleRow where
  displayName := "Camera"
  sourceRepoURL := "https://github.com/waypointos/waypoint-module-example"
  expectedIdentitySAN := "camera"
  registeredBy := "operator"
  repoVisibility := "public"
  githubTokenEnc := none

def oneModule : ModulesRepo := { modules := (∅ : Table String ModuleRow).insert "camera" camera }

def plainPusher : DesiredPusher := ⟨"https://proxy/api/rovers", fun _ _ version => version⟩

def pin (version : String) : DesiredRequest := { write := .setDesired "camera" ⟨version, ""⟩ }

/-- The second row is written before the first is published, and is read after that. -/
def twoPushes : List Action :=
  [.write 0 (pin "1.0.0"), .read 0, .write 1 (pin "2.0.0"), .publish 0 [], .deliver, .read 1, .publish 1 [], .deliver]

theorem rover_lists_versioned_rows_twoPushes :
    ∃ s, Run (Guarded (Orderly "r1") (Takes (next plainPusher "r1"))) (init "r1" oneModule {}) twoPushes s ∧
      s.core.store.desiredForRover "r1" = [("camera", ⟨"2.0.0", ""⟩)] ∧
      s.rover.proxyDesired.map listed = [("camera", "2.0.0", "")] := by
  have hrun : ∃ s, Run (Guarded (Orderly "r1") (Takes (next plainPusher "r1"))) (init "r1" oneModule {}) twoPushes s ∧
      s.core.Quiet ∧ s.wire = [] ∧ s.core.store.desiredForRover "r1" = [("camera", ⟨"2.0.0", ""⟩)] := by
    refine ⟨_, .cons ⟨trivial, rfl⟩ (.cons ⟨trivial, rfl⟩ (.cons ⟨trivial, rfl⟩ (.cons ⟨.inr ⟨1, by decide, ?_⟩, rfl⟩
      (.cons ⟨trivial, rfl⟩ (.cons ⟨trivial, rfl⟩ (.cons ⟨.inl rfl, rfl⟩ (.cons ⟨trivial, rfl⟩ (.nil _)))))))),
      fun t => ?_, rfl, rfl⟩
    · exact .inl rfl
    · rcases t with _ | _ | t <;> rfl
  obtain ⟨s, hrun, hquiet, hwire, hrows⟩ := hrun
  have hstart : Lists ({} : DesiredSets).proxyDesired (oneModule.desiredForRover "r1") := rfl
  refine ⟨s, hrun, hrows, ?_⟩
  rw [rover_lists_versioned_rows hstart hrun hquiet hwire, hrows]
  rfl

def overtakenPush : List Action :=
  [.write 0 (pin "1.0.0"), .read 0, .write 1 (pin "2.0.0"), .read 1, .publish 1 [], .publish 0 [], .deliver, .deliver]

def pinNothing : List Action := [.write 0 (pin ""), .read 0, .publish 0 [], .deliver]

/-- The rover ends on the older version of two pushes, and without the row whose version is empty. -/
theorem older_rows_delivered_last :
    (∃ s, Run (Takes (next plainPusher "r1")) (init "r1" oneModule {}) overtakenPush s ∧ s.core.Quiet ∧ s.wire = [] ∧
      s.rover.proxyDesired.map listed = [("camera", "1.0.0", "")] ∧
      (s.core.store.desiredForRover "r1").map rowOf = [("camera", "2.0.0", "")]) ∧
    ∃ s, Run (Takes (next plainPusher "r1")) (init "r1" oneModule {}) pinNothing s ∧ s.core.Quiet ∧ s.wire = [] ∧
      s.rover.proxyDesired.map listed = [] ∧
      (s.core.store.desiredForRover "r1").map rowOf = [("camera", "", "")] := by
  constructor
  · refine ⟨_, .cons rfl (.cons rfl (.cons rfl (.cons rfl (.cons rfl (.cons rfl (.cons rfl (.cons rfl (.nil _)))))))),
      fun t => ?_, rfl, by decide, by decide⟩
    rcases t with _ | _ | t <;> rfl
  · refine ⟨_, .cons rfl (.cons rfl (.cons rfl (.cons rfl (.nil _)))), fun t => ?_, rfl, by decide, by decide⟩
    rcases t with _ | t <;> rfl

end DesiredLink

end Waypoint.Proxy
