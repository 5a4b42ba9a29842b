import Waypoint.Proxy.LatestVersion

/-!
# Catching up with releases

A check moves the rovers with `auto_update` set only if it has ingested something itself, so a check that failed after ingesting leaves rovers behind that the checks after it pass over, until there is a newer release.
-/

namespace Waypoint.Proxy

open Base Agent

namespace Fleet

def AutoUpdates (s : Fleet) (moduleID roverID version : String) : Prop :=
  s.autoUpdate (roverID, moduleID) = true ∧ s.desiredVersion roverID moduleID = some version

/-- Every rover with `auto_update` set desires the latest version, and has been pushed a set with it since it does. -/
def CaughtUp (s : Fleet) (moduleID latest : String) : Prop :=
  ∀ roverID version, s.AutoUpdates moduleID roverID version →
    version = latest ∧ pushedSince roverID moduleID latest s.log = true

end Fleet

def Standing.Good (latest : String) (a : Standing) : Prop :=
  ∀ v, a.autoUpdate = true ∧ a.version = some v → v = latest ∧ a.pushed = true

def CheckAnswers.FindsNew [Semver] (ans : CheckAnswers) (s : Fleet) (moduleID : String) : Prop :=
  ∃ releases, ans.listReleases = .ok releases ∧
    ∃ rel ∈ releases, isNewerVersion rel.version (ans.known s moduleID) = true

structure Check where
  moduleID : String
  answers : CheckAnswers

def CheckUpdater.after [Semver] (u : CheckUpdater) (s : Fleet) (c : Check) : Fleet :=
  ((u.checkModule c.moduleID c.answers).run.run s).2

namespace CheckUpdater

variable {u : CheckUpdater}

theorem returns_after [Semver] {s : Fleet} {c : Check} {res : CheckResult}
    (h : ((u.checkModule c.moduleID c.answers).run.run s).1 = .ok res) :
    Returns (u.checkModule c.moduleID c.answers) s res (u.after s c) :=
  Prod.ext h rfl

theorem findsNew_iff [Semver] {ans : CheckAnswers} {s : Fleet} {moduleID : String} {releases : List GitHubRelease}
    (h : ans.listReleases = .ok releases) :
    ans.FindsNew s moduleID ↔ newVersions releases (ans.known s moduleID) ≠ [] := by
  rw [Ne, newVersions_eq_nil_iff, CheckAnswers.FindsNew]
  constructor
  · rintro ⟨releases', h', rel, hrel, hnewer⟩ hnone
    cases h.symm.trans h'
    exact absurd hnewer (by rw [hnone rel hrel]; decide)
  · intro hsome
    by_contra hnone
    exact hsome fun rel hrel => Bool.eq_false_iff.mpr fun hnewer => hnone ⟨releases, h, rel, hrel, hnewer⟩

/-- The rover is caught up already, or the check pushes to it. -/
def Reaches [Semver] (u : CheckUpdater) (ans : CheckAnswers) (s : Fleet) (moduleID roverID version latest : String) : Prop :=
  if version = latest then pushedSince roverID moduleID latest s.log = true
  else ans.FindsNew s moduleID ∧ u.pusher.isSome = true

variable {s t : Fleet} {moduleID : String} {ans : CheckAnswers} {res : CheckResult}

theorem good_of_moved_iff {latest : String} {a b : Standing} (h : u.Moved latest a b) :
    b.Good latest ↔ ∀ v, a.autoUpdate = true ∧ a.version = some v →
      if v = latest then a.pushed = true else u.pusher.isSome = true := by
  unfold Moved at h
  split at h
  · rename_i hmoved
    obtain ⟨hauto, hsome, hother⟩ := hmoved
    obtain ⟨version, hversion⟩ := Option.ne_none_iff_exists'.mp hsome
    have hne : version ≠ latest := fun heq => hother (heq ▸ hversion)
    subst h
    constructor
    · rintro hgood v ⟨-, hv⟩
      cases hversion.symm.trans hv
      rw [if_neg hne]
      exact (hgood latest ⟨rfl, rfl⟩).2
    · rintro hpusher v ⟨-, hv⟩
      have hpushed := hpusher version ⟨hauto, hversion⟩
      rw [if_neg hne] at hpushed
      exact ⟨(Option.some.inj hv).symm, hpushed⟩
  · rename_i hstays
    subst h
    refine forall_congr' fun v => imp_congr_right fun hv => ?_
    have hlatest : v = latest := by
      by_contra hne
      exact hstays ⟨hv.1, fun hnone => (by cases hv.2.symm.trans hnone), fun heq => hne (Option.some.inj (hv.2.symm.trans heq))⟩
    rw [if_pos hlatest]
    exact and_iff_right hlatest

theorem caughtUp_iff_reaches [Semver] (h : Returns (u.checkModule moduleID ans) s res t) :
    t.CaughtUp moduleID res.latest ↔
      ∀ roverID version, s.AutoUpdates moduleID roverID version → u.Reaches ans s moduleID roverID version res.latest := by
  have hfinds : ans.FindsNew s moduleID ↔ res.ingested ≠ [] := by
    obtain ⟨mod, releases, m, hreleases, hingest, -, -⟩ := checkModule_cases h
    rw [findsNew_iff hreleases, returns_ingestNew hingest]
  unfold Reaches
  rcases standing_checkModule h with ⟨hnone, hsame⟩ | ⟨hnew, hmoved⟩
  · have hnothing : ¬ ans.FindsNew s moduleID := fun hnew => hfinds.mp hnew hnone
    simp only [hnothing, false_and]
    refine forall_congr' fun roverID => ?_
    change (t.standing moduleID _ roverID).Good _ ↔ _
    rw [hsame]
    refine forall_congr' fun version => imp_congr_right fun _ => ?_
    rw [if_false_right]
    exact Iff.rfl
  · simp only [hfinds.mpr hnew, true_and]
    exact forall_congr' fun roverID => good_of_moved_iff (hmoved roverID)

end CheckUpdater

namespace Fleet

variable {s t : Fleet} {moduleID ver : String}

theorem mem_versions {v : String} : v ∈ s.versions moduleID ↔ (moduleID, v) ∈ s.registry.repo.versions := by
  rw [versions, List.mem_map, ← AList.lookup_isSome, Option.isSome_iff_exists]
  constructor
  · rintro ⟨⟨v, row⟩, hrow, rfl⟩
    exact ⟨row, s.registry.repo.mem_listVersions.mp hrow⟩
  · rintro ⟨row, hrow⟩
    exact ⟨(v, row), s.registry.repo.mem_listVersions.mpr hrow, rfl⟩

theorem versions_ingestVersion {row : VersionRow} (hnew : ver ∉ s.versions moduleID)
    (h : s.ingestVersion moduleID ver row = some t) : t.versions moduleID = ver :: s.versions moduleID := by
  have hkey : (moduleID, ver) ∉ s.registry.repo.versions := fun hmem => hnew (mem_versions.mpr hmem)
  rw [ingestVersion_eq_some h, versions, ModulesRepo.listVersions, Table.entries_insertOrIgnore_of_not_mem hkey,
    List.filterMap_cons, if_pos rfl]
  rfl

end Fleet

namespace CheckUpdater

variable {u : CheckUpdater} {s t : Fleet} {moduleID : String}

theorem versions_ingestRelease {mod : ModuleRow} {ver : String} {rel : GitHubRelease} {ans : ReleaseAnswers} {x : Unit}
    (hnew : ver ∉ s.versions moduleID) (h : Returns (u.ingestRelease moduleID mod ver rel ans) s x t) :
    t.versions moduleID = ver :: s.versions moduleID := by
  simp only [ingestRelease, returns_then_iff, returns_ofExcept_iff, returns_call_iff, returns_modify_iff,
    returns_write_iff] at h
  obtain ⟨release, _, ⟨-, rfl⟩, _, s, ⟨-, rfl⟩, _, _, rfl, _, _, ⟨-, rfl⟩, _, _, ⟨-, rfl⟩, hingest⟩ := h
  exact Fleet.versions_ingestVersion (s := u.put moduleID ver release.2 s) hnew hingest

theorem versions_ingestNew [Semver] {mod : ModuleRow} {ans : String → ReleaseAnswers} {rels : List GitHubRelease}
    {known ingested : List String} (hknown : ∀ v, v ∈ known ↔ v ∈ s.versions moduleID)
    (hdesc : Descending (s.versions moduleID)) (h : Returns (u.ingestNew moduleID mod ans rels known) s ingested t) :
    t.versions moduleID = ingested.reverse ++ s.versions moduleID ∧ Descending (t.versions moduleID) := by
  induction rels generalizing known ingested s with
  | nil =>
    obtain ⟨rfl, rfl⟩ := returns_ok_iff.mp h
    exact ⟨rfl, hdesc⟩
  | cons rel rels ih =>
    unfold ingestNew at h
    by_cases hnewer : isNewerVersion rel.version known = true
    · rw [if_neg (by simp [hnewer, not_mem_of_isNewerVersion hnewer])] at h
      simp only [returns_then_iff, returns_wrapError_iff, returns_ok_iff] at h
      obtain ⟨_, m, hrelease, later, _, hlater, rfl, rfl⟩ := h
      have hm := versions_ingestRelease (fun hmem => not_mem_of_isNewerVersion hnewer ((hknown _).mpr hmem)) hrelease
      have hnewest : isNewerVersion rel.version (s.versions moduleID) = true := by
        obtain ⟨hvalid, hall⟩ := isNewerVersion_iff.mp hnewer
        exact isNewerVersion_iff.mpr ⟨hvalid, fun w hw => hall w ((hknown w).mpr hw)⟩
      have hknown' : ∀ v, v ∈ known ++ [rel.version] ↔ v ∈ m.versions moduleID := by
        intro v
        rw [hm, List.mem_append, List.mem_singleton, List.mem_cons, hknown v, or_comm]
      obtain ⟨ht, hdesc'⟩ := ih hknown' (hm ▸ ⟨hnewest, hdesc⟩) hlater
      refine ⟨?_, hdesc'⟩
      rw [ht, hm, List.reverse_cons, List.append_assoc]
      rfl
    · rw [if_pos (.inr (Bool.not_eq_true _ ▸ hnewer))] at h
      exact ih hknown hdesc h

end CheckUpdater

/-! ### Histories without an interruption -/

def SameVersions (s t : Fleet) : Prop := t.registry.repo.versions = s.registry.repo.versions

instance : Std.Refl SameVersions := ⟨fun _ => rfl⟩

instance : IsTrans Fleet SameVersions := ⟨fun _ _ _ h h' => Eq.trans h' h⟩

theorem bumpsWithin_sameVersions (moduleID : String) : BumpsWithin moduleID SameVersions where
  write roverID version s t h := by
    obtain ⟨config, rfl⟩ := setDesiredVersion_eq_some h
    rfl
  setAutoUpdate roverID s := by
    unfold Fleet.setAutoUpdate
    split <;> rfl
  pushed _ _ _ := rfl

theorem versions_of_same {s t : Fleet} (h : SameVersions s t) (moduleID : String) :
    t.versions moduleID = s.versions moduleID := by
  rw [Fleet.versions, Fleet.versions, ModulesRepo.listVersions, ModulesRepo.listVersions, h]

/-- Of a change the module sees at most that its rovers are pushed their sets again. -/
structure Elsewhere (moduleID : String) (s t : Fleet) : Prop where
  versions : t.versions moduleID = s.versions moduleID
  desired : ∀ roverID, t.desiredVersion roverID moduleID = s.desiredVersion roverID moduleID
  autoUpdate : ∀ roverID, t.autoUpdate (roverID, moduleID) = s.autoUpdate (roverID, moduleID)
  pushed : ∀ roverID version, pushedSince roverID moduleID version s.log = true →
    pushedSince roverID moduleID version t.log = true

instance (moduleID : String) : Std.Refl (Elsewhere moduleID) := ⟨fun _ => ⟨rfl, fun _ => rfl, fun _ => rfl, fun _ _ => id⟩⟩

instance (moduleID : String) : IsTrans Fleet (Elsewhere moduleID) :=
  ⟨fun _ _ _ h h' => ⟨h'.versions.trans h.versions, fun r => (h'.desired r).trans (h.desired r),
    fun r => (h'.autoUpdate r).trans (h.autoUpdate r), fun r v hs => h'.pushed r v (h.pushed r v hs)⟩⟩

section Other

variable {moduleID other : String} (hne : moduleID ≠ other)

include hne

theorem versions_ingestVersion_of_ne {ver : String} {row : VersionRow} {s t : Fleet}
    (h : s.ingestVersion other ver row = some t) : t.versions moduleID = s.versions moduleID := by
  rw [ingestVersion_eq_some h, Fleet.versions, Fleet.versions, ModulesRepo.listVersions, ModulesRepo.listVersions]
  by_cases hkey : (other, ver) ∈ s.registry.repo.versions
  · rw [Table.insertOrIgnore_of_mem hkey]
  · rw [Table.entries_insertOrIgnore_of_not_mem hkey, List.filterMap_cons, if_neg hne.symm]

theorem ingestsWithin_elsewhere (u : CheckUpdater) : u.IngestsWithin other (Elsewhere moduleID) where
  put _ _ _ := ⟨rfl, fun _ => rfl, fun _ => rfl, fun _ _ => id⟩
  write ver row s t h := by
    have hversions := versions_ingestVersion_of_ne hne h
    rw [ingestVersion_eq_some h] at hversions ⊢
    exact ⟨hversions, fun _ => rfl, fun _ => rfl, fun _ _ => id⟩

theorem bumpsWithin_elsewhere : BumpsWithin other (Elsewhere moduleID) where
  write roverID version s t h := by
    obtain ⟨config, rfl⟩ := setDesiredVersion_eq_some h
    have hkey : ∀ r, (r, moduleID) ≠ (roverID, other) := fun r heq => hne (congrArg Prod.snd heq)
    refine ⟨rfl, fun r => ?_, fun _ => rfl, fun r v hpushed => ?_⟩
    · simp only [Fleet.desiredVersion, AList.lookup_insert_ne (hkey r)]
    · rw [pushedSince, hpushed, Bool.and_true]
      exact decide_eq_true (hkey r).symm
  setAutoUpdate roverID s := by
    unfold Fleet.setAutoUpdate
    split
    · refine ⟨rfl, fun _ => rfl, fun r => ?_, fun _ _ => id⟩
      exact Function.update_of_ne (fun heq => hne (congrArg Prod.snd heq)) _ _
    · exact refl_of (Elsewhere moduleID) s
  pushed roverID set s := by
    refine ⟨rfl, fun _ => rfl, fun _ => rfl, fun r v h => ?_⟩
    rw [pushedSince, h, Bool.or_true]

end Other

namespace Fleet

/-- The versions of the module have come in their order, and its rovers with `auto_update` are at the latest. -/
structure Steady [Semver] (s : Fleet) (moduleID : String) : Prop where
  descending : Descending (s.versions moduleID)
  caughtUp : s.CaughtUp moduleID (latestOf (s.versions moduleID))

theorem Steady.elsewhere [Semver] {s t : Fleet} {moduleID : String} (hs : s.Steady moduleID) (h : Elsewhere moduleID s t) :
    t.Steady moduleID := by
  refine ⟨h.versions ▸ hs.descending, fun roverID version hauto => ?_⟩
  rw [AutoUpdates, h.autoUpdate, h.desired] at hauto
  obtain ⟨hversion, hpushed⟩ := hs.caughtUp roverID version hauto
  rw [h.versions]
  exact ⟨hversion, h.pushed roverID _ hpushed⟩

end Fleet

namespace CheckUpdater

variable {u : CheckUpdater} {s t : Fleet} {moduleID : String} {ans : CheckAnswers}

theorem failed_checkModule [Semver] (hdesc : Descending (s.versions moduleID)) (hall : ans.listVersions = none) :
    Triple (· = s) (u.checkModule moduleID ans) (fun _ _ => True)
      (fun t => Untouched s t ∨ t.versions moduleID ≠ s.versions moduleID) := by
  have hknown : ans.known s moduleID = s.versions moduleID := by rw [CheckAnswers.known, hall]
  have hpass : ∀ {α : Type} (outcome : Except String α),
      Triple (· = s) (MonadExcept.ofExcept outcome : Checking α) (fun _ => (· = s))
        (fun t => Untouched s t ∨ t.versions moduleID ≠ s.versions moduleID) :=
    fun outcome => triple_ofExcept (fun _ _ _ ht => ht) fun t ht => .inl (ht ▸ refl_of Untouched s)
  refine triple_then (hpass _) fun _ => triple_get fun s' hs' => ?_
  subst hs'
  refine triple_then (hpass _) fun mod => triple_then (hpass _) fun _ => triple_then (hpass _) fun releases => ?_
  refine triple_then ((triple_at (keeps_ingestNew (u.ingestsWithin_untouched moduleID) mod ans.release releases _) s').weaken
    (fun _ h => h) (fun _ _ h => h) fun _ => .inl) fun ingested m hm => ⟨fun _ _ _ => trivial, fun e t hrun => ?_⟩
  dsimp only at hrun
  split at hrun
  · rename_i hnew
    have hsame : SameVersions m t :=
      Keeps.ends (keeps_then (keeps_autoUpdate (bumpsWithin_sameVersions moduleID) _ ans) fun _ => keeps_ok _) hrun
    have hversions := (versions_ingestNew (fun v => by rw [hknown]) hdesc hm).1
    rw [versions_of_same hsame, hversions]
    exact .inr fun heq => hnew.1 (List.reverse_eq_nil_iff.mp (List.append_left_eq_self.mp heq))
  · cases hrun

variable {res : CheckResult}

theorem caughtUp_of_steady [Semver] (hpusher : u.pusher.isSome = true) (hs : s.Steady moduleID) (hall : ans.listVersions = none)
    (h : Returns (u.checkModule moduleID ans) s res t) : t.CaughtUp moduleID res.latest := by
  obtain ⟨mod, releases, m, hreleases, hingest, hlatest, -⟩ := checkModule_cases h
  rw [CheckAnswers.known, hall] at hlatest
  refine (caughtUp_iff_reaches h).mpr fun roverID version hauto => ?_
  obtain ⟨hversion, hpushed⟩ := hs.caughtUp roverID version hauto
  unfold Reaches
  split
  · rename_i heq
    rwa [← heq, hversion]
  rename_i hne
  refine ⟨(findsNew_iff hreleases).mpr fun hnone => hne ?_, hpusher⟩
  -- a check that finds nothing new returns the version the rovers are at
  rw [← returns_ingestNew hingest] at hnone
  rw [hlatest, hnone, List.append_nil, hversion]

theorem steady_of_returns [Semver] (hpusher : u.pusher.isSome = true) (hs : s.Steady moduleID) (hall : ans.listVersions = none)
    (h : Returns (u.checkModule moduleID ans) s res t) : t.Steady moduleID := by
  obtain ⟨mod, releases, m, -, hingest, hlatest, hend⟩ := checkModule_cases h
  have hknown : ans.known s moduleID = s.versions moduleID := by rw [CheckAnswers.known, hall]
  rw [hknown] at hingest hlatest
  obtain ⟨hversions, hdesc⟩ := versions_ingestNew (fun v => Iff.rfl) hs.descending hingest
  have hsame : t.versions moduleID = m.versions moduleID := by
    rcases hend with ⟨-, rfl⟩ | ⟨-, -, hbumped⟩
    · rfl
    · exact versions_of_same ((keeps_autoUpdate (bumpsWithin_sameVersions moduleID) _ ans).ends hbumped) moduleID
  have hmoved : res.latest = latestOf (t.versions moduleID) := by
    rw [hlatest, hsame]
    refine latestOf_of_descending hdesc fun v => ?_
    rw [hversions, List.mem_append, List.mem_append, List.mem_reverse, or_comm]
  refine ⟨hsame ▸ hdesc, ?_⟩
  rw [← hmoved]
  exact caughtUp_of_steady hpusher hs hall h

/-- The check reads every version, and if it fails it has ingested nothing. -/
def Uninterrupted [Semver] (u : CheckUpdater) (s : Fleet) (c : Check) : Prop :=
  c.answers.listVersions = none ∧
    ∀ e t, (u.checkModule c.moduleID c.answers).run.run s = (.error e, t) → t.versions c.moduleID = s.versions c.moduleID

theorem steady_after [Semver] {c : Check} (hpusher : u.pusher.isSome = true) (hs : s.Steady moduleID) (hc : u.Uninterrupted s c) :
    (u.after s c).Steady moduleID := by
  by_cases hmodule : moduleID = c.moduleID
  · subst hmodule
    unfold after
    rcases hrun : (u.checkModule c.moduleID c.answers).run.run s with ⟨outcome, t⟩
    cases outcome with
    | ok res => exact steady_of_returns hpusher hs hc.1 hrun
    | error e =>
      have hsame := hc.2 e t hrun
      rcases ((failed_checkModule hs.descending hc.1) s rfl).2 e t hrun with huntouched | hchanged
      · refine hs.elsewhere ⟨hsame, fun r => ?_, fun r => ?_, fun r v hpushed => ?_⟩
        · rw [Fleet.desiredVersion, Fleet.desiredVersion, huntouched.desired]
        · rw [huntouched.autoUpdate]
        · rwa [huntouched.log]
      · exact absurd hsame hchanged
  · exact hs.elsewhere (keeps_checkModule (ingestsWithin_elsewhere hmodule u) (bumpsWithin_elsewhere hmodule) c.answers s)

theorem steady_of_uninterrupted [Semver] {history : List Check} (hpusher : u.pusher.isSome = true) (hs : s.Steady moduleID)
    (h : Along u.after u.Uninterrupted s history) : (history.foldl u.after s).Steady moduleID :=
  h.invariant (Fleet.Steady · moduleID) (fun _ _ hs hc => steady_after hpusher hs hc) hs

/-- In every history of checks, a check that returns leaves the rovers with `auto_update` caught up exactly if each of them was at the latest version with a set pushed since, or was at another one while the check found a new release and could push. In a history without an interruption they always are. -/
theorem auto_update_catches_up_iff [Semver] (u : CheckUpdater) (s₀ : Fleet) (history : List Check) {c : Check} {res : CheckResult}
    {t : Fleet} (h : Returns (u.checkModule c.moduleID c.answers) (history.foldl u.after s₀) res t) :
    (t.CaughtUp c.moduleID res.latest ↔
      ∀ roverID version, (history.foldl u.after s₀).AutoUpdates c.moduleID roverID version →
        u.Reaches c.answers (history.foldl u.after s₀) c.moduleID roverID version res.latest) ∧
      (u.pusher.isSome = true → s₀.Steady c.moduleID → Along u.after u.Uninterrupted s₀ (history ++ [c]) →
        t.CaughtUp c.moduleID res.latest) := by
  refine ⟨caughtUp_iff_reaches h, fun hpusher hs hall => ?_⟩
  obtain ⟨hhistory, hlast, -⟩ := along_append.mp hall
  exact caughtUp_of_steady hpusher (steady_of_uninterrupted hpusher hs hhistory) hlast.1 h

def shop : CheckUpdater where
  api := {
    root := "/var/lib/modules"
    parseURL := fun _ => some ⟨"https", "github.com", "github.com", "/waypointos/waypoint-module-example"⟩
    box := none
    parseManifest := fun _ => .ok ⟨"camera", "Camera", "1.1.0"⟩
    verify := fun _ _ san => .ok san
    sha256 := fun _ => "00" }
  pusher := some DesiredLink.plainPusher

def onTrack : Fleet :=
  let repo : ModulesRepo := { DesiredLink.oneModule with
    versions := (∅ : Table (String × String) VersionRow).insert ("camera", "1.0.0") ⟨"/var/lib/modules/camera/1.0.0.raw", "00", []⟩
    desired := (∅ : Table (String × String) DesiredRow).insert ("r1", "camera") ⟨"1.0.0", ""⟩ }
  { registry := { repo := repo }
    autoUpdate := fun key => decide (key = ("r1", "camera"))
    log := [.pushed "r1" (DesiredLink.plainPusher.assemble "r1" repo [] (repo.desiredForRover "r1")),
      .desired "r1" "camera" "1.0.0"] }

def findsNext (setDesiredVersion push : Option String) : Check where
  moduleID := "camera"
  answers := {
    listReleases := .ok [⟨"v1.1.0", [⟨"manifest.json", "https://api.github.com/1"⟩, ⟨"camera.raw", "https://api.github.com/2"⟩,
      ⟨"camera.raw.cosign", "https://api.github.com/3"⟩]⟩]
    release := fun _ => ⟨fun _ => .ok [1], fun _ => .ok [2], fun _ => .ok [3], none, none, none⟩
    setDesiredVersion := fun _ => setDesiredVersion
    push := fun _ => push }

section

attribute [local instance] Semver.oneDigit

theorem steady_onTrack : onTrack.Steady "camera" := by
  refine ⟨⟨by decide +kernel, trivial⟩, fun roverID version hauto => ?_⟩
  obtain ⟨hflag, hversion⟩ := hauto
  have hrover : roverID = "r1" := congrArg Prod.fst (of_decide_eq_true hflag)
  subst hrover
  have hdesired : onTrack.desiredVersion "r1" "camera" = some "1.0.0" := by decide +kernel
  cases hdesired.symm.trans hversion
  exact ⟨by decide +kernel, by decide +kernel⟩

def undisturbed : Check := findsNext none none

theorem auto_update_catches_up_iff_onTrack :
    ∃ t, Returns (shop.checkModule "camera" undisturbed.answers) ([undisturbed].foldl shop.after onTrack) ⟨[], "1.1.0", []⟩ t ∧
      Along shop.after shop.Uninterrupted onTrack ([undisturbed] ++ [undisturbed]) ∧
      t.desiredVersion "r1" "camera" = some "1.1.0" ∧ t.CaughtUp "camera" "1.1.0" := by
  obtain ⟨hfirst, hsecond, hversion⟩ :
      ((shop.checkModule "camera" undisturbed.answers).run.run onTrack).1 = .ok ⟨["1.1.0"], "1.1.0", ["r1"]⟩ ∧
        ((shop.checkModule "camera" undisturbed.answers).run.run (shop.after onTrack undisturbed)).1 =
          .ok ⟨[], "1.1.0", []⟩ ∧
        (shop.after (shop.after onTrack undisturbed) undisturbed).desiredVersion "r1" "camera" = some "1.1.0" := by
    decide +kernel
  have hall : Along shop.after shop.Uninterrupted onTrack ([undisturbed] ++ [undisturbed]) :=
    ⟨⟨rfl, fun e t hrun => (by cases hfirst.symm.trans (congrArg Prod.fst hrun))⟩,
      ⟨rfl, fun e t hrun => (by cases hsecond.symm.trans (congrArg Prod.fst hrun))⟩, trivial⟩
  have hrun := returns_after (u := shop) (c := undisturbed) hsecond
  exact ⟨_, hrun, hall, hversion, (auto_update_catches_up_iff shop onTrack [undisturbed] hrun).2 rfl steady_onTrack hall⟩

def pushFails : Check := findsNext none (some "nats: connection closed")

def writeFails : Check := findsNext (some "conn closed") none

/-- The first check ingests the release and fails at the rover. The check after it returns without an error, and leaves the rover without the push, or even at the old version. -/
theorem bump_not_taken_up_again :
    (∃ t, Returns (shop.checkModule "camera" undisturbed.answers) ([pushFails].foldl shop.after onTrack) ⟨[], "1.1.0", []⟩ t ∧
      t.AutoUpdates "camera" "r1" "1.1.0" ∧ pushedSince "r1" "camera" "1.1.0" t.log = false ∧ ¬ t.CaughtUp "camera" "1.1.0") ∧
    ∃ t, Returns (shop.checkModule "camera" undisturbed.answers) ([writeFails].foldl shop.after onTrack) ⟨[], "1.1.0", []⟩ t ∧
      t.AutoUpdates "camera" "r1" "1.0.0" ∧ ¬ t.CaughtUp "camera" "1.1.0" := by
  constructor
  · obtain ⟨hresult, hflag, hversion, hunpushed⟩ :
        ((shop.checkModule "camera" undisturbed.answers).run.run (shop.after onTrack pushFails)).1 = .ok ⟨[], "1.1.0", []⟩ ∧
          (shop.after (shop.after onTrack pushFails) undisturbed).autoUpdate ("r1", "camera") = true ∧
          (shop.after (shop.after onTrack pushFails) undisturbed).desiredVersion "r1" "camera" = some "1.1.0" ∧
          pushedSince "r1" "camera" "1.1.0" (shop.after (shop.after onTrack pushFails) undisturbed).log = false := by
      decide +kernel
    have hrun := returns_after (u := shop) (c := undisturbed) hresult
    refine ⟨_, hrun, ⟨hflag, hversion⟩, hunpushed, fun hcaught => ?_⟩
    exact Bool.false_ne_true (hunpushed.symm.trans (hcaught "r1" "1.1.0" ⟨hflag, hversion⟩).2)
  · obtain ⟨hresult, hflag, hversion⟩ :
        ((shop.checkModule "camera" undisturbed.answers).run.run (shop.after onTrack writeFails)).1 = .ok ⟨[], "1.1.0", []⟩ ∧
          (shop.after (shop.after onTrack writeFails) undisturbed).autoUpdate ("r1", "camera") = true ∧
          (shop.after (shop.after onTrack writeFails) undisturbed).desiredVersion "r1" "camera" = some "1.0.0" := by
      decide +kernel
    have hrun := returns_after (u := shop) (c := undisturbed) hresult
    refine ⟨_, hrun, ⟨hflag, hversion⟩, fun hcaught => ?_⟩
    exact absurd (hcaught "r1" "1.0.0" ⟨hflag, hversion⟩).1 (by decide)

end

/-! ### The latest version -/

/-- What a check that returns calls the latest is a maximum of the versions that it knew and of the releases, in whatever order these are listed; and what it has ingested is increasing and newer than all it knew. -/
theorem latest_is_newest [Semver] (u : CheckUpdater) {moduleID : String} {s t : Fleet} {ans : CheckAnswers}
    {releases : List GitHubRelease} {res : CheckResult} (hreleases : ans.listReleases = .ok releases)
    (h : Returns (u.checkModule moduleID ans) s res t) :
    (candidates (ans.known s moduleID) releases = [] → res.latest = "") ∧
      (∀ v ∈ candidates (ans.known s moduleID) releases,
        res.latest ∈ candidates (ans.known s moduleID) releases ∧ AtMost v res.latest) ∧
      res.ingested.Pairwise (fun v w => Semver.cmp (canon w) (canon v) = .gt) ∧ res.ingested.Nodup ∧
      (∀ v ∈ res.ingested, ∀ w ∈ ans.known s moduleID, Semver.cmp (canon v) (canon w) = .gt) ∧
      ∀ {releases' ans' s' res' t'}, releases'.Perm releases → ans'.listReleases = .ok releases' →
        ans'.known s' moduleID = ans.known s moduleID → Returns (u.checkModule moduleID ans') s' res' t' →
        Semver.cmp (canon res'.latest) (canon res.latest) = .eq := by
  have hlatest : ∀ {releases ans s res t}, ans.listReleases = .ok releases → Returns (u.checkModule moduleID ans) s res t →
      res.ingested = newVersions releases (ans.known s moduleID) ∧
        res.latest = latestOf (ans.known s moduleID ++ newVersions releases (ans.known s moduleID)) := by
    intro releases ans s res t hreleases h
    obtain ⟨mod, releases', m, hreleases', hingest, hlatest, -⟩ := CheckUpdater.checkModule_cases h
    cases hreleases.symm.trans hreleases'
    have hingested := CheckUpdater.returns_ingestNew hingest
    exact ⟨hingested, hingested ▸ hlatest⟩
  obtain ⟨hingested, hlatest'⟩ := hlatest hreleases h
  obtain ⟨hnone, hmost⟩ := latest_spec (ans.known s moduleID) releases
  obtain ⟨hincreasing, hnew, -⟩ := newVersions_spec releases (ans.known s moduleID)
  rw [hingested, hlatest']
  refine ⟨hnone, hmost, hincreasing, hincreasing.imp fun hgt heq => ?_, fun v hv => (isNewerVersion_iff.mp (hnew v hv).1).2, ?_⟩
  · rw [heq, Semver.cmp_self] at hgt
    cases hgt
  intro releases' ans' s' res' t' hperm hreleases' hknown h'
  obtain ⟨-, hlatest'⟩ := hlatest hreleases' h'
  obtain ⟨hnone', hmost'⟩ := latest_spec (ans.known s moduleID) releases'
  have hsame : ∀ v, v ∈ candidates (ans.known s moduleID) releases' ↔ v ∈ candidates (ans.known s moduleID) releases := by
    intro v
    simp only [candidates, List.mem_append, List.mem_filter, (hperm.map (·.version)).mem_iff]
  rw [hlatest', hknown]
  cases hcandidates : candidates (ans.known s moduleID) releases with
  | nil =>
    rw [hnone hcandidates, hnone' (List.eq_nil_iff_forall_not_mem.mpr fun v hv => by simpa [hcandidates] using (hsame v).mp hv)]
    exact Semver.cmp_self _
  | cons v rest =>
    have hv : v ∈ candidates (ans.known s moduleID) releases := hcandidates ▸ List.mem_cons_self
    obtain ⟨hmem, -⟩ := hmost v hv
    obtain ⟨hmem', -⟩ := hmost' v ((hsame v).mpr hv)
    have hle := (hmost _ ((hsame _).mp hmem')).2
    have hge := (hmost' _ ((hsame _).mpr hmem)).2
    rw [AtMost, ← Semver.cmp_swap] at hge
    unfold AtMost at hle
    cases hcmp : Semver.cmp (canon (latestOf (ans.known s moduleID ++ newVersions releases' (ans.known s moduleID))))
        (canon (latestOf (ans.known s moduleID ++ newVersions releases (ans.known s moduleID)))) <;> simp_all

attribute [local instance] Semver.oneDigit in
theorem latest_is_newest_onTrack :
    ∃ t, Returns (shop.checkModule "camera" undisturbed.answers) onTrack ⟨["1.1.0"], "1.1.0", ["r1"]⟩ t ∧
      AtMost "1.0.0" "1.1.0" ∧ Semver.cmp (canon "1.1.0") (canon "1.0.0") = .gt := by
  have hresult : ((shop.checkModule "camera" undisturbed.answers).run.run onTrack).1 = .ok ⟨["1.1.0"], "1.1.0", ["r1"]⟩ := by
    decide +kernel
  have hrun := returns_after (u := shop) (c := undisturbed) hresult
  obtain ⟨-, hmost, -, -, hnewer, -⟩ := latest_is_newest shop rfl hrun
  exact ⟨_, hrun, (hmost "1.0.0" (by decide +kernel)).2, hnewer "1.1.0" (by decide) "1.0.0" (by decide +kernel)⟩

end CheckUpdater

end Waypoint.Proxy
