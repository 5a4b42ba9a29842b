import Waypoint.Proxy.Register

/-!
# The pinned identity of a registered module

A request passes the comparison of the identities while the module is not registered yet, and writes its own identity later; the image is stored under a path that the other requests for the version share.
-/

namespace Waypoint.Proxy

open Base

namespace Stage

def request : Stage → Option Prepared
  | .prepared p | .pinned p | .verified p _ | .stored p _ | .registered p _ => some p
  | _ => none

def pin : Stage → Option Prepared
  | .pinned p | .verified p _ | .stored p _ | .registered p _ => some p
  | _ => none

def image : Stage → Option (Prepared × Image)
  | .verified p raw | .stored p raw | .registered p raw => some (p, raw)
  | _ => none

def blob : Stage → Option (Prepared × Image)
  | .stored p raw | .registered p raw => some (p, raw)
  | _ => none

def row : Stage → Option Prepared
  | .registered p _ => some p
  | _ => none

variable {st : Stage} {p : Prepared} {raw : Image}

theorem request_of_image (h : st.image = some (p, raw)) :
    st.request = some p := by
  cases st <;> first | cases h; done | (cases h; rfl)

theorem image_of_blob (h : st.blob = some (p, raw)) :
    st.image = some (p, raw) := by
  cases st <;> first | cases h; done | exact h

end Stage

/-- The requests under way for a module agree. -/
structure RegisterState.Compatible (s : RegisterState) : Prop where
  identities : ∀ t t' p p', (s.stage t).pin = some p → (s.stage t').pin = some p' → p.moduleID = p'.moduleID →
    p.expectedSAN = p'.expectedSAN
  images : ∀ t t' p p' raw raw', (s.stage t).image = some (p, raw) → (s.stage t').image = some (p', raw') →
    p.moduleID = p'.moduleID → p.version = p'.version → raw = raw'

section

variable (api : RegisterAPI)

namespace RegistryStore

def PinnedTo (g : RegistryStore) (id san : String) : Prop :=
  ∃ m, g.repo.getModule id = some m ∧ m.expectedIdentitySAN = san

/-- Every stored version has its image, signed by the pinned identity. -/
def Authentic (g : RegistryStore) : Prop :=
  ∀ id version row, g.repo.versions.lookup (id, version) = some row →
    ∃ san raw, g.PinnedTo id san ∧ g.blobs row.rawPath = some raw ∧ api.sha256 raw = row.rawSha256 ∧
      api.Verified raw san

/-- The row's image is there, with its hash and a signature of the pinned identity. -/
structure RowFits (g : RegistryStore) (id version : String) (row : VersionRow) : Prop where
  blobbed : Blobbed id version
  path : row.rawPath = blobPath api.root id version
  content : ∃ san raw, g.PinnedTo id san ∧ g.blobs (blobPath api.root id version) = some raw ∧
    api.sha256 raw = row.rawSha256 ∧ api.Verified raw san

/-- What a request under way has found out still holds. -/
structure Fits (g : RegistryStore) (st : Stage) : Prop where
  request : ∀ p, st.request = some p → moduleIDPattern p.moduleID = true
  pin : ∀ p, st.pin = some p → ∀ san, g.PinnedTo p.moduleID san → san = p.expectedSAN
  image : ∀ p raw, st.image = some (p, raw) → '/' ∉ p.version.toList ∧ api.Verified raw p.expectedSAN ∧
    ∀ row, g.repo.versions.lookup (p.moduleID, p.version) = some row →
      g.blobs (blobPath api.root p.moduleID p.version) = some raw
  blob : ∀ p raw, st.blob = some (p, raw) → g.blobs (blobPath api.root p.moduleID p.version) = some raw
  row : ∀ p, st.row = some p → ∃ san, g.PinnedTo p.moduleID san

end RegistryStore

namespace RegisterState

/-- What holds between the steps of any requests. -/
structure Inv (s : RegisterState) : Prop where
  stages : ∀ t, s.registry.Fits api (s.stage t)
  rows : ∀ id version row, s.registry.repo.versions.lookup (id, version) = some row →
    s.registry.RowFits api id version row

inductive Step [Semver] (s : RegisterState) : RegisterState → Prop
  | answer (t : Nat) (r : Response) : Step s (s.setStage t (.answered r))
  | prepare (t : Nat) (p : Prepared) (hid : moduleIDPattern p.moduleID = true) : Step s (s.setStage t (.prepared p))
  | pin (t : Nat) (p : Prepared) (hstage : s.stage t = .prepared p)
      (hpin : ∀ m, s.registry.repo.getModule p.moduleID = some m → m.expectedIdentitySAN = p.expectedSAN) :
      Step s (s.setStage t (.pinned p))
  | verify (t : Nat) (p : Prepared) (raw : Image) (hstage : s.stage t = .pinned p)
      (hnewer : isNewerVersion p.version ((s.registry.repo.listVersions p.moduleID).map (·.1)) = true)
      (hverified : api.Verified raw p.expectedSAN) : Step s (s.setStage t (.verified p raw))
  | put (t : Nat) (p : Prepared) (raw : Image) (hstage : s.stage t = .verified p raw) :
      Step s ({ s with registry := s.registry.put api p raw }.setStage t (.stored p raw))
  | register (t : Nat) (p : Prepared) (raw : Image) (hstage : s.stage t = .stored p raw) :
      Step s ({ s with registry := s.registry.register p }.setStage t (.registered p raw))
  | ingest (t : Nat) (p : Prepared) (raw : Image) (g : RegistryStore) (r : Response)
      (hstage : s.stage t = .registered p raw) (hingest : s.registry.ingest api p raw = some g) :
      Step s ({ s with registry := g }.setStage t (.answered r))

end RegisterState

end

variable {api : RegisterAPI}

namespace RegisterState

theorem step_of_next [Semver] {s s' : RegisterState} {a : Action} (h : s.next api a = some s') : s.Step api s' := by
  cases a with
  | request t body user fetched =>
    simp only [next] at h
    split at h
    · cases h
      cases hprepare : api.prepare body user fetched with
      | error r => exact .answer t r
      | ok p => exact .prepare t p (api.moduleIDPattern_of_prepare hprepare)
    · cases h
  | getModule t fault =>
    simp only [next] at h
    split at h
    · rename_i p hstage
      cases h
      cases hcheck : RegisterAPI.checkPin p fault (s.registry.repo.getModule p.moduleID) with
      | error r => exact .answer t r
      | ok u => exact .pin t p hstage (RegisterAPI.checkPin_eq_ok hcheck)
    · cases h
  | listVersions t fault raw bundle =>
    simp only [next] at h
    split at h
    · rename_i p hstage
      cases h
      cases hcheck : api.checkRelease p fault (s.registry.repo.listVersions p.moduleID) raw bundle with
      | error r => exact .answer t r
      | ok image =>
        obtain ⟨hnewer, hverified⟩ := api.checkRelease_eq_ok hcheck
        exact .verify t p image hstage hnewer hverified
    · cases h
  | put t fault =>
    simp only [next] at h
    split at h
    · cases h
      exact .answer t _
    · rename_i p raw hstage
      cases h
      exact .put t p raw hstage
    · cases h
  | registerModule t static fault =>
    simp only [next] at h
    split at h
    · cases h
      exact .answer t _
    · cases h
      exact .answer t _
    · rename_i p raw hstage
      cases h
      exact .register t p raw hstage
    · cases h
  | ingestVersion t fault =>
    simp only [next] at h
    split at h
    · cases h
      exact .answer t _
    · rename_i p raw hstage
      split at h
      · cases h
        exact .answer t _
      · rename_i g hingest
        cases h
        exact .ingest t p raw g _ hstage hingest
    · cases h

end RegisterState

/-! ### The three writes

Each write is followed through what holds of a request, and through what holds of a row. -/

namespace RegistryStore

variable {g : RegistryStore} {p : Prepared} {raw : Image} {st : Stage}

theorem Fits.blobbed (h : g.Fits api st) (himage : st.image = some (p, raw)) : Blobbed p.moduleID p.version :=
  ⟨h.request p (Stage.request_of_image himage), (h.image p raw himage).1⟩

theorem blobs_put_self : (g.put api p raw).blobs (blobPath api.root p.moduleID p.version) = some raw :=
  Function.update_self ..

variable {id version : String}

theorem blobs_put {body : Image} (h : Blobbed id version) (hp : Blobbed p.moduleID p.version)
    (hsame : id = p.moduleID → version = p.version → body = raw)
    (hblob : g.blobs (blobPath api.root id version) = some body) :
    (g.put api p raw).blobs (blobPath api.root id version) = some body := by
  by_cases hkey : id = p.moduleID ∧ version = p.version
  · rw [hsame hkey.1 hkey.2, hkey.1, hkey.2]
    exact blobs_put_self
  have hpath : blobPath api.root id version ≠ blobPath api.root p.moduleID p.version :=
    fun heq => hkey (blobPath_injective h hp heq)
  rw [← hblob]
  exact Function.update_of_ne hpath _ _

theorem Fits.put (h : g.Fits api st) (hp : Blobbed p.moduleID p.version)
    (hsame : ∀ p' raw', st.image = some (p', raw') → p'.moduleID = p.moduleID → p'.version = p.version → raw' = raw) :
    (g.put api p raw).Fits api st where
  request := h.request
  pin := h.pin
  image p' raw' himage := by
    obtain ⟨hversion, hverified, hrow⟩ := h.image p' raw' himage
    exact ⟨hversion, hverified, fun row hlookup =>
      blobs_put (h.blobbed himage) hp (hsame p' raw' himage) (hrow row hlookup)⟩
  blob p' raw' hblob :=
    have himage := Stage.image_of_blob hblob
    blobs_put (h.blobbed himage) hp (hsame p' raw' himage) (h.blob p' raw' hblob)
  row := h.row

variable {row : VersionRow} {san : String} {g' : RegistryStore}

theorem RowFits.put (h : g.RowFits api id version row)
    (hp : Blobbed p.moduleID p.version)
    (hsame : id = p.moduleID → version = p.version → g.blobs (blobPath api.root id version) = some raw) :
    (g.put api p raw).RowFits api id version row where
  blobbed := h.blobbed
  path := h.path
  content := by
    obtain ⟨san, body, hpinned, hblob, hrest⟩ := h.content
    refine ⟨san, body, hpinned, blobs_put h.blobbed hp (fun hid hversion => ?_) hblob, hrest⟩
    rw [hsame hid hversion] at hblob
    exact (Option.some.inj hblob).symm

theorem pinnedTo_register (hpin : ∀ san, g.PinnedTo p.moduleID san → san = p.expectedSAN)
    (h : g.PinnedTo id san) : (g.register p).PinnedTo id san := by
  by_cases hid : id = p.moduleID
  · subst hid
    rw [hpin san h]
    exact g.repo.expectedIdentitySAN_registerModule p.moduleID _
  · obtain ⟨m, hm, hsan⟩ := h
    exact ⟨m, (g.repo.getModule_registerModule_of_ne hid _).trans hm, hsan⟩

theorem pinnedTo_of_register (h : (g.register p).PinnedTo id san) :
    id = p.moduleID ∧ san = p.expectedSAN ∨ g.PinnedTo id san := by
  obtain ⟨m, hm, rfl⟩ := h
  by_cases hid : id = p.moduleID
  · subst hid
    obtain ⟨m', hm', hsan⟩ := g.repo.expectedIdentitySAN_registerModule p.moduleID
      { displayName := p.displayName, sourceRepoURL := p.sourceRepoURL, expectedIdentitySAN := p.expectedSAN,
        registeredBy := p.user, repoVisibility := p.repoVisibility, githubTokenEnc := p.tokenEnc }
    cases hm.symm.trans hm'
    exact .inl ⟨rfl, hsan⟩
  · exact .inr ⟨m, (g.repo.getModule_registerModule_of_ne hid _).symm.trans hm, rfl⟩

theorem Fits.register (h : g.Fits api st) (hpin : ∀ san, g.PinnedTo p.moduleID san → san = p.expectedSAN)
    (hsame : ∀ p', st.pin = some p' → p'.moduleID = p.moduleID → p'.expectedSAN = p.expectedSAN) :
    (g.register p).Fits api st where
  request := h.request
  pin p' hp' san hsan := by
    obtain ⟨hid, rfl⟩ | hbefore := pinnedTo_of_register hsan
    · exact (hsame p' hp' hid).symm
    · exact h.pin p' hp' san hbefore
  image p' raw' himage := by
    obtain ⟨hversion, hverified, hrow⟩ := h.image p' raw' himage
    refine ⟨hversion, hverified, fun row hlookup => hrow row ?_⟩
    rwa [RegistryStore.register, ModulesRepo.versions_registerModule] at hlookup
  blob := h.blob
  row p' hrow := by
    obtain ⟨san, hsan⟩ := h.row p' hrow
    exact ⟨san, pinnedTo_register hpin hsan⟩

theorem RowFits.register (h : g.RowFits api id version row)
    (hpin : ∀ san, g.PinnedTo p.moduleID san → san = p.expectedSAN) : (g.register p).RowFits api id version row where
  blobbed := h.blobbed
  path := h.path
  content := by
    obtain ⟨san, body, hpinned, hrest⟩ := h.content
    exact ⟨san, body, pinnedTo_register hpin hpinned, hrest⟩

theorem ingest_eq_some (h : g.ingest api p raw = some g') :
    g'.blobs = g.blobs ∧ (∀ id san, g'.PinnedTo id san ↔ g.PinnedTo id san) ∧
      ∀ id version row, g'.repo.versions.lookup (id, version) = some row →
        g.repo.versions.lookup (id, version) = some row ∨
          id = p.moduleID ∧ version = p.version ∧ row.rawPath = blobPath api.root id version ∧
            row.rawSha256 = api.sha256 raw := by
  obtain ⟨repo, hrepo, rfl⟩ := Option.map_eq_some_iff.mp h
  rw [g.repo.ingestVersion_eq_some hrepo]
  refine ⟨rfl, fun id san => Iff.rfl, fun id version row hlookup => ?_⟩
  obtain hbefore | ⟨hkey, rfl⟩ := Table.lookup_insertOrIgnore hlookup
  · exact .inl hbefore
  · cases hkey
    exact .inr ⟨rfl, rfl, rfl, rfl⟩

theorem Fits.ingest (hingest : g.ingest api p raw = some g') (h : g.Fits api st)
    (hblob : g.blobs (blobPath api.root p.moduleID p.version) = some raw)
    (hsame : ∀ p' raw', st.image = some (p', raw') → p'.moduleID = p.moduleID → p'.version = p.version → raw' = raw) :
    g'.Fits api st := by
  obtain ⟨hblobs, hpinned, hrows⟩ := ingest_eq_some hingest
  refine ⟨h.request, fun p' hp' san hsan => h.pin p' hp' san ((hpinned _ _).mp hsan), fun p' raw' himage => ?_, ?_,
    fun p' hrow => ?_⟩
  · obtain ⟨hversion, hverified, hrow⟩ := h.image p' raw' himage
    refine ⟨hversion, hverified, fun row hlookup => ?_⟩
    rw [hblobs]
    obtain hbefore | ⟨hid, hv, -, -⟩ := hrows _ _ _ hlookup
    · exact hrow row hbefore
    · rw [hid, hv, hsame p' raw' himage hid hv]
      exact hblob
  · rw [hblobs]
    exact h.blob
  · obtain ⟨san, hsan⟩ := h.row p' hrow
    exact ⟨san, (hpinned _ _).mpr hsan⟩

end RegistryStore

/-! ### Runs -/

namespace RegisterState

variable {t : Nat} {p : Prepared} {raw : Image} {s : RegisterState} {st : Stage}

theorem forall_setStage {P : Stage → Prop} (hnew : P st)
    (hothers : ∀ t, P (s.stage t)) : ∀ t', P ((s.setStage t st).stage t') := by
  intro t'
  by_cases ht : t' = t
  · subst ht
    change P (Function.update s.stage t' st t')
    rw [Function.update_self]
    exact hnew
  · change P (Function.update s.stage t st t')
    rw [Function.update_of_ne ht]
    exact hothers t'

theorem fits_idle (g : RegistryStore) : g.Fits api .idle := ⟨nofun, nofun, nofun, nofun, nofun⟩

theorem fits_answered (g : RegistryStore) (r : Response) : g.Fits api (.answered r) :=
  ⟨nofun, nofun, nofun, nofun, nofun⟩

variable {s s' : RegisterState}

theorem Inv.setStage (hinv : s.Inv api) (hfits : s.registry.Fits api st) :
    (s.setStage t st).Inv api :=
  ⟨forall_setStage hfits hinv.stages, hinv.rows⟩

theorem Compatible.image (hcompatible : s.Compatible)
    (h : (s.stage t).image = some (p, raw)) (t' : Nat) (p' : Prepared) (raw' : Image)
    (h' : (s.stage t').image = some (p', raw')) (hid : p'.moduleID = p.moduleID) (hversion : p'.version = p.version) :
    raw' = raw :=
  hcompatible.images t' t p' p raw' raw h' h hid hversion

theorem inv_put (hinv : s.Inv api) (hcompatible : s.Compatible)
    (hstage : s.stage t = .verified p raw) :
    ({ s with registry := s.registry.put api p raw }.setStage t (.stored p raw)).Inv api := by
  have himage : (s.stage t).image = some (p, raw) := by rw [hstage]; rfl
  have hp : Blobbed p.moduleID p.version := (hinv.stages t).blobbed himage
  have hstages : ∀ t', (s.registry.put api p raw).Fits api (s.stage t') := fun t' =>
    (hinv.stages t').put hp (hcompatible.image himage t')
  refine Inv.setStage ⟨hstages, fun id version row hlookup => ?_⟩ ?_
  · refine (hinv.rows id version row hlookup).put hp ?_
    rintro rfl rfl
    exact ((hinv.stages t).image p raw himage).2.2 row hlookup
  have hold := hstages t
  rw [hstage] at hold
  refine ⟨hold.request, hold.pin, hold.image, ?_, nofun⟩
  rintro _ _ ⟨⟩
  exact RegistryStore.blobs_put_self

theorem inv_register (hinv : s.Inv api) (hcompatible : s.Compatible)
    (hstage : s.stage t = .stored p raw) :
    ({ s with registry := s.registry.register p }.setStage t (.registered p raw)).Inv api := by
  have hrequest : (s.stage t).pin = some p := by rw [hstage]; rfl
  have hpin := (hinv.stages t).pin p hrequest
  have hstages : ∀ t', (s.registry.register p).Fits api (s.stage t') := fun t' =>
    (hinv.stages t').register hpin fun p' hp' hid => hcompatible.identities t' t p' p hp' hrequest hid
  refine Inv.setStage ⟨hstages, fun id version row hlookup => ?_⟩ ?_
  · refine (hinv.rows id version row ?_).register hpin
    rwa [RegistryStore.register, ModulesRepo.versions_registerModule] at hlookup
  have hold := hstages t
  rw [hstage] at hold
  refine ⟨hold.request, hold.pin, hold.image, hold.blob, ?_⟩
  rintro _ ⟨⟩
  exact ⟨p.expectedSAN, s.registry.repo.expectedIdentitySAN_registerModule p.moduleID _⟩

theorem inv_ingest (hinv : s.Inv api) (hcompatible : s.Compatible)
    {g : RegistryStore} {r : Response} (hstage : s.stage t = .registered p raw)
    (hingest : s.registry.ingest api p raw = some g) :
    ({ s with registry := g }.setStage t (.answered r)).Inv api := by
  have himage : (s.stage t).image = some (p, raw) := by rw [hstage]; rfl
  have hfits := hinv.stages t
  have hblob := hfits.blob p raw (by rw [hstage]; rfl)
  obtain ⟨hblobs, hpinned, hrows⟩ := RegistryStore.ingest_eq_some hingest
  have hstages : ∀ t', g.Fits api (s.stage t') := fun t' =>
    (hinv.stages t').ingest hingest hblob (hcompatible.image himage t')
  refine ⟨forall_setStage (fits_answered g r) hstages, fun id version row hlookup => ?_⟩
  obtain hbefore | ⟨rfl, rfl, hpath, hsha⟩ := hrows id version row hlookup
  · obtain ⟨hkey, hpath, san, body, hsan, hbody, hrest⟩ := hinv.rows id version row hbefore
    exact ⟨hkey, hpath, san, body, (hpinned id san).mpr hsan, (congrFun hblobs _).trans hbody, hrest⟩
  -- the row is new: the request has put its image there and has registered the module under its identity
  obtain ⟨san, hsan⟩ := hfits.row p (by rw [hstage]; rfl)
  have hidentity := hfits.pin p (by rw [hstage]; rfl) san hsan
  refine ⟨hfits.blobbed himage, hpath, san, raw, (hpinned _ _).mpr hsan, (congrFun hblobs _).trans hblob, hsha.symm, ?_⟩
  rw [hidentity]
  exact (hfits.image p raw himage).2.1

theorem inv_of_step [Semver] (hinv : s.Inv api) (hcompatible : s.Compatible) (hstep : s.Step api s') : s'.Inv api := by
  cases hstep with
  | answer t r => exact hinv.setStage (fits_answered _ r)
  | prepare t p hid =>
    refine hinv.setStage ⟨?_, nofun, nofun, nofun, nofun⟩
    rintro _ ⟨⟩
    exact hid
  | pin t p hstage hpin =>
    have hold := hinv.stages t
    rw [hstage] at hold
    refine hinv.setStage ⟨hold.request, ?_, nofun, nofun, nofun⟩
    rintro _ ⟨⟩ san ⟨m, hm, rfl⟩
    exact hpin m hm
  | verify t p raw hstage hnewer hverified =>
    have hold := hinv.stages t
    rw [hstage] at hold
    refine hinv.setStage ⟨hold.request, hold.pin, ?_, nofun, nofun⟩
    rintro _ _ ⟨⟩
    refine ⟨not_slash_of_isNewerVersion hnewer, hverified, fun row hlookup => ?_⟩
    -- a version that is listed already is not newer
    have hlisted : p.version ∈ (s.registry.repo.listVersions p.moduleID).map (·.1) :=
      List.mem_map.mpr ⟨(p.version, row), s.registry.repo.mem_listVersions.mpr hlookup, rfl⟩
    exact absurd hlisted (not_mem_of_isNewerVersion hnewer)
  | put t p raw hstage => exact inv_put hinv hcompatible hstage
  | register t p raw hstage => exact inv_register hinv hcompatible hstage
  | ingest t p raw g r hstage hingest => exact inv_ingest hinv hcompatible hstage hingest

theorem inv_init : RegisterState.Inv api {} := by
  refine ⟨fun t => fits_idle _, fun id version row hlookup => ?_⟩
  have hempty : (∅ : Table (String × String) VersionRow).lookup (id, version) = some row := hlookup
  rw [AList.lookup_empty] at hempty
  cases hempty

theorem pinnedTo_of_step [Semver] (hinv : s.Inv api) {id san : String} (h : s.registry.PinnedTo id san) (hstep : s.Step api s') :
    s'.registry.PinnedTo id san := by
  cases hstep with
  | register t p raw hstage =>
    exact RegistryStore.pinnedTo_register ((hinv.stages t).pin p (by rw [hstage]; rfl)) h
  | ingest t p raw g r hstage hingest => exact ((RegistryStore.ingest_eq_some hingest).2.1 id san).mpr h
  | answer | prepare | pin | verify | put => exact h

theorem Inv.authentic (hinv : s.Inv api) : s.registry.Authentic api := by
  intro id version row hlookup
  obtain ⟨-, hpath, san, raw, hcontent⟩ := hinv.rows id version row hlookup
  rw [← hpath] at hcontent
  exact ⟨san, raw, hcontent⟩

abbrev AgreeingRun [Semver] (api : RegisterAPI) : RegisterState → List Action → RegisterState → Prop :=
  Run (Guarded (fun s _ => s.Compatible) (Takes (next api)))

/-- Where the requests under way for a module agree, its identity stays as it was first set, and the image of every
stored version has the hash of its row and was verified against that identity. -/
theorem identity_fixed [Semver] {before after : List Action} {s t : RegisterState} (hs : AgreeingRun api {} before s)
    (ht : AgreeingRun api s after t) :
    (∀ id san, s.registry.PinnedTo id san → t.registry.PinnedTo id san) ∧ t.registry.Authentic api := by
  have hinv : s.Inv api :=
    hs.invariant (Inv api) (fun _ _ _ hinv hstep => inv_of_step hinv hstep.1 (step_of_next hstep.2)) inv_init
  constructor
  · intro id san hpinned
    have hkept := ht.invariant (fun s => s.Inv api ∧ s.registry.PinnedTo id san)
      (fun _ _ _ hinv hstep =>
        have hstep' := step_of_next hstep.2
        ⟨inv_of_step hinv.1 hstep.1 hstep', pinnedTo_of_step hinv.1 hinv.2 hstep'⟩) ⟨hinv, hpinned⟩
    exact hkept.2
  · exact (ht.invariant (Inv api) (fun _ _ _ hinv hstep => inv_of_step hinv hstep.1 (step_of_next hstep.2)) hinv).authentic

/-! ### Two repositories with one module name -/

def ownSAN : String := "^https://github\\.com/o/r/\\.github/workflows/release\\.yml@refs/tags/v.+$"

def evilSAN : String := "^https://github\\.com/evil/r/\\.github/workflows/release\\.yml@refs/tags/v.+$"

def twoRepos : RegisterAPI where
  root := "/blobs"
  parseURL url :=
    if url = "https://github.com/o/r" then some ⟨"https", "github.com", "github.com", "/o/r"⟩
    else if url = "https://github.com/evil/r" then some ⟨"https", "github.com", "github.com", "/evil/r"⟩
    else none
  box := none
  parseManifest _ := .ok ⟨"camera", "Camera", "1.0.0"⟩
  verify raw _ san := if raw = [1] ∧ san = ownSAN ∨ raw = [2] ∧ san = evilSAN then .ok san else .error "no match"
  sha256 raw := if raw = [1] then "01" else "02"

def register (t : Nat) (owner : String) : Action :=
  .request t (.ok { sourceRepoURL := "https://github.com/" ++ owner ++ "/r" }) (some "operator") (.ok [])

def finish (t : Nat) : List Action :=
  [.put t none, .registerModule t none none, .ingestVersion t none]

theorem compatible_of_first (h : ∀ t, (s.stage (t + 1)).pin = none) : s.Compatible := by
  have himage : ∀ t p raw, (s.stage t).image = some (p, raw) → (s.stage t).pin = some p := by
    intro t p raw hp
    cases hstage : s.stage t <;> rw [hstage] at hp <;> cases hp <;> rfl
  have honly : ∀ t p, (s.stage t).pin = some p → t = 0 := by
    intro t p hp
    cases t with
    | zero => rfl
    | succ t =>
      rw [h t] at hp
      cases hp
  constructor
  · intro t t' p p' hp hp' _
    cases honly t p hp
    cases honly t' p' hp'
    cases hp.symm.trans hp'
    rfl
  · intro t t' p p' raw raw' hp hp' _ _
    cases honly t p (himage t p raw hp)
    cases honly t' p' (himage t' p' raw' hp')
    cases hp.symm.trans hp'
    rfl

attribute [local instance] Semver.oneDigit

theorem identity_fixed_inTurn :
    ∃ s t, AgreeingRun twoRepos {} ([register 0 "o", .getModule 0 none, .listVersions 0 none (.ok [1]) (.ok [])] ++
        finish 0) s ∧
      AgreeingRun twoRepos s [register 1 "evil", .getModule 1 none] t ∧
      s.registry.PinnedTo "camera" ownSAN ∧ t.registry.PinnedTo "camera" ownSAN ∧ t.registry.Authentic twoRepos := by
  have hrun : ∃ s t, AgreeingRun twoRepos {} ([register 0 "o", .getModule 0 none,
        .listVersions 0 none (.ok [1]) (.ok [])] ++ finish 0) s ∧
      AgreeingRun twoRepos s [register 1 "evil", .getModule 1 none] t ∧ s.registry.PinnedTo "camera" ownSAN := by
    refine ⟨_, _, .cons ⟨compatible_of_first fun t => rfl, rfl⟩ (.cons ⟨compatible_of_first fun t => rfl, rfl⟩
      (.cons ⟨compatible_of_first fun t => rfl, rfl⟩ (.cons ⟨compatible_of_first fun t => rfl, rfl⟩
        (.cons ⟨compatible_of_first fun t => rfl, rfl⟩ (.cons ⟨compatible_of_first fun t => rfl, rfl⟩ (.nil _)))))),
      .cons ⟨compatible_of_first fun t => rfl, rfl⟩ (.cons ⟨compatible_of_first fun t => ?_, rfl⟩ (.nil _)), _, rfl, rfl⟩
    cases t <;> rfl
  obtain ⟨s, t, hs, ht, hpinned⟩ := hrun
  have hfixed := identity_fixed hs ht
  exact ⟨s, t, hs, ht, hpinned, hfixed.1 _ _ hpinned, hfixed.2⟩

/-- Both compare their identity before either is registered: the second takes the module over, and the image of the
first is replaced under the row that has its hash. -/
theorem second_repo_takes_over :
    ∃ s t, Run (Takes (next twoRepos)) {} ([register 0 "o", register 1 "evil", .getModule 0 none,
        .getModule 1 none, .listVersions 0 none (.ok [1]) (.ok []), .listVersions 1 none (.ok [2]) (.ok [])] ++
        finish 0) s ∧
      Run (Takes (next twoRepos)) s (finish 1) t ∧
      (s.registry.repo.getModule "camera").map (·.expectedIdentitySAN) = some ownSAN ∧
      (t.registry.repo.getModule "camera").map (·.expectedIdentitySAN) = some evilSAN ∧
      (t.registry.repo.versions.lookup ("camera", "1.0.0")).map
        (fun row => (row.rawSha256, (t.registry.blobs row.rawPath).map twoRepos.sha256)) = some ("01", some "02") := by
  refine ⟨_, _, .cons rfl (.cons rfl (.cons rfl (.cons rfl (.cons rfl (.cons rfl (.cons rfl (.cons rfl (.cons rfl
    (.nil _))))))))), .cons rfl (.cons rfl (.cons rfl (.nil _))), rfl, rfl, rfl⟩

end RegisterState

end Waypoint.Proxy
