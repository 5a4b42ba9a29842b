import Waypoint.Agent.Convergence
import Waypoint.Agent.ImagePaths

/-!
# Images of an uninstalled module

`UninstallModule` takes the local entry out, reconciles, and deletes the directory of the version that was installed.
-/

namespace Waypoint.Agent

open Base LexPath

section

variable (w : World) (r : Setup)

/-- Every attached module has its image. -/
def ImagesPresent (s : Rover) : Prop :=
  ∀ id version, s.current.lookup id = some (r.rawDest id version) → (s.files (r.rawDest id version)).isSome

def StatWorks (log : List (String × HostOp)) : Prop := ∀ more path, w.fault (log ++ more) (.stat path) = none

def Rover.attachedEntries (s : Rover) : List ModuleDesired :=
  (mergeDesired s.proxyDesired s.localDesired).filter fun m => s.current.lookup m.id = some (r.rawDest m.id m.version)

/-- The sets as an uninstall leaves them. -/
def Rover.remaining (s : Rover) (id : String) : List ModuleDesired :=
  mergeDesired s.proxyDesired (removeModule s.localDesired id)

/-- What an uninstall reconciles. -/
def Rover.withoutLocal (s : Rover) (id : String) : Rover :=
  { s with localDesired := removeModule s.localDesired id, log := s.log ++ [(id, .writeLocalDesired)] }

/-- No module that stays wanted has its image in the directory of the version that was installed. -/
def Spared (s : Rover) (id : String) : Prop :=
  s.localVersion id ≠ "" → ∀ m ∈ s.remaining id,
    ¬Within (ofString (dir (r.rawDest id (s.localVersion id)))) (ofString (r.rawDest m.id m.version))

instance (s : Rover) (id : String) : Decidable (Spared r s id) := by
  unfold Spared
  infer_instance

variable (log : List (String × HostOp)) (sets : List ModuleDesired)

/-- On the way from a state with the log: every attached module has its image, and the sets are as they were. -/
structure Stocked (s : Rover) : Prop where
  present : ImagesPresent r s
  merged : mergeDesired s.proxyDesired s.localDesired = sets
  logged : log <+: s.log

def StockedWith (dest : String) (s : Rover) : Prop := Stocked r log sets s ∧ (s.files dest).isSome

end

variable {w : World} {r : Setup} {log : List (String × HostOp)} {sets : List ModuleDesired}

variable {s u : Rover} {files : Store} {path p id version : String}

theorem Stocked.performed (h : Stocked r log sets s) (e : String × HostOp)
    (hfiles : ∀ id version, (s.files (r.rawDest id version)).isSome → (files (r.rawDest id version)).isSome) :
    Stocked r log sets { s with log := s.log ++ [e], files := files } where
  present := fun id version hcurrent => hfiles id version (h.present id version hcurrent)
  merged := h.merged
  logged := h.logged.trans (List.prefix_append _ _)

theorem Stocked.set (h : Stocked r log sets s) (e : String × HostOp)
    (hpath : ∀ id version, r.rawDest id version ≠ path) (body : Option Bytes) :
    Stocked r log sets { s with log := s.log ++ [e], files := s.files.set path body } := by
  refine h.performed e fun id version hfile => ?_
  rw [Store.set, if_neg (hpath id version)]
  exact hfile

theorem isSome_effect_rename {source : String} (hsource : (files source).isSome) (hp : p ≠ source)
    (hfile : (files p).isSome) : ((HostOp.rename source path).effect files p).isSome := by
  by_cases hpath : p = path
  · rw [hpath, effect_rename_self]
    exact hsource
  · by_cases hsame : source = path
    · rwa [HostOp.effect, if_pos hsame]
    · rwa [HostOp.effect, if_neg hsame, Store.set, if_neg hp, Store.set, if_neg hpath]

theorem quietOn_stockedWith (owner dest : String) (ok : HostOp → Prop) : QuietOn owner ok (Retains (StockedWith r log sets dest)) :=
  fun _ _ _ _ hs => ⟨hs.1.performed _ fun _ _ hfile => hfile, hs.2⟩

theorem quietOn_stocked (owner : String) (ok : HostOp → Prop) : QuietOn owner ok (Retains (Stocked r log sets)) :=
  fun _ _ _ _ hs => hs.performed _ fun _ _ hfile => hfile

theorem triple_quiet_stocked (owner : String) {op : HostOp} (h : op.quiet = true) :
    Triple (Stocked r log sets) (perform w owner op) (fun _ => Stocked r log sets) (Stocked r log sets) :=
  triple_of_keeps (keeps_perform_on (quietOn_stocked owner fun _ => True) h trivial)

theorem triple_fetch_stocked (owner url wantHex dest : String) :
    Triple (Stocked r log sets) (fetch w owner url wantHex dest) (fun _ => StockedWith r log sets dest) (Stocked r log sets) := by
  refine triple_then (triple_wrapError (triple_quiet_stocked owner rfl)) fun _ => ?_
  refine triple_then (triple_of_keeps (keeps_openUrl url)) fun body => triple_get fun s hs => ?_
  have htemp := fun id version => rawDest_ne_tempPath r id version dest (w.tempSuffix s.log)
  generalize tempPath dest (w.tempSuffix s.log) = tmp at htemp ⊢
  have hcreate : Triple (· = s) (perform w owner (.createTemp tmp)) (fun _ => Stocked r log sets) (Stocked r log sets) :=
    triple_perform (fun t ht => ht ▸ hs.set _ htemp _) fun t ht => ht ▸ hs.performed _ fun _ _ h => h
  have hremove : Triple (Stocked r log sets) (perform w owner (.remove tmp)) (fun _ => Stocked r log sets) (Stocked r log sets) :=
    triple_perform (fun t ht => ht.set _ htemp _) fun t ht => ht.performed _ fun _ _ h => h
  have hwrite : Triple (Stocked r log sets) (perform w owner (.writeFile tmp body)) (fun _ => StockedWith r log sets tmp) (Stocked r log sets) :=
    triple_perform (fun t ht => ⟨ht.set _ htemp _, by simp [HostOp.effect, Store.set]⟩)
      fun t ht => ht.performed _ fun _ _ h => h
  have hcheck : Triple (StockedWith r log sets tmp)
      (if wantHex ≠ "" ∧ w.sha256 body ≠ wantHex then throw ("got " ++ w.sha256 body ++ " want " ++ wantHex) else pure () : RoverM Unit)
      (fun _ => StockedWith r log sets tmp) (Stocked r log sets) := by
    split
    · exact triple_error fun _ ht => ht.1
    · exact triple_ok fun _ ht => ht
  have hrename : Triple (StockedWith r log sets tmp) (perform w owner (.rename tmp dest)) (fun _ => StockedWith r log sets dest)
      (Stocked r log sets) := by
    refine triple_perform (fun t ht => ⟨ht.1.performed _ fun id version => ?_, ?_⟩) fun t ht =>
      ht.1.performed _ fun _ _ h => h
    · exact isSome_effect_rename ht.2 (htemp id version)
    · change ((HostOp.rename tmp dest).effect t.files dest).isSome
      rw [effect_rename_self]
      exact ht.2
  refine triple_then (triple_wrapError hcreate) fun _ => triple_then (triple_discarding hwrite hremove) fun _ => ?_
  exact triple_then (triple_discarding hcheck hremove) fun _ => triple_discarding hrename hremove

theorem StockedWith.remember {dest : String} (h : StockedWith r log sets dest s) (config : List (String × String)) :
    StockedWith r log sets dest { s with current := mapSet s.current id dest, currentConfig := config } := by
  refine ⟨⟨fun id' version hcurrent => ?_, h.1.merged, h.1.logged⟩, h.2⟩
  change (mapSet s.current id dest).lookup id' = _ at hcurrent
  by_cases hid : id' = id
  · rw [hid, lookup_mapSet_self, Option.some.injEq] at hcurrent
    rw [hid, ← hcurrent]
    exact h.2
  · rw [lookup_mapSet_of_ne _ hid] at hcurrent
    exact h.1.present id' version hcurrent

theorem Stocked.forget (h : Stocked r log sets s) (id : String) :
    Stocked r log sets { s with current := mapDelete s.current id } := by
  refine ⟨fun id' version hcurrent => ?_, h.merged, h.logged⟩
  change (mapDelete s.current id).lookup id' = _ at hcurrent
  by_cases hid : id' = id
  · rw [hid, lookup_mapDelete_self] at hcurrent
    cases hcurrent
  · rw [lookup_mapDelete_of_ne _ hid] at hcurrent
    exact h.present id' version hcurrent

section

variable (hstat : StatWorks w log)

include hstat

theorem triple_fileExists_stocked (owner path : String) :
    Triple (Stocked r log sets) (fileExists w owner path)
      (fun found s => Stocked r log sets s ∧ (found = true → (s.files path).isSome)) (Stocked r log sets) := by
  have hstat : Triple (Stocked r log sets) (perform w owner (.stat path)) (fun _ => Stocked r log sets) fun _ => False :=
    triple_perform_ok (fun s hs => hs.logged.choose_spec ▸ hstat _ path) fun s hs => hs.performed _ fun _ _ h => h
  refine triple_recover hstat (fun _ => ?_) fun e _ hs => hs.elim
  refine triple_get fun s hs => triple_ok ?_
  rintro t rfl
  exact ⟨hs, id⟩

theorem triple_obtainImage_stocked (id : String) (m : ModuleDesired) :
    Triple (Stocked r log sets) (obtainImage w r id m) (fun _ => StockedWith r log sets (r.rawDest id m.version)) (Stocked r log sets) := by
  refine triple_then (triple_fileExists_stocked hstat id _) fun found => ?_
  cases found with
  | true => exact triple_ok fun s hs => ⟨hs.1, hs.2 rfl⟩
  | false =>
    have hfetch : Triple (Stocked r log sets) (fetch w id m.rawUrl m.rawSha256 (r.rawDest id m.version))
        (fun _ => StockedWith r log sets (r.rawDest id m.version)) (Stocked r log sets) := triple_fetch_stocked id _ _ _
    refine triple_then (hfetch.weaken (fun s hs => hs.1) (fun _ _ h => h) fun _ h => h) fun _ => ?_
    exact triple_modify fun s hs => ⟨⟨hs.1.present, hs.1.merged, hs.1.logged⟩, hs.2⟩

theorem keeps_startModule_stocked (id : String) (m : ModuleDesired) :
    Keeps (Retains (Stocked r log sets)) (startModule w r id m).run := by
  have hquiet : QuietOn id (HostOp.Own id (r.rawDest id m.version))
      (Retains (StockedWith r log sets (r.rawDest id m.version))) := quietOn_stockedWith id _ _
  have hrest := triple_of_keeps (keeps_then (keeps_attach (w := w) (hquiet.mono fun _ h => h.own)) fun _ =>
    keeps_startAttached (w := w) hquiet fun s hs => hs.remember _)
  refine keeps_of_triple (triple_then (triple_obtainImage_stocked hstat id m) fun _ => ?_)
  exact hrest.weaken (fun _ h => h) (fun _ _ h => h.1) fun _ h => h.1

theorem keeps_reconcile_stocked (desired : List ModuleDesired) :
    Keeps (Retains (Stocked r log sets)) (reconcile w r desired).run := by
  refine keeps_reconcile_of_turns (fun id => ?_) fun id => ?_
  · exact keeps_dropStale_of (keeps_detach_of (quietOn_stocked id _) fun s hs => hs.forget id)
  · refine keeps_bringUp_of (fun m _ => ?_) fun m _ => keeps_startModule_stocked hstat id m
    exact keeps_applyConfigChange_of (quietOn_stocked id _) m fun s hs => ⟨hs.present, hs.merged, hs.logged⟩

end

/-- What is left of the images once the directory is deleted; a directory that cannot be deleted stays. -/
def Rover.cleared (u : Rover) (w : World) (r : Setup) (id version : String) : Rover :=
  if version ≠ "" then ((perform w id (.removeAll (dir (r.rawDest id version)))).run.run u).2 else u

theorem triple_uninstallModule (id : String) (s : Rover) :
    Triple (· = s) (uninstallModule w r id)
      (fun _ t => t = ((s.withoutLocal id).reconciled w r (s.remaining id)).cleared w r id (s.localVersion id)) fun _ => True := by
  refine triple_get fun s' hs' => ?_
  subst hs'
  split
  · have hdrop : Triple (· = s') (modify fun s : Rover => { s with localDesired := removeModule s.localDesired id } : RoverM Unit)
        (fun _ => (· = { s' with localDesired := removeModule s'.localDesired id })) fun _ => True :=
      triple_modify fun t ht => ht ▸ rfl
    have hwrite : Triple (· = { s' with localDesired := removeModule s'.localDesired id }) (perform w id .writeLocalDesired)
        (fun _ => (· = s'.withoutLocal id)) fun _ => True :=
      triple_perform (fun t ht => ht ▸ rfl) fun _ _ => trivial
    have hreconcile : Triple (· = s'.withoutLocal id) (reconcileMerged w r)
        (fun _ => (· = (s'.withoutLocal id).reconciled w r (s'.remaining id))) fun _ => True := by
      rintro _ rfl
      exact ⟨fun _ t hrun => (congrArg Prod.snd hrun).symm, fun _ _ _ => trivial⟩
    refine triple_then hdrop fun _ => triple_then (triple_wrapError hwrite) fun _ => triple_then hreconcile fun _ u hu => ?_
    refine ⟨fun _ t hrun => ?_, fun _ _ _ => trivial⟩
    rw [← hu, Rover.cleared]
    by_cases hversion : s'.localVersion id = ""
    · rw [if_neg (not_not_intro hversion)] at hrun ⊢
      cases hrun
      rfl
    · rw [if_pos hversion] at hrun ⊢
      cases hrun
      rfl
  · exact triple_error fun _ _ => trivial

theorem files_cleared_of_not_within
    (h : version ≠ "" → ¬Within (ofString (dir (r.rawDest id version))) (ofString p)) :
    (u.cleared w r id version).files p = u.files p := by
  unfold Rover.cleared
  split
  · next hversion =>
    rcases perform_run (w := w) id (.removeAll (dir (r.rawDest id version))) u with hrun | ⟨e, hrun⟩
    · rw [hrun]
      exact if_neg (h hversion)
    · rw [hrun]
      rfl
  · rfl

theorem cleared_of_calm (hcalm : Calm w u.log) (hversion : version ≠ "") :
    (u.cleared w r id version).files = (HostOp.removeAll (dir (r.rawDest id version))).effect u.files := by
  rw [Rover.cleared, if_pos hversion, perform_run_ok (hcalm.fault _)]

/-- Only the log and the images are touched. -/
theorem attachedEntries_cleared (u : Rover) (id version : String) :
    (u.cleared w r id version).attachedEntries r = u.attachedEntries r := by
  unfold Rover.cleared
  split
  · rcases perform_run (w := w) id (.removeAll (dir (r.rawDest id version))) u with hrun | ⟨e, hrun⟩
    · rw [hrun]
      rfl
    · rw [hrun]
      rfl
  · rfl

/-- If every attached module had its image before: an uninstall that spares the images of what stays wanted leaves every
attached module its image, whatever fails on the way, and one in which nothing fails does so only then. -/
theorem uninstall_keeps_images_iff {s t : Rover} {id : String} (hstat : StatWorks w s.log) (hpresent : ImagesPresent r s)
    (h : Returns (uninstallModule w r id) s () t) :
    (Spared r s id → ∀ m ∈ t.attachedEntries r, (t.files (r.rawDest m.id m.version)).isSome) ∧
      (((s.remaining id).map (·.id)).Nodup → Succeeds w r (s.remaining id) (s.withoutLocal id) →
        (∀ m ∈ t.attachedEntries r, (t.files (r.rawDest m.id m.version)).isSome) → Spared r s id) := by
  obtain rfl := (triple_uninstallModule id s s rfl).1 () t h
  have hstat' : StatWorks w (s.withoutLocal id).log := fun more path => List.append_assoc .. ▸ hstat _ path
  have hstocked : Stocked r (s.withoutLocal id).log (s.remaining id) ((s.withoutLocal id).reconciled w r (s.remaining id)) :=
    keeps_reconcile_stocked hstat' (s.remaining id) (s.withoutLocal id) ⟨hpresent, rfl, List.prefix_rfl⟩
  rw [attachedEntries_cleared]
  constructor
  · intro hspared m hm
    obtain ⟨hmem, hcurrent⟩ := List.mem_filter.mp hm
    rw [hstocked.merged] at hmem
    rw [files_cleared_of_not_within fun hversion => hspared hversion m hmem]
    exact hstocked.present m.id m.version (of_decide_eq_true hcurrent)
  · intro hids hsucceeds hall hversion m hm hwithin
    obtain ⟨more, hlog⟩ := hstocked.logged
    have hcalm := hlog ▸ hsucceeds.calm.append more
    have hsettled := settled_reconciled hsucceeds m.id
    rw [wanted_of_mem hids hm] at hsettled
    have hattached : m ∈ Rover.attachedEntries r ((s.withoutLocal id).reconciled w r (s.remaining id)) :=
      List.mem_filter.mpr ⟨hstocked.merged.symm ▸ hm, decide_eq_true hsettled.1⟩
    have himage := hall m hattached
    rw [cleared_of_calm hcalm hversion, show (HostOp.removeAll _).effect _ _ = none from if_pos hwithin] at himage
    cases himage

def onlineReleases : World := { releases with download := fun _ _ => .ok [2] }

def moduleAt (id version : String) : ModuleDesired := { id, version }

def armBeside (proxy : List ModuleDesired) : Rover :=
  installArm.foldl (fun s call => s.after onlineReleases manager call) { proxyDesired := proxy }

def armUninstalled (proxy : List ModuleDesired) : Rover :=
  ((uninstallModule onlineReleases manager "arm").run.run (armBeside proxy)).2

theorem imagesPresent_of_current (h : ∀ e ∈ s.current, (s.files e.2).isSome) : ImagesPresent r s := by
  intro id version hcurrent
  obtain ⟨before, after, hsplit, -⟩ := List.lookup_eq_some_iff.mp hcurrent
  exact h (id, r.rawDest id version) (hsplit ▸ List.mem_append_right _ List.mem_cons_self)

theorem uninstall_keeps_images_iff_camera :
    (armUninstalled [moduleAt "camera" "2.0"]).attachedEntries manager = [moduleAt "camera" "2.0"] ∧
      ((armUninstalled [moduleAt "camera" "2.0"]).files (manager.rawDest "camera" "2.0")).isSome := by
  have hrun : (armUninstalled [moduleAt "camera" "2.0"]).attachedEntries manager = [moduleAt "camera" "2.0"] ∧
      (∀ e ∈ (armBeside [moduleAt "camera" "2.0"]).current, ((armBeside [moduleAt "camera" "2.0"]).files e.2).isSome) ∧
      ((uninstallModule onlineReleases manager "arm").run.run (armBeside [moduleAt "camera" "2.0"])).1 = .ok () ∧
      (armBeside [moduleAt "camera" "2.0"]).localVersion "arm" = "1.0" ∧
      Spared manager (armBeside [moduleAt "camera" "2.0"]) "arm" := by
    decide +kernel
  obtain ⟨hentries, hpresent, hok, -, hspared⟩ := hrun
  have hstat : StatWorks onlineReleases (armBeside [moduleAt "camera" "2.0"]).log := fun _ _ => rfl
  have hreturn : Returns (uninstallModule onlineReleases manager "arm") (armBeside [moduleAt "camera" "2.0"]) ()
      (armUninstalled [moduleAt "camera" "2.0"]) := returns_of_fst hok
  have hall := (uninstall_keeps_images_iff hstat (imagesPresent_of_current hpresent) hreturn).1 hspared
  generalize armUninstalled [moduleAt "camera" "2.0"] = t at hentries hall ⊢
  exact ⟨hentries, hall (moduleAt "camera" "2.0") (hentries ▸ List.mem_singleton_self _)⟩

/-- The image that the arm stays attached from is deleted. -/
theorem arm_attached_without_image :
    (armBeside [moduleAt "arm" "1.0"]).files (manager.rawDest "arm" "1.0") = some [1] ∧
      Returns (uninstallModule onlineReleases manager "arm") (armBeside [moduleAt "arm" "1.0"]) ()
        (armUninstalled [moduleAt "arm" "1.0"]) ∧
      moduleAt "arm" "1.0" ∈ (armUninstalled [moduleAt "arm" "1.0"]).attachedEntries manager ∧
      (armUninstalled [moduleAt "arm" "1.0"]).files (manager.rawDest "arm" "1.0") = none := by
  have hrun : (armBeside [moduleAt "arm" "1.0"]).files (manager.rawDest "arm" "1.0") = some [1] ∧
      ((uninstallModule onlineReleases manager "arm").run.run (armBeside [moduleAt "arm" "1.0"])).1 = .ok () ∧
      moduleAt "arm" "1.0" ∈ (armUninstalled [moduleAt "arm" "1.0"]).attachedEntries manager ∧
      (armUninstalled [moduleAt "arm" "1.0"]).files (manager.rawDest "arm" "1.0") = none := by
    decide +kernel
  obtain ⟨hbefore, hok, hattached, hgone⟩ := hrun
  exact ⟨hbefore, returns_of_fst hok, hattached, hgone⟩

end Waypoint.Agent
