import Waypoint.Agent.Install
import Waypoint.Proxy.DesiredPush

/-!
# Registered images

A push carries the hash that the registry has for a version, and a fetch compares the download with it; but a push may carry no hash, and an image that is already in its place is attached as it is.
-/

namespace Waypoint.Agent

open Base

def NoAttach (s t : Rover) : Prop := ∃ more, t.log = s.log ++ more ∧ ∀ e ∈ more, e.2.NotAttach

/-- The path is handed to portablectl on the way from one state to the other. -/
def Attaches (s t : Rover) (path : String) : Prop := ∃ owner, (owner, HostOp.attach path) ∈ t.log.drop s.log.length

/-- What is at the path, if anything, has the hash. -/
def HasHash (w : World) (dest hex : String) (s : Rover) : Prop := ∀ body, s.files dest = some body → w.sha256 body = hex

instance : Std.Refl NoAttach := ⟨fun _ => ⟨[], (List.append_nil _).symm, by simp⟩⟩

instance : IsTrans Rover NoAttach where
  trans := by
    rintro s m t ⟨first, hm, hfirst⟩ ⟨second, ht, hsecond⟩
    refine ⟨first ++ second, by rw [ht, hm, List.append_assoc], fun e he => ?_⟩
    rcases List.mem_append.mp he with he | he
    · exact hfirst e he
    · exact hsecond e he

theorem NoAttach.not_attaches {s t : Rover} (h : NoAttach s t) (path : String) : ¬Attaches s t path := by
  rintro ⟨owner, hmem⟩
  obtain ⟨more, ht, hmore⟩ := h
  rw [ht, List.drop_left] at hmem
  exact hmore _ hmem path rfl

/-- The module's image is handed to portablectl first, and no other one later. The stored images stay as they are. -/
structure Began (id dest : String) (s t : Rover) : Prop where
  files : t.files = s.files
  log : ∃ more, t.log = s.log ++ (id, .attach dest) :: more ∧ ∀ e ∈ more, ∀ path, e.2 = .attach path → path = dest

section

variable {w : World} {r : Setup} {id : String} {m : ModuleDesired}

theorem keeps_noAttach (owner : String) {op : HostOp} (hop : op.NotAttach) :
    Keeps NoAttach (perform w owner op).run := by
  intro s
  refine ⟨[(owner, op)], ?_, by simpa using hop⟩
  rcases perform_run (w := w) owner op s with hrun | ⟨e, hrun⟩ <;> rw [hrun]

theorem noAttach_obtainImage : Keeps NoAttach (obtainImage w r id m).run := by
  refine keeps_obtainImage_of_ops (fun _ => keeps_noAttach id nofun) (fun op hop => ?_) fun s => refl_of NoAttach s
  refine keeps_noAttach id ?_
  rintro path rfl
  exact hop

theorem lenientOn_noAttach (id : String) : LenientOn (HostOp.OfUnit id) NoAttach where
  quiet owner op s _ hop := by
    have hattach : op.NotAttach := by
      rintro path rfl
      exact hop
    exact ⟨[(owner, op)], rfl, by simpa using hattach⟩
  maps _ _ _ := ⟨[], (List.append_nil _).symm, by simp⟩

theorem noAttach_afterDrops (w : World) (r : Setup) (desired : List ModuleDesired) (s : Rover) :
    NoAttach s (s.afterDrops w r desired) := by
  exact keeps_each (r := NoAttach) _ (fun id _ => keeps_dropStale (lenientOn_noAttach id) desired) s

theorem lenient_hasHash (dest hex : String) : Lenient (Retains (HasHash w dest hex)) where
  quiet _ _ _ _ h := h
  maps _ _ _ h := h

theorem triple_fetch (owner url dest : String) {hex : String} (hhex : hex ≠ "") :
    Triple (fun _ => True) (fetch w owner url hex dest) (fun _ => HasHash w dest hex) fun _ => True := by
  refine triple_then (triple_any _) fun _ => triple_then (triple_any _) fun body => triple_get fun s _ => ?_
  generalize tempPath dest (w.tempSuffix s.log) = tmp
  have hwrite : Triple (fun _ => True) (perform w owner (.writeFile tmp body)) (fun _ t => t.files tmp = some body)
      fun _ => True := triple_perform (fun t _ => by simp [HostOp.effect, Store.set]) fun _ _ => trivial
  refine triple_then (triple_any _) fun _ => triple_then (triple_discarding hwrite (triple_any _)) fun _ => ?_
  have hcheck : Triple (fun t : Rover => t.files tmp = some body)
      (if hex ≠ "" ∧ w.sha256 body ≠ hex then throw ("got " ++ w.sha256 body ++ " want " ++ hex) else pure () : RoverM Unit)
      (fun _ t => t.files tmp = some body ∧ w.sha256 body = hex) fun _ => True := by
    split
    · exact triple_error fun _ _ => trivial
    · rename_i hsame
      rw [not_and, not_not] at hsame
      exact triple_ok fun t ht => ⟨ht, hsame hhex⟩
  refine triple_then (triple_discarding hcheck (triple_any _)) fun _ => ?_
  refine triple_discarding (triple_perform (fun t ht => ?_) fun _ _ => trivial) (triple_any _)
  intro image himage
  change (HostOp.rename tmp dest).effect t.files dest = some image at himage
  rw [effect_rename_self, ht.1, Option.some.injEq] at himage
  rw [← himage]
  exact ht.2

theorem triple_obtainImage (hhex : m.rawSha256 ≠ "") :
    Triple (HasHash w (r.rawDest id m.version) m.rawSha256) (obtainImage w r id m)
      (fun _ => HasHash w (r.rawDest id m.version) m.rawSha256) fun _ => True := by
  have hexists : Triple (HasHash w (r.rawDest id m.version) m.rawSha256) (fileExists w id (r.rawDest id m.version))
      (fun _ => HasHash w (r.rawDest id m.version) m.rawSha256) fun _ => True :=
    (triple_fileExists (lenient_hasHash _ _) id _).weaken (fun _ h => h) (fun _ _ h => h.1) fun _ _ => trivial
  refine triple_then hexists fun found => ?_
  cases found with
  | true => exact triple_ok fun _ h => h
  | false =>
    refine triple_then ((triple_fetch id m.rawUrl _ hhex).weaken (fun _ _ => trivial) (fun _ _ h => h) fun _ h => h) fun _ => ?_
    exact triple_modify fun _ h => h

variable (w r id m) in
/-- The turn gets hold of the image: it is in its place already, or is fetched. -/
def Brings (s : Rover) (body : Bytes) : Prop :=
  ∃ t, Returns (obtainImage w r id m) s () t ∧ t.files (r.rawDest id m.version) = some body

variable {s : Rover} {body : Bytes}

theorem eq_of_brings {old : Bytes} (hold : s.files (r.rawDest id m.version) = some old)
    (h : Brings w r id m s body) : body = old := by
  have hlenient : Lenient (Retains fun t : Rover => t.files (r.rawDest id m.version) = some old) := ⟨fun _ _ _ _ h => h, fun _ _ _ h => h⟩
  have hobtain : Triple (fun t : Rover => t.files (r.rawDest id m.version) = some old) (obtainImage w r id m)
      (fun _ t => t.files (r.rawDest id m.version) = some old) fun _ => True := by
    refine triple_then ((triple_fileExists hlenient id _).weaken (fun _ h => h) (fun _ _ h => h) fun _ _ => trivial) fun found => ?_
    cases found with
    | true => exact triple_ok fun _ h => h.1
    | false =>
      intro t ht
      cases ht.1.symm.trans (ht.2 rfl)
  obtain ⟨t, hrun, hbody⟩ := h
  exact Option.some.inj (hbody.symm.trans ((hobtain s hold).1 () t hrun))

theorem sha256_of_brings (hhex : m.rawSha256 ≠ "") (hnone : s.files (r.rawDest id m.version) = none)
    (h : Brings w r id m s body) : w.sha256 body = m.rawSha256 := by
  obtain ⟨t, hrun, hbody⟩ := h
  exact (triple_obtainImage hhex s fun old hold => by cases hnone.symm.trans hold).1 () t hrun body hbody

theorem quietOn_began (id dest : String) (s : Rover) : QuietOn id (HostOp.Own id dest) (Retains (Began id dest s)) := by
  rintro op t - hop ⟨hfiles, more, hlog, hmore⟩
  refine ⟨hfiles, more ++ [(id, op)], by simp [hlog], ?_⟩
  rw [List.forall_mem_append]
  refine ⟨hmore, List.forall_mem_singleton.mpr ?_⟩
  rintro path rfl
  exact hop

theorem triple_attach_began (id dest : String) (s : Rover) :
    Triple (· = s) (attach w id dest) (fun _ => Began id dest s) (Began id dest s) := by
  have hfirst : ∀ t : Rover, t = s → Began id dest s { t with log := t.log ++ [(id, .attach dest)] } := by
    rintro t rfl
    exact ⟨rfl, [], rfl, by simp⟩
  have hquiet := quietOn_began id dest s
  refine triple_recover (triple_perform hfirst hfirst) (fun _ => triple_ok fun _ h => h) fun e => triple_of_keeps ?_
  refine keeps_then (keeps_attempt (keeps_perform_on hquiet rfl rfl)) fun _ => ?_
  refine keeps_then (keeps_attempt (keeps_perform_on hquiet rfl rfl)) fun outcome => ?_
  cases outcome with
  | error e => exact keeps_error _
  | ok => exact keeps_perform_on hquiet rfl rfl

/-- A turn that starts the module ends with obtaining the image, or goes on with attaching it. -/
theorem started (w : World) (r : Setup) (id : String) (m : ModuleDesired) (s : Rover) :
    (∃ e, (obtainImage w r id m).run.run s = (.error e, ((startModule w r id m).run.run s).2)) ∨
      ∃ t, Returns (obtainImage w r id m) s () t ∧ Began id (r.rawDest id m.version) t ((startModule w r id m).run.run s).2 := by
  let P (u : Rover) := (∃ e, (obtainImage w r id m).run.run s = (.error e, u)) ∨
    ∃ t, Returns (obtainImage w r id m) s () t ∧ Began id (r.rawDest id m.version) t u
  have hobtain : Triple (· = s) (obtainImage w r id m) (fun _ t => Returns (obtainImage w r id m) s () t) P := by
    rintro s rfl
    exact ⟨fun _ t h => h, fun e t h => .inl ⟨e, h⟩⟩
  have hstart : Triple (· = s) (startModule w r id m) (fun _ => P) P := by
    refine triple_then hobtain fun _ t ht => ?_
    have hquiet := quietOn_began id (r.rawDest id m.version) t
    have hrest := triple_then (triple_attach_began (w := w) id (r.rawDest id m.version) t) fun _ =>
      triple_of_keeps (keeps_startAttached (w := w) (r := r) hquiet fun _ h => ⟨h.files, h.log⟩)
    exact (hrest.weaken (fun _ h => h) (fun _ _ h => .inr ⟨t, ht, h⟩) fun _ h => .inr ⟨t, ht, h⟩) t rfl
  exact hstart.final rfl

theorem attaches_start_iff {path : String} :
    Attaches s ((startModule w r id m).run.run s).2 path ∧ ((startModule w r id m).run.run s).2.files path = some body ↔
      path = r.rawDest id m.version ∧ Brings w r id m s body := by
  have hquiet : NoAttach s ((obtainImage w r id m).run.run s).2 := noAttach_obtainImage s
  rcases started w r id m s with ⟨e, hrun⟩ | ⟨t, hrun, ⟨hfiles, more, hlog, hmore⟩⟩
  · rw [hrun] at hquiet
    refine ⟨fun h => absurd h.1 (hquiet.not_attaches path), ?_⟩
    rintro ⟨-, t, hreturns, -⟩
    cases hreturns.symm.trans hrun
  · rw [show (obtainImage w r id m).run.run s = (.ok (), t) from hrun] at hquiet
    obtain ⟨before, hbefore, hnone⟩ := hquiet
    change t.log = s.log ++ before at hbefore
    have hdrop : ((startModule w r id m).run.run s).2.log.drop s.log.length = before ++ (id, .attach (r.rawDest id m.version)) :: more := by
      rw [hlog, hbefore, List.append_assoc, List.drop_left]
    rw [Attaches, hdrop, hfiles]
    constructor
    · rintro ⟨⟨owner, hmem⟩, hbody⟩
      obtain rfl : path = r.rawDest id m.version := by
        rcases List.mem_append.mp hmem with hmem | hmem
        · exact absurd rfl (hnone _ hmem path)
        rcases List.mem_cons.mp hmem with hmem | hmem
        · cases hmem
          rfl
        · exact hmore _ hmem path rfl
      exact ⟨rfl, t, hrun, hbody⟩
    · rintro ⟨rfl, t', hrun', hbody⟩
      cases hrun.symm.trans hrun'
      exact ⟨⟨id, by simp⟩, hbody⟩

end

end Waypoint.Agent

namespace Waypoint.RegisteredImages

open Base Agent Proxy

section

variable (pusher : DesiredPusher) (roverID : String) (repo : ModulesRepo) (w : World) (r : Setup)
  (desired : List ModuleDesired)

/-- An entry as the proxy pushes it for a row of its table. -/
def Pushed (id : String) (m : ModuleDesired) : Prop := ∃ failed row, m = pusher.entry roverID repo failed id row

/-- The bytes have the hash that was registered for the version. -/
def Registered (id version : String) (body : Bytes) : Prop :=
  ∃ row, repo.versions.lookup (id, version) = some row ∧ w.sha256 body = row.rawSha256

/-- What the turn of a pushed module gets hold of without a check is the registered image: what is in its place already, and
what is fetched for an entry without a hash. -/
def UncheckedRegistered (s : Rover) (id : String) : Prop :=
  ∀ m, wanted desired id = some m → Pushed pusher roverID repo id m →
    s.current.lookup id ≠ some (r.rawDest id m.version) →
    ∀ body, Brings w r id m s body → s.files (r.rawDest id m.version) = some body ∨ m.rawSha256 = "" →
      Registered repo w id m.version body

/-- Every image that the turn of a pushed module hands to portablectl is registered for the version. -/
def AttachesRegistered (s : Rover) (id : String) : Prop :=
  ∀ m, wanted desired id = some m → Pushed pusher roverID repo id m →
    ∀ path body, Attaches s (s.upped w r desired id) path → (s.upped w r desired id).files path = some body →
      Registered repo w id m.version body

/-- The condition holds at each turn of the second pass. -/
def EveryTurn (turn : Rover → String → Prop) (s : Rover) : Prop :=
  Along (Rover.upped w r desired) turn (s.afterDrops w r desired)
    (w.order (s.afterDrops w r desired).log (wantedIds desired))

end

variable {pusher : DesiredPusher} {roverID : String} {repo : ModulesRepo} {w : World} {r : Setup}
  {desired : List ModuleDesired}

theorem attachesRegistered_iff {s : Rover} {id : String} :
    AttachesRegistered pusher roverID repo w r desired s id ↔ UncheckedRegistered pusher roverID repo w r desired s id := by
  refine forall_congr' fun m => forall_congr' fun hwanted => forall_congr' fun hpushed => ?_
  rw [upped_eq s hwanted]
  by_cases hcurrent : s.current.lookup id = some (r.rawDest id m.version)
  · rw [if_pos hcurrent]
    refine ⟨fun _ hne => absurd hcurrent hne, fun _ path body hattaches => ?_⟩
    exact absurd hattaches ((keeps_applyConfigChange (lenientOn_noAttach id) m s).not_attaches path)
  rw [if_neg hcurrent]
  constructor
  · intro h _ body hbrings _
    obtain ⟨hattaches, hbody⟩ := attaches_start_iff.mpr ⟨rfl, hbrings⟩
    exact h _ body hattaches hbody
  intro h path body hattaches hbody
  obtain ⟨rfl, hbrings⟩ := attaches_start_iff.mp ⟨hattaches, hbody⟩
  by_cases hhex : m.rawSha256 = ""
  · exact h hcurrent body hbrings (.inr hhex)
  cases hold : s.files (r.rawDest id m.version) with
  | some old =>
    obtain rfl := eq_of_brings hold hbrings
    exact h hcurrent _ hbrings (.inl hold)
  | none =>
    -- the one case in which the image is checked
    have hsha := sha256_of_brings hhex hold hbrings
    obtain ⟨failed, row, rfl⟩ := hpushed
    obtain ⟨version, hlookup, hversion⟩ := registered_of_shaIn rfl hhex
    exact ⟨version, hlookup, hsha.trans hversion.symm⟩

/-- Whatever calls have led to the rover: a reconcile attaches modules in its second pass only, and every image that it attaches
there for a pushed entry is the registered one exactly if those are that it gets hold of without a check. -/
theorem attached_images_registered (s : Rover) :
    NoAttach s (s.afterDrops w r desired) ∧
      (EveryTurn w r desired (AttachesRegistered pusher roverID repo w r desired) s ↔
        EveryTurn w r desired (UncheckedRegistered pusher roverID repo w r desired) s) :=
  ⟨noAttach_afterDrops w r desired s, along_congr fun _ _ => attachesRegistered_iff⟩

def cameraRegistry (hash : Option String) : ModulesRepo :=
  { DesiredLink.oneModule with
    versions := match hash with
      | none => ∅
      | some sha => (∅ : Table (String × String) VersionRow).insert ("camera", "1.0.0") ⟨"/blobs/camera/1.0.0.raw", sha, []⟩ }

def cameraEntry (hash : Option String) : ModuleDesired :=
  DesiredLink.plainPusher.entry "r1" (cameraRegistry hash) [] "camera" ⟨"1.0.0", ""⟩

def localReleases : World :=
  { failsOnce none with
    download := fun _ _ => .error "offline"
    moduleTomls := fun raw =>
      [("camera", .ok { name := "camera", version := if raw = [1] then "1.0.0" else "2.0.0", entrypoint := "/usr/bin/camera" })]
    verify := fun _ _ => .ok "camera@v1" }

def uninstalled : Rover :=
  [InstallCall.stage [1] [], .confirm "0000000000000000" "", .stage [2] [], .confirm "0000000000000000" "",
    .uninstall "camera"].foldl (fun s call => s.after localReleases bareSetup call) {}

/-- The image that was left is attached for a push of the version, with another hash in the registry or with none. -/
theorem unregistered_image_attached :
    ((cameraRegistry (some "02")).versions.lookup ("camera", "1.0.0")).map (·.rawSha256) = some "02" ∧
      (cameraRegistry none).versions.lookup ("camera", "1.0.0") = none ∧
      ∀ hash ∈ [some "02", none],
        ("camera", HostOp.attach "/data/modules/camera/1.0.0/camera.raw") ∈
          (uninstalled.reconciled localReleases bareSetup [cameraEntry hash]).log.drop uninstalled.log.length ∧
        (uninstalled.reconciled localReleases bareSetup [cameraEntry hash]).files
          "/data/modules/camera/1.0.0/camera.raw" = some [1] ∧
        localReleases.sha256 [1] = "01" := by
  decide +kernel

end Waypoint.RegisteredImages
