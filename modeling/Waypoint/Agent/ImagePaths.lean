import Waypoint.Agent.Install

/-!
# Where module images are stored

The name a manifest gives is checked, the version is not, and both are joined into the path of the image.
-/

namespace Waypoint.Agent

open Base LexPath

/-- A valid name, and a version that is one path element. -/
structure Storable (id version : String) : Prop where
  name : validModuleName id = true
  version : Name version

def imageDir (r : Setup) (id version : String) : LexPath := ofString (joinAll [r.rootDir, "modules", id, version])

def InStaging (r : Setup) (path : String) : Prop := Within (ofString (stagingDir r)) (ofString path)

/-- Where an image is installed. -/
def IsImage (r : Setup) (path : String) : Prop := ∃ id version, Storable id version ∧ path = r.rawDest id version

/-! ### What an operation creates, replaces or deletes -/

namespace HostOp

def written : HostOp → List String
  | .writeFile path _ => [path]
  | .createTemp path => [path]
  | .rename source path => [source, path]
  | .copyFile _ path => [path]
  | .remove path => [path]
  | _ => []

def cleared : HostOp → List String
  | .removeAll path => [path]
  | _ => []

/-- Outside the staging directory, everything is in the directory of one version of the module it is done for. -/
structure Confined (r : Setup) (owner : String) (op : HostOp) : Prop where
  written : ∀ path ∈ op.written, InStaging r path ∨ ∃ c, Name c ∧ Below (imageDir r owner c) (ofString path)
  cleared : ∀ path ∈ op.cleared, InStaging r path ∨ ∃ c, Name c ∧ Within (imageDir r owner c) (ofString path)

/-- The operation does not touch the file. -/
structure Avoids (op : HostOp) (path : String) : Prop where
  written : path ∉ op.written
  cleared : ∀ d ∈ op.cleared, ¬Within (ofString d) (ofString path)

variable {op : HostOp} {p : String}

theorem confined_of_quiet {r : Setup} (h : op.quiet = true) (owner : String) : op.Confined r owner := by
  have hnone : op.written = [] ∧ op.cleared = [] := by
    cases op <;> first | exact ⟨rfl, rfl⟩ | cases h
  exact { written := by simp [hnone.1], cleared := by simp [hnone.2] }

theorem set_of_ne {files : Store} {path : String} (h : p ≠ path) (body : Option Bytes) : files.set path body p = files p :=
  if_neg h

theorem effect_of_avoids (h : op.Avoids p) (files : Store) : op.effect files p = files p := by
  obtain ⟨hwritten, hcleared⟩ := h
  cases op with
  | writeFile path body => exact set_of_ne (by simpa [written] using hwritten) _
  | createTemp path => exact set_of_ne (by simpa [written] using hwritten) _
  | copyFile source path => exact set_of_ne (by simpa [written] using hwritten) _
  | remove path => exact set_of_ne (by simpa [written] using hwritten) _
  | rename source path =>
    simp only [written, List.mem_cons, List.not_mem_nil, or_false, not_or] at hwritten
    rw [effect]
    split
    · rfl
    · rw [set_of_ne hwritten.1, set_of_ne hwritten.2]
  | removeAll path => exact if_neg (hcleared path (by simp [cleared]))
  | _ => rfl

theorem failure_of_avoids {w : World} (h : op.Avoids p) (s : Rover) :
    op.failure w s p = s.files p := by
  cases op with
  | copyFile source path =>
    rw [failure]
    cases w.cut s.log with
    | none => rfl
    | some n => exact set_of_ne (by simpa [written] using h.written) _
  | _ => rfl

end HostOp

/-! ### Paths -/

theorem name_of_head {s : String} {c : Char} {rest : List Char} (hlist : s.toList = c :: rest) (hdot : c ≠ '.')
    (hslash : '/' ∉ s.toList) : Name s := by
  have hhead : ∀ t : String, t.toList.head? ≠ some c → s ≠ t := by
    rintro t ht rfl
    exact ht (by rw [hlist]; rfl)
  exact ⟨⟨hhead "" (by simp), hhead "." (by simpa using Ne.symm hdot), hhead ".." (by simpa using Ne.symm hdot)⟩, hslash⟩

variable {id path version id' : String} {r : Setup} {s : Rover} {w : World}

theorem name_of_valid (h : validModuleName id = true) : Name id := by
  obtain ⟨c, rest, hlist, hc⟩ := head_of_wordRe h
  refine name_of_head hlist ?_ (not_mem_of_wordRe h (by decide))
  rintro rfl
  exact absurd hc (by decide)

theorem name_rawImageName (h : validModuleName id = true) : Name (rawImageName id) := by
  obtain ⟨c, rest, hlist, hc⟩ := head_of_wordRe h
  have happend : (rawImageName id).toList = c :: (rest ++ ".raw".toList) := by
    rw [rawImageName, String.toList_append, hlist, List.cons_append]
  refine name_of_head happend ?_ ?_
  · rintro rfl
    exact absurd hc (by decide)
  · rw [rawImageName, String.toList_append, List.mem_append, not_or]
    exact ⟨not_mem_of_wordRe h (by decide), by decide⟩

theorem name_stageID (random : UInt64) : Name (stageIDOf random) := by
  have hhex : ∀ n < 16, hexDigit n ≠ '.' ∧ hexDigit n ≠ '/' := by decide
  have hchars : ∀ c ∈ (stageIDOf random).toList, c ≠ '.' ∧ c ≠ '/' := by
    intro c hc
    rw [stageIDOf, String.toList_ofList, List.mem_map] at hc
    obtain ⟨i, -, rfl⟩ := hc
    exact hhex _ (Nat.mod_lt _ (by decide))
  have hlist : ∃ c rest, (stageIDOf random).toList = c :: rest := ⟨_, _, String.toList_ofList⟩
  obtain ⟨c, rest, hlist⟩ := hlist
  exact name_of_head hlist (hchars c (by simp [hlist])).1 fun hslash => (hchars '/' hslash).2 rfl

section Paths

variable (r : Setup) {id version : String} (h : Storable id version)

include h

theorem names_imageDir : ∀ e ∈ ["modules", id, version], Name e := by
  simp only [List.mem_cons, List.not_mem_nil, or_false]
  rintro e (rfl | rfl | rfl)
  · decide
  · exact name_of_valid h.name
  · exact h.version

theorem imageDir_eq : imageDir r id version =
    ⟨(ofString r.rootDir).rooted, (ofString r.rootDir).elements ++ ["modules", id, version]⟩ :=
  ofString_joinAll r.rootDir (by simp) (names_imageDir h)

theorem dir_rawDest : dir (r.rawDest id version) = joinAll [r.rootDir, "modules", id, version] :=
  have hdir := dir_joinAll r.rootDir (by simp) (names_imageDir h) (name_rawImageName h.name)
  hdir

variable {file : String}

theorem ofString_inDir (hfile : Name file) : ofString (joinAll [dir (r.rawDest id version), file]) =
    ⟨(ofString r.rootDir).rooted, (ofString r.rootDir).elements ++ ["modules", id, version, file]⟩ := by
  have hdir := imageDir_eq r h
  rw [imageDir, ← dir_rawDest r h] at hdir
  rw [ofString_joinAll _ (by simp) (by simpa using hfile), hdir]
  simp

theorem ofString_rawDest : ofString (r.rawDest id version) =
    ⟨(ofString r.rootDir).rooted, (ofString r.rootDir).elements ++ ["modules", id, version, rawImageName id]⟩ := by
  refine ofString_joinAll r.rootDir (by simp) ?_
  have hall := List.forall_mem_append.mpr ⟨names_imageDir h, List.forall_mem_singleton.mpr (name_rawImageName h.name)⟩
  exact hall

theorem below_imageDir {p : LexPath} (hfile : Name file) (hp : p =
    ⟨(ofString r.rootDir).rooted, (ofString r.rootDir).elements ++ ["modules", id, version, file]⟩) :
    Below (imageDir r id version) p := by
  subst hp
  rw [imageDir_eq r h]
  refine ⟨⟨rfl, [file], ?_, by simp⟩, by simp⟩
  simpa using Ne.symm hfile.1.2.2

end Paths

theorem ofString_stagingDir (r : Setup) : ofString (stagingDir r) =
    ⟨(ofString r.rootDir).rooted, (ofString r.rootDir).elements ++ ["modules", ".staging"]⟩ :=
  ofString_joinAll r.rootDir (by simp) (by decide)

theorem inStaging_joinAll (r : Setup) {names : List String} (hnames : ∀ e ∈ names, Name e) :
    InStaging r (joinAll (r.rootDir :: "modules" :: ".staging" :: names)) := by
  have hall : ∀ e ∈ "modules" :: ".staging" :: names, Name e :=
    List.forall_mem_cons.mpr ⟨by decide, List.forall_mem_cons.mpr ⟨by decide, hnames⟩⟩
  rw [InStaging, ofString_stagingDir, ofString_joinAll r.rootDir (by simp) hall]
  exact ⟨rfl, names, fun hup => (hnames _ hup).1.2.2 rfl, by simp⟩

theorem not_inStaging_of_isImage (h : IsImage r path) : ¬InStaging r path := by
  obtain ⟨id, version, hstorable, rfl⟩ := h
  rw [InStaging, ofString_stagingDir, ofString_rawDest r hstorable]
  rintro ⟨-, rest, -, helements⟩
  have hlist := List.append_cancel_left (helements.trans (List.append_assoc ..))
  simp only [List.cons_append, List.cons.injEq] at hlist
  have hvalid := hstorable.name
  rw [hlist.2.1] at hvalid
  exact absurd hvalid (by decide)

variable {op : HostOp} {version' : String}

theorem avoids_of_inStaging (hwritten : ∀ p ∈ op.written, InStaging r p)
    (hcleared : ∀ d ∈ op.cleared, InStaging r d) (himage : IsImage r path) : op.Avoids path :=
  { written := fun hpath => not_inStaging_of_isImage himage (hwritten path hpath)
    cleared := fun d hd hin => not_inStaging_of_isImage himage (within_trans (hcleared d hd) hin) }

theorem confined_of_inStaging (owner : String) (hwritten : ∀ p ∈ op.written, InStaging r p)
    (hcleared : ∀ d ∈ op.cleared, InStaging r d) : op.Confined r owner :=
  { written := fun p hp => .inl (hwritten p hp), cleared := fun d hd => .inl (hcleared d hd) }

theorem eq_of_within_imageDir (h : Storable id version)
    (h' : Storable id' version') (hin : Within (imageDir r id version) (ofString (r.rawDest id' version'))) :
    id' = id ∧ version' = version := by
  rw [imageDir_eq r h, ofString_rawDest r h'] at hin
  obtain ⟨-, rest, -, helements⟩ := hin
  have hlist := List.append_cancel_left (helements.trans (List.append_assoc ..))
  simp only [List.cons_append, List.cons.injEq] at hlist
  exact ⟨hlist.2.1, hlist.2.2.1⟩

/-! ### The invariant -/

/-- Everything done so far was confined, everything the manager keeps can be stored, and the files of `kept` are there. -/
structure Rover.Sound (r : Setup) (kept : List (String × Bytes)) (s : Rover) : Prop where
  ops : ∀ e ∈ s.log, e.2.Confined r e.1
  staged : ∀ e ∈ s.staging, Storable e.2.id e.2.version ∧ InStaging r e.2.rawPath ∧ InStaging r e.2.stageDir
  localSet : ∀ m ∈ s.localDesired, Storable m.id m.version
  proxySet : ∀ m ∈ s.proxyDesired, Storable m.id m.version
  stored : ∀ e ∈ s.stored, Storable e.1 e.2
  kept : ∀ e ∈ kept, s.files e.1 = some e.2

section Programs

variable {w : World} {r : Setup} {kept : List (String × Bytes)}

variable {s : Rover} {owner id version : String} {op : HostOp} {raw : Bytes}

theorem Rover.Sound.performed {files : Store} (hs : s.Sound r kept)
    (hop : op.Confined r owner) (hkept : ∀ e ∈ kept, files e.1 = s.files e.1) :
    Rover.Sound r kept { s with log := s.log ++ [(owner, op)], files := files } :=
  { hs with
    ops := List.forall_mem_append.mpr ⟨hs.ops, List.forall_mem_singleton.mpr hop⟩
    kept := fun e he => (hkept e he).trans (hs.kept e he) }

theorem keeps_perform_confined (hop : op.Confined r owner)
    (havoids : ∀ e ∈ kept, op.Avoids e.1) : Keeps (Retains (Rover.Sound r kept)) (perform w owner op).run :=
  keeps_of_triple <| triple_perform
    (fun s hs => hs.performed hop fun e he => op.effect_of_avoids (havoids e he) s.files)
    (fun s hs => hs.performed hop fun e he => op.failure_of_avoids (havoids e he) s)

theorem lenient_sound : Lenient (Retains (Rover.Sound r kept)) where
  quiet owner _ _ h hs := hs.performed (HostOp.confined_of_quiet h owner) fun _ _ => rfl
  maps _ _ _ hs := { hs with }

theorem keeps_perform_staging (himages : ∀ e ∈ kept, IsImage r e.1)
    (hwritten : ∀ p ∈ op.written, InStaging r p) (hcleared : ∀ d ∈ op.cleared, InStaging r d) :
    Keeps (Retains (Rover.Sound r kept)) (perform w owner op).run :=
  keeps_perform_confined (confined_of_inStaging owner hwritten hcleared) fun e he =>
    avoids_of_inStaging hwritten hcleared (himages e he)

/-! ### Fetching -/

theorem ne_temp {path dest : String} (himage : IsImage r path) (n : Nat) : path ≠ tempPath dest n := by
  obtain ⟨id', version', -, rfl⟩ := himage
  exact rawDest_ne_tempPath r id' version' _ n

section

variable (himages : ∀ e ∈ kept, IsImage r e.1)

include himages

theorem keeps_perform_fetch (h : Storable id version)
    (hfree : ∀ e ∈ kept, e.1 ≠ r.rawDest id version) (n : Nat) (hcleared : op.cleared = [])
    (hwritten : ∀ p ∈ op.written,
      p = tempPath (r.rawDest id version) n ∨ p = r.rawDest id version) :
    Keeps (Retains (Rover.Sound r kept)) (perform w id op).run := by
  refine keeps_perform_confined ⟨fun p hp => ?_, by simp [hcleared]⟩ fun e he => ⟨fun hp => ?_, by simp [hcleared]⟩
  · refine .inr ⟨version, h.version, ?_⟩
    rcases hwritten p hp with htemp | hdest
    · rw [htemp]
      exact below_imageDir r h (name_temp n) (ofString_inDir r h (name_temp n))
    · rw [hdest]
      exact below_imageDir r h (name_rawImageName h.name) (ofString_rawDest r h)
  · rcases hwritten e.1 hp with htemp | hdest
    · exact ne_temp (himages e he) n htemp
    · exact hfree e he hdest

theorem keeps_fetch (h : Storable id version)
    (hfree : ∀ e ∈ kept, e.1 ≠ r.rawDest id version) (url wantHex : String) :
    Keeps (Retains (Rover.Sound r kept)) (fetch w id url wantHex (r.rawDest id version)).run := by
  refine keeps_fetch_of_ops (fun op hop => ?_) url wantHex
  have hfetch : ∀ n, op.cleared = [] →
      (∀ p ∈ op.written, p = tempPath (r.rawDest id version) n ∨ p = r.rawDest id version) →
      Keeps (Retains (Rover.Sound r kept)) (perform w id op).run :=
    fun n => keeps_perform_fetch himages h hfree n
  cases op with
  | mkdirAll path => exact keeps_perform_quiet lenient_sound id rfl
  | createTemp path | writeFile path body | remove path =>
    obtain ⟨n, hpath⟩ : ∃ n, path = tempPath (r.rawDest id version) n := hop
    exact hfetch n rfl (by simp [HostOp.written, hpath])
  | rename source path =>
    obtain ⟨⟨n, hsource⟩, hpath⟩ : (∃ n, source = tempPath (r.rawDest id version) n) ∧ path = r.rawDest id version := hop
    exact hfetch n rfl (by simp [HostOp.written, hsource, hpath])
  | _ => exact hop.elim

theorem keeps_obtainImage {m : ModuleDesired}
    (h : Storable id m.version) : Keeps (Retains (Rover.Sound r kept)) (obtainImage w r id m).run := by
  refine keeps_of_triple (triple_then (triple_fileExists lenient_sound id _) fun found => ?_)
  cases found with
  | true => exact triple_ok fun s hs => hs.1
  | false =>
    intro s hs
    have hfree : ∀ e ∈ kept, e.1 ≠ r.rawDest id m.version := by
      intro e he hdest
      have hkept := hs.1.kept e he
      rw [hdest, hs.2 rfl] at hkept
      cases hkept
    have hfetch := keeps_then (keeps_fetch (w := w) himages h hfree m.rawUrl m.rawSha256) fun _ =>
      keeps_modify (f := fun s => { s with stored := s.stored ++ [(id, m.version)] }) fun s hs =>
        { hs with stored := List.forall_mem_append.mpr ⟨hs.stored, List.forall_mem_singleton.mpr h⟩ }
    exact triple_of_keeps hfetch s hs.1

theorem keeps_reconcileMerged :
    Keeps (Retains (Rover.Sound r kept)) (reconcileMerged w r).run := by
  refine keeps_of_triple (triple_get fun s hs => ?_)
  have hkeeps : Keeps (Retains (Rover.Sound r kept)) (reconcile w r (mergeDesired s.proxyDesired s.localDesired)).run := by
    refine keeps_reconcile lenient_sound fun id m hwanted => ?_
    obtain ⟨hmem, rfl⟩ := mem_of_wanted hwanted
    rcases mem_of_mem_mergeDesired hmem with hlocal | hproxy
    · exact keeps_obtainImage himages (hs.localSet m hlocal)
    · exact keeps_obtainImage himages (hs.proxySet m hproxy)
  exact (triple_of_keeps hkeeps).weaken (fun _ heq => heq ▸ hs) (fun _ _ h => h) fun _ h => h

end

/-! ### Staging -/

variable {α : Type} {st : StagedModule}

theorem triple_unstaging {pre err : Rover → Prop} {post : α → Rover → Prop} {stageDir what : String}
    {p : RoverM α} (hp : Triple pre p post err) (hremove : Keeps (Retains err) (perform w "" (.removeAll stageDir)).run) :
    Triple pre (unstaging w stageDir what p) post err := by
  refine triple_recover hp (fun a => triple_ok fun s hs => hs) fun e => ?_
  exact triple_then (triple_of_keeps (keeps_attempt hremove)) fun _ => triple_error fun s hs => hs

theorem triple_readUploadedManifest {rawPath : String} (hraw : (rawPath, raw) ∈ kept) (stageID : String) :
    Triple (Rover.Sound r kept) (readUploadedManifest w r stageID rawPath)
      (fun m s => s.Sound r kept ∧ uploadedManifest w raw = .ok m) (Rover.Sound r kept) := by
  have hquiet : ∀ {op : HostOp}, op.quiet = true → Keeps (Retains (Rover.Sound r kept)) (perform w "" op).run :=
    keeps_perform_quiet lenient_sound ""
  have hrest : ∀ (mountPath : String) (outcome : Except String Manifest),
      (∀ m, outcome = .ok m → uploadedManifest w raw = .ok m) → Triple (Rover.Sound r kept) (do
        let _ ← attempt (perform w "" (.unmount mountPath))
        let _ ← attempt (perform w "" (.rmdir mountPath))
        MonadExcept.ofExcept outcome)
        (fun m s => s.Sound r kept ∧ uploadedManifest w raw = .ok m) (Rover.Sound r kept) := by
    intro mountPath outcome houtcome
    refine triple_then (triple_of_keeps (keeps_attempt (hquiet rfl))) fun _ => ?_
    refine triple_then (triple_of_keeps (keeps_attempt (hquiet rfl))) fun _ => ?_
    exact triple_ofExcept (fun m hm s hs => ⟨hs, houtcome m hm⟩) fun s hs => hs
  have hread : Triple (Rover.Sound r kept) (do
      wrapError ("mount: " ++ ·) (perform w "" (.mount rawPath (joinAll [r.runtimeDir, ".stage-mnt", stageID])))
      MonadExcept.ofExcept (uploadedManifest w (((← get).files rawPath).getD [])))
      (fun m s => s.Sound r kept ∧ uploadedManifest w raw = .ok m) (Rover.Sound r kept) := by
    refine triple_then (triple_wrapError (triple_of_keeps (hquiet rfl))) fun _ => triple_get fun s hs => ?_
    rw [hs.kept _ hraw, Option.getD_some]
    refine triple_ofExcept (fun m hm t ht => ?_) fun t ht => ?_
    · exact ⟨ht ▸ hs, hm⟩
    · exact ht ▸ hs
  refine triple_then (triple_wrapError (triple_of_keeps (hquiet rfl))) fun _ => ?_
  refine triple_recover hread (fun m => triple_of_fact fun hm => hrest _ _ ?_) fun e => hrest _ _ ?_
  · rintro _ ⟨⟩
    exact hm
  · rintro _ ⟨⟩

theorem storable_of_uploadedManifest {m : Manifest} (hm : uploadedManifest w raw = .ok m)
    (hversion : Name m.version) : Storable m.name m.version := by
  unfold uploadedManifest at hm
  split at hm
  · exact ⟨(checked_of_parseManifest hm).name, hversion⟩
  · cases hm

theorem mem_of_mem_mapSet {m : List (String × α)} {key : String} {value : α} {e : String × α}
    (h : e ∈ mapSet m key value) : e = (key, value) ∨ e ∈ m :=
  (List.mem_cons.mp h).imp_right List.mem_of_mem_filter

theorem triple_stageVerified (himages : ∀ e ∈ kept, IsImage r e.1) (san : String) {stageID : String}
    (hstageID : Name stageID) (hversion : ∀ m, uploadedManifest w raw = .ok m → Name m.version) :
    Triple (Rover.Sound r kept) (stageVerified w r raw san stageID) (fun _ => Rover.Sound r kept)
      (Rover.Sound r kept) := by
  have hdir : InStaging r (joinAll [r.rootDir, "modules", ".staging", stageID]) :=
    inStaging_joinAll r (List.forall_mem_singleton.mpr hstageID)
  have hpath : InStaging r (joinAll [r.rootDir, "modules", ".staging", stageID, "image.raw"]) :=
    inStaging_joinAll r (List.forall_mem_cons.mpr ⟨hstageID, by decide⟩)
  have hremove : Keeps (Retains (Rover.Sound r kept))
      (perform w "" (.removeAll (joinAll [r.rootDir, "modules", ".staging", stageID]))).run :=
    keeps_perform_staging himages (by simp [HostOp.written]) (by simpa [HostOp.cleared] using hdir)
  -- the bytes that were written are the ones the manifest is read from, so they are kept until then
  generalize hraw : joinAll [r.rootDir, "modules", ".staging", stageID, "image.raw"] = rawPath at hpath
  have hop : HostOp.Confined r "" (.writeFile rawPath raw) :=
    confined_of_inStaging "" (List.forall_mem_singleton.mpr hpath) (by simp [HostOp.cleared])
  have havoids : ∀ e ∈ kept, HostOp.Avoids (.writeFile rawPath raw) e.1 := fun e he =>
    avoids_of_inStaging (List.forall_mem_singleton.mpr hpath) (by simp [HostOp.cleared]) (himages e he)
  have hwrite : Triple (Rover.Sound r kept) (perform w "" (.writeFile rawPath raw))
      (fun _ => Rover.Sound r ((rawPath, raw) :: kept)) (Rover.Sound r kept) := by
    refine triple_perform (fun s hs => ?_) fun s hs => ?_
    · have hdone := hs.performed hop fun e he => HostOp.effect_of_avoids (havoids e he) s.files
      exact { hdone with kept := List.forall_mem_cons.mpr ⟨if_pos rfl, hdone.kept⟩ }
    · exact hs.performed hop fun e he => HostOp.failure_of_avoids (havoids e he) s
  have hread : Triple (Rover.Sound r ((rawPath, raw) :: kept)) (readUploadedManifest w r stageID rawPath)
      (fun m s => s.Sound r kept ∧ uploadedManifest w raw = .ok m) (Rover.Sound r kept) := by
    have hforget : ∀ s : Rover, s.Sound r ((rawPath, raw) :: kept) → s.Sound r kept := fun s hs =>
      { hs with kept := fun e he => hs.kept e (List.mem_cons_of_mem _ he) }
    exact (triple_readUploadedManifest List.mem_cons_self stageID).weaken (fun _ hs => hs)
      (fun m s hs => ⟨hforget s hs.1, hs.2⟩) hforget
  unfold stageVerified
  rw [hraw]
  refine triple_then (triple_wrapError (triple_of_keeps (keeps_perform_quiet lenient_sound "" rfl))) fun _ => ?_
  refine triple_then (triple_unstaging hwrite hremove) fun _ => ?_
  refine triple_then (triple_unstaging hread hremove) fun m => triple_of_fact fun hm => ?_
  refine triple_then (triple_modify fun s hs => ?_) fun _ => triple_ok fun s hs => hs
  have hentry : Storable m.name m.version := storable_of_uploadedManifest hm (hversion m hm)
  refine { hs with staged := fun e he => ?_ }
  rcases mem_of_mem_mapSet he with rfl | hold
  · exact ⟨hentry, hpath, hdir⟩
  · exact hs.staged e hold

theorem keeps_stageModule (himages : ∀ e ∈ kept, IsImage r e.1) (bundle : Bytes)
    (hversion : ∀ m, uploadedManifest w raw = .ok m → Name m.version) :
    Keeps (Retains (Rover.Sound r kept)) (stageModule w r raw bundle).run := by
  unfold stageModule
  cases w.verifierError with
  | some e => exact keeps_error _
  | none =>
    refine keeps_then (keeps_ofExcept _) fun san => ?_
    refine keeps_then keeps_get fun s => keeps_then (keeps_ofExcept _) fun random => ?_
    exact keeps_of_triple (triple_stageVerified himages san (name_stageID random) hversion)

/-! ### Confirming and uninstalling -/

theorem keeps_moveImage (hst : Storable st.id st.version) (hpath : InStaging r st.rawPath) :
    Keeps (Retains (Rover.Sound r [])) (moveImage w st (r.rawDest st.id st.version)).run := by
  have hdest : Below (imageDir r st.id st.version) (ofString (r.rawDest st.id st.version)) :=
    below_imageDir r hst (name_rawImageName hst.name) (ofString_rawDest r hst)
  have hop : ∀ op : HostOp, op.cleared = [] → (∀ p ∈ op.written, p = st.rawPath ∨ p = r.rawDest st.id st.version) →
      Keeps (Retains (Rover.Sound r [])) (perform w st.id op).run := by
    intro op hcleared hwritten
    refine keeps_perform_confined ⟨fun p hp => ?_, by simp [hcleared]⟩ (by simp)
    rcases hwritten p hp with hraw | hp
    · exact .inl (hraw ▸ hpath)
    · exact .inr ⟨st.version, hst.version, hp ▸ hdest⟩
  have hstore : Keeps (Retains (Rover.Sound r []))
      (modify fun s => { s with stored := s.stored ++ [(st.id, st.version)] } : RoverM PUnit).run :=
    keeps_modify fun s hs =>
      { hs with stored := List.forall_mem_append.mpr ⟨hs.stored, List.forall_mem_singleton.mpr hst⟩ }
  refine keeps_then (keeps_attempt (hop _ rfl (by simp [HostOp.written]))) fun outcome => ?_
  cases outcome with
  | ok => exact hstore
  | error e =>
    refine keeps_then (keeps_wrapError (hop _ rfl (by simp [HostOp.written]))) fun _ => ?_
    exact keeps_then (keeps_attempt (hop _ rfl (by simp [HostOp.written]))) fun _ => hstore

theorem keeps_confirmStaged (stageID configTOML : String) (hst : Storable st.id st.version)
    (hpath : InStaging r st.rawPath) (hdir : InStaging r st.stageDir) :
    Keeps (Retains (Rover.Sound r [])) (confirmStaged w r stageID configTOML st).run := by
  have hinstall : ∀ entry : ModuleDesired, Storable entry.id entry.version →
      Keeps (Retains (Rover.Sound r [])) (addLocal w r entry).run := by
    intro entry hentry
    refine keeps_then (keeps_modify fun s hs => { hs with localSet := fun m hm => ?_ }) fun _ => ?_
    · rcases mem_of_mem_upsertModule hm with rfl | hold
      · exact hentry
      · exact hs.localSet m hold
    · refine keeps_then (keeps_wrapError (keeps_perform_quiet lenient_sound entry.id rfl)) fun _ => ?_
      exact keeps_reconcileMerged (by simp)
  refine keeps_then (keeps_checkPinnedSAN (keeps_perform_quiet lenient_sound _ rfl) _) fun _ => ?_
  refine keeps_then (keeps_wrapError (keeps_perform_quiet lenient_sound st.id rfl)) fun _ => ?_
  refine keeps_then (keeps_moveImage hst hpath) fun _ => ?_
  refine keeps_then (keeps_modify fun s hs => { hs with staged := fun e he => ?_ }) fun _ => ?_
  · exact hs.staged e (List.mem_of_mem_filter he)
  refine keeps_then (keeps_attempt (keeps_perform_staging (by simp) (by simp [HostOp.written]) ?_)) fun _ => ?_
  · simpa [HostOp.cleared] using hdir
  have hpin : Keeps (Retains (Rover.Sound r [])) (pinSAN w st.id st.signerSAN).run :=
    keeps_pinSAN (keeps_perform_quiet lenient_sound st.id rfl) (keeps_perform_quiet lenient_sound st.id rfl)
      (fun s trust hs => { hs with }) _
  refine keeps_then (keeps_wrapError hpin) fun _ => ?_
  split
  · exact keeps_then (keeps_wrapError (keeps_perform_quiet lenient_sound st.id rfl)) fun _ => hinstall _ hst
  · exact hinstall _ hst

theorem keeps_confirmModule (stageID configTOML : String) :
    Keeps (Retains (Rover.Sound r [])) (confirmModule w r stageID configTOML).run := by
  refine keeps_of_triple (triple_get fun s hs => ?_)
  cases hlookup : s.staging.lookup stageID with
  | none => exact triple_error fun t ht => ht ▸ hs
  | some st =>
    obtain ⟨before, after, hstaging, -⟩ := List.lookup_eq_some_iff.mp hlookup
    obtain ⟨hst, hpath, hdir⟩ := hs.staged (stageID, st) (by simp [hstaging])
    exact (triple_of_keeps (keeps_confirmStaged stageID configTOML hst hpath hdir)).weaken
      (fun t ht => ht ▸ hs) (fun _ _ h => h) (fun _ h => h)

theorem storable_localVersion (hs : s.Sound r kept) (hlocal : containsModule s.localDesired id = true) :
    Storable id (s.localVersion id) := by
  obtain ⟨m, hm, hid⟩ := List.any_eq_true.mp hlocal
  cases hfind : s.localDesired.find? (fun m => m.id = id) with
  | none => exact absurd hid (List.find?_eq_none.mp hfind m hm)
  | some found =>
    have hfound : found.id = id := by simpa using List.find?_some hfind
    have hversion : s.localVersion id = found.version := by simp [Rover.localVersion, hfind]
    rw [hversion, ← hfound]
    exact hs.localSet found (List.mem_of_find?_eq_some hfind)

theorem keeps_dropInstalled (himages : ∀ e ∈ kept, IsImage r e.1) (h : Storable id version)
    (hother : ∀ e ∈ kept, e.1 ≠ r.rawDest id version) :
    Keeps (Retains (Rover.Sound r kept)) (dropInstalled w r id version).run := by
  have hdir : ofString (dir (r.rawDest id version)) = imageDir r id version := by rw [dir_rawDest r h, imageDir]
  have hconfined : HostOp.Confined r id (.removeAll (dir (r.rawDest id version))) := by
    refine ⟨by simp [HostOp.written], List.forall_mem_singleton.mpr (.inr ⟨version, h.version, ?_⟩)⟩
    rw [hdir]
    exact ⟨rfl, [], by simp, by simp⟩
  have havoids : ∀ e ∈ kept, HostOp.Avoids (.removeAll (dir (r.rawDest id version))) e.1 := by
    refine fun e he => ⟨by simp [HostOp.written], List.forall_mem_singleton.mpr ?_⟩
    obtain ⟨id', version', h', hpath⟩ := himages e he
    rw [hdir, hpath]
    intro hin
    obtain ⟨rfl, rfl⟩ := eq_of_within_imageDir h h' hin
    exact hother e he hpath
  refine keeps_then (keeps_modify fun s hs => { hs with localSet := fun m hm => ?_ }) fun _ => ?_
  · exact hs.localSet m (List.mem_of_mem_filter hm)
  refine keeps_then (keeps_wrapError (keeps_perform_quiet lenient_sound id rfl)) fun _ => ?_
  refine keeps_then (keeps_reconcileMerged himages) fun _ => ?_
  split
  · exact keeps_then (keeps_attempt (keeps_perform_confined hconfined havoids)) fun _ => keeps_ok _
  · exact keeps_ok _

theorem sound_uninstallModule (himages : ∀ e ∈ kept, IsImage r e.1) (hs : s.Sound r kept)
    (hother : Storable id (s.localVersion id) → ∀ e ∈ kept, e.1 ≠ r.rawDest id (s.localVersion id)) :
    ((uninstallModule w r id).run.run s).2.Sound r kept := by
  have htriple : Triple (· = s) (uninstallModule w r id) (fun _ => Rover.Sound r kept) (Rover.Sound r kept) := by
    refine triple_get fun t ht => ?_
    subst ht
    cases hlocal : containsModule t.localDesired id with
    | false => exact triple_error fun u hu => hu ▸ hs
    | true =>
      have hstorable := storable_localVersion hs hlocal
      have hdrop := keeps_dropInstalled (w := w) himages hstorable (hother hstorable)
      exact (triple_of_keeps hdrop).weaken (fun u hu => hu ▸ hs) (fun _ _ h => h) (fun _ h => h)
  exact htriple.final rfl

end Programs

/-! ### Histories of installs -/

/-- What the layout of the store promises: images are created and deleted only under their module and version, no two versions of a module share a directory, and uninstalling a module deletes no image but that of its installed version. -/
structure Rover.ImagesConfined (w : World) (r : Setup) (s : Rover) : Prop where
  ops : ∀ e ∈ s.log, e.2.Confined r e.1
  apart : ∀ e ∈ s.stored, ∀ f ∈ s.stored, e.1 = f.1 → e.2 ≠ f.2 → dir (r.rawDest e.1 e.2) ≠ dir (r.rawDest f.1 f.2)
  kept : ∀ id, ∀ e ∈ s.stored, e ≠ (id, s.localVersion id) → ∀ image, s.files (r.rawDest e.1 e.2) = some image →
    (s.after w r (.uninstall id)).files (r.rawDest e.1 e.2) = some image

/-- A staged image's manifest, if it is accepted, gives a version that is one path element. -/
def InstallCall.VersionIsName (w : World) (_ : Rover) : InstallCall → Prop
  | .stage raw _ => ∀ m, uploadedManifest w raw = .ok m → Name m.version
  | _ => True

structure Rover.Starts (s : Rover) : Prop where
  log : s.log = []
  staging : s.staging = []
  desired : ∀ m ∈ s.localDesired ++ s.proxyDesired, Storable m.id m.version
  stored : ∀ e ∈ s.stored, Storable e.1 e.2

def installs (w : World) (r : Setup) : Rover → InstallCall → Rover → Prop := Takes fun s call => some (s.after w r call)

theorem Rover.Starts.sound (h : s.Starts) (r : Setup) : s.Sound r [] :=
  { ops := by simp [h.log], staged := by simp [h.staging], stored := h.stored, kept := by simp
    localSet := fun m hm => h.desired m (List.mem_append_left _ hm)
    proxySet := fun m hm => h.desired m (List.mem_append_right _ hm) }

theorem sound_after (hs : s.Sound r []) {call : InstallCall}
    (hcall : call.VersionIsName w s) : (s.after w r call).Sound r [] := by
  cases call with
  | stage raw bundle => exact keeps_stageModule (by simp) bundle hcall s hs
  | confirm stageID configTOML => exact keeps_confirmModule stageID configTOML s hs
  | uninstall id => exact sound_uninstallModule (by simp) hs (by simp)

theorem rawDest_injective (h : Storable id version)
    (h' : Storable id' version') (heq : dir (r.rawDest id version) = dir (r.rawDest id' version')) :
    id = id' ∧ version = version' := by
  have hdirs := congrArg ofString heq
  rw [dir_rawDest r h, dir_rawDest r h'] at hdirs
  change imageDir r id version = imageDir r id' version' at hdirs
  rw [imageDir_eq r h, imageDir_eq r h', LexPath.mk.injEq] at hdirs
  have hlist := List.append_cancel_left hdirs.2
  simp only [List.cons.injEq, and_true, true_and] at hlist
  exact hlist

theorem Rover.Sound.imagesConfined (hs : s.Sound r []) : s.ImagesConfined w r where
  ops := hs.ops
  apart e he f hf hname hversion heq := hversion (rawDest_injective (hs.stored e he) (hs.stored f hf) heq).2
  kept id e he hother image himage := by
    have hstored := hs.stored e he
    have hkept : s.Sound r [(r.rawDest e.1 e.2, image)] := { hs with kept := List.forall_mem_singleton.mpr himage }
    have hapart : Storable id (s.localVersion id) →
        ∀ f ∈ [(r.rawDest e.1 e.2, image)], f.1 ≠ r.rawDest id (s.localVersion id) := by
      refine fun hinstalled => List.forall_mem_singleton.mpr fun heq => ?_
      obtain ⟨hid, hversion⟩ := rawDest_injective hstored hinstalled (congrArg dir heq)
      exact hother (Prod.ext hid hversion)
    have hafter := sound_uninstallModule (w := w) (List.forall_mem_singleton.mpr ⟨e.1, e.2, hstored, rfl⟩) hkept hapart
    exact hafter.kept _ List.mem_cons_self

theorem not_imagesConfined_of_lost {image : Bytes}
    (hpath : r.rawDest id' version = path) (hstored : (id', version) ∈ s.stored)
    (hother : (id', version) ≠ (id, s.localVersion id)) (hbefore : s.files path = some image)
    (hafter : (s.after w r (.uninstall id)).files path = none) : ¬s.ImagesConfined w r := by
  intro h
  subst hpath
  have hkept := h.kept id (id', version) hstored hother image hbefore
  rw [hafter] at hkept
  cases hkept

/-- From a manager that starts with storable modules, through stagings of images with ordinary versions, the store keeps to its layout in every state that is reached. -/
theorem images_confined {w : World} {r : Setup} {s t : Rover} {calls : List InstallCall} (hinit : s.Starts)
    (hrun : Run (Guarded (fun s call => call.VersionIsName w s) (installs w r)) s calls t) : t.ImagesConfined w r := by
  refine (Run.invariant (Rover.Sound r []) (fun s call t hs hstep => ?_) hrun (hinit.sound r)).imagesConfined
  obtain ⟨hversion, hafter⟩ := hstep
  cases hafter
  exact sound_after hs hversion

/-! ### An arm and a camera -/

def releases : World where
  fault _ _ := none
  cut _ := none
  download _ _ := .error "offline"
  tempSuffix _ := 0
  random log := .ok (UInt64.ofNat log.length)
  moduleTomls raw :=
    if raw = [1] then [("arm", .ok { name := "arm", version := "1.0", entrypoint := "/usr/bin/arm" })]
    else [("camera", .ok { name := "camera", version := "../arm/1.0", entrypoint := "/usr/bin/camera" })]
  sha256 _ := ""
  formatRate _ := ""
  verifierError := none
  verify _ _ := .ok "release@main"
  order _ ids := ids
  order_perm _ ids := List.Perm.refl ids

def manager : Setup :=
  { dropinDir := "/run/systemd/system", stateBackingRoot := "/data/module-state", rootDir := "/data/waypoint"
    moduleMountRoot := "/run/waypoint/module-root", runtimeDir := "/run/waypoint/modules" }

def installArm : List InstallCall := [.stage [1] [], .confirm "0000000000000000" ""]

def installCamera : List InstallCall := [.stage [2] [], .confirm "0000000000000016" ""]

def installed (calls : List InstallCall) : Rover := calls.foldl (fun s call => s.after releases manager call) {}

theorem starts_empty : Rover.Starts {} :=
  { log := rfl, staging := rfl, desired := by simp, stored := by simp }

theorem images_confined_arm :
    (installed installArm).stored = [("arm", "1.0")] ∧ (installed installArm).ImagesConfined releases manager := by
  have hversions : ∀ call ∈ installArm, ∀ s, call.VersionIsName releases s := by
    simp only [installArm, List.mem_cons, List.not_mem_nil, or_false]
    rintro call (rfl | rfl) s
    · intro m hm
      cases hm
      decide
    · trivial
  exact ⟨by decide +kernel, images_confined starts_empty (run_guarded_foldl _ hversions {})⟩

/-- Taking the camera out deletes the arm's image. -/
theorem arm_image_deleted :
    Run (installs releases manager) {} (installArm ++ installCamera) (installed (installArm ++ installCamera)) ∧
      (installed (installArm ++ installCamera)).files "/data/waypoint/modules/arm/1.0/arm.raw" = some [1] ∧
      ((installed (installArm ++ installCamera)).after releases manager (.uninstall "camera")).files
        "/data/waypoint/modules/arm/1.0/arm.raw" = none ∧
      ¬(installed (installArm ++ installCamera)).ImagesConfined releases manager := by
  have hrun : Run (installs releases manager) {} (installArm ++ installCamera) (installed (installArm ++ installCamera)) :=
    run_foldl _ _ _
  have hfacts : ("arm", "1.0") ∈ (installed (installArm ++ installCamera)).stored ∧
      ("arm", "1.0") ≠ ("camera", (installed (installArm ++ installCamera)).localVersion "camera") ∧
      (installed (installArm ++ installCamera)).files "/data/waypoint/modules/arm/1.0/arm.raw" = some [1] ∧
      ((installed (installArm ++ installCamera)).after releases manager (.uninstall "camera")).files
        "/data/waypoint/modules/arm/1.0/arm.raw" = none := by
    decide +kernel
  have hpath : manager.rawDest "arm" "1.0" = "/data/waypoint/modules/arm/1.0/arm.raw" := by decide +kernel
  obtain ⟨hstored, hother, hbefore, hafter⟩ := hfacts
  exact ⟨hrun, hbefore, hafter, not_imagesConfined_of_lost hpath hstored hother hbefore hafter⟩

end Waypoint.Agent
