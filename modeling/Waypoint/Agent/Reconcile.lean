import Waypoint.Agent.Host

/-!
# The reconciler

`Reconcile` brings the attached modules in line with a desired set: modules that are no longer wanted, or wanted at another version, are detached, and the others fetched, attached, configured and started.
-/

namespace Waypoint.Agent

open Base LexPath

def rawImageName (id : String) : String := id ++ ".raw"

def rawDestPath (rootDir id version : String) : String :=
  joinAll [rootDir, "modules", id, version, rawImageName id]

/-- The reconciler of a running manager: drop-ins, credentials, configuration, proxies and callbacks are all wired. -/
structure Setup extends Reconciler where
  rootDir : String
  moduleMountRoot : String
  runtimeDir : String

def Setup.rawDest (r : Setup) (id version : String) : String := rawDestPath r.rootDir id version

def Setup.moduleMount (r : Setup) (id : String) : String :=
  if r.moduleMountRoot = "" then "" else joinAll [r.moduleMountRoot, id]

section

variable (w : World) (r : Setup)

def openUrl (url : String) : RoverM Bytes := do
  let s ← get
  if hasPrefix url "file://" then
    match s.files (String.ofList (url.toList.drop "file://".length)) with
    | some body => return body
    | none => throw "no such file or directory"
  else MonadExcept.ofExcept (w.download s.log url)

def discarding (owner tmp what : String) (p : RoverM Unit) : RoverM Unit := do
  match ← attempt p with
  | .ok () => return ()
  | .error e =>
    let _ ← attempt (perform w owner (.remove tmp))
    throw (what ++ e)

def tempPath (dest : String) (n : Nat) : String := joinAll [dir dest, ".raw-tmp-" ++ toString n]

/-- `Fetcher.Fetch`: the bytes go to a temporary file next to the destination, which is renamed once they are checked. -/
def fetch (owner url wantHex dest : String) : RoverM Unit := do
  wrapError ("fetcher: mkdir: " ++ ·) (perform w owner (.mkdirAll (dir dest)))
  let body ← openUrl w url
  let tmp := tempPath dest (w.tempSuffix (← get).log)
  wrapError ("fetcher: temp file: " ++ ·) (perform w owner (.createTemp tmp))
  discarding w owner tmp "fetcher: copy: " (perform w owner (.writeFile tmp body))
  discarding w owner tmp "fetcher: sha256 mismatch: "
    (if wantHex ≠ "" ∧ w.sha256 body ≠ wantHex then throw ("got " ++ w.sha256 body ++ " want " ++ wantHex) else pure ())
  discarding w owner tmp "fetcher: rename: " (perform w owner (.rename tmp dest))

/-- An image left attached by an earlier pass is detached once and the attach tried again. -/
def attach (id dest : String) : RoverM Unit := do
  match ← attempt (perform w id (.attach dest)) with
  | .ok () => return ()
  | .error e =>
    let _ ← attempt (perform w id (.stop id))
    match ← attempt (perform w id (.detach id)) with
    | .error detachErr => throw (e ++ " (detach for retry: " ++ detachErr ++ ")")
    | .ok () => perform w id (.attach dest)

variable (id : String)

/-- The rest of a detach, once the unit is stopped. -/
def finishDetach : RoverM Unit := do
  wrapError (("reconcile: detach " ++ id ++ ": ") ++ ·) (perform w id (.detach id))
  note id (.proxyClear id)
  modify fun s => { s with current := mapDelete s.current id }
  note id (.onDetach id)

def detach : RoverM Unit := do
  wrapError (("reconcile: stop " ++ id ++ ": ") ++ ·) (perform w id (.stop id))
  if r.moduleMount id ≠ "" then
    let _ ← attempt (perform w id (.unmount (r.moduleMount id)))
    let _ ← attempt (perform w id (.rmdir (r.moduleMount id)))
  finishDetach w id

variable (m : ModuleDesired)

/-- A module reads its configuration once, so a changed one is written and the module restarted. -/
def applyConfigChange : RoverM Unit := do
  if ((← get).currentConfig.lookup id).getD "" ≠ m.configToml then
    wrapError ("write config: " ++ ·) (perform w id (.syncConfig id m.configToml))
    wrapError ("stop: " ++ ·) (perform w id (.stop id))
    wrapError ("start: " ++ ·) (perform w id (.start id))
    modify fun s => { s with currentConfig := mapSet s.currentConfig id m.configToml }

def readManifest (id rawPath : String) : RoverM (Option Manifest) := do
  if r.moduleMount id = "" then return none
  match ← attempt (perform w id (.mkdirAll (r.moduleMount id))) with
  | .error _ => return none
  | .ok () =>
    match ← attempt (perform w id (.mount rawPath (r.moduleMount id))) with
    | .error _ => return none
    | .ok () =>
      let image := ((← get).files rawPath).getD []
      match (w.moduleTomls image).lookup id with
      | none => return none
      | some data => return (parseManifest data).toOption

def writeDropin (ops : List FileOp) : RoverM Unit := forM ops fun op => perform w id (.dropin op)

def classEnvSuffix (className : String) : String :=
  String.ofList (className.toList.map fun c => if c = '-' then '_' else c.toUpper)

/-- `RenderComponentDropin`; the first component also fills the names without a suffix. -/
def renderComponentDropin (cs : List Component) : String :=
  match cs with
  | [] => ""
  | first :: _ =>
    cs.foldl
      (fun b c => b ++ "Environment=WAYPOINT_MODULE_STATE_RATE_HZ_" ++ classEnvSuffix c.className ++ "=" ++
        w.formatRate c.stateRateHz ++ "\n")
      ("[Service]\n" ++ "Environment=WAYPOINT_MODULE_COMPONENT=" ++ first.className ++ "\n" ++
        "Environment=WAYPOINT_MODULE_STATE_RATE_HZ=" ++ w.formatRate first.stateRateHz ++ "\n")

def writeComponentDropin (cs : List Component) : List FileOp :=
  if r.dropinDir = "" then []
  else
    let body := renderComponentDropin w cs
    if body = "" then []
    else
      let dir := join r.dropinDir ("waypoint-module-" ++ id ++ ".service.d")
      [.mkdirAll dir, .writeFile (join dir "40-component.conf") body]

/-- What a readable manifest adds before the module starts; failures are logged and passed over. -/
def applyManifest (manifest : Manifest) : RoverM Unit := do
  let _ ← attempt (writeDropin w id (r.writeHardwareDropin id manifest.hardware))
  let _ ← attempt (writeDropin w id (writeComponentDropin w r id manifest.components))
  if manifest.ui.kind = .proxy then note id (.proxySet id manifest.ui.proxyPort)
  if r.dropinDir ≠ "" then
    let _ ← attempt (perform w id .reloadUnits)

variable (desired : List ModuleDesired)

def dropStale (id : String) : RoverM Unit := do
  match (← get).current.lookup id, wanted desired id with
  | some _, none => detach w r id
  | some rawPath, some m => if rawPath ≠ r.rawDest id m.version then detach w r id
  | none, _ => return ()

def obtainImage : RoverM Unit := do
  if !(← fileExists w id (r.rawDest id m.version)) then
    fetch w id m.rawUrl m.rawSha256 (r.rawDest id m.version)
    modify fun s => { s with stored := s.stored ++ [(id, m.version)] }

/-- The module gets its credentials and configuration, is started, and from then on remembered. -/
def finishStart (id dest : String) (m : ModuleDesired) (manifest : Option Manifest) : RoverM Unit := do
  perform w id (.ensureCreds id)
  perform w id (.syncConfig id m.configToml)
  perform w id (.start id)
  modify fun s => { s with current := mapSet s.current id dest, currentConfig := mapSet s.currentConfig id m.configToml }
  note id (.onAttach id manifest)

def startAttached : RoverM Unit := do
  let manifest ← readManifest w r id (r.rawDest id m.version)
  match manifest with
  | some manifest => applyManifest w r id manifest
  | none => pure ()
  finishStart w id (r.rawDest id m.version) m manifest

def startModule : RoverM Unit := do
  obtainImage w r id m
  attach w id (r.rawDest id m.version)
  startAttached w r id m

/-- Every error of one module is logged, and the next module's turn comes. -/
def bringUp (id : String) : RoverM Unit := do
  match wanted desired id with
  | none => return ()
  | some m =>
    if (← get).current.lookup id = some (r.rawDest id m.version) then
      let _ ← attempt (applyConfigChange w id m)
    else
      let _ ← attempt (startModule w r id m)

def reconcile : RoverM Unit := do
  let s ← get
  forM (w.order s.log (s.current.map (·.1))) (dropStale w r desired)
  let s ← get
  forM (w.order s.log (wantedIds desired)) (bringUp w r desired)

end

theorem name_temp (n : Nat) : Name (".raw-tmp-" ++ toString n) := by
  have hlong : ∀ t : String, t.length < 9 → ".raw-tmp-" ++ toString n ≠ t := by
    rintro t ht rfl
    have hstem : ".raw-tmp-".length = 9 := by decide
    rw [String.length_append] at ht
    omega
  refine ⟨⟨hlong "" (by decide), hlong "." (by decide), hlong ".." (by decide)⟩, ?_⟩
  rw [String.toList_append, List.mem_append, not_or]
  refine ⟨by decide, fun hslash => ?_⟩
  have hdigit : '/'.isDigit = true := Nat.isDigit_of_mem_toDigits (b := 10) (by decide) (by decide) (by rwa [← Nat.toList_repr])
  exact absurd hdigit (by decide)

theorem getLast_rawDest (r : Setup) (id version : String) :
    ∃ stem, (ofString (r.rawDest id version)).elements.getLast? = some (stem ++ ".raw") := by
  obtain ⟨a, ha, hpath⟩ : ∃ a, a ≠ "" ∧ r.rawDest id version = clean (a ++ "/" ++ rawImageName id) := by
    by_cases hroot : r.rootDir = ""
    · exact ⟨"/".intercalate ["modules", id, version], by simp [String.intercalate_cons_of_ne_nil], by
        simp [Setup.rawDest, rawDestPath, joinAll, hroot, String.intercalate_cons_of_ne_nil, String.append_assoc]⟩
    · exact ⟨"/".intercalate [r.rootDir, "modules", id, version], by simp [String.intercalate_cons_of_ne_nil], by
        simp [Setup.rawDest, rawDestPath, joinAll, hroot, String.intercalate_cons_of_ne_nil, String.append_assoc]⟩
  obtain hnil | ⟨init, stem, hid⟩ := List.eq_nil_or_concat' (fields '/' id)
  · exact absurd hnil (fields_ne_nil id)
  have hfields : fields '/' (rawImageName id) = init ++ [stem ++ ".raw"] :=
    fields_append hid (show fields '/' ".raw" = [".raw"] by decide)
  have hends : ∀ t : String, t.toList.getLast? ≠ some 'w' → stem ++ ".raw" ≠ t := by
    rintro t ht rfl
    exact ht (by simp)
  have hplain : Plain (stem ++ ".raw") := ⟨hends _ (by decide), hends _ (by decide), hends _ (by decide)⟩
  refine ⟨stem, ?_⟩
  rw [hpath, ofString_clean, ofString_append ha, hfields, getLast_foldl_push _ _ hplain]

theorem rawDest_ne_tempPath (r : Setup) (id version dest : String) (n : Nat) : r.rawDest id version ≠ tempPath dest n := by
  intro heq
  obtain ⟨stem, hstem⟩ := getLast_rawDest r id version
  rw [heq, tempPath, ofString_joinAll _ (by simp) (by simpa using name_temp n), List.getLast?_concat, Option.some.injEq] at hstem
  have hdigits : (toString n).toList = Nat.toDigits 10 n := Nat.toList_repr
  refine append_ne_append_of_getLast (by decide) (hdigits ▸ Nat.toDigits_ne_nil) (fun hlast => ?_) hstem.symm
  have hw : 'w' ∈ Nat.toDigits 10 n := hdigits ▸ List.mem_of_getLast? hlast.symm
  have hdigit : 'w'.isDigit = true := Nat.isDigit_of_mem_toDigits (by decide) (by decide) hw
  exact absurd hdigit (by decide)

section Frame

variable {w : World} {r : Setup} {rel : Rover → Rover → Prop} [Std.Refl rel] [IsTrans Rover rel]

theorem keeps_openUrl (url : String) :
    Keeps rel (openUrl w url).run := by
  refine keeps_then keeps_get fun s => ?_
  split
  · split
    · exact keeps_ok _
    · exact keeps_error _
  · exact keeps_ofExcept _

variable {owner id : String} {op : HostOp} {desired : List ModuleDesired} {tmp what dest : String} {p : RoverM Unit}

theorem keeps_discarding
    (hp : Keeps rel p.run) (hremove : Keeps rel (perform w owner (.remove tmp)).run) :
    Keeps rel (discarding w owner tmp what p).run := by
  refine keeps_then (keeps_attempt hp) fun outcome => ?_
  cases outcome with
  | ok => exact keeps_ok _
  | error e => exact keeps_then (keeps_attempt hremove) fun _ => keeps_error _

theorem triple_discarding {pre err : Rover → Prop} {post : Unit → Rover → Prop}
    (hp : Triple pre p post err) (hremove : Triple err (perform w owner (.remove tmp)) (fun _ => err) err) :
    Triple pre (discarding w owner tmp what p) post err :=
  triple_recover hp (fun _ => triple_ok fun _ h => h) fun _ =>
    triple_then (triple_attempt hremove) fun _ => triple_error fun _ h => h

/-- The operations of a fetch: on the directory of its destination, on a temporary file there, and the rename. -/
def HostOp.OfFetch (dest : String) : HostOp → Prop
  | .mkdirAll path => path = dir dest
  | .createTemp path | .writeFile path _ | .remove path => ∃ n, path = tempPath dest n
  | .rename source path => (∃ n, source = tempPath dest n) ∧ path = dest
  | _ => False

theorem keeps_fetch_of_ops (hop : ∀ op : HostOp, op.OfFetch dest → Keeps rel (perform w owner op).run)
    (url wantHex : String) : Keeps rel (fetch w owner url wantHex dest).run := by
  refine keeps_then (keeps_wrapError (hop _ rfl)) fun _ => ?_
  refine keeps_then (keeps_openUrl url) fun body => ?_
  refine keeps_then keeps_get fun s => ?_
  have hremove := hop (.remove (tempPath dest (w.tempSuffix s.log))) ⟨_, rfl⟩
  refine keeps_then (keeps_wrapError (hop _ ⟨_, rfl⟩)) fun _ => ?_
  refine keeps_then (keeps_discarding (hop _ ⟨_, rfl⟩) hremove) fun _ => ?_
  refine keeps_then (keeps_discarding ?_ hremove) fun _ => ?_
  · split
    · exact keeps_error _
    · exact keeps_ok _
  · exact keeps_discarding (hop _ ⟨⟨_, rfl⟩, rfl⟩) hremove

theorem keeps_obtainImage_of_ops {r : Setup} {m : ModuleDesired}
    (hstat : ∀ path, Keeps rel (perform w id (.stat path)).run)
    (hop : ∀ op : HostOp, op.OfFetch (r.rawDest id m.version) → Keeps rel (perform w id op).run)
    (hstored : ∀ s : Rover, rel s { s with stored := s.stored ++ [(id, m.version)] }) :
    Keeps rel (obtainImage w r id m).run := by
  have hexists : Keeps rel (fileExists w id (r.rawDest id m.version)).run := by
    refine keeps_then (keeps_attempt (hstat _)) fun outcome => ?_
    cases outcome with
    | error e => exact keeps_ok _
    | ok => exact keeps_then keeps_get fun s => keeps_ok _
  refine keeps_then hexists fun found => ?_
  cases found with
  | true => exact keeps_ok _
  | false => exact keeps_then (keeps_fetch_of_ops hop _ _) fun _ => keeps_modify hstored

theorem keeps_writeDropin (hop : ∀ op, Keeps rel (perform w id (.dropin op)).run) (ops : List FileOp) :
    Keeps rel (writeDropin w id ops).run :=
  keeps_each ops fun op _ => hop op

def HostOp.NotAttach (op : HostOp) : Prop := ∀ path, op ≠ .attach path

def HostOp.OfUnit (id : String) : HostOp → Prop
  | .unmount _ | .rmdir _ | .onDetach _ => True
  | .stop other | .start other | .detach other | .proxyClear other | .syncConfig other _ => other = id
  | _ => False

def HostOp.Own (id dest : String) : HostOp → Prop
  | .attach path => path = dest
  | .detach other | .start other | .stop other | .proxySet other _ | .proxyClear other | .syncConfig other _ => other = id
  | _ => True

section Turns

variable {id : String} (hrel : QuietOn id (HostOp.OfUnit id) rel)

include hrel

theorem keeps_detach_of (hforget : ∀ s : Rover, rel s { s with current := mapDelete s.current id }) :
    Keeps rel (detach w r id).run := by
  have hrest : Keeps rel (finishDetach w id).run := by
    refine keeps_then (keeps_wrapError (keeps_perform_on hrel rfl rfl)) fun _ => ?_
    refine keeps_then (keeps_note_on hrel rfl rfl) fun _ => ?_
    refine keeps_then (keeps_modify hforget) fun _ => ?_
    exact keeps_note_on hrel rfl trivial
  refine keeps_then (keeps_wrapError (keeps_perform_on hrel rfl rfl)) fun _ => ?_
  split
  · refine keeps_then (keeps_attempt (keeps_perform_on hrel rfl trivial)) fun _ => ?_
    refine keeps_then (keeps_attempt (keeps_perform_on hrel rfl trivial)) fun _ => ?_
    exact hrest
  · exact hrest

theorem keeps_applyConfigChange_of (m : ModuleDesired)
    (hconfig : ∀ s : Rover, rel s { s with currentConfig := mapSet s.currentConfig id m.configToml }) :
    Keeps rel (applyConfigChange w id m).run := by
  refine keeps_then keeps_get fun s => ?_
  split
  · refine keeps_then (keeps_wrapError (keeps_perform_on hrel rfl rfl)) fun _ => ?_
    refine keeps_then (keeps_wrapError (keeps_perform_on hrel rfl rfl)) fun _ => ?_
    refine keeps_then (keeps_wrapError (keeps_perform_on hrel rfl rfl)) fun _ => ?_
    exact keeps_modify hconfig
  · exact keeps_ok _

end Turns

theorem keeps_dropStale_of (hdetach : Keeps rel (detach w r id).run) :
    Keeps rel (dropStale w r desired id).run := by
  refine keeps_then keeps_get fun s => ?_
  split
  · exact hdetach
  · split
    · exact hdetach
    · exact keeps_ok _
  · exact keeps_ok _

section Detaching

variable {id : String} (hrel : LenientOn (HostOp.OfUnit id) rel)

include hrel

theorem keeps_dropStale (desired : List ModuleDesired) : Keeps rel (dropStale w r desired id).run :=
  keeps_dropStale_of (keeps_detach_of (hrel.quietOn id fun _ h => h) fun s => hrel.maps s _ s.currentConfig)

theorem keeps_applyConfigChange (m : ModuleDesired) : Keeps rel (applyConfigChange w id m).run :=
  keeps_applyConfigChange_of (hrel.quietOn id fun _ h => h) m fun s => hrel.maps s s.current _

end Detaching

def HostOp.OfAttach (id dest : String) : HostOp → Prop
  | .attach path => path = dest
  | .mkdirAll _ | .mount .. => True
  | .stop other | .detach other => other = id
  | _ => False

def HostOp.OfManifest (id : String) : HostOp → Prop
  | .dropin _ | .reloadUnits => True
  | .proxySet other _ => other = id
  | _ => False

theorem HostOp.OfAttach.own (h : op.OfAttach id dest) : op.Own id dest := by
  cases op <;> first | exact h | trivial

theorem HostOp.OfManifest.own (h : op.OfManifest id) : op.Own id dest := by
  cases op <;> first | exact h | trivial

section Attaching

variable {id dest : String} (hrel : QuietOn id (HostOp.OfAttach id dest) rel)

include hrel

theorem keeps_attach : Keeps rel (attach w id dest).run := by
  refine keeps_then (keeps_attempt (keeps_perform_on hrel rfl rfl)) fun outcome => ?_
  cases outcome with
  | ok => exact keeps_ok _
  | error e =>
    refine keeps_then (keeps_attempt (keeps_perform_on hrel rfl rfl)) fun _ => ?_
    refine keeps_then (keeps_attempt (keeps_perform_on hrel rfl rfl)) fun outcome => ?_
    cases outcome with
    | ok => exact keeps_perform_on hrel rfl rfl
    | error e => exact keeps_error _

theorem keeps_readManifest (rawPath : String) : Keeps rel (readManifest w r id rawPath).run := by
  unfold readManifest
  split
  · exact keeps_ok _
  refine keeps_then (keeps_attempt (keeps_perform_on hrel rfl trivial)) fun outcome => ?_
  cases outcome with
  | error e => exact keeps_ok _
  | ok =>
    refine keeps_then (keeps_attempt (keeps_perform_on hrel rfl trivial)) fun outcome => ?_
    cases outcome with
    | error e => exact keeps_ok _
    | ok =>
      refine keeps_then keeps_get fun s => ?_
      dsimp only
      split
      · exact keeps_ok _
      · exact keeps_ok _

end Attaching

theorem keeps_applyManifest (hrel : QuietOn id (HostOp.OfManifest id) rel) (m : Manifest) : Keeps rel (applyManifest w r id m).run := by
  have hreload : Keeps rel (if r.dropinDir ≠ "" then do
      let _ ← attempt (perform w id .reloadUnits)
      pure () else pure () : RoverM Unit).run := by
    split
    · exact keeps_then (keeps_attempt (keeps_perform_on hrel rfl trivial)) fun _ => keeps_ok _
    · exact keeps_ok _
  refine keeps_then (keeps_attempt (keeps_writeDropin (fun _ => keeps_perform_on hrel rfl trivial) _)) fun _ => ?_
  refine keeps_then (keeps_attempt (keeps_writeDropin (fun _ => keeps_perform_on hrel rfl trivial) _)) fun _ => ?_
  by_cases hproxy : m.ui.kind = .proxy
  · simp only [if_pos hproxy]
    exact keeps_then (keeps_note_on hrel rfl rfl) fun _ => hreload
  · simp only [if_neg hproxy]
    exact hreload

section Starting

variable {id : String} {m : ModuleDesired} (hrel : QuietOn id (HostOp.Own id (r.rawDest id m.version)) rel)

include hrel

theorem keeps_startAttached
    (hremember : ∀ s : Rover, rel s { s with
      current := mapSet s.current id (r.rawDest id m.version)
      currentConfig := mapSet s.currentConfig id m.configToml }) :
    Keeps rel (startAttached w r id m).run := by
  refine keeps_then (keeps_readManifest (hrel.mono fun _ h => h.own) _) fun manifest => ?_
  have hrest : Keeps rel (finishStart w id (r.rawDest id m.version) m manifest).run := by
    refine keeps_then (keeps_perform_on hrel rfl trivial) fun _ => ?_
    refine keeps_then (keeps_perform_on hrel rfl rfl) fun _ => ?_
    refine keeps_then (keeps_perform_on hrel rfl rfl) fun _ => ?_
    refine keeps_then (keeps_modify hremember) fun _ => ?_
    exact keeps_note_on hrel rfl trivial
  cases manifest with
  | none => exact hrest
  | some manifest => exact keeps_then (keeps_applyManifest (hrel.mono fun _ h => h.own) manifest) fun _ => hrest

end Starting

theorem keeps_bringUp_of
    (hconfig : ∀ m, wanted desired id = some m → Keeps rel (applyConfigChange w id m).run)
    (hstart : ∀ m, wanted desired id = some m → Keeps rel (startModule w r id m).run) :
    Keeps rel (bringUp w r desired id).run := by
  unfold bringUp
  cases hwanted : wanted desired id with
  | none => exact keeps_ok _
  | some m =>
    refine keeps_then keeps_get fun s => ?_
    split
    · exact keeps_then (keeps_attempt (hconfig m hwanted)) fun _ => keeps_ok _
    · exact keeps_then (keeps_attempt (hstart m hwanted)) fun _ => keeps_ok _

theorem keeps_reconcile_of_turns (hdrop : ∀ id, Keeps rel (dropStale w r desired id).run)
    (hup : ∀ id, Keeps rel (bringUp w r desired id).run) : Keeps rel (reconcile w r desired).run := by
  refine keeps_then keeps_get fun s => ?_
  refine keeps_then (keeps_each _ fun id _ => hdrop id) fun _ => ?_
  exact keeps_then keeps_get fun s => keeps_each _ fun id _ => hup id

variable (hrel : Lenient rel)

include hrel

theorem keeps_startModule (id : String) (m : ModuleDesired) (hobtain : Keeps rel (obtainImage w r id m).run) :
    Keeps rel (startModule w r id m).run :=
  keeps_then hobtain fun _ => keeps_then (keeps_attach ((hrel.on _).quietOn id fun _ h => h)) fun _ =>
    keeps_startAttached ((hrel.on _).quietOn id fun _ h => h) fun s => hrel.maps s _ _

theorem keeps_reconcile
    (hobtain : ∀ id m, wanted desired id = some m → Keeps rel (obtainImage w r id m).run) :
    Keeps rel (reconcile w r desired).run := by
  refine keeps_reconcile_of_turns (fun id => keeps_dropStale (hrel.on _) desired) fun id => ?_
  refine keeps_bringUp_of (fun m _ => keeps_applyConfigChange (hrel.on _) m) fun m hwanted => ?_
  exact keeps_startModule hrel id m (hobtain id m hwanted)

end Frame

end Waypoint.Agent
