import Waypoint.Agent.Reconcile

/-!
# Installing modules

The local install path.
-/

namespace Waypoint.Agent

open Base LexPath

/-- `SigningIdentity`: the part of a signer's name before the git ref. -/
def signingIdentity (san : String) : String := String.ofList (san.toList.takeWhile (· ≠ '@'))

def hexDigit (n : Nat) : Char := if n < 10 then Char.ofNat ('0'.toNat + n) else Char.ofNat ('a'.toNat + (n - 10))

def stageIDOf (random : UInt64) : String :=
  String.ofList ((List.range 16).map fun i => hexDigit (random.toNat / 16 ^ (15 - i) % 16))

section

variable (w : World) (r : Setup)

def stagingDir : String := joinAll [r.rootDir, "modules", ".staging"]

def uploadedManifest (raw : Bytes) : Except String Manifest :=
  match w.moduleTomls raw with
  | [(_, data)] => parseManifest data
  | found => .error ("expected exactly one module.toml, found " ++ toString found.length)

def readUploadedManifest (stageID rawPath : String) : RoverM Manifest := do
  let mountPath := joinAll [r.runtimeDir, ".stage-mnt", stageID]
  wrapError ("stage mount dir: " ++ ·) (perform w "" (.mkdirAll mountPath))
  let outcome ← attempt do
    wrapError ("mount: " ++ ·) (perform w "" (.mount rawPath mountPath))
    MonadExcept.ofExcept (uploadedManifest w (((← get).files rawPath).getD []))
  let _ ← attempt (perform w "" (.unmount mountPath))
  let _ ← attempt (perform w "" (.rmdir mountPath))
  MonadExcept.ofExcept outcome

/-- An error of a staging step leaves no staging directory behind. -/
def unstaging (stageDir what : String) {α : Type} (p : RoverM α) : RoverM α := do
  match ← attempt p with
  | .ok a => return a
  | .error e =>
    let _ ← attempt (perform w "" (.removeAll stageDir))
    throw (what ++ e)

/-- A verified image is written to a directory of its own and registered with what its manifest says. -/
def stageVerified (raw : Bytes) (san stageID : String) : RoverM StagedModule := do
  let stageDir := joinAll [r.rootDir, "modules", ".staging", stageID]
  wrapError ("stage dir: " ++ ·) (perform w "" (.mkdirAll stageDir))
  let rawPath := joinAll [r.rootDir, "modules", ".staging", stageID, "image.raw"]
  unstaging w stageDir "stage write: " (perform w "" (.writeFile rawPath raw))
  let manifest ← unstaging w stageDir "manifest: " (readUploadedManifest w r stageID rawPath)
  let staged : StagedModule := { rawPath, stageDir, id := manifest.name, version := manifest.version, signerSAN := san }
  modify fun s => { s with staging := mapSet s.staging stageID staged }
  return staged

def stageModule (raw bundle : Bytes) : RoverM StagedModule := do
  if let some e := w.verifierError then throw ("verifier: " ++ e)
  let san ← MonadExcept.ofExcept ((w.verify raw bundle).mapError ("signature: " ++ ·))
  let random ← MonadExcept.ofExcept ((w.random (← get).log).mapError ("stage id: " ++ ·))
  stageVerified w r raw san (stageIDOf random)

/-- `CheckPinnedSAN`: the first signer of a module is trusted, and only its workflow after that. -/
def checkPinnedSAN (id san : String) : RoverM Unit := do
  perform w id .readTrust
  match (← get).trust.lookup id with
  | some pinned =>
    if signingIdentity pinned ≠ signingIdentity san then
      throw "signer SAN does not match the pinned identity for this module"
  | none => return ()

def pinSAN (id san : String) : RoverM Unit := do
  perform w id .readTrust
  perform w id .writeTrust
  modify fun s => { s with trust := mapSet s.trust id (signingIdentity san) }

def moveImage (st : StagedModule) (dest : String) : RoverM Unit := do
  match ← attempt (perform w st.id (.rename st.rawPath dest)) with
  | .ok () => pure ()
  | .error _ =>
    wrapError ("move raw: " ++ ·) (perform w st.id (.copyFile st.rawPath dest))
    let _ ← attempt (perform w st.id (.remove st.rawPath))
  modify fun s => { s with stored := s.stored ++ [(st.id, st.version)] }

def reconcileMerged : RoverM Unit := do
  let s ← get
  reconcile w r (mergeDesired s.proxyDesired s.localDesired)

/-- The module enters the local set, and the rover is reconciled with it. -/
def addLocal (entry : ModuleDesired) : RoverM Unit := do
  modify fun s => { s with localDesired := upsertModule s.localDesired entry }
  wrapError ("write local desired: " ++ ·) (perform w entry.id .writeLocalDesired)
  reconcileMerged w r

def confirmStaged (stageID configTOML : String) (st : StagedModule) : RoverM Unit := do
  checkPinnedSAN w st.id st.signerSAN
  let dest := r.rawDest st.id st.version
  wrapError ("dest dir: " ++ ·) (perform w st.id (.mkdirAll (dir dest)))
  moveImage w st dest
  modify fun s => { s with staging := mapDelete s.staging stageID }
  let _ ← attempt (perform w st.id (.removeAll st.stageDir))
  wrapError ("pin san: " ++ ·) (pinSAN w st.id st.signerSAN)
  if configTOML ≠ "" then
    wrapError ("write config: " ++ ·) (perform w st.id (.writeLocalConfig st.id configTOML))
  addLocal w r { id := st.id, version := st.version, rawUrl := "file://" ++ dest, configToml := configTOML }

def confirmModule (stageID configTOML : String) : RoverM Unit := do
  match (← get).staging.lookup stageID with
  | none => throw ("unknown stage id " ++ stageID.quote)
  | some st => confirmStaged w r stageID configTOML st

def Rover.localVersion (s : Rover) (id : String) : String :=
  ((s.localDesired.find? fun m => m.id = id).map (·.version)).getD ""

def dropInstalled (id version : String) : RoverM Unit := do
  modify fun s => { s with localDesired := removeModule s.localDesired id }
  wrapError ("write local desired: " ++ ·) (perform w id .writeLocalDesired)
  reconcileMerged w r
  if version ≠ "" then
    let _ ← attempt (perform w id (.removeAll (dir (r.rawDest id version))))

def uninstallModule (id : String) : RoverM Unit := do
  let s ← get
  if containsModule s.localDesired id then dropInstalled w r id (s.localVersion id)
  else throw ("module " ++ id.quote ++ " is not locally installed")

inductive InstallCall
  | stage (raw bundle : Bytes)
  | confirm (stageID configTOML : String)
  | uninstall (id : String)

def Rover.after (s : Rover) : InstallCall → Rover
  | .stage raw bundle => ((stageModule w r raw bundle).run.run s).2
  | .confirm stageID configTOML => ((confirmModule w r stageID configTOML).run.run s).2
  | .uninstall id => ((uninstallModule w r id).run.run s).2

end

section Frame

variable {w : World} {r : Setup} {rel : Rover → Rover → Prop} [Std.Refl rel] [IsTrans Rover rel]

theorem keeps_checkPinnedSAN {id : String} (hread : Keeps rel (perform w id .readTrust).run) (san : String) :
    Keeps rel (checkPinnedSAN w id san).run := by
  refine keeps_then hread fun _ => keeps_then keeps_get fun s => ?_
  split
  · split
    · exact keeps_error _
    · exact keeps_ok _
  · exact keeps_ok _

theorem keeps_pinSAN {id : String} (hread : Keeps rel (perform w id .readTrust).run)
    (hwrite : Keeps rel (perform w id .writeTrust).run) (htrust : ∀ (s : Rover) trust, rel s { s with trust := trust })
    (san : String) : Keeps rel (pinSAN w id san).run :=
  keeps_then hread fun _ => keeps_then hwrite fun _ => keeps_modify fun s => htrust s _

end Frame

end Waypoint.Agent
