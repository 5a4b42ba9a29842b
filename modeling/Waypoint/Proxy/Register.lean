import Mathlib.Logic.Function.Basic
import Waypoint.Base.Except
import Waypoint.Base.Run
import Waypoint.Proxy.Registry

/-!
# Registering modules

`HandleRegister` of `modules/api.go`.
-/

namespace Waypoint.Proxy

open Base LexPath

abbrev Image := List UInt8

structure Url where
  scheme : String
  host : String
  hostname : String
  path : String

structure RegisterRequest where
  sourceRepoURL : String
  moduleID : String := ""
  repoVisibility : String := ""
  githubToken : String := ""

structure ReleaseManifest where
  name : String
  label : String
  version : String

structure Response where
  status : Nat
  body : String := ""

/-- The API with what it is wired to: the parsers, the token box, the verifier and the hash. -/
structure RegisterAPI where
  root : String
  allowLoopback : Bool := false
  parseURL : String → Option Url
  box : Option (String → Except String (List UInt8))
  parseManifest : List UInt8 → Except String ReleaseManifest
  /-- of an image, its bundle, and the pattern of the identity -/
  verify : Image → List UInt8 → String → Except String String
  sha256 : Image → String

structure Prepared where
  moduleID : String
  version : String
  displayName : String
  sourceRepoURL : String
  expectedSAN : String
  user : String
  repoVisibility : String
  tokenEnc : Option (List UInt8)
  manifestRaw : List UInt8

def trimSlashes (cs : List Char) : List Char := ((cs.dropWhile (· = '/')).reverse.dropWhile (· = '/')).reverse

def quoteMeta (cs : List Char) : List Char :=
  cs.flatMap fun c => if c ∈ "\\.+*?()|[]\x7b\x7d^$".toList then ['\\', c] else [c]

namespace RegisterAPI

variable (api : RegisterAPI)

def expectedSANForRepo (repoURL : String) : Except String String :=
  match api.parseURL repoURL with
  | none => .error "identity: repo must be a github.com URL"
  | some u =>
    let path := trimSlashes u.path.toList
    if u.host ≠ "github.com" then .error "identity: repo must be a github.com URL"
    else if path.count '/' ≠ 1 then .error "identity: expected github.com/<owner>/<repo>"
    else .ok ("^https://github\\.com/" ++ String.ofList (quoteMeta path) ++
      "/\\.github/workflows/release\\.yml@refs/tags/v.+$")

/-- Loopback origins are for tests only. -/
def isLoopback (u : Url) : Bool := api.allowLoopback && decide (u.scheme = "http") && decide (u.hostname = "127.0.0.1")

/-- Production takes `https://github.com` origins only. -/
def checkURL (sourceRepoURL : String) : Except Response Url := do
  match api.parseURL sourceRepoURL with
  | none => .error ⟨400, "source_repo_url must be a valid URL"⟩
  | some u =>
    require (u.host ≠ "") ⟨400, "source_repo_url must be a valid URL"⟩
    require (api.isLoopback u = true ∨ (u.scheme = "https" ∧ u.host = "github.com"))
      ⟨400, "source_repo_url must be an https://github.com/<owner>/<repo> URL"⟩
    return u

def sealToken (githubToken : String) : Except Response (Option (List UInt8)) :=
  if githubToken = "" then .ok none
  else
    match api.box with
    | none => .error ⟨400, "token storage not configured"⟩
    | some sealing => ((sealing githubToken).map some).mapError fun e => ⟨500, "seal token: " ++ e⟩

def identity (u : Url) (sourceRepoURL : String) : Except Response String :=
  if api.isLoopback u = true then .ok "test" else (api.expectedSANForRepo sourceRepoURL).mapError fun e => ⟨400, e⟩

def prepare (body : Except String RegisterRequest) (user : Option String) (fetched : Except String (List UInt8)) :
    Except Response Prepared := do
  let input ← body.mapError fun e => ⟨400, "bad body: " ++ e⟩
  let u ← api.checkURL input.sourceRepoURL
  require (input.moduleID = "" ∨ moduleIDPattern input.moduleID = true)
    ⟨400, "module_id must match ^[a-z0-9][a-z0-9-]\x7b0,30\x7d$"⟩
  let user ← (match user with
    | none => .error ⟨401, "no user in context"⟩
    | some user => .ok user)
  let tokenEnc ← api.sealToken input.githubToken
  let expectedSAN ← api.identity u input.sourceRepoURL
  let manifestRaw ← fetched.mapError fun e => ⟨424, "fetch manifest: " ++ e⟩
  let manifest ← (api.parseManifest manifestRaw).mapError fun e => ⟨422, "parse manifest: " ++ e⟩
  require (moduleIDPattern manifest.name = true)
    ⟨422, "manifest name " ++ manifest.name.quote ++ " is not a valid module id"⟩
  require (input.moduleID = "" ∨ input.moduleID = manifest.name)
    ⟨400, "module_id " ++ input.moduleID.quote ++ " does not match the release manifest name " ++ manifest.name.quote⟩
  return {
    moduleID := manifest.name
    version := manifest.version
    displayName := manifest.label
    sourceRepoURL := input.sourceRepoURL
    expectedSAN
    user
    repoVisibility := input.repoVisibility
    tokenEnc
    manifestRaw }

variable {p : Prepared} {fault : Option String}

theorem moduleIDPattern_of_prepare {body : Except String RegisterRequest} {user : Option String}
    {fetched : Except String (List UInt8)} (h : api.prepare body user fetched = .ok p) :
    moduleIDPattern p.moduleID = true := by
  unfold prepare at h
  simp only [bind_eq_ok] at h
  obtain ⟨input, -, u, -, _, -, user, -, tokenEnc, -, san, -, manifestRaw, -, manifest, -, _, hname, _, -, hp⟩ := h
  cases hp
  exact require_eq_ok.mp hname

def orFault {α : Type} (fault : Option String) (answer : α) : Except String α :=
  match fault with
  | some e => .error e
  | none => .ok answer

/-- A module's signing identity is fixed at its first registration. -/
def checkPin (p : Prepared) (fault : Option String) (row : Option ModuleRow) : Except Response Unit := do
  let row ← (orFault fault row).mapError fun e => ⟨500, "lookup module: " ++ e⟩
  match row with
  | none => .ok ()
  | some existing =>
    require (existing.expectedIdentitySAN = p.expectedSAN)
      ⟨409, "module already registered with a different signing identity; re-pinning is not permitted"⟩

def checkRelease [Semver] (p : Prepared) (fault : Option String) (existing : List (String × VersionRow))
    (raw bundle : Except String (List UInt8)) : Except Response Image := do
  let existing ← (orFault fault existing).mapError fun e => ⟨500, "list versions: " ++ e⟩
  require (isNewerVersion p.version (existing.map (·.1)) = true) ⟨409, "version not newer than current max"⟩
  let raw ← raw.mapError fun e => ⟨424, "fetch raw: " ++ e⟩
  let bundle ← bundle.mapError fun e => ⟨424, "fetch cosign bundle: " ++ e⟩
  let _ ← (api.verify raw bundle p.expectedSAN).mapError fun e => ⟨401, "verify: " ++ e⟩
  return raw

def Verified (raw : Image) (san : String) : Prop := ∃ bundle signer, api.verify raw bundle san = .ok signer

theorem mapError_eq_ok {ε ε' α : Type} {f : ε → ε'} {x : Except ε α} {a : α} (h : x.mapError f = .ok a) : x = .ok a := by
  cases x with
  | error e => cases h
  | ok b =>
    cases h
    rfl

theorem orFault_eq_ok {α : Type} {answer a : α} (h : orFault fault answer = .ok a) : answer = a := by
  cases fault with
  | some e => cases h
  | none =>
    cases h
    rfl

theorem checkPin_eq_ok {row : Option ModuleRow} {u : Unit}
    (h : checkPin p fault row = .ok u) : ∀ m, row = some m → m.expectedIdentitySAN = p.expectedSAN := by
  rintro m rfl
  obtain ⟨row, hrow, h⟩ := bind_eq_ok.mp h
  cases orFault_eq_ok (mapError_eq_ok hrow)
  exact require_eq_ok.mp h

theorem checkRelease_eq_ok [Semver] {existing : List (String × VersionRow)}
    {raw bundle : Except String (List UInt8)} {image : Image}
    (h : api.checkRelease p fault existing raw bundle = .ok image) :
    isNewerVersion p.version (existing.map (·.1)) = true ∧ api.Verified image p.expectedSAN := by
  unfold checkRelease at h
  simp only [bind_eq_ok] at h
  obtain ⟨listed, hlisted, _, hnewer, fetched, -, bundle, -, signer, hsigner, hout⟩ := h
  cases orFault_eq_ok (mapError_eq_ok hlisted)
  cases hout
  exact ⟨require_eq_ok.mp hnewer, bundle, signer, mapError_eq_ok hsigner⟩

end RegisterAPI

structure RegistryStore where
  repo : ModulesRepo := {}
  blobs : String → Option Image := fun _ => none

inductive Stage
  | idle
  | prepared (p : Prepared)
  | pinned (p : Prepared)
  | verified (p : Prepared) (raw : Image)
  | stored (p : Prepared) (raw : Image)
  | registered (p : Prepared) (raw : Image)
  | answered (r : Response)

structure RegisterState where
  registry : RegistryStore := {}
  stage : Nat → Stage := fun _ => .idle

namespace RegisterState

inductive Action
  | request (t : Nat) (body : Except String RegisterRequest) (user : Option String) (fetched : Except String (List UInt8))
  | getModule (t : Nat) (fault : Option String)
  | listVersions (t : Nat) (fault : Option String) (raw bundle : Except String (List UInt8))
  | put (t : Nat) (fault : Option String)
  | registerModule (t : Nat) (static fault : Option String)
  | ingestVersion (t : Nat) (fault : Option String)

def setStage (s : RegisterState) (t : Nat) (stage : Stage) : RegisterState :=
  { s with stage := Function.update s.stage t stage }

def settle : Except Response Stage → Stage
  | .ok stage => stage
  | .error r => .answered r

def answer (s : RegisterState) (t status : Nat) (body : String) : RegisterState := s.setStage t (.answered ⟨status, body⟩)

end RegisterState

section

variable (api : RegisterAPI)

namespace RegistryStore

def put (g : RegistryStore) (p : Prepared) (raw : Image) : RegistryStore :=
  { g with blobs := Function.update g.blobs (blobPath api.root p.moduleID p.version) (some raw) }

def register (g : RegistryStore) (p : Prepared) : RegistryStore :=
  { g with repo := g.repo.registerModule p.moduleID {
      displayName := p.displayName
      sourceRepoURL := p.sourceRepoURL
      expectedIdentitySAN := p.expectedSAN
      registeredBy := p.user
      repoVisibility := p.repoVisibility
      githubTokenEnc := p.tokenEnc } }

def ingest (g : RegistryStore) (p : Prepared) (raw : Image) : Option RegistryStore :=
  (g.repo.ingestVersion p.moduleID p.version {
    rawPath := blobPath api.root p.moduleID p.version
    rawSha256 := api.sha256 raw
    manifestJSON := p.manifestRaw }).map fun repo => { g with repo := repo }

end RegistryStore

namespace RegisterState

def next [Semver] (s : RegisterState) : Action → Option RegisterState
  | .request t body user fetched =>
    match s.stage t with
    | .idle => some (s.setStage t (settle ((api.prepare body user fetched).map .prepared)))
    | _ => none
  | .getModule t fault =>
    match s.stage t with
    | .prepared p =>
      some (s.setStage t (settle
        ((RegisterAPI.checkPin p fault (s.registry.repo.getModule p.moduleID)).map fun _ => .pinned p)))
    | _ => none
  | .listVersions t fault raw bundle =>
    match s.stage t with
    | .pinned p =>
      some (s.setStage t (settle
        ((api.checkRelease p fault (s.registry.repo.listVersions p.moduleID) raw bundle).map (.verified p))))
    | _ => none
  | .put t fault =>
    match s.stage t, fault with
    | .verified _ _, some e => some (s.answer t 500 ("store: " ++ e))
    | .verified p raw, none => some ({ s with registry := s.registry.put api p raw }.setStage t (.stored p raw))
    | _, _ => none
  | .registerModule t static fault =>
    match s.stage t, static, fault with
    | .stored _ _, some e, _ => some (s.answer t 422 ("cache static tree: " ++ e))
    | .stored _ _, none, some e => some (s.answer t 500 ("register: " ++ e))
    | .stored p raw, none, none => some ({ s with registry := s.registry.register p }.setStage t (.registered p raw))
    | _, _, _ => none
  | .ingestVersion t fault =>
    match s.stage t, fault with
    | .registered _ _, some e => some (s.answer t 500 ("ingest: " ++ e))
    | .registered p raw, none =>
      match s.registry.ingest api p raw with
      | none => some (s.answer t 500 "ingest: violates foreign key constraint")
      | some registry => some ({ s with registry := registry }.setStage t (.answered ⟨200, ""⟩))
    | _, _ => none

end RegisterState

end

end Waypoint.Proxy
