import Waypoint.Base.Run

/-!
# Applying an image

The agent answers `rpc.apply_image` at once and does the work in a goroutine: download the image and its signature bundle, compare the hash, verify the signature, wait, and hand the file to swupdate.
-/

namespace Waypoint.Agent

open Base

abbrev Bytes := List UInt8

/-! ### Files -/

/-- The two names a download may go to: `incoming.swu` and `incoming.swu.cosign`. -/
inductive Target
  | swu
  | cosign
  deriving DecidableEq

structure Files where
  swu : Option Bytes := none
  cosign : Option Bytes := none

namespace Files

def get (f : Files) : Target → Option Bytes
  | .swu => f.swu
  | .cosign => f.cosign

def set (f : Files) (file : Target) (bytes : Option Bytes) : Files :=
  match file with
  | .swu => { f with swu := bytes }
  | .cosign => { f with cosign := bytes }

/-- A write through a descriptor at its own offset: what lies before and after stays, a gap reads as zeros. -/
def overlay (old : Bytes) (offset : Nat) (chunk : Bytes) : Bytes :=
  old.take offset ++ List.replicate (offset - old.length) 0 ++ chunk ++ old.drop (offset + chunk.length)

/-- `os.Create`: an existing file is truncated in place. -/
def create (f : Files) (file : Target) : Files := f.set file (some [])

def writeAt (f : Files) (file : Target) (offset : Nat) (chunk : Bytes) : Files :=
  f.set file ((f.get file).map fun old => overlay old offset chunk)

end Files

/-! ### One request -/

structure ApplyImageRequest where
  url : String
  expectedSha256 : String := ""
  version : String := ""
  deriving DecidableEq

/-- A response body: the pieces it is read in, and the error that ends the copy early. -/
structure Body where
  chunks : List Bytes
  err : Option String := none
  deriving DecidableEq

inductive Response
  | failed (err : String)
  | reply (status : Nat) (body : Body)
  deriving DecidableEq

inductive Phase
  | mkdir
  | get (file : Target)
  | create (file : Target) (body : Body)
  | copy (file : Target) (offset : Nat) (body : Body)
  | hash
  | verify
  | sleep
  | swupdate
  | done
  | failed (reason : String)
  deriving DecidableEq

structure Process where
  req : ApplyImageRequest
  phase : Phase := .mkdir

inductive Answer
  | ok
  | err (e : String)
  | response (r : Response)
  deriving DecidableEq

inductive Slot
  | A
  | B

/-- The handler and what it consults: the signature verifier on the contents of the two files, the digest, the booted slot, the variant in `image.toml` and the quoting of `%q`. -/
structure Handler where
  skipEnabled : Bool
  verifier : Bytes → Bytes → Except String Unit
  sha256 : Bytes → String
  active : Except String Slot
  imageVariant : Except String String
  quote : String → String

structure Invocation where
  req : ApplyImageRequest
  selector : String
  image : Option Bytes
  deriving DecidableEq

structure Outcome where
  files : Files
  phase : Phase
  accepted : List (Bytes × Bytes) := []
  invoked : List Invocation := []

def Target.failure (file : Target) (err : String) : Phase :=
  .failed (match file with
    | .swu => "download: " ++ err
    | .cosign => "no cosign bundle at expected URL: " ++ err)

namespace Handler

variable (h : Handler)

def readVariant : Except String String := do
  let variant ← h.imageVariant
  if variant = "" then throw "image.toml: image.variant is empty"
  return variant

def swupdateSelector : Except String String := do
  let active ← h.active.mapError ("active partition: " ++ ·)
  let variant ← h.readVariant.mapError ("variant: " ++ ·)
  return variant ++ "," ++ match active with
    | .A => "copy-2"
    | .B => "copy-1"

/-- Development images ship no bundle, so none is fetched when verification is skipped. -/
def afterDownload : Target → Phase
  | .swu => if h.skipEnabled then .hash else .get .cosign
  | .cosign => .hash

def afterGet (file : Target) : Response → Phase
  | .failed err => file.failure err
  | .reply status body => if status = 200 then .create file body else file.failure ("status " ++ toString status)

variable (files : Files)

def copyStep (file : Target) (offset : Nat) : Body → Outcome
  | ⟨chunk :: chunks, err⟩ =>
    { files := files.writeAt file offset chunk, phase := .copy file (offset + chunk.length) ⟨chunks, err⟩ }
  | ⟨[], none⟩ => { files, phase := h.afterDownload file }
  | ⟨[], some err⟩ => { files, phase := file.failure err }

/-- The comparison with the requested digest; without one the file is not read. -/
def hashStep (req : ApplyImageRequest) : Answer → Option Outcome
  | .ok =>
    if req.expectedSha256 = "" then some { files, phase := .verify }
    else do
      let sum := h.sha256 (← files.swu)
      if sum ≠ req.expectedSha256 then
        return { files, phase := .failed ("sha mismatch: got " ++ sum ++ " want " ++ req.expectedSha256) }
      return { files, phase := .verify }
  | .err e => if req.expectedSha256 = "" then none else some { files, phase := .failed ("sha256: " ++ e) }
  | .response _ => none

def verifyStep : Answer → Option Outcome
  | .ok =>
    if h.skipEnabled then some { files, phase := .sleep }
    else do
      let blob ← files.swu
      let bundle ← files.cosign
      match h.verifier blob bundle with
      | .ok () => return { files, phase := .sleep, accepted := [(blob, bundle)] }
      | .error e => return { files, phase := .failed ("verify: " ++ e) }
  | .err e => if h.skipEnabled then none else some { files, phase := .failed ("verify: " ++ e) }
  | .response _ => none

def swupdateStep (req : ApplyImageRequest) (answer : Answer) : Option Outcome :=
  match h.swupdateSelector, answer with
  | .error e, .ok =>
    some { files, phase := .failed ("swupdate selector (intended version=" ++ h.quote req.version ++ "): " ++ e) }
  | .ok selector, .ok => some { files, phase := .done, invoked := [⟨req, selector, files.swu⟩] }
  | .ok selector, .err e =>
    some
      { files
        phase := .failed ("swupdate failed (selector=" ++ selector ++ ", intended version=" ++ h.quote req.version ++
          "): " ++ e)
        invoked := [⟨req, selector, files.swu⟩] }
  | _, _ => none

def advance (p : Process) (answer : Answer) : Option Outcome :=
  match p.phase, answer with
  | .mkdir, .ok => some { files, phase := .get .swu }
  | .mkdir, .err e => some { files, phase := .failed ("cache: " ++ e) }
  | .get file, .response r => some { files, phase := afterGet file r }
  | .create file body, .ok => some { files := files.create file, phase := .copy file 0 body }
  | .create file _, .err e => some { files, phase := file.failure e }
  | .copy file offset body, .ok => some (h.copyStep files file offset body)
  | .hash, answer => h.hashStep files p.req answer
  | .verify, answer => h.verifyStep files answer
  | .sleep, .ok => some { files, phase := .swupdate }
  | .swupdate, answer => h.swupdateStep files p.req answer
  | _, _ => none

end Handler

/-! ### The agent -/

structure ApplyImageResponse where
  status : String
  error : Option String := none

def errorResp (e : String) : ApplyImageResponse := { status := "error", error := some e }

/-- A message on the RPC subject: its reply subject and its decoded payload. -/
structure Msg where
  reply : String
  data : Except String ApplyImageRequest

/-- The files, all requests ever started, and what the outside has seen: replies, alerts, verdicts and calls of swupdate. -/
structure ApplyState where
  files : Files := {}
  processes : List Process := []
  replies : List (String × ApplyImageResponse) := []
  alerts : List (String × String) := []
  accepted : List (Bytes × Bytes) := []
  invocations : List Invocation := []

inductive ApplyAction
  | message (msg : Msg)
  | step (i : Nat) (answer : Answer)

/-- The `fail` closure: the reason goes to the alert hook with the request's URL. -/
def Phase.alerts (phase : Phase) (req : ApplyImageRequest) : List (String × String) :=
  match phase with
  | .failed reason => [(reason, req.url)]
  | _ => []

namespace ApplyState

def reply (s : ApplyState) (msg : Msg) (resp : ApplyImageResponse) : ApplyState :=
  if msg.reply = "" then s else { s with replies := s.replies ++ [(msg.reply, resp)] }

def onMessage (s : ApplyState) (msg : Msg) : ApplyState :=
  match msg.data with
  | .error e => s.reply msg (errorResp ("bad request: " ++ e))
  | .ok req =>
    if req.url = "" then s.reply msg (errorResp "missing url")
    else
      let s := s.reply msg { status := "accepted" }
      { s with processes := s.processes ++ [{ req }] }

def after (s : ApplyState) (i : Nat) (p : Process) (o : Outcome) : ApplyState :=
  { s with
    files := o.files
    processes := s.processes.set i { p with phase := o.phase }
    alerts := s.alerts ++ o.phase.alerts p.req
    accepted := s.accepted ++ o.accepted
    invocations := s.invocations ++ o.invoked }

end ApplyState

namespace Handler

variable (h : Handler)

def next (s : ApplyState) : ApplyAction → Option ApplyState
  | .message msg => some (s.onMessage msg)
  | .step i answer => do
      let p ← s.processes[i]?
      let o ← h.advance s.files p answer
      return s.after i p o

theorem next_cases {s t : ApplyState} {a : ApplyAction} (hnext : h.next s a = some t) :
    (∃ msg, a = .message msg ∧ t = s.onMessage msg) ∨
      ∃ i answer p o, a = .step i answer ∧ s.processes[i]? = some p ∧ h.advance s.files p answer = some o ∧
        t = s.after i p o := by
  cases a with
  | message msg => exact .inl ⟨msg, rfl, (Option.some.inj hnext).symm⟩
  | step i answer =>
    obtain ⟨p, hp, hnext⟩ := Option.bind_eq_some_iff.mp hnext
    obtain ⟨o, ho, hnext⟩ := Option.bind_eq_some_iff.mp hnext
    exact .inr ⟨i, answer, p, o, rfl, hp, ho, (Option.some.inj hnext).symm⟩

end Handler

theorem ApplyState.onMessage_cases (s : ApplyState) (msg : Msg) :
    ∃ replies fresh, (∀ p ∈ fresh, Process.phase p = .mkdir) ∧
      s.onMessage msg = { s with replies, processes := s.processes ++ fresh } := by
  unfold ApplyState.onMessage ApplyState.reply
  split
  · split
    · exact ⟨s.replies, [], by simp, by simp⟩
    · exact ⟨_, [], by simp, by rw [List.append_nil]⟩
  split
  · split
    · exact ⟨s.replies, [], by simp, by simp⟩
    · exact ⟨_, [], by simp, by rw [List.append_nil]⟩
  · split
    · exact ⟨s.replies, [_], by simp, rfl⟩
    · exact ⟨_, [_], by simp, rfl⟩

/-! ### What one step can do -/

def Process.overwrites (p : Process) : Bool :=
  match p.phase with
  | .create .swu _ => true
  | .copy .swu _ ⟨_ :: _, _⟩ => true
  | _ => false

def Phase.Free (phase : Phase) : Prop := phase ≠ .verify ∧ phase ≠ .sleep ∧ phase ≠ .swupdate

/-- Past its checks and not yet applied: the digest compared, if one was asked for, or the signature verified. -/
def Process.Checked (p : Process) : Prop :=
  p.phase = .verify ∧ p.req.expectedSha256 ≠ "" ∨ p.phase = .sleep ∨ p.phase = .swupdate

instance (p : Process) : Decidable p.Checked := inferInstanceAs (Decidable (_ ∨ _))

namespace Handler

variable {h : Handler} {files : Files} {req : ApplyImageRequest} {p : Process} {answer : Answer} {o : Outcome}

theorem hashStep_cases (ho : h.hashStep files req answer = some o) :
    (∃ reason, o = { files, phase := .failed reason }) ∨
      o = { files, phase := .verify } ∧
        (req.expectedSha256 ≠ "" → ∃ bytes, files.swu = some bytes ∧ h.sha256 bytes = req.expectedSha256) := by
  cases answer with
  | ok =>
    simp only [hashStep] at ho
    split at ho
    · rename_i hnone
      exact .inr ⟨(Option.some.inj ho).symm, fun hsome => absurd hnone hsome⟩
    obtain ⟨bytes, hbytes, ho⟩ := Option.bind_eq_some_iff.mp ho
    by_cases hsum : h.sha256 bytes = req.expectedSha256
    · simp only [hsum, ne_eq, not_true_eq_false, if_false] at ho
      exact .inr ⟨(Option.some.inj ho).symm, fun _ => ⟨bytes, hbytes, hsum⟩⟩
    · simp only [ne_eq, hsum, not_false_eq_true, if_true] at ho
      exact .inl ⟨_, (Option.some.inj ho).symm⟩
  | err e =>
    simp only [hashStep] at ho
    split at ho
    · cases ho
    · exact .inl ⟨_, (Option.some.inj ho).symm⟩
  | response r => cases ho

theorem verifyStep_cases (hverify : h.skipEnabled = false) (ho : h.verifyStep files answer = some o) :
    (∃ reason, o = { files, phase := .failed reason }) ∨
      ∃ blob bundle, files.swu = some blob ∧ h.verifier blob bundle = .ok () ∧
        o = { files, phase := .sleep, accepted := [(blob, bundle)] } := by
  cases answer with
  | ok =>
    simp only [verifyStep, hverify, Bool.false_eq_true, if_false] at ho
    obtain ⟨blob, hblob, ho⟩ := Option.bind_eq_some_iff.mp ho
    obtain ⟨bundle, -, ho⟩ := Option.bind_eq_some_iff.mp ho
    split at ho
    · rename_i hok
      exact .inr ⟨blob, bundle, hblob, hok, (Option.some.inj ho).symm⟩
    · exact .inl ⟨_, (Option.some.inj ho).symm⟩
  | err e =>
    simp only [verifyStep, hverify, Bool.false_eq_true, if_false] at ho
    exact .inl ⟨_, (Option.some.inj ho).symm⟩
  | response r => cases ho

theorem swupdateStep_cases (ho : h.swupdateStep files req answer = some o) :
    o.files = files ∧ (o.phase = .done ∨ ∃ reason, o.phase = .failed reason) ∧
      ∀ v ∈ o.invoked, v.req = req ∧ v.image = files.swu := by
  unfold swupdateStep at ho
  split at ho
  · cases ho
    exact ⟨rfl, .inr ⟨_, rfl⟩, by simp⟩
  · cases ho
    exact ⟨rfl, .inl rfl, by simp⟩
  · cases ho
    exact ⟨rfl, .inr ⟨_, rfl⟩, by simp⟩
  · cases ho

theorem free_failure (file : Target) (err : String) : (file.failure err).Free := by
  simp [Target.failure, Phase.Free]

theorem free_afterDownload (h : Handler) (file : Target) : (h.afterDownload file).Free := by
  unfold afterDownload
  repeat' split
  all_goals simp [Phase.Free]

theorem free_afterGet (file : Target) (r : Response) : (afterGet file r).Free := by
  unfold afterGet
  split
  · exact free_failure file _
  · split
    · simp [Phase.Free]
    · exact free_failure file _

theorem copyStep_cases (h : Handler) (files : Files) (file : Target) (offset : Nat) (body : Body) :
    (h.copyStep files file offset body).phase.Free ∧ (h.copyStep files file offset body).invoked = [] ∧
      ((h.copyStep files file offset body).files.swu = files.swu ∨ file = .swu ∧ body.chunks ≠ []) := by
  unfold copyStep
  split
  · refine ⟨by simp [Phase.Free], rfl, ?_⟩
    cases file with
    | swu => exact .inr ⟨rfl, List.cons_ne_nil _ _⟩
    | cosign => exact .inl rfl
  · exact ⟨free_afterDownload h file, rfl, .inl rfl⟩
  · exact ⟨free_failure file _, rfl, .inl rfl⟩

/-- A step before the checks may change the image; each later step moves on under what it has seen. -/
theorem advance_cases (hverify : h.skipEnabled = false) (ho : h.advance files p answer = some o) :
    (o.phase.Free ∧ o.invoked = [] ∧ (o.files.swu = files.swu ∨ p.overwrites = true ∧ answer = .ok)) ∨
      (o = { files, phase := .verify } ∧ (p.req.expectedSha256 ≠ "" →
        ∃ bytes, files.swu = some bytes ∧ h.sha256 bytes = p.req.expectedSha256)) ∨
      (p.phase = .verify ∧ ∃ blob bundle, files.swu = some blob ∧ h.verifier blob bundle = .ok () ∧
        o = { files, phase := .sleep, accepted := [(blob, bundle)] }) ∨
      (p.phase = .sleep ∧ o = { files, phase := .swupdate }) ∨
      (p.phase = .swupdate ∧ o.files = files ∧ o.phase.Free ∧ ∀ v ∈ o.invoked, v.req = p.req ∧ v.image = files.swu) := by
  unfold advance at ho
  split at ho
  · cases ho
    exact .inl ⟨by simp [Phase.Free], rfl, .inl rfl⟩
  · cases ho
    exact .inl ⟨by simp [Phase.Free], rfl, .inl rfl⟩
  · cases ho
    exact .inl ⟨free_afterGet _ _, rfl, .inl rfl⟩
  · rename_i file body hphase
    cases ho
    refine .inl ⟨by simp [Phase.Free], rfl, ?_⟩
    cases file with
    | swu => exact .inr ⟨by rw [Process.overwrites, hphase], rfl⟩
    | cosign => exact .inl rfl
  · cases ho
    exact .inl ⟨free_failure _ _, rfl, .inl rfl⟩
  · rename_i file offset body hphase
    cases ho
    obtain ⟨hfree, hinvoked, hswu⟩ := copyStep_cases h files file offset body
    refine .inl ⟨hfree, hinvoked, hswu.imp_right ?_⟩
    rintro ⟨rfl, hchunks⟩
    obtain ⟨_ | ⟨chunk, chunks⟩, err⟩ := body
    · exact absurd rfl hchunks
    · exact ⟨by rw [Process.overwrites, hphase], rfl⟩
  · obtain ⟨reason, rfl⟩ | hpassed := hashStep_cases ho
    · exact .inl ⟨by simp [Phase.Free], rfl, .inl rfl⟩
    · exact .inr (.inl hpassed)
  · rename_i hphase
    obtain ⟨reason, rfl⟩ | haccepted := verifyStep_cases hverify ho
    · exact .inl ⟨by simp [Phase.Free], rfl, .inl rfl⟩
    · exact .inr (.inr (.inl ⟨hphase, haccepted⟩))
  · rename_i hphase
    cases ho
    exact .inr (.inr (.inr (.inl ⟨hphase, rfl⟩)))
  · rename_i hphase
    obtain ⟨hfiles, hended, hinvoked⟩ := swupdateStep_cases ho
    refine .inr (.inr (.inr (.inr ⟨hphase, hfiles, ?_, hinvoked⟩)))
    obtain hdone | ⟨reason, hfailed⟩ := hended
    · simp [hdone, Phase.Free]
    · simp [hfailed, Phase.Free]
  · cases ho

end Handler

/-! ### Every run -/

/-- The image was accepted with a bundle, and has the digest asked for. -/
def Handler.Verified (h : Handler) (accepted : List (Bytes × Bytes)) (req : ApplyImageRequest) (image : Option Bytes) :
    Prop :=
  ∃ bytes bundle, image = some bytes ∧ (bytes, bundle) ∈ accepted ∧ h.verifier bytes bundle = .ok () ∧
    (req.expectedSha256 ≠ "" → h.sha256 bytes = req.expectedSha256)

theorem Handler.Verified.append {h : Handler} {accepted : List (Bytes × Bytes)} {req : ApplyImageRequest}
    {image : Option Bytes} (hverified : h.Verified accepted req image) (more : List (Bytes × Bytes)) :
    h.Verified (accepted ++ more) req image := by
  obtain ⟨bytes, bundle, himage, hmem, hrest⟩ := hverified
  exact ⟨bytes, bundle, himage, List.mem_append_left _ hmem, hrest⟩

/-- What the checks so far say of `incoming.swu`. -/
def Process.Holds (h : Handler) (files : Files) (accepted : List (Bytes × Bytes)) (p : Process) : Prop :=
  (p.phase = .verify → p.req.expectedSha256 ≠ "" →
    ∃ bytes, files.swu = some bytes ∧ h.sha256 bytes = p.req.expectedSha256) ∧
  (p.phase = .sleep ∨ p.phase = .swupdate → h.Verified accepted p.req files.swu)

namespace Process

variable {h : Handler} {files files' : Files} {accepted : List (Bytes × Bytes)} {p : Process}

theorem holds_of_free (hfree : p.phase.Free) : p.Holds h files accepted :=
  ⟨fun hphase => absurd hphase hfree.1, fun hphase => absurd hphase (not_or.mpr hfree.2)⟩

theorem Holds.frame (hholds : p.Holds h files accepted) (more : List (Bytes × Bytes))
    (hframe : files'.swu = files.swu ∨ ¬p.Checked) : p.Holds h files' (accepted ++ more) := by
  obtain hswu | hunchecked := hframe
  · exact ⟨hswu ▸ hholds.1, fun hphase => (hswu ▸ hholds.2 hphase).append more⟩
  · exact ⟨fun hphase hsome => absurd (.inl ⟨hphase, hsome⟩) hunchecked,
      fun hphase => absurd (.inr hphase) hunchecked⟩

end Process

/-- The invariant: every process can rely on what it has checked, and every call of swupdate was on a verified image. -/
structure ApplyState.Sound (h : Handler) (s : ApplyState) : Prop where
  holds : ∀ p ∈ s.processes, p.Holds h s.files s.accepted
  applied : ∀ v ∈ s.invocations, h.Verified s.accepted v.req v.image

/-- Nobody truncates or writes `incoming.swu` while a request is past its checks and not yet applied. -/
def ApplyState.Undisturbed (s : ApplyState) : ApplyAction → Prop
  | .message _ => True
  | .step i answer => ∀ p ∈ s.processes[i]?, p.overwrites = true → answer = .ok → ∀ q ∈ s.processes, ¬q.Checked

instance (s : ApplyState) (a : ApplyAction) : Decidable (s.Undisturbed a) :=
  match a with
  | .message _ => .isTrue trivial
  | .step i _ => inferInstanceAs (Decidable (∀ p ∈ s.processes[i]?, _))

namespace Handler

variable {h : Handler} {s : ApplyState}

theorem sound_onMessage (hsound : s.Sound h) (msg : Msg) : (s.onMessage msg).Sound h := by
  obtain ⟨replies, fresh, hfresh, hs⟩ := s.onMessage_cases msg
  rw [hs]
  refine ⟨fun p hp => ?_, hsound.applied⟩
  obtain hp | hp := List.mem_append.mp hp
  · exact hsound.holds p hp
  · exact Process.holds_of_free (by simp [hfresh p hp, Phase.Free])

variable {p : Process} {answer : Answer} {o : Outcome}

theorem holds_advance (hverify : h.skipEnabled = false) {files : Files} {accepted : List (Bytes × Bytes)}
    (hholds : p.Holds h files accepted) (ho : h.advance files p answer = some o) :
    Process.Holds h o.files (accepted ++ o.accepted) { p with phase := o.phase } := by
  obtain ⟨hfree, -⟩ | ⟨rfl, hsum⟩ | ⟨hphase, blob, bundle, hblob, hok, rfl⟩ | ⟨hphase, rfl⟩ | ⟨-, -, hfree, -⟩ :=
    advance_cases hverify ho
  · exact Process.holds_of_free hfree
  · exact ⟨fun _ => hsum, by simp⟩
  · refine ⟨by simp, fun _ => ⟨blob, bundle, hblob, by simp, hok, fun hsome => ?_⟩⟩
    obtain ⟨bytes, hbytes, hsum⟩ := hholds.1 hphase hsome
    obtain rfl := Option.some.inj (hblob.symm.trans hbytes)
    exact hsum
  · exact ⟨by simp, fun _ => (hholds.2 (.inl hphase)).append []⟩
  · exact Process.holds_of_free hfree

theorem sound_after (hverify : h.skipEnabled = false) (hsound : s.Sound h) {i : Nat}
    (hp : s.processes[i]? = some p) (ho : h.advance s.files p answer = some o)
    (hundisturbed : s.Undisturbed (.step i answer)) : (s.after i p o).Sound h := by
  have hmem := List.mem_of_getElem? hp
  have hframe : ∀ q ∈ s.processes, o.files.swu = s.files.swu ∨ ¬q.Checked := by
    intro q hq
    obtain ⟨-, -, hswu | ⟨hoverwrites, hok⟩⟩ | ⟨rfl, -⟩ | ⟨-, blob, bundle, -, -, rfl⟩ | ⟨-, rfl⟩ | ⟨-, hfiles, -⟩ :=
      advance_cases hverify ho
    · exact .inl hswu
    · exact .inr (hundisturbed p hp hoverwrites hok q hq)
    · exact .inl rfl
    · exact .inl rfl
    · exact .inl rfl
    · exact .inl (by rw [hfiles])
  refine ⟨fun q hq => ?_, fun v hv => ?_⟩
  · obtain hq | rfl := List.mem_or_eq_of_mem_set hq
    · exact (hsound.holds q hq).frame o.accepted (hframe q hq)
    · exact holds_advance hverify (hsound.holds p hmem) ho
  obtain hv | hv := List.mem_append.mp hv
  · exact (hsound.applied v hv).append o.accepted
  obtain ⟨-, hnone, -⟩ | ⟨rfl, -⟩ | ⟨-, blob, bundle, -, -, rfl⟩ | ⟨-, rfl⟩ | ⟨hphase, -, -, hinvoked⟩ :=
    advance_cases hverify ho
  · rw [hnone] at hv
    cases hv
  · cases hv
  · cases hv
  · cases hv
  · obtain ⟨hreq, himage⟩ := hinvoked v hv
    rw [hreq, himage]
    exact ((hsound.holds p hmem).2 (.inr hphase)).append o.accepted

theorem sound_next (hverify : h.skipEnabled = false) {a : ApplyAction} {t : ApplyState} (hsound : s.Sound h)
    (hstep : Guarded ApplyState.Undisturbed (Takes h.next) s a t) : t.Sound h := by
  obtain ⟨hundisturbed, hnext⟩ := hstep
  obtain ⟨msg, -, rfl⟩ | ⟨i, answer, p, o, rfl, hp, ho, rfl⟩ := h.next_cases hnext
  · exact sound_onMessage hsound msg
  · exact sound_after hverify hsound hp ho hundisturbed

/-- In every interleaving of any number of requests in which nobody touches `incoming.swu` between another request's checks and its swupdate, swupdate only ever sees images that were verified and have the digest asked for. -/
theorem only_verified_applied (h : Handler) (hverify : h.skipEnabled = false) {actions : List ApplyAction}
    {t : ApplyState} (hrun : Run (Guarded ApplyState.Undisturbed (Takes h.next)) {} actions t) :
    ∀ v ∈ t.invocations, h.Verified t.accepted v.req v.image :=
  (hrun.invariant (ApplyState.Sound h) (fun _ _ _ hsound hstep => sound_next hverify hsound hstep)
    ⟨by simp, by simp⟩).applied

def oneRelease : Handler where
  skipEnabled := false
  verifier blob bundle := if blob = [1, 1] ∧ bundle = [7] then .ok () else .error "sigstore verify"
  sha256 blob := toString blob.length
  active := .ok .A
  imageVariant := .ok "prod"
  quote := String.quote

def fetchImage (i : Nat) (chunks : List Bytes) : List ApplyAction :=
  [.step i .ok, .step i (.response (.reply 200 ⟨chunks, none⟩)), .step i .ok] ++ chunks.map fun _ => .step i .ok

def fetchBundleAndCheck (i : Nat) (bundle : Bytes) : List ApplyAction :=
  [.step i .ok, .step i (.response (.reply 200 ⟨[bundle], none⟩)), .step i .ok, .step i .ok, .step i .ok, .step i .ok,
    .step i .ok]

def release : ApplyImageRequest := { url := "release.swu", expectedSha256 := "2", version := "1.0" }

/-- Two requests are accepted, and the second one writes the file once the first is through. -/
def oneAfterTheOther : List ApplyAction :=
  .message ⟨"", .ok release⟩ :: .message ⟨"", .ok { url := "other.swu" }⟩ :: fetchImage 0 [[1], [1]] ++
    fetchBundleAndCheck 0 [7] ++ [.step 0 .ok, .step 0 .ok] ++ fetchImage 1 [[6], [6], [6]]

theorem only_verified_applied_release :
    ∃ t, Run (Guarded ApplyState.Undisturbed (Takes oneRelease.next)) {} oneAfterTheOther t ∧
      t.invocations = [⟨release, "prod,copy-2", some [1, 1]⟩] ∧
      ∀ v ∈ t.invocations, oneRelease.Verified t.accepted v.req v.image := by
  obtain ⟨t, hrun, hinvocations⟩ : ∃ t, Run (Guarded ApplyState.Undisturbed (Takes oneRelease.next)) {} oneAfterTheOther t ∧
      t.invocations = [⟨release, "prod,copy-2", some [1, 1]⟩] := ⟨_, run_guarded_iff.mpr rfl, by decide⟩
  exact ⟨t, hrun, hinvocations, only_verified_applied oneRelease rfl hrun⟩

/-- A second request truncates and refills the file during the first one's delay: swupdate gets bytes the verifier would not accept with any bundle. -/
theorem unverified_applied :
    ∃ t, Run (Takes oneRelease.next) {}
        (.message ⟨"", .ok release⟩ :: .message ⟨"", .ok { url := "other.swu" }⟩ :: fetchImage 0 [[1], [1]] ++
          fetchBundleAndCheck 0 [7] ++ fetchImage 1 [[6], [6], [6]] ++ [.step 0 .ok, .step 0 .ok]) t ∧
      t.invocations = [⟨release, "prod,copy-2", some [6, 6, 6]⟩] ∧
      (∀ bundle, oneRelease.verifier [6, 6, 6] bundle ≠ .ok ()) ∧
      ¬ ∀ v ∈ t.invocations, oneRelease.Verified t.accepted v.req v.image := by
  refine ⟨_, run_takes_iff.mpr rfl, by decide, by simp [oneRelease], fun h => ?_⟩
  obtain ⟨bytes, bundle, hbytes, -, hok, -⟩ := h ⟨release, "prod,copy-2", some [6, 6, 6]⟩ (by decide)
  obtain rfl := Option.some.inj hbytes
  simp [oneRelease] at hok

end Handler

end Waypoint.Agent
