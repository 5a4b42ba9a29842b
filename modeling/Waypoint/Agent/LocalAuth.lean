import Waypoint.Agent.Manifest
import Waypoint.Base.LexPath
import Waypoint.Base.Subject

/-!
# Users of the rover's bus

Every module gets a user of its own on the agent's embedded bus server. At boot its permissions come from the manifest; a module that is installed later gets its whole subtree.
-/

namespace Waypoint.Agent

open Base

structure ModulePermissions where
  publish : List String := []
  subscribe : List String := []

def ModulePermissions.append (p q : ModulePermissions) : ModulePermissions :=
  ⟨p.publish ++ q.publish, p.subscribe ++ q.subscribe⟩

def sandbox (name : String) : String := "waypoint.*.module." ++ name ++ "."

/-- The leaves of a class; a sensor has no commands. -/
def componentLeaves (name className : String) : ModulePermissions :=
  let base := sandbox name
  match className with
  | "arm" => ⟨[base ++ "arm.state"], [base ++ "arm.cmd"]⟩
  | "sensor" => ⟨[base ++ "sensor.state"], []⟩
  | "base" => ⟨[base ++ "base.state"], [base ++ "base.cmd"]⟩
  | _ => ⟨[base ++ className ++ ".state"], [base ++ className ++ ".cmd"]⟩

def requiresLeaves (name require : String) : ModulePermissions :=
  let base := sandbox name
  if require = "drive-control" then ⟨[base ++ "drive.cmd"], [base ++ "drive.telemetry", base ++ "mode"]⟩ else {}

def toLocalAuthPermissions (p : Permissions) : ModulePermissions := ⟨p.publish, p.subscribe⟩

def manifestAuthPermissions (m : Manifest) : ModulePermissions :=
  let p := toLocalAuthPermissions m.permissions
  let p := m.components.foldl (fun p c => p.append (componentLeaves m.name c.className)) p
  m.requires.foldl (fun p c => p.append (requiresLeaves m.name c)) p

def defaultUsername : String := "_default"

/-- `natsserver.User`; without permissions nothing is narrowed. -/
structure User where
  username : String
  password : String
  publish : Permission := {}
  subscribe : Permission := {}

structure Credentials where
  username : String
  password : String

/-- The users added so far, the default one first. Names are looked up in the list itself. -/
structure Builder where
  users : List User

def substituteRoverID (roverID pattern : String) : String :=
  String.ofList (pattern.toList.flatMap fun c => if c = '*' then roverID.toList else [c])

namespace Builder

def newBuilder : Builder := ⟨[{ username := defaultUsername, password := "" }]⟩

def hasUser (b : Builder) (moduleID : String) : Bool := b.users.any fun u => u.username = "module-" ++ moduleID

/-- Replies to the module's own requests come in under `_INBOX`. -/
def moduleUser (password moduleID roverID : String) (perms : ModulePermissions) : User :=
  { username := "module-" ++ moduleID, password
    publish := { allow := "_INBOX.>" :: perms.publish.map (substituteRoverID roverID) }
    subscribe := { allow := "_INBOX.>" :: perms.subscribe.map (substituteRoverID roverID) } }

/-- `AddModuleUser`, with the outcome of drawing a password. -/
def addModuleUser (b : Builder) (password : Except String String) (moduleID roverID : String) (perms : ModulePermissions) :
    Except String (Credentials × Builder) :=
  if b.hasUser moduleID then .error ("localauth: duplicate module id " ++ moduleID.quote)
  else
    match password with
    | .error e => .error ("localauth: generate password: " ++ e)
    | .ok password =>
      .ok (⟨"module-" ++ moduleID, password⟩, ⟨b.users ++ [moduleUser password moduleID roverID perms]⟩)

end Builder

/-- What writing a module's files comes to. A write that fails may have cut `creds.env` down to its first characters, or not
have come to it. -/
inductive FileWrite
  | done
  | failed (err : String) (left : Option Nat)

def FileWrite.text (body : String) : FileWrite → Option String
  | done => some body
  | failed _ left => left.map fun n => String.ofList (body.toList.take n)

def Credentials.env (creds : Credentials) : String :=
  "WAYPOINT_NATS_USER=" ++ creds.username ++ "\nWAYPOINT_NATS_PASSWORD=" ++ creds.password ++ "\n"

/-- What `ensureModuleCreds` works on: the builder if one is wired, the text of every `creds.env` by its path, and the users
the server last accepted if there is a server. -/
structure ModuleAuth where
  auth : Option Builder
  runtimeDir : String
  credsOnDisk : List (String × String) := []
  server : Option (List User) := none

variable (a : ModuleAuth) (id : String)

def ModuleAuth.credsPath : String := join (join a.runtimeDir id) "creds.env"

def ModuleAuth.writeRuntimeFiles (creds : Credentials) (write : FileWrite) : ModuleAuth :=
  match write.text creds.env with
  | some text => { a with credsOnDisk := (a.credsPath id, text) :: a.credsOnDisk.filter fun e => e.1 ≠ a.credsPath id }
  | none => a

def subtreePermissions : ModulePermissions :=
  ⟨["waypoint.*.module." ++ id ++ ".>"], ["waypoint.*.module." ++ id ++ ".>"]⟩

/-- `ensureModuleCreds`, with what drawing the password, writing the files and reloading the server come to. A user that
was added stays in the builder when a later step fails. -/
def ensureModuleCreds (roverID id : String) (password : Except String String) (write : FileWrite)
    (reload : Option String) : Except String Unit × ModuleAuth :=
  match a.auth with
  | none => (.ok (), a)
  | some b =>
    if b.hasUser id then (.ok (), a)
    else
      match b.addModuleUser password id roverID (subtreePermissions id) with
      | .error e => (.error ("modules: ensure creds " ++ id ++ ": " ++ e), a)
      | .ok (creds, b) =>
        let a := { a with auth := some b }.writeRuntimeFiles id creds write
        match write with
        | .failed e _ => (.error ("modules: ensure creds " ++ id ++ ": " ++ e), a)
        | .done =>
          match a.server, reload with
          | none, _ => (.ok (), a)
          | some _, some e => (.error ("modules: reload creds " ++ id ++ ": " ++ e), a)
          | some _, none => (.ok (), { a with server := some b.users })

theorem writeRuntimeFiles_frame (creds : Credentials) (write : FileWrite) :
    (a.writeRuntimeFiles id creds write).auth = a.auth ∧ (a.writeRuntimeFiles id creds write).server = a.server ∧
      (a.writeRuntimeFiles id creds write).runtimeDir = a.runtimeDir := by
  unfold ModuleAuth.writeRuntimeFiles
  split <;> exact ⟨rfl, rfl, rfl⟩

theorem substituteRoverID_append (roverID p q : String) :
    substituteRoverID roverID (p ++ q) = substituteRoverID roverID p ++ substituteRoverID roverID q := by
  simp [substituteRoverID]

theorem substituteRoverID_of_not_mem (roverID : String) {p : String} (h : '*' ∉ p.toList) :
    substituteRoverID roverID p = p := by
  have hchars : ∀ cs : List Char, '*' ∉ cs → (cs.flatMap fun c => if c = '*' then roverID.toList else [c]) = cs := by
    intro cs hcs
    induction cs with
    | nil => rfl
    | cons c cs ih =>
      rw [List.mem_cons, not_or] at hcs
      rw [List.flatMap_cons, if_neg (Ne.symm hcs.1), ih hcs.2]
      rfl
  rw [substituteRoverID, hchars _ h, String.ofList_toList]

variable {roverID name : String}

theorem tokens_substituteRoverID (hrover : SingleToken roverID)
    (hname : validModuleName name = true) (tail : String) :
    tokens (substituteRoverID roverID (sandbox name ++ tail)) =
      ["waypoint", roverID, "module", name] ++ tokens (substituteRoverID roverID tail) := by
  have hsubst : substituteRoverID roverID (sandbox name ++ tail) =
      "waypoint" ++ "." ++ (roverID ++ "." ++ ("module" ++ "." ++ (name ++ "." ++ substituteRoverID roverID tail))) := by
    have hsplit : sandbox name ++ tail = "waypoint." ++ ("*" ++ (".module." ++ (name ++ ("." ++ tail)))) := by
      have hstart : "waypoint.*.module." = "waypoint." ++ ("*" ++ ".module.") := rfl
      unfold sandbox
      rw [hstart]
      simp only [String.append_assoc]
    have hrover : substituteRoverID roverID "*" = roverID := by simp [substituteRoverID]
    have hliteral : ∀ p : String, '*' ∉ p.toList → substituteRoverID roverID p = p := fun p =>
      substituteRoverID_of_not_mem roverID
    simp only [hsplit, substituteRoverID_append, hrover, hliteral name (not_mem_of_wordRe hname (by decide)),
      hliteral "waypoint." (by decide), hliteral ".module." (by decide), hliteral "." (by decide)]
    have hmodule : ".module." = "." ++ ("module" ++ ".") := rfl
    have hwaypoint : "waypoint." = "waypoint" ++ "." := rfl
    rw [hmodule, hwaypoint]
    simp only [String.append_assoc]
  rw [hsubst, tokens_cons (by decide), tokens_cons hrover, tokens_cons (by decide),
    tokens_cons (not_mem_of_wordRe hname (by decide))]
  simp only [List.cons_append, List.nil_append]

/-- The module reaches its own subtree on its own rover, and its inbox. The rover's id stands for itself unless it is a wildcard. -/
structure User.Sandboxed (u : User) (roverID name : String) : Prop where
  under : ∀ s, u.publish.permits s = true ∨ u.subscribe.permits s = true ∨ u.subscribe.Receives s →
    Under ["waypoint", roverID, "module", name] s ∨ Under ["_INBOX"] s
  literal : roverID ≠ "*" → roverID ≠ ">" → ∀ s,
    u.publish.permits s = true ∨ u.subscribe.permits s = true ∨ u.subscribe.Receives s →
      ∃ t rest, tokens s = ["waypoint", roverID, "module", name] ++ t :: rest ∨ tokens s = ["_INBOX"] ++ t :: rest

/-- All patterns are in the module's sandbox. -/
def ModulePermissions.Own (name : String) (p : ModulePermissions) : Prop :=
  ∀ s ∈ p.publish ++ p.subscribe, ∃ tail, s = sandbox name ++ tail

theorem own_append {p q : ModulePermissions} (hp : p.Own name) (hq : q.Own name) : (p.append q).Own name := by
  intro s hs
  simp only [ModulePermissions.append, List.mem_append] at hs
  rcases hs with (hs | hs) | (hs | hs)
  · exact hp s (List.mem_append_left _ hs)
  · exact hq s (List.mem_append_left _ hs)
  · exact hp s (List.mem_append_right _ hs)
  · exact hq s (List.mem_append_right _ hs)

theorem own_componentLeaves (name className : String) : (componentLeaves name className).Own name := by
  unfold componentLeaves
  split
  all_goals
    intro s hs
    simp only [List.cons_append, List.nil_append, List.append_nil, List.mem_cons, List.not_mem_nil, or_false] at hs
  · obtain rfl | rfl := hs <;> exact ⟨_, rfl⟩
  · exact ⟨_, hs⟩
  · obtain rfl | rfl := hs <;> exact ⟨_, rfl⟩
  · obtain rfl | rfl := hs <;> exact ⟨_, String.append_assoc ..⟩

theorem own_requiresLeaves (name require : String) : (requiresLeaves name require).Own name := by
  unfold requiresLeaves
  dsimp only
  split
  · intro s hs
    simp only [List.cons_append, List.nil_append, List.mem_cons, List.not_mem_nil, or_false] at hs
    obtain rfl | rfl | rfl := hs <;> exact ⟨_, rfl⟩
  · intro s hs
    cases hs

variable {m : Manifest} {perms : ModulePermissions}

theorem own_toLocalAuthPermissions (hchecked : m.Checked) :
    (toLocalAuthPermissions m.permissions).Own m.name := by
  intro s hs
  have hsubject := hchecked.subjects s hs
  rw [subjectInOwnSandbox, Bool.and_eq_true] at hsubject
  exact hasPrefix_iff.mp hsubject.1

theorem own_manifestAuthPermissions (hchecked : m.Checked) : (manifestAuthPermissions m).Own m.name := by
  have hcomponents : (m.components.foldl (fun p c => p.append (componentLeaves m.name c.className))
      (toLocalAuthPermissions m.permissions)).Own m.name :=
    List.foldlRecOn _ _ (own_toLocalAuthPermissions hchecked) fun p hp c _ => own_append hp (own_componentLeaves _ _)
  exact List.foldlRecOn _ _ hcomponents fun p hp c _ => own_append hp (own_requiresLeaves _ _)

theorem own_subtreePermissions : (subtreePermissions id).Own id := by
  have hsubtree : "waypoint.*.module." ++ id ++ ".>" = sandbox id ++ ">" := by
    have hend : ".>" = "." ++ ">" := rfl
    unfold sandbox
    rw [hend]
    exact String.append_assoc.symm
  intro s hs
  simp only [subtreePermissions, List.cons_append, List.nil_append, List.mem_cons, List.not_mem_nil, or_false, or_self] at hs
  exact ⟨">", hs.trans hsubtree⟩

theorem under_of_permits (hrover : SingleToken roverID) (hname : validModuleName name = true)
    {patterns : List String} (hown : ∀ p ∈ patterns, ∃ tail, p = sandbox name ++ tail) {s : String}
    (hs : Permission.permits { allow := "_INBOX.>" :: patterns.map (substituteRoverID roverID) } s = true) :
    Under ["waypoint", roverID, "module", name] s ∨ Under ["_INBOX"] s := by
  obtain ⟨a, ha, hcovers⟩ := (Permission.permits_of_allowed (List.cons_ne_nil _ _) rfl s).mp hs
  rcases List.mem_cons.mp ha with rfl | ha
  · exact .inr hcovers
  obtain ⟨p, hp, rfl⟩ := List.mem_map.mp ha
  obtain ⟨tail, rfl⟩ := hown p hp
  rw [tokens_substituteRoverID hrover hname] at hcovers
  have htokens : tokens (substituteRoverID roverID tail) ≠ [] := fields_ne_nil _
  obtain ⟨t, rest, htail⟩ := List.exists_cons_of_ne_nil htokens
  rw [htail] at hcovers
  exact .inl (covers_trans (covers_append_rest _ t rest) hcovers)

theorem sandboxed_moduleUser (hrover : SingleToken roverID) (hname : validModuleName name = true)
    (hperms : perms.Own name) (password : String) :
    (Builder.moduleUser password name roverID perms).Sandboxed roverID name := by
  have hunder : ∀ s, (Builder.moduleUser password name roverID perms).publish.permits s = true ∨
      (Builder.moduleUser password name roverID perms).subscribe.permits s = true ∨
      (Builder.moduleUser password name roverID perms).subscribe.Receives s →
      Under ["waypoint", roverID, "module", name] s ∨ Under ["_INBOX"] s := by
    rintro s (hs | hs | hs)
    · exact under_of_permits hrover hname (fun p hp => hperms p (List.mem_append_left _ hp)) hs
    · exact under_of_permits hrover hname (fun p hp => hperms p (List.mem_append_right _ hp)) hs
    · rw [Permission.receives_iff rfl] at hs
      exact under_of_permits hrover hname (fun p hp => hperms p (List.mem_append_right _ hp)) hs
  refine ⟨hunder, fun hstar hrest s hs => ?_⟩
  have hname' : name ≠ "*" ∧ name ≠ ">" := by
    constructor <;> rintro rfl <;> exact absurd hname (by decide)
  rcases hunder s hs with hown | hinbox
  · rw [under_iff (by simp [hstar, hrest, hname'])] at hown
    obtain ⟨t, rest, htokens⟩ := hown
    exact ⟨t, rest, .inl htokens⟩
  · rw [under_iff (by simp)] at hinbox
    obtain ⟨t, rest, htokens⟩ := hinbox
    exact ⟨t, rest, .inr htokens⟩

theorem addModuleUser_eq_ok {b b' : Builder} {password : Except String String} {moduleID : String}
    {creds : Credentials}
    (h : b.addModuleUser password moduleID roverID perms = .ok (creds, b')) :
    b.hasUser moduleID = false ∧ creds.username = "module-" ++ moduleID ∧
      b'.users = b.users ++ [Builder.moduleUser creds.password moduleID roverID perms] := by
  unfold Builder.addModuleUser at h
  split at h
  · cases h
  rename_i hfree
  split at h
  · cases h
  · cases h
    exact ⟨by simpa using hfree, rfl, rfl⟩

theorem ensureModuleCreds_auth (roverID id : String) (password : Except String String)
    (write : FileWrite) (reload : Option String) :
    (ensureModuleCreds a roverID id password write reload).2.auth = a.auth ∨
      ∃ b b' password', a.auth = some b ∧ (ensureModuleCreds a roverID id password write reload).2.auth = some b' ∧
        b'.users = b.users ++ [Builder.moduleUser password' id roverID (subtreePermissions id)] := by
  unfold ensureModuleCreds
  split
  · exact .inl rfl
  rename_i b hauth
  split
  · exact .inl rfl
  split
  · exact .inl rfl
  rename_i creds b' hadd
  refine .inr ⟨b, b', creds.password, hauth, ?_, (addModuleUser_eq_ok hadd).2.2⟩
  have hframe := (writeRuntimeFiles_frame { a with auth := some b' } id creds write).1
  dsimp only
  split
  · exact hframe
  · split <;> exact hframe

/-- The users the agent makes for modules, at boot from a manifest and later from an id, are sandboxed. -/
theorem modules_sandboxed {roverID : String} (hrover : SingleToken roverID) :
    (∀ (data : Except String RawManifest) (m : Manifest) (b b' : Builder) (password : Except String String)
      (creds : Credentials), parseManifest data = .ok m →
      b.addModuleUser password m.name roverID (manifestAuthPermissions m) = .ok (creds, b') →
      ∃ u, b'.users = b.users ++ [u] ∧ u.username = creds.username ∧ u.Sandboxed roverID m.name) ∧
    ∀ (a : ModuleAuth) (id : String) (password : Except String String) (write : FileWrite) (reload : Option String),
      validModuleName id = true →
      (ensureModuleCreds a roverID id password write reload).2.auth = a.auth ∨
        ∃ b b' u, a.auth = some b ∧ (ensureModuleCreds a roverID id password write reload).2.auth = some b' ∧
          b'.users = b.users ++ [u] ∧ u.username = "module-" ++ id ∧ u.Sandboxed roverID id := by
  refine ⟨fun data m b b' password creds hparse hadd => ?_, fun a id password write reload hid => ?_⟩
  · have hchecked := checked_of_parseManifest hparse
    obtain ⟨-, hname, husers⟩ := addModuleUser_eq_ok hadd
    exact ⟨_, husers, hname.symm,
      sandboxed_moduleUser hrover hchecked.name (own_manifestAuthPermissions hchecked) creds.password⟩
  · rcases ensureModuleCreds_auth a roverID id password write reload with hsame | ⟨b, b', password', hb, hb', husers⟩
    · exact .inl hsame
    · exact .inr ⟨b, b', _, hb, hb', husers, rfl,
        sandboxed_moduleUser hrover hid (own_subtreePermissions id) password'⟩

def gripperManifest : RawManifest :=
  { name := "gripper", entrypoint := "/usr/bin/gripper", component := some { className := "arm" }
    requires := ["drive-control"], permissions := { publish := ["waypoint.*.module.gripper.log.>"] } }

theorem modules_sandboxed_gripper :
    SingleToken "rover-1" ∧ ∃ m creds b, parseManifest (.ok gripperManifest) = .ok m ∧
      Builder.newBuilder.addModuleUser (.ok "secret") m.name "rover-1" (manifestAuthPermissions m) = .ok (creds, b) ∧
      ∃ u ∈ b.users, u.username = "module-gripper" ∧ u.Sandboxed "rover-1" m.name := by
  have hrover : SingleToken "rover-1" := by decide
  refine ⟨hrover, _, _, _, rfl, rfl, ?_⟩
  obtain ⟨u, husers, hname, hsandboxed⟩ :=
    (modules_sandboxed hrover).1 (.ok gripperManifest) _ Builder.newBuilder _ (.ok "secret") _ rfl rfl
  exact ⟨u, husers ▸ List.mem_append_right _ List.mem_cons_self, hname, hsandboxed⟩

end Waypoint.Agent
