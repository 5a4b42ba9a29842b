import Waypoint.Agent.Host
import Waypoint.Agent.LocalAuth

/-!
# Credentials after a failed call

`ensureModuleCreds` adds the module's user to the builder, writes its password to disk and hands all users to the server.
-/

namespace Waypoint.Agent

open Base

/-- One call, with what drawing the password, writing the files and reloading the server come to. -/
structure CredsCall where
  id : String
  password : Except String String
  write : FileWrite := .done
  reload : Option String := none

def CredsCall.run (roverID : String) (a : ModuleAuth) (c : CredsCall) : Except String Unit × ModuleAuth :=
  ensureModuleCreds a roverID c.id c.password c.write c.reload

def ModuleAuth.after (roverID : String) (a : ModuleAuth) (calls : List CredsCall) : ModuleAuth :=
  calls.foldl (fun a c => (c.run roverID a).2) a

def installedUser (roverID id password : String) : User :=
  Builder.moduleUser password id roverID (subtreePermissions id)

/-- The builder has a user of the module, its name and password are on disk, and the server knows it. -/
def ModuleAuth.Complete (a : ModuleAuth) (id : String) : Prop :=
  ∃ b us, a.auth = some b ∧ a.server = some us ∧ ∃ u ∈ b.users, u.username = "module-" ++ id ∧
    a.credsOnDisk.lookup (a.credsPath id) = some (Credentials.env ⟨u.username, u.password⟩) ∧ u ∈ us

/-- The user is in the builder, and the files are written as far as that went. -/
def CredsCall.added (roverID : String) (a : ModuleAuth) (users : List User) (c : CredsCall) (p : String) : ModuleAuth :=
  { a with auth := some ⟨users ++ [installedUser roverID c.id p]⟩ }.writeRuntimeFiles c.id ⟨"module-" ++ c.id, p⟩ c.write

/-- What a call comes to where a builder with the given users and a server are wired. -/
inductive CredsCall.Outcome (roverID : String) (a : ModuleAuth) (users : List User) (c : CredsCall) : Bool → ModuleAuth → Prop
  | known (h : (Builder.mk users).hasUser c.id = true) : Outcome roverID a users c true a
  | undrawn (h : (Builder.mk users).hasUser c.id = false) {e : String} (hpassword : c.password = .error e) :
      Outcome roverID a users c false a
  | failed (h : (Builder.mk users).hasUser c.id = false) {p : String} (hpassword : c.password = .ok p)
      (hfail : c.write ≠ .done ∨ c.reload ≠ none) : Outcome roverID a users c false (c.added roverID a users p)
  | loaded (h : (Builder.mk users).hasUser c.id = false) {p : String} (hpassword : c.password = .ok p)
      (hwrite : c.write = .done) (hreload : c.reload = none) :
      Outcome roverID a users c true
        { c.added roverID a users p with server := some (users ++ [installedUser roverID c.id p]) }

variable {a : ModuleAuth} {users : List User} {id id' roverID : String} {u : User}

variable {us : List User} {p : String} {c : CredsCall}

theorem CredsCall.outcome (roverID : String) (hauth : a.auth = some ⟨users⟩)
    (hserver : a.server = some us) (c : CredsCall) :
    c.Outcome roverID a users (c.run roverID a).1.isOk (c.run roverID a).2 := by
  unfold CredsCall.run ensureModuleCreds
  rw [hauth]
  dsimp only
  by_cases hknown : (Builder.mk users).hasUser c.id = true
  · rw [if_pos hknown]
    exact .known hknown
  rw [if_neg hknown]
  have hfree : (Builder.mk users).hasUser c.id = false := by simpa using hknown
  unfold Builder.addModuleUser
  rw [if_neg hknown]
  cases hpassword : c.password with
  | error e => exact .undrawn hfree hpassword
  | ok p =>
    have hkept : (c.added roverID a users p).server = some us := (writeRuntimeFiles_frame ..).2.1.trans hserver
    have hfailed (hfail : c.write ≠ .done ∨ c.reload ≠ none) : c.Outcome roverID a users false (c.added roverID a users p) :=
      .failed hfree hpassword hfail
    have hloaded (hwrite : c.write = .done) (hreload : c.reload = none) : c.Outcome roverID a users true
        { c.added roverID a users p with server := some (users ++ [installedUser roverID c.id p]) } :=
      .loaded hfree hpassword hwrite hreload
    unfold CredsCall.added installedUser at hkept hfailed hloaded
    dsimp only
    generalize ModuleAuth.writeRuntimeFiles _ c.id _ c.write = written at hkept hfailed hloaded ⊢
    cases hwrite : c.write with
    | failed e left => exact hfailed (.inl (by simp [hwrite]))
    | done =>
      dsimp only
      rw [hkept]
      cases hreload : c.reload with
      | some e => exact hfailed (.inr (by simp [hreload]))
      | none => exact hloaded hwrite hreload

def CredsCall.Reloads (c : CredsCall) (a : ModuleAuth) : Prop :=
  (∃ b, a.auth = some b ∧ b.hasUser c.id = false) ∧ c.password.isOk = true ∧ c.write = .done ∧ c.reload = none

/-- Some call reloads the server. -/
def Reloaded (roverID : String) : ModuleAuth → List CredsCall → Prop
  | _, [] => False
  | a, c :: calls => c.Reloads a ∨ Reloaded roverID (c.run roverID a).2 calls

/-- The text that the call leaves at a path, if it writes there. Modules with different ids may have one path. -/
def CredsCall.leaves (c : CredsCall) (a : ModuleAuth) (path : String) : Option String :=
  match a.auth, c.password with
  | some b, .ok p =>
    if b.hasUser c.id = false ∧ a.credsPath c.id = path then c.write.text (Credentials.env ⟨"module-" ++ c.id, p⟩) else none
  | _, _ => none

/-- The texts that the calls leave at a path, in their order. -/
def leftAt (roverID path : String) : ModuleAuth → List CredsCall → List String
  | _, [] => []
  | a, c :: calls => (c.leaves a path).toList ++ leftAt roverID path (c.run roverID a).2 calls

/-- A builder and a server are wired, and the builder's one user of the module is the given one. -/
structure ModuleAuth.Knows (a : ModuleAuth) (id : String) (u : User) : Prop where
  builder : ∃ users, a.auth = some ⟨users⟩ ∧ u ∈ users ∧ ∀ v ∈ users, v.username = "module-" ++ id → v = u
  server : ∃ us, a.server = some us
  username : u.username = "module-" ++ id

theorem hasUser_iff :
    (Builder.mk users).hasUser id = true ↔ ∃ u ∈ users, u.username = "module-" ++ id := by
  simp [Builder.hasUser]

theorem username_ne (h : id ≠ id') : "module-" ++ id ≠ "module-" ++ id' :=
  fun heq => h ((String.append_right_inj "module-").mp heq)

theorem lookup_writeRuntimeFiles (a : ModuleAuth) (id : String) (creds : Credentials) (write : FileWrite) (path : String) :
    (a.writeRuntimeFiles id creds write).credsOnDisk.lookup path =
      (if a.credsPath id = path then write.text creds.env else none).or (a.credsOnDisk.lookup path) := by
  unfold ModuleAuth.writeRuntimeFiles
  cases htext : write.text creds.env with
  | none => simp
  | some text =>
    by_cases hpath : a.credsPath id = path
    · subst hpath
      simp
    · simp only [if_neg hpath, Option.none_or]
      exact lookup_mapSet_of_ne _ (Ne.symm hpath) text

theorem CredsCall.lookup_run (roverID : String) (hauth : a.auth = some ⟨users⟩) (hserver : a.server = some us)
    (c : CredsCall) (path : String) :
    (c.run roverID a).2.credsOnDisk.lookup path = (c.leaves a path).or (a.credsOnDisk.lookup path) ∧
      (c.run roverID a).2.runtimeDir = a.runtimeDir := by
  have hadded : ∀ p, (c.added roverID a users p).runtimeDir = a.runtimeDir := fun p => (writeRuntimeFiles_frame ..).2.2
  have hlookup : ∀ p, (Builder.mk users).hasUser c.id = false → c.password = .ok p →
      (c.added roverID a users p).credsOnDisk.lookup path = (c.leaves a path).or (a.credsOnDisk.lookup path) := by
    intro p hfree hpassword
    rw [CredsCall.added, lookup_writeRuntimeFiles, leaves, hauth, hpassword]
    simp only [hfree, true_and]
    rfl
  have houtcome := c.outcome roverID hauth hserver
  revert houtcome
  generalize (c.run roverID a).1.isOk = ok
  generalize (c.run roverID a).2 = a'
  intro houtcome
  cases houtcome with
  | known hknown => cases hpassword : c.password <;> simp [leaves, hauth, hknown, hpassword]
  | undrawn _ hpassword => simp [leaves, hpassword]
  | failed hfree hpassword _ => exact ⟨hlookup _ hfree hpassword, hadded _⟩
  | loaded hfree hpassword _ _ => exact ⟨hlookup _ hfree hpassword, hadded _⟩

theorem ModuleAuth.Knows.added
    (h : a.Knows id u) (hauth : a.auth = some ⟨users⟩) (hne : id ≠ id') {a' : ModuleAuth}
    (hauth' : a'.auth = some ⟨users ++ [installedUser roverID id' p]⟩) (hserver : ∃ us, a'.server = some us) :
    a'.Knows id u := by
  obtain ⟨users', heq, hmem, hunique⟩ := h.builder
  cases hauth.symm.trans heq
  refine ⟨⟨_, hauth', List.mem_append_left _ hmem, fun v hv hname => ?_⟩, hserver, h.username⟩
  rcases List.mem_append.mp hv with hv | hv
  · exact hunique v hv hname
  · rw [List.mem_singleton.mp hv] at hname
    exact absurd hname.symm (username_ne hne)

theorem ModuleAuth.Knows.step (h : a.Knows id u) (roverID : String) (c : CredsCall) :
    (c.run roverID a).2.Knows id u ∧
      ((∃ us, (c.run roverID a).2.server = some us ∧ u ∈ us) ↔ (∃ us, a.server = some us ∧ u ∈ us) ∨ c.Reloads a) := by
  obtain ⟨users, hauth, hmem, -⟩ := h.builder
  obtain ⟨us, hserver⟩ := h.server
  -- the module's own calls find its user
  have hother : (Builder.mk users).hasUser c.id = false → id ≠ c.id := by
    intro hfree heq
    rw [← heq, ← Bool.not_eq_true, hasUser_iff] at hfree
    exact hfree ⟨u, hmem, h.username⟩
  have hquiet : ∀ {s : Option (List User)}, s = a.server → ¬c.Reloads a →
      ((∃ us, s = some us ∧ u ∈ us) ↔ (∃ us, a.server = some us ∧ u ∈ us) ∨ c.Reloads a) := by
    rintro s rfl hnot
    exact (or_iff_left hnot).symm
  have hadded := fun p => writeRuntimeFiles_frame { a with auth := some ⟨users ++ [installedUser roverID c.id p]⟩ } c.id
    ⟨"module-" ++ c.id, p⟩ c.write
  have houtcome := c.outcome roverID hauth hserver
  revert houtcome
  generalize (c.run roverID a).1.isOk = ok
  generalize (c.run roverID a).2 = a'
  intro houtcome
  cases houtcome with
  | known hknown =>
    refine ⟨h, hquiet rfl ?_⟩
    rintro ⟨⟨b, hb, hfree⟩, -⟩
    cases hauth.symm.trans hb
    rw [hknown] at hfree
    cases hfree
  | undrawn _ hpassword =>
    refine ⟨h, hquiet rfl ?_⟩
    rintro ⟨-, hok, -⟩
    rw [hpassword] at hok
    cases hok
  | failed hfree hpassword hfail =>
    refine ⟨h.added hauth (hother hfree) (hadded _).1 ⟨us, (hadded _).2.1.trans hserver⟩, hquiet (hadded _).2.1 ?_⟩
    rintro ⟨-, -, hwrite, hreload⟩
    exact hfail.elim (fun hne => hne hwrite) fun hne => hne hreload
  | loaded hfree hpassword hwrite hreload =>
    refine ⟨h.added hauth (hother hfree) (hadded _).1 ⟨_, rfl⟩, ?_⟩
    refine iff_of_true ⟨_, rfl, List.mem_append_left _ hmem⟩ (.inr ⟨⟨_, hauth, hfree⟩, ?_, hwrite, hreload⟩)
    rw [hpassword]
    rfl

theorem ModuleAuth.Knows.run (roverID : String) (h : a.Knows id u) (calls : List CredsCall) (path : String) :
    (a.after roverID calls).Knows id u ∧ (a.after roverID calls).runtimeDir = a.runtimeDir ∧
      (a.after roverID calls).credsOnDisk.lookup path =
        (leftAt roverID path a calls).getLast?.or (a.credsOnDisk.lookup path) ∧
      ((∃ us, (a.after roverID calls).server = some us ∧ u ∈ us) ↔
        (∃ us, a.server = some us ∧ u ∈ us) ∨ Reloaded roverID a calls) := by
  induction calls generalizing a with
  | nil => exact ⟨h, rfl, rfl, (or_iff_left fun hnone => hnone).symm⟩
  | cons c calls ih =>
    obtain ⟨users, hauth, -⟩ := h.builder
    obtain ⟨us, hus⟩ := h.server
    obtain ⟨hlookup, hdir⟩ := c.lookup_run roverID hauth hus path
    obtain ⟨hknows, hserver⟩ := h.step roverID c
    obtain ⟨hknows', hdir', hdisk', hserver'⟩ := ih hknows
    refine ⟨hknows', hdir'.trans hdir, hdisk'.trans ?_, hserver'.trans ?_⟩
    · rw [hlookup, leftAt, List.getLast?_append]
      cases c.leaves a path <;> simp
    · rw [hserver, or_assoc]
      rfl

/-- The server runs, and the builder does not have the user. -/
def ModuleAuth.Lacks (a : ModuleAuth) (id : String) : Prop :=
  (∃ us, a.server = some us) ∧ ∃ users, a.auth = some ⟨users⟩ ∧ (Builder.mk users).hasUser id = false

structure CredsCall.Adds (c : CredsCall) (id password : String) : Prop where
  id : c.id = id
  password : c.password = .ok password

theorem hasUser_added (h : (Builder.mk users).hasUser id = false) (hne : id ≠ id')
    (roverID p : String) : (Builder.mk (users ++ [installedUser roverID id' p])).hasUser id = false := by
  rw [← Bool.not_eq_true, hasUser_iff] at h ⊢
  rintro ⟨v, hv, hname⟩
  rcases List.mem_append.mp hv with hv | hv
  · exact h ⟨v, hv, hname⟩
  · rw [List.mem_singleton.mp hv] at hname
    exact username_ne hne hname.symm

theorem ModuleAuth.Lacks.step (h : a.Lacks id) (roverID : String) (c : CredsCall) :
    (c.run roverID a).2.Lacks id ∨ ∃ p, c.Adds id p := by
  obtain ⟨⟨us, hserver⟩, users, hauth, hnone⟩ := h
  have houtcome := c.outcome roverID hauth hserver
  revert houtcome
  generalize (c.run roverID a).1.isOk = ok
  generalize (c.run roverID a).2 = a'
  intro houtcome
  by_cases hid : c.id = id
  · cases hpassword : c.password with
    | ok p => exact .inr ⟨p, hid, hpassword⟩
    | error e =>
      cases houtcome with
      | known _ | undrawn _ _ => exact .inl ⟨⟨us, hserver⟩, users, hauth, hnone⟩
      | failed _ hdrawn _ | loaded _ hdrawn _ _ =>
        rw [hpassword] at hdrawn
        cases hdrawn
  · refine .inl ?_
    have hadded := fun p => hasUser_added hnone (Ne.symm hid) roverID p
    have hframe := fun p => writeRuntimeFiles_frame { a with auth := some ⟨users ++ [installedUser roverID c.id p]⟩ } c.id
      ⟨"module-" ++ c.id, p⟩ c.write
    cases houtcome with
    | known _ | undrawn _ _ => exact ⟨⟨us, hserver⟩, users, hauth, hnone⟩
    | failed _ _ _ => exact ⟨⟨us, (hframe _).2.1.trans hserver⟩, _, (hframe _).1, hadded _⟩
    | loaded _ _ _ _ => exact ⟨⟨_, rfl⟩, _, (hframe _).1, hadded _⟩

theorem ModuleAuth.Lacks.added (h : a.Lacks id) (roverID : String)
    (hadds : c.Adds id p) :
    (c.run roverID a).2.Knows id (installedUser roverID id p) ∧
      ((∃ us, (c.run roverID a).2.server = some us ∧ installedUser roverID id p ∈ us) ↔
        (∃ us, a.server = some us ∧ installedUser roverID id p ∈ us) ∨ c.Reloads a) := by
  obtain ⟨⟨us, hserver⟩, users, hauth, hnone⟩ := h
  obtain ⟨rfl, hdrawn⟩ := hadds
  have hunique : ∀ v ∈ users ++ [installedUser roverID c.id p], v.username = "module-" ++ c.id →
      v = installedUser roverID c.id p := by
    intro v hv hname
    rcases List.mem_append.mp hv with hv | hv
    · rw [← Bool.not_eq_true, hasUser_iff] at hnone
      exact absurd ⟨v, hv, hname⟩ hnone
    · exact List.mem_singleton.mp hv
  have hknows : ∀ {a' : ModuleAuth}, a'.auth = some ⟨users ++ [installedUser roverID c.id p]⟩ → (∃ us, a'.server = some us) →
      a'.Knows c.id (installedUser roverID c.id p) := fun hauth' hserver' =>
    ⟨⟨_, hauth', List.mem_append_right _ List.mem_cons_self, hunique⟩, hserver', rfl⟩
  obtain ⟨hadded, hkept, -⟩ := writeRuntimeFiles_frame { a with auth := some ⟨users ++ [installedUser roverID c.id p]⟩ } c.id
    ⟨"module-" ++ c.id, p⟩ c.write
  have houtcome := c.outcome roverID hauth hserver
  revert houtcome
  generalize (c.run roverID a).1.isOk = ok
  generalize (c.run roverID a).2 = a'
  intro houtcome
  cases houtcome with
  | known hknown =>
    rw [hnone] at hknown
    cases hknown
  | undrawn _ hpassword =>
    rw [hdrawn] at hpassword
    cases hpassword
  | failed _ hpassword hfail =>
    cases hdrawn.symm.trans hpassword
    refine ⟨hknows hadded ⟨us, hkept.trans hserver⟩, ?_⟩
    rw [CredsCall.added, hkept]
    refine (or_iff_left ?_).symm
    rintro ⟨-, -, hwrite, hreload⟩
    exact hfail.elim (fun hne => hne hwrite) fun hne => hne hreload
  | loaded hfree hpassword hwrite hreload =>
    cases hdrawn.symm.trans hpassword
    refine ⟨hknows hadded ⟨_, rfl⟩, ?_⟩
    refine iff_of_true ⟨_, rfl, List.mem_append_right _ List.mem_cons_self⟩ (.inr ⟨⟨_, hauth, hfree⟩, ?_, hwrite, hreload⟩)
    rw [hpassword]
    rfl

theorem ModuleAuth.Knows.complete_iff (h : a.Knows id u) :
    a.Complete id ↔ a.credsOnDisk.lookup (a.credsPath id) = some (Credentials.env ⟨"module-" ++ id, u.password⟩) ∧
      ∃ us, a.server = some us ∧ u ∈ us := by
  obtain ⟨users, hauth, hmem, hunique⟩ := h.builder
  constructor
  · rintro ⟨b, us, hb, hserver, v, hv, hname, hdisk, hus⟩
    cases hauth.symm.trans hb
    cases hunique v hv hname
    exact ⟨hname ▸ hdisk, us, hserver, hus⟩
  · rintro ⟨hdisk, us, hserver, hus⟩
    exact ⟨_, us, hauth, hserver, u, hmem, h.username, h.username ▸ hdisk, hus⟩

end Waypoint.Agent
