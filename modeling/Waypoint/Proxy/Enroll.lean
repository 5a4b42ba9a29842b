import Waypoint.Base.Effect
import Waypoint.Base.Overlap
import Waypoint.Base.Run
import Waypoint.Proxy.SessionJwt

/-!
# Enrolling rovers

An admin enrolls a rover under an id of the request's choosing, which goes as it is into the subjects of the rover's account, its export, the import into the sessions account and the grants of sessions.
-/

namespace Waypoint.Proxy

open Base

structure Export where
  name : String
  subject : String

structure Import where
  name : String
  subject : String
  account : String
  deriving DecidableEq

structure AccountClaims where
  subject : String
  name : String
  issuer : String
  issuedAt : Int
  expires : Int := 0
  defaultPermissions : Permissions := {}
  /-- replies allowed to a request that arrives -/
  respMaxMsgs : Option Nat := none
  exports : List Export := []
  imports : List Import := []

def roverNamespace (roverID : String) : String := "waypoint." ++ roverID ++ ".>"

/-- The claims of a rover's account; `apk` is the key of the account. -/
def encodeAccountJWT [JwtList] (publicKey : String) (now : Int) (roverID apk : String) (allowedSubjects : List String) :
    AccountClaims where
  subject := apk
  name := "rover:" ++ roverID
  issuer := publicKey
  issuedAt := now
  defaultPermissions :=
    (((({} : Permissions).allowPub allowedSubjects).allowSub allowedSubjects).allowPub ["_INBOX.>"]).allowSub ["_INBOX.>"]
  respMaxMsgs := some 1
  exports := [⟨"rover:" ++ roverID ++ ":subjects", "waypoint." ++ roverID ++ ".>"⟩]

structure RoverRow where
  id : String
  name : String
  accountPubKey : String
  account : AccountClaims

variable (o : Operator)

def mintSessionAccountJWT [JwtList] (publicKey : String) (now : Int) (allowedSubjects : List String)
    (rovers : List RoverRow) : AccountClaims where
  subject := o.sessionAPK
  name := "waypoint:sessions"
  issuer := publicKey
  issuedAt := now
  defaultPermissions := (({} : Permissions).allowPub allowedSubjects).allowSub allowedSubjects
  imports := rovers.map fun r => ⟨"rover:" ++ r.id ++ ":subjects", "waypoint." ++ r.id ++ ".>", r.accountPubKey⟩

structure EnrollBody where
  id : String
  name : String

inductive EnrollError
  | badRequest
  | internal (text : String)

/-- The rovers table, and the claims registered with the hub by account key. -/
structure Registry where
  rovers : List RoverRow := []
  accounts : String → Option AccountClaims := fun _ => none

def Registry.registerAccount (s : Registry) (claims : AccountClaims) : Registry :=
  { s with accounts := Function.update s.accounts claims.subject (some claims) }

/-- What one request meets: the clock, the new account's key, and the outcomes of the services the handler calls. -/
structure EnrollEnv where
  now : Int := 0
  accountKey : Except String String
  userJWT : Except String Unit := .ok ()
  register : Except String Unit := .ok ()
  insert : Except String Unit := .ok ()
  list : Except String Unit := .ok ()
  mintSessions : Except String Unit := .ok ()
  registerSessions : Except String Unit := .ok ()

def internalError {α : Type} (outcome : Except String α) : ExceptT EnrollError (StateM Registry) α :=
  MonadExcept.ofExcept (outcome.mapError .internal)

def create (env : EnrollEnv) (row : RoverRow) : ExceptT EnrollError (StateM Registry) Unit := do
  internalError env.insert
  let s ← get
  if row.id ∈ s.rovers.map (·.id) then
    throw (.internal "ERROR: duplicate key value violates unique constraint \"rovers_pkey\" (SQLSTATE 23505)")
  else modify fun s => { s with rovers := s.rovers ++ [row] }

def refreshSessionsAccount [JwtList] (publicKey : String) (env : EnrollEnv) :
    ExceptT EnrollError (StateM Registry) Unit := do
  internalError (env.list.mapError ("list rovers: " ++ ·))
  internalError (env.mintSessions.mapError ("mint sessions account: " ++ ·))
  internalError (env.registerSessions.mapError ("register sessions account: " ++ ·))
  modify fun s => s.registerAccount
    (mintSessionAccountJWT o publicKey env.now ["waypoint.>"] (s.rovers.filter (·.accountPubKey ≠ "")))

/-- `newEnrollHandler`, from the decoded body to the id it answers with. -/
def enroll [JwtList] (publicKey : String) (env : EnrollEnv) (body : Option EnrollBody) :
    ExceptT EnrollError (StateM Registry) String := do
  let body ← MonadExcept.ofExcept ((body.filter fun b => b.id ≠ "" ∧ b.name ≠ "").elim (.error .badRequest) .ok)
  let accountPK ← internalError env.accountKey
  let account := encodeAccountJWT publicKey env.now body.id accountPK ["waypoint." ++ body.id ++ ".>"]
  internalError env.userJWT
  internalError env.register
  modify fun s => s.registerAccount account
  create env ⟨body.id, body.name, accountPK, account⟩
  refreshSessionsAccount o publicKey env
  return body.id

def Registry.serve [JwtList] (publicKey : String) (s : Registry) (call : EnrollEnv × Option EnrollBody) : Registry :=
  ((enroll o publicKey call.1 call.2).run.run s).2

def Registry.after [JwtList] (publicKey : String) (calls : List (EnrollEnv × Option EnrollBody)) : Registry :=
  calls.foldl (Registry.serve o publicKey) {}

/-- The account's JWT is one that enrolling the rover makes. -/
def RoverRow.Minted [JwtList] (publicKey : String) (r : RoverRow) : Prop :=
  ∃ now, r.account = encodeAccountJWT publicKey now r.id r.accountPubKey [roverNamespace r.id]

def Registry.Minted [JwtList] (publicKey : String) (s : Registry) : Prop := ∀ r ∈ s.rovers, r.Minted publicKey

theorem keeps_internalError {r : Registry → Registry → Prop} [Std.Refl r] {α : Type} (outcome : Except String α) :
    Keeps r (internalError outcome).run := keeps_ofExcept _

theorem keeps_enroll [JwtList] (publicKey : String) (env : EnrollEnv) (body : Option EnrollBody) :
    Keeps (Retains (Registry.Minted publicKey)) (enroll o publicKey env body).run := by
  refine keeps_then (keeps_ofExcept _) fun body => ?_
  refine keeps_then (keeps_internalError _) fun accountPK => ?_
  refine keeps_then (keeps_internalError _) fun _ => ?_
  refine keeps_then (keeps_internalError _) fun _ => ?_
  refine keeps_then (keeps_modify fun s hs => hs) fun _ => ?_
  refine keeps_then ?_ fun _ => ?_
  · refine keeps_then (keeps_internalError _) fun _ => ?_
    refine keeps_then keeps_get fun s => ?_
    split
    · exact keeps_error _
    · refine keeps_modify fun s hs => ?_
      exact List.forall_mem_append.mpr ⟨hs, List.forall_mem_singleton.mpr ⟨env.now, rfl⟩⟩
  · refine keeps_then ?_ fun _ => keeps_ok _
    refine keeps_then (keeps_internalError _) fun _ => ?_
    refine keeps_then (keeps_internalError _) fun _ => ?_
    refine keeps_then (keeps_internalError _) fun _ => ?_
    exact keeps_modify fun s hs => hs

theorem minted_after [JwtList] (publicKey : String) (calls : List (EnrollEnv × Option EnrollBody)) :
    (Registry.after o publicKey calls).Minted publicKey := by
  have hrun := run_foldl (Registry.serve o publicKey) calls {}
  refine hrun.invariant (Registry.Minted publicKey) (fun s call t hs hstep => ?_) fun r hr => absurd hr List.not_mem_nil
  cases hstep
  exact keeps_enroll o publicKey call.1 call.2 s hs

/-- Every pattern minted for a rover: its account's permissions and export, and what a session of some role is granted. -/
def RoverRow.grants (r : RoverRow) (role : String) : List String :=
  r.account.defaultPermissions.pub.allow ++ r.account.defaultPermissions.sub.allow ++ r.account.exports.map (·.subject) ++
    (⟨r.id, role⟩ : SessionAccess).pubGrants ++ (⟨r.id, role⟩ : SessionAccess).subGrants

/-- No subject belongs to both rovers, and nothing minted for the first reaches a subject of the second. -/
structure RoverRow.Apart (r r' : RoverRow) : Prop where
  subjects : ∀ subject, ¬(Matches (roverNamespace r.id) subject ∧ Matches (roverNamespace r'.id) subject)
  grants : ∀ role, ∀ g ∈ r.grants role, ∀ subject, Matches (roverNamespace r'.id) subject → ¬Matches g subject

/-- One of the ids makes no pattern, or the ids have different tokens in some place where neither has a wildcard. -/
def Separate (a b : String) : Prop :=
  (∃ t ∈ tokens a, ¬Inner t) ∨ (∃ t ∈ tokens b, ¬Inner t) ∨ Clash (tokens a) (tokens b)

instance (a b : String) : Decidable (Separate a b) := inferInstanceAs (Decidable (_ ∨ _))

theorem tokens_under (roverID leaf : String) {tail : String} (htail : tail = "." ++ leaf) :
    tokens ("waypoint." ++ roverID ++ tail) = ("waypoint" :: tokens roverID) ++ tokens leaf := by
  have hsubject : "waypoint." ++ roverID ++ tail = "waypoint" ++ "." ++ (roverID ++ "." ++ leaf) := by
    rw [htail]
    simp only [String.append_assoc]
    rfl
  rw [hsubject, tokens_append, tokens_append]
  rfl

theorem tokens_roverNamespace (roverID : String) :
    tokens (roverNamespace roverID) = ("waypoint" :: tokens roverID) ++ [">"] := by
  have hleaf : tokens ">" = [">"] := by decide
  have htail : ".>" = "." ++ ">" := rfl
  rw [roverNamespace, tokens_under roverID ">" htail, hleaf]

theorem common_subject_iff (a b : String) :
    (∃ subject, Matches (roverNamespace a) subject ∧ Matches (roverNamespace b) subject) ↔ ¬Separate a b := by
  have hfirst : Inner "waypoint" := by decide
  rw [matches_common_iff (tokens_roverNamespace a) (tokens_roverNamespace b), List.forall_mem_cons,
    List.forall_mem_cons, clash_cons, Separate]
  simp only [hfirst, ne_eq, not_true_eq_false, false_and, false_or, true_and, not_or, not_exists, not_and, not_not]

variable {roverID g subject publicKey : String} {r : RoverRow}

theorem matches_namespace {leaf : String} (hg : tokens g = ("waypoint" :: tokens roverID) ++ tokens leaf)
    (h : Matches g subject) : Matches (roverNamespace roverID) subject := by
  obtain ⟨hwell, hliteral, hcovers⟩ := h
  cases hleaf : tokens leaf with
  | nil => exact absurd hleaf (fields_ne_nil leaf)
  | cons t rest =>
    rw [hg, hleaf] at hwell hcovers
    rw [Matches, tokens_roverNamespace]
    exact ⟨wellFormed_append_rest.mpr (inner_of_wellFormed hwell), hliteral,
      covers_trans (covers_append_rest _ t rest) hcovers⟩

theorem not_matches_inbox (h : Matches (roverNamespace roverID) subject) :
    ¬Matches "_INBOX.>" subject := by
  intro hinbox
  have htokens : tokens "_INBOX.>" = ["_INBOX"] ++ [">"] := by decide
  have hclash : Clash ["_INBOX"] ("waypoint" :: tokens roverID) := clash_cons.mpr (.inl (by decide))
  exact ((matches_common_iff htokens (tokens_roverNamespace roverID)).mp ⟨subject, hinbox, h⟩).2.2 hclash

theorem sessionGrant_cases {a : SessionAccess} (h : g ∈ a.pubGrants ++ a.subGrants) :
    g = "_INBOX.>" ∨ ∃ leaf, tokens g = ("waypoint" :: tokens a.roverID) ++ tokens leaf := by
  have hleaf : ∀ leaf tail : String, tail = "." ++ leaf → g = a.base ++ tail →
      g = "_INBOX.>" ∨ ∃ leaf, tokens g = ("waypoint" :: tokens a.roverID) ++ tokens leaf := by
    intro leaf tail htail hg
    exact .inr ⟨leaf, hg ▸ tokens_under a.roverID leaf htail⟩
  rcases List.mem_append.mp h with h | h
  · unfold SessionAccess.pubGrants at h
    split at h
    · simp only [List.mem_cons, List.not_mem_nil, or_false] at h
      rcases h with h | h | h | h | h
      · exact hleaf "cmd.>" _ rfl h
      · exact hleaf "rpc.set_mode" _ rfl h
      · exact hleaf "rpc.estop" _ rfl h
      · exact hleaf "rpc.recover" _ rfl h
      · exact hleaf "module.>" _ rfl h
    · split at h
      · simp only [List.mem_cons, List.not_mem_nil, or_false] at h
        rcases h with h | h | h | h
        · exact hleaf "cmd.>" _ rfl h
        · exact hleaf "rpc.>" _ rfl h
        · exact hleaf "module.>" _ rfl h
        · exact .inl h
      · cases h
  · rcases List.mem_cons.mp h with h | h
    · exact hleaf ">" _ rfl h
    split at h
    · simp only [List.mem_cons, List.not_mem_nil, or_false] at h
      rcases h with h | h
      · exact hleaf "rpc.>" _ rfl h
      · exact .inl h
    · cases h

theorem grant_cases [JwtList] (hr : r.Minted publicKey) {role : String}
    (h : g ∈ r.grants role) :
    g = "_INBOX.>" ∨ ∃ leaf, tokens g = ("waypoint" :: tokens r.id) ++ tokens leaf := by
  obtain ⟨now, haccount⟩ := hr
  have hns : ∃ leaf, tokens (roverNamespace r.id) = ("waypoint" :: tokens r.id) ++ tokens leaf :=
    ⟨">", tokens_under r.id ">" rfl⟩
  rw [RoverRow.grants, haccount, List.append_assoc] at h
  rcases List.mem_append.mp h with h | h
  · have hcases : g = roverNamespace r.id ∨ g = "_INBOX.>" := by
      simp only [encodeAccountJWT, Permissions.allowPub, Permissions.allowSub, List.mem_append, mem_addAll,
        List.mem_singleton, List.not_mem_nil, List.map_cons, List.map_nil, false_or] at h
      rcases h with ((⟨h, -⟩ | ⟨h, -⟩) | ⟨h, -⟩ | ⟨h, -⟩) | h
      · exact .inl h
      · exact .inr h
      · exact .inl h
      · exact .inr h
      · exact .inl h
    rcases hcases with rfl | rfl
    · exact .inr hns
    · exact .inl rfl
  · exact sessionGrant_cases (a := ⟨r.id, role⟩) h

theorem apart_iff [JwtList] {r' : RoverRow} (hr : r.Minted publicKey) :
    r.Apart r' ↔ Separate r.id r'.id := by
  constructor
  · intro h
    by_contra hmeet
    obtain ⟨subject, hboth⟩ := (common_subject_iff r.id r'.id).mpr hmeet
    exact h.subjects subject hboth
  · intro h
    have hsubjects : ∀ subject, ¬(Matches (roverNamespace r.id) subject ∧ Matches (roverNamespace r'.id) subject) :=
      fun subject hboth => (common_subject_iff r.id r'.id).mp ⟨subject, hboth⟩ h
    refine ⟨hsubjects, fun role g hg subject hother hmatch => ?_⟩
    rcases grant_cases hr hg with rfl | ⟨leaf, hleaf⟩
    · exact not_matches_inbox hother hmatch
    · exact hsubjects subject ⟨matches_namespace hleaf hmatch, hother⟩

/-- After any requests, the rovers of the table are kept apart exactly where their ids separate them. -/
theorem rovers_apart_iff [JwtList] (o : Operator) (publicKey : String) (calls : List (EnrollEnv × Option EnrollBody)) :
    ∀ r ∈ (Registry.after o publicKey calls).rovers, ∀ r' ∈ (Registry.after o publicKey calls).rovers,
      r.Apart r' ↔ Separate r.id r'.id :=
  fun r hr _ _ => apart_iff (minted_after o publicKey calls r hr)

def requests (ids : List (String × String)) : List (EnrollEnv × Option EnrollBody) :=
  ids.map fun p => ({ accountKey := .ok p.2 }, some ⟨p.1, "Rover"⟩)

attribute [local instance] appending

theorem rovers_apart_iff_numbered :
    ∃ r ∈ (Registry.after ⟨"ASESSIONS"⟩ "OPERATOR" (requests [("rover-1", "A1"), ("rover-2", "A2")])).rovers,
      ∃ r' ∈ (Registry.after ⟨"ASESSIONS"⟩ "OPERATOR" (requests [("rover-1", "A1"), ("rover-2", "A2")])).rovers,
        r.id = "rover-1" ∧ r'.id = "rover-2" ∧ r.Apart r' := by
  have hrows : ∃ r ∈ (Registry.after ⟨"ASESSIONS"⟩ "OPERATOR" (requests [("rover-1", "A1"), ("rover-2", "A2")])).rovers,
      ∃ r' ∈ (Registry.after ⟨"ASESSIONS"⟩ "OPERATOR" (requests [("rover-1", "A1"), ("rover-2", "A2")])).rovers,
        r.id = "rover-1" ∧ r'.id = "rover-2" := by
    decide +kernel
  obtain ⟨r, hr, r', hr', hid, hid'⟩ := hrows
  refine ⟨r, hr, r', hr', hid, hid', ?_⟩
  rw [rovers_apart_iff _ _ _ r hr r' hr', hid, hid']
  decide +kernel

/-- A rover enrolled under a wildcard may publish another rover's commands. -/
theorem wildcard_rover_reaches_others :
    ∃ r ∈ (Registry.after ⟨"ASESSIONS"⟩ "OPERATOR" (requests [("rover-1", "A1"), ("*", "A2")])).rovers,
      ∃ r' ∈ (Registry.after ⟨"ASESSIONS"⟩ "OPERATOR" (requests [("rover-1", "A1"), ("*", "A2")])).rovers,
        r.id = "*" ∧ r'.id = "rover-1" ∧ Matches (roverNamespace r'.id) "waypoint.rover-1.cmd.drive" ∧
          ∃ g ∈ r.account.defaultPermissions.pub.allow, Matches g "waypoint.rover-1.cmd.drive" := by
  decide +kernel

end Waypoint.Proxy
