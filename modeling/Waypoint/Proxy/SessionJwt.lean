import Waypoint.Base.Subject

/-!
# Session credentials

The proxy gives every dashboard session a bus credential whose permissions encode the rovers the user may reach and the role held on each, accumulated row by row.
-/

namespace Waypoint.Proxy

open Base

/-- `StringList.Add` of `github.com/nats-io/jwt/v2`, of which only this is assumed: no entry is lost, and what is added
is in the list afterwards unless it is empty. -/
class JwtList where
  addAll : List String → List String → List String
  mem_addAll {s : String} {list subjects : List String} :
    s ∈ addAll list subjects ↔ s ∈ list ∨ s ∈ subjects ∧ s ≠ ""

export JwtList (addAll mem_addAll)

/-- Subjects are appended, and one may stand in the list twice. -/
abbrev appending : JwtList where
  addAll list subjects := list ++ subjects.filter (· ≠ "")
  mem_addAll := by simp

variable {s : String}

structure Permissions where
  pub : Permission := {}
  sub : Permission := {}

def Permissions.allowPub [JwtList] (p : Permissions) (subjects : List String) : Permissions :=
  { p with pub.allow := addAll p.pub.allow subjects }

def Permissions.allowSub [JwtList] (p : Permissions) (subjects : List String) : Permissions :=
  { p with sub.allow := addAll p.sub.allow subjects }

structure SessionAccess where
  roverID : String
  role : String

def SessionAccess.base (a : SessionAccess) : String := "waypoint." ++ a.roverID

theorem SessionAccess.base_append_ne (a : SessionAccess) (tail : String) : a.base ++ tail ≠ "" := by
  simp [SessionAccess.base]

def grantAccess [JwtList] (p : Permissions) (a : SessionAccess) : Permissions :=
  let p := p.allowSub [a.base ++ ".>"]
  match a.role with
  | "control" =>
    ((p.allowPub [a.base ++ ".cmd.>"]).allowPub
      [a.base ++ ".rpc.set_mode", a.base ++ ".rpc.estop", a.base ++ ".rpc.recover"]).allowPub [a.base ++ ".module.>"]
  | "admin" =>
    (((((p.allowPub [a.base ++ ".cmd.>", a.base ++ ".rpc.>"]).allowPub [a.base ++ ".module.>"]).allowSub
      [a.base ++ ".rpc.>"]).allowPub ["_INBOX.>"]).allowSub ["_INBOX.>"])
  | _ => p

/-- The publish side without a grant would restrict nothing, so it is closed. -/
def closePub [JwtList] (p : Permissions) : Permissions :=
  if p.pub.allow.length = 0 then { p with pub.deny := addAll p.pub.deny [">"] } else p

structure UserClaims where
  name : String
  issuerAccount : String
  issuedAt : Int
  expires : Int
  permissions : Permissions

structure Operator where
  sessionAPK : String

/-- The claims `MintSessionUserJWT` encodes; times in seconds, the lifetime in nanoseconds. -/
def Operator.mintSessionUserJWT [JwtList] (o : Operator) (now : Int) (userID : String) (accesses : List SessionAccess)
    (ttl : Int) : UserClaims where
  name := "session:" ++ userID
  issuerAccount := o.sessionAPK
  issuedAt := now
  expires := now + ttl.tdiv 1000000000
  permissions := closePub (accesses.foldl grantAccess {})

def sessionJWTTTL : Int := 3600 * 1000000000

structure User where
  id : String
  isAdmin : Bool

structure Tables where
  rovers : Except String (List String)
  listForUser : String → Except String (List SessionAccess)

def Tables.sessionAccess (db : Tables) (u : User) : Except String (List SessionAccess) :=
  if u.isAdmin then do
    let rs ← db.rovers
    return rs.map fun id => ⟨id, "admin"⟩
  else db.listForUser u.id

def Operator.natsCred [JwtList] (o : Operator) (now : Int) (db : Tables) (u : User) : Except String UserClaims := do
  let sa ← db.sessionAccess u
  return o.mintSessionUserJWT now u.id sa sessionJWTTTL

namespace SessionAccess

def pubGrants (a : SessionAccess) : List String :=
  if a.role = "control" then
    [a.base ++ ".cmd.>", a.base ++ ".rpc.set_mode", a.base ++ ".rpc.estop", a.base ++ ".rpc.recover",
      a.base ++ ".module.>"]
  else if a.role = "admin" then [a.base ++ ".cmd.>", a.base ++ ".rpc.>", a.base ++ ".module.>", "_INBOX.>"]
  else []

def subGrants (a : SessionAccess) : List String :=
  (a.base ++ ".>") :: if a.role = "admin" then [a.base ++ ".rpc.>", "_INBOX.>"] else []

end SessionAccess

theorem grantAccess_deny [JwtList] (p : Permissions) (a : SessionAccess) :
    (grantAccess p a).pub.deny = p.pub.deny ∧ (grantAccess p a).sub.deny = p.sub.deny := by
  unfold grantAccess
  split <;> exact ⟨rfl, rfl⟩

variable {a : SessionAccess} {p : Permissions}

theorem mem_pub_grantAccess [JwtList] :
    s ∈ (grantAccess p a).pub.allow ↔ s ∈ p.pub.allow ∨ s ∈ a.pubGrants := by
  unfold grantAccess SessionAccess.pubGrants
  split
  · rename_i hrole
    simp only [Permissions.allowPub, Permissions.allowSub, mem_addAll, hrole, if_true]
    grind [SessionAccess.base_append_ne]
  · rename_i hrole
    simp only [Permissions.allowPub, Permissions.allowSub, mem_addAll, hrole, if_true]
    grind [SessionAccess.base_append_ne]
  · rename_i hcontrol hadmin
    simp only [Permissions.allowSub]
    grind

theorem mem_sub_grantAccess [JwtList] :
    s ∈ (grantAccess p a).sub.allow ↔ s ∈ p.sub.allow ∨ s ∈ a.subGrants := by
  unfold grantAccess SessionAccess.subGrants
  split
  · rename_i hrole
    simp only [Permissions.allowPub, Permissions.allowSub, mem_addAll, hrole]
    grind [SessionAccess.base_append_ne]
  · rename_i hrole
    simp only [Permissions.allowPub, Permissions.allowSub, mem_addAll, hrole, if_true]
    grind [SessionAccess.base_append_ne]
  · rename_i hcontrol hadmin
    simp only [Permissions.allowSub, mem_addAll]
    grind [SessionAccess.base_append_ne]

theorem mem_foldl_of_step {σ α β : Type} {step : σ → α → σ} (items : σ → List β) (added : α → List β)
    (hstep : ∀ p a b, b ∈ items (step p a) ↔ b ∈ items p ∨ b ∈ added a) (p : σ) (as : List α) (b : β) :
    b ∈ items (as.foldl step p) ↔ b ∈ items p ∨ ∃ a ∈ as, b ∈ added a := by
  induction as generalizing p with
  | nil => simp
  | cons a as ih =>
    rw [List.foldl_cons, ih, hstep]
    simp only [List.mem_cons, exists_eq_or_imp, or_assoc]

theorem mem_pub_foldl [JwtList] (accesses : List SessionAccess) (g : String) :
    g ∈ (accesses.foldl grantAccess {}).pub.allow ↔ ∃ a ∈ accesses, g ∈ a.pubGrants := by
  rw [mem_foldl_of_step (fun p : Permissions => p.pub.allow) SessionAccess.pubGrants
    fun p a s => mem_pub_grantAccess]
  simp

theorem mem_sub_foldl [JwtList] (accesses : List SessionAccess) (g : String) :
    g ∈ (accesses.foldl grantAccess {}).sub.allow ↔ ∃ a ∈ accesses, g ∈ a.subGrants := by
  rw [mem_foldl_of_step (fun p : Permissions => p.sub.allow) SessionAccess.subGrants
    fun p a s => mem_sub_grantAccess]
  simp

theorem deny_foldl [JwtList] (accesses : List SessionAccess) (hpub : p.pub.deny = [])
    (hsub : p.sub.deny = []) :
    (accesses.foldl grantAccess p).pub.deny = [] ∧ (accesses.foldl grantAccess p).sub.deny = [] := by
  induction accesses generalizing p with
  | nil => exact ⟨hpub, hsub⟩
  | cons a accesses ih =>
    exact ih ((grantAccess_deny p a).1.trans hpub) ((grantAccess_deny p a).2.trans hsub)

section Mint

variable (o : Operator) (now : Int) (userID : String) (accesses : List SessionAccess) (ttl : Int)

theorem permits_mintSessionUserJWT [JwtList] (s : String) :
    (o.mintSessionUserJWT now userID accesses ttl).permissions.pub.permits s = true ↔
      ∃ a ∈ accesses, ∃ g ∈ a.pubGrants, covers (tokens g) (tokens s) = true := by
  have hmem := mem_pub_foldl accesses
  have hdeny := (deny_foldl (p := {}) accesses rfl rfl).1
  change (closePub (accesses.foldl grantAccess {})).pub.permits s = true ↔ _
  generalize accesses.foldl grantAccess {} = p at hmem hdeny ⊢
  unfold closePub
  split
  · -- No row granted anything, and the added entry denies every subject.
    rename_i hempty
    have hnone : ∀ a ∈ accesses, ∀ g, g ∉ a.pubGrants := by
      intro a ha g hg
      have hg := (hmem g).mpr ⟨a, ha, hg⟩
      rw [List.length_eq_zero_iff.mp hempty] at hg
      cases hg
    refine ⟨fun h => ?_, fun ⟨a, ha, g, hg, _⟩ => absurd hg (hnone a ha g)⟩
    have hclosed : ">" ∈ addAll p.pub.deny [">"] := mem_addAll.mpr (.inr ⟨List.mem_singleton_self _, by decide⟩)
    have hdenies : Permission.denies { p.pub with deny := addAll p.pub.deny [">"] } s = true :=
      List.any_eq_true.mpr ⟨">", hclosed, covers_all _⟩
    simp [Permission.permits, hdenies] at h
  · rename_i hsome
    rw [Permission.permits_of_allowed (fun h => hsome (by rw [h]; rfl)) hdeny]
    simp only [hmem]
    grind

theorem receives_mintSessionUserJWT [JwtList] (s : String) :
    (o.mintSessionUserJWT now userID accesses ttl).permissions.sub.Receives s ↔
      accesses = [] ∨ ∃ a ∈ accesses, ∃ g ∈ a.subGrants, covers (tokens g) (tokens s) = true := by
  have hmem := mem_sub_foldl accesses
  have hdeny := (deny_foldl (p := {}) accesses rfl rfl).2
  have hsub : (closePub (accesses.foldl grantAccess {})).sub = (accesses.foldl grantAccess {}).sub := by
    unfold closePub
    split <;> rfl
  change (closePub (accesses.foldl grantAccess {})).sub.Receives s ↔ _
  rw [hsub, Permission.receives_iff hdeny]
  cases accesses with
  | nil => exact ⟨fun _ => .inl rfl, fun _ => rfl⟩
  | cons a accesses =>
    have hopen : ((a :: accesses).foldl grantAccess {}).sub.allow ≠ [] :=
      List.ne_nil_of_mem ((hmem (a.base ++ ".>")).mpr ⟨a, List.mem_cons_self, List.mem_cons_self⟩)
    rw [Permission.permits_of_allowed hopen hdeny]
    simp only [hmem, reduceCtorEq, false_or]
    grind

end Mint

theorem tokens_base_append (hid : SingleToken a.roverID) (leaf tail : String)
    (htail : "." ++ leaf = tail) : tokens (a.base ++ tail) = "waypoint" :: a.roverID :: tokens leaf := by
  rw [show a.base ++ tail = "waypoint" ++ "." ++ (a.roverID ++ "." ++ leaf) by
    simp [SessionAccess.base, ← htail, String.append_assoc], tokens_cons (by decide), tokens_cons hid]

/-- Some row reaches the subject: by its rover's own subtree or, for administrators, by the reply inboxes. -/
def MayReceive (accesses : List SessionAccess) (s : String) : Prop :=
  ∃ a ∈ accesses, Under ["waypoint", a.roverID] s ∨ a.role = "admin" ∧ Under ["_INBOX"] s

instance (accesses : List SessionAccess) (s : String) : Decidable (MayReceive accesses s) :=
  inferInstanceAs (Decidable (∃ a ∈ accesses, _))

theorem under_base_of_rpc {r : String} (h : Under ["waypoint", r, "rpc"] s) : Under ["waypoint", r] s := by
  refine covers_trans ?_ h
  by_cases hr : r = ">" <;> simp [covers, hr]

theorem mayReceive_of_subGrant {accesses : List SessionAccess} {g : String} (ha : a ∈ accesses)
    (hid : SingleToken a.roverID) (hg : g ∈ a.subGrants) (hcovers : covers (tokens g) (tokens s) = true) :
    MayReceive accesses s := by
  refine ⟨a, ha, ?_⟩
  unfold SessionAccess.subGrants at hg
  rw [List.mem_cons] at hg
  obtain rfl | hg := hg
  · rw [tokens_base_append hid ">" ".>" rfl] at hcovers
    exact .inl hcovers
  split at hg
  · rename_i hrole
    simp only [List.mem_cons, List.not_mem_nil, or_false] at hg
    obtain rfl | rfl := hg
    · rw [tokens_base_append hid "rpc.>" ".rpc.>" rfl] at hcovers
      exact .inl (under_base_of_rpc hcovers)
    · exact .inr ⟨hrole, hcovers⟩
  · cases hg

/-- The subscribe side is confined to what the rows reach exactly when there is a row. -/
theorem subscribe_confined_iff [JwtList] (o : Operator) (now : Int) (userID : String) (accesses : List SessionAccess) (ttl : Int)
    (hids : ∀ a ∈ accesses, SingleToken a.roverID) :
    (∀ s, (o.mintSessionUserJWT now userID accesses ttl).permissions.sub.Receives s → MayReceive accesses s) ↔
      accesses ≠ [] := by
  simp only [receives_mintSessionUserJWT]
  constructor
  · rintro h rfl
    obtain ⟨a, ha, -⟩ := h "waypoint" (.inl rfl)
    cases ha
  · rintro hrows s (rfl | ⟨a, ha, g, hg, hcovers⟩)
    · exact absurd rfl hrows
    · exact mayReceive_of_subGrant ha (hids a ha) hg hcovers

attribute [local instance] appending in
theorem subscribe_confined_iff_one_row :
    (∀ a ∈ [SessionAccess.mk "rover-01" "monitor"], SingleToken a.roverID) ∧
      ((∀ s, (Operator.mintSessionUserJWT ⟨"AWAYPOINT"⟩ 0 "operator" [⟨"rover-01", "monitor"⟩]
          sessionJWTTTL).permissions.sub.Receives s → MayReceive [⟨"rover-01", "monitor"⟩] s) ↔
        [SessionAccess.mk "rover-01" "monitor"] ≠ []) :=
  ⟨by decide, subscribe_confined_iff _ _ _ _ _ (by decide)⟩

attribute [local instance] appending in
/-- A user without administrator rights and without a row in the access table receives any rover's telemetry. -/
theorem subscribe_open_without_rows :
    let db : Tables := { rovers := .ok ["rover-01"], listForUser := fun _ => .ok [] }
    let claims := Operator.mintSessionUserJWT ⟨"AWAYPOINT"⟩ 0 "guest" [] sessionJWTTTL
    Operator.natsCred ⟨"AWAYPOINT"⟩ 0 db ⟨"guest", false⟩ = .ok claims ∧
      claims.permissions.sub.Receives "waypoint.rover-01.telemetry.pose" ∧
      ¬MayReceive [] "waypoint.rover-01.telemetry.pose" :=
  ⟨rfl, ⟨"waypoint.rover-01.telemetry.pose", by decide, by decide, by decide⟩, by decide⟩

/-- What the row's role lets its holder publish. -/
def SessionAccess.MayPublish (a : SessionAccess) (s : String) : Prop :=
  a.role = "control" ∧ (Under ["waypoint", a.roverID, "cmd"] s ∨
    (∃ call ∈ ["set_mode", "estop", "recover"], covers ["waypoint", a.roverID, "rpc", call] (tokens s) = true) ∨
    Under ["waypoint", a.roverID, "module"] s) ∨
  a.role = "admin" ∧ (Under ["waypoint", a.roverID, "cmd"] s ∨ Under ["waypoint", a.roverID, "rpc"] s ∨
    Under ["waypoint", a.roverID, "module"] s) ∨
  a.role = "admin" ∧ Under ["_INBOX"] s

theorem pubGrant_iff_mayPublish (hid : SingleToken a.roverID) (s : String) :
    (∃ g ∈ a.pubGrants, covers (tokens g) (tokens s) = true) ↔ a.MayPublish s := by
  have hcmd : tokens (a.base ++ ".cmd.>") = ["waypoint", a.roverID, "cmd", ">"] := tokens_base_append hid "cmd.>" ".cmd.>" rfl
  have hrpc : tokens (a.base ++ ".rpc.>") = ["waypoint", a.roverID, "rpc", ">"] := tokens_base_append hid "rpc.>" ".rpc.>" rfl
  have hmodule : tokens (a.base ++ ".module.>") = ["waypoint", a.roverID, "module", ">"] := tokens_base_append hid "module.>" ".module.>" rfl
  have hsetMode : tokens (a.base ++ ".rpc.set_mode") = ["waypoint", a.roverID, "rpc", "set_mode"] := tokens_base_append hid "rpc.set_mode" ".rpc.set_mode" rfl
  have hestop : tokens (a.base ++ ".rpc.estop") = ["waypoint", a.roverID, "rpc", "estop"] := tokens_base_append hid "rpc.estop" ".rpc.estop" rfl
  have hrecover : tokens (a.base ++ ".rpc.recover") = ["waypoint", a.roverID, "rpc", "recover"] := tokens_base_append hid "rpc.recover" ".rpc.recover" rfl
  unfold SessionAccess.pubGrants SessionAccess.MayPublish Under
  by_cases hcontrol : a.role = "control"
  · simp [hcontrol, hcmd, hmodule, hsetMode, hestop, hrecover, or_assoc]
  by_cases hadmin : a.role = "admin"
  · have hinbox : tokens "_INBOX.>" = ["_INBOX", ">"] := rfl
    simp [hadmin, hcmd, hrpc, hmodule, hinbox, or_assoc]
  · simp [hcontrol, hadmin]

/-- The publish side permits exactly what the rows' roles allow. -/
theorem publish_exact [JwtList] (o : Operator) (now : Int) (userID : String) (accesses : List SessionAccess) (ttl : Int)
    (hids : ∀ a ∈ accesses, SingleToken a.roverID) (s : String) :
    (o.mintSessionUserJWT now userID accesses ttl).permissions.pub.permits s = true ↔
      ∃ a ∈ accesses, a.MayPublish s := by
  rw [permits_mintSessionUserJWT]
  refine exists_congr fun a => and_congr_right fun ha => ?_
  exact pubGrant_iff_mayPublish (hids a ha) s

attribute [local instance] appending in
theorem publish_exact_two_rovers :
    (∀ a ∈ [SessionAccess.mk "rover-01" "control", ⟨"rover-02", "monitor"⟩], SingleToken a.roverID) ∧
      ∃ a ∈ [SessionAccess.mk "rover-01" "control", ⟨"rover-02", "monitor"⟩],
        a.MayPublish "waypoint.rover-01.rpc.estop" :=
  ⟨by decide, (publish_exact ⟨"AWAYPOINT"⟩ 0 "operator" _ sessionJWTTTL (by decide) _).mp (by decide)⟩

end Waypoint.Proxy
