import Waypoint.Proxy.Enroll

/-!
# Deleting rovers

A rover is deleted by overwriting its account at the hub with a revoked one and then removing its row.
-/

namespace Waypoint.Proxy

open Base

/-! ### Revoked accounts -/

/-- No permissions, and expired a minute before it was issued. -/
def mintRevokedAccountJWT [JwtList] (publicKey : String) (now : Int) (accountPubKey : String) : AccountClaims where
  subject := accountPubKey
  name := "rover:revoked"
  issuer := publicKey
  issuedAt := now
  expires := now - 60
  defaultPermissions := { pub := { deny := addAll [] [">"] }, sub := { deny := addAll [] [">"] } }

/-- The account may publish and hear nothing. -/
def AccountClaims.Revoked (c : AccountClaims) : Prop :=
  ">" ∈ c.defaultPermissions.pub.deny ∧ ">" ∈ c.defaultPermissions.sub.deny

theorem revoked_mintRevoked [JwtList] (publicKey : String) (now : Int) (accountPubKey : String) :
    (mintRevokedAccountJWT publicKey now accountPubKey).Revoked := by
  have hdeny : ">" ∈ addAll [] [">"] := mem_addAll.mpr (.inr ⟨List.mem_singleton_self _, by decide⟩)
  exact ⟨hdeny, hdeny⟩

theorem not_revoked_encode [JwtList] (publicKey : String) (now : Int) (roverID apk : String) (allowed : List String) :
    ¬(encodeAccountJWT publicKey now roverID apk allowed).Revoked := by
  intro h
  cases h.1

/-! ### The handler -/

inductive DeleteError
  | badRequest (text : String)
  | notFound
  | internal (text : String)

/-- The clock, and the outcomes of the services a delete request calls. Pushing a revoked account may fail before the hub has stored it, or after, when the account's connections are listed. -/
structure DeleteEnv where
  now : Int := 0
  lookup : Except String Unit := .ok ()
  mint : Except String Unit := .ok ()
  store : Except String Unit := .ok ()
  connz : Except String Unit := .ok ()
  delete : Except String Unit := .ok ()

def deleteFails {α : Type} (text : String) (outcome : Except String α) : ExceptT DeleteError (StateM Registry) α :=
  MonadExcept.ofExcept (outcome.mapError fun err => .internal (text ++ err))

def revokeAccount (env : DeleteEnv) (revoked : AccountClaims) : ExceptT DeleteError (StateM Registry) Unit := do
  deleteFails "revoke nats account: store revoked jwt: " env.store
  modify fun s => s.registerAccount revoked
  deleteFails "revoke nats account: list connections: " env.connz

def getRover (env : DeleteEnv) (id : String) : ExceptT DeleteError (StateM Registry) RoverRow := do
  deleteFails "" env.lookup
  let s ← get
  MonadExcept.ofExcept ((s.rovers.find? fun r => r.id = id).elim (.error .notFound) .ok)

def deleteRover [JwtList] (publicKey : String) (env : DeleteEnv) (id : String) : ExceptT DeleteError (StateM Registry) Unit := do
  if id = "" then throw (.badRequest "missing rover id")
  let rover ← getRover env id
  deleteFails "mint revoked jwt: " env.mint
  revokeAccount env (mintRevokedAccountJWT publicKey env.now rover.accountPubKey)
  deleteFails "" env.delete
  modify fun s => { s with rovers := s.rovers.filter fun r => r.id ≠ rover.id }

inductive AdminCall
  | enroll (env : EnrollEnv) (body : Option EnrollBody)
  | delete (env : DeleteEnv) (id : String)

def Registry.handle [JwtList] (o : Operator) (publicKey : String) (s : Registry) : AdminCall → Registry
  | .enroll env body => s.serve o publicKey (env, body)
  | .delete env id => ((deleteRover publicKey env id).run.run s).2

/-! ### In step with the table -/

def RoverRow.toImport (r : RoverRow) : Import :=
  ⟨"rover:" ++ r.id ++ ":subjects", "waypoint." ++ r.id ++ ".>", r.accountPubKey⟩

/-- The accounts of the hub that are not revoked are those of the rows, and the sessions account imports each row once. -/
structure Registry.InSync (o : Operator) (s : Registry) : Prop where
  accounts : ∀ key, key ≠ o.sessionAPK →
    ((∃ c, s.accounts key = some c ∧ ¬c.Revoked) ↔ key ∈ s.rovers.map (·.accountPubKey))
  imports : ∃ c, s.accounts o.sessionAPK = some c ∧ c.imports.Perm (s.rovers.map RoverRow.toImport)

/-- The rows have account keys, none of them the key of the sessions account. -/
def Registry.Keyed (o : Operator) (s : Registry) : Prop :=
  ∀ r ∈ s.rovers, r.accountPubKey ≠ "" ∧ r.accountPubKey ≠ o.sessionAPK

/-- A new account key is new: key pairs are generated at random. -/
def Fresh (o : Operator) (s : Registry) : AdminCall → Prop
  | .enroll env _ => ∀ key, env.accountKey = .ok key → key ≠ "" ∧ key ≠ o.sessionAPK ∧ s.accounts key = none
  | .delete _ _ => True

def EnrollEnv.Reaches (env : EnrollEnv) (body : Option EnrollBody) (b : EnrollBody) (key : String) : Prop :=
  (body.filter fun b => b.id ≠ "" ∧ b.name ≠ "") = some b ∧ env.accountKey = .ok key ∧ env.userJWT = .ok () ∧
    env.register = .ok ()

/-- No step after the registration fails. -/
def EnrollEnv.Completes (env : EnrollEnv) : Prop :=
  env.insert = .ok () ∧ env.list = .ok () ∧ env.mintSessions = .ok () ∧ env.registerSessions = .ok ()

/-- An enrollment that has registered its account goes through to the end, and no delete gets as far as the hub. -/
def Clean (s : Registry) : AdminCall → Prop
  | .enroll env body => ∀ b key, env.Reaches body b key → b.id ∉ s.rovers.map (·.id) ∧ env.Completes
  | .delete env id => ¬(id ≠ "" ∧ env.lookup = .ok () ∧ (s.rovers.find? fun r => r.id = id).isSome = true ∧
      env.mint = .ok () ∧ env.store = .ok ())

/-! ### What a request leaves behind -/

section Requests

variable {o : Operator} {publicKey : String} {s : Registry} {env : EnrollEnv} {body : Option EnrollBody} {b : EnrollBody}
  {key : String}

def enrolledRow [JwtList] (publicKey : String) (env : EnrollEnv) (b : EnrollBody) (key : String) : RoverRow :=
  ⟨b.id, b.name, key, encodeAccountJWT publicKey env.now b.id key ["waypoint." ++ b.id ++ ".>"]⟩

def Registry.withAccount [JwtList] (publicKey : String) (env : EnrollEnv) (b : EnrollBody) (key : String) (s : Registry) : Registry :=
  s.registerAccount (enrolledRow publicKey env b key).account

def Registry.withRow (row : RoverRow) (s : Registry) : Registry := { s with rovers := s.rovers ++ [row] }

def Registry.withImports [JwtList] (o : Operator) (publicKey : String) (now : Int) (s : Registry) : Registry :=
  s.registerAccount (mintSessionAccountJWT o publicKey now ["waypoint.>"] (s.rovers.filter (·.accountPubKey ≠ "")))

theorem serve_unreached [JwtList] (h : ∀ b key, ¬env.Reaches body b key) : s.serve o publicKey (env, body) = s := by
  unfold Registry.serve enroll
  dsimp only
  cases hbody : body.filter fun b => b.id ≠ "" ∧ b.name ≠ "" with
  | none => rfl
  | some b =>
    cases hkey : env.accountKey with
    | error err => rfl
    | ok key =>
      cases huser : env.userJWT with
      | error err => rfl
      | ok u =>
        cases hregister : env.register with
        | error err => rfl
        | ok u => exact absurd ⟨hbody, hkey, huser, hregister⟩ (h b key)

theorem serve_reached [JwtList] (h : env.Reaches body b key) :
    s.serve o publicKey (env, body) =
      ((create env (enrolledRow publicKey env b key) >>= fun _ => refreshSessionsAccount o publicKey env >>= fun _ =>
        pure b.id).run.run (s.withAccount publicKey env b key)).2 := by
  obtain ⟨hbody, hkey, huser, hregister⟩ := h
  unfold Registry.serve enroll
  dsimp only
  rw [hbody, hkey, huser, hregister]
  rfl

theorem run_create (env : EnrollEnv) (row : RoverRow) (s : Registry) :
    (∃ err, (create env row).run.run s = (.error err, s) ∧ ¬(env.insert = .ok () ∧ row.id ∉ s.rovers.map (·.id))) ∨
      (create env row).run.run s = (.ok (), s.withRow row) ∧ env.insert = .ok () ∧ row.id ∉ s.rovers.map (·.id) := by
  unfold create
  cases hinsert : env.insert with
  | error err => exact .inl ⟨_, rfl, fun hboth => (by cases hboth.1)⟩
  | ok u =>
    by_cases htaken : row.id ∈ s.rovers.map (·.id)
    · refine .inl ⟨.internal "ERROR: duplicate key value violates unique constraint \"rovers_pkey\" (SQLSTATE 23505)", ?_,
        fun hboth => hboth.2 htaken⟩
      change (ite _ _ _ : ExceptT EnrollError (StateM Registry) Unit).run.run s = _
      rw [if_pos htaken]
      rfl
    · refine .inr ⟨?_, rfl, htaken⟩
      change (ite _ _ _ : ExceptT EnrollError (StateM Registry) Unit).run.run s = _
      rw [if_neg htaken]
      rfl

theorem run_refresh [JwtList] (o : Operator) (publicKey : String) (env : EnrollEnv) (s : Registry) :
    (∃ err, (refreshSessionsAccount o publicKey env).run.run s = (.error err, s) ∧
        ¬(env.list = .ok () ∧ env.mintSessions = .ok () ∧ env.registerSessions = .ok ())) ∨
      (refreshSessionsAccount o publicKey env).run.run s = (.ok (), s.withImports o publicKey env.now) ∧
        env.list = .ok () ∧ env.mintSessions = .ok () ∧ env.registerSessions = .ok () := by
  unfold refreshSessionsAccount
  cases hlist : env.list with
  | error err => exact .inl ⟨_, rfl, fun hall => (by cases hall.1)⟩
  | ok u =>
    cases hmint : env.mintSessions with
    | error err => exact .inl ⟨_, rfl, fun hall => (by cases hall.2.1)⟩
    | ok u =>
      cases hregister : env.registerSessions with
      | error err => exact .inl ⟨_, rfl, fun hall => (by cases hall.2.2)⟩
      | ok u => exact .inr ⟨rfl, rfl, rfl, rfl⟩

theorem serve_cases [JwtList] (o : Operator) (publicKey : String) (s : Registry) (h : env.Reaches body b key) :
    (s.serve o publicKey (env, body) = s.withAccount publicKey env b key ∧
        ¬(env.insert = .ok () ∧ b.id ∉ s.rovers.map (·.id))) ∨
      (s.serve o publicKey (env, body) = (s.withAccount publicKey env b key).withRow (enrolledRow publicKey env b key) ∧
        ¬env.Completes) ∨
      (s.serve o publicKey (env, body) =
          ((s.withAccount publicKey env b key).withRow (enrolledRow publicKey env b key)).withImports o publicKey env.now ∧
        b.id ∉ s.rovers.map (·.id) ∧ env.Completes) := by
  rw [serve_reached h, ExceptT.run_bind, StateT.run_bind]
  rcases run_create env (enrolledRow publicKey env b key) (s.withAccount publicKey env b key) with
    ⟨err, hrun, hfails⟩ | ⟨hrun, hinsert, hfree⟩
  · rw [hrun]
    exact .inl ⟨rfl, hfails⟩
  rw [hrun]
  right
  change (((refreshSessionsAccount o publicKey env >>= fun _ => pure b.id).run.run _).2 = _ ∧ _) ∨
    ((refreshSessionsAccount o publicKey env >>= fun _ => pure b.id).run.run _).2 = _ ∧ _
  rw [ExceptT.run_bind, StateT.run_bind]
  rcases run_refresh o publicKey env
      ((s.withAccount publicKey env b key).withRow (enrolledRow publicKey env b key)) with ⟨err, hrun, hfails⟩ | ⟨hrun, hall⟩
  · rw [hrun]
    exact .inl ⟨rfl, fun hcompletes => hfails hcompletes.2⟩
  · rw [hrun]
    exact .inr ⟨rfl, hfree, hinsert, hall⟩

def DeleteEnv.Reaches (env : DeleteEnv) (id : String) (s : Registry) (rover : RoverRow) : Prop :=
  id ≠ "" ∧ env.lookup = .ok () ∧ (s.rovers.find? fun r => r.id = id) = some rover ∧ env.mint = .ok () ∧ env.store = .ok ()

variable {id : String}

theorem clean_delete_iff {env : DeleteEnv} :
    Clean s (.delete env id) ↔ ∀ rover, ¬env.Reaches id s rover := by
  constructor
  · rintro hclean rover ⟨hid, hlookup, hfind, hmint, hstore⟩
    exact hclean ⟨hid, hlookup, by rw [hfind]; rfl, hmint, hstore⟩
  · rintro hnever ⟨hid, hlookup, hsome, hmint, hstore⟩
    obtain ⟨rover, hfind⟩ := Option.isSome_iff_exists.mp hsome
    exact hnever rover ⟨hid, hlookup, hfind, hmint, hstore⟩

def Registry.withRevoked [JwtList] (publicKey : String) (now : Int) (rover : RoverRow) (s : Registry) : Registry :=
  s.registerAccount (mintRevokedAccountJWT publicKey now rover.accountPubKey)

def Registry.withoutRow (rover : RoverRow) (s : Registry) : Registry :=
  { s with rovers := s.rovers.filter fun r => r.id ≠ rover.id }

theorem run_getRover (env : DeleteEnv) (id : String) (s : Registry) :
    (∃ err, (getRover env id).run.run s = (.error err, s) ∧
        ∀ rover, ¬(env.lookup = .ok () ∧ (s.rovers.find? fun r => r.id = id) = some rover)) ∨
      ∃ rover, (getRover env id).run.run s = (.ok rover, s) ∧ env.lookup = .ok () ∧
        (s.rovers.find? fun r => r.id = id) = some rover := by
  unfold getRover
  cases hlookup : env.lookup with
  | error err => exact .inl ⟨_, rfl, fun rover hboth => (by cases hboth.1)⟩
  | ok u =>
    have hrun : ∀ found : Option RoverRow, (s.rovers.find? fun r => r.id = id) = found →
        ((do
          deleteFails "" (.ok u)
          let s ← get
          MonadExcept.ofExcept ((s.rovers.find? fun r => r.id = id).elim (.error .notFound) .ok) :
            ExceptT DeleteError (StateM Registry) RoverRow).run.run s) =
          ((MonadExcept.ofExcept (found.elim (.error .notFound) .ok) :
            ExceptT DeleteError (StateM Registry) RoverRow).run.run s) := by
      rintro found rfl
      rfl
    cases hfind : s.rovers.find? fun r => r.id = id with
    | none => exact .inl ⟨.notFound, hrun none hfind, fun rover hboth => (by cases hboth.2)⟩
    | some rover => exact .inr ⟨rover, hrun (some rover) hfind, rfl, rfl⟩

theorem delete_unreached [JwtList] {env : DeleteEnv} (h : ∀ rover, ¬env.Reaches id s rover) :
    s.handle o publicKey (.delete env id) = s := by
  unfold Registry.handle deleteRover
  dsimp only
  by_cases hid : id = ""
  · rw [if_pos hid]
    rfl
  rw [if_neg hid, ExceptT.run_bind, StateT.run_bind]
  rcases run_getRover env id s with ⟨err, hrun, -⟩ | ⟨rover, hrun, hlookup, hfind⟩
  · rw [hrun]
    rfl
  rw [hrun]
  cases hmint : env.mint with
  | error err => rfl
  | ok u =>
    cases hstore : env.store with
    | error err =>
      unfold revokeAccount
      rw [hstore]
      rfl
    | ok u => exact absurd ⟨hid, hlookup, hfind, hmint, hstore⟩ (h rover)

theorem delete_reached [JwtList] (o : Operator) (publicKey : String) {env : DeleteEnv} {rover : RoverRow} (h : env.Reaches id s rover) :
    s.handle o publicKey (.delete env id) = s.withRevoked publicKey env.now rover ∨
      s.handle o publicKey (.delete env id) = (s.withRevoked publicKey env.now rover).withoutRow rover := by
  obtain ⟨hid, hlookup, hfind, hmint, hstore⟩ := h
  unfold Registry.handle deleteRover
  dsimp only
  rw [if_neg hid, ExceptT.run_bind, StateT.run_bind]
  rcases run_getRover env id s with ⟨err, -, hnone⟩ | ⟨rover', hrun, -, hfind'⟩
  · exact absurd ⟨hlookup, hfind⟩ (hnone rover)
  cases hfind.symm.trans hfind'
  rw [hrun, hmint]
  unfold revokeAccount
  rw [hstore]
  cases env.connz with
  | error err => exact .inl rfl
  | ok u =>
    cases env.delete with
    | error err => exact .inl rfl
    | ok u => exact .inr rfl

end Requests

/-! ### Keeping in step -/

section Sync

variable {o : Operator} {publicKey : String} {s : Registry} {key : String} {env : EnrollEnv} {b : EnrollBody}

theorem Registry.InSync.row_of_account (hs : s.InSync o) (hkey : key ≠ o.sessionAPK)
    (hnone : s.accounts key = none) : key ∉ s.rovers.map (·.accountPubKey) := by
  intro hrow
  obtain ⟨c, hc, -⟩ := (hs.accounts key hkey).mpr hrow
  cases hnone.symm.trans hc

theorem not_inSync_withAccount [JwtList] (hs : s.InSync o)
    (hkey : key ≠ o.sessionAPK) (hnone : s.accounts key = none) : ¬(s.withAccount publicKey env b key).InSync o := by
  intro hafter
  have hregistered : (s.withAccount publicKey env b key).accounts key = some (enrolledRow publicKey env b key).account :=
    Function.update_self _ _ _
  exact hs.row_of_account hkey hnone
    ((hafter.accounts key hkey).mp ⟨_, hregistered, not_revoked_encode _ _ _ _ _⟩)

theorem not_inSync_of_length (hs : s.InSync o) {t : Registry} (hsessions : t.accounts o.sessionAPK = s.accounts o.sessionAPK)
    (hlength : t.rovers.length ≠ s.rovers.length) : ¬t.InSync o := by
  intro hafter
  obtain ⟨c, hc, hperm⟩ := hs.imports
  obtain ⟨c', hc', hperm'⟩ := hafter.imports
  rw [hsessions, hc] at hc'
  cases hc'
  have hlengths := hperm'.length_eq.symm.trans hperm.length_eq
  rw [List.length_map, List.length_map] at hlengths
  exact hlength hlengths

theorem not_inSync_withRow [JwtList] (hs : s.InSync o) (hkey : key ≠ o.sessionAPK) :
    ¬((s.withAccount publicKey env b key).withRow (enrolledRow publicKey env b key)).InSync o := by
  refine not_inSync_of_length hs (Function.update_of_ne hkey.symm _ _) ?_
  change (s.rovers ++ [_]).length ≠ s.rovers.length
  rw [List.length_append, List.length_singleton]
  omega

variable {now : Int} {rover : RoverRow} {call : AdminCall}

theorem not_inSync_withRevoked [JwtList] (hkeyed : s.Keyed o) (hrover : rover ∈ s.rovers) :
    ¬(s.withRevoked publicKey now rover).InSync o := by
  intro hafter
  obtain ⟨c, hc, hvalid⟩ := (hafter.accounts _ (hkeyed rover hrover).2).mpr (List.mem_map_of_mem hrover)
  have hrevoked : (s.withRevoked publicKey now rover).accounts rover.accountPubKey =
      some (mintRevokedAccountJWT publicKey now rover.accountPubKey) := Function.update_self _ _ _
  cases hrevoked.symm.trans hc
  exact hvalid (revoked_mintRevoked _ _ _)

theorem not_inSync_withoutRow [JwtList] (hs : s.InSync o) (hkeyed : s.Keyed o)
    (hrover : rover ∈ s.rovers) : ¬((s.withRevoked publicKey now rover).withoutRow rover).InSync o := by
  refine not_inSync_of_length hs (Function.update_of_ne (hkeyed rover hrover).2.symm _ _) ?_
  change (s.rovers.filter _).length ≠ s.rovers.length
  intro hlength
  have hkept := (List.filter_eq_self.mp (List.filter_sublist.eq_of_length hlength)) rover hrover
  exact of_decide_eq_true hkept rfl

theorem inSync_withImports [JwtList] (hs : s.InSync o) (hkeyed : s.Keyed o)
    (hne : key ≠ "") :
    (((s.withAccount publicKey env b key).withRow (enrolledRow publicKey env b key)).withImports o publicKey
      env.now).InSync o := by
  constructor
  · intro key' hkey'
    change (∃ c, Function.update (Function.update s.accounts key _) o.sessionAPK _ key' = some c ∧ ¬c.Revoked) ↔
      key' ∈ (s.rovers ++ [enrolledRow publicKey env b key]).map (·.accountPubKey)
    rw [Function.update_of_ne hkey', List.map_append, List.mem_append, ← hs.accounts key' hkey']
    by_cases hsame : key' = key
    · subst hsame
      rw [Function.update_self]
      exact iff_of_true ⟨_, rfl, not_revoked_encode _ _ _ _ _⟩ (.inr (List.mem_singleton_self _))
    rw [Function.update_of_ne hsame]
    constructor
    · exact .inl
    · rintro (h | h)
      · exact h
      · exact absurd (List.mem_singleton.mp h) hsame
  · refine ⟨_, Function.update_self _ _ _, ?_⟩
    change (((s.rovers ++ [enrolledRow publicKey env b key]).filter (·.accountPubKey ≠ "")).map RoverRow.toImport).Perm
      ((s.rovers ++ [enrolledRow publicKey env b key]).map RoverRow.toImport)
    rw [List.filter_eq_self.mpr]
    intro r hr
    rcases List.mem_append.mp hr with hr | hr
    · exact decide_eq_true (hkeyed r hr).1
    · rw [List.mem_singleton.mp hr]
      exact decide_eq_true hne

theorem keyed_handle [JwtList] (hkeyed : s.Keyed o) (hfresh : Fresh o s call) :
    (s.handle o publicKey call).Keyed o := by
  have hrow : ∀ {env : EnrollEnv} {b : EnrollBody} {key : String}, key ≠ "" → key ≠ o.sessionAPK →
      ((s.withAccount publicKey env b key).withRow (enrolledRow publicKey env b key)).Keyed o := by
    intro env b key hne hsessions
    exact List.forall_mem_append.mpr ⟨hkeyed, List.forall_mem_singleton.mpr ⟨hne, hsessions⟩⟩
  cases call with
  | enroll env body =>
    by_cases hreaches : ∃ b key, env.Reaches body b key
    · obtain ⟨b, key, hreaches⟩ := hreaches
      obtain ⟨hne, hsessions, -⟩ := hfresh key hreaches.2.1
      rw [Registry.handle]
      rcases serve_cases o publicKey s hreaches with ⟨h, -⟩ | ⟨h, -⟩ | ⟨h, -⟩
      · rw [h]
        exact hkeyed
      · rw [h]
        exact hrow hne hsessions
      · rw [h]
        exact hrow hne hsessions
    · rw [Registry.handle, serve_unreached fun b key h => hreaches ⟨b, key, h⟩]
      exact hkeyed
  | delete env id =>
    by_cases hreaches : ∃ rover, env.Reaches id s rover
    · obtain ⟨rover, hreaches⟩ := hreaches
      rcases delete_reached o publicKey hreaches with h | h
      · rw [h]
        exact hkeyed
      · rw [h]
        exact fun r hr => hkeyed r (List.mem_of_mem_filter hr)
    · rw [delete_unreached fun rover h => hreaches ⟨rover, h⟩]
      exact hkeyed

/-- A request keeps the three in step exactly if it is clean. -/
theorem inSync_handle_iff [JwtList] (hs : s.InSync o) (hkeyed : s.Keyed o) (hfresh : Fresh o s call) :
    Clean s call ↔ (s.handle o publicKey call).InSync o := by
  cases call with
  | enroll env body =>
    rw [Registry.handle]
    by_cases hreaches : ∃ b key, env.Reaches body b key
    · obtain ⟨b, key, hreaches⟩ := hreaches
      obtain ⟨hne, hsessions, hnone⟩ := hfresh key hreaches.2.1
      have hclean : Clean s (.enroll env body) ↔ b.id ∉ s.rovers.map (·.id) ∧ env.Completes := by
        constructor
        · exact fun h => h b key hreaches
        · intro h b' key' hreaches'
          cases hreaches.1.symm.trans hreaches'.1
          exact h
      rw [hclean]
      rcases serve_cases o publicKey s hreaches with ⟨h, hfails⟩ | ⟨h, hfails⟩ | ⟨h, hdone⟩
      · rw [h]
        exact iff_of_false (fun hall => hfails ⟨hall.2.1, hall.1⟩) (not_inSync_withAccount hs hsessions hnone)
      · rw [h]
        exact iff_of_false (fun hall => hfails hall.2) (not_inSync_withRow hs hsessions)
      · rw [h]
        exact iff_of_true hdone (inSync_withImports hs hkeyed hne)
    · rw [serve_unreached fun b key h => hreaches ⟨b, key, h⟩]
      exact iff_of_true (fun b key h => absurd ⟨b, key, h⟩ hreaches) hs
  | delete env id =>
    rw [clean_delete_iff]
    by_cases hreaches : ∃ rover, env.Reaches id s rover
    · obtain ⟨rover, hreaches⟩ := hreaches
      have hrover : rover ∈ s.rovers := List.mem_of_find?_eq_some hreaches.2.2.1
      refine iff_of_false (fun h => h rover hreaches) ?_
      rcases delete_reached o publicKey hreaches with h | h
      · rw [h]
        exact not_inSync_withRevoked hkeyed hrover
      · rw [h]
        exact not_inSync_withoutRow hs hkeyed hrover
    · rw [delete_unreached fun rover h => hreaches ⟨rover, h⟩]
      exact iff_of_true (fun rover h => hreaches ⟨rover, h⟩) hs

/-- From a state in step, a run of requests stays in step throughout exactly if every request of it is clean. -/
theorem registry_in_sync_iff [JwtList] (o : Operator) (publicKey : String) (s : Registry) (hs : s.InSync o) (hkeyed : s.Keyed o)
    (calls : List AdminCall) (hfresh : Along (Registry.handle o publicKey) (Fresh o) s calls) :
    (∀ before, before <+: calls → (before.foldl (Registry.handle o publicKey) s).InSync o) ↔
      Along (Registry.handle o publicKey) Clean s calls := by
  have hgood := along_iff_good_of (fun t => t.InSync o ∧ t.Keyed o) hfresh
    (fun t call hfresh ht => (inSync_handle_iff ht.1 ht.2 hfresh).trans
      ⟨fun h => ⟨h, keyed_handle ht.2 hfresh⟩, And.left⟩) ⟨hs, hkeyed⟩
  rw [hgood]
  constructor
  · intro h before hbefore
    refine ⟨h before hbefore, ?_⟩
    obtain ⟨after, rfl⟩ := hbefore
    exact (along_append.mp hfresh).1.invariant (Registry.Keyed o) (fun t call ht hcall => keyed_handle ht hcall) hkeyed
  · exact fun h before hbefore => (h before hbefore).1

end Sync

def Registry.started [JwtList] (o : Operator) (publicKey : String) : Registry :=
  ({} : Registry).registerAccount (mintSessionAccountJWT o publicKey 0 ["waypoint.>"] [])

theorem accounts_started [JwtList] {o : Operator} {key : String} (hkey : key ≠ o.sessionAPK) (publicKey : String) :
    (Registry.started o publicKey).accounts key = none :=
  Function.update_of_ne hkey _ _

theorem inSync_started [JwtList] (o : Operator) (publicKey : String) : (Registry.started o publicKey).InSync o := by
  constructor
  · intro key hkey
    rw [accounts_started hkey]
    exact iff_of_false (fun ⟨_, hc, _⟩ => by cases hc) List.not_mem_nil
  · exact ⟨_, Function.update_self _ _ _, .nil⟩

attribute [local instance] appending

theorem registry_in_sync_iff_enrolled :
    (Registry.handle ⟨"ASESSIONS"⟩ "OPERATOR" (.started ⟨"ASESSIONS"⟩ "OPERATOR")
      (.enroll { accountKey := .ok "A1" } (some ⟨"rover-1", "Rover"⟩))).InSync ⟨"ASESSIONS"⟩ := by
  refine (registry_in_sync_iff ⟨"ASESSIONS"⟩ "OPERATOR" (.started ⟨"ASESSIONS"⟩ "OPERATOR") (inSync_started _ _)
    (fun r hr => (List.not_mem_nil hr).elim) [.enroll { accountKey := .ok "A1" } (some ⟨"rover-1", "Rover"⟩)]
    ⟨?_, trivial⟩).mpr ⟨?_, trivial⟩ _ List.prefix_rfl
  · intro key hkey
    cases hkey
    have hnew : "A1" ≠ "ASESSIONS" := by decide
    exact ⟨by decide, hnew, accounts_started hnew _⟩
  · intro b key hreaches
    exact ⟨List.not_mem_nil, rfl, rfl, rfl, rfl⟩

/-- A rover that is enrolled and deleted without any failure is still imported by the sessions account. -/
theorem deleted_rover_still_imported :
    let s := [AdminCall.enroll { accountKey := .ok "A1" } (some ⟨"rover-1", "Rover"⟩), .delete {} "rover-1"].foldl
      (Registry.handle ⟨"ASESSIONS"⟩ "OPERATOR") (.started ⟨"ASESSIONS"⟩ "OPERATOR")
    s.rovers = [] ∧ (s.accounts "ASESSIONS").map (·.imports) =
        some [⟨"rover:rover-1:subjects", "waypoint.rover-1.>", "A1"⟩] ∧ ¬s.InSync ⟨"ASESSIONS"⟩ := by
  intro s
  have hrows : s.rovers = [] := by decide +kernel
  have himports : (s.accounts "ASESSIONS").map (·.imports) =
      some [⟨"rover:rover-1:subjects", "waypoint.rover-1.>", "A1"⟩] := by decide +kernel
  refine ⟨hrows, himports, fun hsync => ?_⟩
  obtain ⟨c, hc, hperm⟩ := hsync.imports
  rw [hc] at himports
  rw [hrows, show c.imports = _ from Option.some.inj himports] at hperm
  cases hperm.length_eq

end Waypoint.Proxy
