import Waypoint.Alerts.Events
import Waypoint.Base.Run

/-!
# The proxy's alert mirror

`db/alerts_repo.go` and `alerts/mirror.go` of the proxy.
-/

namespace Waypoint.Proxy

open Base Alerts

abbrev Uuid := List UInt8

/-- `uuid.Parse` of `github.com/google/uuid`: the bytes of a UUID, none for a text that is not one. -/
class UuidParser where
  parse : String → Option Uuid

def operatorID : Uuid := [155, 47, 28, 62, 93, 74, 78, 123, 138, 111, 1, 35, 69, 103, 137, 171]

/-- A parser that reads the UUID of one user. -/
abbrev oneUser : UuidParser where
  parse text := if text = "9b2f1c3e-5d4a-4e7b-8a6f-0123456789ab" then some operatorID else none

structure AlertRow where
  roverID : String
  severity : Severity
  source : String
  code : String
  message : String
  metadata : List (String × String)
  raisedAt : Time
  state : AlertState := .active
  acknowledgedAt : Option Time := none
  acknowledgedBy : Option Uuid := none
  resolvedAt : Option Time := none
  resolvedBy : Option Uuid := none
  autoResolved : Bool := false
  deriving DecidableEq

namespace AlertRow

def wholeMicros (t : Time) : Time := t / 1000 * 1000

def raised (a : AlertRow) : AlertRow where
  roverID := a.roverID
  severity := a.severity
  source := a.source
  code := a.code
  message := a.message
  metadata := a.metadata
  raisedAt := wholeMicros a.raisedAt

def acknowledged (userID : Uuid) (time : Time) (a : AlertRow) : AlertRow :=
  { a with state := .acknowledged, acknowledgedAt := some (wholeMicros time), acknowledgedBy := some userID }

def resolved (userID : Option Uuid) (time : Time) (autoResolved : Bool) (a : AlertRow) : AlertRow :=
  { a with state := .resolved, resolvedAt := some (wholeMicros time), resolvedBy := userID,
           autoResolved := autoResolved }

end AlertRow

structure Refs where
  rovers : String → Bool
  users : Uuid → Bool

def Refs.complete : Refs := ⟨fun _ => true, fun _ => true⟩

inductive RepoError
  | noRows
  | foreignKey

abbrev AlertsRepo := Table String AlertRow

namespace AlertsRepo

variable (refs : Refs)

def raise (id : String) (a : AlertRow) (t : AlertsRepo) : Except RepoError AlertsRepo :=
  if refs.rovers a.roverID then .ok (t.insert id a.raised) else .error .foreignKey

/-- No reference is checked where no row matches. -/
def acknowledge (id : String) (userID : Uuid) (time : Time) (t : AlertsRepo) : Except RepoError AlertsRepo :=
  if id ∉ t then .error .noRows
  else if refs.users userID then .ok (t.update id (AlertRow.acknowledged userID time))
  else .error .foreignKey

def resolve (id : String) (userID : Option Uuid) (time : Time) (autoResolved : Bool) (t : AlertsRepo) :
    Except RepoError AlertsRepo :=
  if id ∉ t then .error .noRows
  else if userID.all refs.users then .ok (t.update id (AlertRow.resolved userID time autoResolved))
  else .error .foreignKey

inductive Call
  | raise (id : String) (a : AlertRow)
  | acknowledge (id : String) (userID : Uuid) (time : Time)
  | resolve (id : String) (userID : Option Uuid) (time : Time) (autoResolved : Bool)
  deriving DecidableEq

namespace Call

def id : Call → String
  | .raise id _ => id
  | .acknowledge id _ _ => id
  | .resolve id _ _ _ => id

def transition : Call → Transition
  | .raise .. => .raise
  | .acknowledge .. => .acknowledge
  | .resolve .. => .resolve

def refers (refs : Refs) : Call → Bool
  | .raise _ a => refs.rovers a.roverID
  | .acknowledge _ userID _ => refs.users userID
  | .resolve _ userID _ _ => userID.all refs.users

def write : Call → Option AlertRow → Option AlertRow
  | .raise _ a, _ => some a.raised
  | .acknowledge _ userID time, row => row.map (AlertRow.acknowledged userID time)
  | .resolve _ userID time autoResolved, row => row.map (AlertRow.resolved userID time autoResolved)

theorem state_write (c : Call) (row : Option AlertRow) :
    (c.write row).map AlertRow.state = c.transition.apply (row.map AlertRow.state) := by
  cases c with
  | raise id a => rfl
  | acknowledge id userID time => cases row <;> rfl
  | resolve id userID time autoResolved => cases row <;> rfl

end Call

variable (t : AlertsRepo)

/-- A call that returns an error leaves the rows as they are. -/
def perform : Call → AlertsRepo
  | .raise id a => (t.raise refs id a).toOption.getD t
  | .acknowledge id userID time => (t.acknowledge refs id userID time).toOption.getD t
  | .resolve id userID time autoResolved => (t.resolve refs id userID time autoResolved).toOption.getD t

variable {refs}

theorem checked_getD (id : String) (f : AlertRow → AlertRow) (known : Bool) :
    (if id ∉ t then .error RepoError.noRows else if known then .ok (t.update id f) else .error .foreignKey :
      Except RepoError AlertsRepo).toOption.getD t = if known then t.update id f else t := by
  by_cases hid : id ∈ t
  · rw [if_neg (not_not.mpr hid)]
    cases known <;> rfl
  · rw [if_pos hid, Table.update_of_not_mem hid, ite_self]
    rfl

variable {c : Call}

theorem lookup_perform_self (h : c.refers refs = true) (t : AlertsRepo) :
    (t.perform refs c).lookup c.id = c.write (t.lookup c.id) := by
  cases c with
  | raise id a =>
    simp only [perform, raise]
    rw [if_pos (show refs.rovers a.roverID = true from h)]
    exact AList.lookup_insert t
  | acknowledge id userID time =>
    simp only [perform, acknowledge, checked_getD]
    rw [if_pos (show refs.users userID = true from h)]
    exact Table.lookup_update_self t id _
  | resolve id userID time autoResolved =>
    simp only [perform, resolve, checked_getD]
    rw [if_pos (show userID.all refs.users = true from h)]
    exact Table.lookup_update_self t id _

theorem lookup_perform_of_ne (c : Call) {other : String} (h : other ≠ c.id) :
    (t.perform refs c).lookup other = t.lookup other := by
  cases c with
  | raise id a =>
    simp only [perform, raise]
    cases refs.rovers a.roverID with
    | false => rfl
    | true => exact AList.lookup_insert_ne h
  | acknowledge id userID time =>
    simp only [perform, acknowledge, checked_getD]
    cases refs.users userID with
    | false => rfl
    | true => exact Table.lookup_update_of_ne t h _
  | resolve id userID time autoResolved =>
    simp only [perform, resolve, checked_getD]
    cases userID.all refs.users with
    | false => rfl
    | true => exact Table.lookup_update_of_ne t h _

theorem perform_of_not_refers (h : c.refers refs = false) (t : AlertsRepo) : t.perform refs c = t := by
  cases c with
  | raise id a =>
    simp only [perform, raise]
    rw [show refs.rovers a.roverID = false from h]
    rfl
  | acknowledge id userID time =>
    simp only [perform, acknowledge, checked_getD]
    rw [show refs.users userID = false from h]
    rfl
  | resolve id userID time autoResolved =>
    simp only [perform, resolve, checked_getD]
    rw [show userID.all refs.users = false from h]
    rfl

def board : Board := .ofTable AlertRow.state t

theorem board_perform (h : c.refers refs = true) (t : AlertsRepo) :
    (t.perform refs c).board = t.board.step (c.id, c.transition) := by
  refine Board.ofTable_write ?_ fun other hother => lookup_perform_of_ne t c hother
  rw [lookup_perform_self h, Call.state_write]

def Call.Raises (c : Call) (id : String) : Prop := c.transition = .raise ∧ c.id = id

instance (c : Call) (id : String) : Decidable (c.Raises id) := inferInstanceAs (Decidable (_ ∧ _))

variable (refs) in
def Reopens : Call → Prop
  | .acknowledge id userID _ => refs.users userID = true ∧ t.board id = some .resolved
  | _ => False

theorem raises_iff (c : Call) (id : String) : c.Raises id ↔ (c.id, c.transition) = (id, .raise) := by
  rw [Call.Raises, Prod.mk.injEq]
  exact and_comm

theorem reopens_iff (c : Call) :
    t.Reopens refs c ↔ c.refers refs = true ∧ c.transition = .acknowledge ∧ t.board c.id = some .resolved := by
  cases c <;> simp [Reopens, Call.refers, Call.transition, Call.id]

theorem resolved_perform_iff (c : Call) :
    (∀ id, t.board id = some .resolved → ¬c.Raises id → (t.perform refs c).board id = some .resolved) ↔
      ¬t.Reopens refs c := by
  cases hrefers : c.refers refs with
  | false =>
    have hnot : ¬t.Reopens refs c := by simp [reopens_iff, hrefers]
    rw [perform_of_not_refers hrefers]
    exact iff_of_true (fun _ hid _ => hid) hnot
  | true =>
    simp only [reopens_iff, raises_iff, board_perform hrefers, hrefers, true_and]
    exact t.board.keeps_resolved_iff (c.id, c.transition)

theorem persists_resolved_iff (calls : List Call) :
    Persists (perform refs) (fun t id => t.board id = some .resolved) Call.Raises t calls ↔
      Along (perform refs) (fun t c => ¬t.Reopens refs c) t calls := by
  rw [persists_iff]
  exact along_congr resolved_perform_iff

end AlertsRepo

namespace AlertMirror

def extractRoverID (subject : String) : String :=
  match tokens subject with
  | first :: id :: _ => if first = "waypoint" then id else ""
  | _ => ""

def parseUserFromReason [UuidParser] (reason : String) : Option Uuid :=
  if hasPrefix reason "user:" then UuidParser.parse (String.ofList (reason.toList.drop 5)) else none

/-- The user of a resolve: none for an automatic one; a manual one needs a user in its reason. -/
def resolver [UuidParser] (ev : AlertResolved) : Option (Option Uuid) :=
  if ev.autoResolved then some none else (parseUserFromReason ev.reason).map some

def Takes (k : Kind) (subject : String) : Prop :=
  covers (tokens ("waypoint.*.alert." ++ k.word)) (tokens subject) = true

instance (k : Kind) (subject : String) : Decidable (Takes k subject) := inferInstanceAs (Decidable (_ = true))

/-- The handler that gets a message; no subject is taken by two of the subscriptions. -/
def kindOf (subject : String) : Option Kind := [Kind.raised, .acknowledged, .resolved].find? (Takes · subject)

/-- A message, the time at which it is read, and whether the statement it leads to reaches the database. -/
structure Delivery (δ : Type) extends AlertMsg δ where
  now : Time
  connected : Bool := true

variable {δ : Type} (codec : Codec δ)

/-- The call that a message of a kind leads to. An acknowledgement and a manual resolve need a user's UUID. -/
def callOf [UuidParser] (roverID : String) (now : Time) (data : δ) : Kind → Option AlertsRepo.Call
  | .raised => do
      let ev ← codec.raised data
      return .raise ev.id {
        roverID := roverID
        severity := severityOfWire ev.severity
        source := ev.source
        code := ev.code
        message := ev.message
        metadata := ev.metadata
        raisedAt := timestampOrNow now ev.t }
  | .acknowledged => do
      let ev ← codec.acknowledged data
      let uid ← UuidParser.parse ev.userId
      return .acknowledge ev.id uid (timestampOrNow now ev.t)
  | .resolved => do
      let ev ← codec.resolved data
      let userID ← resolver ev
      return .resolve ev.id userID (timestampOrNow now ev.t) ev.autoResolved

def Delivery.roverID (d : Delivery δ) : String := extractRoverID d.subject

def Delivery.call [UuidParser] (d : Delivery δ) : Option AlertsRepo.Call :=
  if d.roverID = "" ∨ d.connected = false then none
  else (kindOf d.subject).bind (callOf codec d.roverID d.now d.data)

def receive [UuidParser] (refs : Refs) (t : AlertsRepo) (d : Delivery δ) : AlertsRepo :=
  match d.call codec with
  | none => t
  | some c => t.perform refs c

variable {codec} {refs : Refs} {rover : String}

theorem receive_of_none [UuidParser] {d : Delivery δ} (h : d.call codec = none) (t : AlertsRepo) :
    receive codec refs t d = t := by
  rw [receive, h]

theorem receive_of_some [UuidParser] {d : Delivery δ} {c : AlertsRepo.Call} (h : d.call codec = some c)
    (t : AlertsRepo) : receive codec refs t d = t.perform refs c := by
  rw [receive, h]

theorem roverID_of_callOf [UuidParser] {roverID : String} {now : Time} {data : δ} {k : Kind} {id : String} {a : AlertRow}
    (h : callOf codec roverID now data k = some (.raise id a)) : a.roverID = roverID := by
  cases k with
  | raised =>
    obtain ⟨ev, -, h⟩ := Option.bind_eq_some_iff.mp h
    cases h
    rfl
  | acknowledged =>
    obtain ⟨ev, -, h⟩ := Option.bind_eq_some_iff.mp h
    obtain ⟨uid, -, h⟩ := Option.bind_eq_some_iff.mp h
    cases h
  | resolved =>
    obtain ⟨ev, -, h⟩ := Option.bind_eq_some_iff.mp h
    obtain ⟨userID, -, h⟩ := Option.bind_eq_some_iff.mp h
    cases h

theorem callOf_of_call [UuidParser] {d : Delivery δ} {c : AlertsRepo.Call} (h : d.call codec = some c) :
    ∃ k, kindOf d.subject = some k ∧ callOf codec d.roverID d.now d.data k = some c := by
  rw [Delivery.call] at h
  split at h
  · cases h
  · exact Option.bind_eq_some_iff.mp h

/-! What the mirror makes of a rover's own events. -/

theorem extractRoverID_alertSubject (h : SingleToken rover) (k : Kind) :
    extractRoverID (alertSubject rover k) = rover := by
  simp [extractRoverID, tokens_alertSubject h]

theorem takes_iff (h : Literal [rover]) (k k' : Kind) : Takes k' (alertSubject rover k) ↔ k' = k := by
  obtain ⟨htoken, hstar, hrest⟩ := h rover List.mem_cons_self
  have hsingle : SingleToken rover := fun hdot => htoken.2 '.' hdot (by decide)
  have hpattern : tokens ("waypoint.*.alert." ++ k'.word) = ["waypoint", "*", "alert", k'.word] := by
    cases k' <;> decide
  have hword : k'.word ≠ "*" ∧ k'.word ≠ ">" := by cases k' <;> decide
  rw [Takes, hpattern, tokens_alertSubject hsingle]
  simp [covers, hrest, hword, Kind.word_injective.eq_iff]

theorem kindOf_alertSubject (h : Literal [rover]) (k : Kind) :
    kindOf (alertSubject rover k) = some k := by
  simp only [kindOf, takes_iff h]
  cases k <;> rfl

def drops [UuidParser] (codec : Codec δ) (data : δ) : Kind → Bool
  | .raised => false
  | .acknowledged => (codec.acknowledged data).any fun ev => (UuidParser.parse ev.userId).isNone
  | .resolved => (codec.resolved data).any fun ev => (resolver ev).isNone

theorem change_callOf [UuidParser] (codec : Codec δ) (roverID : String) (now : Time) (data : δ) (k : Kind) :
    (callOf codec roverID now data k).map (fun c => (c.id, c.transition)) =
      if drops codec data k then none else codec.change data k := by
  cases k with
  | raised =>
    cases h : codec.raised data <;> simp [callOf, Codec.change, drops, h, AlertsRepo.Call.id, AlertsRepo.Call.transition]
  | acknowledged =>
    cases h : codec.acknowledged data with
    | none => simp [callOf, Codec.change, drops, h]
    | some ev =>
      cases huser : UuidParser.parse ev.userId <;>
        simp [callOf, Codec.change, drops, h, huser, AlertsRepo.Call.id, AlertsRepo.Call.transition]
  | resolved =>
    cases h : codec.resolved data with
    | none => simp [callOf, Codec.change, drops, h]
    | some ev =>
      cases huser : resolver ev <;>
        simp [callOf, Codec.change, drops, h, huser, AlertsRepo.Call.id, AlertsRepo.Call.transition]

def delivery (rover : String) (k : Kind) (data : δ) (now : Time) : Delivery δ :=
  { subject := alertSubject rover k, data := data, now := now }

theorem call_delivery [UuidParser] (h : Literal [rover]) (k : Kind) (data : δ) (now : Time) :
    (delivery rover k data now).call codec = callOf codec rover now data k := by
  obtain ⟨htoken, -⟩ := h rover List.mem_cons_self
  have hsingle : SingleToken rover := fun hdot => htoken.2 '.' hdot (by decide)
  have hrover : (delivery rover k data now).roverID = rover := extractRoverID_alertSubject hsingle k
  rw [Delivery.call, hrover, if_neg (by simp [htoken.1, delivery])]
  change (kindOf (alertSubject rover k)).bind _ = _
  rw [kindOf_alertSubject h]
  rfl

theorem board_receive [UuidParser] (h : Literal [rover]) (k : Kind) (data : δ) (now : Time)
    (hrefers : ∀ c, (delivery rover k data now).call codec = some c → c.refers refs = true) (t : AlertsRepo) :
    (receive codec refs t (delivery rover k data now)).board =
      if drops codec data k then t.board else t.board.step? (codec.change data k) := by
  have hchange := change_callOf codec rover now data k
  rw [← call_delivery h] at hchange
  have hstep : (receive codec refs t (delivery rover k data now)).board =
      t.board.step? (if drops codec data k then none else codec.change data k) := by
    rw [← hchange]
    cases hcall : (delivery rover k data now).call codec with
    | none => rw [receive_of_none hcall]; rfl
    | some c =>
      rw [receive_of_some hcall, AlertsRepo.board_perform (hrefers c hcall)]
      rfl
  rw [hstep]
  split <;> rfl

end AlertMirror

end Waypoint.Proxy
