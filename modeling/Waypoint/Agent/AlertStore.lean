import Mathlib.Data.List.Sort
import Waypoint.Alerts.Events
import Waypoint.Base.Run

/-!
# The rover's alert store

`alerts/store.go` and `alerts/local_subscriber.go` of the agent.
-/

namespace Waypoint.Agent

open Base Alerts

structure StoredAlert where
  roverID : String
  severity : Severity
  source : String
  code : String
  message : String
  metadata : List (String × String)
  raisedAt : Time
  state : AlertState := .active
  acknowledgedAt : Option Time := none
  acknowledgedBy : String := ""
  resolvedAt : Option Time := none
  resolvedBy : String := ""
  autoResolved : Bool := false
  deriving DecidableEq

namespace StoredAlert

/-- Through `Unix()` and back. -/
def wholeSeconds (t : Time) : Time := t / 1000000000 * 1000000000

/-- The columns a raise sets; a conflict overwrites all of them, so the row is the same with and without one. -/
def raised (a : StoredAlert) : StoredAlert where
  roverID := a.roverID
  severity := a.severity
  source := a.source
  code := a.code
  message := a.message
  metadata := a.metadata
  raisedAt := wholeSeconds a.raisedAt

def acknowledged (userID : String) (time : Time) (a : StoredAlert) : StoredAlert :=
  { a with state := .acknowledged, acknowledgedAt := some (wholeSeconds time), acknowledgedBy := userID }

def resolved (userID : String) (time : Time) (autoResolved : Bool) (a : StoredAlert) : StoredAlert :=
  { a with state := .resolved, resolvedAt := some (wholeSeconds time), resolvedBy := userID,
           autoResolved := autoResolved }

end StoredAlert

inductive StoreError
  | noRows

abbrev AlertStore := Table String StoredAlert

namespace AlertStore

def raise (id : String) (a : StoredAlert) (s : AlertStore) : AlertStore := s.insert id a.raised

def acknowledge (id userID : String) (time : Time) (s : AlertStore) : Except StoreError AlertStore :=
  if id ∉ s then .error .noRows else .ok (s.update id (StoredAlert.acknowledged userID time))

def resolve (id userID : String) (time : Time) (autoResolved : Bool) (s : AlertStore) :
    Except StoreError AlertStore :=
  if id ∉ s then .error .noRows else .ok (s.update id (StoredAlert.resolved userID time autoResolved))

/-- The alerts that are not resolved, newest first; the empty rover id lists all rovers. -/
def listActive (roverID : String) (s : AlertStore) : List (Sigma fun _ : String => StoredAlert) :=
  (s.entries.filter fun a => a.2.state ≠ .resolved ∧ (roverID = "" ∨ a.2.roverID = roverID)).insertionSort
    fun a b => b.2.raisedAt ≤ a.2.raisedAt

variable (s : AlertStore)

def board : Board := .ofTable StoredAlert.state s

theorem not_mem_listActive_of_resolved {s : AlertStore} {id : String} (h : s.board id = some .resolved)
    (roverID : String) : ∀ a ∈ s.listActive roverID, a.1 ≠ id := by
  intro a ha
  obtain ⟨ha, hstate⟩ := List.mem_filter.mp ((List.mem_insertionSort _).mp ha)
  rintro rfl
  rw [board, Board.ofTable, Table.mem_entries_iff.mp ha] at h
  simp only [Option.map_some, Option.some.injEq] at h
  simp [h] at hstate

inductive Call
  | raise (id : String) (a : StoredAlert)
  | acknowledge (id userID : String) (time : Time)
  | resolve (id userID : String) (time : Time) (autoResolved : Bool)
  deriving DecidableEq

def Call.change : Call → String × Transition
  | .raise id _ => (id, .raise)
  | .acknowledge id _ _ => (id, .acknowledge)
  | .resolve id _ _ _ => (id, .resolve)

/-- A call that returns an error leaves the rows as they are. -/
def perform : Call → AlertStore
  | .raise id a => s.raise id a
  | .acknowledge id userID time => (s.acknowledge id userID time).toOption.getD s
  | .resolve id userID time autoResolved => (s.resolve id userID time autoResolved).toOption.getD s

theorem checked_getD (id : String) (f : StoredAlert → StoredAlert) :
    (if id ∉ s then .error StoreError.noRows else .ok (s.update id f) : Except StoreError AlertStore).toOption.getD s =
      s.update id f := by
  by_cases hid : id ∈ s
  · rw [if_neg (not_not.mpr hid)]
    rfl
  · rw [if_pos hid, Table.update_of_not_mem hid]
    rfl

theorem board_perform (c : Call) : (s.perform c).board = s.board.step c.change := by
  cases c with
  | raise id a =>
    refine Board.ofTable_write ?_ fun other hother => AList.lookup_insert_ne hother
    rw [perform, raise, AList.lookup_insert]
    rfl
  | acknowledge id userID time =>
    simp only [perform, acknowledge, checked_getD]
    refine Board.ofTable_write ?_ fun other hother => Table.lookup_update_of_ne s hother _
    rw [Table.lookup_update_self]
    cases s.lookup id <;> rfl
  | resolve id userID time autoResolved =>
    simp only [perform, resolve, checked_getD]
    refine Board.ofTable_write ?_ fun other hother => Table.lookup_update_of_ne s hother _
    rw [Table.lookup_update_self]
    cases s.lookup id <;> rfl

def Call.Raises (c : Call) (id : String) : Prop := c.change = (id, .raise)

instance (c : Call) (id : String) : Decidable (c.Raises id) := inferInstanceAs (Decidable (_ = _))

def Reopens : Call → Prop
  | .acknowledge id _ _ => s.board id = some .resolved
  | _ => False

theorem reopens_iff (c : Call) :
    s.Reopens c ↔ c.change.2 = .acknowledge ∧ s.board c.change.1 = some .resolved := by
  cases c <;> simp [Reopens, Call.change]

theorem resolved_perform_iff (c : Call) :
    (∀ id, s.board id = some .resolved → ¬c.Raises id → (s.perform c).board id = some .resolved) ↔ ¬s.Reopens c := by
  rw [reopens_iff, board_perform]
  exact s.board.keeps_resolved_iff c.change

theorem persists_resolved_iff (calls : List Call) :
    Persists perform (fun s id => s.board id = some .resolved) Call.Raises s calls ↔
      Along perform (fun s c => ¬s.Reopens c) s calls := by
  rw [persists_iff]
  exact along_congr resolved_perform_iff

end AlertStore

namespace LocalSubscriber

def userIDFromReason (reason : String) : String :=
  if hasPrefix reason "user:" then String.ofList (reason.toList.drop 5) else ""

def prefixOf (roverID : String) : String := "waypoint." ++ roverID ++ ".alert."

def Takes (roverID : String) (k : Kind) (subject : String) : Prop :=
  covers (tokens (prefixOf roverID ++ k.word)) (tokens subject) = true

instance (roverID : String) (k : Kind) (subject : String) : Decidable (Takes roverID k subject) :=
  inferInstanceAs (Decidable (_ = true))

/-- The handler that gets a message. The rover's own id has no wildcard, so no subject is taken twice. -/
def kindOf (roverID subject : String) : Option Kind :=
  [Kind.raised, .acknowledged, .resolved].find? (Takes roverID · subject)

variable {δ : Type} (codec : Codec δ)

def callOf (roverID : String) (now : Time) (data : δ) : Kind → Option AlertStore.Call
  | .raised => do
      let ev ← codec.raised data
      return .raise ev.id {
        roverID := roverID
        severity := severityOfWire ev.severity
        source := ev.source
        code := ev.code
        message := ev.message
        metadata := ev.metadata
        raisedAt := timestampOrNow now ev.t }
  | .acknowledged => do
      let ev ← codec.acknowledged data
      return .acknowledge ev.id ev.userId (timestampOrNow now ev.t)
  | .resolved => do
      let ev ← codec.resolved data
      let userID := if ev.autoResolved then "" else userIDFromReason ev.reason
      return .resolve ev.id userID (timestampOrNow now ev.t) ev.autoResolved

def receive (roverID : String) (now : Time) (m : AlertMsg δ) (s : AlertStore) : AlertStore :=
  match (kindOf roverID m.subject).bind (callOf codec roverID now m.data) with
  | none => s
  | some c => s.perform c

variable {codec} {roverID : String}

theorem takes_iff (h : Literal [roverID]) (k k' : Kind) :
    Takes roverID k' (alertSubject roverID k) ↔ k' = k := by
  obtain ⟨htoken, hstar, hrest⟩ := h roverID List.mem_cons_self
  have hsingle : SingleToken roverID := fun hdot => htoken.2 '.' hdot (by decide)
  have hliteral : ∀ t ∈ ["waypoint", roverID, "alert", k'.word], t ≠ "*" ∧ t ≠ ">" := by
    simp only [List.forall_mem_cons]
    refine ⟨by decide, ⟨hstar, hrest⟩, by decide, ?_, by simp⟩
    cases k' <;> decide
  change covers (tokens (alertSubject roverID k')) _ = true ↔ _
  rw [tokens_alertSubject hsingle, tokens_alertSubject hsingle, covers_literal hliteral]
  simp only [List.cons.injEq, true_and, and_true, Kind.word_injective.eq_iff]
  exact eq_comm

theorem kindOf_alertSubject (h : Literal [roverID]) (k : Kind) :
    kindOf roverID (alertSubject roverID k) = some k := by
  simp only [kindOf, takes_iff h]
  cases k <;> rfl

theorem change_callOf (roverID : String) (now : Time) (data : δ) (k : Kind) :
    (callOf codec roverID now data k).map AlertStore.Call.change = codec.change data k := by
  cases k with
  | raised => cases h : codec.raised data <;> simp [callOf, Codec.change, h, AlertStore.Call.change]
  | acknowledged => cases h : codec.acknowledged data <;> simp [callOf, Codec.change, h, AlertStore.Call.change]
  | resolved => cases h : codec.resolved data <;> simp [callOf, Codec.change, h, AlertStore.Call.change]

theorem board_receive (codec : Codec δ) (h : Literal [roverID]) (now : Time) (k : Kind) (data : δ)
    (s : AlertStore) :
    (receive codec roverID now ⟨alertSubject roverID k, data⟩ s).board = s.board.step? (codec.change data k) := by
  rw [receive, kindOf_alertSubject h, Option.bind_some, ← change_callOf roverID now]
  cases callOf codec roverID now data k with
  | none => rfl
  | some c => exact AlertStore.board_perform s c

end LocalSubscriber

end Waypoint.Agent
