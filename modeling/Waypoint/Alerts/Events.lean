import Mathlib.Logic.Function.Basic
import Waypoint.Base.Overlap
import Waypoint.Base.Table

/-!
# Alert events

The messages of `messages/alerts.proto`, the subjects they are published on, and the life of an alert as both stores keep it.
-/

namespace Waypoint.Alerts

open Base

abbrev Time := Int

structure Timestamp where
  seconds : Int
  nanos : Int
  deriving DecidableEq

def Timestamp.asTime (t : Timestamp) : Time := t.seconds * 1000000000 + t.nanos

def timestampOrNow (now : Time) (t : Option Timestamp) : Time := (t.map Timestamp.asTime).getD now

structure AlertRaised where
  t : Option Timestamp := none
  id : String
  source : String
  /-- The wire value; proto3 enums are open. -/
  severity : Int
  code : String
  message : String
  metadata : List (String × String) := []

structure AlertAcknowledged where
  t : Option Timestamp := none
  id : String
  userId : String

structure AlertResolved where
  t : Option Timestamp := none
  id : String
  reason : String
  autoResolved : Bool

/-- The decoders of the three messages on the bytes of a NATS message. -/
structure Codec (δ : Type) where
  raised : δ → Option AlertRaised
  acknowledged : δ → Option AlertAcknowledged
  resolved : δ → Option AlertResolved

inductive Event
  | raised (ev : AlertRaised)
  | acknowledged (ev : AlertAcknowledged)
  | resolved (ev : AlertResolved)

def Event.codec : Codec Event where
  raised
    | .raised ev => some ev
    | _ => none
  acknowledged
    | .acknowledged ev => some ev
    | _ => none
  resolved
    | .resolved ev => some ev
    | _ => none

structure AlertMsg (δ : Type) where
  subject : String
  data : δ

inductive Kind
  | raised
  | acknowledged
  | resolved
  deriving DecidableEq

def Kind.word : Kind → String
  | .raised => "raised"
  | .acknowledged => "acknowledged"
  | .resolved => "resolved"

def alertSubject (rover : String) (k : Kind) : String := "waypoint." ++ rover ++ ".alert." ++ k.word

theorem tokens_alertSubject {rover : String} (h : SingleToken rover) (k : Kind) :
    tokens (alertSubject rover k) = ["waypoint", rover, "alert", k.word] := by
  have hsubject : alertSubject rover k = "waypoint" ++ "." ++ (rover ++ "." ++ ("alert" ++ "." ++ k.word)) := by
    rw [← String.toList_inj]
    simp [alertSubject]
  rw [hsubject, tokens_cons (by decide), tokens_cons h, tokens_cons (by decide), tokens_of_single (by cases k <;> decide)]

theorem Kind.word_injective : Function.Injective Kind.word := by
  intro k k' h
  cases k <;> cases k' <;> first | rfl | exact absurd h (by decide)

inductive Severity
  | info
  | warning
  | critical
  deriving DecidableEq

/-- `SeverityToString`, the same switch on both sides. -/
def severityOfWire : Int → Severity
  | 1 => .info
  | 2 => .warning
  | 3 => .critical
  | _ => .info

inductive AlertState
  | active
  | acknowledged
  | resolved
  deriving DecidableEq

/-- What an event asks of an alert. -/
inductive Transition
  | raise
  | acknowledge
  | resolve
  deriving DecidableEq

/-- A raise makes the alert active whatever it was. The others move an alert that exists. -/
def Transition.apply : Transition → Option AlertState → Option AlertState
  | .raise, _ => some .active
  | .acknowledge, s => s.map fun _ => .acknowledged
  | .resolve, s => s.map fun _ => .resolved

def Codec.change {δ : Type} (codec : Codec δ) (data : δ) : Kind → Option (String × Transition)
  | .raised => (codec.raised data).map fun ev => (ev.id, .raise)
  | .acknowledged => (codec.acknowledged data).map fun ev => (ev.id, .acknowledge)
  | .resolved => (codec.resolved data).map fun ev => (ev.id, .resolve)

abbrev Board := String → Option AlertState

namespace Board

variable (b : Board)

def step (c : String × Transition) : Board := Function.update b c.1 (c.2.apply (b c.1))

def step? : Option (String × Transition) → Board
  | none => b
  | some c => b.step c

@[simp] theorem step_self (id : String) (tr : Transition) : b.step (id, tr) id = tr.apply (b id) :=
  Function.update_self ..

theorem step_of_ne {id other : String} (h : other ≠ id) (tr : Transition) :
    b.step (id, tr) other = b other := Function.update_of_ne h ..

theorem step_eq_self_iff (id : String) (tr : Transition) : b.step (id, tr) = b ↔ tr.apply (b id) = b id :=
  Function.update_eq_self_iff

theorem step_resolved_iff (c : String × Transition) {id : String} (h : b id = some .resolved) :
    b.step c id = some .resolved ↔ c ≠ (id, .raise) ∧ c ≠ (id, .acknowledge) := by
  obtain ⟨other, tr⟩ := c
  by_cases hid : id = other
  · subst hid
    rw [step_self, h]
    cases tr <;> simp [Transition.apply]
  · rw [step_of_ne b hid, h]
    simp [Ne.symm hid]

/-- A change other than raising them keeps all resolved alerts exactly if it does not acknowledge one of them. -/
theorem keeps_resolved_iff (c : String × Transition) :
    (∀ id, b id = some .resolved → c ≠ (id, .raise) → b.step c id = some .resolved) ↔
      ¬(c.2 = .acknowledge ∧ b c.1 = some .resolved) := by
  constructor
  · rintro h ⟨hack, hresolved⟩
    have hraise : c ≠ (c.1, .raise) := by
      intro hraise
      rw [hraise] at hack
      cases hack
    have hkept := h c.1 hresolved hraise
    exact ((step_resolved_iff b c hresolved).mp hkept).2 (Prod.ext rfl hack)
  · intro hreopens id hid hraise
    refine (step_resolved_iff b c hid).mpr ⟨hraise, fun hack => hreopens ?_⟩
    rw [hack]
    exact ⟨rfl, hid⟩

/-! Reading the board off a table. -/

section Table

variable {ρ : Type} (state : ρ → AlertState)

def ofTable (t : Table String ρ) : Board := fun id => (t.lookup id).map state

variable {state}

theorem ofTable_write {t t' : Table String ρ} {id : String} {tr : Transition}
    (hself : (t'.lookup id).map state = tr.apply ((t.lookup id).map state))
    (hother : ∀ other, other ≠ id → t'.lookup other = t.lookup other) :
    ofTable state t' = (ofTable state t).step (id, tr) := by
  funext other
  by_cases hid : other = id
  · subst hid
    rw [step_self]
    exact hself
  · rw [step_of_ne _ hid, ofTable, hother other hid]
    rfl

end Table

end Board

end Waypoint.Alerts
