import Mathlib.Data.List.Induction
import Mathlib.Logic.Function.Basic

/-!
# The alert list

`state/useAlerts.ts` of the dashboard: the alerts by id, kept up to date by events and filled once by the rows that a request returns. The rows are those of some moment after the request.
-/

namespace Waypoint.Dashboard

variable {δ : Type}

inductive ActiveState
  | active
  | acknowledged
  deriving DecidableEq

/-- `details` are the other fields of an alert. -/
structure ActiveAlert (δ : Type) where
  details : δ
  state : ActiveState

inductive AlertEvent (δ : Type)
  | raised (id : String) (details : δ)
  | acknowledged (id : String)
  | resolved (id : String)

abbrev ByID (δ : Type) := String → Option (ActiveAlert δ)

def ByID.apply (prev : ByID δ) : AlertEvent δ → ByID δ
  | .raised id details => Function.update prev id (some ⟨details, .active⟩)
  | .acknowledged id =>
    match prev id with
    | none => prev
    | some cur =>
      if cur.state = .acknowledged then prev else Function.update prev id (some { cur with state := .acknowledged })
  | .resolved id => if (prev id).isNone then prev else Function.update prev id none

structure AlertWireRow (δ : Type) where
  id : String
  details : δ
  state : String

def rowToAlert (row : AlertWireRow δ) : ActiveAlert δ :=
  ⟨row.details, if row.state = "acknowledged" then .acknowledged else .active⟩

def ByID.seed (rows : List (AlertWireRow δ)) (prev : ByID δ) : ByID δ :=
  rows.foldl (fun next row => if row.state = "resolved" then next else Function.update next row.id (some (rowToAlert row))) prev

/-- The list once all events and the response were applied, the response after `m` of the events. -/
def displayed (es : List (AlertEvent δ)) (m : Nat) (rows : List (AlertWireRow δ)) : ByID δ :=
  (es.drop m).foldl ByID.apply (((es.take m).foldl ByID.apply fun _ => none).seed rows)

def AlertEvent.live (id : String) (s : Option ActiveState) : AlertEvent δ → Option ActiveState
  | .raised i _ => if i = id then some .active else s
  | .acknowledged i => if i = id then s.map fun _ => .acknowledged else s
  | .resolved i => if i = id then none else s

def unresolved (start : String → Option ActiveState) (es : List (AlertEvent δ)) (id : String) : Option ActiveState :=
  es.foldl (AlertEvent.live id) (start id)

def ActiveState.wire : ActiveState → String
  | .active => "active"
  | .acknowledged => "acknowledged"

/-- The rows are the alerts that are not resolved. -/
structure Snapshot (rows : List (AlertWireRow δ)) (alive : String → Option ActiveState) : Prop where
  states : ∀ row ∈ rows, ∃ s, alive row.id = some s ∧ row.state = s.wire
  complete : ∀ id, alive id ≠ none → ∃ row ∈ rows, row.id = id

variable {id : String} {es : List (AlertEvent δ)} {byID : ByID δ} {rows : List (AlertWireRow δ)} {x y : Option ActiveState}

theorem state_apply (e : AlertEvent δ) : (byID.apply e id).map (·.state) = AlertEvent.live id ((byID id).map (·.state)) e := by
  cases e with
  | raised i details =>
    by_cases hid : i = id
    · subst hid
      simp [ByID.apply, AlertEvent.live]
    · simp [ByID.apply, AlertEvent.live, hid, Ne.symm hid]
  | acknowledged i =>
    unfold ByID.apply AlertEvent.live
    dsimp only
    by_cases hid : i = id
    · subst hid
      rw [if_pos rfl]
      cases hcur : byID i with
      | none => simp [hcur]
      | some cur => by_cases hstate : cur.state = .acknowledged <;> simp [hcur, hstate]
    · rw [if_neg hid]
      cases hcur : byID i with
      | none => rfl
      | some cur => by_cases hstate : cur.state = .acknowledged <;> simp [hstate, Ne.symm hid]
  | resolved i =>
    unfold ByID.apply AlertEvent.live
    dsimp only
    by_cases hid : i = id
    · subst hid
      cases hcur : byID i <;> simp [hcur]
    · cases hcur : byID i <;> simp [hid, Ne.symm hid]

theorem state_foldl (es : List (AlertEvent δ)) (byID : ByID δ) :
    (es.foldl ByID.apply byID id).map (·.state) = es.foldl (AlertEvent.live id) ((byID id).map (·.state)) := by
  induction es generalizing byID with
  | nil => rfl
  | cons e es ih => rw [List.foldl_cons, List.foldl_cons, ih, state_apply]

theorem state_seed {alive : String → Option ActiveState} (hstates : ∀ row ∈ rows, ∃ s, alive row.id = some s ∧ row.state = s.wire)
    (byID : ByID δ) : (byID.seed rows id).map (·.state) =
      if ∃ row ∈ rows, row.id = id then alive id else (byID id).map (·.state) := by
  induction rows generalizing byID with
  | nil => simp [ByID.seed]
  | cons row rows ih =>
    rw [List.forall_mem_cons] at hstates
    obtain ⟨s, halive, hwire⟩ := hstates.1
    have hrow : row.state ≠ "resolved" ∧ (rowToAlert row).state = s := by
      rw [rowToAlert, hwire]
      cases s <;> exact ⟨by decide, rfl⟩
    have hseed : byID.seed (row :: rows) = ByID.seed rows (Function.update byID row.id (some (rowToAlert row))) := by
      rw [ByID.seed, List.foldl_cons, if_neg hrow.1]
      rfl
    rw [hseed, ih hstates.2]
    by_cases hlater : ∃ row ∈ rows, row.id = id
    · rw [if_pos hlater, if_pos (by simpa using .inr hlater)]
    rw [if_neg hlater]
    by_cases hid : row.id = id
    · subst hid
      simp [halive, hrow.2]
    · simp [hid, Ne.symm hid, hlater]

theorem live_behind (h : x = y ∨ x = none) (es : List (AlertEvent δ)) :
    es.foldl (AlertEvent.live id) x = es.foldl (AlertEvent.live id) y ∨ es.foldl (AlertEvent.live id) x = none := by
  induction es generalizing x y with
  | nil => exact h
  | cons e es ih =>
    refine ih ?_
    rcases h with rfl | rfl
    · exact .inl rfl
    · cases e <;> simp only [AlertEvent.live] <;> split <;> simp

theorem live_again (es : List (AlertEvent δ)) (x : Option ActiveState) :
    es.foldl (AlertEvent.live id) (es.foldl (AlertEvent.live id) x) = es.foldl (AlertEvent.live id) x := by
  have hshape : (∀ x, es.foldl (AlertEvent.live id) x = x) ∨
      (∀ x, es.foldl (AlertEvent.live id) x = x.map fun _ => ActiveState.acknowledged) ∨
      ∃ c, ∀ x, es.foldl (AlertEvent.live id) x = c := by
    induction es using List.reverseRecOn with
    | nil => exact .inl fun _ => rfl
    | append_singleton es e ih =>
      simp only [List.foldl_append, List.foldl_cons, List.foldl_nil]
      cases e with
      | raised i details =>
        by_cases hid : i = id
        · exact .inr (.inr ⟨_, fun x => if_pos hid⟩)
        · simpa [AlertEvent.live, hid] using ih
      | acknowledged i =>
        by_cases hid : i = id
        · simp only [AlertEvent.live, if_pos hid]
          rcases ih with ih | ih | ⟨c, ih⟩
          · exact .inr (.inl fun x => by rw [ih])
          · exact .inr (.inl fun x => by rw [ih]; cases x <;> rfl)
          · exact .inr (.inr ⟨_, fun x => by rw [ih]⟩)
        · simpa [AlertEvent.live, hid] using ih
      | resolved i =>
        by_cases hid : i = id
        · exact .inr (.inr ⟨_, fun x => if_pos hid⟩)
        · simpa [AlertEvent.live, hid] using ih
  rcases hshape with h | h | ⟨c, h⟩
  · rw [h]
  · rw [h, h]
    cases x <;> rfl
  · rw [h, h]

/-- The alerts of the snapshot are, when the response is applied, what they were when it was taken, if it is not ahead of the events. -/
def Unmoved (start : String → Option ActiveState) (es : List (AlertEvent δ)) (k m : Nat) : Prop :=
  k ≤ m → ∀ id, unresolved start (es.take k) id ≠ none → unresolved start (es.take m) id = unresolved start (es.take k) id

/-- The list shows the alerts that are not resolved after all events, each with its state, if no event of an alert in the snapshot overtakes the response. -/
theorem alerts_converge (start : String → Option ActiveState) (es : List (AlertEvent δ)) (k m : Nat)
    (rows : List (AlertWireRow δ)) (hrows : Snapshot rows (unresolved start (es.take k))) (h : Unmoved start es k m) (id : String) :
    (displayed es m rows id).map (·.state) = unresolved start es id := by
  have hsplit (i n : Nat) (x : Option ActiveState) : (es.take (i + n)).foldl (AlertEvent.live id) x =
      ((es.drop i).take n).foldl (AlertEvent.live id) ((es.take i).foldl (AlertEvent.live id) x) := by
    rw [List.take_add, List.foldl_append]
  have hend : unresolved start es id = (es.drop m).foldl (AlertEvent.live id) (unresolved start (es.take m) id) := by
    rw [unresolved, unresolved, ← List.foldl_append, List.take_append_drop]
  rw [displayed, state_foldl, state_seed hrows.states, state_foldl, hend]
  have hknown : (∃ row ∈ rows, row.id = id) ↔ unresolved start (es.take k) id ≠ none := by
    refine ⟨?_, hrows.complete id⟩
    rintro ⟨row, hrow, rfl⟩
    obtain ⟨s, hs, -⟩ := hrows.states row hrow
    simp [hs]
  rw [Option.map_none]
  rcases Nat.le_total k m with hkm | hmk
  · -- the response is applied after the events of the snapshot: no alert of it has moved since
    congr 1
    by_cases hnone : unresolved start (es.take k) id = none
    · obtain ⟨n, rfl⟩ := Nat.exists_eq_add_of_le hkm
      rw [if_neg (by rwa [hknown, not_not]), unresolved, hsplit, hsplit]
      rcases live_behind (.inr rfl) (es.take k) with hsame | hmissing
      · rw [hsame]
      · rw [hmissing, show (es.take k).foldl (AlertEvent.live id) (start id) = none from hnone]
    · rw [if_pos (hknown.mpr hnone), h hkm id hnone]
  · -- the response is ahead: the events between are applied to it once more
    obtain ⟨n, rfl⟩ := Nat.exists_eq_add_of_le hmk
    have hmid : unresolved start (es.take (m + n)) id =
        ((es.drop m).take n).foldl (AlertEvent.live id) (unresolved start (es.take m) id) := hsplit m n (start id)
    rw [← List.take_append_drop n (es.drop m), List.foldl_append, List.foldl_append]
    congr 1
    by_cases hnone : unresolved start (es.take (m + n)) id = none
    · rw [if_neg (by rwa [hknown, not_not])]
      rcases live_behind (y := start id) (.inr rfl) (es.take m) with hsame | hmissing
      · rw [hsame]
        rfl
      rw [hmissing]
      rcases live_behind (y := unresolved start (es.take m) id) (.inr rfl) ((es.drop m).take n) with hsame | hmissing
      · exact hsame
      · rw [hmissing, ← hmid, hnone]
    · rw [if_pos (hknown.mpr hnone), hmid, live_again]

/-- The snapshot is taken after the first event, and the response applied after the second. -/
theorem alerts_converge_late :
    (displayed [.raised "a" (), .raised "b" (), .acknowledged "a"] 2 [⟨"a", (), "active"⟩] "a").map (·.state) =
        some .acknowledged ∧
      (displayed [.raised "a" (), .raised "b" (), .acknowledged "a"] 2 [⟨"a", (), "active"⟩] "b").map (·.state) =
        some .active := by
  have hshown := alerts_converge (fun _ => none) [.raised "a" (), .raised "b" (), .acknowledged "a"] 1 2
    [⟨"a", (), "active"⟩] ⟨by decide, fun id hid => ?_⟩ fun _ id hid => ?_
  · exact ⟨hshown "a", hshown "b"⟩
  · by_cases ha : "a" = id
    · exact ⟨_, List.mem_cons_self, ha⟩
    · simp [unresolved, AlertEvent.live, ha] at hid
  · by_cases ha : "a" = id
    · subst ha
      rfl
    · simp [unresolved, AlertEvent.live, ha] at hid

/-- The response is older than the resolve that was applied before it. -/
theorem resolved_alert_returns : ∃ start : String → Option ActiveState, ∃ es : List (AlertEvent Unit), ∃ rows,
    Snapshot rows (unresolved start (es.take 0)) ∧ (displayed es 1 rows "a").map (·.state) = some .active ∧
      unresolved start es "a" = none := by
  refine ⟨fun id => if id = "a" then some .active else none, [.resolved "a"], [⟨"a", (), "active"⟩], ⟨by decide, ?_⟩, rfl, rfl⟩
  intro id hid
  by_contra hnot
  exact hid (if_neg fun heq => hnot ⟨_, List.mem_cons_self, heq.symm⟩)

end Waypoint.Dashboard
