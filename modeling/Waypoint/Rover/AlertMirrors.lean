import Waypoint.Agent.AlertStore
import Waypoint.Proxy.AlertMirror

/-!
# The two alert stores

The rover and the proxy keep the same alerts, each from its own subscriptions. A resolved alert should stay resolved until it is raised again, and the two should agree.
-/

namespace Waypoint.Alerts

open Base Agent Proxy

/-- In both stores resolved alerts stay resolved, and out of the rover's list of active alerts, exactly along the
calls that acknowledge none of them while it is resolved. -/
theorem resolved_persist_iff (refs : Refs) (s : AlertStore) (calls : List AlertStore.Call) (t : AlertsRepo)
    (repoCalls : List AlertsRepo.Call) :
    (Persists AlertStore.perform (fun s id => s.board id = some .resolved) AlertStore.Call.Raises s calls ↔
        Along AlertStore.perform (fun s c => ¬s.Reopens c) s calls) ∧
      (∀ (s : AlertStore) id, s.board id = some .resolved → ∀ roverID, ∀ a ∈ s.listActive roverID, a.1 ≠ id) ∧
      (Persists (AlertsRepo.perform refs) (fun t id => t.board id = some .resolved) AlertsRepo.Call.Raises t repoCalls ↔
        Along (AlertsRepo.perform refs) (fun t c => ¬t.Reopens refs c) t repoCalls) :=
  ⟨AlertStore.persists_resolved_iff s calls, fun _ _ => AlertStore.not_mem_listActive_of_resolved,
    AlertsRepo.persists_resolved_iff t repoCalls⟩

def lateOnRover : List AlertStore.Call :=
  [.raise "leaf" ⟨"r1", .warning, "agent", "leaf_down", "leaf connection lost", [], 10, .active, none, "", none, "", false⟩,
    .resolve "leaf" "" 20 true, .acknowledge "leaf" "operator" 30]

def lateOnProxy : List AlertsRepo.Call :=
  [.raise "leaf"
      ⟨"r1", .warning, "agent", "leaf_down", "leaf connection lost", [], 10, .active, none, none, none, none, false⟩,
    .resolve "leaf" none 20 true, .acknowledge "leaf" operatorID 30]

theorem late_acknowledgement_reopens :
    ¬Persists AlertStore.perform (fun s id => s.board id = some .resolved) AlertStore.Call.Raises ∅ lateOnRover ∧
      "leaf" ∈ ((lateOnRover.foldl AlertStore.perform ∅).listActive "r1").map (·.1) ∧
      ¬Persists (AlertsRepo.perform .complete) (fun t id => t.board id = some .resolved) AlertsRepo.Call.Raises ∅
        lateOnProxy := by
  refine ⟨fun h => ?_, by decide, fun h => ?_⟩
  · have hlater := h (lateOnRover.take 2) (lateOnRover.drop 2) (by decide) "leaf" (by decide) (by decide)
    exact absurd hlater (by decide)
  · have hlater := h (lateOnProxy.take 2) (lateOnProxy.drop 2) (by decide) "leaf" (by decide) (by decide)
    exact absurd hlater (by decide)

structure Observed (δ : Type) where
  kind : Kind
  data : δ
  agentNow : Time
  proxyNow : Time

structure Mirrors where
  agent : AlertStore
  proxy : AlertsRepo

namespace Mirrors

variable {δ : Type} (codec : Codec δ) (refs : Refs) (rover : String)

def observe [UuidParser] (m : Mirrors) (o : Observed δ) : Mirrors where
  agent := LocalSubscriber.receive codec rover o.agentNow ⟨alertSubject rover o.kind, o.data⟩ m.agent
  proxy := AlertMirror.receive codec refs m.proxy (AlertMirror.delivery rover o.kind o.data o.proxyNow)

def Agree (m : Mirrors) : Prop := ∀ id, m.agent.board id = m.proxy.board id

/-- What the proxy drops would change nothing at the agent. -/
def Harmless [UuidParser] (m : Mirrors) (o : Observed δ) : Prop :=
  AlertMirror.drops codec o.data o.kind = true →
    ∀ c ∈ codec.change o.data o.kind, c.2.apply (m.agent.board c.1) = m.agent.board c.1

/-- No statement fails on a reference to a missing row. -/
def StatementsSucceed [UuidParser] (os : List (Observed δ)) : Prop :=
  ∀ o ∈ os, ∀ c, (AlertMirror.delivery rover o.kind o.data o.proxyNow).call codec = some c → c.refers refs = true

variable {codec refs rover} {m : Mirrors}

theorem harmless_iff [UuidParser] {o : Observed δ} :
    Harmless codec m o ↔ (AlertMirror.drops codec o.data o.kind = true →
      m.agent.board.step? (codec.change o.data o.kind) = m.agent.board) := by
  rw [Harmless]
  cases codec.change o.data o.kind with
  | none => simp [Board.step?]
  | some c =>
    obtain ⟨id, tr⟩ := c
    simp [Board.step?, Board.step_eq_self_iff]

theorem agree_iff : m.Agree ↔ m.agent.board = m.proxy.board := funext_iff.symm

theorem agree_observe_iff [UuidParser] (hrover : Literal [rover]) (hagree : m.Agree) {o : Observed δ}
    (hrefers : ∀ c, (AlertMirror.delivery rover o.kind o.data o.proxyNow).call codec = some c → c.refers refs = true) :
    Harmless codec m o ↔ (m.observe codec refs rover o).Agree := by
  rw [agree_iff] at hagree ⊢
  have hagent := LocalSubscriber.board_receive codec hrover o.agentNow o.kind o.data m.agent
  have hproxy := AlertMirror.board_receive hrover o.kind o.data o.proxyNow hrefers m.proxy
  rw [harmless_iff, observe, hagent, hproxy, ← hagree]
  cases AlertMirror.drops codec o.data o.kind <;> simp

/-- The stores agree all along a sequence of the rover's events exactly if the proxy drops only harmless ones. -/
theorem mirrors_agree_iff [UuidParser] (hrover : Literal [rover]) {os : List (Observed δ)}
    (hsucceed : StatementsSucceed codec refs rover os) :
    Along (observe codec refs rover) (Harmless codec) ⟨∅, ∅⟩ os ↔
      ∀ before, before <+: os → (before.foldl (observe codec refs rover) ⟨∅, ∅⟩).Agree :=
  along_iff_good (fun _ o ho hagree => agree_observe_iff hrover hagree (hsucceed o ho)) fun _ => rfl

theorem statementsSucceed_complete [UuidParser] (os : List (Observed δ)) : StatementsSucceed codec .complete rover os := by
  intro o _ c _
  cases c with
  | raise id a => rfl
  | acknowledge id userID time => rfl
  | resolve id userID time autoResolved => cases userID <;> rfl

def leafDown : Observed Event :=
  ⟨.raised, .raised { id := "leaf", source := "agent", severity := 2, code := "leaf_down", message := "leaf connection lost" },
    10, 11⟩

def byUser : List (Observed Event) :=
  [leafDown, ⟨.acknowledged, .acknowledged { id := "leaf", userId := "9b2f1c3e-5d4a-4e7b-8a6f-0123456789ab" }, 20, 21⟩,
    ⟨.resolved, .resolved { id := "leaf", reason := "user:9b2f1c3e-5d4a-4e7b-8a6f-0123456789ab", autoResolved := false },
      30, 31⟩]

attribute [local instance] oneUser

theorem mirrors_agree_iff_byUser :
    (byUser.foldl (observe Event.codec .complete "r1") ⟨∅, ∅⟩).agent.board "leaf" = some .resolved ∧
      ∀ before, before <+: byUser → (before.foldl (observe Event.codec .complete "r1") ⟨∅, ∅⟩).Agree := by
  refine ⟨by decide +kernel, (mirrors_agree_iff (by decide) (statementsSucceed_complete byUser)).mp ?_⟩
  exact ⟨fun h => absurd h (by decide), fun h => absurd h (by decide), fun h => absurd h (by decide), trivial⟩

/-- An acknowledgement by a name that is no UUID, and a manual resolve with a reason in words. -/
theorem dropped_events_part_mirrors :
    StatementsSucceed Event.codec .complete "r1"
        [leafDown, ⟨.acknowledged, .acknowledged { id := "leaf", userId := "operator" }, 20, 21⟩] ∧
      ¬([leafDown, ⟨.acknowledged, .acknowledged { id := "leaf", userId := "operator" }, 20, 21⟩].foldl
        (observe Event.codec .complete "r1") ⟨∅, ∅⟩).Agree ∧
      StatementsSucceed Event.codec .complete "r1"
        [leafDown, ⟨.resolved, .resolved { id := "leaf", reason := "cable replaced", autoResolved := false }, 20, 21⟩] ∧
      ¬([leafDown, ⟨.resolved, .resolved { id := "leaf", reason := "cable replaced", autoResolved := false }, 20, 21⟩].foldl
        (observe Event.codec .complete "r1") ⟨∅, ∅⟩).Agree := by
  refine ⟨statementsSucceed_complete _, fun h => ?_, statementsSucceed_complete _, fun h => ?_⟩
  · exact absurd (h "leaf") (by decide +kernel)
  · exact absurd (h "leaf") (by decide +kernel)

end Mirrors

end Waypoint.Alerts
