import Waypoint.Agent.AlertStore

/-!
# The alert for the lost proxy

When the last leaf connection goes the agent raises `proxy_disconnected`, when one is back it resolves the alert. The watcher reacts to changes only, and the first poll of a process is not one.
-/

namespace Waypoint.Agent

open Base Alerts

def deterministicID (roverID source code : String) : String := roverID ++ ":" ++ source ++ ":" ++ code

def severityFault : Int := 3

/-- `PublishRaised`, with the time of the call; without an id or a rover nothing is published. -/
def publishRaised (roverID id : String) (severity : Int) (source code message : String)
    (metadata : List (String × String)) (now : Timestamp) : Option (AlertMsg Event) :=
  if id = "" ∨ roverID = "" then none
  else some ⟨alertSubject roverID .raised, .raised { t := some now, id, source, severity, code, message, metadata }⟩

def publishResolved (roverID id reason : String) (autoResolved : Bool) (now : Timestamp) : Option (AlertMsg Event) :=
  if id = "" ∨ roverID = "" then none
  else some ⟨alertSubject roverID .resolved, .resolved { t := some now, id, reason, autoResolved }⟩

/-- The variables of `LeafWatcher.Run`: whether there was a poll yet, and what the last one saw. -/
structure LeafWatcher where
  seen : Bool := false
  last : Bool := false

inductive LeafEdge
  | onDown
  | onUp
  deriving DecidableEq

def LeafWatcher.poll (w : LeafWatcher) (numLeafNodes : Nat) : LeafWatcher × Option LeafEdge :=
  let connected := decide (numLeafNodes > 0)
  if !w.seen then (⟨true, connected⟩, none)
  else if connected = w.last then (w, none)
  else ({ w with last := connected }, some (if connected then .onUp else .onDown))

def proxyAlertID (roverID : String) : String := deterministicID roverID "agent.proxy" "proxy_disconnected"

def LeafEdge.publish (roverID : String) (now : Timestamp) : LeafEdge → Option (AlertMsg Event)
  | .onDown =>
    publishRaised roverID (proxyAlertID roverID) severityFault "agent.proxy" "proxy_disconnected"
      "leaf-node connection to proxy lost" [] now
  | .onUp => publishResolved roverID (proxyAlertID roverID) "leaf reconnected" true now

/-- The process and the store. What is published reaches the local subscriber before the next poll. -/
structure LeafAgent where
  watcher : LeafWatcher := {}
  store : AlertStore

inductive LeafAction
  | restart
  | poll (numLeafNodes : Nat) (now : Timestamp)

def LeafAgent.step (roverID : String) (a : LeafAgent) : LeafAction → LeafAgent
  | .restart => { a with watcher := {} }
  | .poll numLeafNodes now =>
    let (watcher, edge) := a.watcher.poll numLeafNodes
    match edge.bind (·.publish roverID now) with
    | none => { a with watcher }
    | some msg => { watcher, store := LocalSubscriber.receive Event.codec roverID now.asTime msg a.store }

def LeafAgent.run (roverID : String) (a : LeafAgent) (actions : List LeafAction) : LeafAgent :=
  actions.foldl (LeafAgent.step roverID) a

def LeafAgent.Disconnected (roverID : String) (a : LeafAgent) : Prop :=
  a.store.board (proxyAlertID roverID) = some .active

instance (roverID : String) (a : LeafAgent) : Decidable (a.Disconnected roverID) := inferInstanceAs (Decidable (_ = _))

def polls (ps : List (Nat × Timestamp)) : List LeafAction := ps.map fun p => .poll p.1 p.2

variable {w : LeafWatcher} {n : Nat} {a start : LeafAgent}

theorem poll_first (h : w.seen = false) (n : Nat) : w.poll n = (⟨true, decide (0 < n)⟩, none) := by
  simp [LeafWatcher.poll, h]

theorem poll_same (h : w = ⟨true, decide (0 < n)⟩) : w.poll n = (w, none) := by
  simp [LeafWatcher.poll, h]

theorem poll_edge {last : Bool} (h : decide (0 < n) ≠ last) :
    (LeafWatcher.mk true last).poll n = (⟨true, decide (0 < n)⟩, some (if 0 < n then .onUp else .onDown)) := by
  have hconnected : ¬decide (n > 0) = last := h
  simp only [LeafWatcher.poll, Bool.not_true, Bool.false_eq_true, if_false, if_neg hconnected, decide_eq_true_eq]

variable {roverID : String}

theorem step_quiet (now : Timestamp) (h : a.watcher.poll n = (w, none)) :
    a.step roverID (.poll n now) = { a with watcher := w } := by
  simp only [LeafAgent.step, h, Option.bind_none]

theorem publish_eq (hrover : Literal [roverID]) (edge : LeafEdge) (now : Timestamp) :
    ∃ kind data, edge.publish roverID now = some ⟨alertSubject roverID kind, data⟩ ∧
      Event.codec.change data kind = some (proxyAlertID roverID, if edge = .onDown then .raise else .resolve) := by
  have hid : ¬(proxyAlertID roverID = "" ∨ roverID = "") := by
    rintro (hempty | hempty)
    · have hchars := congrArg String.toList hempty
      simp [proxyAlertID, deterministicID] at hchars
    · exact (hrover roverID List.mem_cons_self).1.1 hempty
  cases edge with
  | onDown => exact ⟨.raised, _, if_neg hid, rfl⟩
  | onUp => exact ⟨.resolved, _, if_neg hid, rfl⟩

theorem step_edge (hrover : Literal [roverID]) {edge : LeafEdge}
    (now : Timestamp) (h : a.watcher.poll n = (w, some edge)) :
    (a.step roverID (.poll n now)).watcher = w ∧
      ((a.step roverID (.poll n now)).Disconnected roverID ↔ edge = .onDown) := by
  obtain ⟨kind, data, hpublish, hchange⟩ := publish_eq hrover edge now
  have hstep : a.step roverID (.poll n now) =
      ⟨w, LocalSubscriber.receive Event.codec roverID now.asTime ⟨alertSubject roverID kind, data⟩ a.store⟩ := by
    simp only [LeafAgent.step, h, Option.bind_some, hpublish]
  refine ⟨congrArg LeafAgent.watcher hstep, ?_⟩
  rw [hstep, LeafAgent.Disconnected]
  dsimp only
  rw [LocalSubscriber.board_receive Event.codec hrover, hchange, Board.step?, Board.step_self]
  cases edge with
  | onDown => exact iff_of_true rfl rfl
  | onUp =>
    refine iff_of_false (fun hactive => ?_) (fun hdown => by cases hdown)
    cases hstate : a.store.board (proxyAlertID roverID) <;> rw [hstate] at hactive <;> cases hactive

/-- Where a process stands after its polls, from where it started: what the watcher has seen last, and the alert as long
as the proxy is connected. -/
structure Watched (roverID : String) (start : LeafAgent) (ps : List (Nat × Timestamp)) (a : LeafAgent) : Prop where
  watcher : ∃ connected, a.watcher = ⟨true, connected⟩
  lost : a.watcher.last = false → ∃ p ∈ ps, p.1 = 0
  connected : a.watcher.last = true → (a.Disconnected roverID ↔ start.Disconnected roverID ∧ ∀ p ∈ ps, 0 < p.1)

variable {ps : List (Nat × Timestamp)}

theorem forall_mem_concat (now : Timestamp) (hn : 0 < n) :
    (∀ p ∈ ps ++ [(n, now)], 0 < p.1) ↔ ∀ p ∈ ps, 0 < p.1 := by
  rw [List.forall_mem_append, List.forall_mem_singleton]
  exact and_iff_left hn

theorem watched_first (h : start.watcher = {}) (n : Nat) (now : Timestamp) :
    Watched roverID start [(n, now)] (start.step roverID (.poll n now)) ∧
      (start.step roverID (.poll n now)).watcher = ⟨true, decide (0 < n)⟩ := by
  rw [step_quiet now (poll_first (w := start.watcher) (by rw [h]) n)]
  refine ⟨⟨⟨_, rfl⟩, fun hlast => ⟨_, List.mem_cons_self, ?_⟩, fun hlast => ?_⟩, rfl⟩
  · simpa using hlast
  · have hn : 0 < n := by simpa using hlast
    have hall : ∀ p ∈ [(n, now)], 0 < p.1 := by simpa using hn
    exact (and_iff_left hall).symm

theorem Watched.step (hrover : Literal [roverID])
    (h : Watched roverID start ps a) (n : Nat) (now : Timestamp) :
    Watched roverID start (ps ++ [(n, now)]) (a.step roverID (.poll n now)) ∧
      (a.step roverID (.poll n now)).watcher = ⟨true, decide (0 < n)⟩ := by
  obtain ⟨last, hwatcher⟩ := h.watcher
  by_cases hsame : decide (0 < n) = last
  · -- no change: what was seen of the alert stays true
    have hkept : a.watcher = ⟨true, decide (0 < n)⟩ := hwatcher.trans (by rw [hsame])
    rw [step_quiet now (poll_same hkept)]
    refine ⟨⟨⟨_, hkept⟩, fun hlast => ?_, fun hlast => ?_⟩, hkept⟩
    · obtain ⟨p, hp, hzero⟩ := h.lost hlast
      exact ⟨p, List.mem_append_left _ hp, hzero⟩
    have hn : 0 < n := by
      rw [hkept] at hlast
      simpa using hlast
    rw [forall_mem_concat now hn]
    exact h.connected hlast
  · obtain ⟨hafter, hdisconnected⟩ := step_edge hrover now ((congrArg (·.poll n) hwatcher).trans (poll_edge hsame))
    refine ⟨⟨⟨_, hafter⟩, fun hlast => ?_, fun hlast => ?_⟩, hafter⟩
    · refine ⟨_, List.mem_append_right _ List.mem_cons_self, ?_⟩
      rw [hafter] at hlast
      simpa using hlast
    -- back again after a poll without the proxy: the alert was resolved just now
    have hn : 0 < n := by
      rw [hafter] at hlast
      simpa using hlast
    rw [if_pos hn] at hdisconnected
    rw [decide_eq_true hn] at hsame
    have hlost : a.watcher.last = false := by
      rw [hwatcher]
      exact (Bool.eq_not_of_ne fun heq => hsame heq.symm)
    obtain ⟨p, hp, hzero⟩ := h.lost hlost
    refine iff_of_false (fun hactive => by cases hdisconnected.mp hactive) fun hall => ?_
    have hpos := hall.2 p (List.mem_append_left _ hp)
    omega

theorem run_polls_concat (roverID : String) (start : LeafAgent) (ps : List (Nat × Timestamp)) (n : Nat) (now : Timestamp) :
    start.run roverID (polls (ps ++ [(n, now)])) = (start.run roverID (polls ps)).step roverID (.poll n now) := by
  simp [LeafAgent.run, polls]

theorem watched_run (hrover : Literal [roverID]) (h : start.watcher = {}) (ps : List (Nat × Timestamp))
    (n : Nat) (now : Timestamp) :
    Watched roverID start (ps ++ [(n, now)]) (start.run roverID (polls (ps ++ [(n, now)]))) ∧
      (start.run roverID (polls (ps ++ [(n, now)]))).watcher = ⟨true, decide (0 < n)⟩ := by
  induction ps using List.reverseRecOn generalizing n now with
  | nil => exact watched_first h n now
  | append_singleton ps p ih =>
    rw [run_polls_concat]
    exact (ih p.1 p.2).1.step hrover n now

/-- After any history, restarts included, the agent is started again and polls. A poll that sees the proxy leaves the alert
not active if and only if it was not active at the start of the process, or a poll of the process has
missed the proxy. A poll that misses it right after one that saw it leaves the alert active. -/
theorem alert_cleared_iff (hrover : Literal [roverID]) (a : LeafAgent) (history : List LeafAction)
    (ps : List (Nat × Timestamp)) (n : Nat) (now : Timestamp) :
    (0 < n →
      (¬(a.run roverID (history ++ [.restart] ++ polls (ps ++ [(n, now)]))).Disconnected roverID ↔
        ¬(a.run roverID (history ++ [.restart])).Disconnected roverID ∨ ∃ p ∈ ps, p.1 = 0)) ∧
    ∀ p, ps.getLast? = some p → 0 < p.1 → n = 0 →
      (a.run roverID (history ++ [.restart] ++ polls (ps ++ [(n, now)]))).Disconnected roverID := by
  have hfresh : (a.run roverID (history ++ [.restart])).watcher = {} := by
    rw [LeafAgent.run, List.foldl_append]
    rfl
  have hrun : a.run roverID (history ++ [.restart] ++ polls (ps ++ [(n, now)])) =
      (a.run roverID (history ++ [.restart])).run roverID (polls (ps ++ [(n, now)])) := List.foldl_append
  rw [hrun]
  generalize a.run roverID (history ++ [.restart]) = start at hfresh ⊢
  constructor
  · intro hn
    obtain ⟨hwatched, hwatcher⟩ := watched_run hrover hfresh ps n now
    rw [hwatched.connected (by rw [hwatcher]; exact decide_eq_true hn), forall_mem_concat now hn, not_and_or]
    simp only [not_forall, Nat.not_lt, Nat.le_zero, exists_prop]
  · intro p hlast hp hn
    obtain ⟨init, rfl⟩ := List.getLast?_eq_some_iff.mp hlast
    obtain ⟨-, hwatcher⟩ := watched_run hrover hfresh init p.1 p.2
    have hedge : (start.run roverID (polls (init ++ [p]))).watcher.poll n = (⟨true, decide (0 < n)⟩, some .onDown) := by
      rw [hwatcher, decide_eq_true hp, poll_edge (by simp [hn]), if_neg (by omega)]
    rw [run_polls_concat]
    exact (step_edge hrover now hedge).2.mpr rfl

theorem alert_cleared_iff_flap :
    Literal ["rover-1"] ∧
      ¬(LeafAgent.run "rover-1" { store := ∅ } ([] ++ [.restart] ++ polls [(1, ⟨0, 0⟩), (0, ⟨2, 0⟩), (1, ⟨4, 0⟩)])).Disconnected
        "rover-1" := by
  have hrover : Literal ["rover-1"] := by decide
  refine ⟨hrover, ?_⟩
  have hiff := (alert_cleared_iff hrover { store := ∅ } [] [(1, ⟨0, 0⟩), (0, ⟨2, 0⟩)] 1 ⟨4, 0⟩).1 (by decide)
  exact hiff.mpr (.inr ⟨(0, ⟨2, 0⟩), by decide, rfl⟩)

/-- The proxy goes, the agent restarts, and the proxy is there at every poll since: the alert is still active. -/
theorem alert_survives_restart :
    (LeafAgent.run "rover-1" { store := ∅ }
      ([.poll 1 ⟨0, 0⟩, .poll 0 ⟨2, 0⟩] ++ [.restart] ++ polls [(1, ⟨10, 0⟩), (1, ⟨12, 0⟩), (1, ⟨14, 0⟩)])).Disconnected
      "rover-1" := by
  decide +kernel

end Waypoint.Agent
