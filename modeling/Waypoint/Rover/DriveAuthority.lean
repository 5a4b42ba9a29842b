import Mathlib.Logic.Function.Basic
import Waypoint.Core.Supervisor

/-!
# Who drives the rover

Modules, the agent's drive broker, operators and core, connected by the subjects they talk on.
-/

namespace Waypoint.Rover

open Base Waypoint.Core

inductive Publisher
  | operator
  | broker (moduleID : String)

inductive Request
  | heartbeat
  | setMode (payload : Option Int)
  | estop
  | recover
  | loop

def Request.event : Request → Event Unit
  | .heartbeat => .heartbeat
  | .setMode payload => .setMode payload
  | .estop => .estop
  | .recover => .recover
  | .loop => .loop ()

/-- Core with the last drive command it accepted, the broker, and the queues between the parties. A payload is `none` if it does not parse. -/
structure DriveSystem where
  core : Supervisor
  accepted : Option (Publisher × BodyVel) := none
  /-- the broker's copy of the mode, unspecified until the first event -/
  brokerMode : Option Mode := none
  subscribed : String → Bool := fun _ => false
  /-- a command that has passed the mode gate and is not published yet, by module -/
  relaying : String → Option BodyVel := fun _ => none
  moduleCmds : String → List (Option BodyVel) := fun _ => []
  cmdDrive : List (Publisher × Option BodyVel) := []
  eventMode : List Mode := []

inductive DriveAction
  | start (moduleID : String)
  | stop (moduleID : String)
  | moduleDrive (moduleID : String) (payload : Option BodyVel)
  | relayCheck (moduleID : String)
  | relayPublish (moduleID : String)
  | learnMode
  | operatorDrive (payload : Option BodyVel)
  | takeDrive (now : TimePoint)
  | request (now : TimePoint) (r : Request)
  | announce

namespace DriveSystem

def boot : DriveSystem := { core := Supervisor.entry, eventMode := [Supervisor.entry.mode] }

variable (s : DriveSystem)

def handleDrive (now : TimePoint) (p : Publisher) (payload : Option BodyVel) : DriveSystem :=
  { s with
    core := s.core.step true (⟨now, .cmdDrive payload⟩ : Stamped Unit)
    accepted := if s.core.mode.actuating then (payload.map (p, ·)).or s.accepted else s.accepted }

def handleRequest (now : TimePoint) (r : Request) : DriveSystem :=
  let core := s.core.step true ⟨now, r.event⟩
  { s with core, eventMode := if core.mode = s.core.mode then s.eventMode else s.eventMode ++ [core.mode] }

def next : DriveAction → Option DriveSystem
  | .start id => some { s with subscribed := Function.update s.subscribed id true }
  | .stop id =>
    some { s with
      subscribed := Function.update s.subscribed id false
      moduleCmds := Function.update s.moduleCmds id [] }
  | .moduleDrive id payload =>
    some (if s.subscribed id then
      { s with moduleCmds := Function.update s.moduleCmds id (s.moduleCmds id ++ [payload]) } else s)
  -- `relayCmd` up to the mode gate: what does not parse or comes outside Autonomous is dropped
  | .relayCheck id =>
    match s.moduleCmds id, s.relaying id with
    | payload :: rest, none =>
      some { s with
        moduleCmds := Function.update s.moduleCmds id rest
        relaying := Function.update s.relaying id (if s.brokerMode = some .autonomous then payload else none) }
    | _, _ => none
  | .relayPublish id =>
    (s.relaying id).map fun t =>
      { s with relaying := Function.update s.relaying id none, cmdDrive := s.cmdDrive ++ [(.broker id, some t)] }
  | .learnMode =>
    match s.eventMode with
    | [] => none
    | m :: rest => some { s with brokerMode := some m, eventMode := rest }
  | .operatorDrive payload => some { s with cmdDrive := s.cmdDrive ++ [(.operator, payload)] }
  | .takeDrive now =>
    match s.cmdDrive with
    | [] => none
    | (p, payload) :: rest => some (handleDrive { s with cmdDrive := rest } now p payload)
  | .request now r => some (s.handleRequest now r)
  | .announce => some { s with eventMode := s.eventMode ++ [s.core.mode] }

/-- In Manual, a target other than zero is the twist of an operator's command. -/
def OperatorDrives : Prop :=
  s.core.mode = .manual → s.core.target ≠ {} → s.accepted = some (.operator, s.core.target)

/-- Core does not take a relayed command that asks for motion while it is in Manual. -/
def NoStaleRelay : DriveAction → Prop
  | .takeDrive _ => s.core.mode = .manual → ∀ id t, s.cmdDrive.head? = some (.broker id, some t) → t = {}
  | _ => True

end DriveSystem

/-- The target is cleared, or stays with the mode it was set in. -/
def TargetKept (a b : Supervisor) : Prop := b.target = {} ∨ b.target = a.target ∧ b.mode = a.mode

theorem targetKept_settle {a : Supervisor} {m : ModeMachine} {change : Option Change}
    (hchange : change = ModeMachine.changeOf a.mode m.mode) : TargetKept a (Supervisor.settle true m change a) := by
  subst hchange
  unfold ModeMachine.changeOf
  by_cases hsame : a.mode = m.mode
  · rw [if_pos hsame]
    exact .inr ⟨rfl, hsame.symm⟩
  · rw [if_neg hsame]
    exact .inl rfl

theorem targetKept_loop (a : Supervisor) (now : TimePoint) :
    TargetKept a (Supervisor.checkDrive true now (Supervisor.checkHeartbeat true now a)) := by
  have hdrive : ∀ b : Supervisor, TargetKept b (Supervisor.checkDrive true now b) := by
    intro b
    cases hfired : (b.driveSafety.tickAndCheck now).1 with
    | false =>
      rw [Supervisor.checkDrive_of_quiet hfired]
      exact .inr ⟨rfl, rfl⟩
    | true =>
      rw [Supervisor.checkDrive_of_fired hfired]
      exact .inl rfl
  cases hfired : (a.wd.tickAndCheck now).1 with
  | false =>
    rw [Supervisor.checkHeartbeat_of_quiet hfired]
    exact hdrive a
  | true =>
    -- a lost heartbeat clears the target, and nothing after it sets one
    rw [Supervisor.checkHeartbeat_of_fired hfired, if_pos rfl]
    rcases hdrive _ with hnone | ⟨hsame, -⟩
    · exact .inl hnone
    · exact .inl hsame

theorem targetKept_request (a : Supervisor) (now : TimePoint) (r : Request) :
    TargetKept a (a.step true ⟨now, r.event⟩) := by
  cases r with
  | heartbeat => exact .inr ⟨rfl, rfl⟩
  | setMode payload =>
    cases payload with
    | none => exact .inr ⟨rfl, rfl⟩
    | some raw =>
      refine targetKept_settle ?_
      unfold Supervisor.setModeRequest
      split
      · exact a.machine.requestEstop_spec.1
      · exact (a.machine.requestSetMode_spec _).1
  | estop => exact targetKept_settle a.machine.requestEstop_spec.1
  | recover => exact targetKept_settle a.machine.requestRecover_spec.1
  | loop => exact targetKept_loop a now

namespace DriveSystem

variable {s t : DriveSystem} {a : DriveAction}

theorem operatorDrives_of_targetKept (h : s.OperatorDrives) (hkept : TargetKept s.core t.core)
    (haccepted : t.accepted = s.accepted) : t.OperatorDrives := by
  intro hmode htarget
  rcases hkept with hnone | ⟨hsame, hmodes⟩
  · exact absurd hnone htarget
  · rw [haccepted, hsame]
    exact h (hmodes ▸ hmode) (hsame ▸ htarget)

theorem next_cases (h : s.next a = some t) :
    (TargetKept s.core t.core ∧ t.accepted = s.accepted ∧ s.NoStaleRelay a) ∨
      ∃ now p payload rest, a = .takeDrive now ∧ s.cmdDrive = (p, payload) :: rest ∧
        t = handleDrive { s with cmdDrive := rest } now p payload := by
  have hsame : TargetKept s.core s.core := .inr ⟨rfl, rfl⟩
  cases a with
  | takeDrive now =>
    simp only [next] at h
    split at h
    · cases h
    · rename_i p payload rest hqueue
      cases h
      exact .inr ⟨now, p, payload, rest, rfl, hqueue, rfl⟩
  | request now r =>
    cases h
    exact .inl ⟨targetKept_request s.core now r, rfl, trivial⟩
  | moduleDrive id payload =>
    simp only [next] at h
    split at h
    · cases h
      exact .inl ⟨hsame, rfl, trivial⟩
    · cases h
      exact .inl ⟨hsame, rfl, trivial⟩
  | relayCheck id =>
    simp only [next] at h
    split at h
    · cases h
      exact .inl ⟨hsame, rfl, trivial⟩
    · cases h
  | relayPublish id =>
    obtain ⟨twist, -, rfl⟩ := Option.map_eq_some_iff.mp h
    exact .inl ⟨hsame, rfl, trivial⟩
  | learnMode =>
    simp only [next] at h
    split at h
    · cases h
    · cases h
      exact .inl ⟨hsame, rfl, trivial⟩
  | _ =>
    cases h
    exact .inl ⟨hsame, rfl, trivial⟩

theorem handleDrive_cases (s : DriveSystem) (now : TimePoint) (p : Publisher) (payload : Option BodyVel) :
    ((s.handleDrive now p payload).core = s.core ∧ (s.handleDrive now p payload).accepted = s.accepted ∧
        (s.core.mode.actuating = true → payload = none)) ∨
      ∃ twist, payload = some twist ∧ (s.handleDrive now p payload).core.target = twist ∧
        (s.handleDrive now p payload).core.mode = s.core.mode ∧
        (s.handleDrive now p payload).accepted = some (p, twist) := by
  unfold handleDrive
  by_cases hact : s.core.mode.actuating = true
  · cases payload with
    | none =>
      refine .inl ⟨rfl, ?_, fun _ => rfl⟩
      rw [if_pos hact, Option.map_none, Option.none_or]
    | some twist =>
      refine .inr ⟨twist, rfl, ?_⟩
      simp only [Supervisor.step, hact, Bool.and_self, ↓reduceIte, Option.map_some, Option.some_or]
      exact ⟨trivial, rfl, trivial⟩
  · refine .inl ⟨?_, if_neg hact, fun h => absurd h hact⟩
    cases payload with
    | none => rfl
    | some twist => simp only [Supervisor.step, hact, Bool.and_false, Bool.false_eq_true, ↓reduceIte]

theorem operatorDrives_next (h : s.OperatorDrives) (hfresh : s.NoStaleRelay a)
    (hnext : s.next a = some t) : t.OperatorDrives := by
  rcases next_cases hnext with ⟨hkept, haccepted, -⟩ | ⟨now, p, payload, rest, rfl, hqueue, rfl⟩
  · exact operatorDrives_of_targetKept h hkept haccepted
  rcases handleDrive_cases { s with cmdDrive := rest } now p payload with
    ⟨hcore, haccepted, -⟩ | ⟨twist, rfl, htarget, hmode, haccepted⟩
  · exact operatorDrives_of_targetKept h (.inr ⟨by rw [hcore], by rw [hcore]⟩) haccepted
  intro hmanual hmoving
  rw [htarget] at hmoving ⊢
  cases p with
  | operator => exact haccepted
  | broker id =>
    have hhead : s.cmdDrive.head? = some (.broker id, some twist) := by rw [hqueue]; rfl
    exact absurd (hfresh (hmode.symm.trans hmanual) id twist hhead) hmoving

theorem not_operatorDrives_next (hstale : ¬s.NoStaleRelay a)
    (hnext : s.next a = some t) : ¬t.OperatorDrives := by
  intro h
  rcases next_cases hnext with ⟨-, -, hfresh⟩ | ⟨now, p, payload, rest, rfl, hqueue, rfl⟩
  · exact hstale hfresh
  refine hstale fun hmanual id twist hhead => ?_
  rw [hqueue, List.head?_cons] at hhead
  cases hhead
  by_contra hmoving
  rcases handleDrive_cases { s with cmdDrive := rest } now (.broker id) (some twist) with
    ⟨-, -, hnone⟩ | ⟨_, heq, htarget, hmode, haccepted⟩
  · have hact : s.core.mode.actuating = true := by rw [hmanual]; rfl
    cases hnone hact
  cases heq
  -- the relayed twist is the target now, and it is the broker's
  have hdrives := h (hmode.trans hmanual) fun hnone => hmoving (htarget.symm.trans hnone)
  rw [haccepted] at hdrives
  cases hdrives

end DriveSystem

/-- Whatever the interleaving, core's target in Manual is an operator's throughout a run exactly if core takes no relayed motion command in Manual. -/
theorem manual_target_is_operators {s t : DriveSystem} {acts : List DriveAction} (hinit : s.core.target = {})
    (hrun : Run (Takes DriveSystem.next) s acts t) :
    Run (Guarded DriveSystem.NoStaleRelay (Takes DriveSystem.next)) s acts t ↔
      ∀ before m, before <+: acts → Run (Takes DriveSystem.next) s before m → m.OperatorDrives := by
  have hkeep : ∀ (s : DriveSystem) (a : DriveAction) (t : DriveSystem), s.OperatorDrives → s.NoStaleRelay a →
      s.next a = some t → t.OperatorDrives := fun _ _ _ => DriveSystem.operatorDrives_next
  have hstart : s.OperatorDrives := fun _ hmoving => absurd hinit hmoving
  exact run_guarded_iff_good hkeep (fun _ hdrives => hdrives)
    (fun _ _ _ _ hstale hnext => DriveSystem.not_operatorDrives_next hstale hnext) hstart hrun

/-- A module drives in Autonomous, and the operator takes over in Manual. -/
def operatorRun : List DriveAction :=
  [.request 0 .heartbeat, .request 0 (.setMode (some 3)), .learnMode, .learnMode, .start "nav",
    .moduleDrive "nav" (some ⟨1, 0⟩), .relayCheck "nav", .relayPublish "nav", .takeDrive 0,
    .request 0 (.setMode (some 1)), .operatorDrive (some ⟨0, 1⟩), .takeDrive 0]

theorem manual_target_is_operators_operatorRun :
    ∃ t, Run (Takes DriveSystem.next) .boot operatorRun t ∧ t.core.mode = .manual ∧ t.core.target = ⟨0, 1⟩ ∧
      ∀ before m, before <+: operatorRun → Run (Takes DriveSystem.next) .boot before m → m.OperatorDrives := by
  have hguarded : ∃ t, Run (Guarded DriveSystem.NoStaleRelay (Takes DriveSystem.next)) .boot operatorRun t ∧
      t.core.mode = .manual ∧ t.core.target = ⟨0, 1⟩ := by
    refine ⟨_, .cons ⟨trivial, rfl⟩ (.cons ⟨trivial, rfl⟩ (.cons ⟨trivial, rfl⟩ (.cons ⟨trivial, rfl⟩
      (.cons ⟨trivial, rfl⟩ (.cons ⟨trivial, rfl⟩ (.cons ⟨trivial, rfl⟩ (.cons ⟨trivial, rfl⟩ (.cons ⟨nofun, rfl⟩
      (.cons ⟨trivial, rfl⟩ (.cons ⟨trivial, rfl⟩ (.cons ⟨?_, rfl⟩ (.nil _)))))))))))), rfl, rfl⟩
    rintro - id twist hhead
    cases hhead
  obtain ⟨t, hrun, hmode, htarget⟩ := hguarded
  exact ⟨t, hrun.unguard, hmode, htarget, (manual_target_is_operators rfl hrun.unguard).mp hrun⟩

/-- A module's command is relayed in Autonomous and taken after the operator has switched to Manual. -/
def lateRelay : List DriveAction :=
  [.request 0 .heartbeat, .request 0 (.setMode (some 3)), .learnMode, .learnMode, .start "nav",
    .moduleDrive "nav" (some ⟨1, 0⟩), .relayCheck "nav", .relayPublish "nav", .request 0 (.setMode (some 1)), .takeDrive 0]

theorem late_relay_drives_in_manual :
    ∃ t, Run (Takes DriveSystem.next) .boot lateRelay t ∧ t.core.mode = .manual ∧ t.core.target = ⟨1, 0⟩ ∧
      t.accepted = some (.broker "nav", ⟨1, 0⟩) :=
  ⟨_, run_takes_iff.mpr rfl, rfl, rfl, rfl⟩

end Waypoint.Rover
