import Mathlib.Logic.Function.Iterate
import Waypoint.Base.Run
import Waypoint.Core.ModeMachine

/-!
# The mode machine under two threads

The calls of `mode/ModeMachine.cpp` one field access at a time.
-/

namespace Waypoint.Core

open Base

/-- The next access of a call. The last four belong to `transition`. -/
inductive ModePc
  /-- `mode_ == Mode::Estop` in `requestSetMode` -/
  | setModeCheck (target : Mode)
  /-- `!heartbeatOk_` in `requestSetMode` -/
  | setModeBeat (target : Mode)
  /-- `mode_ == Mode::Estop` in `requestRecover` -/
  | recoverCheck
  /-- `heartbeatOk_ = true` -/
  | restore
  /-- `heartbeatOk_ = false` -/
  | lose
  /-- `mode_ == Mode::Manual` in `onHeartbeatLost` -/
  | lostManual
  /-- `mode_ == Mode::Autonomous` in `onHeartbeatLost` -/
  | lostAutonomous
  /-- `to == mode_` -/
  | compare (target : Mode)
  /-- `old = mode_` -/
  | readOld (target : Mode)
  /-- `mode_ = to` -/
  | write (target : Mode)
  /-- the argument `mode_` of the callback -/
  | readNow
  /-- nothing left but to return -/
  | done
  deriving DecidableEq

namespace ModePc

def access (m : ModeMachine) : ModePc → ModePc × ModeMachine
  | setModeCheck target =>
    (if m.mode = .estop then done else if target.actuating then setModeBeat target else compare target, m)
  | setModeBeat target => (if m.heartbeatOk then compare target else done, m)
  | recoverCheck => (if m.mode = .estop then compare .safe else done, m)
  | restore => (done, { m with heartbeatOk := true })
  | lose => (lostManual, { m with heartbeatOk := false })
  | lostManual => (if m.mode = .manual then compare .safe else lostAutonomous, m)
  | lostAutonomous => (if m.mode = .autonomous then compare .safe else done, m)
  | compare target => (if target = m.mode then done else readOld target, m)
  | readOld target => (write target, m)
  | write target => (readNow, { m with mode := target })
  | readNow => (done, m)
  | done => (done, m)

theorem access_mode {m : ModeMachine} {pc : ModePc} (h : ∀ target, pc ≠ write target) :
    (pc.access m).2.mode = m.mode := by
  cases pc with
  | write target => exact absurd rfl (h target)
  | _ => rfl

end ModePc

inductive ModeCall
  | setMode (target : Mode)
  | estop
  | recover
  | restored
  deriving DecidableEq

namespace ModeCall

def start : ModeCall → ModePc
  | setMode target => .setModeCheck target
  | estop => .compare .estop
  | recover => .recoverCheck
  | restored => .restore

def apply (m : ModeMachine) : ModeCall → ModeMachine
  | setMode target => (m.requestSetMode target).machine
  | estop => m.requestEstop.machine
  | recover => m.requestRecover.machine
  | restored => m.onHeartbeatRestored

end ModeCall

def alone (s : ModePc × ModeMachine) : ModePc × ModeMachine := s.1.access s.2

theorem alone_call (c : ModeCall) (m : ModeMachine) : alone^[6] (c.start, m) = (.done, c.apply m) := by
  obtain ⟨mode, heartbeatOk⟩ := m
  cases c with
  | setMode target => cases mode <;> cases heartbeatOk <;> cases target <;> rfl
  | _ => cases mode <;> rfl

theorem alone_lost (m : ModeMachine) : alone^[7] (.lose, m) = (.done, m.onHeartbeatLost.1) := by
  obtain ⟨mode, heartbeatOk⟩ := m
  cases mode <;> rfl

structure ModeThreads where
  machine : ModeMachine
  nats : Option (ModeCall × ModePc) := none
  loop : Option ModePc := none

/-- What happens next: a thread begins a call, makes an access, or returns. -/
inductive ModeAction
  | call (c : ModeCall)
  | natsAccess
  | returned (c : ModeCall)
  | lostCall
  | loopAccess
  | lostReturned

namespace ModeThreads

def next (s : ModeThreads) : ModeAction → Option ModeThreads
  | .call c => if s.nats = none then some { s with nats := some (c, c.start) } else none
  | .natsAccess =>
    match s.nats with
    | none | some (_, .done) => none
    | some (c, pc) => some { s with nats := some (c, (pc.access s.machine).1), machine := (pc.access s.machine).2 }
  | .returned c => if s.nats = some (c, .done) then some { s with nats := none } else none
  | .lostCall => if s.loop = none then some { s with loop := some .lose } else none
  | .loopAccess =>
    match s.loop with
    | none | some .done => none
    | some pc => some { s with loop := some (pc.access s.machine).1, machine := (pc.access s.machine).2 }
  | .lostReturned => if s.loop = some .done then some { s with loop := none } else none

variable {s t : ModeThreads} {e : ModeAction} {pc : ModePc} {m : ModeMachine}

theorem next_cases (h : s.next e = some t) :
    (∃ c, e = .call c ∧ s.nats = none ∧ t = { s with nats := some (c, c.start) }) ∨
    (∃ c pc, e = .natsAccess ∧ s.nats = some (c, pc) ∧ pc ≠ .done ∧
      t = { s with nats := some (c, (pc.access s.machine).1), machine := (pc.access s.machine).2 }) ∨
    (∃ c, e = .returned c ∧ s.nats = some (c, .done) ∧ t = { s with nats := none }) ∨
    (e = .lostCall ∧ s.loop = none ∧ t = { s with loop := some .lose }) ∨
    (∃ pc, e = .loopAccess ∧ s.loop = some pc ∧ pc ≠ .done ∧
      t = { s with loop := some (pc.access s.machine).1, machine := (pc.access s.machine).2 }) ∨
    (e = .lostReturned ∧ s.loop = some .done ∧ t = { s with loop := none }) := by
  cases e with
  | call c =>
    simp only [next, Option.ite_none_right_eq_some, Option.some_inj] at h
    exact Or.inl ⟨c, rfl, h.1, h.2.symm⟩
  | natsAccess =>
    simp only [next] at h
    split at h
    · cases h
    · cases h
    · rename_i c pc hdone hnats
      cases h
      exact Or.inr (Or.inl ⟨c, pc, rfl, hnats, hdone, rfl⟩)
  | returned c =>
    simp only [next, Option.ite_none_right_eq_some, Option.some_inj] at h
    exact Or.inr (Or.inr (Or.inl ⟨c, rfl, h.1, h.2.symm⟩))
  | lostCall =>
    simp only [next, Option.ite_none_right_eq_some, Option.some_inj] at h
    exact Or.inr (Or.inr (Or.inr (Or.inl ⟨rfl, h.1, h.2.symm⟩)))
  | loopAccess =>
    simp only [next] at h
    split at h
    · cases h
    · cases h
    · rename_i pc hdone hloop
      cases h
      exact Or.inr (Or.inr (Or.inr (Or.inr (Or.inl ⟨pc, rfl, hloop, hdone, rfl⟩))))
  | lostReturned =>
    simp only [next, Option.ite_none_right_eq_some, Option.some_inj] at h
    exact Or.inr (Or.inr (Or.inr (Or.inr (Or.inr ⟨rfl, h.1, h.2.symm⟩))))

/-- The loop does not write its mode over Estop. -/
def Undisturbed (s : ModeThreads) (e : ModeAction) : Prop :=
  e = .loopAccess → s.machine.mode = .estop → ∀ target, s.loop ≠ some (.write target)

theorem estop_of_loopAccess (hok : Undisturbed s .loopAccess)
    (hloop : s.loop = some pc) (hmode : s.machine.mode = .estop) : (pc.access s.machine).2.mode = .estop := by
  rw [ModePc.access_mode, hmode]
  rintro target rfl
  exact hok rfl hmode target hloop

def Stopping (s : ModeThreads) : Prop :=
  ∀ pc, s.nats = some (.estop, pc) →
    pc = .compare .estop ∨ pc = .readOld .estop ∨ pc = .write .estop ∨
      (pc = .readNow ∨ pc = .done) ∧ s.machine.mode = .estop

theorem stopping_next (hok : Undisturbed s e) (h : Stopping s)
    (hnext : s.next e = some t) : Stopping t := by
  intro pc hpc
  rcases next_cases hnext with ⟨c, rfl, -, rfl⟩ | ⟨c, pc', rfl, hnats, -, rfl⟩ | ⟨c, rfl, -, rfl⟩ | ⟨rfl, -, rfl⟩ |
    ⟨pc', rfl, hloop, -, rfl⟩ | ⟨rfl, -, rfl⟩
  · obtain ⟨rfl, rfl⟩ : c = .estop ∧ c.start = pc := by simpa using hpc
    exact Or.inl rfl
  · obtain ⟨rfl, rfl⟩ : c = .estop ∧ (pc'.access s.machine).1 = pc := by simpa using hpc
    rcases h pc' hnats with rfl | rfl | rfl | ⟨rfl | rfl, hmode⟩
    · by_cases hsame : Mode.estop = s.machine.mode
      · simp [ModePc.access, ← hsame]
      · simp [ModePc.access, hsame]
    · simp [ModePc.access]
    · simp [ModePc.access]
    · simp [ModePc.access, hmode]
    · simp [ModePc.access, hmode]
  · cases hpc
  · exact h pc hpc
  · rcases h pc hpc with hpc | hpc | hpc | ⟨hpc, hmode⟩
    · exact Or.inl hpc
    · exact Or.inr (Or.inl hpc)
    · exact Or.inr (Or.inr (Or.inl hpc))
    · exact Or.inr (Or.inr (Or.inr ⟨hpc, estop_of_loopAccess hok hloop hmode⟩))
  · exact h pc hpc

/-- Accesses that leave Estop as it is. -/
def Sticky : ModePc → Prop
  | .setModeCheck _ | .restore | .compare .estop | .readNow | .done => True
  | _ => False

theorem sticky_access (h : Sticky pc) (hmode : m.mode = .estop) :
    Sticky (pc.access m).1 ∧ (pc.access m).2.mode = .estop := by
  cases pc with
  | setModeCheck target => simp [ModePc.access, Sticky, hmode]
  | restore => exact ⟨trivial, hmode⟩
  | compare target =>
    cases target with
    | estop => simp [ModePc.access, Sticky, hmode]
    | _ => exact absurd h id
  | readNow => exact ⟨trivial, hmode⟩
  | done => exact ⟨trivial, hmode⟩
  | _ => exact absurd h id

def Latched (s : ModeThreads) : Prop := s.machine.mode = .estop ∧ ∀ c pc, s.nats = some (c, pc) → Sticky pc

theorem latched_next (hok : Undisturbed s e) (hrecover : e ≠ .call .recover)
    (h : Latched s) (hnext : s.next e = some t) : Latched t := by
  obtain ⟨hmode, hsticky⟩ := h
  rcases next_cases hnext with ⟨c, rfl, -, rfl⟩ | ⟨c, pc, rfl, hnats, -, rfl⟩ | ⟨c, rfl, -, rfl⟩ | ⟨rfl, -, rfl⟩ |
    ⟨pc, rfl, hloop, -, rfl⟩ | ⟨rfl, -, rfl⟩
  · refine ⟨hmode, fun c' pc hpc => ?_⟩
    obtain ⟨rfl, rfl⟩ : c = c' ∧ c.start = pc := by simpa using hpc
    cases c with
    | recover => exact absurd rfl hrecover
    | _ => trivial
  · have haccess := sticky_access (hsticky c pc hnats) hmode
    refine ⟨haccess.2, fun c' pc' hpc => ?_⟩
    obtain ⟨rfl, rfl⟩ : c = c' ∧ (pc.access s.machine).1 = pc' := by simpa using hpc
    exact haccess.1
  · exact ⟨hmode, fun c' pc hpc => by cases hpc⟩
  · exact ⟨hmode, hsticky⟩
  · exact ⟨estop_of_loopAccess hok hloop hmode, hsticky⟩
  · exact ⟨hmode, hsticky⟩

/-- Accesses that write no mode but Safe. -/
def Lowering : ModePc → Prop
  | .lose | .lostManual | .lostAutonomous | .readNow | .done => True
  | .compare target | .readOld target | .write target => target = .safe
  | _ => False

theorem lowering_access (h : Lowering pc) : Lowering (pc.access m).1 := by
  cases pc with
  | lose => trivial
  | lostManual | lostAutonomous | compare =>
    simp only [ModePc.access]
    split <;> trivial
  | readOld target => exact h
  | write target => trivial
  | readNow => trivial
  | done => trivial
  | _ => exact absurd h id

theorem lowering_next (h : ∀ pc, s.loop = some pc → Lowering pc)
    (hnext : s.next e = some t) : ∀ pc, t.loop = some pc → Lowering pc := by
  rcases next_cases hnext with ⟨c, rfl, -, rfl⟩ | ⟨c, pc, rfl, -, -, rfl⟩ | ⟨c, rfl, -, rfl⟩ | ⟨rfl, -, rfl⟩ |
    ⟨pc, rfl, hloop, -, rfl⟩ | ⟨rfl, -, rfl⟩
  · exact h
  · exact h
  · exact h
  · rintro pc ⟨⟩
    trivial
  · rintro pc ⟨⟩
    exact lowering_access (h _ hloop)
  · rintro pc ⟨⟩

theorem latched_of_run {before after : List ModeAction}
    (hrun : Run (Guarded Undisturbed (Takes next)) { machine := m } (before ++ .returned .estop :: after) t)
    (hafter : ModeAction.call .recover ∉ after) : Latched t := by
  obtain ⟨s, hbefore, hrest⟩ := hrun.of_append
  have hstopping : Stopping s := by
    refine hbefore.invariant _ (fun _ _ _ h hstep => stopping_next hstep.1 h hstep.2) ?_
    rintro pc ⟨⟩
  cases hrest with
  | @cons _ u _ _ _ hreturn hafterRun =>
    obtain ⟨hnats, rfl⟩ : s.nats = some (.estop, .done) ∧ { s with nats := none } = u := by
      simpa [Takes, next] using hreturn.2
    have hmode : s.machine.mode = .estop := by
      rcases hstopping _ hnats with h | h | h | ⟨-, hmode⟩
      · cases h
      · cases h
      · cases h
      · exact hmode
    refine hafterRun.invariant_of_allowed (fun e => e ≠ .call .recover)
      (fun _ _ _ hrecover h hstep => latched_next hstep.1 hrecover h hstep.2) ?_ ⟨hmode, ?_⟩
    · rintro e he rfl
      exact hafter he
    · rintro c pc ⟨⟩

/-- As long as the loop has not written over Estop, the mode is Estop from the return of a `requestEstop` until the next
`requestRecover` starts; and the first step that does write over it takes the mode out of Estop. -/
theorem estop_survives_iff_undisturbed {m : ModeMachine} {before after : List ModeAction} {s : ModeThreads}
    (hrun : Run (Guarded Undisturbed (Takes next)) { machine := m } (before ++ .returned .estop :: after) s)
    (hafter : ModeAction.call .recover ∉ after) :
    s.machine.mode = .estop ∧
      ∀ e t, e ≠ .call .recover → s.next e = some t → (t.machine.mode = .estop ↔ Undisturbed s e) := by
  have hlatched := latched_of_run hrun hafter
  refine ⟨hlatched.1, fun e t hrecover hnext => ⟨fun hmode => ?_, fun hok => ?_⟩⟩
  · rintro rfl - target hloop
    have hlowering : ∀ pc, s.loop = some pc → Lowering pc := by
      refine hrun.unguard.invariant (fun s => ∀ pc, s.loop = some pc → Lowering pc)
        (fun _ _ _ h hstep => lowering_next h hstep) ?_
      rintro pc ⟨⟩
    obtain rfl : target = .safe := hlowering _ hloop
    simp only [next, hloop, Option.some_inj] at hnext
    subst hnext
    cases hmode
  · exact (latched_next hok hrecover hlatched hnext).1

/-- The loop finds the heartbeat lost while the E-stop is made, and returns after it. -/
def estopWhileLost : List ModeAction :=
  [.lostCall, .loopAccess, .call .estop, .natsAccess, .loopAccess, .natsAccess, .natsAccess, .natsAccess]

theorem estop_survives_iff_undisturbed_boot :
    ∃ s, Run (Guarded Undisturbed (Takes next)) { machine := {} } (estopWhileLost ++ .returned .estop ::
      [.call (.setMode .manual), .loopAccess, .natsAccess, .lostReturned]) s ∧ s.machine.mode = .estop := by
  have hrun : Run (Guarded Undisturbed (Takes next)) { machine := {} } (estopWhileLost ++ .returned .estop ::
      [.call (.setMode .manual), .loopAccess, .natsAccess, .lostReturned])
      { machine := { mode := .estop, heartbeatOk := false }, nats := some (.setMode .manual, .done) } := by
    iterate 13 refine .cons ⟨nofun, rfl⟩ ?_
    exact .nil _
  exact ⟨_, hrun, (estop_survives_iff_undisturbed hrun (by simp)).1⟩

/-- From boot: a heartbeat, a request for Manual, and a lost heartbeat whose write of Safe comes after the E-stop. -/
theorem estop_overwritten :
    ¬ ∀ (before after : List ModeAction) (t : ModeThreads),
      Run (Takes next) { machine := {} } (before ++ .returned .estop :: after) t →
      ModeAction.call .recover ∉ after → t.machine.mode = .estop := by
  intro h
  have hmode := h
    [.call .restored, .natsAccess, .returned .restored,
      .call (.setMode .manual), .natsAccess, .natsAccess, .natsAccess, .natsAccess, .natsAccess, .natsAccess,
      .returned (.setMode .manual),
      .lostCall, .loopAccess, .loopAccess, .loopAccess, .loopAccess,
      .call .estop, .natsAccess, .natsAccess, .natsAccess, .natsAccess]
    [.loopAccess] { machine := { mode := .safe, heartbeatOk := false }, loop := some .readNow }
    (run_takes_iff.mpr rfl) (by simp)
  cases hmode

end ModeThreads

end Waypoint.Core
