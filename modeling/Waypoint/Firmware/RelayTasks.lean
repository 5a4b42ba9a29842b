import Waypoint.Firmware.FrameObserver

/-!
# The two relay tasks

`firmware/servo-relay/main/relay.c`: one task for each direction.
-/

namespace Waypoint.Firmware

open Base

inductive TaskPc
  | reading
  /-- the timer has been read, `frame_observer_tick` comes next -/
  | ticking (nowUs : UInt64) (buf : List UInt8)
  | feeding (buf : List UInt8)
  deriving DecidableEq

/-- `fedAt` is when the last byte of a direction was fed, by the timer; the firmware does not know it. -/
structure Relay where
  observer : Observer := {}
  tasks : Dir → TaskPc := fun _ => .reading
  timer : UInt64 := 0
  fedAt : Dir → UInt64 := fun _ => 0

inductive RelayAction
  | advance (timer : UInt64)
  | read (task : Dir) (buf : List UInt8)
  | tick (task : Dir)
  | feed (task : Dir)

def relayBufSize : Nat := 128

namespace Relay

def next (s : Relay) : RelayAction → Option Relay
  | .advance timer => if s.timer ≤ timer then some { s with timer := timer } else none
  | .read task buf =>
    if s.tasks task = .reading ∧ buf.length ≤ relayBufSize then
      some { s with tasks := Function.update s.tasks task (.ticking s.timer buf) }
    else none
  | .tick task =>
    match s.tasks task with
    | .ticking nowUs buf =>
      -- nothing is fed where nothing was read
      some { s with
        observer := s.observer.tick nowUs
        tasks := Function.update s.tasks task (if buf = [] then .reading else .feeding buf) }
    | _ => none
  | .feed task =>
    match s.tasks task with
    | .feeding buf =>
      some { s with
        observer := s.observer.feed task buf
        tasks := Function.update s.tasks task .reading
        fedAt := Function.update s.fedAt task s.timer }
    | _ => none

inductive Step (s : Relay) : RelayAction → Relay → Prop
  | advance {timer : UInt64} (hlater : s.timer ≤ timer) : Step s (.advance timer) { s with timer := timer }
  | read {task : Dir} {buf : List UInt8} :
      Step s (.read task buf) { s with tasks := Function.update s.tasks task (.ticking s.timer buf) }
  | tick {task : Dir} {nowUs : UInt64} {buf : List UInt8} (htask : s.tasks task = .ticking nowUs buf) :
      Step s (.tick task) { s with
        observer := s.observer.tick nowUs
        tasks := Function.update s.tasks task (if buf = [] then .reading else .feeding buf) }
  | feed {task : Dir} {buf : List UInt8} (htask : s.tasks task = .feeding buf) :
      Step s (.feed task) { s with
        observer := s.observer.feed task buf
        tasks := Function.update s.tasks task .reading
        fedAt := Function.update s.fedAt task s.timer }

variable {s t : Relay} {a : RelayAction} {nowUs : UInt64}

theorem step_of_next (h : s.next a = some t) : Step s a t := by
  cases a with
  | advance timer =>
    simp only [next, Option.ite_none_right_eq_some, Option.some_inj] at h
    obtain ⟨hlater, rfl⟩ := h
    exact .advance hlater
  | read task buf =>
    simp only [next, Option.ite_none_right_eq_some, Option.some_inj] at h
    obtain ⟨-, rfl⟩ := h
    exact .read
  | tick task =>
    simp only [next] at h
    split at h
    · rename_i nowUs buf htask
      cases h
      exact .tick htask
    · cases h
  | feed task =>
    simp only [next] at h
    split at h
    · rename_i buf htask
      cases h
      exact .feed htask
    · cases h

/-- The observer's clock is the timer when bytes are fed, and a tick is not told a time before the last byte of a packet under way. -/
def Undelayed (s : Relay) : RelayAction → Prop
  | .tick task => ∀ nowUs buf, s.tasks task = .ticking nowUs buf →
      ∀ dir, (s.observer.lanes dir).dir.state ≠ .huntFf1 → (s.observer.lanes dir).dir.lastByteUs ≤ nowUs
  | .feed _ => s.observer.nowUs = s.timer
  | _ => True

/-- The last byte of a packet under way bears the time at which it was fed, and a task that is to feed has bytes to feed. -/
structure TrueStamps (s : Relay) : Prop where
  stamps : ∀ dir, (s.observer.lanes dir).dir.state ≠ .huntFf1 → (s.observer.lanes dir).dir.lastByteUs = s.fedAt dir
  bytes : ∀ task buf, s.tasks task = .feeding buf → buf ≠ []

theorem stamp_tick {l : Lane} (h : (l.tick nowUs).dir.state ≠ .huntFf1) : l.tick nowUs = l := by
  unfold Lane.tick at h ⊢
  split
  · rename_i hout
    rw [if_pos hout] at h
    exact absurd rfl h
  · rfl

theorem bytes_update {tasks : Dir → TaskPc} (h : ∀ task buf, tasks task = .feeding buf → buf ≠ []) (task : Dir)
    {pc : TaskPc} (hpc : ∀ buf, pc = .feeding buf → buf ≠ []) :
    ∀ task' buf, Function.update tasks task pc task' = .feeding buf → buf ≠ [] := by
  intro task' buf htask'
  by_cases hsame : task' = task
  · subst hsame
    rw [Function.update_self] at htask'
    exact hpc buf htask'
  · rw [Function.update_of_ne hsame] at htask'
    exact h task' buf htask'

theorem trueStamps_step (h : TrueStamps s) (hok : Undelayed s a) (hstep : Step s a t) :
    TrueStamps t := by
  cases hstep with
  | advance hlater => exact ⟨h.stamps, h.bytes⟩
  | @read task buf => exact ⟨h.stamps, bytes_update h.bytes task fun buf' hpc => by cases hpc⟩
  | @tick task nowUs buf htask =>
    refine ⟨fun dir hstate => ?_, bytes_update h.bytes task fun buf' hpc => ?_⟩
    · have hsame : (s.observer.tick nowUs).lanes dir = s.observer.lanes dir := stamp_tick hstate
      rw [hsame] at hstate ⊢
      exact h.stamps dir hstate
    split at hpc
    · cases hpc
    · rename_i hbytes
      cases hpc
      exact hbytes
  | @feed task buf htask =>
    have hclock : s.observer.nowUs = s.timer := hok
    refine ⟨fun dir hstate => ?_, bytes_update h.bytes task fun buf' hpc => by cases hpc⟩
    by_cases hsame : dir = task
    · subst hsame
      dsimp only
      rw [Observer.lanes_feed_self, Lane.feed_eq, if_neg (h.bytes dir buf htask), Function.update_self]
      exact hclock
    · dsimp only at hstate ⊢
      rw [Observer.lanes_feed_of_ne hsame] at hstate ⊢
      rw [Function.update_of_ne hsame]
      exact h.stamps dir hstate

/-- A tick at this time would count in the direction. -/
def Counts (s : Relay) (nowUs : UInt64) (dir : Dir) : Prop :=
  ((s.observer.tick nowUs).lanes dir).counters ≠ (s.observer.lanes dir).counters

instance (s : Relay) (nowUs : UInt64) (dir : Dir) : Decidable (Counts s nowUs dir) :=
  inferInstanceAs (Decidable (_ ≠ _))

theorem timedOut_of_counts {dir : Dir} (h : Counts s nowUs dir) :
    (s.observer.lanes dir).dir.state ≠ .huntFf1 ∧ nowUs - (s.observer.lanes dir).dir.lastByteUs > timeoutUs := by
  have hout : (s.observer.lanes dir).timedOut nowUs = true := by
    by_contra hquiet
    exact h (congrArg Lane.counters (if_neg hquiet))
  simpa [Lane.timedOut] using hout

/-- Where no task is delayed, a direction is counted only if more than 5 ms lie between its last byte and the reading of
the timer that the tick was told. -/
theorem truncation_warranted {actions : List RelayAction} {s : Relay}
    (hrun : Run (Guarded Undelayed (Takes next)) {} actions s) {task : Dir} {nowUs : UInt64} {buf : List UInt8}
    (htask : s.tasks task = .ticking nowUs buf) (hok : Undelayed s (.tick task)) (dir : Dir)
    (hcounts : Counts s nowUs dir) : (s.fedAt dir).toNat + 5000 < nowUs.toNat := by
  have hinit : TrueStamps {} := ⟨fun dir hstate => absurd rfl hstate, fun task buf htask => by cases htask⟩
  have hstamps := hrun.invariant TrueStamps
    (fun s a t h hstep => trueStamps_step h hstep.1 (step_of_next hstep.2)) hinit
  obtain ⟨hstate, hage⟩ := timedOut_of_counts hcounts
  have hnot : (s.observer.lanes dir).dir.lastByteUs ≤ nowUs := hok nowUs buf htask dir hstate
  rw [gt_iff_lt, UInt64.lt_iff_toNat_lt, UInt64.toNat_sub_of_le _ _ hnot, hstamps.stamps dir hstate] at hage
  change 5000 < _ at hage
  omega

theorem truncation_warranted_stalled :
    ∃ s, Run (Guarded Undelayed (Takes next)) {}
        [.read .piToServo [0xFF], .tick .piToServo, .feed .piToServo, .advance 6000, .read .servoToPi []] s ∧
      Counts s 6000 .piToServo ∧ (s.fedAt .piToServo).toNat + 5000 < 6000 := by
  have hrun : ∃ s, Run (Guarded Undelayed (Takes next)) {}
      [.read .piToServo [0xFF], .tick .piToServo, .feed .piToServo, .advance 6000, .read .servoToPi []] s ∧
        s.tasks .servoToPi = .ticking 6000 [] ∧ Undelayed s (.tick .servoToPi) ∧ Counts s 6000 .piToServo := by
    refine ⟨_, .cons ⟨trivial, rfl⟩ (.cons ⟨fun nowUs buf h dir hstate => absurd rfl hstate, rfl⟩
      (.cons ⟨rfl, rfl⟩ (.cons ⟨trivial, rfl⟩ (.cons ⟨trivial, rfl⟩ (.nil _))))), rfl, ?_, by decide⟩
    intro nowUs buf htask dir hstate
    cases htask
    cases dir <;> decide
  obtain ⟨s, hrun, htask, hok, hcounts⟩ := hrun
  exact ⟨s, hrun, hcounts, truncation_warranted hrun htask hok .piToServo hcounts⟩

/-- A task reads the timer, and the other reads it 10 us later and feeds a byte before the first tells its reading: the byte
is counted as truncated by a reading that is older than the byte. -/
theorem truncated_by_late_tick :
    ∃ s, Run (Takes next) {} [.read .piToServo [], .advance 10, .read .servoToPi [0xFF], .tick .servoToPi, .feed .servoToPi] s ∧
      s.tasks .piToServo = .ticking 0 [] ∧ Counts s 0 .servoToPi ∧ ¬(s.fedAt .servoToPi).toNat + 5000 < (0 : UInt64).toNat :=
  ⟨_, run_takes_iff.mpr rfl, rfl, by decide, by decide⟩

end Relay

end Waypoint.Firmware
