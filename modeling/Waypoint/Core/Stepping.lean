import Mathlib.Algebra.Order.BigOperators.Group.List
import Waypoint.Core.Main
import Waypoint.Core.SimClock

/-!
# Stepping under controlled time

The main loop of `main.cpp` on the simulated clock: four schedules, each with its own deadline that moves by one period a firing.
-/

namespace Waypoint.Core

open Base Periodic

inductive Schedule
  | next50
  | next20
  | next1
  | nextPlat
  deriving DecidableEq

inductive Work
  | simStep
  | driveTick
  | telemetry
  | power
  | announce

namespace Schedule

def period : Schedule → Nat
  | next50 => 20
  | next20 => 50
  | next1 => 1000
  | nextPlat => 5000

/-- What the loop does when the deadline has come; the plant moves before the controller acts. -/
def work (drive : Bool) : Schedule → List Work
  | next50 => .simStep :: if drive then [.driveTick] else []
  | next20 => [.telemetry]
  | next1 => [.power]
  | nextPlat => [.announce]

end Schedule

def Work.schedule : Work → Schedule
  | simStep => .next50
  | driveTick => .next50
  | telemetry => .next20
  | power => .next1
  | announce => .nextPlat

/-- The deadlines since the entry of the loop, and what has been done in the pass at which time. -/
structure LoopWork where
  deadline : Schedule → Nat := fun _ => 0
  log : List (Nat × Work) := []

namespace LoopWork

/-- `if (now >= next) { …; next += period; }` -/
def poll (drive : Bool) (now : Nat) (w : LoopWork) (k : Schedule) : LoopWork :=
  if w.deadline k ≤ now then
    { deadline := Function.update w.deadline k (w.deadline k + k.period)
      log := w.log ++ (k.work drive).map fun work => (now, work) }
  else w

def pass (drive : Bool) (now : Nat) (w : LoopWork) : LoopWork :=
  [Schedule.next50, .next20, .next1, .nextPlat].foldl (poll drive now) w

def entries (k : Schedule) (w : LoopWork) : List (Nat × Work) := w.log.filter fun e => e.2.schedule = k

variable {drive : Bool} {now : Nat} {w : LoopWork} {j k : Schedule}

end LoopWork

namespace SimThreads

variable {β : Type} {pass : Nat → β → β} {work : β} {s s' : SimThreads β} {e : Act}

def times (s : SimThreads β) : List Nat := s.passes.map Pass.began

/-- The passes until the clock is stopped: from the entry of the loop on, each later than the one before by at most a slice. -/
structure Steady (pass : Nat → β → β) (work : β) (s : SimThreads β) : Prop extends s.Exact where
  called : s.waiting = true → s.grants ≠ []
  done : s.work = s.times.foldl (fun w t => pass t w) work
  first : ∀ t ∈ s.times.head?, t = 0
  paced : s.times.IsChain fun t t' => t < t' ∧ t' ≤ t + slice
  asleep : s.loop = .sleeping → s.times.getLast? = some s.clock.consumed
  busy : s.loop ≠ .sleeping →
    (s.times = [] ∧ s.clock.consumed = 0) ∨
      ((0 < s.clock.pendingMs ∨ s.clock.awaitingTickPass = true) ∧
        ∃ t, s.times.getLast? = some t ∧ t < s.clock.consumed ∧ s.clock.consumed ≤ t + slice)

namespace Steady

theorem checkLoop (hexact : s.checkLoop.Exact) (hrunning : s.clock.stopped = false)
    (hcalled : s.waiting = true → s.grants ≠ []) (hdone : s.work = s.times.foldl (fun w t => pass t w) work)
    (hfirst : ∀ t ∈ s.times.head?, t = 0) (hpaced : s.times.IsChain fun t t' => t < t' ∧ t' ≤ t + slice)
    (hlast : s.times.getLast? = some s.clock.consumed) : Steady pass work s.checkLoop := by
  rcases Nat.eq_zero_or_pos s.clock.pendingMs with hnone | hpending
  · rw [checkLoop_of_none hrunning hnone] at hexact ⊢
    exact { toExact := hexact, called := hcalled, done := hdone, first := hfirst, paced := hpaced
            asleep := fun _ => hlast, busy := fun h => absurd rfl h }
  have hslice : 0 < min s.clock.pendingMs slice := Nat.lt_min.mpr ⟨hpending, by decide⟩
  have hle : min s.clock.pendingMs slice ≤ slice := Nat.min_le_right _ _
  rw [checkLoop_of_pending hrunning hpending] at hexact ⊢
  refine { toExact := hexact, called := hcalled, done := hdone, first := hfirst, paced := hpaced
           asleep := fun h => by cases h
           busy := fun _ => .inr ⟨?_, s.clock.consumed, hlast, ?_, ?_⟩ }
  · dsimp only
    by_cases hrest : s.clock.pendingMs - min s.clock.pendingMs slice = 0
    · exact .inr (if_pos hrest)
    · exact .inl (Nat.pos_of_ne_zero hrest)
  · exact Nat.lt_add_of_pos_right hslice
  · exact Nat.add_le_add_left hle _

theorem finishPass {t : Nat} (hs : Steady pass work s) (hloop : s.loop = .pass t) (hrunning : s.clock.stopped = false) :
    Steady pass work (s.finishPass pass t).checkLoop := by
  have hnow := hs.reading t hloop
  have htimes : (s.finishPass pass t).times = s.times ++ [t] := by simp [times, SimThreads.finishPass]
  refine checkLoop (hs.toExact.finishPass hloop hrunning) hrunning hs.called ?_ ?_ ?_ ?_
  · rw [htimes, List.foldl_append, ← hs.done]
    rfl
  · rw [htimes]
    rcases hs.busy (by simp [hloop]) with ⟨hempty, hzero⟩ | ⟨-, t', hlast, -⟩
    · rw [hempty]
      simp [hnow, hzero]
    have hne : s.times ≠ [] := by
      rintro hempty
      rw [hempty] at hlast
      cases hlast
    rw [List.head?_append_of_ne_nil _ hne]
    exact hs.first
  · rw [htimes]
    refine List.isChain_append.mpr ⟨hs.paced, .singleton t, fun t' ht' t'' ht'' => ?_⟩
    cases ht''
    rcases hs.busy (by simp [hloop]) with ⟨hempty, -⟩ | ⟨-, t'', hlast, hlater⟩
    · rw [hempty] at ht'
      cases ht'
    · rw [hlast] at ht'
      cases ht'
      rwa [hnow]
  · rw [htimes, List.getLast?_append, hnow]
    rfl

theorem next (hs : Steady pass work s) (h : s.next pass e = some s') (hrunning' : s'.clock.stopped = false) :
    Steady pass work s' := by
  have hrunning := running_of_next h hrunning'
  have hexact := hs.toExact.next h hrunning'
  obtain ⟨-, hloop, rfl⟩ | ⟨-, t, hloop, rfl⟩ | ⟨-, hloop, rfl⟩ | ⟨a, -, hreturned, rfl⟩ | ⟨-, hwaiting, rfl⟩ | ⟨-, rfl⟩ :=
    next_cases h
  · exact { hs with
      toExact := hexact
      asleep := fun h => by cases h
      busy := fun _ => hs.busy (by simp [hloop]) }
  · exact hs.finishPass hloop hrunning
  · exact checkLoop hexact hrunning hs.called hs.done hs.first hs.paced (hs.asleep hloop)
  · refine { hs with toExact := hexact, called := fun _ => by simp [checkGranter], busy := fun hloop => .inl ?_ }
    -- nothing was granted while the thread was not waiting, so the loop is in its first pass
    obtain ⟨hnone, hclear⟩ := hs.idle hreturned
    refine (hs.busy hloop).resolve_right fun hbusy => ?_
    rcases hbusy.1 with hpending | hwait
    · omega
    · rw [hclear] at hwait
      cases hwait
  · exact { hs with toExact := hexact, called := fun _ => hs.called hwaiting }
  · cases hrunning'

end Steady

theorem Steady.last_of_idle (hs : Steady pass work s) (hidle : s.waiting = false) (hpos : 0 < s.grants.sum) :
    s.times.getLast? = some s.grants.sum := by
  obtain ⟨hnone, hclear⟩ := hs.idle hidle
  have htotal := hs.total
  have hsleeping : s.loop = .sleeping := by
    by_contra hloop
    rcases hs.busy hloop with ⟨-, hzero⟩ | ⟨hpending | hwait, -⟩
    · omega
    · omega
    · rw [hclear] at hwait
      cases hwait
  rw [hs.asleep hsleeping, Option.some_inj]
  omega

end SimThreads

end Waypoint.Core
