import Mathlib.Algebra.BigOperators.Group.List.Basic
import Mathlib.Data.UInt
import Waypoint.Base.Periodic
import Waypoint.Base.Run

/-!
# The simulated clock in controlled mode

`util/Clock.cpp`: the control loop sleeps until time has been granted, consumes up to one slice of it and makes a pass.
-/

namespace Waypoint.Core

open Base

/-- Virtual time in milliseconds. -/
structure SimClock where
  consumed : Nat := 0
  pendingMs : Nat := 0
  awaitingTickPass : Bool := false
  stopped : Bool := false

namespace SimClock

variable (c : SimClock)

def now : Nat := c.consumed

/-- `sleepFor` up to its wait: reaching it proves that the pass after the last slice was made. -/
def enterSleep : SimClock := { c with awaitingTickPass := false }

def mayWake : Bool := 0 < c.pendingMs || c.stopped

def takeSlice (d : Nat) : SimClock :=
  if c.stopped then c
  else
    let step := min c.pendingMs d
    { c with
      pendingMs := c.pendingMs - step
      consumed := c.consumed + step
      awaitingTickPass := if c.pendingMs - step = 0 then true else c.awaitingTickPass }

def grant (advanceMs : UInt64) : SimClock := { c with pendingMs := (c.pendingMs + advanceMs.toNat) % 2 ^ 64 }

def mayReturn : Bool := (c.pendingMs = 0 && !c.awaitingTickPass) || c.stopped

def stop : SimClock := { c with stopped := true }

end SimClock

/-- Where the control loop stands: between its sleep and the reading of the clock, in a pass with that reading, or waiting in `sleepFor`. -/
inductive LoopAt
  | top
  | pass (now : Nat)
  | sleeping
  deriving DecidableEq

/-- A pass that the loop has completed: the clock at its beginning and at its end, and how many grants had been made when it began. -/
structure Pass where
  began : Nat
  ended : Nat
  grants : Nat

/-- The clock between the loop and the granting thread. `grants`, `begun` and `passes` keep what has happened. -/
structure SimThreads (β : Type) where
  clock : SimClock := {}
  loop : LoopAt := .top
  waiting : Bool := false
  work : β
  grants : List Nat := []
  begun : Nat := 0
  passes : List Pass := []

namespace SimThreads

variable {β : Type}

/-- One section under the mutex, of the loop, of the granting thread or of whoever stops the clock. -/
inductive Act
  | readNow
  | sleep
  | wakeLoop
  | grant (advanceMs : UInt64)
  | wakeGranter
  | stop

def slice : Nat := 5

def checkLoop (s : SimThreads β) : SimThreads β :=
  if s.clock.mayWake then { s with clock := s.clock.takeSlice slice, loop := .top, begun := s.grants.length }
  else { s with loop := .sleeping }

def checkGranter (s : SimThreads β) : SimThreads β := { s with waiting := !s.clock.mayReturn }

def finishPass (pass : Nat → β → β) (t : Nat) (s : SimThreads β) : SimThreads β :=
  { s with
    clock := s.clock.enterSleep
    work := pass t s.work
    passes := s.passes ++ [⟨t, s.clock.now, s.begun⟩] }

def next (pass : Nat → β → β) (s : SimThreads β) : Act → Option (SimThreads β)
  | .readNow =>
    match s.loop with
    | .top => some { s with loop := .pass s.clock.now }
    | _ => none
  | .sleep =>
    match s.loop with
    | .pass t => some (s.finishPass pass t).checkLoop
    | _ => none
  | .wakeLoop =>
    match s.loop with
    | .sleeping => some s.checkLoop
    | _ => none
  | .grant advanceMs =>
    if s.waiting then none
    else
      some { s with clock := s.clock.grant advanceMs, grants := s.grants ++ [advanceMs.toNat] }.checkGranter
  | .wakeGranter => if s.waiting then some s.checkGranter else none
  | .stop => some { s with clock := s.clock.stop }

/-- The event lets the grant return. -/
def Returns (pass : Nat → β → β) (s : SimThreads β) (e : Act) (s' : SimThreads β) : Prop :=
  s.next pass e = some s' ∧ s'.waiting = false ∧ (s.waiting = true ∨ ∃ advanceMs, e = .grant advanceMs)

variable {pass : Nat → β → β} {s s' : SimThreads β} {e : Act}

theorem next_cases (h : s.next pass e = some s') :
    (e = .readNow ∧ s.loop = .top ∧ s' = { s with loop := .pass s.clock.now }) ∨
      (e = .sleep ∧ ∃ t, s.loop = .pass t ∧ s' = (s.finishPass pass t).checkLoop) ∨
      (e = .wakeLoop ∧ s.loop = .sleeping ∧ s' = s.checkLoop) ∨
      (∃ a, e = .grant a ∧ s.waiting = false ∧
        s' = { s with clock := s.clock.grant a, grants := s.grants ++ [a.toNat] }.checkGranter) ∨
      (e = .wakeGranter ∧ s.waiting = true ∧ s' = s.checkGranter) ∨
      (e = .stop ∧ s' = { s with clock := s.clock.stop }) := by
  cases e with
  | readNow =>
    cases hloop : s.loop <;> simp only [next, hloop, reduceCtorEq, Option.some.injEq] at h
    exact .inl ⟨rfl, rfl, h.symm⟩
  | sleep =>
    cases hloop : s.loop <;> simp only [next, hloop, reduceCtorEq, Option.some.injEq] at h
    exact .inr (.inl ⟨rfl, _, rfl, h.symm⟩)
  | wakeLoop =>
    cases hloop : s.loop <;> simp only [next, hloop, reduceCtorEq, Option.some.injEq] at h
    exact .inr (.inr (.inl ⟨rfl, rfl, h.symm⟩))
  | grant a =>
    rw [next, Option.ite_none_left_eq_some] at h
    exact .inr (.inr (.inr (.inl ⟨a, rfl, by simpa using h.1, (Option.some.inj h.2).symm⟩)))
  | wakeGranter =>
    rw [next, Option.ite_none_right_eq_some] at h
    exact .inr (.inr (.inr (.inr (.inl ⟨rfl, h.1, (Option.some.inj h.2).symm⟩))))
  | stop => exact .inr (.inr (.inr (.inr (.inr ⟨rfl, (Option.some.inj h).symm⟩))))

/-- A pass of the loop has run at the time of the last grant. -/
def Served (s : SimThreads β) : Prop :=
  ∀ a ∈ s.grants.getLast?, 0 < a →
    ∃ p ∈ s.passes, p.began = s.grants.sum ∧ p.ended = s.grants.sum ∧ p.grants = s.grants.length

/-- What holds until the clock is stopped. -/
structure Exact (s : SimThreads β) : Prop where
  total : s.clock.consumed + s.clock.pendingMs = s.grants.sum
  idle : s.waiting = false → s.clock.pendingMs = 0 ∧ s.clock.awaitingTickPass = false
  /-- the last slice has been taken, and the pass after it is not yet done -/
  final : s.clock.awaitingTickPass = true → s.clock.pendingMs = 0 ∧ s.loop ≠ .sleeping ∧ s.begun = s.grants.length
  reading : ∀ t, s.loop = .pass t → t = s.clock.consumed
  served : s.clock.pendingMs = 0 → s.clock.awaitingTickPass = false → s.Served

theorem running_of_next (h : s.next pass e = some s') (hrunning : s'.clock.stopped = false) : s.clock.stopped = false := by
  have hcheck : ∀ m : SimThreads β, m.checkLoop.clock.stopped = m.clock.stopped := fun m => by
    unfold checkLoop SimClock.takeSlice
    split
    · dsimp only
      split <;> rfl
    · rfl
  obtain ⟨-, -, rfl⟩ | ⟨-, t, -, rfl⟩ | ⟨-, -, rfl⟩ | ⟨a, -, -, rfl⟩ | ⟨-, -, rfl⟩ | ⟨-, rfl⟩ := next_cases h
  · exact hrunning
  · rwa [hcheck] at hrunning
  · rwa [hcheck] at hrunning
  · exact hrunning
  · exact hrunning
  · cases hrunning

theorem checkLoop_of_pending (hrunning : s.clock.stopped = false) (hpending : 0 < s.clock.pendingMs) :
    s.checkLoop =
      { s with
        clock := { s.clock with
          pendingMs := s.clock.pendingMs - min s.clock.pendingMs slice
          consumed := s.clock.consumed + min s.clock.pendingMs slice
          awaitingTickPass := if s.clock.pendingMs - min s.clock.pendingMs slice = 0 then true else s.clock.awaitingTickPass }
        loop := .top
        begun := s.grants.length } := by
  have hwake : s.clock.mayWake = true := by simp [SimClock.mayWake, hpending]
  rw [checkLoop, if_pos hwake, SimClock.takeSlice, if_neg (by simp [hrunning])]

theorem checkLoop_of_none (hrunning : s.clock.stopped = false) (hnone : s.clock.pendingMs = 0) :
    s.checkLoop = { s with loop := .sleeping } := by
  have hwait : ¬s.clock.mayWake = true := by simp [SimClock.mayWake, hnone, hrunning]
  rw [checkLoop, if_neg hwait]

theorem settled_of_returned (hrunning : s.clock.stopped = false) (h : s.checkGranter.waiting = false) :
    s.clock.pendingMs = 0 ∧ s.clock.awaitingTickPass = false := by
  simpa [checkGranter, SimClock.mayReturn, hrunning] using h

namespace Exact

theorem checkLoop (hrunning : s.clock.stopped = false) (hclear : s.clock.awaitingTickPass = false)
    (htotal : s.clock.consumed + s.clock.pendingMs = s.grants.sum)
    (hidle : s.waiting = false → s.clock.pendingMs = 0) (hserved : s.clock.pendingMs = 0 → s.Served) :
    s.checkLoop.Exact := by
  rcases Nat.eq_zero_or_pos s.clock.pendingMs with hnone | hpending
  · rw [checkLoop_of_none hrunning hnone]
    exact {
      total := htotal
      idle := fun _ => ⟨hnone, hclear⟩
      final := fun hwait => by rw [hclear] at hwait; cases hwait
      reading := fun t ht => by cases ht
      served := fun _ _ => hserved hnone }
  · have hslice : 0 < min s.clock.pendingMs slice := Nat.lt_min.mpr ⟨hpending, by decide⟩
    have hle : min s.clock.pendingMs slice ≤ s.clock.pendingMs := Nat.min_le_left _ _
    rw [checkLoop_of_pending hrunning hpending]
    refine { total := ?_, idle := ?_, final := ?_, reading := ?_, served := ?_ }
    · dsimp only
      omega
    · intro hreturned
      have := hidle hreturned
      omega
    · intro hwait
      refine ⟨?_, by simp, rfl⟩
      by_contra hmore
      rw [if_neg hmore, hclear] at hwait
      cases hwait
    · intro t ht
      cases ht
    · intro hnone hwait
      rw [if_pos hnone] at hwait
      cases hwait

theorem finishPass {t : Nat} (hs : s.Exact) (hloop : s.loop = .pass t) (hrunning : s.clock.stopped = false) :
    (s.finishPass pass t).checkLoop.Exact := by
  refine Exact.checkLoop hrunning rfl hs.total (fun hreturned => (hs.idle hreturned).1) fun hnone a ha hpos => ?_
  have hnow := hs.reading t hloop
  cases hwait : s.clock.awaitingTickPass with
  | true =>
    have htotal := hs.total
    rw [(hs.final hwait).1, Nat.add_zero] at htotal
    refine ⟨⟨t, s.clock.now, s.begun⟩, List.mem_append_right _ List.mem_cons_self, ?_, htotal, (hs.final hwait).2.2⟩
    exact hnow.trans htotal
  | false =>
    obtain ⟨p, hp, hserved⟩ := hs.served hnone hwait a ha hpos
    exact ⟨p, List.mem_append_left _ hp, hserved⟩

theorem grant (hs : s.Exact) (hrunning : s.clock.stopped = false) (hreturned : s.waiting = false) (a : UInt64) :
    ({ s with clock := s.clock.grant a, grants := s.grants ++ [a.toNat] } : SimThreads β).checkGranter.Exact := by
  obtain ⟨hnone, hclear⟩ := hs.idle hreturned
  have hpending : (s.clock.pendingMs + a.toNat) % 2 ^ 64 = a.toNat := by
    rw [hnone, Nat.zero_add, Nat.mod_eq_of_lt a.toNat_lt]
  have htotal := hs.total
  refine { total := ?_, idle := ?_, final := ?_, reading := hs.reading, served := ?_ }
  · change s.clock.consumed + (s.clock.pendingMs + a.toNat) % 2 ^ 64 = (s.grants ++ [a.toNat]).sum
    rw [hpending, List.sum_append, List.sum_singleton]
    omega
  · exact settled_of_returned hrunning
  · intro hwait
    rw [show s.clock.awaitingTickPass = true from hwait] at hclear
    cases hclear
  intro hzero _ b hb hpos
  change (s.clock.pendingMs + a.toNat) % 2 ^ 64 = 0 at hzero
  rw [hpending] at hzero
  change b ∈ (s.grants ++ [a.toNat]).getLast? at hb
  have hlast : a.toNat = b := by simpa using hb
  omega

theorem next (hs : s.Exact) (h : s.next pass e = some s') (hrunning' : s'.clock.stopped = false) : s'.Exact := by
  have hrunning := running_of_next h hrunning'
  obtain ⟨-, hloop, rfl⟩ | ⟨-, t, hloop, rfl⟩ | ⟨-, hloop, rfl⟩ | ⟨a, -, hreturned, rfl⟩ | ⟨-, -, rfl⟩ | ⟨-, rfl⟩ :=
    next_cases h
  · exact { hs with
      final := fun hwait => ⟨(hs.final hwait).1, by simp, (hs.final hwait).2.2⟩
      reading := fun t ht => by cases ht; rfl }
  · exact hs.finishPass hloop hrunning
  · have hclear : s.clock.awaitingTickPass = false := by
      by_contra hwait
      exact (hs.final (by simpa using hwait)).2.1 hloop
    exact Exact.checkLoop hrunning hclear hs.total (fun hreturned => (hs.idle hreturned).1) fun hnone => hs.served hnone hclear
  · exact hs.grant hrunning hreturned a
  · exact { hs with idle := settled_of_returned hrunning }
  · cases hrunning'

end Exact

theorem exact_init (work : β) : ({ work } : SimThreads β).Exact where
  total := rfl
  idle _ := ⟨rfl, rfl⟩
  final h := by cases h
  reading t h := by cases h
  served _ _ a ha := by cases ha

theorem exact_run {work : β} {es : List Act} (hrun : Run (Takes (next pass)) { work } es s)
    (hrunning : s.clock.stopped = false) : s.Exact :=
  hrun.invariant (fun s => s.clock.stopped = false → s.Exact)
    (fun _ _ _ hs hstep hrunning => (hs (running_of_next hstep hrunning)).next hstep hrunning) (fun _ => exact_init work)
    hrunning

def Still (s : SimThreads β) : Prop := s.clock.pendingMs = 0 ∨ s.clock.stopped = true

theorem checkLoop_of_still (hs : s.Still) : s.checkLoop.Still ∧ s.checkLoop.clock.now = s.clock.now := by
  cases hrunning : s.clock.stopped with
  | true =>
    have hwake : s.clock.mayWake = true := by simp [SimClock.mayWake, hrunning]
    rw [checkLoop, if_pos hwake, SimClock.takeSlice, if_pos hrunning]
    exact ⟨.inr hrunning, rfl⟩
  | false =>
    have hnone : s.clock.pendingMs = 0 := hs.resolve_right (by simp [hrunning])
    rw [checkLoop_of_none hrunning hnone]
    exact ⟨.inl hnone, rfl⟩

theorem still_next (hs : s.Still) (h : s.next pass e = some s') (hgrant : ∀ a, e ≠ .grant a) :
    s'.Still ∧ s'.clock.now = s.clock.now := by
  obtain ⟨-, -, rfl⟩ | ⟨-, t, -, rfl⟩ | ⟨-, -, rfl⟩ | ⟨a, rfl, -⟩ | ⟨-, -, rfl⟩ | ⟨-, rfl⟩ := next_cases h
  · exact ⟨hs, rfl⟩
  · exact checkLoop_of_still (s := s.finishPass pass t) hs
  · exact checkLoop_of_still hs
  · exact absurd rfl (hgrant a)
  · exact ⟨hs, rfl⟩
  · exact ⟨.inr rfl, rfl⟩

theorem now_of_still {es : List Act} (hs : s.Still) (hrun : Run (Takes (next pass)) s es s')
    (hgrant : ∀ a, .grant a ∉ es) : s'.clock.now = s.clock.now := by
  induction hrun with
  | nil s => rfl
  | @cons s m s' e es hstep _ ih =>
    obtain ⟨hstill, hnow⟩ := still_next hs hstep fun a heq => hgrant a (heq ▸ List.mem_cons_self)
    rw [ih hstill fun a ha => hgrant a (List.mem_cons_of_mem _ ha), hnow]

end SimThreads

open SimThreads in
/-- When a grant of some time returns, the clock shows the sum of the grants, a pass at that time has been made since the grant, and no time passes until the next grant. -/
theorem grants_exact {β : Type} {pass : Nat → β → β} {work : β} {es : List SimThreads.Act} {s s' : SimThreads β}
    {e : SimThreads.Act} {a : Nat} (hrun : Run (Takes (SimThreads.next pass)) { work } es s)
    (hreturn : s.Returns pass e s') (hlast : s'.grants.getLast? = some a) (hpos : 0 < a)
    (hrunning : s'.clock.stopped = false) :
    s'.clock.now = s'.grants.sum ∧
      (∃ p ∈ s'.passes, p.began = s'.grants.sum ∧ p.ended = s'.grants.sum ∧ p.grants = s'.grants.length) ∧
      ∀ es' s'', Run (Takes (SimThreads.next pass)) s' es' s'' → (∀ b, .grant b ∉ es') → s''.clock.now = s'.clock.now := by
  have hexact := exact_run (hrun.append (.cons hreturn.1 (.nil s'))) hrunning
  obtain ⟨hnone, hclear⟩ := hexact.idle hreturn.2.1
  refine ⟨?_, hexact.served hnone hclear a hlast hpos, fun es' s'' hrest hgrant => now_of_still (.inl hnone) hrest hgrant⟩
  have htotal := hexact.total
  rwa [hnone, Nat.add_zero] at htotal

def sevenMs : List SimThreads.Act := [.readNow, .grant 7, .sleep, .readNow, .wakeGranter, .sleep, .readNow, .sleep]

theorem grants_exact_sevenMs :
    ∃ s s' : SimThreads Unit, Run (Takes (SimThreads.next fun _ w => w)) { work := () } sevenMs s ∧
      s.Returns (fun _ w => w) .wakeGranter s' ∧ s'.clock.now = 7 ∧ s'.passes = [⟨0, 0, 0⟩, ⟨5, 5, 1⟩, ⟨7, 7, 1⟩] := by
  have hrun : ∃ s s' : SimThreads Unit, Run (Takes (SimThreads.next fun _ w => w)) { work := () } sevenMs s ∧
      s.Returns (fun _ w => w) .wakeGranter s' ∧ s'.grants = [7] ∧ s'.clock.stopped = false ∧
      s'.passes = [⟨0, 0, 0⟩, ⟨5, 5, 1⟩, ⟨7, 7, 1⟩] :=
    ⟨_, _, run_takes_iff.mpr rfl, ⟨rfl, rfl, .inl rfl⟩, rfl, rfl, rfl⟩
  obtain ⟨s, s', hrun, hreturn, hgrants, hrunning, hpasses⟩ := hrun
  have hexact := grants_exact hrun hreturn (by rw [hgrants]; rfl) (by decide : 0 < 7) hrunning
  refine ⟨s, s', hrun, hreturn, ?_, hpasses⟩
  rw [hexact.1, hgrants]
  rfl

end Waypoint.Core
