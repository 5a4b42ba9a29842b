import Waypoint.Agent.Snapshot
import Waypoint.Base.Run

/-!
# The health watcher of a module

Three misses in a row make a module unhealthy, one reply makes it healthy again. Each change starts a goroutine that reports the new value to the snapshot publisher, and nothing orders the goroutines.
-/

namespace Waypoint.Agent

open Base

def healthMissThreshold : Nat := 3

/-- The watcher between two probes. Times are in nanoseconds. -/
structure HealthWatcher where
  healthy : Bool := false
  misses : Nat := 0
  lastSeen : Option Nat := none

/-- One probe, from its error if it has one; with the value that is reported if it has changed. -/
def HealthWatcher.tick (h : HealthWatcher) (err : Option String) (now : Nat) : HealthWatcher × Option Bool :=
  let prev := h.healthy
  let h : HealthWatcher :=
    match err with
    | some _ =>
      let misses := h.misses + 1
      { h with misses, healthy := if misses ≥ healthMissThreshold ∧ h.healthy then false else h.healthy }
    | none => { healthy := true, misses := 0, lastSeen := some now }
  (h, if h.healthy ≠ prev then some h.healthy else none)

theorem tick_cases (h : HealthWatcher) (err : Option String) (now : Nat) :
    ((h.tick err now).2 = none ∧ (h.tick err now).1.healthy = h.healthy) ∨
      ((h.tick err now).2 = some (!h.healthy) ∧ (h.tick err now).1.healthy = !h.healthy) := by
  have hreport : ∀ after : HealthWatcher,
      ((if after.healthy ≠ h.healthy then some after.healthy else none) = none ∧ after.healthy = h.healthy) ∨
        ((if after.healthy ≠ h.healthy then some after.healthy else none) = some (!h.healthy) ∧
          after.healthy = !h.healthy) := by
    intro after
    by_cases hsame : after.healthy = h.healthy
    · rw [if_neg (not_not_intro hsame)]
      exact .inl ⟨rfl, hsame⟩
    · have hother : after.healthy = !h.healthy := Bool.eq_not_of_ne hsame
      rw [if_pos hsame, hother]
      exact .inr ⟨rfl, rfl⟩
  cases err with
  | some e => exact hreport _
  | none => exact hreport _

/-- A watcher wired to the publisher, with the reports that are still under way. Goroutines are numbered as they are started. -/
structure HealthReports where
  watcher : HealthWatcher := {}
  publisher : SnapshotPublisher
  started : Nat := 0
  pending : List (Nat × Bool) := []

inductive HealthAction
  | tick (err : Option String) (now : Nat)
  | report (n : Nat) (now : Nat)

def HealthReports.next (moduleID : String) (s : HealthReports) : HealthAction → Option HealthReports
  | .tick err now =>
    match s.watcher.tick err now with
    | (watcher, none) => some { s with watcher }
    | (watcher, some healthy) =>
      some { s with watcher, started := s.started + 1, pending := s.pending ++ [(s.started, healthy)] }
  | .report n now =>
    (s.pending.lookup n).map fun healthy =>
      { s with publisher := s.publisher.setHealth moduleID healthy now
               pending := s.pending.filter fun e => e.1 ≠ n }

def HealthAction.reported (es : List HealthAction) : List Nat :=
  es.filterMap fun
    | .tick _ _ => none
    | .report n _ => some n

/-- What holds of the watcher and of the reports: the values alternate, and the publisher has that of the last report. -/
structure HealthReports.Alternates (moduleID : String) (s : HealthReports) (last : Option Nat) : Prop where
  watcher : s.watcher.healthy = decide (s.started % 2 = 1)
  pending : ∀ e ∈ s.pending, e.2 = decide (e.1 % 2 = 0)
  published : ∀ n, last = some n → s.publisher.healthy moduleID = decide (n % 2 = 0)
  heard : last = none → s.pending.length = s.started

variable {moduleID : String} {s t : HealthReports} {last : Option Nat}

theorem HealthReports.Alternates.tick (h : s.Alternates moduleID last) {err : Option String} {now : Nat}
    (hstep : s.next moduleID (.tick err now) = some t) : t.Alternates moduleID last := by
  rcases tick_cases s.watcher err now with ⟨hnone, hsame⟩ | ⟨hsome, hother⟩
  · have ht : t = { s with watcher := (s.watcher.tick err now).1 } := by
      rw [HealthReports.next, ← Prod.eta (s.watcher.tick err now), hnone] at hstep
      exact (Option.some.inj hstep).symm
    rw [ht]
    exact ⟨hsame.trans h.watcher, h.pending, h.published, h.heard⟩
  · have ht : t = { s with watcher := (s.watcher.tick err now).1, started := s.started + 1
                           pending := s.pending ++ [(s.started, !s.watcher.healthy)] } := by
      rw [HealthReports.next, ← Prod.eta (s.watcher.tick err now), hsome] at hstep
      exact (Option.some.inj hstep).symm
    have hflip : (!s.watcher.healthy) = decide (s.started % 2 = 0) := by
      rw [h.watcher, ← decide_not]
      congr 1
      exact propext (by omega)
    rw [ht]
    refine ⟨?_, fun e he => ?_, h.published, fun hlast => ?_⟩
    · rw [show (s.watcher.tick err now).1.healthy = _ from hother, hflip]
      congr 1
      exact propext (by dsimp only; omega)
    · rcases List.mem_append.mp he with he | he
      · exact h.pending e he
      · rw [List.mem_singleton.mp he]
        exact hflip
    · rw [List.length_append, h.heard hlast]
      rfl

theorem HealthReports.Alternates.report (h : s.Alternates moduleID last) {n now : Nat}
    (hstep : s.next moduleID (.report n now) = some t) : t.Alternates moduleID (some n) := by
  obtain ⟨healthy, hlookup, rfl⟩ := Option.map_eq_some_iff.mp hstep
  have hmem : (n, healthy) ∈ s.pending := by
    obtain ⟨before, after, hsplit, -⟩ := List.lookup_eq_some_iff.mp hlookup
    rw [hsplit]
    exact List.mem_append_right _ List.mem_cons_self
  refine ⟨h.watcher, fun e he => h.pending e (List.mem_of_mem_filter he), fun k hk => ?_, fun hlast => (by cases hlast)⟩
  cases hk
  exact (Function.update_self ..).trans (h.pending _ hmem)

theorem HealthReports.Alternates.run {es : List HealthAction} (h : s.Alternates moduleID last)
    (hrun : Run (Takes (HealthReports.next moduleID)) s es t) :
    t.Alternates moduleID ((HealthAction.reported es).getLast?.or last) := by
  induction hrun generalizing last with
  | nil s => exact h
  | @cons s m t e es hstep _ ih =>
    cases e with
    | tick err now => exact ih (h.tick hstep)
    | report n now =>
      have hlast : (HealthAction.reported (.report n now :: es)).getLast?.or last =
          (HealthAction.reported es).getLast?.or (some n) := by
        rw [show HealthAction.reported (.report n now :: es) = n :: HealthAction.reported es from rfl, List.getLast?_cons]
        cases (HealthAction.reported es).getLast? <;> rfl
      rw [hlast]
      exact ih (h.report hstep)

/-- The watcher has changed its mind at least once and every report has come in: the publisher has the watcher's value if
and only if the number of changes after the one that was reported last is even. -/
theorem published_health_iff {p : SnapshotPublisher} {es : List HealthAction}
    (hrun : Run (Takes (HealthReports.next moduleID)) { publisher := p } es t) (hchanged : 0 < t.started)
    (hall : t.pending = []) :
    ∃ n, (HealthAction.reported es).getLast? = some n ∧
      (t.publisher.healthy moduleID = t.watcher.healthy ↔ n % 2 = (t.started - 1) % 2) := by
  have hstart : HealthReports.Alternates moduleID { publisher := p } none :=
    ⟨rfl, fun e he => absurd he List.not_mem_nil, fun n hn => (by cases hn), fun _ => rfl⟩
  have halternates := hstart.run hrun
  rw [Option.or_none] at halternates
  cases hlast : (HealthAction.reported es).getLast? with
  | none =>
    have hheard := halternates.heard hlast
    rw [hall, List.length_nil] at hheard
    omega
  | some n =>
    refine ⟨n, rfl, ?_⟩
    rw [halternates.published n hlast, halternates.watcher, decide_eq_decide]
    omega

def noModulesPublisher : SnapshotPublisher :=
  SnapshotPublisher.newSnapshotPublisher "rover-1" (rfl : discover [] (.ok []) = .ok [])

/-- The module comes up and goes silent. -/
def upAndDown : List HealthAction :=
  [.tick none 1, .tick (some "timeout") 2, .tick (some "timeout") 3, .tick (some "timeout") 4]

theorem published_health_iff_upAndDown :
    ∃ t, Run (Takes (HealthReports.next "camera")) { publisher := noModulesPublisher }
        (upAndDown ++ [.report 0 5, .report 1 6]) t ∧
      t.watcher.healthy = false ∧ t.publisher.healthy "camera" = t.watcher.healthy := by
  have hrun : ∃ t, Run (Takes (HealthReports.next "camera")) { publisher := noModulesPublisher }
      (upAndDown ++ [.report 0 5, .report 1 6]) t ∧ t.started = 2 ∧ t.pending = [] ∧ t.watcher.healthy = false :=
    ⟨_, run_takes_iff.mpr rfl, rfl, rfl, rfl⟩
  obtain ⟨t, hrun, htwice, hall, hdown⟩ := hrun
  obtain ⟨n, hlast, hiff⟩ := published_health_iff hrun (by omega) hall
  cases hlast
  rw [htwice] at hiff
  exact ⟨t, hrun, hdown, hiff.mpr rfl⟩

/-- The report of the silence overtakes the other one. -/
theorem published_health_overtaken :
    ∃ t, Run (Takes (HealthReports.next "camera")) { publisher := noModulesPublisher }
        (upAndDown ++ [.report 1 5, .report 0 6]) t ∧
      0 < t.started ∧ t.pending = [] ∧ t.watcher.healthy = false ∧ t.publisher.healthy "camera" = true :=
  ⟨_, run_takes_iff.mpr rfl, by decide, rfl, rfl, rfl⟩

end Waypoint.Agent
