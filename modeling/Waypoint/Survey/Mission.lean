import Mathlib.Algebra.Order.Ring.Abs
import Waypoint.Base.Run
import Waypoint.Survey.Engine

/-!
# The mission as its transitions

What a call of the engine does to the course of the mission, apart from the pose, the log and the timers, as a list of transitions, each with the state it starts in.
-/

namespace Waypoint.Survey

open Base Engine

/-- The part of the engine that decides which leg comes next. -/
structure Mission (K : Type) where
  p : Params K
  mode : Mode
  lastModeAt : Time
  state : State
  legs : List (Leg K)
  li : Nat
  counts : Option (List (Int × Nat))
  /-- whether the map of sightings has been made -/
  geom : Bool
  scanDir : Int
  reached : List Bool
  detected : List Int

def Engine.mission {K : Type} (e : Engine K) : Mission K :=
  ⟨e.p, e.mode, e.lastModeAt, e.state, e.legs, e.li, e.senseCounts, e.senseGeom.isSome, e.scanDir, e.wpReached, e.wpDetected⟩

namespace Mission

variable {K : Type}

def Active (m : Mission K) : Prop := m.state = .transit ∨ m.state = .scan ∨ m.state = .sense

def leg (m : Mission K) : Option (Leg K) := m.legs[m.li]?

def armed (m : Mission K) : Mission K :=
  { m with
    legs := buildLegs m.p, li := 0, state := .transit, reached := List.replicate m.p.waypoints.length false
    detected := List.replicate m.p.waypoints.length (-1) }

def reloaded (m : Mission K) (wps : List (Vec K)) (tags : List Int) (start : Pose K) : Mission K :=
  { m with
    p := { m.p with waypoints := wps, tagIDs := tags, start := start }
    legs := [], li := 0, state := .idle, reached := [], detected := [] }

def reach (m : Mission K) (lg : Leg K) : Mission K := { m with reached := mark m.reached lg.wpIndex true }

def scan (m : Mission K) : Mission K := { m with state := .scan, scanDir := 1 }

def dwell (m : Mission K) : Mission K := { m with state := .sense, counts := some [], geom := true }

def best (m : Mission K) : Option Int := bestOf (m.counts.getD [])

def note (m : Mission K) (lg : Leg K) : Mission K :=
  { m with detected := (m.best.map fun id => mark m.detected lg.wpIndex id).getD m.detected }

def advance (m : Mission K) : Mission K :=
  { m with li := m.li + 1, state := if m.legs.length ≤ m.li + 1 then .done else .transit }

def bump (tag : Int) (counts : List (Int × Nat)) (d : Detection K) : List (Int × Nat) :=
  if !tagMatches tag d.id then counts
  else counts.filter (·.1 ≠ d.id) ++ [(d.id, (counts.lookup d.id).getD 0 + 1)]

/-- A call that may leave the mission as it is. -/
def Silent : Call K → Prop
  | .onMode .. => False
  | .onDetections .. => False
  | _ => True

inductive Step (m : Mission K) : Call K → Mission K → Prop
  | stay {c : Call K} (hc : Silent c) : Step m c m
  | onMode (mode : Mode) (now : Time) : Step m (.onMode mode now) { m with mode, lastModeAt := now }
  | arm (now : Time) (hstate : m.state = .idle) (hp : m.p.waypoints ≠ []) :
      Step m (.onMode .autonomous now) { m with mode := .autonomous, lastModeAt := now }.armed
  | reload (wps : List (Vec K)) (tags tags' : List Int) (start : Pose K) (now : Time)
      (hstate : m.state = .idle ∨ m.state = .done) : Step m (.reload wps tags start now) (m.reloaded wps tags' start)
  | reset (now : Time) (hstate : m.state = .done) : Step m (.tick now) { m with state := .idle }
  | reachScan (now : Time) {lg : Leg K} (hstate : m.state = .transit) (hlg : m.leg = some lg) (hsense : lg.sense = true) :
      Step m (.tick now) (m.reach lg).scan
  | reachSense (now : Time) {lg : Leg K} (hstate : m.state = .transit) (hlg : m.leg = some lg) (hsense : lg.sense = true) :
      Step m (.tick now) (m.reach lg).dwell
  | pass (now : Time) {lg : Leg K} (hstate : m.state = .transit) (hlg : m.leg = some lg) (hsense : lg.sense = false) :
      Step m (.tick now) (m.reach lg).advance
  | turn (now : Time) (hstate : m.state = .scan) : Step m (.tick now) { m with scanDir := -1 }
  | find (now : Time) (hstate : m.state = .scan) : Step m (.tick now) m.dwell
  | overlook (dets : List (Detection K)) (now : Time) (hstate : m.state ≠ .sense) : Step m (.onDetections dets now) m
  | count (dets : List (Detection K)) (now : Time) {lg : Leg K} {counts : List (Int × Nat)} (hstate : m.state = .sense)
      (hlg : m.leg = some lg) (hcounts : m.counts = some counts) :
      Step m (.onDetections dets now) { m with counts := some (dets.foldl (bump lg.tag) counts) }
  | leave (now : Time) {lg : Leg K} (hstate : m.state = .sense) (hlg : m.leg = some lg) :
      Step m (.tick now) (m.note lg).advance

/-- The leg index is within the legs while the mission runs, a dwell has its maps, and a scan goes one way or the other. -/
structure Ready (m : Mission K) : Prop where
  within : m.Active → m.li < m.legs.length
  maps : m.state = .sense → m.counts.isSome = true ∧ m.geom = true
  sweep : m.scanDir = -1 ∨ m.scanDir = 0 ∨ m.scanDir = 1

variable {m m' : Mission K} {c : Call K}

theorem buildLegs_ne_nil {p : Params K} (h : p.waypoints ≠ []) : buildLegs p ≠ [] := by
  intro hnil
  rw [buildLegs, List.append_eq_nil_iff, List.map_eq_nil_iff, List.zipIdx_eq_nil_iff] at hnil
  exact h hnil.1

theorem advance_ne_sense : m.advance.state ≠ .sense := by
  change (if m.legs.length ≤ m.li + 1 then State.done else .transit) ≠ .sense
  split <;> simp

theorem Ready.advance (h : m.Ready) : m.advance.Ready := by
  refine ⟨fun hactive => ?_, fun hsense => ?_, h.sweep⟩
  · by_contra hend
    have hdone : m.advance.state = .done := if_pos (not_lt.mp hend)
    rcases hactive with hstate | hstate | hstate <;> cases hdone.symm.trans hstate
  · exact absurd hsense advance_ne_sense

theorem Ready.step (h : m.Ready) (hstep : Step m c m') : m'.Ready := by
  have hidle : ∀ {s : State}, s = .idle → ¬(s = .transit ∨ s = .scan ∨ s = .sense) := by
    rintro s rfl (hs | hs | hs) <;> cases hs
  cases hstep with
  | stay hc => exact h
  | onMode mode now => exact ⟨h.within, h.maps, h.sweep⟩
  | arm now hstate hp => exact ⟨fun _ => List.length_pos_iff.mpr (buildLegs_ne_nil hp), nofun, h.sweep⟩
  | reload wps tags tags' start now hstate => exact ⟨fun hactive => absurd hactive (hidle rfl), nofun, h.sweep⟩
  | reset now hstate => exact ⟨fun hactive => absurd hactive (hidle rfl), nofun, h.sweep⟩
  | reachScan now hstate hlg hsense => exact ⟨fun _ => h.within (.inl hstate), nofun, .inr (.inr rfl)⟩
  | reachSense now hstate hlg hsense => exact ⟨fun _ => h.within (.inl hstate), fun _ => ⟨rfl, rfl⟩, h.sweep⟩
  | @pass now lg hstate hlg hsense =>
    have hreach : (m.reach lg).Ready := ⟨h.within, h.maps, h.sweep⟩
    exact hreach.advance
  | turn now hstate => exact ⟨h.within, h.maps, .inl rfl⟩
  | find now hstate => exact ⟨fun _ => h.within (.inr (.inl hstate)), fun _ => ⟨rfl, rfl⟩, h.sweep⟩
  | overlook dets now hstate => exact h
  | count dets now hstate hlg hcounts => exact ⟨h.within, fun hsense => ⟨rfl, (h.maps hsense).2⟩, h.sweep⟩
  | @leave now lg hstate hlg =>
    have hnote : (m.note lg).Ready := ⟨h.within, h.maps, h.sweep⟩
    exact hnote.advance

end Mission

namespace Engine

section Fields

variable {K : Type} {e e' : Engine K} {lg : Leg K}

@[simp] theorem mission_event (t : Time) (kind detail : String) (e : Engine K) : (e.event t kind detail).mission = e.mission := rfl

@[simp] theorem mission_setState (s : State) (now : Time) (e : Engine K) :
    (e.setState s now).mission = { e.mission with state := s } := by
  unfold setState
  split
  · rename_i h
    rw [h]
    rfl
  · rfl

theorem leg_mission (e : Engine K) : e.mission.leg = e.leg := rfl

theorem mission_arm (now : Time) (e : Engine K) :
    (e.arm now).mission = if e.p.waypoints = [] then e.mission else e.mission.armed := by
  unfold arm
  split
  · rfl
  · rw [mission_event, mission_setState]
    rfl

theorem step_onMode (m : Mode) (now : Time) (e : Engine K) : Mission.Step e.mission (.onMode m now) (e.onMode m now).mission := by
  have hmode : Mission.Step e.mission (.onMode m now) { e with mode := m, lastModeAt := now }.mission := .onMode m now
  unfold onMode
  dsimp only
  split
  · exact hmode
  split
  · rename_i hidle
    rw [mission_arm]
    split
    · exact hmode
    · rename_i hp
      obtain ⟨rfl, hstate⟩ := hidle
      exact .arm now hstate hp
  · exact hmode

theorem reload_cases (wps : List (Vec K)) (tags : List Int) (start : Pose K) (now : Time) (e : Engine K) :
    (∃ err, e.reload wps tags start now = (.error err, e) ∧ (e.state = .idle → tags ≠ [] ∧ tags.length ≠ wps.length)) ∨
    ∃ e', e.reload wps tags start now = (.ok (), e') ∧ (e.state = .idle ∨ e.state = .done) ∧
      e'.mission = e.mission.reloaded wps (if tags = [] then List.replicate wps.length tagAny else tags) start := by
  unfold reload
  split
  · rename_i hactive
    exact .inl ⟨_, rfl, fun hidle => absurd hidle hactive.1⟩
  rename_i hstate
  rw [Ne, not_and_or, not_not, not_not] at hstate
  by_cases hcount : (if tags = [] then List.replicate wps.length tagAny else tags).length = wps.length
  · rw [if_neg (not_not_intro hcount)]
    refine .inr ⟨_, rfl, hstate, ?_⟩
    rw [mission_event, mission_setState]
    rfl
  · rw [if_pos hcount]
    refine .inl ⟨_, rfl, fun _ => ?_⟩
    by_cases htags : tags = []
    · simp [htags] at hcount
    · exact ⟨htags, by rwa [if_neg htags] at hcount⟩

theorem step_reload (wps : List (Vec K)) (tags : List Int) (start : Pose K) (now : Time) (e : Engine K) :
    Mission.Step e.mission (.reload wps tags start now) (e.reload wps tags start now).2.mission := by
  obtain ⟨err, hrefused, -⟩ | ⟨e', htaken, hstate, hmission⟩ := reload_cases wps tags start now e
  · rw [hrefused]
    exact .stay (by trivial)
  · rw [htaken, hmission]
    exact .reload wps tags _ start now hstate

theorem foldlM_countDetection (tag : Int) (dets : List (Detection K)) (e : Engine K) {counts : List (Int × Nat)}
    (hcounts : e.senseCounts = some counts) (hgeom : e.senseGeom.isSome = true) :
    ∃ e', dets.foldlM (countDetection tag) e = some e' ∧
      e'.mission = { e.mission with counts := some (dets.foldl (Mission.bump tag) counts) } := by
  induction dets generalizing e counts with
  | nil => exact ⟨e, rfl, by rw [List.foldl_nil, ← hcounts]; rfl⟩
  | cons d dets ih =>
    obtain ⟨geom, hsome⟩ := Option.isSome_iff_exists.mp hgeom
    rw [List.foldlM_cons, List.foldl_cons, countDetection, Mission.bump]
    split
    · exact ih e hcounts hgeom
    rw [hcounts, hsome]
    obtain ⟨e', hfold, hmission⟩ := ih
      { e with
        senseCounts := some (counts.filter (·.1 ≠ d.id) ++ [(d.id, (counts.lookup d.id).getD 0 + 1)])
        senseGeom := some (geom.filter (·.1 ≠ d.id) ++ [(d.id, d)]) } rfl rfl
    refine ⟨e', hfold, ?_⟩
    rw [hmission, Engine.mission, Engine.mission, hgeom]
    rfl

theorem step_onDetections (hready : e.mission.Ready) (dets : List (Detection K)) (now : Time) :
    ∃ r, e.onDetections dets now = some r ∧ Mission.Step e.mission (.onDetections dets now) r.1.mission := by
  by_cases hstate : e.state = .sense
  · obtain ⟨hsome, hgeom⟩ := hready.maps hstate
    obtain ⟨counts, hcounts⟩ := Option.isSome_iff_exists.mp hsome
    have hlt : e.li < e.legs.length := hready.within (.inr (.inr hstate))
    have hlg : ({ e with dets } : Engine K).leg = some e.legs[e.li] := List.getElem?_eq_getElem hlt
    obtain ⟨e', hfold, hmission⟩ := foldlM_countDetection e.legs[e.li].tag dets { e with dets } hcounts hgeom
    refine ⟨(e', ({ e with dets } : Engine K).sighted e.legs[e.li] dets), ?_, ?_⟩
    · unfold onDetections
      dsimp only
      rw [if_neg (not_not_intro hstate), hlg]
      dsimp only
      rw [hfold]
      rfl
    · dsimp only
      rw [hmission]
      exact .count dets now hstate hlg hcounts
  · refine ⟨({ e with dets }, none), ?_, .overlook dets now hstate⟩
    unfold onDetections
    dsimp only
    rw [if_pos hstate]

theorem leg_setState (s : State) (now : Time) (e : Engine K) : (e.setState s now).leg = e.leg := by
  rw [← leg_mission, mission_setState]
  rfl

theorem mission_advance (fixed2 : K → String) (now : Time) (e : Engine K) : (e.advance fixed2 now).mission = e.mission.advance := by
  unfold Engine.advance Mission.advance
  by_cases hend : e.legs.length ≤ e.li + 1
  · rw [if_pos (by exact hend), if_pos (by exact hend), mission_event, mission_setState]
    rfl
  · rw [if_neg (by exact hend), if_neg (by exact hend), mission_setState]
    rfl

theorem paused_setState (s : State) (now : Time) (e : Engine K) : (e.setState s now).paused = e.paused := by
  unfold setState
  split <;> rfl

theorem mission_resume (now : Time) (e : Engine K) : (e.resume now).mission = e.mission := by
  unfold resume
  split <;> rfl

theorem paused_resume (now : Time) (e : Engine K) : (e.resume now).paused = false := by
  unfold resume
  split
  · rfl
  · rename_i hpaused
    exact Bool.eq_false_iff.mpr hpaused

theorem mission_standDown (now : Time) (e : Engine K) :
    (e.standDown now).mission = if e.state = .done then { e.mission with state := .idle } else e.mission := by
  unfold standDown
  by_cases hdone : e.state = .done
  · rw [if_pos hdone, if_pos hdone]
    dsimp only
    split
    · exact (mission_event _ _ _ _).trans (mission_setState .idle now e)
    · rw [mission_event, mission_setState]
  · rw [if_neg hdone, if_neg hdone]
    dsimp only
    split <;> rfl

theorem standDown_step (now : Time) (e : Engine K) : Mission.Step e.mission (.tick now) (e.standDown now).mission := by
  rw [mission_standDown]
  split
  · rename_i hdone
    exact .reset now hdone
  · exact .stay trivial

end Fields

section Tick

variable {K : Type} {e : Engine K} {lg : Leg K}

theorem enterSense_eq (hlg : e.leg = some lg) (now : Time) :
    ∃ e', e.enterSense now = some e' ∧ e'.mission = e.mission.dwell ∧ e'.paused = e.paused ∧ e'.senseStart = now := by
  have hleg : { e.setState .sense now with senseStart := now, senseCounts := some [], senseGeom := some [] }.leg = some lg :=
    (leg_setState .sense now e).trans hlg
  unfold enterSense
  dsimp only
  rw [hleg]
  exact ⟨_, rfl, congrArg (fun m : Mission K => { m with counts := some [], geom := true }) (mission_setState .sense now e),
    paused_setState .sense now e, rfl⟩

variable [Field K]

theorem enterScan_eq (hlg : e.leg = some lg) (now : Time) :
    ∃ e', e.enterScan now = some e' ∧ e'.mission = e.mission.scan := by
  have hleg : { e.setState .scan now with
      scanDir := 1, scanAccum := 0, scanLastHead := (e.setState .scan now).pose.theta }.leg = some lg :=
    (leg_setState .scan now e).trans hlg
  unfold enterScan
  dsimp only
  rw [hleg]
  exact ⟨_, rfl, congrArg (fun m : Mission K => { m with scanDir := 1 }) (mission_setState .scan now e)⟩

variable [LinearOrder K] (M : MathPackage K) (fixed2 : K → String)

theorem mission_refixInPassing (now : Time) (lg : Leg K) (e : Engine K) :
    (e.refixInPassing M now lg).mission = e.mission := by
  unfold refixInPassing
  split
  · split <;> rfl
  · rfl

theorem mission_relocate (id : Int) (lg : Leg K) (e : Engine K) : (e.relocate M id lg).mission = e.mission := by
  unfold relocate
  split
  · split <;> rfl
  · rfl

theorem mission_conclude (now : Time) (lg : Leg K) (e : Engine K) : (e.conclude M now lg).mission = e.mission.note lg := by
  have hbest : e.mission.best = e.senseBest := rfl
  unfold conclude Mission.note
  rw [hbest]
  cases e.senseBest with
  | none => rfl
  | some id =>
    dsimp only
    rw [mission_relocate]
    rfl

/-- A dwell that a tick begins is timed from that tick. -/
def Enters (now : Time) (e e' : Engine K) : Prop :=
  e.state ≠ .sense → e'.state = .sense → e'.paused = e.paused ∧ e'.senseStart = now

theorem arrive_step (hstate : e.state = .transit) (hlg : e.leg = some lg) (now : Time) :
    ∃ e', e.arrive M fixed2 now lg = some e' ∧ Mission.Step e.mission (.tick now) e'.mission ∧ Enters now e e' := by
  let r : Engine K := { e.event now "arrived" ("leg=" ++ toString e.li ++ " wp=" ++ toString lg.wpIndex ++
    " x=" ++ fixed2 e.pose.x ++ " y=" ++ fixed2 e.pose.y) with wpReached := mark e.wpReached lg.wpIndex true }
  have hr : r.mission = e.mission.reach lg := rfl
  change ∃ e', (if lg.sense then
      if (r.freshDet now lg.tag arriveTagWindow).isSome then r.enterSense now else r.enterScan now
    else some ((r.refixInPassing M now lg).advance fixed2 now)) = some e' ∧ _
  by_cases hsense : lg.sense = true
  · rw [if_pos hsense]
    split
    · obtain ⟨e', henter, hmission, htimers⟩ := enterSense_eq (e := r) hlg now
      exact ⟨e', henter, by rw [hmission, hr]; exact .reachSense now hstate hlg hsense, fun _ _ => htimers⟩
    · obtain ⟨e', henter, hmission⟩ := enterScan_eq (e := r) hlg now
      refine ⟨e', henter, by rw [hmission, hr]; exact .reachScan now hstate hlg hsense, fun _ hs => ?_⟩
      cases (congrArg Mission.state hmission).symm.trans hs
  · rw [if_neg hsense]
    have hpass : ((r.refixInPassing M now lg).advance fixed2 now).mission = (e.mission.reach lg).advance := by
      rw [mission_advance, mission_refixInPassing, hr]
    refine ⟨_, rfl, hpass ▸ .pass now hstate hlg (Bool.eq_false_iff.mpr hsense), fun _ hs => ?_⟩
    exact absurd ((congrArg Mission.state hpass).symm.trans hs) Mission.advance_ne_sense

theorem tickSense_step (hstate : e.state = .sense) (hlg : e.leg = some lg) (now : Time) :
    ∃ e', e.tickSense M fixed2 now = some e' ∧ Mission.Step e.mission (.tick now) e'.mission := by
  unfold tickSense
  split
  · exact ⟨e, rfl, .stay trivial⟩
  rw [hlg]
  refine ⟨_, rfl, ?_⟩
  rw [mission_advance, mission_conclude]
  exact .leave now hstate hlg

variable [FloorSemiring K]

theorem mission_fixHeading (lg : Leg K) (det : Option (Detection K)) (e : Engine K) :
    (e.fixHeading M lg det).mission = e.mission := by
  unfold fixHeading
  split
  · split <;> rfl
  · rfl

variable [IsStrictOrderedRing K]

/-- Forwards, within the configured speeds. -/
def Within (p : Params K) (d : Drive K) : Prop := 0 ≤ d.vx ∧ d.vx ≤ p.cruiseSpeed ∧ |d.yawRate| ≤ p.turnRate

section Speeds

variable {p : Params K} (hcruise : 0 ≤ p.cruiseSpeed) (hturn : 0 ≤ p.turnRate)

include hcruise hturn

omit [FloorSemiring K] in
theorem within_hold : Within p hold := ⟨le_refl _, hcruise, by rw [hold, abs_zero]; exact hturn⟩

theorem within_steer (headingErr d : K) : Within p (steer p headingErr d) := by
  unfold steer
  split
  · refine ⟨le_refl _, hcruise, ?_⟩
    dsimp only [copysign]
    split
    · rw [abs_neg, abs_abs, abs_of_nonneg hturn]
    · rw [abs_abs, abs_of_nonneg hturn]
  · refine ⟨?_, min_le_left _ _, ?_⟩
    · have hmin : (0 : K) ≤ minApproachSpeed := by norm_num [minApproachSpeed]
      exact le_min hcruise (hmin.trans (le_max_left _ _))
    · exact abs_le.mpr ⟨le_min (by linarith) (le_max_left _ _), min_le_left _ _⟩

theorem within_scanDrive (hp : e.p = p) (hsweep : e.scanDir = -1 ∨ e.scanDir = 0 ∨ e.scanDir = 1) : Within p e.scanDrive := by
  have hhalf : p.turnRate * scanRateScale ≤ p.turnRate := by
    rw [scanRateScale]
    linarith
  have hnonneg : 0 ≤ p.turnRate * scanRateScale := mul_nonneg hturn (by norm_num [scanRateScale])
  refine ⟨le_refl _, hcruise, ?_⟩
  rw [scanDrive, hp]
  dsimp only
  rw [mul_assoc, abs_mul, abs_of_nonneg hnonneg]
  rcases hsweep with hdir | hdir | hdir
  · rwa [hdir, Int.cast_neg, Int.cast_one, abs_neg, abs_one, one_mul]
  · rwa [hdir, Int.cast_zero, abs_zero, zero_mul]
  · rwa [hdir, Int.cast_one, abs_one, one_mul]

end Speeds

theorem tickTransit_spec (hstate : e.state = .transit) (hlg : e.leg = some lg) (now : Time) :
    ∃ d e', e.tickTransit M fixed2 now = some (d, e') ∧ Mission.Step e.mission (.tick now) e'.mission ∧ Enters now e e' ∧
      (0 ≤ e.p.cruiseSpeed → 0 ≤ e.p.turnRate → Within e.p d) := by
  unfold tickTransit
  rw [hlg]
  dsimp only [Option.bind_eq_bind, Option.bind_some]
  split
  · obtain ⟨e', harrive, hstep, henters⟩ := arrive_step M fixed2 hstate hlg now
    rw [harrive]
    exact ⟨hold, e', rfl, hstep, henters, within_hold⟩
  · have hfix := mission_fixHeading M lg (e.freshDet now lg.tag detFreshFor) e
    refine ⟨_, _, rfl, by rw [hfix]; exact .stay trivial, fun hne hs => ?_, fun hcruise hturn => within_steer hcruise hturn _ _⟩
    exact absurd ((congrArg Mission.state hfix).symm.trans hs) hne

theorem tickScan_spec (hready : e.mission.Ready) (hstate : e.state = .scan) (hlg : e.leg = some lg) (now : Time) :
    ∃ d e', e.tickScan M now = some (d, e') ∧ Mission.Step e.mission (.tick now) e'.mission ∧ Enters now e e' ∧
      (0 ≤ e.p.cruiseSpeed → 0 ≤ e.p.turnRate → Within e.p d) := by
  unfold tickScan
  rw [hlg]
  dsimp only [Option.bind_eq_bind, Option.bind_some]
  split
  · obtain ⟨e', henter, hmission, htimers⟩ := enterSense_eq hlg now
    rw [henter]
    exact ⟨hold, e', rfl, by rw [hmission]; exact .find now hstate, fun _ _ => htimers, within_hold⟩
  split
  · refine ⟨_, _, rfl, .turn now hstate, fun hne hs => absurd hs hne, fun hcruise hturn => within_scanDrive hcruise hturn rfl (.inl rfl)⟩
  split
  · obtain ⟨e', henter, hmission, htimers⟩ := enterSense_eq (e := ({ e with
      scanAccum := e.scanAccum + wrapAngle M (e.pose.theta - e.scanLastHead), scanLastHead := e.pose.theta } :
        Engine K).event now "scan_giveup" ("wp=" ++ toString lg.wpIndex)) hlg now
    rw [henter]
    exact ⟨hold, e', rfl, by rw [hmission]; exact .find now hstate, fun _ _ => htimers, within_hold⟩
  · exact ⟨_, _, rfl, .stay trivial, fun hne hs => absurd hs hne, fun hcruise hturn => within_scanDrive hcruise hturn rfl hready.sweep⟩

/-- One turn of the switch: it does not panic, it is a transition, and it gives a setpoint only while a mission runs or has ended, within the configured speeds. -/
theorem tickState_spec (hready : e.mission.Ready) (now : Time) :
    ∃ d e', e.tickState M fixed2 now = some (d, e') ∧ Mission.Step e.mission (.tick now) e'.mission ∧ Enters now e e' ∧
      ∀ drive ∈ d, e.state ≠ .idle ∧ (0 ≤ e.p.cruiseSpeed → 0 ≤ e.p.turnRate → Within e.p drive) := by
  have hleg (hactive : e.mission.Active) : ∃ lg, e.leg = some lg :=
    ⟨_, List.getElem?_eq_getElem (hready.within hactive)⟩
  unfold tickState
  cases hstate : e.state with
  | idle => exact ⟨none, e, rfl, .stay trivial, fun hne hs => absurd hs hne, by simp⟩
  | transit =>
    obtain ⟨lg, hlg⟩ := hleg (.inl hstate)
    obtain ⟨d, e', htick, hstep, henters, hwithin⟩ := tickTransit_spec M fixed2 hstate hlg now
    rw [htick]
    exact ⟨some d, e', rfl, hstep, henters, by simpa using hwithin⟩
  | scan =>
    obtain ⟨lg, hlg⟩ := hleg (.inr (.inl hstate))
    obtain ⟨d, e', htick, hstep, henters, hwithin⟩ := tickScan_spec M hready hstate hlg now
    rw [htick]
    exact ⟨some d, e', rfl, hstep, henters, by simpa using hwithin⟩
  | sense =>
    obtain ⟨lg, hlg⟩ := hleg (.inr (.inr hstate))
    obtain ⟨e', htick, hstep⟩ := tickSense_step M fixed2 hstate hlg now
    rw [htick]
    exact ⟨some hold, e', rfl, hstep, fun hne => absurd hstate hne, by simpa using within_hold⟩
  | done => exact ⟨some hold, e, rfl, .stay trivial, fun hne hs => absurd hs hne, by simpa using within_hold⟩

theorem tick_spec (hready : e.mission.Ready) (now : Time) :
    ∃ out e', e.tick M fixed2 now = some (out, e') ∧ Mission.Step e.mission (.tick now) e'.mission ∧
      (e.state ≠ .sense → e'.state = .sense → e'.paused = false ∧ e'.senseStart = now) ∧
      ∀ drive ∈ out.drive, e.authorized now = true ∧ e.state ≠ .idle ∧
        (0 ≤ e.p.cruiseSpeed → 0 ≤ e.p.turnRate → Within e.p drive) := by
  unfold tick
  by_cases hauth : e.authorized now = true
  · have hresume := mission_resume now e
    have hstate : (e.resume now).state = e.state := congrArg Mission.state hresume
    have hp : (e.resume now).p = e.p := congrArg Mission.p hresume
    obtain ⟨d, e', htick, hstep, henters, hdrive⟩ := tickState_spec M fixed2 (hresume.symm ▸ hready) now
    rw [Enters, paused_resume] at henters
    rw [hresume, hstate, hp] at *
    rw [hauth, Bool.not_true, if_neg Bool.false_ne_true, htick]
    exact ⟨_, _, rfl, hstep, henters, fun drive hmem => ⟨rfl, hdrive drive hmem⟩⟩
  · rw [Bool.eq_false_iff.mpr hauth, Bool.not_false, if_pos rfl]
    refine ⟨_, _, rfl, standDown_step now e, fun hne hs => ?_, fun drive hmem => by cases hmem⟩
    have hstate := (congrArg Mission.state (mission_standDown now e)).symm.trans hs
    split at hstate
    · cases hstate
    · exact absurd hstate hne

theorem next_spec (hready : e.mission.Ready) (c : Call K) :
    ∃ e', e.next M fixed2 c = some e' ∧ Mission.Step e.mission c e'.mission := by
  cases c with
  | onMode m now => exact ⟨_, rfl, step_onMode m now e⟩
  | onOdometry vx yawRate now => exact ⟨_, rfl, .stay trivial⟩
  | onDetections dets now =>
    obtain ⟨r, hr, hstep⟩ := step_onDetections hready dets now
    exact ⟨r.1, by rw [next, hr]; rfl, hstep⟩
  | tick now =>
    obtain ⟨out, e', htick, hstep, -⟩ := tick_spec M fixed2 hready now
    exact ⟨e', by rw [next, htick]; rfl, hstep⟩
  | reload wps tags start now => exact ⟨_, rfl, step_reload wps tags start now e⟩
  | view => exact ⟨e, rfl, .stay trivial⟩
  | snapshot => exact ⟨e, rfl, .stay trivial⟩

end Tick

end Engine

end Waypoint.Survey
