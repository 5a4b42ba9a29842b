import Mathlib.Algebra.Order.Group.MinMax
import Mathlib.Data.List.Induction
import Waypoint.Survey.Nav

/-!
# The mission engine

`internal/mission`: the survey module's state machine. It takes modes, odometry and marker detections, and at each tick gives a drive setpoint, an LED state and log events. A call runs under the engine's lock.
-/

namespace Waypoint.Survey

abbrev Time := Int

/-- `Time.Sub`, which saturates. -/
def Time.sub (t u : Time) : Int := max (-2 ^ 63) (min (2 ^ 63 - 1) (t - u))

def milliseconds (n : Int) : Int := n * 1000000

inductive Mode
  | unspecified
  | manual
  | safe
  | autonomous
  | estop
  | other (n : Int)
  deriving DecidableEq

inductive State
  | idle
  | transit
  | scan
  | sense
  | done
  deriving DecidableEq

def tagAny : Int := -1

def tagNone : Int := -2

def modeFreshFor : Int := milliseconds 2500

def detFreshFor : Int := milliseconds 800

def arriveTagWindow : Int := milliseconds 1200

structure Params (K : Type) where
  waypoints : List (Vec K)
  tagIDs : List Int
  start : Pose K
  cruiseSpeed : K
  turnRate : K
  arriveRadius : K
  tagStop : K
  senseDwell : Int
  scanMaxRad : K
  returnHome : Bool

structure Detection (K : Type) where
  id : Int
  bearing : K
  distance : K
  t : Time

structure Event where
  t : Time
  kind : String
  detail : String

structure Drive (K : Type) where
  vx : K
  yawRate : K
  deriving DecidableEq

inductive LEDPhase
  | green
  | red
  | yellow

structure LEDState where
  phase : LEDPhase
  id : Int := 0
  showID : Bool := false

structure Output (K : Type) where
  drive : Option (Drive K) := none
  led : LEDState
  events : List Event
  state : String

structure Leg (K : Type) where
  target : Vec K
  tag : Int
  /-- the waypoint's index, -1 for the start point -/
  wpIndex : Int
  sense : Bool := false

structure DetectionMark where
  wp : Int
  id : Int
  t : Time

structure Engine (K : Type) where
  p : Params K
  outbound : Nat := 0
  pose : Pose K
  measVX : K
  lastOdoAt : Time := 0
  mode : Mode := .unspecified
  lastModeAt : Time := 0
  paused : Bool := false
  pausedAt : Time := 0
  state : State := .idle
  legs : List (Leg K) := []
  li : Nat := 0
  dets : List (Detection K) := []
  senseStart : Time := 0
  senseCounts : Option (List (Int × Nat)) := none
  senseGeom : Option (List (Int × Detection K)) := none
  scanDir : Int := 0
  scanAccum : K
  scanLastHead : K
  lastDetectedID : Int := -1
  events : List Event := []
  wpReached : List Bool := []
  wpDetected : List Int := []
  lastDet : Option DetectionMark := none
  startedAt : Time := 0

def tagMatches (tag id : Int) : Bool :=
  if tag = tagNone then false else if tag = tagAny then true else id = tag

section Legs

variable {K : Type}

def Params.tagOf (p : Params K) (i : Nat) : Int := (p.tagIDs[i]?).getD tagAny

def Params.legTo (p : Params K) (sense : Bool) (wp : Vec K × Nat) : Leg K :=
  { target := wp.1, tag := p.tagOf wp.2, wpIndex := wp.2, sense }

/-- Out to every waypoint, and with `ReturnHome` back over all but the last to the start. -/
def buildLegs (p : Params K) : List (Leg K) :=
  p.waypoints.zipIdx.map (p.legTo true) ++
    if p.returnHome then
      p.waypoints.zipIdx.dropLast.reverse.map (p.legTo false) ++
        [{ target := p.start.position, tag := tagNone, wpIndex := -1 }]
    else []

end Legs

variable (counts : List (Int × Nat))

/-- The loop of `senseBest` over the counts, in the order in which it visits them. -/
def bestSeen : Int × Nat :=
  counts.foldl (fun best e => if best.2 < e.2 ∨ e.2 = best.2 ∧ 0 ≤ best.1 ∧ e.1 < best.1 then e else best) (-1, 0)

def bestOf : Option Int := if 0 ≤ (bestSeen counts).1 then some (bestSeen counts).1 else none

/-- What the loop ends with is an entry with the highest count; if its id is not negative, it is the lowest of these. -/
theorem bestSeen_spec :
    (bestSeen counts = (-1, 0) ∨ bestSeen counts ∈ counts ∧ 0 < (bestSeen counts).2) ∧
      ∀ e ∈ counts, e.2 ≤ (bestSeen counts).2 ∧ (e.2 = (bestSeen counts).2 → 0 ≤ (bestSeen counts).1 → (bestSeen counts).1 ≤ e.1) := by
  induction counts using List.reverseRecOn with
  | nil => exact ⟨.inl rfl, fun e he => absurd he List.not_mem_nil⟩
  | append_singleton counts a ih =>
    obtain ⟨hmem, hbest⟩ := ih
    have hconcat : bestSeen (counts ++ [a]) = if (bestSeen counts).2 < a.2 ∨
        a.2 = (bestSeen counts).2 ∧ 0 ≤ (bestSeen counts).1 ∧ a.1 < (bestSeen counts).1 then a else bestSeen counts :=
      List.foldl_concat _ _ a counts
    rw [hconcat]
    split
    · rename_i hbetter
      have hpos : 0 < a.2 := by
        rcases hbetter with hmore | ⟨hsame, hnonneg, -⟩
        · omega
        rcases hmem with hnone | ⟨-, hpos⟩
        · rw [hnone] at hnonneg
          exact absurd hnonneg (by decide)
        · omega
      refine ⟨.inr ⟨List.mem_append_right _ List.mem_cons_self, hpos⟩, fun e he => ?_⟩
      rcases List.mem_append.mp he with he | he
      · obtain ⟨hle, hlow⟩ := hbest e he
        rcases hbetter with hmore | ⟨hsame, hnonneg, hless⟩
        · exact ⟨by omega, fun htie => by omega⟩
        · exact ⟨by omega, fun htie _ => by have := hlow (by omega) hnonneg; omega⟩
      · rw [List.mem_singleton.mp he]
        exact ⟨le_refl _, fun _ _ => le_refl _⟩
    · rename_i hkeep
      rw [not_or, not_lt] at hkeep
      refine ⟨hmem.imp_right fun h => ⟨List.mem_append_left _ h.1, h.2⟩, fun e he => ?_⟩
      rcases List.mem_append.mp he with he | he
      · exact hbest e he
      rw [List.mem_singleton.mp he]
      refine ⟨hkeep.1, fun htie hnonneg => ?_⟩
      by_contra hless
      exact hkeep.2 ⟨htie, hnonneg, not_le.mp hless⟩

theorem bestOf_eq_some_iff {counts : List (Int × Nat)} {id : Int} :
    bestOf counts = some id ↔
      0 ≤ id ∧ ∃ n, 0 < n ∧ (id, n) ∈ counts ∧ ∀ e ∈ counts, e.2 ≤ n ∧ (e.2 = n → id ≤ e.1) := by
  obtain ⟨hmem, hbest⟩ := bestSeen_spec counts
  rw [bestOf, Option.ite_none_right_eq_some, Option.some.injEq]
  constructor
  · rintro ⟨hnonneg, rfl⟩
    refine ⟨hnonneg, (bestSeen counts).2, ?_⟩
    rcases hmem with hnone | ⟨hmem, hpos⟩
    · rw [hnone] at hnonneg
      exact absurd hnonneg (by decide)
    · exact ⟨hpos, hmem, fun e he => ⟨(hbest e he).1, fun htie => (hbest e he).2 htie hnonneg⟩⟩
  · rintro ⟨hnonneg, n, hpos, hin, hall⟩
    obtain ⟨hle, hlow⟩ := hbest (id, n) hin
    rcases hmem with hnone | ⟨hmem, -⟩
    · rw [hnone] at hle
      omega
    obtain ⟨hle', hlow'⟩ := hall _ hmem
    have hsame : n = (bestSeen counts).2 := le_antisymm hle hle'
    have hid : id ≤ (bestSeen counts).1 := hlow' hsame.symm
    have hid' : (bestSeen counts).1 ≤ id := hlow hsame (hnonneg.trans hid)
    exact ⟨hnonneg.trans hid, le_antisymm hid' hid⟩

theorem bestOf_perm {counts counts' : List (Int × Nat)} (h : counts.Perm counts') : bestOf counts = bestOf counts' := by
  apply Option.ext
  intro id
  simp only [bestOf_eq_some_iff, h.mem_iff]

def binary7 (id : Int) : String :=
  let digits := Nat.toDigits 2 (id % 128).toNat
  String.ofList (List.replicate (7 - digits.length) '0' ++ digits)

namespace Engine

section Fields

variable {K : Type} (e : Engine K)

def missionActive : Bool := e.state = .transit ∨ e.state = .scan ∨ e.state = .sense

def stateName : String :=
  match e.state with
  | .idle => "IDLE"
  | .transit => if e.outbound ≤ e.li ∧ 0 < e.outbound then "RETURN" else "TRANSIT"
  | .scan => "SCAN"
  | .sense => "SENSE"
  | .done => "DONE"

def event (t : Time) (kind detail : String) (e : Engine K) : Engine K := { e with events := e.events ++ [⟨t, kind, detail⟩] }

def setState (s : State) (now : Time) (e : Engine K) : Engine K :=
  if s = e.state then e
  else
    let e := { e with state := s }
    e.event now "state" e.stateName

def leg : Option (Leg K) := e.legs[e.li]?

/-- The newest detection of the tag that is not older than the window; of equally new ones the first. -/
def freshDet (now : Time) (tag : Int) (window : Int) : Option (Detection K) :=
  e.dets.foldl (fun best d =>
    if !tagMatches tag d.id ∨ window < Time.sub now d.t then best
    else
      match best with
      | none => some d
      | some b => if b.t < d.t then some d else some b) none

def senseBest : Option Int := bestOf (e.senseCounts.getD [])

def ledState : LEDState :=
  match e.state with
  | .idle => { phase := .green }
  | .sense =>
    match e.senseBest with
    | some id => { phase := .yellow, id, showID := true }
    | none => { phase := .yellow }
  | _ => { phase := .red }

def mark {α : Type} (xs : List α) (i : Int) (a : α) : List α := if 0 ≤ i ∧ i < xs.length then xs.set i.toNat a else xs

def snapTo (lg : Leg K) (e : Engine K) : Engine K := { e with pose := { e.pose with x := lg.target.x, y := lg.target.y } }

def countDetection (tag : Int) (e : Engine K) (d : Detection K) : Option (Engine K) :=
  if !tagMatches tag d.id then some e
  else do
    let counts ← e.senseCounts
    let geom ← e.senseGeom
    let n := (counts.lookup d.id).getD 0
    return { e with
      senseCounts := some (counts.filter (·.1 ≠ d.id) ++ [(d.id, n + 1)])
      senseGeom := some (geom.filter (·.1 ≠ d.id) ++ [(d.id, d)]) }

def sighted (lg : Leg K) (dets : List (Detection K)) (e : Engine K) : Option (Int × Int) :=
  if (e.senseCounts.getD []).isEmpty then
    (dets.find? fun d => tagMatches lg.tag d.id && decide (0 ≤ d.id)).map fun d => (lg.wpIndex, d.id)
  else none

def onDetections (dets : List (Detection K)) (_now : Time) (e : Engine K) : Option (Engine K × Option (Int × Int)) :=
  let e := { e with dets }
  if e.state ≠ .sense then some (e, none)
  else
    match e.leg with
    | none => some (e, none)
    | some lg => (dets.foldlM (countDetection lg.tag) e).map fun counted => (counted, e.sighted lg dets)

def arm (now : Time) (e : Engine K) : Engine K :=
  if e.p.waypoints = [] then e.event now "mission_skip" "no waypoints configured"
  else
    let n := e.p.waypoints.length
    let e := { e with
      legs := buildLegs e.p, outbound := n, li := 0, wpReached := List.replicate n false
      wpDetected := List.replicate n (-1), lastDet := none, startedAt := now }
    (e.setState .transit now).event now "mission_start"
      (toString n ++ " waypoints, return_home=" ++ toString e.p.returnHome)

def onMode (m : Mode) (now : Time) (e : Engine K) : Engine K :=
  let prev := e.mode
  let e := { e with mode := m, lastModeAt := now }
  if m = prev then e else if m = .autonomous ∧ e.state = .idle then e.arm now else e

def reload (wps : List (Vec K)) (tags : List Int) (start : Pose K) (now : Time) (e : Engine K) :
    Except String Unit × Engine K :=
  if e.state ≠ .idle ∧ e.state ≠ .done then
    (.error ("mission is " ++ e.stateName ++ ": waypoints can only change while IDLE or DONE"), e)
  else
    let tags := if tags = [] then List.replicate wps.length tagAny else tags
    if tags.length ≠ wps.length then
      (.error (toString tags.length ++ " tag ids for " ++ toString wps.length ++ " waypoints"), e)
    else
      let e := { e with
        p := { e.p with waypoints := wps, tagIDs := tags, start := start }
        pose := start, legs := [], li := 0, wpReached := [], wpDetected := [], lastDet := none }
      (.ok (), (e.setState .idle now).event now "waypoints_reload" (toString wps.length ++ " waypoints"))

end Fields

variable {K : Type} [Field K] [LinearOrder K] [IsStrictOrderedRing K] [FloorSemiring K]

def new (p : Params K) : Engine K := { p, pose := p.start, measVX := 0, scanAccum := 0, scanLastHead := 0 }

def alignThreshold : K := 0.35

def yawKp : K := 1.5

def approachGain : K := 0.8

def minApproachSpeed : K := 0.08

def scanRateScale : K := 0.5

def headingFixMinDist : K := 1

def headingFixGain : K := 0.15

def copysign (f sign : K) : K := if sign < 0 then -|f| else |f|

def clamp (v lo hi : K) : K := min hi (max lo v)

def hold : Drive K := ⟨0, 0⟩

def steer (p : Params K) (headingErr d : K) : Drive K :=
  if alignThreshold < |headingErr| then { vx := 0, yawRate := copysign p.turnRate headingErr }
  else
    { vx := min p.cruiseSpeed (max minApproachSpeed (d * approachGain))
      yawRate := clamp (yawKp * headingErr) (-p.turnRate) p.turnRate }

def scanDrive (e : Engine K) : Drive K := { vx := 0, yawRate := (e.scanDir : K) * e.p.turnRate * scanRateScale }

variable (M : MathPackage K) (fixed2 : K → String)

def onOdometry (vx yawRate : K) (now : Time) (e : Engine K) : Engine K :=
  let dt : K := (Time.sub now e.lastOdoAt : K) / 1000000000
  let pose := if e.lastOdoAt ≠ 0 ∧ 0 < dt ∧ dt ≤ 0.1 then e.pose.integrate M vx yawRate dt else e.pose
  { e with pose, measVX := vx, lastOdoAt := now }

def refix (det : Detection K) (lg : Leg K) (e : Engine K) : Engine K :=
  let dir := e.pose.theta + det.bearing
  { e with pose := { e.pose with
      x := lg.target.x - det.distance * M.cos dir
      y := lg.target.y - det.distance * M.sin dir } }

def advance (now : Time) (e : Engine K) : Engine K :=
  let e := { e with li := e.li + 1 }
  if e.legs.length ≤ e.li then
    (e.setState .done now).event now "mission_end" ("x=" ++ fixed2 e.pose.x ++ " y=" ++ fixed2 e.pose.y)
  else e.setState .transit now

def enterScan (now : Time) (e : Engine K) : Option (Engine K) := do
  let e := e.setState .scan now
  let e := { e with scanDir := 1, scanAccum := 0, scanLastHead := e.pose.theta }
  let lg ← e.leg
  return e.event now "scan_start" ("wp=" ++ toString lg.wpIndex)

def enterSense (now : Time) (e : Engine K) : Option (Engine K) := do
  let e := e.setState .sense now
  let e := { e with senseStart := now, senseCounts := some [], senseGeom := some [] }
  let lg ← e.leg
  return e.event now "sense_start" ("wp=" ++ toString lg.wpIndex)

/-- On a return leg a marker in view still corrects the position. -/
def refixInPassing (now : Time) (lg : Leg K) (e : Engine K) : Engine K :=
  match e.freshDet now lg.tag arriveTagWindow with
  | some det =>
    if 0 < det.distance then
      (e.refix M det lg).event now "refix" ("wp=" ++ toString lg.wpIndex ++ " id=" ++ toString det.id)
    else e
  | none => e

def arrive (now : Time) (lg : Leg K) (e : Engine K) : Option (Engine K) :=
  let e := e.event now "arrived" ("leg=" ++ toString e.li ++ " wp=" ++ toString lg.wpIndex ++
    " x=" ++ fixed2 e.pose.x ++ " y=" ++ fixed2 e.pose.y)
  let e := { e with wpReached := mark e.wpReached lg.wpIndex true }
  if lg.sense then
    if (e.freshDet now lg.tag arriveTagWindow).isSome then e.enterSense now else e.enterScan now
  else some ((e.refixInPassing M now lg).advance fixed2 now)

/-- A ranged marker decides on arrival, the odometry only without one. -/
def hasArrived (p : Params K) (det : Option (Detection K)) (d : K) : Bool :=
  match det with
  | some det => if 0 < det.distance then det.distance ≤ p.tagStop else d ≤ p.arriveRadius
  | none => d ≤ p.arriveRadius

def headingErr (lg : Leg K) (det : Option (Detection K)) (e : Engine K) : K :=
  match det with
  | some det => det.bearing
  | none => bearingTo M e.pose lg.target

/-- Far from the marker its bearing corrects the heading. -/
def fixHeading (lg : Leg K) (det : Option (Detection K)) (e : Engine K) : Engine K :=
  match det with
  | some det =>
    if headingFixMinDist < det.distance then
      let wb := M.atan2 (lg.target.y - e.pose.y) (lg.target.x - e.pose.x)
      let theta := wrapAngle M (e.pose.theta + headingFixGain * wrapAngle M (wb - det.bearing - e.pose.theta))
      { e with pose := { e.pose with theta } }
    else e
  | none => e

def tickTransit (now : Time) (e : Engine K) : Option (Drive K × Engine K) := do
  let lg ← e.leg
  let det := e.freshDet now lg.tag detFreshFor
  let d := dist M e.pose.position lg.target
  if hasArrived e.p det d then
    let e ← e.arrive M fixed2 now lg
    return (hold, e)
  else return (steer e.p (e.headingErr M lg det) d, e.fixHeading M lg det)

def tickScan (now : Time) (e : Engine K) : Option (Drive K × Engine K) := do
  let lg ← e.leg
  if (e.freshDet now lg.tag detFreshFor).isSome then
    let e ← e.enterSense now
    return (hold, e)
  else
    let e := { e with
      scanAccum := e.scanAccum + wrapAngle M (e.pose.theta - e.scanLastHead), scanLastHead := e.pose.theta }
    if 0 < e.scanDir ∧ e.p.scanMaxRad ≤ e.scanAccum then
      let e := { e with scanDir := -1 }
      return (e.scanDrive, e)
    else if e.scanDir < 0 ∧ e.scanAccum ≤ -e.p.scanMaxRad then
      let e ← (e.event now "scan_giveup" ("wp=" ++ toString lg.wpIndex)).enterSense now
      return (hold, e)
    else return (e.scanDrive, e)

/-- The position after a dwell: from the sighting of the id if it was ranged, or else the waypoint's. -/
def relocate (id : Int) (lg : Leg K) (e : Engine K) : Engine K :=
  match (e.senseGeom.getD []).lookup id with
  | some det => if 0 < det.distance then e.refix M det lg else e.snapTo lg
  | none => e.snapTo lg

def conclude (now : Time) (lg : Leg K) (e : Engine K) : Engine K :=
  match e.senseBest with
  | some id =>
    let e := { e with
      lastDetectedID := id, wpDetected := mark e.wpDetected lg.wpIndex id, lastDet := some ⟨lg.wpIndex, id, now⟩ }
    let e := e.event now "detected" ("wp=" ++ toString lg.wpIndex ++ " id=" ++ toString id ++ " bin=" ++ binary7 id)
    e.relocate M id lg
  | none => (e.event now "no_detection" ("wp=" ++ toString lg.wpIndex)).snapTo lg

def tickSense (now : Time) (e : Engine K) : Option (Engine K) :=
  if Time.sub now e.senseStart < e.p.senseDwell then some e
  else do
    let lg ← e.leg
    return (e.conclude M now lg).advance fixed2 now

def authorized (e : Engine K) (now : Time) : Bool :=
  e.mode = .autonomous ∧ e.lastModeAt ≠ 0 ∧ Time.sub now e.lastModeAt ≤ modeFreshFor

/-- Without authority a finished mission is reset and a running one paused. -/
def standDown (now : Time) (e : Engine K) : Engine K :=
  let e := if e.state = .done then
      (e.setState .idle now).event now "mission_reset" "mode left autonomous after DONE"
    else e
  if e.missionActive ∧ ¬e.paused then
    { e with paused := true, pausedAt := now }.event now "pause" "mode not autonomous or mode mirror stale"
  else e

/-- Time in which the mission was paused does not count for a dwell. -/
def resume (now : Time) (e : Engine K) : Engine K :=
  if e.paused then
    let senseStart := if e.state = .sense then e.senseStart + Time.sub now e.pausedAt else e.senseStart
    { e with paused := false, senseStart }.event now "resume" "mode autonomous again"
  else e

def tickState (now : Time) (e : Engine K) : Option (Option (Drive K) × Engine K) :=
  match e.state with
  | .transit => (e.tickTransit M fixed2 now).map fun r => (some r.1, r.2)
  | .scan => (e.tickScan M now).map fun r => (some r.1, r.2)
  | .sense => (e.tickSense M fixed2 now).map fun e => (some hold, e)
  | .done => some (some hold, e)
  | .idle => some (none, e)

def output (drive : Option (Drive K)) (led : LEDState) (e : Engine K) : Output K × Engine K :=
  ({ drive, led, events := e.events, state := e.stateName }, { e with events := [] })

def tick (now : Time) (e : Engine K) : Option (Output K × Engine K) :=
  if !e.authorized now then some ((e.standDown now).output none { phase := .green })
  else ((e.resume now).tickState M fixed2 now).map fun r => r.2.output r.1 r.2.ledState

def buildPlanned (p : Params K) : List (K × K) :=
  let start := (p.start.x, p.start.y)
  start :: p.waypoints.map (fun wp => (wp.x, wp.y)) ++
    if p.returnHome ∧ p.waypoints ≠ [] then p.waypoints.dropLast.reverse.map (fun wp => (wp.x, wp.y)) ++ [start] else []

inductive Call (K : Type)
  | onMode (m : Mode) (now : Time)
  | onOdometry (vx yawRate : K) (now : Time)
  | onDetections (dets : List (Detection K)) (now : Time)
  | tick (now : Time)
  | reload (wps : List (Vec K)) (tags : List Int) (start : Pose K) (now : Time)
  | view
  | snapshot

def next (e : Engine K) : Call K → Option (Engine K)
  | .onMode m now => some (e.onMode m now)
  | .onOdometry vx yawRate now => some (e.onOdometry M vx yawRate now)
  | .onDetections dets now => (e.onDetections dets now).map Prod.fst
  | .tick now => (e.tick M fixed2 now).map Prod.snd
  | .reload wps tags start now => some (e.reload wps tags start now).2
  | .view => some e
  | .snapshot => some e

end Engine

end Waypoint.Survey
