import Mathlib.Data.Rat.Floor
import Waypoint.Survey.Mission

/-!
# Safety of the mission engine

In every state that a sequence of calls leads to, no call panics; and a tick gives a setpoint only with the authority of a recent autonomous mode and outside the idle state, within the configured speeds.
-/

namespace Waypoint.Survey

open Base Engine

namespace Mission

variable {K : Type} {m m' : Mission K} {c : Call K}

theorem Step.speeds (h : Step m c m') : m'.p.cruiseSpeed = m.p.cruiseSpeed ∧ m'.p.turnRate = m.p.turnRate := by
  cases h <;> exact ⟨rfl, rfl⟩

def modeOf : Call K → Option (Mode × Time)
  | .onMode m now => some (m, now)
  | _ => none

theorem Step.mode (h : Step m c m') : (m'.mode, m'.lastModeAt) = (modeOf c).getD (m.mode, m.lastModeAt) := by
  cases h with
  | @stay c hc =>
    cases c with
    | onMode m now => cases hc
    | _ => rfl
  | _ => rfl

end Mission

namespace Engine

variable {K : Type} {e e' : Engine K}

theorem authorized_iff {now : Time} : e.authorized now = true ↔
    e.mode = .autonomous ∧ e.lastModeAt ≠ 0 ∧ now - e.lastModeAt ≤ milliseconds 2500 := by
  have hsub : Time.sub now e.lastModeAt ≤ modeFreshFor ↔ now - e.lastModeAt ≤ milliseconds 2500 := by
    rw [Time.sub, max_le_iff, min_le_iff, modeFreshFor]
    constructor
    · rintro ⟨-, habsurd | hage⟩
      · exact absurd habsurd (by decide)
      · exact hage
    · exact fun hage => ⟨by decide, .inr hage⟩
  rw [authorized, decide_eq_true_eq, hsub]

variable [Field K]

theorem ready_new (p : Params K) : (new p).mission.Ready :=
  ⟨fun hactive => (by rcases hactive with h | h | h <;> cases h), nofun, .inr (.inl rfl)⟩

variable [LinearOrder K] [IsStrictOrderedRing K] [FloorSemiring K] {M : MathPackage K} {fixed2 : K → String} {c : Call K}
  {calls : List (Call K)} {p : Params K}

theorem step_of_next (hready : e.mission.Ready) (h : e.next M fixed2 c = some e') : Mission.Step e.mission c e'.mission := by
  obtain ⟨e'', hnext, hstep⟩ := next_spec M fixed2 hready c
  cases h.symm.trans hnext
  exact hstep

theorem ready_run (hrun : Run (Takes (next M fixed2)) (new p) calls e) : e.mission.Ready :=
  hrun.invariant (fun e => e.mission.Ready) (fun _ _ _ hready hnext => hready.step (step_of_next hready hnext)) (ready_new p)

theorem speeds_run (hrun : Run (Takes (next M fixed2)) (new p) calls e) :
    e.p.cruiseSpeed = p.cruiseSpeed ∧ e.p.turnRate = p.turnRate := by
  have hinv := hrun.invariant
    (fun e => e.mission.Ready ∧ e.mission.p.cruiseSpeed = p.cruiseSpeed ∧ e.mission.p.turnRate = p.turnRate)
    (fun s c t hs hnext => ?_) ⟨ready_new p, rfl, rfl⟩
  · exact hinv.2
  · have hstep := step_of_next hs.1 hnext
    obtain ⟨hcruise, hturn⟩ := hstep.speeds
    exact ⟨hs.1.step hstep, hcruise.trans hs.2.1, hturn.trans hs.2.2⟩

def lastMode (calls : List (Call K)) : Option (Mode × Time) := calls.foldl (fun last c => (Mission.modeOf c).or last) none

theorem mode_run (hrun : Run (Takes (next M fixed2)) (new p) calls e) :
    (e.mode, e.lastModeAt) = (lastMode calls).getD (.unspecified, 0) := by
  have hfold : ∀ {s t : Engine K} {cs : List (Call K)} {last : Option (Mode × Time)}, Run (Takes (next M fixed2)) s cs t →
      s.mission.Ready → (s.mode, s.lastModeAt) = last.getD (.unspecified, 0) →
      (t.mode, t.lastModeAt) = (cs.foldl (fun last c => (Mission.modeOf c).or last) last).getD (.unspecified, 0) := by
    intro s t cs last hrun hready hlast
    induction hrun generalizing last with
    | nil => exact hlast
    | @cons s s' t c cs hnext _ ih =>
      have hstep := step_of_next hready hnext
      refine ih (hready.step hstep) ?_
      have hmode : (s'.mode, s'.lastModeAt) = (Mission.modeOf c).getD (s.mode, s.lastModeAt) := hstep.mode
      rw [hmode, hlast]
      dsimp only
      cases Mission.modeOf c with
      | none => rfl
      | some m => rfl
  exact hfold hrun (ready_new p) rfl

end Engine

open Engine in
/-- Along every sequence of calls: the leg index is within the legs while the mission runs, no call panics, and a setpoint is given only if the last mode was autonomous, not older than two and a half seconds, and the engine not idle; its speeds are within the configured ones. -/
theorem mission_engine_safe {K : Type} [Field K] [LinearOrder K] [IsStrictOrderedRing K] [FloorSemiring K]
    (M : MathPackage K) (fixed2 : K → String) (p : Params K) (hcruise : 0 ≤ p.cruiseSpeed) (hturn : 0 ≤ p.turnRate)
    (calls : List (Call K)) (e : Engine K) (hrun : Run (Takes (next M fixed2)) (new p) calls e) :
    (e.state = .transit ∨ e.state = .scan ∨ e.state = .sense → e.li < e.legs.length) ∧
      (∀ c, ∃ e', e.next M fixed2 c = some e') ∧
      ∀ now out e' drive, e.tick M fixed2 now = some (out, e') → out.drive = some drive →
        (∃ t, lastMode calls = some (.autonomous, t) ∧ now - t ≤ milliseconds 2500) ∧ e.state ≠ .idle ∧
          0 ≤ drive.vx ∧ drive.vx ≤ p.cruiseSpeed ∧ |drive.yawRate| ≤ p.turnRate := by
  have hready := ready_run hrun
  obtain ⟨hp, hp'⟩ := speeds_run hrun
  refine ⟨hready.within, fun c => ?_, fun now out e' drive htick hdrive => ?_⟩
  · obtain ⟨e', hnext, -⟩ := next_spec M fixed2 hready c
    exact ⟨e', hnext⟩
  obtain ⟨out', e'', htick', -, -, hspec⟩ := tick_spec M fixed2 hready now
  cases htick.symm.trans htick'
  obtain ⟨hauth, hstate, hwithin⟩ := hspec drive hdrive
  obtain ⟨hmode, -, hage⟩ := authorized_iff.mp hauth
  have hlast := mode_run hrun
  have hlimits := hwithin (hp ▸ hcruise) (hp' ▸ hturn)
  rw [Within, hp, hp'] at hlimits
  refine ⟨?_, hstate, hlimits⟩
  cases hcall : lastMode calls with
  | none =>
    rw [hcall] at hlast
    have hunspecified : e.mode = .unspecified := congrArg Prod.fst hlast
    rw [hmode] at hunspecified
    cases hunspecified
  | some last =>
    rw [hcall] at hlast
    obtain ⟨hfirst, hsecond⟩ := Prod.mk.inj (show (e.mode, e.lastModeAt) = last from hlast)
    refine ⟨last.2, congrArg some (Prod.ext ?_ rfl), hsecond ▸ hage⟩
    rw [← hfirst, hmode]

def MathPackage.flat : MathPackage ℚ where
  pi := 22 / 7
  cos _ := 1
  sin _ := 0
  atan2 _ _ := 0
  hypot x y := |x| + |y|
  pi_pos := by norm_num

def Params.ahead : Params ℚ where
  waypoints := [⟨5, 0⟩]
  tagIDs := []
  start := ⟨0, 0, 0⟩
  cruiseSpeed := 1 / 2
  turnRate := 1
  arriveRadius := 1 / 4
  tagStop := 1 / 2
  senseDwell := Survey.milliseconds 3000
  scanMaxRad := 3
  returnHome := true

open Engine in
theorem mission_engine_safe_ahead :
    ∃ e out e', Run (Takes (next .flat toString)) (new .ahead) [.onMode .autonomous 1] e ∧
      e.tick .flat toString (milliseconds 50) = some (out, e') ∧ out.drive = some ⟨1 / 2, 0⟩ ∧ e.li < e.legs.length ∧
      ∃ t, lastMode [(.onMode .autonomous 1 : Call ℚ)] = some (.autonomous, t) ∧ milliseconds 50 - t ≤ milliseconds 2500 := by
  have hrun : ∃ e, Run (Takes (next .flat toString)) (new .ahead) [.onMode .autonomous 1] e ∧ e.state = .transit ∧
      (e.tick .flat toString (milliseconds 50)).map (·.1.drive) = some (some ⟨1 / 2, 0⟩) :=
    ⟨_, .cons rfl (.nil _), by decide +kernel, by decide +kernel⟩
  obtain ⟨e, hrun, hstate, hdrive⟩ := hrun
  obtain ⟨hwithin, -, hspec⟩ := mission_engine_safe .flat toString .ahead (by decide +kernel) (by decide +kernel) _ e hrun
  obtain ⟨⟨out, e'⟩, htick, hout⟩ := Option.map_eq_some_iff.mp hdrive
  obtain ⟨hmode, -⟩ := hspec _ out e' _ htick hout
  exact ⟨e, out, e', hrun, htick, hout, hwithin (.inl hstate), hmode⟩

end Waypoint.Survey
