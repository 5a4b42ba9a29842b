import Waypoint.Agent.Recorder.AccessUnits
import Waypoint.Dashboard.Nals

/-!
# Recorded access units in the dashboard

The agent writes an access unit with a four-byte start code in front of each NAL unit, and the dashboard takes it apart by its own search for three-byte ones.
-/

namespace Waypoint.Rover

open Base Agent.Recorder Dashboard

theorem isIDR_eq (nal : List UInt8) : isIDR nal = decide (nalType nal = 5) := by
  cases nal with
  | nil => rfl
  | cons b nal =>
    rw [Bool.eq_iff_iff, decide_eq_true_eq]
    simp [isIDR, nalType, Camera.nalTypeIDR]

theorem splitNals_accessUnit {g : List (List UInt8)} (h : ∀ nal ∈ g, Payload nal) : splitNals (accessUnit g).1 = g := by
  have hcoded : (accessUnit g).1 = (g.map fun nal => (true, nal)).flatMap coded := by
    rw [List.flatMap_map]
    rfl
  rw [hcoded, splitNals_coded (by simpa using h), List.map_map]
  exact List.map_id g

theorem auInfo_accessUnit {g : List (List UInt8)} (h : ∀ nal ∈ g, Payload nal) :
    (auInfo (accessUnit g).1).key = (accessUnit g).2 := by
  rw [auInfo_key, splitNals_accessUnit h]
  exact congrArg g.any (funext fun nal => (isIDR_eq nal).symm)

/-- A tap that is registered over a whole stream gets access units that the dashboard takes apart into the NAL units the
camera received: each unit but the first starts with a delimiter and has no other, and the flag is that of the dashboard. -/
theorem recorded_units_split {id : Nat} {tap : Tap} {c t : Camera} {es : List CameraAction} (hau : c.au = [])
    (hkeyframe : c.keyframe = false) (hwaiting : c.fanout = .waiting) (hsole : c.Sole id tap)
    (hkeeps : ∀ e ∈ es, e.Keeps id tap) (hnals : ∀ nal ∈ received es, Payload nal)
    (hrun : Run (Takes Camera.next) c es t) (hclosed : .receive none ∈ es) (hended : t.fanout = .ended) :
    (handed tap c es).flatMap (fun u => splitNals u.1) = received es ∧
      (∀ u ∈ (handed tap c es).tail, ∃ first rest, splitNals u.1 = first :: rest ∧ isAUD first = true ∧
        ∀ nal ∈ rest, isAUD nal = false) ∧
      ∀ u ∈ handed tap c es, u.2 = (auInfo u.1).key := by
  have hne : [] ∉ received es := fun hmem => (hnals [] hmem).nonempty rfl
  have hpayloads : ∀ g ∈ groups (received es), ∀ nal ∈ g, Payload nal := by
    intro g hg nal hnal
    refine hnals nal ?_
    rw [← flatten_groups (received es)]
    exact List.mem_flatten.mpr ⟨g, hg, hnal⟩
  have hdelimited := delimited_groups (received es)
  rw [handed_groups hau hkeyframe hwaiting hsole hkeeps hne hrun hclosed hended]
  refine ⟨?_, fun u hu => ?_, fun u hu => ?_⟩
  · rw [List.flatMap_map, List.flatMap_congr fun g hg => splitNals_accessUnit (hpayloads g hg)]
    exact (List.flatMap_id' ..).trans (flatten_groups (received es))
  · rw [← List.map_tail] at hu
    obtain ⟨g, hg, rfl⟩ := List.mem_map.mp hu
    have hmem : g ∈ groups (received es) := List.mem_of_mem_tail hg
    rw [splitNals_accessUnit (hpayloads g hmem)]
    obtain ⟨first, hfirst, haud⟩ := hdelimited.starts g hg
    obtain ⟨rest, rfl⟩ := List.head?_eq_some_iff.mp hfirst
    exact ⟨first, rest, rfl, haud, hdelimited.single _ hmem⟩
  · obtain ⟨g, hg, rfl⟩ := List.mem_map.mp hu
    exact (auInfo_accessUnit (hpayloads g hg)).symm

def twoUnits : List CameraAction :=
  [.receive (some [9, 16]), .receive (some [101, 1]), .receive (some [9, 48]), .call ⟨"front", 0⟩ true, .stop, .leave,
    .flushed, .receive (some [65, 2]), .receive none, .call ⟨"front", 0⟩ true, .leave, .flushed]

theorem recorded_units_split_two :
    (handed ⟨"front", 0⟩ (Camera.addTap {} ⟨"front", 0⟩) twoUnits).flatMap (fun u => splitNals u.1) =
      [[9, 16], [101, 1], [9, 48], [65, 2]] := by
  have hsole : (Camera.addTap {} ⟨"front", 0⟩).Sole 0 ⟨"front", 0⟩ := by
    refine ⟨rfl, fun k hk => ?_, by decide⟩
    by_contra hne
    have hnone : (Camera.addTap {} ⟨"front", 0⟩).taps.lookup k = none := (AList.lookup_insert_ne hne).trans rfl
    rw [hnone] at hk
    cases hk
  have hkeeps : ∀ e ∈ twoUnits, e.Keeps 0 ⟨"front", 0⟩ := by
    unfold CameraAction.Keeps
    decide
  have hnals : ∀ nal ∈ received twoUnits, Payload nal := by
    have hreceived : received twoUnits = [[9, 16], [101, 1], [9, 48], [65, 2]] := rfl
    rw [hreceived]
    simp only [List.forall_mem_cons, List.not_mem_nil, false_implies, implies_true, and_true]
    exact ⟨⟨by decide, by decide, by decide⟩, ⟨by decide, by decide, by decide⟩, ⟨by decide, by decide, by decide⟩,
      by decide, by decide, by decide⟩
  have hrun : ∃ t, Run (Takes Camera.next) (Camera.addTap {} ⟨"front", 0⟩) twoUnits t ∧ t.fanout = .ended :=
    ⟨_, run_takes_iff.mpr rfl, rfl⟩
  obtain ⟨t, hrun, hended⟩ := hrun
  exact (recorded_units_split rfl rfl rfl hsole hkeeps hnals hrun (by decide) hended).1

end Waypoint.Rover
