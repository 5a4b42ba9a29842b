import Waypoint.Agent.Recorder.Recording

/-!
# The keyframe gate

The tap drops the frames of a camera until its first keyframe, so that a recording begins with one.
-/

namespace Waypoint.Agent.Recorder

open Base

/-- A whole callback of the tap, or one turn of `drainVideo`. -/
inductive GateEvent
  | tap (camID : String) (au : List UInt8) (keyframe : Bool) (time : Int)
  | drain

/-- An episode whose file takes every frame. -/
structure Gate where
  ep : Episode := { draining := true }
  /-- the frames sent on `vid`, with the flag of their callbacks -/
  taken : List (VideoFrame × Bool) := []

namespace Gate

def full (s : Gate) : Bool := s.ep.vid.cap ≤ s.ep.vid.buf.length

def next (s : Gate) : GateEvent → Option Gate
  | .tap camID au keyframe time =>
    if s.ep.passes camID keyframe then
      ((s.ep.start camID keyframe).handOver ⟨camID, au, time⟩).map fun ep =>
        { ep, taken := if s.full then s.taken else s.taken ++ [(⟨camID, au, time⟩, keyframe)] }
    else some s
  | .drain => (s.ep.drainVideo true true).map fun ep => { s with ep }

def written (s : Gate) : List (VideoFrame × Bool) := s.taken.take s.ep.handed.length

/-- What is written of each camera starts with a keyframe. -/
structure Decodable (s : Gate) : Prop where
  handed : s.ep.handed = s.written.map fun x => (x.1, .written)
  first : ∀ camID x, s.written.find? (fun x => x.1.camID = camID) = some x → x.2 = true

/-- The keyframe that opens the gate of its camera finds room in the channel. -/
def Opens (s : Gate) : GateEvent → Prop
  | .tap camID _ keyframe _ => keyframe = true → s.ep.started.contains camID = false → s.full = false
  | .drain => True

instance (s : Gate) (e : GateEvent) : Decidable (s.Opens e) := by
  cases e <;> unfold Opens <;> infer_instance

structure Gated (s : Gate) : Prop where
  isOpen : s.ep.vid.closed = false
  queue : s.taken.map (fun x => (x.1, Outcome.written)) = s.ep.handed ++ s.ep.vid.buf.map fun f => (f, .written)
  started : ∀ camID, s.ep.started.contains camID = true → ∃ x ∈ s.taken, x.1.camID = camID
  first : ∀ camID x, s.taken.find? (fun x => x.1.camID = camID) = some x → x.2 = true

theorem Gated.decodable {s : Gate} (h : s.Gated) : s.Decodable := by
  constructor
  · rw [written, List.map_take, h.queue, List.take_left]
  intro camID x hx
  refine h.first camID x ?_
  rw [← List.take_append_drop s.ep.handed.length s.taken, List.find?_append, show s.taken.take _ = s.written from rfl, hx]
  rfl

theorem first_append {taken : List (VideoFrame × Bool)} {y : VideoFrame × Bool}
    (h : ∀ camID x, taken.find? (fun x => x.1.camID = camID) = some x → x.2 = true)
    (hy : y.2 = true ∨ ∃ x ∈ taken, x.1.camID = y.1.camID) (camID : String) (x : VideoFrame × Bool)
    (hx : (taken ++ [y]).find? (fun x => x.1.camID = camID) = some x) : x.2 = true := by
  cases hfound : taken.find? fun x => x.1.camID = camID with
  | some z =>
    rw [List.find?_append, hfound] at hx
    exact h camID x (hfound.trans hx)
  | none =>
    rw [List.find?_append, hfound, Option.none_or, List.find?_singleton] at hx
    split at hx
    · rename_i hcam
      cases hx
      refine hy.resolve_right fun ⟨z, hz, hsame⟩ => ?_
      have hnone := List.find?_eq_none.mp hfound z hz
      exact hnone (by simpa [hsame] using hcam)
    · cases hx

theorem handOver_spec {ep ep' : Episode} {f : VideoFrame} (hopen : ep.vid.closed = false) (h : ep.handOver f = some ep') :
    ep'.started = ep.started ∧ ep'.handed = ep.handed ∧ ep'.vid.closed = false ∧
      ep'.vid.buf = if ep.vid.cap ≤ ep.vid.buf.length then ep.vid.buf else ep.vid.buf ++ [f] := by
  unfold Episode.handOver at h
  split at h
  · rename_i vid hsent
    obtain ⟨-, hroom, rfl⟩ := Chan.send_eq_sent hsent
    cases h
    exact ⟨rfl, rfl, hopen, (if_neg (not_le.mpr hroom)).symm⟩
  · rename_i hwaits
    cases h
    refine ⟨rfl, rfl, hopen, (if_pos ?_).symm⟩
    by_contra hroom
    rw [Chan.send, hopen, if_neg Bool.false_ne_true, if_pos (not_le.mp hroom)] at hwaits
    cases hwaits
  · cases h

theorem start_spec (ep : Episode) (camID : String) (keyframe : Bool) :
    (ep.start camID keyframe).vid = ep.vid ∧ (ep.start camID keyframe).handed = ep.handed ∧
      ∀ cam, (ep.start camID keyframe).started.contains cam = true →
        ep.started.contains cam = true ∨ cam = camID ∧ ep.started.contains camID = false ∧ keyframe = true := by
  unfold Episode.start
  split
  · rename_i hfirst
    refine ⟨rfl, rfl, fun cam hcam => ?_⟩
    rw [List.contains_cons, Bool.or_eq_true, beq_iff_eq] at hcam
    exact hcam.symm.imp_right fun hcam => ⟨hcam, hfirst⟩
  · exact ⟨rfl, rfl, fun cam hcam => .inl hcam⟩

theorem gated_step {s t : Gate} {e : GateEvent} (h : s.Gated) (hopens : s.Opens e) (hnext : s.next e = some t) : t.Gated := by
  cases e with
  | drain =>
    obtain ⟨ep, hdrain, rfl⟩ := Option.map_eq_some_iff.mp hnext
    rw [Episode.drainVideo, Chan.receive] at hdrain
    split at hdrain
    · cases hdrain
    cases hbuf : s.ep.vid.buf with
    | nil =>
      rw [hbuf] at hdrain
      simp [h.isOpen] at hdrain
    | cons f buf =>
      rw [hbuf] at hdrain
      obtain rfl := Option.some.inj hdrain
      have hqueue := h.queue
      rw [hbuf] at hqueue
      exact ⟨by simpa [Episode.hand] using h.isOpen, by simpa [Episode.hand] using hqueue,
        by simpa [Episode.hand] using h.started, h.first⟩
  | tap camID au keyframe time =>
    change (if s.ep.passes camID keyframe then _ else _) = _ at hnext
    by_cases hpasses : s.ep.passes camID keyframe = true
    · rw [if_pos hpasses] at hnext
      obtain ⟨ep, hover, rfl⟩ := Option.map_eq_some_iff.mp hnext
      obtain ⟨hvid, hhanded, hknown⟩ := start_spec s.ep camID keyframe
      obtain ⟨hstarted, hhanded', hopen, hbuf⟩ := handOver_spec (by rw [hvid]; exact h.isOpen) hover
      rw [hvid] at hbuf
      rw [← hstarted] at hknown
      rw [hhanded] at hhanded'
      by_cases hfull : s.full = true
      · rw [if_pos (of_decide_eq_true hfull)] at hbuf
        simp only [hfull, if_true]
        refine ⟨hopen, by rw [hhanded', hbuf]; exact h.queue, fun cam hcam => ?_, h.first⟩
        rcases hknown cam hcam with hcam | ⟨-, hfirst, hkey⟩
        · exact h.started cam hcam
        · cases (hopens hkey hfirst).symm.trans hfull
      · rw [if_neg (fun hle => hfull (decide_eq_true hle))] at hbuf
        simp only [hfull]
        refine ⟨hopen, ?_, fun cam hcam => ?_, first_append h.first ?_⟩
        · rw [hhanded', hbuf]
          simp [h.queue]
        · rcases hknown cam hcam with hcam | ⟨rfl, -⟩
          · obtain ⟨x, hx, hsame⟩ := h.started cam hcam
            exact ⟨x, List.mem_append_left _ hx, hsame⟩
          · exact ⟨_, List.mem_append_right _ List.mem_cons_self, rfl⟩
        · rcases Bool.or_eq_true_iff.mp hpasses with hcam | hkey
          · exact .inr (h.started camID hcam)
          · exact .inl hkey
    · rw [if_neg hpasses] at hnext
      obtain rfl := Option.some.inj hnext
      exact h

end Gate

/-- The frames of each camera in the file begin with a keyframe, if every keyframe that opens a gate finds room in the channel. -/
theorem recorded_decodable (events : List GateEvent) (s : Gate) (h : Run (Guarded Gate.Opens (Takes Gate.next)) {} events s) :
    s.Decodable :=
  (h.invariant Gate.Gated (fun _ _ _ hs hstep => Gate.gated_step hs hstep.1 hstep.2)
    ⟨rfl, rfl, by simp, by simp⟩).decodable

def oneCamera : List GateEvent := [.tap "front" [1] false 0, .tap "front" [5] true 1, .drain, .tap "front" [1] false 2, .drain]

theorem recorded_decodable_camera : ∃ s, Run (Guarded Gate.Opens (Takes Gate.next)) {} oneCamera s ∧ s.Decodable ∧
    s.written = [(⟨"front", [5], 1⟩, true), (⟨"front", [1], 2⟩, false)] := by
  have hrun : ((oneCamera.foldlM (fun (s : Gate) e => if s.Opens e then s.next e else none) {}).map Gate.written) =
      some [(⟨"front", [5], 1⟩, true), (⟨"front", [1], 2⟩, false)] := by decide +kernel
  obtain ⟨s, hs, hwritten⟩ := Option.map_eq_some_iff.mp hrun
  have hs := run_guarded_iff.mpr hs
  exact ⟨s, hs, recorded_decodable oneCamera s hs, hwritten⟩

/-- A busy camera fills the channel just when another one sends its first keyframe. -/
def busyCamera : List GateEvent :=
  List.replicate 32 (.tap "front" [5] true 0) ++ [.tap "rear" [5] true 1, .drain, .tap "rear" [1] false 2] ++
    List.replicate 32 .drain

theorem recorded_without_keyframe : ∃ s, Run (Takes Gate.next) {} busyCamera s ∧ ¬s.Decodable := by
  have hrun : ((busyCamera.foldlM Gate.next ({} : Gate)).map fun s => s.written.find? fun x => x.1.camID = "rear") =
      some (some (⟨"rear", [1], 2⟩, false)) := by decide +kernel
  obtain ⟨s, hs, hfound⟩ := Option.map_eq_some_iff.mp hrun
  exact ⟨s, run_takes_iff.mpr hs, fun h => absurd (h.first _ _ hfound) (by decide)⟩

end Waypoint.Agent.Recorder
