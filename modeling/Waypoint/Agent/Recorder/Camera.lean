import Waypoint.Base.Table

/-!
# Cameras

The fanout goroutine of a camera groups NAL units into access units. At the end of one, `flush` copies the taps under the read lock and calls them after releasing it.
-/

namespace Waypoint.Agent.Recorder

open Base

/-- The callback of an episode, as the manager registers it on one camera. -/
structure Tap where
  camID : String
  episode : Nat
  deriving DecidableEq

/-- Where the fanout goroutine is. In `flush` it has the taps that are still to be called, the one it is inside of, and the NAL unit it will go on with; without one, the stream has ended. -/
inductive Fanout
  | waiting
  | flushing (taps : List Tap) (inside : Option Tap) (nal : Option (List UInt8))
  | ended
  deriving DecidableEq

namespace Fanout

def inside : Fanout → Option Tap
  | .flushing _ inside _ => inside
  | _ => none

def calls : Fanout → List Tap
  | .flushing taps inside _ => inside.toList ++ taps
  | _ => []

end Fanout

structure Camera where
  taps : Table Nat Tap := ∅
  nextTap : Nat := 0
  au : List UInt8 := []
  keyframe : Bool := false
  fanout : Fanout := .waiting
  cancelled : Bool := false

namespace Camera

def nalTypeAUD : UInt8 := 9

def nalTypeIDR : UInt8 := 5

def startCode4 : List UInt8 := [0, 0, 0, 1]

def addTap (c : Camera) (tap : Tap) : Camera :=
  { c with taps := c.taps.insert c.nextTap tap, nextTap := c.nextTap + 1 }

def removeTap (c : Camera) (id : Nat) : Camera := { c with taps := c.taps.erase id }

def append (c : Camera) (nal : List UInt8) : Camera :=
  { c with
    keyframe := c.keyframe || nal.head?.map (· &&& 0x1f) == some nalTypeIDR
    au := c.au ++ startCode4 ++ nal
    fanout := .waiting }

def resume (c : Camera) : Option (List UInt8) → Camera
  | some nal => c.append nal
  | none => { c with fanout := .ended }

def flush (c : Camera) (nal : Option (List UInt8)) : Camera :=
  if c.au = [] then c.resume nal
  else { c with fanout := .flushing (c.taps.entries.map (·.2)) none nal }

/-- The goroutine receives a NAL unit, or the end of the stream, which `supervise` closes once the camera is stopped. -/
def receive (c : Camera) (nal : Option (List UInt8)) : Option Camera :=
  if c.fanout = .waiting then
    match nal with
    | none => if c.cancelled then some (c.flush none) else none
    | some [] => some c
    | some (b :: bs) =>
      if b &&& 0x1f = nalTypeAUD then some (c.flush (some (b :: bs))) else some (c.append (b :: bs))
  else none

def cancel (c : Camera) : Option Camera :=
  if c.fanout = .waiting ∧ c.cancelled then some { c with fanout := .ended } else none

def enter (c : Camera) (tap : Tap) (passes : Bool) : Option Camera :=
  match c.fanout with
  | .flushing taps none nal =>
    if tap ∈ taps then
      some { c with fanout := .flushing (taps.erase tap) (if passes then some tap else none) nal }
    else none
  | _ => none

def leave (c : Camera) : Camera :=
  match c.fanout with
  | .flushing taps _ nal => { c with fanout := .flushing taps none nal }
  | _ => c

def flushed (c : Camera) : Option Camera :=
  match c.fanout with
  | .flushing [] none nal => some ({ c with keyframe := false, au := [] }.resume nal)
  | _ => none

/-- What a step of the fanout goroutine may do: it leaves the taps alone, and calls only taps that it had copied or copies now. -/
structure Follows (c c' : Camera) : Prop where
  taps : c'.taps = c.taps
  calls : ∀ tap ∈ c'.fanout.calls, tap ∈ c.fanout.calls ∨ ∃ id, c.taps.lookup id = some tap

theorem resume_calls (c : Camera) (nal : Option (List UInt8)) : (c.resume nal).fanout.calls = [] := by
  cases nal with
  | some nal => rfl
  | none => rfl

theorem resume_taps (c : Camera) (nal : Option (List UInt8)) : (c.resume nal).taps = c.taps := by
  cases nal with
  | some nal => rfl
  | none => rfl

variable {c c' : Camera} {tap : Tap}

theorem follows_of_calls_nil (htaps : c'.taps = c.taps) (hcalls : c'.fanout.calls = []) :
    c.Follows c' := by
  refine ⟨htaps, fun tap htap => ?_⟩
  rw [hcalls] at htap
  cases htap

theorem follows_flush (c : Camera) (nal : Option (List UInt8)) : c.Follows (c.flush nal) := by
  unfold flush
  split
  · exact follows_of_calls_nil (c.resume_taps nal) (c.resume_calls nal)
  · refine ⟨rfl, fun tap htap => .inr ?_⟩
    obtain ⟨⟨id, tap'⟩, hentry, rfl⟩ := List.mem_map.mp htap
    exact ⟨id, Table.mem_entries_iff.mp hentry⟩

theorem follows_receive {nal : Option (List UInt8)} (h : c.receive nal = some c') : c.Follows c' := by
  obtain ⟨hwaiting, h⟩ := Option.ite_none_right_eq_some.mp h
  split at h
  · obtain ⟨-, hout⟩ := Option.ite_none_right_eq_some.mp h
    cases hout
    exact c.follows_flush none
  · cases h
    exact ⟨rfl, fun tap htap => .inl htap⟩
  split at h
  · cases h
    exact c.follows_flush _
  · cases h
    exact follows_of_calls_nil rfl rfl

theorem follows_cancel (h : c.cancel = some c') : c.Follows c' := by
  obtain ⟨-, hout⟩ := Option.ite_none_right_eq_some.mp h
  cases hout
  exact follows_of_calls_nil rfl rfl

theorem follows_enter {passes : Bool} (h : c.enter tap passes = some c') :
    c.Follows c' := by
  unfold enter at h
  split at h
  · rename_i taps nal hfanout
    obtain ⟨htap, hout⟩ := Option.ite_none_right_eq_some.mp h
    cases hout
    refine ⟨rfl, fun tap' htap' => .inl ?_⟩
    rw [hfanout]
    rcases List.mem_append.mp htap' with hinside | hrest
    · cases passes with
      | true =>
        cases List.mem_singleton.mp hinside
        exact htap
      | false => cases hinside
    · exact List.mem_of_mem_erase hrest
  · cases h

theorem follows_leave (c : Camera) : c.Follows c.leave := by
  unfold leave
  split
  · rename_i taps inside nal hfanout
    refine ⟨rfl, fun tap htap => .inl ?_⟩
    rw [hfanout]
    exact List.mem_append_right _ htap
  · exact ⟨rfl, fun tap htap => .inl htap⟩

theorem follows_flushed (h : c.flushed = some c') : c.Follows c' := by
  unfold flushed at h
  split at h
  · cases h
    exact follows_of_calls_nil (resume_taps _ _) (resume_calls _ _)
  · cases h

theorem inside_mem_calls {f : Fanout} (h : f.inside = some tap) : tap ∈ f.calls := by
  cases f with
  | waiting => cases h
  | flushing taps inside nal =>
    cases (show inside = some tap from h)
    exact List.mem_cons_self
  | ended => cases h

end Camera

end Waypoint.Agent.Recorder
