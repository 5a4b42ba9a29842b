import Waypoint.Agent.Recorder.Camera
import Waypoint.Base.Chan
import Waypoint.Base.Run

/-!
# Recording video

The tap of an episode, called by the goroutines of the cameras, hands a frame over to `vid` without waiting, and `drainVideo` takes it from there to the episode writer.
-/

namespace Waypoint.Agent.Recorder

open Base

/-! ### Episodes -/

structure VideoFrame where
  camID : String
  au : List UInt8
  time : Int
  deriving DecidableEq

/-- What the episode writer makes of a frame: `addVideoChannel` fails, `writeVideo` fails, or the frame is in the file. -/
inductive Outcome
  | noChannel
  | failed
  | written

structure Episode where
  vid : Chan VideoFrame := { cap := 32 }
  /-- the cameras that have delivered a keyframe -/
  started : List String := []
  videoChannels : List String := []
  dropped : Nat := 0
  draining : Bool := false
  drained : Bool := false
  /-- the frames that were sent on `vid` -/
  sent : List VideoFrame := []
  /-- the frames the writer has been given -/
  handed : List (VideoFrame × Outcome) := []
  /-- what the writer had been given when `finalize` ran -/
  finalized : Option (List (VideoFrame × Outcome)) := none

namespace Episode

variable (ep : Episode)

def passes (camID : String) (keyframe : Bool) : Bool := ep.started.contains camID || keyframe

def start (camID : String) (keyframe : Bool) : Episode :=
  if ep.started.contains camID = false ∧ keyframe then { ep with started := camID :: ep.started } else ep

/-- The second part: the select with a default. It fails if the channel is closed. -/
def handOver (f : VideoFrame) : Option Episode :=
  match ep.vid.send f with
  | .sent vid => some { ep with vid, sent := ep.sent ++ [f] }
  | .waits => some { ep with dropped := ep.dropped + 1 }
  | .crashes => none

def hand (f : VideoFrame) (channelOk writeOk : Bool) : Episode :=
  if ep.videoChannels.contains f.camID = false ∧ channelOk = false then
    { ep with dropped := ep.dropped + 1, handed := ep.handed ++ [(f, .noChannel)] }
  else
    let videoChannels := if ep.videoChannels.contains f.camID then ep.videoChannels else f.camID :: ep.videoChannels
    if writeOk then { ep with videoChannels, handed := ep.handed ++ [(f, .written)] }
    else { ep with videoChannels, dropped := ep.dropped + 1, handed := ep.handed ++ [(f, .failed)] }

def drainVideo (channelOk writeOk : Bool) : Option Episode :=
  if ep.draining = false ∨ ep.drained then none
  else
    match ep.vid.receive with
    | none => none
    | some (none, _) => some { ep with drained := true }
    | some (some f, vid) => some ({ ep with vid }.hand f channelOk writeOk)

end Episode

/-! ### The recorder -/

/-- Where `StartEpisode` and `stopLocked` are; the mutex of the recorder keeps them apart. The functions that remove a tap are pairs of a camera and the tap's number there. -/
inductive Phase
  | idle
  | tapping (episode : Nat) (left : List (String × Nat)) (removes : List (Nat × Nat))
  | recording (episode : Nat) (removes : List (Nat × Nat))
  | removing (episode : Nat) (left : List (Nat × Nat))
  | waiting (episode : Nat)
  deriving DecidableEq

namespace Phase

def episode? : Phase → Option Nat
  | .tapping k _ _ | .recording k _ | .removing k _ => some k
  | _ => none

def removes : Phase → Nat → List (Nat × Nat)
  | .tapping k _ removes, j | .recording k removes, j | .removing k removes, j => if j = k then removes else []
  | _, _ => []

def isTapping : Phase → Bool
  | .tapping _ _ _ => true
  | _ => false

end Phase

/-- Cameras and episodes are numbered in the order in which they were made; `cams` is the manager's map. -/
structure Recording where
  cameras : List Camera := []
  cams : Table String Nat := ∅
  episodes : List Episode := []
  phase : Phase := .idle
  panicked : Bool := false

inductive Event
  | plug (name : String)
  | unplug (name : String)
  | nal (c : Nat) (nal : Option (List UInt8))
  | cancel (c : Nat)
  | call (c : Nat) (tap : Tap)
  | select (c : Nat) (time : Int)
  | flushed (c : Nat)
  | startEpisode
  | addTap (name : String) (c : Nat)
  | started
  | stopEpisode
  | removeTap
  | closeVid
  | drain (episode : Nat) (channelOk writeOk : Bool)
  | finalize
  deriving DecidableEq

namespace Recording

def setCamera (s : Recording) (c : Nat) (cam : Camera) : Recording := { s with cameras := s.cameras.set c cam }

def setEpisode (s : Recording) (k : Nat) (ep : Episode) : Recording := { s with episodes := s.episodes.set k ep }

def step (s : Recording) : Event → Option Recording
  | .plug name =>
    -- `Tap` holds the lock of the map
    if s.phase.isTapping then none
    else some { s with cameras := s.cameras ++ [{}], cams := s.cams.insert name s.cameras.length }
  | .unplug name =>
    if s.phase.isTapping then none
    else do
      let c ← s.cams.lookup name
      let cam ← s.cameras[c]?
      return { s.setCamera c { cam with cancelled := true } with cams := s.cams.erase name }
  | .nal c nal => do
      let cam ← s.cameras[c]?
      return s.setCamera c (← cam.receive nal)
  | .cancel c => do
      let cam ← s.cameras[c]?
      return s.setCamera c (← cam.cancel)
  | .call c tap => do
      let cam ← s.cameras[c]?
      let ep ← s.episodes[tap.episode]?
      let cam' ← cam.enter tap (ep.passes tap.camID cam.keyframe)
      return (s.setEpisode tap.episode (ep.start tap.camID cam.keyframe)).setCamera c cam'
  | .select c time => do
      let cam ← s.cameras[c]?
      let tap ← cam.fanout.inside
      let ep ← s.episodes[tap.episode]?
      match ep.handOver { camID := tap.camID, au := cam.au, time } with
      | some ep => return (s.setEpisode tap.episode ep).setCamera c cam.leave
      | none => return { s with panicked := true }
  | .flushed c => do
      let cam ← s.cameras[c]?
      return s.setCamera c (← cam.flushed)
  | .startEpisode =>
    if s.phase = .idle then
      some { s with
        episodes := s.episodes ++ [{}]
        phase := .tapping s.episodes.length (s.cams.entries.map fun entry => (entry.1, entry.2)) [] }
    else none
  | .addTap name c =>
    match s.phase with
    | .tapping k left removes =>
      if (name, c) ∈ left then do
        let cam ← s.cameras[c]?
        return { s.setCamera c (cam.addTap { camID := name, episode := k }) with
          phase := .tapping k (left.erase (name, c)) (removes ++ [(c, cam.nextTap)]) }
      else none
    | _ => none
  | .started =>
    match s.phase with
    | .tapping k [] removes => do
        let ep ← s.episodes[k]?
        return { s.setEpisode k { ep with draining := true } with phase := .recording k removes }
    | _ => none
  | .stopEpisode =>
    match s.phase with
    | .recording k removes => some { s with phase := .removing k removes }
    | _ => none
  | .removeTap =>
    match s.phase with
    | .removing k ((c, id) :: left) => do
        let cam ← s.cameras[c]?
        return { s.setCamera c (cam.removeTap id) with phase := .removing k left }
    | _ => none
  | .closeVid =>
    match s.phase with
    | .removing k [] => do
        let ep ← s.episodes[k]?
        match ep.vid.close with
        | some vid => return { s.setEpisode k { ep with vid } with phase := .waiting k }
        | none => return { s with panicked := true }
    | _ => none
  | .drain k channelOk writeOk => do
      let ep ← s.episodes[k]?
      return s.setEpisode k (← ep.drainVideo channelOk writeOk)
  | .finalize =>
    match s.phase with
    | .waiting k => do
        let ep ← s.episodes[k]?
        if ep.drained then
          return { s.setEpisode k { ep with finalized := some ep.handed } with phase := .idle }
        else none
    | _ => none

def next (s : Recording) (e : Event) : Option Recording := if s.panicked then none else s.step e

end Recording

/-! ### Invariants -/

namespace Episode

/-- Every frame that was sent is with the writer or still in the channel; once `drainVideo` has ended, none is in the channel, and none will come. -/
structure Sound (ep : Episode) : Prop where
  sent : ep.sent = ep.handed.map (·.1) ++ ep.vid.buf
  drained : ep.drained = true → ep.vid.closed = true ∧ ep.vid.buf = []
  finalized : ∀ handed, ep.finalized = some handed → ep.drained = true ∧ handed = ep.handed

theorem sound_new : Sound {} := ⟨rfl, fun h => (by cases h), fun _ h => (by cases h)⟩

variable {ep : Episode}

theorem Sound.start (h : ep.Sound) (camID : String) (keyframe : Bool) :
    (ep.start camID keyframe).Sound ∧ (ep.start camID keyframe).vid = ep.vid := by
  unfold Episode.start
  split
  · exact ⟨⟨h.sent, h.drained, h.finalized⟩, rfl⟩
  · exact ⟨h, rfl⟩

variable {ep' : Episode}

theorem Sound.handOver {f : VideoFrame} (h : ep.Sound) (hover : ep.handOver f = some ep') :
    ep'.Sound ∧ ep'.vid.closed = ep.vid.closed := by
  unfold Episode.handOver at hover
  split at hover
  · rename_i vid hsent
    cases hover
    obtain ⟨hopen, -, rfl⟩ := Chan.send_eq_sent hsent
    refine ⟨⟨?_, fun hdrained => ?_, h.finalized⟩, rfl⟩
    · rw [← List.append_assoc, ← h.sent]
    · rw [(h.drained hdrained).1] at hopen
      cases hopen
  · cases hover
    exact ⟨⟨h.sent, h.drained, h.finalized⟩, rfl⟩
  · cases hover

theorem handOver_ne_none (hopen : ep.vid.closed = false) (f : VideoFrame) : ep.handOver f ≠ none := by
  unfold Episode.handOver
  split
  · exact Option.some_ne_none _
  · exact Option.some_ne_none _
  · rename_i hcrash
    exact absurd hcrash (Chan.send_ne_crashes hopen f)

theorem hand_spec (ep : Episode) (f : VideoFrame) (channelOk writeOk : Bool) :
    ∃ outcome, (ep.hand f channelOk writeOk).handed = ep.handed ++ [(f, outcome)] ∧
      (ep.hand f channelOk writeOk).vid = ep.vid ∧ (ep.hand f channelOk writeOk).sent = ep.sent ∧
      (ep.hand f channelOk writeOk).drained = ep.drained ∧ (ep.hand f channelOk writeOk).finalized = ep.finalized := by
  unfold hand
  split
  · exact ⟨.noChannel, rfl, rfl, rfl, rfl, rfl⟩
  dsimp only
  split
  · exact ⟨.written, rfl, rfl, rfl, rfl, rfl⟩
  · exact ⟨.failed, rfl, rfl, rfl, rfl, rfl⟩

theorem Sound.drainVideo {channelOk writeOk : Bool} (h : ep.Sound)
    (hdrain : ep.drainVideo channelOk writeOk = some ep') : ep'.Sound ∧ ep'.vid.closed = ep.vid.closed := by
  unfold Episode.drainVideo at hdrain
  split at hdrain
  · cases hdrain
  rename_i hrunning
  have hnot : ¬ep.drained = true := fun hdrained => hrunning (.inr hdrained)
  split at hdrain
  · cases hdrain
  · rename_i vid hreceive
    cases hdrain
    obtain ⟨hbuf, hclosed, -⟩ := Chan.receive_eq_end hreceive
    exact ⟨⟨h.sent, fun _ => ⟨hclosed, hbuf⟩, fun handed hfinal => absurd (h.finalized handed hfinal).1 hnot⟩, rfl⟩
  · rename_i f vid hreceive
    cases hdrain
    obtain ⟨hbuf, hclosed⟩ := Chan.receive_eq_some hreceive
    obtain ⟨outcome, hhanded, hvid, hsent, hdrained, hfinalized⟩ := hand_spec { ep with vid } f channelOk writeOk
    refine ⟨⟨?_, fun hd => ?_, fun handed hfinal => ?_⟩, by rw [hvid, hclosed]⟩
    · rw [hsent, hhanded, hvid, List.map_append, List.append_assoc]
      exact h.sent.trans (by rw [hbuf]; rfl)
    · rw [hdrained] at hd
      exact absurd hd hnot
    · rw [hfinalized] at hfinal
      exact absurd (h.finalized handed hfinal).1 hnot

end Episode

theorem Phase.episode?_of_mem_removes {p : Phase} {k : Nat} {r : Nat × Nat} (h : r ∈ p.removes k) :
    p.episode? = some k := by
  cases p with
  | idle => cases h
  | tapping j left removes => rw [(List.mem_ite_nil_right.mp h).1, episode?]
  | recording j removes => rw [(List.mem_ite_nil_right.mp h).1, episode?]
  | removing j left => rw [(List.mem_ite_nil_right.mp h).1, episode?]
  | waiting j => cases h

namespace Recording

def IsOpen (s : Recording) (k : Nat) : Prop := ∃ ep, s.episodes[k]? = some ep ∧ ep.vid.closed = false

/-- No send or close on a closed channel is possible. -/
structure Sound (s : Recording) : Prop where
  alive : s.panicked = false
  registered : ∀ c cam, s.cameras[c]? = some cam → ∀ id tap, cam.taps.lookup id = some tap →
    (c, id) ∈ s.phase.removes tap.episode
  calls : ∀ cam ∈ s.cameras, ∀ tap ∈ cam.fanout.calls, s.IsOpen tap.episode
  current : ∀ k, s.phase.episode? = some k → s.IsOpen k
  episodes : ∀ ep ∈ s.episodes, ep.Sound

theorem sound_init : Sound {} :=
  ⟨rfl, fun _ _ h => (by cases h), fun _ h => (by cases h), fun _ h => (by cases h), fun _ h => (by cases h)⟩

variable {s t : Recording} {c k : Nat} {cam : Camera} {ep : Episode} {removes : List (Nat × Nat)}

variable {id : Nat} {tap : Tap} {cam' : Camera} {ep' : Episode}

theorem Sound.isOpen_of_tap (hs : s.Sound) (hcam : s.cameras[c]? = some cam)
    (htap : cam.taps.lookup id = some tap) : s.IsOpen tap.episode :=
  hs.current _ (Phase.episode?_of_mem_removes (hs.registered c cam hcam id tap htap))

theorem getElem?_setCamera {c' : Nat} (h : (s.setCamera c cam).cameras[c']? = some cam') :
    c' = c ∧ cam' = cam ∨ c' ≠ c ∧ s.cameras[c']? = some cam' := by
  unfold setCamera at h
  rw [List.getElem?_set] at h
  split at h
  · rename_i hc
    obtain ⟨-, hout⟩ := Option.ite_none_right_eq_some.mp h
    exact .inl ⟨hc.symm, (Option.some.inj hout).symm⟩
  · rename_i hc
    exact .inr ⟨Ne.symm hc, h⟩

theorem isOpen_setEpisode {j : Nat} (hep : s.episodes[k]? = some ep)
    (hsame : j = k → ep'.vid.closed = ep.vid.closed) (h : s.IsOpen j) : (s.setEpisode k ep').IsOpen j := by
  obtain ⟨ep₀, hep₀, hopen⟩ := h
  by_cases hj : j = k
  · subst hj
    cases hep.symm.trans hep₀
    refine ⟨ep', ?_, (hsame rfl).trans hopen⟩
    exact List.getElem?_set_self (List.getElem?_eq_some_iff.mp hep).1
  · refine ⟨ep₀, ?_, hopen⟩
    exact (List.getElem?_set_ne (Ne.symm hj)).trans hep₀

theorem Sound.setCamera (hs : s.Sound) (hcam : s.cameras[c]? = some cam)
    (hfollows : cam.Follows cam') : (s.setCamera c cam').Sound := by
  refine ⟨hs.alive, fun c₁ cam₁ hcam₁ id tap htap => ?_, fun cam₁ hcam₁ tap htap => ?_, hs.current, hs.episodes⟩
  · rcases getElem?_setCamera hcam₁ with ⟨rfl, rfl⟩ | ⟨-, hold⟩
    · rw [hfollows.taps] at htap
      exact hs.registered c₁ cam hcam id tap htap
    · exact hs.registered c₁ cam₁ hold id tap htap
  · rcases List.mem_or_eq_of_mem_set hcam₁ with hold | rfl
    · exact hs.calls cam₁ hold tap htap
    · rcases hfollows.calls tap htap with hcall | ⟨id, hlookup⟩
      · exact hs.calls cam (List.mem_of_getElem? hcam) tap hcall
      · exact hs.isOpen_of_tap hcam hlookup

theorem Sound.setEpisode (hs : s.Sound) (hep : s.episodes[k]? = some ep)
    (hep' : ep'.Sound ∧ ep'.vid.closed = ep.vid.closed) : (s.setEpisode k ep').Sound := by
  refine ⟨hs.alive, hs.registered, fun cam hcam tap htap => ?_, fun j hj => ?_, fun ep₁ hep₁ => ?_⟩
  · exact isOpen_setEpisode hep (fun _ => hep'.2) (hs.calls cam hcam tap htap)
  · exact isOpen_setEpisode hep (fun _ => hep'.2) (hs.current j hj)
  · rcases List.mem_or_eq_of_mem_set hep₁ with hold | rfl
    · exact hs.episodes ep₁ hold
    · exact hep'.1

/-- The channel is closed when no camera is going to call the tap of the episode, or is inside of it. -/
def Quiet (s : Recording) (e : Event) : Prop :=
  e = .closeVid → ∀ cam ∈ s.cameras, ∀ tap ∈ cam.fanout.calls, s.phase.episode? ≠ some tap.episode

instance (s : Recording) (e : Event) : Decidable (Quiet s e) := inferInstanceAs (Decidable (_ → _))

theorem Sound.closeVid (hs : s.Sound) (hquiet : Quiet s .closeVid)
    (hphase : s.phase = .removing k []) (hep : s.episodes[k]? = some ep) :
    Sound { s.setEpisode k { ep with vid := { ep.vid with closed := true } } with phase := .waiting k } := by
  have hnone : ∀ (c : Nat) (cam : Camera), s.cameras[c]? = some cam → ∀ id tap, cam.taps.lookup id ≠ some tap := by
    intro c cam hcam id tap htap
    have hmem := hs.registered c cam hcam id tap htap
    rw [hphase, Phase.removes, ite_self] at hmem
    cases hmem
  have hsound := hs.episodes ep (List.mem_of_getElem? hep)
  refine ⟨hs.alive, fun c cam hcam id tap htap => absurd htap (hnone c cam hcam id tap), fun cam hcam tap htap => ?_,
    fun j hj => (by cases hj), fun ep₁ hep₁ => ?_⟩
  · have hother := hquiet rfl cam hcam tap htap
    rw [hphase] at hother
    exact isOpen_setEpisode hep (fun heq => absurd (congrArg some heq.symm) hother) (hs.calls cam hcam tap htap)
  · rcases List.mem_or_eq_of_mem_set hep₁ with hold | rfl
    · exact hs.episodes ep₁ hold
    · exact ⟨hsound.sent, fun hdrained => ⟨rfl, (hsound.drained hdrained).2⟩, hsound.finalized⟩

theorem Sound.withPhase (hs : s.Sound) {p : Phase} (hremoves : ∀ k r, r ∈ s.phase.removes k → r ∈ p.removes k)
    (hcurrent : ∀ k, p.episode? = some k → s.phase.episode? = some k) : Sound { s with phase := p } :=
  ⟨hs.alive, fun c cam hcam id tap htap => hremoves _ _ (hs.registered c cam hcam id tap htap), hs.calls,
    fun k hk => hs.current k (hcurrent k hk), hs.episodes⟩

theorem Sound.plug (hs : s.Sound) (cams : Table String Nat) : Sound { s with cameras := s.cameras ++ [{}], cams } := by
  refine ⟨hs.alive, fun c cam hcam id tap htap => ?_, fun cam hcam tap htap => ?_, hs.current, hs.episodes⟩
  · rcases Nat.lt_or_ge c s.cameras.length with hlt | hge
    · exact hs.registered c cam ((List.getElem?_append_left hlt).symm.trans hcam) id tap htap
    · have hnew := List.mem_of_getElem? ((List.getElem?_append_right hge).symm.trans hcam)
      rw [List.mem_singleton.mp hnew, AList.lookup_empty] at htap
      cases htap
  · rcases List.mem_append.mp hcam with hold | hnew
    · exact hs.calls cam hold tap htap
    · rw [List.mem_singleton.mp hnew] at htap
      cases htap

theorem Sound.startEpisode (hs : s.Sound) (hidle : s.phase = .idle) (left : List (String × Nat)) :
    Sound { s with episodes := s.episodes ++ [{}], phase := .tapping s.episodes.length left [] } := by
  have hkept : ∀ k, s.IsOpen k →
      IsOpen { s with episodes := s.episodes ++ [{}], phase := .tapping s.episodes.length left [] } k := by
    rintro k ⟨ep, hep, hopen⟩
    exact ⟨ep, (List.getElem?_append_left (List.getElem?_eq_some_iff.mp hep).1).trans hep, hopen⟩
  refine ⟨hs.alive, fun c cam hcam id tap htap => ?_, fun cam hcam tap htap => ?_, fun k hk => ?_, fun ep hep => ?_⟩
  · have hmem := hs.registered c cam hcam id tap htap
    rw [hidle] at hmem
    cases hmem
  · exact hkept _ (hs.calls cam hcam tap htap)
  · cases hk
    exact ⟨{}, List.getElem?_concat_length, rfl⟩
  rcases List.mem_append.mp hep with hold | hnew
  · exact hs.episodes ep hold
  · rw [List.mem_singleton.mp hnew]
    exact Episode.sound_new

theorem Sound.addTap (hs : s.Sound) {left left' : List (String × Nat)}
    (hphase : s.phase = .tapping k left removes) (hcam : s.cameras[c]? = some cam)
    (htap : tap.episode = k) :
    Sound { s.setCamera c (cam.addTap tap) with phase := .tapping k left' (removes ++ [(c, cam.nextTap)]) } := by
  have hold : ∀ (c₁ : Nat) (cam₁ : Camera), s.cameras[c₁]? = some cam₁ → ∀ id tap₁, cam₁.taps.lookup id = some tap₁ →
      (c₁, id) ∈ (Phase.tapping k left' (removes ++ [(c, cam.nextTap)])).removes tap₁.episode := by
    intro c₁ cam₁ hcam₁ id tap₁ htap₁
    have hmem := hs.registered c₁ cam₁ hcam₁ id tap₁ htap₁
    rw [hphase, Phase.removes, List.mem_ite_nil_right] at hmem
    exact List.mem_ite_nil_right.mpr ⟨hmem.1, List.mem_append_left _ hmem.2⟩
  refine ⟨hs.alive, fun c₁ cam₁ hcam₁ id tap₁ htap₁ => ?_, fun cam₁ hcam₁ tap₁ htap₁ => ?_, fun j hj => ?_, hs.episodes⟩
  · rcases getElem?_setCamera hcam₁ with ⟨rfl, rfl⟩ | ⟨-, hcam₁⟩
    · by_cases hid : id = cam.nextTap
      · subst hid
        cases (AList.lookup_insert cam.taps).symm.trans htap₁
        rw [Phase.removes, if_pos htap]
        exact List.mem_append_right _ (List.mem_singleton_self _)
      · exact hold c₁ cam hcam id tap₁ ((AList.lookup_insert_ne hid).symm.trans htap₁)
    · exact hold c₁ cam₁ hcam₁ id tap₁ htap₁
  · rcases List.mem_or_eq_of_mem_set hcam₁ with hcam₁ | rfl
    · exact hs.calls cam₁ hcam₁ tap₁ htap₁
    · exact hs.calls cam (List.mem_of_getElem? hcam) tap₁ htap₁
  · refine hs.current j ?_
    rw [hphase]
    exact hj

theorem Sound.removeTap (hs : s.Sound) {left : List (Nat × Nat)}
    (hphase : s.phase = .removing k ((c, id) :: left)) (hcam : s.cameras[c]? = some cam) :
    Sound { s.setCamera c (cam.removeTap id) with phase := .removing k left } := by
  have hleft : ∀ (c₁ : Nat) (cam₁ : Camera), s.cameras[c₁]? = some cam₁ → ∀ id₁ tap, cam₁.taps.lookup id₁ = some tap →
      (c₁, id₁) ≠ (c, id) → (c₁, id₁) ∈ (Phase.removing k left).removes tap.episode := by
    intro c₁ cam₁ hcam₁ id₁ tap htap hne
    have hmem := hs.registered c₁ cam₁ hcam₁ id₁ tap htap
    rw [hphase, Phase.removes, List.mem_ite_nil_right] at hmem
    exact List.mem_ite_nil_right.mpr ⟨hmem.1, (List.mem_cons.mp hmem.2).resolve_left hne⟩
  refine ⟨hs.alive, fun c₁ cam₁ hcam₁ id₁ tap htap => ?_, fun cam₁ hcam₁ tap htap => ?_, fun j hj => ?_, hs.episodes⟩
  · rcases getElem?_setCamera hcam₁ with ⟨rfl, rfl⟩ | ⟨hc, hcam₁⟩
    · have hne : id₁ ≠ id := by
        intro heq
        subst heq
        rw [Camera.removeTap, AList.lookup_erase] at htap
        cases htap
      refine hleft c₁ cam hcam id₁ tap ((AList.lookup_erase_ne hne).symm.trans htap) fun heq => hne ?_
      exact congrArg Prod.snd heq
    · exact hleft c₁ cam₁ hcam₁ id₁ tap htap fun heq => hc (congrArg Prod.fst heq)
  · rcases List.mem_or_eq_of_mem_set hcam₁ with hcam₁ | rfl
    · exact hs.calls cam₁ hcam₁ tap htap
    · exact hs.calls cam (List.mem_of_getElem? hcam) tap htap
  · refine hs.current j ?_
    rw [hphase]
    exact hj

theorem Sound.started (hs : s.Sound)
    (hphase : s.phase = .tapping k [] removes) (hep : s.episodes[k]? = some ep) :
    Sound { s.setEpisode k { ep with draining := true } with phase := .recording k removes } := by
  have hold := hs.episodes ep (List.mem_of_getElem? hep)
  have hsound : Episode.Sound { ep with draining := true } := ⟨hold.sent, hold.drained, hold.finalized⟩
  have hsame : (s.setEpisode k { ep with draining := true }).phase = .tapping k [] removes := hphase
  refine (hs.setEpisode hep ⟨hsound, rfl⟩).withPhase (fun j r hr => ?_) fun j hj => ?_
  · rw [hsame] at hr
    exact hr
  · rw [hsame]
    exact hj

theorem Sound.stopEpisode (hs : s.Sound) (hphase : s.phase = .recording k removes) :
    Sound { s with phase := .removing k removes } := by
  refine hs.withPhase (fun j r hr => ?_) fun j hj => ?_
  · rw [hphase] at hr
    exact hr
  · rw [hphase]
    exact hj

theorem Sound.finalize (hs : s.Sound) (hphase : s.phase = .waiting k)
    (hep : s.episodes[k]? = some ep) (hdrained : ep.drained = true) :
    Sound { s.setEpisode k { ep with finalized := some ep.handed } with phase := .idle } := by
  have hold := hs.episodes ep (List.mem_of_getElem? hep)
  have hsound : Episode.Sound { ep with finalized := some ep.handed } :=
    ⟨hold.sent, hold.drained, fun handed hfinal => ⟨hdrained, (Option.some.inj hfinal).symm⟩⟩
  have hsame : (s.setEpisode k { ep with finalized := some ep.handed }).phase = .waiting k := hphase
  refine (hs.setEpisode hep ⟨hsound, rfl⟩).withPhase (fun j r hr => ?_) fun j hj => (by cases hj)
  rw [hsame] at hr
  exact hr

theorem sound_step {e : Event} (hs : s.Sound) (hquiet : Quiet s e) (h : s.step e = some t) : t.Sound := by
  have hep : ∀ {k : Nat} {ep : Episode}, s.episodes[k]? = some ep → ep.Sound :=
    fun hk => hs.episodes _ (List.mem_of_getElem? hk)
  cases e with
  | plug name =>
    obtain ⟨-, hout⟩ := Option.ite_none_left_eq_some.mp h
    cases hout
    exact hs.plug _
  | unplug name =>
    obtain ⟨-, hout⟩ := Option.ite_none_left_eq_some.mp h
    obtain ⟨c, -, hout⟩ := Option.bind_eq_some_iff.mp hout
    obtain ⟨cam, hcam, hout⟩ := Option.bind_eq_some_iff.mp hout
    cases hout
    have hfollows : cam.Follows { cam with cancelled := true } := ⟨rfl, fun tap htap => .inl htap⟩
    have hset := hs.setCamera hcam hfollows
    exact ⟨hset.alive, hset.registered, hset.calls, hset.current, hset.episodes⟩
  | nal c nal =>
    obtain ⟨cam, hcam, hout⟩ := Option.bind_eq_some_iff.mp h
    obtain ⟨cam', hreceive, hout⟩ := Option.bind_eq_some_iff.mp hout
    cases hout
    exact hs.setCamera hcam (Camera.follows_receive hreceive)
  | cancel c =>
    obtain ⟨cam, hcam, hout⟩ := Option.bind_eq_some_iff.mp h
    obtain ⟨cam', hcancel, hout⟩ := Option.bind_eq_some_iff.mp hout
    cases hout
    exact hs.setCamera hcam (Camera.follows_cancel hcancel)
  | call c tap =>
    obtain ⟨cam, hcam, hout⟩ := Option.bind_eq_some_iff.mp h
    obtain ⟨ep, hk, hout⟩ := Option.bind_eq_some_iff.mp hout
    obtain ⟨cam', henter, hout⟩ := Option.bind_eq_some_iff.mp hout
    cases hout
    obtain ⟨hstart, hvid⟩ := (hep hk).start tap.camID cam.keyframe
    exact (hs.setEpisode hk ⟨hstart, congrArg Chan.closed hvid⟩).setCamera hcam (Camera.follows_enter henter)
  | select c time =>
    obtain ⟨cam, hcam, hout⟩ := Option.bind_eq_some_iff.mp h
    obtain ⟨tap, hinside, hout⟩ := Option.bind_eq_some_iff.mp hout
    obtain ⟨ep, hk, hout⟩ := Option.bind_eq_some_iff.mp hout
    obtain ⟨ep₀, hep₀, hopen⟩ := hs.calls cam (List.mem_of_getElem? hcam) tap (Camera.inside_mem_calls hinside)
    cases hk.symm.trans hep₀
    split at hout
    · rename_i ep' hover
      cases hout
      exact (hs.setEpisode hk ((hep hk).handOver hover)).setCamera hcam cam.follows_leave
    · rename_i hcrash
      exact absurd hcrash (Episode.handOver_ne_none hopen _)
  | flushed c =>
    obtain ⟨cam, hcam, hout⟩ := Option.bind_eq_some_iff.mp h
    obtain ⟨cam', hflushed, hout⟩ := Option.bind_eq_some_iff.mp hout
    cases hout
    exact hs.setCamera hcam (Camera.follows_flushed hflushed)
  | startEpisode =>
    obtain ⟨hidle, hout⟩ := Option.ite_none_right_eq_some.mp h
    cases hout
    exact hs.startEpisode hidle _
  | addTap name c =>
    simp only [step] at h
    split at h
    · rename_i k left removes hphase
      obtain ⟨-, hout⟩ := Option.ite_none_right_eq_some.mp h
      obtain ⟨cam, hcam, hout⟩ := Option.bind_eq_some_iff.mp hout
      cases hout
      exact hs.addTap hphase hcam rfl
    · cases h
  | started =>
    simp only [step] at h
    split at h
    · rename_i k removes hphase
      obtain ⟨ep, hk, hout⟩ := Option.bind_eq_some_iff.mp h
      cases hout
      exact hs.started hphase hk
    · cases h
  | stopEpisode =>
    simp only [step] at h
    split at h
    · rename_i k removes hphase
      cases h
      exact hs.stopEpisode hphase
    · cases h
  | removeTap =>
    simp only [step] at h
    split at h
    · rename_i k c id left hphase
      obtain ⟨cam, hcam, hout⟩ := Option.bind_eq_some_iff.mp h
      cases hout
      exact hs.removeTap hphase hcam
    · cases h
  | closeVid =>
    simp only [step] at h
    split at h
    · rename_i k hphase
      obtain ⟨ep, hk, hout⟩ := Option.bind_eq_some_iff.mp h
      obtain ⟨ep₀, hep₀, hopen⟩ := hs.current k (by rw [hphase]; rfl)
      cases hk.symm.trans hep₀
      rw [Chan.close_of_open hopen] at hout
      cases hout
      exact hs.closeVid hquiet hphase hk
    · cases h
  | drain k channelOk writeOk =>
    obtain ⟨ep, hk, hout⟩ := Option.bind_eq_some_iff.mp h
    obtain ⟨ep', hdrain, hout⟩ := Option.bind_eq_some_iff.mp hout
    cases hout
    exact hs.setEpisode hk ((hep hk).drainVideo hdrain)
  | finalize =>
    simp only [step] at h
    split at h
    · rename_i k hphase
      obtain ⟨ep, hk, hout⟩ := Option.bind_eq_some_iff.mp h
      obtain ⟨hdrained, hout⟩ := Option.ite_none_right_eq_some.mp hout
      cases hout
      exact hs.finalize hphase hk hdrained
    · cases h

theorem sound_run {es : List Event} (hrun : Run (Guarded Quiet (Takes next)) {} es t) : t.Sound := by
  refine hrun.invariant Sound (fun s e t hs hstep => sound_step hs hstep.1 ?_) sound_init
  simpa [Takes, next, hs.alive] using hstep.2

/-- In every run in which `vid` is closed only when no camera is on its way to the tap, nothing sends on it after it is closed, and `finalize` runs when the writer has been given every frame that was sent. A close while a camera is inside the tap lets that camera crash the agent. -/
theorem stop_never_races (es : List Event) (t : Recording) (hrun : Run (Guarded Quiet (Takes next)) {} es t) :
    t.panicked = false ∧
      (∀ ep ∈ t.episodes, ∀ handed, ep.finalized = some handed → handed.map (·.1) = ep.sent) ∧
      ∀ u, t.next .closeVid = some u → ∀ c cam tap time, t.cameras[c]? = some cam → cam.fanout.inside = some tap →
        t.phase.episode? = some tap.episode → ∃ v, u.next (.select c time) = some v ∧ v.panicked = true := by
  have hsound := sound_run hrun
  refine ⟨hsound.alive, fun ep hep handed hfinal => ?_, fun u hclose c cam tap time hcam hinside htap => ?_⟩
  · obtain ⟨hdrained, rfl⟩ := (hsound.episodes ep hep).finalized handed hfinal
    rw [(hsound.episodes ep hep).sent, ((hsound.episodes ep hep).drained hdrained).2, List.append_nil]
  have hstep : (if t.panicked then none else t.step .closeVid) = some u := hclose
  rw [hsound.alive, if_neg Bool.false_ne_true] at hstep
  simp only [step] at hstep
  split at hstep
  · rename_i k hphase
    obtain ⟨ep, hk, hout⟩ := Option.bind_eq_some_iff.mp hstep
    obtain ⟨ep₀, hep₀, hopen⟩ := hsound.current k (by rw [hphase]; rfl)
    cases hk.symm.trans hep₀
    rw [Chan.close_of_open hopen] at hout
    cases hout
    rw [hphase] at htap
    cases htap
    have hclosed : (t.episodes.set tap.episode { ep with vid := { ep.vid with closed := true } })[tap.episode]? =
        some { ep with vid := { ep.vid with closed := true } } :=
      List.getElem?_set_self (List.getElem?_eq_some_iff.mp hk).1
    refine ⟨{ t.setEpisode tap.episode { ep with vid := { ep.vid with closed := true } } with
      phase := .waiting tap.episode, panicked := true }, ?_, rfl⟩
    unfold next step setEpisode
    dsimp only
    rw [hsound.alive, if_neg Bool.false_ne_true, hcam, Option.bind_eq_bind, Option.bind_some, hinside,
      Option.bind_eq_bind, Option.bind_some, hclosed, Option.bind_eq_bind, Option.bind_some, Episode.handOver,
      Chan.send_closed rfl]
    rfl
  · cases hstep

def untilFlush : List Event :=
  [.plug "front", .startEpisode, .addTap "front" 0, .started, .nal 0 (some [0x65]), .nal 0 (some [0x09])]

def frontTap : Tap := { camID := "front", episode := 0 }

def orderly : List Event :=
  untilFlush ++ [.call 0 frontTap, .select 0 7, .flushed 0, .stopEpisode, .removeTap, .closeVid, .drain 0 true true,
    .drain 0 true true, .finalize]

theorem stop_never_races_orderly :
    ∃ t, Run (Guarded Quiet (Takes next)) {} orderly t ∧ t.panicked = false ∧
      t.episodes.map (fun ep => (ep.sent.length, ep.finalized)) =
        [(1, some [({ camID := "front", au := [0, 0, 0, 1, 0x65], time := 7 }, .written)])] := by
  have hrun : ∃ t : Recording, orderly.foldlM (fun s e => if Quiet s e then next s e else none) {} = some t ∧
      t.episodes.map (fun ep => (ep.sent.length, ep.finalized)) =
        [(1, some [({ camID := "front", au := [0, 0, 0, 1, 0x65], time := 7 }, .written)])] := ⟨_, rfl, rfl⟩
  obtain ⟨t, hfold, hepisodes⟩ := hrun
  have hguarded := run_guarded_iff.mpr hfold
  exact ⟨t, hguarded, (stop_never_races _ t hguarded).1, hepisodes⟩

/-- The episode is stopped between the copy of the taps and the call. -/
theorem tap_after_close :
    ∃ t, Run (Takes next) {} (untilFlush ++ [.stopEpisode, .removeTap, .closeVid, .call 0 frontTap, .select 0 7]) t ∧
      t.panicked = true :=
  ⟨_, run_takes_iff.mpr rfl, rfl⟩

/-- Between two recordings no camera has a tap left, whatever was plugged in or out meanwhile, and none is on its way to a tap of an episode that has been closed. -/
theorem untapped_between (es : List Event) (t : Recording) (hrun : Run (Guarded Quiet (Takes next)) {} es t) :
    (t.phase = .idle → ∀ cam ∈ t.cameras, ∀ id, cam.taps.lookup id = none) ∧
      ∀ cam ∈ t.cameras, ∀ tap ∈ cam.fanout.calls, ∃ ep, t.episodes[tap.episode]? = some ep ∧ ep.vid.closed = false := by
  have hsound := sound_run hrun
  refine ⟨fun hidle cam hcam id => ?_, hsound.calls⟩
  obtain ⟨c, hc⟩ := List.getElem?_of_mem hcam
  by_contra htapped
  obtain ⟨tap, htap⟩ := Option.ne_none_iff_exists'.mp htapped
  have hmem := hsound.registered c cam hc id tap htap
  rw [hidle] at hmem
  cases hmem

theorem untapped_between_orderly :
    ∃ t, Run (Guarded Quiet (Takes next)) {} orderly t ∧ t.cameras.length = 1 ∧ ∀ cam ∈ t.cameras, cam.taps.lookup 0 = none := by
  have hrun : ∃ t : Recording, orderly.foldlM (fun s e => if Quiet s e then next s e else none) {} = some t ∧
      t.phase = .idle ∧ t.cameras.length = 1 := ⟨_, rfl, rfl, rfl⟩
  obtain ⟨t, hfold, hidle, hone⟩ := hrun
  have hguarded := run_guarded_iff.mpr hfold
  exact ⟨t, hguarded, hone, fun cam hcam => (untapped_between _ t hguarded).1 hidle cam hcam 0⟩

end Recording

end Waypoint.Agent.Recorder
