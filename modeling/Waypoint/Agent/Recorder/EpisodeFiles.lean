import Mathlib.Data.List.Sort
import Waypoint.Base.Crash
import Waypoint.Base.Run
import Waypoint.Base.Table

/-!
# Episode files

The files the recorder keeps for an episode, and the programs that write them: `newEpisodeWriter` and `finalize` around a recording, and `RecoverPartials` at every boot. A program is the list of the atomic steps it takes from the directory it finds; a crash cuts that list off.
-/

namespace Waypoint.Agent.Recorder.Files

open Base

/-! ### The directory -/

inductive Token
  | header
  | schema
  | channel
  | message
  | metadata
  deriving DecidableEq

structure Record where
  token : Token
  body : List UInt8 := []

structure Container where
  records : List Record := []
  /-- the summary, the footer and the closing magic -/
  footer : Bool := false

structure Sidecar where
  formatVersion : Nat := 1
  episodeID : String
  platformID : String := ""
  roverID : String := ""
  taskLabel : String := ""
  success : Option Bool := none
  notes : String := ""
  crashed : Bool := false
  videoFramesDropped : Nat := 0

/-- The files of one episode: `<id>.mcap.partial`, `<id>.mcap`, `<id>.mcap.recovering` and `<id>.json`. -/
structure Slot where
  mcapPartial : Option Container := none
  mcap : Option Container := none
  recovering : Option Container := none
  json : Option Sidecar := none

inductive Part
  | mcapPartial
  | mcap
  | recovering
  deriving DecidableEq

def Slot.get (v : Slot) : Part → Option Container
  | .mcapPartial => v.mcapPartial
  | .mcap => v.mcap
  | .recovering => v.recovering

def Slot.set (v : Slot) (c : Option Container) : Part → Slot
  | .mcapPartial => { v with mcapPartial := c }
  | .mcap => { v with mcap := c }
  | .recovering => { v with recovering := c }

/-- A file name is read in one way only, as an episode and one of the four endings. -/
structure Disk where
  episodes : Table String Slot := ∅

namespace Disk

def slot (d : Disk) (id : String) : Slot := (d.episodes.lookup id).getD {}

/-- `os.ReadDir` gives the entries sorted by file name. -/
def partials (d : Disk) : List String :=
  (d.episodes.keys.filter fun id => (d.slot id).mcapPartial.isSome).insertionSort fun id j =>
    id ++ ".mcap.partial" ≤ j ++ ".mcap.partial"

theorem mem_partials {d : Disk} {id : String} : id ∈ d.partials ↔ (d.slot id).mcapPartial.isSome := by
  rw [partials, List.mem_insertionSort, List.mem_filter, and_iff_right_iff_imp]
  intro h
  by_contra hmem
  rw [slot, AList.lookup_eq_none.mpr hmem] at h
  cases h

end Disk

/-! ### Atomic steps -/

inductive Op
  | create (part : Part)
  | append (part : Part) (r : Record)
  | close (part : Part)
  | rename (src dst : Part)
  | remove (part : Part)
  | writeSidecar (sc : Sidecar)

def Slot.apply (v : Slot) : Op → Slot
  | .create part => v.set (some {}) part
  | .append part r => v.set ((v.get part).map fun c => { c with records := c.records ++ [r] }) part
  | .close part => v.set ((v.get part).map fun c => { c with footer := true }) part
  | .rename src dst => (v.set none src).set (v.get src) dst
  | .remove part => v.set none part
  | .writeSidecar sc => { v with json := some sc }

structure Step where
  id : String
  op : Op

def Disk.apply (d : Disk) (step : Step) : Disk :=
  { episodes := d.episodes.insert step.id ((d.slot step.id).apply step.op) }

def Disk.run (d : Disk) (steps : List Step) : Disk := steps.foldl Disk.apply d

/-! ### Programs -/

/-- `none`: the exclusive creation of the file fails. -/
def newEpisodeWriter (v : Slot) (channels : List Record) : Option (List Op) :=
  if v.mcapPartial.isSome then none
  else some (.create .mcapPartial :: ({ token := .header } :: channels).map (.append .mcapPartial))

def finalize (sc : Sidecar) (metadata : List UInt8) : List Op :=
  [.append .mcapPartial { token := .metadata, body := metadata }, .close .mcapPartial, .rename .mcapPartial .mcap,
    .writeSidecar sc]

def Record.isCopied (r : Record) : Bool := r.token = .schema ∨ r.token = .channel ∨ r.token = .message

def copyRecords (input : Container) : List Op := (input.records.filter Record.isCopied).map (.append .recovering)

def recoverPartial (v : Slot) : Option (List Op) :=
  match v.mcapPartial with
  | none => none
  | some input =>
    -- what a recovery that was cut off left behind makes the exclusive creation fail
    if v.recovering.isSome then none
    else some <|
      [.create .recovering, .append .recovering { token := .header }] ++ copyRecords input ++
        [.close .recovering, .rename .recovering .mcap, .remove .mcapPartial]

def crashedSidecar (id : String) : Sidecar :=
  { episodeID := id
    crashed := true
    notes := "recovered after unclean shutdown; re-footered from partial" }

/-- One turn of the loop of `RecoverPartials`. -/
def recoverOne (id : String) (v : Slot) : List Op :=
  match recoverPartial v with
  | some ops => ops ++ [.writeSidecar (crashedSidecar id)]
  | none => []

def recoverEach : List String → Disk → List Step
  | [], _ => []
  | id :: ids, d =>
    let steps := (recoverOne id (d.slot id)).map (Step.mk id)
    steps ++ recoverEach ids (d.run steps)

def recoverPartials (d : Disk) : List Step := recoverEach d.partials d

/-- What is asked of the recorder once the agent is up. An id is the time and a random number; a record is one that reaches the disk. -/
inductive Command
  | start (id : String) (channels : List Record) (subscribed : Bool)
  | record (r : Record)
  | stop (sc : Sidecar) (metadata : List UInt8)

/-- The steps of a command, and the episode that is recorded after it. -/
def exec (active : Option String) (d : Disk) : Command → List Step × Option String
  | .start id channels subscribed =>
    match active, newEpisodeWriter (d.slot id) channels with
    | none, some ops =>
      if subscribed then (ops.map (Step.mk id), some id)
      -- a failed subscription drops the new file again
      else ((ops ++ [Op.close .mcapPartial, .remove .mcapPartial]).map (Step.mk id), none)
    | _, _ => ([], active)
  | .record r =>
    match active with
    | some id => ([⟨id, .append .mcapPartial r⟩], active)
    | none => ([], none)
  | .stop sc metadata =>
    match active with
    | some id => ((finalize { sc with episodeID := id } metadata).map (Step.mk id), none)
    | none => ([], none)

def session : List Command → Option String → Disk → List Step
  | [], _, _ => []
  | c :: cs, active, d => (exec active d c).1 ++ session cs (exec active d c).2 (d.run (exec active d c).1)

def boot (commands : List Command) (d : Disk) : List Step :=
  recoverPartials d ++ session commands none (d.run (recoverPartials d))

/-- The agent boots, is asked `commands`, and crashes when `steps` steps are done. -/
structure Crash where
  commands : List Command
  steps : Nat

def crash (d : Disk) (e : Crash) : Disk := d.run ((boot e.commands d).take e.steps)

def after (crashes : List Crash) : Disk := crashes.foldl crash {}

def recovered (d : Disk) : Disk := d.run (recoverPartials d)

/-! ### One episode at a time -/

namespace Slot

/-- A step that writes or renames the `.recovering` file, or writes the first sidecar of an episode. -/
def Exposed (v : Slot) : Op → Prop
  | .append part _ | .close part | .rename part _ => part = .recovering
  | .writeSidecar _ => v.json = none
  | .create _ | .remove _ => False

instance (v : Slot) (op : Op) : Decidable (v.Exposed op) := by
  cases op <;> unfold Exposed <;> infer_instance

def Recoverable (v : Slot) : Prop :=
  v.recovering = none ∧ (v.mcap.isSome → v.json.isSome ∨ v.mcapPartial.isSome)

/-- An episode that had a container has its container and its sidecar, and nothing else is left of it. -/
def Complete (before v : Slot) : Prop :=
  (before.mcapPartial.isSome ∨ before.mcap.isSome → v.mcap.isSome ∧ v.json.isSome) ∧
    v.mcapPartial = none ∧ v.recovering = none

abbrev Tracked : Slot → List Op → Prop := Base.Tracked apply Recoverable Exposed

variable {v : Slot} {ops : List Op}

theorem apply_append (v : Slot) (part : Part) (c : Container) (r : Record) :
    (v.set (some c) part).apply (.append part r) = v.set (some { c with records := c.records ++ [r] }) part := by
  cases part with
  | mcapPartial => rfl
  | mcap => rfl
  | recovering => rfl

theorem foldl_append (part : Part) (rs : List Record) (c : Container) :
    (rs.map (Op.append part)).foldl apply (v.set (some c) part) =
      v.set (some { c with records := c.records ++ rs }) part := by
  induction rs generalizing c with
  | nil => rw [List.append_nil, List.map_nil, List.foldl_nil]
  | cons r rs ih =>
    rw [List.map_cons, List.foldl_cons, apply_append, ih, List.append_assoc, List.singleton_append]

/-- Records may be cut off anywhere: all that matters is which file they go to. -/
theorem tracked_append (part : Part) (hnow : ∀ c, (v.set (some c) part).Recoverable ↔ part ≠ .recovering)
    (hrest : ∀ c, Tracked (v.set (some c) part) ops) (rs : List Record) (c : Container) :
    Tracked (v.set (some c) part) (rs.map (.append part) ++ ops) := by
  induction rs generalizing c with
  | nil => exact hrest c
  | cons r rs ih =>
    refine ⟨hnow c, ?_⟩
    rw [apply_append]
    exact ih _

theorem recoverable_of_part (c : Container) (hv : v.recovering = none) :
    (v.set (some c) .mcapPartial).Recoverable :=
  ⟨hv, fun _ => .inr rfl⟩

theorem newEpisodeWriter_spec {channels : List Record} (hv : v.Recoverable)
    (hops : newEpisodeWriter v channels = some ops) :
    v.mcapPartial = none ∧ Tracked v ops ∧ ∃ c, ops.foldl apply v = v.set (some c) .mcapPartial := by
  unfold newEpisodeWriter at hops
  split at hops
  · cases hops
  · next hnone =>
    obtain rfl := Option.some.inj hops
    have hnow := fun c => recoverable_of_part c hv.1
    have hend : ∀ c, Tracked (v.set (some c) .mcapPartial) [] := hnow
    have happend := tracked_append .mcapPartial (fun c => iff_of_true (hnow c) (by decide)) hend
      ({ token := .header } :: channels) {}
    rw [List.append_nil] at happend
    exact ⟨Option.not_isSome_iff_eq_none.mp hnone, .cons_good hv not_false happend, _, foldl_append .mcapPartial _ {}⟩

theorem tracked_dropped (hv : v.Recoverable) (hnone : v.mcapPartial = none) (c : Container) :
    Tracked (v.set (some c) .mcapPartial) [.close .mcapPartial, .remove .mcapPartial] := by
  have hlast : v.set none .mcapPartial = v := by rw [set, ← hnone]
  refine .cons_good (recoverable_of_part c hv.1) (by simp [Exposed]) ?_
  refine .cons_good (recoverable_of_part _ hv.1) not_false ?_
  exact hlast.symm ▸ hv

theorem tracked_record (hv : v.Recoverable) (hpart : v.mcapPartial.isSome) (r : Record) :
    Tracked v [.append .mcapPartial r] ∧ (v.apply (.append .mcapPartial r)).mcapPartial.isSome := by
  rcases v with ⟨_ | c, mcap, recovering, json⟩
  · cases hpart
  · exact ⟨.cons_good hv (by simp [Exposed]) (recoverable_of_part _ hv.1), rfl⟩

theorem tracked_finalize (hv : v.Recoverable) (hpart : v.mcapPartial.isSome) (sc : Sidecar) (metadata : List UInt8) :
    Tracked v (finalize sc metadata) := by
  rcases v with ⟨_ | c, mcap, _ | r, _ | json⟩
  all_goals simp_all [finalize, Base.Tracked, apply, get, set, Recoverable, Exposed]

variable (id : String)

theorem recoverOne_eq (input : Container) (mcap : Option Container) (json : Option Sidecar) :
    recoverOne id ⟨some input, mcap, none, json⟩ =
      .create .recovering :: (({ token := .header } :: input.records.filter Record.isCopied).map (.append .recovering) ++
        [.close .recovering, .rename .recovering .mcap, .remove .mcapPartial, .writeSidecar (crashedSidecar id)]) := by
  simp [recoverOne, recoverPartial, copyRecords]

theorem tracked_recoverOne (hv : v.Recoverable) (id : String) : Tracked v (recoverOne id v) := by
  rcases v with ⟨_ | input, mcap, _ | r, json⟩
  · exact hv
  · exact hv
  · rw [recoverOne_eq]
    refine .cons_good hv not_false (tracked_append .recovering (fun c => ?_) (fun c => ?_) _ {})
    · simp [set, Recoverable]
    · cases json
      all_goals simp [Base.Tracked, apply, get, set, Recoverable, Exposed]
  · cases hv.1

def salvaged (c : Container) : Container :=
  { records := { token := .header } :: c.records.filter Record.isCopied, footer := true }

def recover (v : Slot) : Slot :=
  match v.mcapPartial, v.recovering with
  | some c, none => { mcapPartial := none, mcap := some (salvaged c), recovering := none, json := some (crashedSidecar id) }
  | _, _ => v

theorem foldl_recoverOne (v : Slot) : (recoverOne id v).foldl apply v = v.recover id := by
  rcases v with ⟨_ | input, mcap, _ | r, json⟩
  · rfl
  · rfl
  · have hcopy := foldl_append (v := ⟨some input, mcap, none, json⟩) .recovering
      ({ token := .header } :: input.records.filter Record.isCopied) {}
    rw [recoverOne_eq, List.foldl_cons, List.foldl_append]
    exact (congrArg (List.foldl apply · _) hcopy).trans rfl
  · rfl

theorem recover_recover (v : Slot) : (v.recover id).recover id = v.recover id := by
  rcases v with ⟨_ | c, mcap, _ | r, json⟩ <;> rfl

theorem recover_of_no_partial (h : v.mcapPartial = none) : v.recover id = v := by
  rcases v with ⟨_ | c, mcap, r, json⟩
  · rfl
  · cases h

theorem complete_recover_iff (v : Slot) : v.Complete (v.recover id) ↔ v.Recoverable := by
  rcases v with ⟨_ | c, mcap, _ | r, json⟩
  · simp [Complete, Recoverable, recover]
    tauto
  · simp [Complete, Recoverable, recover]
  · simp [Complete, Recoverable, recover]
  · simp [Complete, Recoverable, recover]

end Slot

/-! ### The whole directory -/

namespace Disk

variable {d : Disk} {id : String}

theorem slot_apply (d : Disk) (step : Step) :
    (d.apply step).slot = Function.update d.slot step.id ((d.slot step.id).apply step.op) := by
  funext j
  by_cases hj : j = step.id
  · subst hj
    rw [Function.update_self, slot, apply, AList.lookup_insert, Option.getD_some]
  · rw [Function.update_of_ne hj, slot, apply, AList.lookup_insert_ne hj, slot]

theorem slot_run_map (d : Disk) (id : String) (ops : List Op) :
    (d.run (ops.map (Step.mk id))).slot = Function.update d.slot id (ops.foldl Slot.apply (d.slot id)) := by
  induction ops generalizing d with
  | nil => exact (Function.update_eq_self id d.slot).symm
  | cons op ops ih =>
    rw [List.map_cons, run, List.foldl_cons, ← run, ih, slot_apply, Function.update_self, Function.update_idem,
      List.foldl_cons]

def Exposed (d : Disk) (step : Step) : Prop := (d.slot step.id).Exposed step.op

instance (d : Disk) (step : Step) : Decidable (d.Exposed step) := inferInstanceAs (Decidable (Slot.Exposed _ _))

def Recoverable (d : Disk) : Prop := ∀ id, (d.slot id).Recoverable

abbrev Tracked : Disk → List Step → Prop := Base.Tracked apply Recoverable Exposed

/-- Steps on one episode, while every other one is recoverable. -/
theorem tracked_map {ops : List Op} (hothers : ∀ j, j ≠ id → (d.slot j).Recoverable)
    (hops : (d.slot id).Tracked ops) : d.Tracked (ops.map (Step.mk id)) := by
  have hiff : ∀ {d : Disk}, (∀ j, j ≠ id → (d.slot j).Recoverable) → (d.Recoverable ↔ (d.slot id).Recoverable) := by
    intro d hothers
    refine ⟨fun h => h id, fun h j => ?_⟩
    by_cases hj : j = id
    · exact hj ▸ h
    · exact hothers j hj
  induction ops generalizing d with
  | nil => exact (hiff hothers).mpr hops
  | cons op ops ih =>
    refine ⟨(hiff hothers).trans hops.1, ih (fun j hj => ?_) ?_⟩
    · rw [slot_apply, Function.update_of_ne hj]
      exact hothers j hj
    · rw [slot_apply, Function.update_self]
      exact hops.2

theorem tracked_recoverEach (ids : List String) (hd : d.Recoverable) : d.Tracked (recoverEach ids d) := by
  induction ids generalizing d with
  | nil => exact hd
  | cons id ids ih =>
    have hone : d.Tracked ((recoverOne id (d.slot id)).map (Step.mk id)) :=
      tracked_map (fun j _ => hd j) (Slot.tracked_recoverOne (hd id) id)
    exact hone.append (ih hone.good_last)

theorem slot_recoverEach (ids : List String) (d : Disk) (id : String) :
    (d.run (recoverEach ids d)).slot id = if id ∈ ids then (d.slot id).recover id else d.slot id := by
  induction ids generalizing d with
  | nil => rfl
  | cons j ids ih =>
    have hone := slot_run_map d j (recoverOne j (d.slot j))
    rw [Slot.foldl_recoverOne] at hone
    rw [recoverEach, run, List.foldl_append, ← run, ← run, ih, hone]
    by_cases hj : id = j
    · subst hj
      simp [Slot.recover_recover]
    · simp [hj]

theorem slot_recovered (d : Disk) (id : String) : (recovered d).slot id = (d.slot id).recover id := by
  rw [recovered, recoverPartials, slot_recoverEach]
  split
  · rfl
  · next hmem =>
    rw [mem_partials, Option.not_isSome_iff_eq_none] at hmem
    exact (Slot.recover_of_no_partial id hmem).symm

end Disk

/-- Between commands: the directory is recoverable, and the file of the episode that is recorded is there. -/
def Ready (active : Option String) (d : Disk) : Prop :=
  d.Recoverable ∧ ∀ id ∈ active, (d.slot id).mcapPartial.isSome

variable {d : Disk} {active : Option String}

theorem ready_of_tracked {id : String} {ops : List Op} (hd : d.Recoverable) (hops : (d.slot id).Tracked ops)
    (hactive : ∀ j ∈ active, j = id ∧ (ops.foldl Slot.apply (d.slot id)).mcapPartial.isSome) :
    d.Tracked (ops.map (Step.mk id)) ∧ Ready active (d.run (ops.map (Step.mk id))) := by
  have htracked : d.Tracked (ops.map (Step.mk id)) := Disk.tracked_map (fun j _ => hd j) hops
  refine ⟨htracked, htracked.good_last, fun j hj => ?_⟩
  obtain ⟨rfl, hpart⟩ := hactive j hj
  rwa [Disk.slot_run_map, Function.update_self]

theorem exec_ready (h : Ready active d) (c : Command) :
    d.Tracked (exec active d c).1 ∧ Ready (exec active d c).2 (d.run (exec active d c).1) := by
  have hidle : d.Tracked [] ∧ Ready active (d.run []) := ⟨h.1, h⟩
  cases active with
  | none =>
    cases c with
    | record r => exact hidle
    | stop sc metadata => exact hidle
    | start id channels subscribed =>
      simp only [exec]
      cases hops : newEpisodeWriter (d.slot id) channels with
      | none => exact hidle
      | some ops =>
        obtain ⟨hnone, htracked, c, hc⟩ := Slot.newEpisodeWriter_spec (h.1 id) hops
        cases subscribed with
        | true =>
          refine ready_of_tracked h.1 htracked fun j hj => ⟨(Option.mem_some_iff.mp hj).symm, ?_⟩
          rw [hc]
          rfl
        | false =>
          refine ready_of_tracked h.1 (htracked.append ?_) fun j hj => by cases hj
          rw [hc]
          exact Slot.tracked_dropped (h.1 id) hnone c
  | some id =>
    cases c with
    | start => exact hidle
    | record r =>
      obtain ⟨htracked, hpart⟩ := Slot.tracked_record (h.1 id) (h.2 id rfl) r
      exact ready_of_tracked h.1 htracked fun j hj => ⟨(Option.mem_some_iff.mp hj).symm, hpart⟩
    | stop sc metadata =>
      exact ready_of_tracked h.1 (Slot.tracked_finalize (h.1 id) (h.2 id rfl) _ _) fun j hj => by cases hj

theorem tracked_session (commands : List Command) (h : Ready active d) :
    d.Tracked (session commands active d) := by
  induction commands generalizing active d with
  | nil => exact h.1
  | cons c cs ih =>
    obtain ⟨hsteps, hready⟩ := exec_ready h c
    exact hsteps.append (ih hready)

theorem tracked_boot (commands : List Command) (hd : d.Recoverable) : d.Tracked (boot commands d) := by
  have hrecover := Disk.tracked_recoverEach d.partials hd
  refine hrecover.append (tracked_session commands ⟨hrecover.good_last, ?_⟩)
  rintro id ⟨⟩

/-- The crash does not come right before an exposed step. -/
def Unexposed (d : Disk) (e : Crash) : Prop := ∀ step ∈ (boot e.commands d)[e.steps]?, ¬(crash d e).Exposed step

instance (d : Disk) (e : Crash) : Decidable (Unexposed d e) :=
  inferInstanceAs (Decidable (∀ step ∈ (boot e.commands d)[e.steps]?, ¬(crash d e).Exposed step))

theorem recoverable_crash_iff (hd : d.Recoverable) (e : Crash) : (crash d e).Recoverable ↔ Unexposed d e :=
  (tracked_boot e.commands hd).good_cut_iff e.steps

theorem recoverable_after {crashes : List Crash} (h : Along crash Unexposed {} crashes) : (after crashes).Recoverable := by
  refine h.invariant Disk.Recoverable (fun d e hd he => (recoverable_crash_iff hd e).mpr he) fun id => ?_
  exact ⟨rfl, fun hmcap => by cases hmcap⟩

/-- Every episode that had a partial or a final container has its container and its sidecar, and no other file remains. -/
def Complete (before d : Disk) : Prop := ∀ id, (before.slot id).Complete (d.slot id)

/-- As long as no crash comes right before an exposed step, the next recovery that nothing interrupts completes every episode; the first crash that does leaves one behind. -/
theorem recovery_complete_iff (crashes : List Crash) (e : Crash) (h : Along crash Unexposed {} crashes) :
    Complete (after (crashes ++ [e])) (recovered (after (crashes ++ [e]))) ↔ Unexposed (after crashes) e := by
  rw [← recoverable_crash_iff (recoverable_after h), after, List.foldl_append, List.foldl_cons, List.foldl_nil]
  refine forall_congr' fun id => ?_
  rw [Disk.slot_recovered]
  exact Slot.complete_recover_iff id _

def recordingCut : Crash := { commands := [.start "ep-1" [{ token := .channel }] true], steps := 3 }

/-- The recovery has got its file renamed, and has the `.mcap.partial` file still to remove. -/
def removalCut : Crash := { commands := [], steps := 5 }

theorem recovery_complete_iff_cutTwice :
    ((after [recordingCut, removalCut]).slot "ep-1").mcap.isSome ∧
      ((after [recordingCut, removalCut]).slot "ep-1").mcapPartial.isSome ∧
      Complete (after [recordingCut, removalCut]) (recovered (after [recordingCut, removalCut])) :=
  ⟨by decide +kernel, by decide +kernel,
    (recovery_complete_iff [recordingCut] removalCut (by decide +kernel)).mpr (by decide +kernel)⟩

def recoveryCutShort : List Crash := [recordingCut, { commands := [], steps := 1 }]

def finalizeCutShort : List Crash :=
  [{ commands := [.start "ep-1" [] true, .stop { episodeID := "ep-1" } []], steps := 5 }]

/-- The first leaves a `.recovering` file on which every later recovery gives the episode up, the second a container that no recovery looks at. -/
theorem recovery_given_up :
    ¬Complete (after recoveryCutShort) (recovered (after recoveryCutShort)) ∧
      ¬Complete (after finalizeCutShort) (recovered (after finalizeCutShort)) := by
  constructor
  · intro h
    have hleft : ((recovered (after recoveryCutShort)).slot "ep-1").recovering ≠ none := by decide +kernel
    exact hleft (h "ep-1").2.2
  · intro h
    have hhad : ((after finalizeCutShort).slot "ep-1").mcap.isSome := by decide +kernel
    have hmissing : ((recovered (after finalizeCutShort)).slot "ep-1").json = none := by decide +kernel
    have hjson := ((h "ep-1").1 (.inr hhad)).2
    rw [hmissing] at hjson
    cases hjson

end Waypoint.Agent.Recorder.Files
