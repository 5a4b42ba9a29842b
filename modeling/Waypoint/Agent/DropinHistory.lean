import Waypoint.Agent.Convergence

/-!
# The history of the drop-ins

A start writes the drop-ins of the manifest it has read, unless they are empty, and nothing deletes one.
-/

namespace Waypoint.Agent

open Base LexPath

abbrev Dropins := String → Option String

def FileOp.effect (files : Dropins) : FileOp → Dropins
  | .mkdirAll _ => files
  | .writeFile path body => Function.update files path (some body)

def HostOp.onDropins (files : Dropins) : HostOp → Dropins
  | .dropin op => op.effect files
  | _ => files

def dropins (log : List (String × HostOp)) : Dropins := log.foldl (fun files e => e.2.onDropins files) fun _ => none

def attachment (e : String × HostOp) : Option (String × Manifest) :=
  match e.2 with
  | .onAttach id (some m) => some (id, m)
  | _ => none

def attachments (log : List (String × HostOp)) : List (String × Manifest) := log.filterMap attachment

inductive DropinKind
  | hardware
  | component

namespace DropinKind

def name : DropinKind → String
  | .hardware => "30-hardware.conf"
  | .component => "40-component.conf"

def path (r : Setup) (id : String) (kind : DropinKind) : String :=
  join (join r.dropinDir ("waypoint-module-" ++ id ++ ".service.d")) kind.name

def rendering (w : World) (r : Setup) (m : Manifest) : DropinKind → String
  | .hardware => renderHardwareDropin m.hardware r.rwSource
  | .component => renderComponentDropin w m.components

end DropinKind

section

variable (w : World) (r : Setup)

def manifestDropins (id : String) (m : Manifest) : List FileOp :=
  r.writeHardwareDropin id m.hardware ++ writeComponentDropin w r id m.components

def leftBy (attached : List (String × Manifest)) : Dropins :=
  attached.foldl (fun files e => (manifestDropins w r e.1 e.2).foldl FileOp.effect files) fun _ => none

end

theorem dropins_append (log : List (String × HostOp)) (e : String × HostOp) :
    dropins (log ++ [e]) = e.2.onDropins (dropins log) := by
  rw [dropins, List.foldl_append]
  rfl

theorem attachments_append (log more : List (String × HostOp)) :
    attachments (log ++ more) = attachments log ++ attachments more :=
  List.filterMap_append

section

variable {w : World} {r : Setup}

theorem foldl_makeSources (r : Reconciler) (h : Hardware) (files : Dropins) :
    (r.makeSources h).foldl FileOp.effect files = files := by
  unfold Reconciler.makeSources
  cases r.rwSource with
  | none => rfl
  | some source =>
    rw [List.foldl_map]
    exact List.foldl_fixed' (fun _ => rfl) _

def filled (files : Dropins) (path body : String) : Dropins :=
  if body = "" then files else Function.update files path (some body)

theorem foldl_manifestDropins (hdir : r.dropinDir ≠ "") (id : String) (m : Manifest) (files : Dropins) :
    (manifestDropins w r id m).foldl FileOp.effect files =
      filled (filled files (DropinKind.hardware.path r id) (DropinKind.hardware.rendering w r m))
        (DropinKind.component.path r id) (DropinKind.component.rendering w r m) := by
  have hhardware : (r.writeHardwareDropin id m.hardware).foldl FileOp.effect files =
      filled files (DropinKind.hardware.path r id) (DropinKind.hardware.rendering w r m) := by
    rw [Reconciler.writeHardwareDropin, if_neg hdir]
    by_cases hbody : renderHardwareDropin m.hardware r.rwSource = ""
    · simp only [hbody, if_true, foldl_makeSources, filled, DropinKind.rendering]
    · simp only [hbody, if_false, List.foldl_append, foldl_makeSources, filled, DropinKind.rendering]
      rfl
  have hcomponent : ∀ files : Dropins, (writeComponentDropin w r id m.components).foldl FileOp.effect files =
      filled files (DropinKind.component.path r id) (DropinKind.component.rendering w r m) := by
    intro files
    rw [writeComponentDropin, if_neg hdir]
    by_cases hbody : renderComponentDropin w m.components = ""
    · simp only [hbody, if_true, filled, DropinKind.rendering]
      rfl
    · simp only [hbody, if_false, filled, DropinKind.rendering]
      rfl
  rw [manifestDropins, List.foldl_append, hhardware, hcomponent]

theorem DropinKind.eq_of_path {kind other : DropinKind} {id id' : String} (h : kind.path r id = other.path r id') :
    kind = other := by
  have hname : ∀ k : DropinKind, Name k.name := by
    intro k
    cases k <;> decide
  have hpaths := congrArg (fun p => (ofString p).elements.getLast?) h
  simp only [path, ofString_join _ (hname _), List.getLast?_concat, Option.some.injEq] at hpaths
  cases kind <;> cases other <;> first | rfl | exact absurd hpaths (by decide)

theorem filled_apply (files : Dropins) (path body p : String) :
    filled files path body p = if p = path ∧ body ≠ "" then some body else files p := by
  unfold filled
  by_cases hbody : body = ""
  · simp [hbody]
  · by_cases hp : p = path
    · simp [hbody, hp]
    · simp [hbody, hp]

theorem foldl_manifestDropins_path (hdir : r.dropinDir ≠ "") (id : String) (m : Manifest) (files : Dropins)
    (kind : DropinKind) (id' : String) :
    (manifestDropins w r id m).foldl FileOp.effect files (kind.path r id') =
      if kind.path r id' = kind.path r id ∧ kind.rendering w r m ≠ "" then some (kind.rendering w r m)
      else files (kind.path r id') := by
  rw [foldl_manifestDropins hdir, filled_apply, filled_apply]
  cases kind with
  | hardware =>
    refine if_neg fun h => ?_
    cases DropinKind.eq_of_path h.1
  | component =>
    refine if_congr Iff.rfl rfl (if_neg fun h => ?_)
    cases DropinKind.eq_of_path h.1

theorem leftBy_append (attached : List (String × Manifest)) (id : String) (m : Manifest) :
    leftBy w r (attached ++ [(id, m)]) = (manifestDropins w r id m).foldl FileOp.effect (leftBy w r attached) := by
  rw [leftBy, List.foldl_append]
  rfl

theorem leftBy_eq_none_iff (hdir : r.dropinDir ≠ "") (attached : List (String × Manifest)) (kind : DropinKind) (id : String) :
    leftBy w r attached (kind.path r id) = none ↔
      ∀ e ∈ attached, kind.path r e.1 = kind.path r id → kind.rendering w r e.2 = "" := by
  induction attached using List.reverseRecOn with
  | nil => simp [leftBy]
  | append_singleton attached e ih =>
    obtain ⟨id', m⟩ := e
    rw [leftBy_append, foldl_manifestDropins_path hdir]
    by_cases hwrites : kind.path r id = kind.path r id' ∧ kind.rendering w r m ≠ ""
    · rw [if_pos hwrites]
      refine iff_of_false nofun fun h => hwrites.2 ?_
      exact h (id', m) (List.mem_append_right _ List.mem_cons_self) hwrites.1.symm
    rw [if_neg hwrites, ih]
    rw [not_and, not_not] at hwrites
    refine ⟨fun h e he hpath => ?_, fun h e he => h e (List.mem_append_left _ he)⟩
    rcases List.mem_append.mp he with he | he
    · exact h e he hpath
    · rw [List.mem_singleton.mp he] at hpath ⊢
      exact hwrites hpath.symm

end

/-- The module is started right after this part of the log. -/
def StartsWith (log before : List (String × HostOp)) (id : String) (m : Manifest) : Prop :=
  ∃ after, log = before ++ (id, .start id) :: (id, .onAttach id (some m)) :: after

/-- An operation that neither changes a drop-in nor attaches. -/
structure Passes (e : String × HostOp) : Prop where
  dropins : ∀ files, e.2.onDropins files = files
  attachment : attachment e = none

variable {log : List (String × HostOp)} {id : String} {m : Manifest} {e : String × HostOp} {op : HostOp}

variable {before : List (String × HostOp)} {s : Rover}

theorem StartsWith.of_append
    (h : StartsWith (log ++ [e]) before id m) :
    StartsWith log before id m ∨ log = before ++ [(id, .start id)] ∧ e = (id, .onAttach id (some m)) := by
  obtain ⟨after, hlog⟩ := h
  rcases List.eq_nil_or_concat' after with rfl | ⟨rest, last, rfl⟩
  · obtain ⟨hbefore, he⟩ := List.append_inj' (hlog.trans (List.append_cons ..)) rfl
    exact .inr ⟨hbefore, List.singleton_inj.mp he⟩
  · rw [← List.cons_append, ← List.cons_append, ← List.append_assoc] at hlog
    exact .inl ⟨rest, (List.append_inj' hlog rfl).1⟩

theorem StartsWith.of_passed
    (he : attachment e = none) (h : StartsWith (log ++ [e]) before id m) : StartsWith log before id m := by
  refine h.of_append.resolve_right fun hlast => ?_
  rw [hlast.2] at he
  cases he

section

variable (w : World) (r : Setup)

/-- The drop-ins are what the attachments so far have left and, on the way to a start, what was written since. -/
structure History (ops : List FileOp) (log : List (String × HostOp)) : Prop where
  files : dropins log = ops.foldl FileOp.effect (leftBy w r (attachments log))
  starts : ∀ {before id m}, StartsWith log before id m →
    dropins before = (manifestDropins w r id m).foldl FileOp.effect (leftBy w r (attachments before))

def Follows (ops : List FileOp) (s : Rover) : Prop := Calm w s.log ∧ History w r ops s.log

end

variable {w : World} {r : Setup} {ops : List FileOp}

theorem History.passes (h : History w r ops log) (he : Passes e) :
    History w r ops (log ++ [e]) := by
  refine ⟨?_, fun hstart => h.starts (hstart.of_passed he.attachment)⟩
  have hnone : attachments [e] = [] := by simp [attachments, he.attachment]
  rw [dropins_append, he.dropins, attachments_append, hnone, List.append_nil]
  exact h.files

theorem History.written (h : History w r ops log) (id : String) (op : FileOp) :
    History w r (ops ++ [op]) (log ++ [(id, .dropin op)]) := by
  refine ⟨?_, fun hstart => h.starts (hstart.of_passed rfl)⟩
  have hnone : attachments [(id, HostOp.dropin op)] = [] := rfl
  rw [dropins_append, attachments_append, hnone, List.append_nil, List.foldl_append, h.files]
  rfl

theorem History.attached
    (h : History w r (manifestDropins w r id m) log) :
    History w r [] (log ++ [(id, .start id)] ++ [(id, .onAttach id (some m))]) := by
  have hstarted : History w r (manifestDropins w r id m) (log ++ [(id, .start id)]) := h.passes ⟨fun _ => rfl, rfl⟩
  constructor
  · have hone : attachments [(id, HostOp.onAttach id (some m))] = [(id, m)] := rfl
    rw [dropins_append, attachments_append, hone, leftBy_append]
    exact hstarted.files
  intro before id' m' hstart
  rcases hstart.of_append with hstart | ⟨hbefore, hlast⟩
  · exact hstarted.starts hstart
  · cases hlast
    rw [← (List.append_inj' hbefore rfl).1]
    exact h.files

theorem Follows.passes {t : Rover} (h : Follows w r ops s) (he : Passes e) (ht : t.log = s.log ++ [e]) :
    Follows w r ops t := by
  rw [Follows, ht]
  exact ⟨h.1.append _, h.2.passes he⟩

def HostOp.Silent : HostOp → Prop
  | .dropin _ | .onAttach .. => False
  | _ => True

theorem HostOp.Silent.passes (h : op.Silent) (owner : String) : Passes (owner, op) := by
  cases op <;> first | exact ⟨fun _ => rfl, rfl⟩ | exact h.elim

theorem triple_silent (owner : String) (h : op.Silent) :
    Triple (Follows w r ops) (perform w owner op) (fun _ => Follows w r ops) fun _ => False :=
  triple_perform_ok (fun _ hs => hs.1.fault _) fun _ hs => hs.passes (h.passes owner) rfl

theorem keeps_silent (owner : String) (h : op.Silent) :
    Keeps (Retains (Follows w r ops)) (perform w owner op).run :=
  keeps_of_triple ((triple_silent owner h).weaken (fun _ h => h) (fun _ _ h => h) fun _ h => h.elim)

theorem lenientOn_follows : LenientOn HostOp.Silent (Retains (Follows w r ops)) where
  quiet owner _ _ _ h hs := hs.passes (h.passes owner) rfl
  maps _ _ _ h := h

theorem triple_writeDropin (id : String) (more : List FileOp) :
    Triple (Follows w r ops) (writeDropin w id more) (fun _ => Follows w r (ops ++ more)) fun _ => False := by
  induction more generalizing ops with
  | nil => exact triple_ok fun _ hs => by rwa [List.append_nil]
  | cons op more ih =>
    have hone : Triple (Follows w r ops) (perform w id (.dropin op)) (fun _ => Follows w r (ops ++ [op])) fun _ => False :=
      triple_perform_ok (fun _ hs => hs.1.fault _) fun _ hs => ⟨hs.1.append _, hs.2.written id op⟩
    refine triple_then hone fun _ => ?_
    rw [List.append_cons ops op more]
    exact ih

theorem triple_applyManifest (id : String) (m : Manifest) :
    Triple (Follows w r []) (applyManifest w r id m) (fun _ => Follows w r (manifestDropins w r id m)) fun _ => False := by
  have hreload : Triple (Follows w r (manifestDropins w r id m)) (if r.dropinDir ≠ "" then do
      let _ ← attempt (perform w id .reloadUnits)
      pure () else pure () : RoverM Unit) (fun _ => Follows w r (manifestDropins w r id m)) fun _ => False := by
    split
    · exact triple_then (triple_attempt (triple_of_keeps (keeps_silent id trivial))) fun _ => triple_ok fun _ hs => hs
    · exact triple_ok fun _ hs => hs
  have hwrite : ∀ ops more : List FileOp, Triple (Follows w r ops) (attempt (writeDropin w id more))
      (fun _ => Follows w r (ops ++ more)) fun _ => False := fun ops more =>
    triple_attempt ((triple_writeDropin id more).weaken (fun _ h => h) (fun _ _ h => h) fun _ h => h.elim)
  refine triple_then (hwrite [] _) fun _ => triple_then (hwrite _ _) fun _ => ?_
  by_cases hproxy : m.ui.kind = .proxy
  · simp only [if_pos hproxy]
    have hset : Triple (Follows w r (manifestDropins w r id m)) (note id (.proxySet id m.ui.proxyPort))
        (fun _ => Follows w r (manifestDropins w r id m)) fun _ => False :=
      triple_modify fun _ hs => lenientOn_follows.quiet id _ _ rfl trivial hs
    exact triple_then hset fun _ => hreload
  · simp only [if_neg hproxy]
    exact hreload

theorem triple_finishStart (id dest : String) (m : ModuleDesired) {manifest : Option Manifest}
    (hops : ops = (manifest.map (manifestDropins w r id)).getD []) :
    Triple (Follows w r ops) (finishStart w id dest m manifest) (fun _ => Follows w r []) fun _ => False := by
  have hstart : Triple (Follows w r ops) (perform w id (.start id))
      (fun _ s => ∃ log, s.log = log ++ [(id, .start id)] ∧ Calm w s.log ∧ History w r ops log) fun _ => False :=
    triple_perform_ok (fun _ hs => hs.1.fault _) fun s hs => ⟨s.log, rfl, hs.1.append _, hs.2⟩
  refine triple_then (triple_silent id trivial) fun _ => triple_then (triple_silent id trivial) fun _ => ?_
  refine triple_then hstart fun _ => ?_
  rintro s ⟨log, hlog, hcalm, hhistory⟩
  refine ⟨fun _ t hrun => ?_, fun _ _ hrun => (by cases hrun)⟩
  cases hrun
  refine ⟨hcalm.append _, ?_⟩
  change History w r [] (s.log ++ _)
  rw [hlog]
  cases manifest with
  | none =>
    rw [hops] at hhistory
    exact (hhistory.passes ⟨fun _ => rfl, rfl⟩).passes ⟨fun _ => rfl, rfl⟩
  | some mf =>
    rw [hops] at hhistory
    exact hhistory.attached

theorem keeps_startModule_follows (id : String) (m : ModuleDesired) :
    Keeps (Retains (Follows w r [])) (startModule w r id m).run := by
  have hobtain : Keeps (Retains (Follows w r [])) (obtainImage w r id m).run := by
    refine keeps_obtainImage_of_ops (fun _ => keeps_silent id trivial) (fun op hop => keeps_silent id ?_) fun _ hs => hs
    cases op <;> trivial
  have hattach : QuietOn id (HostOp.OfAttach id (r.rawDest id m.version)) (Retains (Follows w r [])) :=
    lenientOn_follows.quietOn id fun op hop => by cases op <;> trivial
  have hfinish : ∀ {ops : List FileOp} {manifest : Option Manifest},
      ops = (manifest.map (manifestDropins w r id)).getD [] →
      Triple (Follows w r ops) (finishStart w id (r.rawDest id m.version) m manifest) (fun _ => Follows w r [])
        (Follows w r []) := fun hops =>
    (triple_finishStart id _ m hops).weaken (fun _ h => h) (fun _ _ h => h) fun _ h => h.elim
  refine keeps_of_triple (triple_then (triple_of_keeps hobtain) fun _ => ?_)
  refine triple_then (triple_of_keeps (keeps_attach hattach)) fun _ => ?_
  refine triple_then (triple_of_keeps (keeps_readManifest hattach _)) fun manifest => ?_
  cases manifest with
  | none => exact hfinish rfl
  | some mf =>
    refine triple_then ((triple_applyManifest id mf).weaken (fun _ h => h) (fun _ _ h => h) fun _ h => h.elim) fun _ => ?_
    exact hfinish rfl

theorem follows_reconciled (desired : List ModuleDesired) (h : Follows w r [] s) :
    Follows w r [] (s.reconciled w r desired) := by
  have hunit : ∀ id, QuietOn id (HostOp.OfUnit id) (Retains (Follows w r [])) := fun id =>
    lenientOn_follows.quietOn id fun op hop => by cases op <;> trivial
  have hkeeps : Keeps (Retains (Follows w r [])) (reconcile w r desired).run :=
    keeps_reconcile_of_turns (fun id => keeps_dropStale_of (keeps_detach_of (hunit id) fun _ hs => hs)) fun id =>
      keeps_bringUp_of (fun m _ => keeps_applyConfigChange_of (hunit id) m fun _ hs => hs) fun m _ => keeps_startModule_follows id m
  exact hkeeps s h

/-- Whatever sets were reconciled, if all operations succeed: at the start of a module, a drop-in is the rendering of the
manifest just attached, or absent if that is empty, exactly if an empty rendering has found none that was written before. -/
theorem dropin_matches_iff (hdir : r.dropinDir ≠ "") (hcalm : Calm w []) {s : Rover} (hlog : s.log = [])
    (calls : List (List ModuleDesired)) {before : List (String × HostOp)} {id : String} {m : Manifest}
    (hstart : StartsWith (calls.foldl (fun s set => s.reconciled w r set) s).log before id m) (kind : DropinKind) :
    dropins before (kind.path r id) = (if kind.rendering w r m = "" then none else some (kind.rendering w r m)) ↔
      (kind.rendering w r m = "" →
        ∀ e ∈ attachments before, kind.path r e.1 = kind.path r id → kind.rendering w r e.2 = "") := by
  have hfirst : Follows w r [] s := by
    rw [Follows, hlog]
    refine ⟨hcalm, rfl, ?_⟩
    rintro before id m ⟨after, hnil⟩
    exact absurd hnil (by simp)
  have hfollows : Follows w r [] (calls.foldl (fun s set => s.reconciled w r set) s) :=
    List.foldlRecOn calls _ hfirst fun _ hs set _ => follows_reconciled set hs
  rw [hfollows.2.starts hstart, foldl_manifestDropins_path hdir]
  by_cases hempty : kind.rendering w r m = ""
  · simp only [hempty, ne_eq, not_true_eq_false, and_false, if_false, if_true, true_implies]
    exact leftBy_eq_none_iff hdir _ kind id
  · simp [hempty]

def cameraImages : World :=
  { failsOnce none with
    download := fun _ url => .ok (if url = "https://proxy/camera-1.0.0.raw" then [1] else [2])
    moduleTomls := fun raw =>
      [("camera", .ok (cameraManifest (if raw = [1] then { devices := ["/dev/video0"] } else {})))] }

def dropinSetup : Setup := { bareSetup with dropinDir := "/run/systemd/system.attached", moduleMountRoot := "/run/modules" }

def cameraAt (version : String) : ModuleDesired :=
  { id := "camera", version, rawUrl := "https://proxy/camera-" ++ version ++ ".raw" }

def cameraRead (hardware : Hardware) : Manifest :=
  { name := "camera", label := "", version := "", apiVersion := "", language := "", entrypoint := "/usr/bin/camera"
    permissions := {}, health := ⟨"", 0, 0⟩, ui := {}, hardware, provides := [], requires := [], components := []
    configFields := [] }

def afterVersions (versions : List String) : Rover :=
  (versions.map fun version => [cameraAt version]).foldl (fun s set => s.reconciled cameraImages dropinSetup set) {}

def beforeLast (n : Nat) (s : Rover) : List (String × HostOp) := s.log.take (s.log.length - n)

theorem dropin_matches_iff_first :
    StartsWith (afterVersions ["1.0.0"]).log (beforeLast 2 (afterVersions ["1.0.0"])) "camera"
        (cameraRead { devices := ["/dev/video0"] }) ∧
      dropins (beforeLast 2 (afterVersions ["1.0.0"])) (DropinKind.hardware.path dropinSetup "camera") =
        some "[Service]\nDeviceAllow=/dev/video0 rw\n" := by
  have hstart : StartsWith (afterVersions ["1.0.0"]).log (beforeLast 2 (afterVersions ["1.0.0"])) "camera"
      (cameraRead { devices := ["/dev/video0"] }) := ⟨[], by decide +kernel⟩
  have hcalm : Calm cameraImages [] := fun more op => calm_none [] more op
  have hmatches := (dropin_matches_iff (by decide) hcalm rfl _ hstart .hardware).mpr fun h => absurd h (by decide +kernel)
  exact ⟨hstart, hmatches.trans (by decide +kernel)⟩

/-- The device of version 1.0.0 is still granted when version 2.0.0 starts, which does not ask for it. -/
theorem grant_survives_upgrade :
    StartsWith (afterVersions ["1.0.0", "2.0.0"]).log (beforeLast 2 (afterVersions ["1.0.0", "2.0.0"])) "camera"
        (cameraRead {}) ∧
      DropinKind.hardware.rendering cameraImages dropinSetup (cameraRead {}) = "" ∧
      dropins (beforeLast 2 (afterVersions ["1.0.0", "2.0.0"])) (DropinKind.hardware.path dropinSetup "camera") =
        some "[Service]\nDeviceAllow=/dev/video0 rw\n" :=
  ⟨⟨[], by decide +kernel⟩, by decide +kernel⟩

end Waypoint.Agent
