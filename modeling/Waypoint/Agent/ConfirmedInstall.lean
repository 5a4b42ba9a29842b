import Waypoint.Agent.Convergence
import Waypoint.Agent.ImagePaths

/-!
# Confirmed installs

`ConfirmModule` puts the staged image into the store and reconciles. The reconciler compares paths: a module that is attached from the path of its id and version is left as it is, whatever file is there now.
-/

namespace Waypoint.Agent

open Base LexPath

/-- The unit runs, and its process was started after the operations of `placed`. -/
def StartedSince (w : World) (id : String) (placed log : List (String × HostOp)) : Prop :=
  (systemd w log id).running = true ∧ (systemd w placed id).starts < (systemd w log id).starts

instance (w : World) (id : String) (placed log : List (String × HostOp)) : Decidable (StartedSince w id placed log) :=
  inferInstanceAs (Decidable (_ ∧ _))

/-! ### The image that was placed -/

section

variable {w : World} {r : Setup} {dest : String} {raw : Bytes} {op : HostOp}

theorem avoids_of_fetch {path : String} (hop : op.OfFetch path) (htemp : ∀ n, dest ≠ tempPath path n)
    (hother : dest ≠ path) : op.Avoids dest := by
  cases op with
  | mkdirAll => exact ⟨by simp [HostOp.written], by simp [HostOp.cleared]⟩
  | createTemp tmp | writeFile tmp body | remove tmp =>
    obtain ⟨n, hpath⟩ : ∃ n, tmp = tempPath path n := hop
    exact ⟨by simp [HostOp.written, hpath, htemp n], by simp [HostOp.cleared]⟩
  | rename source target =>
    obtain ⟨⟨n, hsource⟩, hpath⟩ : (∃ n, source = tempPath path n) ∧ target = path := hop
    exact ⟨by simp [HostOp.written, hsource, hpath, htemp n, hother], by simp [HostOp.cleared]⟩
  | _ => exact hop.elim

def Holds (dest : String) (raw : Bytes) (s : Rover) : Prop := s.files dest = some raw

theorem lenient_holds : Lenient (Retains (Holds dest raw)) := ⟨fun _ _ _ _ hs => hs, fun _ _ _ hs => hs⟩

theorem keeps_perform_holds {owner : String} (hop : op.Avoids dest) :
    Keeps (Retains (Holds dest raw)) (perform w owner op).run :=
  keeps_of_triple (triple_perform (fun s hs => (HostOp.effect_of_avoids hop s.files).trans hs)
    fun s hs => (HostOp.failure_of_avoids hop s).trans hs)

theorem keeps_obtainImage_holds (htemp : ∀ path n, dest ≠ tempPath path n) (id : String) (m : ModuleDesired) :
    Keeps (Retains (Holds dest raw)) (obtainImage w r id m).run := by
  refine keeps_of_triple (triple_then (triple_fileExists lenient_holds id _) fun found => ?_)
  cases found with
  | true => exact triple_ok fun s hs => hs.1
  | false =>
    intro s hs
    have hother : dest ≠ r.rawDest id m.version := by
      intro heq
      have hmissing := hs.2 rfl
      rw [← heq, hs.1] at hmissing
      cases hmissing
    have hfetch : Keeps (Retains (Holds dest raw)) (fetch w id m.rawUrl m.rawSha256 (r.rawDest id m.version)).run :=
      keeps_fetch_of_ops (fun op hop => keeps_perform_holds (avoids_of_fetch hop (htemp _) hother)) _ _
    exact triple_then (triple_of_keeps hfetch) (fun _ => triple_modify fun _ hs => hs) s hs.1

theorem keeps_bringUp_holds (htemp : ∀ path n, dest ≠ tempPath path n) (desired : List ModuleDesired) (id : String) :
    Keeps (Retains (Holds dest raw)) (bringUp w r desired id).run :=
  keeps_bringUp_of (fun m _ => keeps_applyConfigChange (lenient_holds.on _) m) fun m _ =>
    keeps_startModule lenient_holds id m (keeps_obtainImage_holds htemp id m)

theorem obtainImage_of_holds {id : String} {m : ModuleDesired} {s : Rover} (hs : Holds (r.rawDest id m.version) raw s) :
    ((obtainImage w r id m).run.run s).1 = .ok () := by
  have hexists : Triple (Holds (r.rawDest id m.version) raw) (fileExists w id (r.rawDest id m.version))
      (fun found _ => found = true) fun _ => False := by
    refine triple_recover (triple_of_keeps (keeps_perform_quiet lenient_holds id rfl)) (fun _ => ?_) fun e => ?_
    · refine triple_get fun s hs => triple_ok fun t _ => ?_
      rw [show s.files (r.rawDest id m.version) = some raw from hs]
      rfl
    · exact triple_ok fun _ _ => rfl
  have hobtain : Triple (Holds (r.rawDest id m.version) raw) (obtainImage w r id m) (fun _ _ => True) fun _ => False := by
    refine triple_then hexists fun found => ?_
    cases found with
    | true => exact triple_ok fun _ _ => trivial
    | false => exact fun s hs => (by cases hs)
  obtain ⟨_, t, hrun, -⟩ := hobtain.returns hs
  rw [hrun]

end

/-! ### The turn of the module -/

namespace ModulePart

/-- The next reconcile starts a process: the module is not remembered and does not run, or it is remembered, but not as it is
wanted. -/
def Restarts (x : ModulePart) (dest config : String) : Prop :=
  (x.current = none → x.unit.running = false) ∧ (x.current = some dest → x.config.getD "" ≠ config)

theorem restarts_iff {r : Setup} {desired : List ModuleDesired} {id : String} {m : ModuleDesired} {x y : ModulePart}
    (hwanted : wanted desired id = some m) (h : (x.dropped r desired id).BroughtUp r desired id y) :
    (y.unit.running = true ∧ x.unit.starts < y.unit.starts) ↔ x.Restarts (r.rawDest id m.version) m.configToml := by
  simp only [BroughtUp, hwanted] at h
  rcases hcurrent : x.current with _ | path
  · have hdropped : x.dropped r desired id = x := by simp [dropped, hcurrent]
    rw [hdropped, hcurrent, if_neg (by simp)] at h
    obtain ⟨proxied, rfl⟩ := h
    cases hrunning : x.unit.running <;> simp [Restarts, hcurrent, started, hrunning]
  · by_cases hpath : path = r.rawDest id m.version
    · have hdropped : x.dropped r desired id = x := by simp [dropped, hcurrent, hwanted, hpath]
      rw [hdropped, hcurrent, if_pos (by rw [hpath])] at h
      rw [h]
      by_cases hconfig : x.config.getD "" = m.configToml <;> simp [configured, Restarts, hcurrent, hpath, hconfig]
    · have hdropped : x.dropped r desired id = x.detached := by simp [dropped, hcurrent, hwanted, hpath]
      rw [hdropped, if_neg (by simp [detached])] at h
      obtain ⟨proxied, rfl⟩ := h
      simp [Restarts, hcurrent, hpath, started, detached]

end ModulePart

section

variable {w : World} {r : Setup} {id : String} {desired : List ModuleDesired} {m : ModuleDesired} {raw : Bytes} {s : Rover}

theorem round_bringUp_placed (hwanted : wanted desired id = some m) (j : String)
    (hs : Calm w s.log ∧ Holds (r.rawDest id m.version) raw s) :
    ∃ t, (bringUp w r desired j).run.run s = (.ok (), t) ∧ (Calm w t.log ∧ Holds (r.rawDest id m.version) raw t) ∧
      (∀ k, k ≠ j → t.part w k = s.part w k) ∧ (j = id → (s.part w id).BroughtUp r desired id (t.part w id)) := by
  have hat := At.self hs.1 j
  have hholds : Holds (r.rawDest id m.version) raw (s.upped w r desired j) :=
    keeps_bringUp_holds (rawDest_ne_tempPath r id m.version) desired j s hs.2
  by_cases hj : j = id
  · subst hj
    have hobtain : ∀ m', wanted desired j = some m' → (s.part w j).current ≠ some (r.rawDest j m'.version) →
        ((obtainImage w r j m').run.run s).1 = .ok () := by
      intro m' hm' _
      cases hwanted.symm.trans hm'
      exact obtainImage_of_holds hs.2
    obtain ⟨t, y, hrun, ht, hup⟩ := bringUp_at r desired hat hobtain
    rw [show s.upped w r desired j = t from congrArg Prod.snd hrun] at hholds
    refine ⟨t, hrun, ⟨ht.calm, hholds⟩, fun k hk => ?_, fun _ => ?_⟩
    · rw [ht.parts, Function.update_of_ne hk]
    · rw [ht.parts, Function.update_self]
      exact hup
  · obtain ⟨y, ht⟩ := upped_at r desired hat
    refine ⟨_, bringUp_run j s, ⟨ht.calm, hholds⟩, fun k hk => ?_, fun h => absurd h hj⟩
    rw [ht.parts, Function.update_of_ne hk]

theorem part_reconciled_placed (hwanted : wanted desired id = some m) (hcalm : Calm w s.log)
    (hholds : Holds (r.rawDest id m.version) raw s) :
    ((s.part w id).dropped r desired id).BroughtUp r desired id ((s.reconciled w r desired).part w id) := by
  have hid : id ∈ wantedIds desired := mem_wantedIds_iff.mpr (by rw [hwanted]; exact Option.some_ne_none m)
  have hdrops : Holds (r.rawDest id m.version) raw (s.afterDrops w r desired) :=
    keeps_each _ (fun j _ => keeps_dropStale (lenient_holds.on _) desired) s hholds
  exact (parts_of_rounds (fun _ s => Calm w s.log ∧ Holds (r.rawDest id m.version) raw s)
    (fun j x y => j = id → x.BroughtUp r desired id y) (fun j _ s hs => by
      obtain ⟨t, hrun, ht, hothers, hturn⟩ := round_bringUp_placed hwanted j hs
      exact ⟨t, hrun, ht, hothers, fun hj => hj ▸ hturn hj⟩) hcalm (fun hcalm => ⟨hcalm, hdrops⟩) id).1 hid rfl

end

/-! ### Confirming -/

def Rover.placed (s : Rover) (r : Setup) (st : StagedModule) : List (String × HostOp) :=
  s.log ++ [(st.id, .readTrust)] ++ [(st.id, .mkdirAll (dir (r.rawDest st.id st.version)))] ++
    [(st.id, .rename st.rawPath (r.rawDest st.id st.version))]

/-- From the move of the image on, up to the reconcile. -/
structure Confirming (w : World) (r : Setup) (s : Rover) (st : StagedModule) (raw : Bytes) (loc : List ModuleDesired)
    (t : Rover) : Prop where
  part : At w (s.part w) st.id (s.part w st.id) t
  log : s.placed r st <+: t.log
  holds : Holds (r.rawDest st.id st.version) raw t
  localSet : t.localDesired = loc
  proxySet : t.proxyDesired = s.proxyDesired

section

variable {w : World} {r : Setup} {s : Rover} {st : StagedModule} {raw : Bytes} {loc : List ModuleDesired}

theorem At.inert {parts : String → ModulePart} {id : String} {x : ModulePart} {t : Rover} {o : HostOp} (h : At w parts id x t)
    (htarget : o.target id = id) (hinert : ∀ u, o.onUnit u = u) (files : Store) :
    At w parts id x { t with log := t.log ++ [(id, o)], files := files } := by
  have hafter : x.after o = x := by rw [ModulePart.after, hinert]
  exact hafter ▸ h.performed htarget files

variable {op : HostOp} {log : List (String × HostOp)}

theorem triple_perform_confirming (htarget : op.target st.id = st.id) (hinert : ∀ u, op.onUnit u = u)
    (havoids : op.Avoids (r.rawDest st.id st.version)) :
    Triple (Confirming w r s st raw loc) (perform w st.id op) (fun _ => Confirming w r s st raw loc)
      (Confirming w r s st raw loc) := by
  refine (triple_perform_ok (fun t ht => ht.part.calm.fault op) fun t ht => ?_).weaken (fun _ h => h) (fun _ _ h => h)
    fun _ h => h.elim
  exact ⟨ht.part.inert htarget hinert _, ht.log.trans (List.prefix_append _ _),
    (HostOp.effect_of_avoids havoids t.files).trans ht.holds, ht.localSet, ht.proxySet⟩

/-- Up to the move of the image the call logs what it does, and changes nothing. -/
theorem triple_perform_logged (hcalm : Calm w log) (hquiet : op.quiet = true) :
    Triple (· = { s with log := log }) (perform w st.id op) (fun _ => (· = { s with log := log ++ [(st.id, op)] }))
      fun _ => True := by
  refine (triple_perform_ok (fun t ht => ?_) fun t ht => ?_).weaken (fun _ h => h) (fun _ _ h => h) fun _ h => h.elim
  · rw [ht]
    exact hcalm.fault op
  · rw [op.effect_of_quiet hquiet, ht]

theorem triple_checkPinnedSAN_logged (hcalm : Calm w s.log) (san : String) :
    Triple (· = s) (checkPinnedSAN w st.id san) (fun _ => (· = { s with log := s.log ++ [(st.id, .readTrust)] })) fun _ => True := by
  refine triple_then (triple_perform_logged hcalm rfl) fun _ => triple_get fun t ht => ?_
  split
  · split
    · exact triple_error fun _ _ => trivial
    · exact triple_ok fun _ h => h.trans ht
  · exact triple_ok fun _ h => h.trans ht

theorem triple_moveImage_placed (hpart : At w (s.part w) st.id (s.part w st.id) { s with log := log })
    (hlog : s.placed r st = log ++ [(st.id, .rename st.rawPath (r.rawDest st.id st.version))])
    (hraw : s.files st.rawPath = some raw) :
    Triple (· = { s with log := log }) (moveImage w st (r.rawDest st.id st.version))
      (fun _ => Confirming w r s st raw s.localDesired) fun _ => True := by
  have hrename : Triple (· = { s with log := log }) (perform w st.id (.rename st.rawPath (r.rawDest st.id st.version)))
      (fun _ => Confirming w r s st raw s.localDesired) fun _ => False := by
    refine triple_perform_ok (fun t ht => ht ▸ hpart.calm.fault _) fun t ht => ?_
    subst ht
    refine ⟨hpart.inert rfl (fun _ => rfl) _, ?_, ?_, rfl, rfl⟩
    · rw [hlog]
    · exact (effect_rename_self s.files st.rawPath (r.rawDest st.id st.version)).trans hraw
  refine triple_recover hrename (fun _ => triple_modify fun t ht => ?_) fun _ _ h => h.elim
  exact ⟨⟨ht.part.calm, ht.part.parts⟩, ht.log, ht.holds, ht.localSet, ht.proxySet⟩

theorem map_id_upsertModule (set : List ModuleDesired) (m : ModuleDesired) :
    (upsertModule set m).map (·.id) = if m.id ∈ set.map (·.id) then set.map (·.id) else set.map (·.id) ++ [m.id] := by
  induction set with
  | nil => simp [upsertModule]
  | cons e set ih =>
    rw [upsertModule]
    by_cases hid : e.id = m.id
    · simp [hid]
    rw [if_neg hid, List.map_cons, ih]
    by_cases hmem : m.id ∈ set.map (·.id)
    · simp [hmem]
    · simp [hmem, Ne.symm hid]

theorem nodup_upsertModule {set : List ModuleDesired} (h : (set.map (·.id)).Nodup) (m : ModuleDesired) :
    ((upsertModule set m).map (·.id)).Nodup := by
  rw [map_id_upsertModule]
  by_cases hmem : m.id ∈ set.map (·.id)
  · rwa [if_pos hmem]
  rw [if_neg hmem]
  exact List.nodup_append.mpr ⟨h, List.nodup_singleton _, fun a ha b hb hab => hmem (by
    rw [← List.mem_singleton.mp hb, ← hab]
    exact ha)⟩

theorem wanted_upsertModule (hlocal : (loc.map (·.id)).Nodup) (proxy : List ModuleDesired) (m : ModuleDesired) :
    wanted (mergeDesired proxy (upsertModule loc m)) m.id = some m := by
  have hmem : m ∈ upsertModule loc m := by
    clear hlocal
    induction loc with
    | nil => exact List.mem_singleton_self m
    | cons e loc ih =>
      rw [upsertModule]
      split
      · exact List.mem_cons_self
      · exact List.mem_cons_of_mem _ ih
  have hproxy : wanted (proxy.filter fun p => !((upsertModule loc m).any fun l => l.id = p.id)) m.id = none := by
    rw [wanted_eq_none_iff]
    intro hid
    obtain ⟨p, hp, hpid⟩ := List.mem_map.mp hid
    have hnone := (List.mem_filter.mp hp).2
    simp only [Bool.not_eq_true', List.any_eq_false, decide_eq_true_eq] at hnone
    exact hnone m hmem hpid.symm
  have hown := wanted_of_mem (nodup_upsertModule hlocal m) hmem
  unfold wanted at hproxy hown ⊢
  rw [mergeDesired, List.reverse_append, List.find?_append, hproxy, hown]
  rfl

theorem avoids_of_quiet (h : op.quiet = true) (path : String) : op.Avoids path := by
  have hnone : op.written = [] ∧ op.cleared = [] := by
    cases op <;> first | exact ⟨rfl, rfl⟩ | cases h
  exact ⟨by simp [hnone.1], by simp [hnone.2]⟩

theorem systemd_placed (hcalm : Calm w s.log) : systemd w (s.placed r st) st.id = systemd w s.log st.id := by
  have hinert := (((At.self hcalm st.id).inert (o := .readTrust) rfl (fun _ => rfl) s.files).inert
    (o := .mkdirAll (dir (r.rawDest st.id st.version))) rfl (fun _ => rfl) s.files).inert
    (o := .rename st.rawPath (r.rawDest st.id st.version)) rfl (fun _ => rfl) s.files
  have hpart := congrFun hinert.parts st.id
  rw [Function.update_self] at hpart
  exact congrArg ModulePart.unit hpart

theorem keeps_reconcile_grows {placed : List (String × HostOp)} (desired : List ModuleDesired) :
    Keeps (Retains fun s : Rover => placed <+: s.log) (reconcile w r desired).run := by
  have hgrows : ∀ (s : Rover) e, placed <+: s.log → placed <+: s.log ++ [e] := fun _ _ hs => hs.trans (List.prefix_append _ _)
  have hperform : ∀ (id : String) (op : HostOp), Keeps (Retains fun s : Rover => placed <+: s.log) (perform w id op).run :=
    fun id op => keeps_of_triple (triple_perform (fun s hs => hgrows s _ hs) fun s hs => hgrows s _ hs)
  refine keeps_reconcile ⟨fun _ _ s _ hs => hgrows s _ hs, fun _ _ _ hs => hs⟩ fun id m _ => ?_
  exact keeps_obtainImage_of_ops (fun _ => hperform id _) (fun op _ => hperform id op) fun _ hs => hs

/-- What has become of the confirmed module when the call has returned. -/
structure Confirmed (w : World) (r : Setup) (s : Rover) (st : StagedModule) (raw : Bytes) (configTOML : String) (t : Rover) :
    Prop where
  log : s.placed r st <+: t.log
  holds : Holds (r.rawDest st.id st.version) raw t
  since : StartedSince w st.id (s.placed r st) t.log ↔ (s.part w st.id).Restarts (r.rawDest st.id st.version) configTOML

theorem triple_addLocal (hcalm : Calm w s.log) (hlocal : (s.localDesired.map (·.id)).Nodup) {entry : ModuleDesired}
    (hid : entry.id = st.id) (hversion : entry.version = st.version) :
    Triple (Confirming w r s st raw s.localDesired) (addLocal w r entry) (fun _ => Confirmed w r s st raw entry.configToml)
      fun _ => True := by
  have hset : Triple (Confirming w r s st raw s.localDesired)
      (modify fun s => { s with localDesired := upsertModule s.localDesired entry } : RoverM PUnit)
      (fun _ => Confirming w r s st raw (upsertModule s.localDesired entry)) fun _ => True :=
    triple_modify fun t ht => ⟨⟨ht.part.calm, ht.part.parts⟩, ht.log, ht.holds, congrArg (upsertModule · entry) ht.localSet,
      ht.proxySet⟩
  have hwrite : Triple (Confirming w r s st raw (upsertModule s.localDesired entry)) (perform w entry.id .writeLocalDesired)
      (fun _ => Confirming w r s st raw (upsertModule s.localDesired entry)) fun _ => True := by
    rw [hid]
    exact (triple_perform_confirming rfl (fun _ => rfl) (avoids_of_quiet rfl _)).weaken (fun _ h => h) (fun _ _ h => h)
      fun _ _ => trivial
  refine triple_then hset fun _ => triple_then (triple_wrapError hwrite) fun _ => triple_get fun u hu => ?_
  intro u' hu'
  rw [show u' = u from hu']
  refine ⟨fun _ t hrun => ?_, fun _ _ _ => trivial⟩
  have hwanted : wanted (mergeDesired u.proxyDesired u.localDesired) st.id = some entry := by
    rw [hu.localSet, ← hid]
    exact wanted_upsertModule hlocal _ entry
  obtain rfl : u.reconciled w r (mergeDesired u.proxyDesired u.localDesired) = t := congrArg Prod.snd hrun
  have hholds := hu.holds
  rw [← hversion] at hholds
  have hpart : u.part w st.id = s.part w st.id := by rw [hu.part.parts, Function.update_self]
  have hup := part_reconciled_placed hwanted hu.part.calm hholds
  rw [hpart] at hup
  refine ⟨keeps_reconcile_grows _ u hu.log, ?_, ?_⟩
  · rw [← hversion]
    exact keeps_reconcile lenient_holds (fun id m _ => keeps_obtainImage_holds (rawDest_ne_tempPath r _ _) id m) u hholds
  · rw [StartedSince, systemd_placed hcalm, ← hversion]
    exact ModulePart.restarts_iff hwanted hup

theorem triple_confirmStaged (stageID configTOML : String) (hcalm : Calm w s.log) (hlocal : (s.localDesired.map (·.id)).Nodup)
    (hraw : s.files st.rawPath = some raw) (hstage : ¬Within (ofString st.stageDir) (ofString (r.rawDest st.id st.version))) :
    Triple (· = s) (confirmStaged w r stageID configTOML st) (fun _ => Confirmed w r s st raw configTOML) fun _ => True := by
  have hquiet : ∀ op : HostOp, op.target st.id = st.id → (∀ u, op.onUnit u = u) → op.quiet = true →
      Triple (Confirming w r s st raw s.localDesired) (perform w st.id op) (fun _ => Confirming w r s st raw s.localDesired)
        fun _ => True := fun op htarget hinert hquiet =>
    (triple_perform_confirming htarget hinert (avoids_of_quiet hquiet _)).weaken (fun _ h => h) (fun _ _ h => h) fun _ _ => trivial
  have hfields : ∀ (t : Rover) staging trust, Confirming w r s st raw s.localDesired t →
      Confirming w r s st raw s.localDesired { t with staging := staging, trust := trust } := fun t _ _ ht =>
    ⟨⟨ht.part.calm, ht.part.parts⟩, ht.log, ht.holds, ht.localSet, ht.proxySet⟩
  have hunstage : Triple (Confirming w r s st raw s.localDesired)
      (modify fun s => { s with staging := mapDelete s.staging stageID } : RoverM PUnit)
      (fun _ => Confirming w r s st raw s.localDesired) fun _ => True := triple_modify fun t ht => hfields t _ t.trust ht
  have hpin : Triple (Confirming w r s st raw s.localDesired) (pinSAN w st.id st.signerSAN)
      (fun _ => Confirming w r s st raw s.localDesired) fun _ => True := by
    refine triple_then (hquiet _ rfl (fun _ => rfl) rfl) fun _ => triple_then (hquiet _ rfl (fun _ => rfl) rfl) fun _ => ?_
    exact triple_modify fun t ht => hfields t t.staging _ ht
  have hmove : Triple (· = { s with log := s.log ++ [(st.id, .readTrust)] ++
      [(st.id, .mkdirAll (dir (r.rawDest st.id st.version)))] }) (moveImage w st (r.rawDest st.id st.version))
      (fun _ => Confirming w r s st raw s.localDesired) fun _ => True :=
    triple_moveImage_placed (((At.self hcalm st.id).inert (o := .readTrust) rfl (fun _ => rfl) s.files).inert
      (o := .mkdirAll (dir (r.rawDest st.id st.version))) rfl (fun _ => rfl) s.files) rfl hraw
  have hclear : HostOp.Avoids (.removeAll st.stageDir) (r.rawDest st.id st.version) :=
    ⟨by simp [HostOp.written], by simpa [HostOp.cleared] using hstage⟩
  refine triple_then (triple_checkPinnedSAN_logged hcalm _) fun _ => ?_
  refine triple_then (triple_wrapError (triple_perform_logged (hcalm.append _) rfl)) fun _ => ?_
  refine triple_then hmove fun _ => triple_then hunstage fun _ => ?_
  refine triple_then (triple_attempt (triple_perform_confirming rfl (fun _ => rfl) hclear)) fun _ => ?_
  refine triple_then (triple_wrapError hpin) fun _ => ?_
  split
  · refine triple_then (triple_wrapError (hquiet _ rfl (fun _ => rfl) rfl)) fun _ => ?_
    exact triple_addLocal hcalm hlocal rfl rfl
  · exact triple_addLocal hcalm hlocal rfl rfl

end

/-- In every state of the rover: if an install is confirmed and nothing fails from there on, the staged image is in its place,
and the module's process was started after it was placed exactly if the module was not attached from this place before with
the same configuration, and did not run without being remembered. -/
theorem confirmed_started_iff {w : World} {r : Setup} {s t : Rover} {stageID configTOML : String} {st : StagedModule} {raw : Bytes}
    (hlocal : (s.localDesired.map (·.id)).Nodup) (hstaged : s.staging.lookup stageID = some st)
    (hraw : s.files st.rawPath = some raw)
    (hstage : ¬Within (ofString st.stageDir) (ofString (r.rawDest st.id st.version))) (hcalm : Calm w s.log)
    (hreturn : Returns (confirmModule w r stageID configTOML) s () t) :
    s.placed r st <+: t.log ∧ t.files (r.rawDest st.id st.version) = some raw ∧
      (StartedSince w st.id (s.placed r st) t.log ↔
        (s.current.lookup st.id = none → (systemd w s.log st.id).running = false) ∧
        (s.current.lookup st.id = some (r.rawDest st.id st.version) → (s.currentConfig.lookup st.id).getD "" ≠ configTOML)) := by
  have hconfirm : Triple (· = s) (confirmModule w r stageID configTOML) (fun _ => Confirmed w r s st raw configTOML)
      fun _ => True := by
    refine triple_get fun s' hs' => ?_
    subst hs'
    rw [hstaged]
    exact triple_confirmStaged stageID configTOML hcalm hlocal hraw hstage
  have hconfirmed := (hconfirm s rfl).1 () t hreturn
  exact ⟨hconfirmed.log, hconfirmed.holds, hconfirmed.since⟩

/-! ### Two builds of one version -/

def armBuilds : World :=
  { failsOnce none with
    moduleTomls := fun _ => [("arm", .ok { name := "arm", version := "1.0", entrypoint := "/usr/bin/arm" })]
    verify := fun _ _ => .ok "release@main" }

def stagedBuild : StagedModule :=
  { id := "arm", version := "1.0", rawPath := "/data/modules/.staging/0000000000000000/image.raw"
    stageDir := "/data/modules/.staging/0000000000000000", signerSAN := "release@main" }

def secondStaged : Rover :=
  [.stage [1] [], .confirm "0000000000000000" "", .stage [2] []].foldl (Rover.after armBuilds bareSetup) {}

def secondConfirmed (configTOML : String) : Rover :=
  ((confirmModule armBuilds bareSetup "0000000000000000" configTOML).run.run secondStaged).2

theorem secondStaged_staged :
    secondStaged.staging.lookup "0000000000000000" = some stagedBuild ∧ secondStaged.files stagedBuild.rawPath = some [2] ∧
      (secondStaged.localDesired.map (·.id)).Nodup ∧ (secondStaged.current.lookup "arm").isSome = true ∧
      (secondStaged.currentConfig.lookup stagedBuild.id).getD "" ≠ "rate = 5" := by
  decide +kernel

/-- The second build comes with a configuration. -/
theorem confirmed_started_iff_configured :
    (secondConfirmed "rate = 5").files (bareSetup.rawDest "arm" "1.0") = some [2] ∧
      StartedSince armBuilds "arm" (secondStaged.placed bareSetup stagedBuild) (secondConfirmed "rate = 5").log := by
  obtain ⟨hstaged, hraw, hlocal, hcurrent, hconfig⟩ := secondStaged_staged
  have hstage : ¬Within (ofString stagedBuild.stageDir) (ofString (bareSetup.rawDest stagedBuild.id stagedBuild.version)) := by
    decide +kernel
  have hreturn : Returns (confirmModule armBuilds bareSetup "0000000000000000" "rate = 5") secondStaged ()
      (secondConfirmed "rate = 5") := returns_of_fst (by decide +kernel)
  generalize secondConfirmed "rate = 5" = t at hreturn ⊢
  generalize secondStaged = s at *
  obtain ⟨-, hfile, hsince⟩ := confirmed_started_iff hlocal hstaged hraw hstage (calm_none s.log) hreturn
  refine ⟨hfile, hsince.mpr ⟨fun hnone => ?_, fun _ => hconfig⟩⟩
  rw [show s.current.lookup "arm" = none from hnone] at hcurrent
  cases hcurrent

/-- The second build is in its place, and the process of the first one runs on. -/
theorem first_build_runs_on :
    secondStaged.staging.lookup "0000000000000000" = some stagedBuild ∧ secondStaged.files stagedBuild.rawPath = some [2] ∧
      ((confirmModule armBuilds bareSetup "0000000000000000" "").run.run secondStaged).1 = .ok () ∧
      (secondConfirmed "").files (bareSetup.rawDest "arm" "1.0") = some [2] ∧
      (systemd armBuilds (secondConfirmed "").log "arm").running = true ∧
      ¬StartedSince armBuilds "arm" (secondStaged.placed bareSetup stagedBuild) (secondConfirmed "").log := by
  decide +kernel

end Waypoint.Agent
