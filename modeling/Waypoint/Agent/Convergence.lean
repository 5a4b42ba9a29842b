import Mathlib.Logic.Function.Basic
import Waypoint.Agent.Reconcile

/-!
# Convergence of the reconciler

What the operations of a rover have made of its units, replayed from the log: an operation that failed has changed nothing.
-/

namespace Waypoint.Agent

open Base

/-! ### The units -/

structure UnitState where
  attached : Option String := none
  running : Bool := false
  config : Option String := none
  /-- started since `config.toml` was last written -/
  fresh : Bool := false
  /-- how many processes of the unit were started so far -/
  starts : Nat := 0
  proxied : Option UInt16 := none

abbrev Systemd := String → UnitState

namespace HostOp

def target (owner : String) : HostOp → String
  | .detach id | .start id | .stop id | .proxySet id _ | .proxyClear id | .syncConfig id _ => id
  | _ => owner

/-- What an operation makes of a unit. A unit that runs is not started again. -/
def onUnit (u : UnitState) : HostOp → UnitState
  | .attach path => { u with attached := some path }
  | .detach _ => { u with attached := none }
  | .start _ => if u.running then u else { u with running := true, fresh := true, starts := u.starts + 1 }
  | .stop _ => { u with running := false }
  | .syncConfig _ config => { u with config := some config, fresh := false }
  | .proxySet _ port => { u with proxied := some port }
  | .proxyClear _ => { u with proxied := none }
  | _ => u

def infallible : HostOp → Bool
  | .proxySet .. | .proxyClear _ | .onAttach .. | .onDetach _ => true
  | _ => false

end HostOp

variable {id : String} {log : List (String × HostOp)} {s : Rover}

section

variable (w : World)

def replay (done : List (String × HostOp) × Systemd) (e : String × HostOp) : List (String × HostOp) × Systemd :=
  let id := e.2.target e.1
  (done.1 ++ [e],
    if e.2.infallible || (w.fault done.1 e.2).isNone then Function.update done.2 id (e.2.onUnit (done.2 id)) else done.2)

def systemd (log : List (String × HostOp)) : Systemd := (log.foldl (replay w) ([], fun _ => {})).2

/-- What belongs to a module: its unit, and what the reconciler remembers of it. -/
structure ModulePart where
  unit : UnitState
  current : Option String
  config : Option String

def Rover.part (s : Rover) (id : String) : ModulePart :=
  ⟨systemd w s.log id, s.current.lookup id, s.currentConfig.lookup id⟩

/-- Nothing fails from here on. -/
def Calm (log : List (String × HostOp)) : Prop := ∀ more op, w.fault (log ++ more) op = none

end

variable {w : World}

theorem replay_fst (log : List (String × HostOp)) (done : List (String × HostOp)) (units : Systemd) :
    (log.foldl (replay w) (done, units)).1 = done ++ log := by
  induction log generalizing done units with
  | nil => exact (List.append_nil done).symm
  | cons e log ih =>
    rw [List.foldl_cons, replay, ih, List.append_assoc, List.singleton_append]

theorem systemd_append (log : List (String × HostOp)) (owner : String) (op : HostOp)
    (h : op.infallible = true ∨ w.fault log op = none) :
    systemd w (log ++ [(owner, op)]) =
      Function.update (systemd w log) (op.target owner) (op.onUnit (systemd w log (op.target owner))) := by
  have hlog : (log.foldl (replay w) ([], fun _ => {})).1 = log := replay_fst log [] _
  have hdone : (op.infallible || (w.fault log op).isNone) = true := by
    rcases h with h | h <;> simp [h]
  rw [systemd, List.foldl_append, List.foldl_cons, List.foldl_nil, replay, hlog, if_pos hdone]
  rfl

theorem Calm.append (h : Calm w log) (more : List (String × HostOp)) :
    Calm w (log ++ more) := by
  intro more' op
  rw [List.append_assoc]
  exact h (more ++ more') op

theorem Calm.fault (h : Calm w log) (op : HostOp) : w.fault log op = none := by
  simpa using h [] op

/-! ### One module at a time -/

/-- The call has come to a state in which only the part of `id` may differ from `parts`, and is `x`. -/
structure At (w : World) (parts : String → ModulePart) (id : String) (x : ModulePart) (s : Rover) : Prop where
  calm : Calm w s.log
  parts : s.part w = Function.update parts id x

def ModulePart.after (x : ModulePart) (op : HostOp) : ModulePart := { x with unit := op.onUnit x.unit }

section

variable {parts : String → ModulePart} {id : String} {x : ModulePart} {s : Rover} {op : HostOp}

theorem At.self (h : Calm w s.log) (id : String) : At w (s.part w) id (s.part w id) s :=
  ⟨h, (Function.update_eq_self id _).symm⟩

theorem At.performed (h : At w parts id x s) (htarget : op.target id = id) (files : Store) :
    At w parts id (x.after op) { s with log := s.log ++ [(id, op)], files := files } := by
  refine ⟨h.calm.append _, ?_⟩
  have hunits := systemd_append s.log id op (.inr (by simpa using h.calm [] op))
  rw [htarget] at hunits
  funext j
  have hpart := congrFun h.parts j
  by_cases hj : j = id
  · subst hj
    rw [Function.update_self] at hpart ⊢
    rw [← hpart]
    simp [Rover.part, ModulePart.after, hunits]
  · rw [Function.update_of_ne hj] at hpart ⊢
    rw [← hpart]
    simp [Rover.part, hunits, Function.update_of_ne hj]

theorem triple_perform_at (htarget : op.target id = id) :
    Triple (At w parts id x) (perform w id op) (fun _ => At w parts id (x.after op)) fun _ => False :=
  triple_perform_ok (fun _ hs => hs.calm.fault op) fun _ hs => hs.performed htarget _

theorem triple_note_at (htarget : op.target id = id) :
    Triple (At w parts id x) (note id op) (fun _ => At w parts id (x.after op)) fun _ => False :=
  triple_modify fun s hs => hs.performed htarget s.files

theorem At.mapped (h : At w parts id x s) {current currentConfig : List (String × String)}
    (hcurrent : ∀ j, j ≠ id → current.lookup j = s.current.lookup j)
    (hconfig : ∀ j, j ≠ id → currentConfig.lookup j = s.currentConfig.lookup j) :
    At w parts id ⟨x.unit, current.lookup id, currentConfig.lookup id⟩
      { s with current := current, currentConfig := currentConfig } := by
  refine ⟨h.calm, ?_⟩
  funext j
  have hpart := congrFun h.parts j
  by_cases hj : j = id
  · subst hj
    rw [Function.update_self] at hpart ⊢
    rw [← hpart]
    rfl
  · rw [Function.update_of_ne hj] at hpart ⊢
    rw [← hpart]
    simp [Rover.part, hcurrent j hj, hconfig j hj]

theorem At.current (h : At w parts id x s) : s.current.lookup id = x.current := by
  have hpart := congrFun h.parts id
  rw [Function.update_self] at hpart
  exact congrArg ModulePart.current hpart

theorem At.config (h : At w parts id x s) : s.currentConfig.lookup id = x.config := by
  have hpart := congrFun h.parts id
  rw [Function.update_self] at hpart
  exact congrArg ModulePart.config hpart

theorem keeps_inert (htarget : op.target id = id) (hinert : ∀ u, op.onUnit u = u) :
    Keeps (Retains (At w parts id x)) (perform w id op).run := by
  have hafter : x.after op = x := by rw [ModulePart.after, hinert]
  have hperform : Triple (At w parts id x) (perform w id op) (fun _ => At w parts id (x.after op)) fun _ => False :=
    triple_perform_at htarget
  rw [hafter] at hperform
  exact keeps_of_triple (hperform.weaken (fun _ h => h) (fun _ _ h => h) fun _ h => h.elim)

/-! ### Detaching -/

namespace ModulePart

def detached (x : ModulePart) : ModulePart :=
  ⟨{ x.unit with attached := none, running := false, proxied := none }, none, x.config⟩

def dropped (r : Setup) (desired : List ModuleDesired) (id : String) (x : ModulePart) : ModulePart :=
  match x.current, wanted desired id with
  | some _, none => x.detached
  | some rawPath, some m => if rawPath ≠ r.rawDest id m.version then x.detached else x
  | none, _ => x

theorem dropped_dropped (r : Setup) (desired : List ModuleDesired) (id : String) (x : ModulePart) :
    (x.dropped r desired id).dropped r desired id = x.dropped r desired id := by
  rcases hcurrent : x.current with _ | rawPath
  · simp [dropped, hcurrent]
  rcases hwanted : wanted desired id with _ | m
  · simp [dropped, hcurrent, hwanted, detached]
  · by_cases hpath : rawPath = r.rawDest id m.version
    · simp [dropped, hcurrent, hwanted, hpath]
    · simp [dropped, hcurrent, hwanted, hpath, detached]

end ModulePart

variable (r : Setup)

theorem triple_detach_at :
    Triple (At w parts id x) (detach w r id) (fun _ => At w parts id x.detached) fun _ => False := by
  have hrest : Triple (At w parts id (x.after (.stop id))) (finishDetach w id) (fun _ => At w parts id x.detached)
      fun _ => False := by
    refine triple_then (triple_wrapError (triple_perform_at rfl)) fun _ => ?_
    refine triple_then (triple_note_at rfl) fun _ => ?_
    have hreport : Triple (At w parts id x.detached) (note id (.onDetach id)) (fun _ => At w parts id x.detached) fun _ => False :=
      triple_note_at rfl
    refine triple_then (triple_modify fun s hs => ?_) fun _ => hreport
    have hmapped := hs.mapped (fun j hj => lookup_mapDelete_of_ne s.current hj) fun j _ => Eq.refl (s.currentConfig.lookup j)
    rw [lookup_mapDelete_self, hs.config] at hmapped
    exact hmapped
  have hquiet : ∀ op : HostOp, op.target id = id → (∀ u, op.onUnit u = u) →
      Triple (At w parts id (x.after (.stop id))) (attempt (perform w id op)) (fun _ => At w parts id (x.after (.stop id)))
        fun _ => False := fun op htarget hinert => triple_attempt (triple_of_keeps (keeps_inert htarget hinert))
  refine triple_then (triple_wrapError (triple_perform_at rfl)) fun _ => ?_
  split
  · refine triple_then (hquiet _ rfl fun _ => rfl) fun _ => ?_
    exact triple_then (hquiet _ rfl fun _ => rfl) fun _ => hrest
  · exact hrest

theorem triple_dropStale_at (desired : List ModuleDesired) :
    Triple (At w parts id x) (dropStale w r desired id) (fun _ => At w parts id (x.dropped r desired id)) fun _ => False := by
  refine triple_get fun s hs => ?_
  have hdetach : Triple (· = s) (detach w r id) (fun _ => At w parts id x.detached) fun _ => False :=
    (triple_detach_at r).weaken (fun t ht => ht ▸ hs) (fun _ _ h => h) fun _ h => h
  rw [hs.current]
  rcases hcurrent : x.current with _ | rawPath
  · rw [show x.dropped r desired id = x by simp [ModulePart.dropped, hcurrent]]
    exact triple_ok fun t ht => ht ▸ hs
  rcases hwanted : wanted desired id with _ | m
  · rw [show x.dropped r desired id = x.detached by simp [ModulePart.dropped, hcurrent, hwanted]]
    exact hdetach
  by_cases hpath : rawPath = r.rawDest id m.version
  · rw [show x.dropped r desired id = x by simp [ModulePart.dropped, hcurrent, hwanted, hpath]]
    simp only [hpath, ne_eq, not_true_eq_false, if_false]
    exact triple_ok fun t ht => ht ▸ hs
  · rw [show x.dropped r desired id = x.detached by simp [ModulePart.dropped, hcurrent, hwanted, hpath]]
    simp only [ne_eq, hpath, not_false_eq_true, if_true]
    exact hdetach

/-! ### Bringing a module up -/

namespace ModulePart

def configured (x : ModulePart) (config : String) : ModulePart :=
  if x.config.getD "" ≠ config then
    ⟨{ x.unit with config := some config, running := true, fresh := true, starts := x.unit.starts + 1 }, x.current, some config⟩
  else x

/-- The part of a module after it was attached and started; a unit that ran before has not read the new file. -/
def started (x : ModulePart) (dest config : String) (proxied : Option UInt16) : ModulePart :=
  ⟨{ attached := some dest, running := true, config := some config, fresh := !x.unit.running
     starts := if x.unit.running then x.unit.starts else x.unit.starts + 1, proxied := proxied }, some dest, some config⟩

/-- What the second pass makes of a module. -/
def BroughtUp (r : Setup) (desired : List ModuleDesired) (id : String) (x y : ModulePart) : Prop :=
  match wanted desired id with
  | none => y = x
  | some m =>
    if x.current = some (r.rawDest id m.version) then y = x.configured m.configToml
    else ∃ proxied, y = x.started (r.rawDest id m.version) m.configToml proxied

end ModulePart

variable (m : ModuleDesired)

theorem triple_applyConfigChange_at :
    Triple (At w parts id x) (applyConfigChange w id m) (fun _ => At w parts id (x.configured m.configToml)) fun _ => False := by
  refine triple_get fun s hs => ?_
  rw [hs.config]
  by_cases hconfig : x.config.getD "" = m.configToml
  · rw [show x.configured m.configToml = x by simp [ModulePart.configured, hconfig]]
    simp only [hconfig, ne_eq, not_true_eq_false, if_false]
    exact triple_ok fun t ht => ht ▸ hs
  simp only [ne_eq, hconfig, not_false_eq_true, if_true]
  have hsync : Triple (· = s) (perform w id (.syncConfig id m.configToml))
      (fun _ => At w parts id (x.after (.syncConfig id m.configToml))) fun _ => False :=
    (triple_perform_at rfl).weaken (fun t ht => ht ▸ hs) (fun _ _ h => h) fun _ h => h
  refine triple_then (triple_wrapError hsync) fun _ => ?_
  refine triple_then (triple_wrapError (triple_perform_at rfl)) fun _ => ?_
  refine triple_then (triple_wrapError (triple_perform_at rfl)) fun _ => triple_modify fun t ht => ?_
  have hmapped := ht.mapped (fun j _ => Eq.refl (t.current.lookup j))
    fun j hj => lookup_mapSet_of_ne t.currentConfig hj m.configToml
  rw [lookup_mapSet_self, ht.current] at hmapped
  rw [show x.configured m.configToml = _ from if_pos hconfig]
  exact hmapped

theorem keeps_obtainImage_at :
    Keeps (Retains (At w parts id x)) (obtainImage w r id m).run := by
  refine keeps_obtainImage_of_ops (fun _ => keeps_inert rfl fun _ => rfl) (fun op hop => ?_) fun s hs => ⟨hs.calm, hs.parts⟩
  cases op with
  | mkdirAll path | createTemp path | writeFile path body | remove path | rename source path =>
    exact keeps_inert rfl fun _ => rfl
  | _ => exact hop.elim

theorem triple_readManifest_at (rawPath : String) :
    Triple (At w parts id x) (readManifest w r id rawPath) (fun _ => At w parts id x) fun _ => False := by
  have hquiet : ∀ op : HostOp, op.target id = id → (∀ u, op.onUnit u = u) →
      Triple (At w parts id x) (perform w id op) (fun _ => At w parts id x) (At w parts id x) :=
    fun op htarget hinert => triple_of_keeps (keeps_inert htarget hinert)
  unfold readManifest
  split
  · exact triple_ok fun _ hs => hs
  refine triple_recover (hquiet _ rfl fun _ => rfl) (fun _ => ?_) fun e => triple_ok fun _ hs => hs
  refine triple_recover (hquiet _ rfl fun _ => rfl) (fun _ => ?_) fun e => triple_ok fun _ hs => hs
  refine triple_get fun s hs => ?_
  dsimp only
  split
  · exact triple_ok fun t ht => ht ▸ hs
  · exact triple_ok fun t ht => ht ▸ hs

def ModulePart.withProxy (x : ModulePart) (proxied : Option UInt16) : ModulePart :=
  { x with unit := { x.unit with proxied := proxied } }

theorem triple_applyManifest_at (manifest : Manifest) :
    Triple (At w parts id x) (applyManifest w r id manifest) (fun _ s => ∃ proxied, At w parts id (x.withProxy proxied) s)
      fun _ => False := by
  have hdropin : ∀ ops, Triple (At w parts id x) (attempt (writeDropin w id ops)) (fun _ => At w parts id x) fun _ => False :=
    fun ops => triple_attempt (triple_of_keeps (keeps_writeDropin (fun _ => keeps_inert rfl fun _ => rfl) ops))
  have hreload : ∀ y, Triple (At w parts id y) (if r.dropinDir ≠ "" then do
      let _ ← attempt (perform w id .reloadUnits)
      pure () else pure () : RoverM Unit) (fun _ => At w parts id y) fun _ => False := by
    intro y
    split
    · exact triple_then (triple_attempt (triple_of_keeps (keeps_inert rfl fun _ => rfl))) fun _ => triple_ok fun _ hs => hs
    · exact triple_ok fun _ hs => hs
  refine triple_then (hdropin _) fun _ => triple_then (hdropin _) fun _ => ?_
  by_cases hproxy : manifest.ui.kind = .proxy
  · simp only [if_pos hproxy]
    refine triple_then (triple_note_at rfl) fun _ => (hreload _).weaken (fun _ hs => hs) (fun _ s hs => ?_) fun _ h => h
    exact ⟨some manifest.ui.proxyPort, hs⟩
  · simp only [if_neg hproxy]
    exact (hreload x).weaken (fun _ hs => hs) (fun _ s hs => ⟨x.unit.proxied, hs⟩) fun _ h => h

theorem triple_attach_at (dest : String) :
    Triple (At w parts id x) (attach w id dest) (fun _ => At w parts id (x.after (.attach dest))) fun _ => False :=
  triple_recover (triple_perform_at rfl) (fun _ => triple_ok fun _ hs => hs) fun _ _ hs => hs.elim

theorem triple_finishStart_at (dest : String) (m : ModuleDesired) (manifest : Option Manifest) (proxied : Option UInt16) :
    Triple (At w parts id ((x.after (.attach dest)).withProxy proxied)) (finishStart w id dest m manifest)
      (fun _ => At w parts id (x.started dest m.configToml proxied)) fun _ => False := by
  have hreport : Triple (At w parts id (x.started dest m.configToml proxied)) (note id (.onAttach id manifest))
      (fun _ => At w parts id (x.started dest m.configToml proxied)) fun _ => False := triple_note_at rfl
  refine triple_then (triple_perform_at rfl) fun _ => triple_then (triple_perform_at rfl) fun _ => ?_
  refine triple_then (triple_perform_at rfl) fun _ => triple_then (triple_modify fun s hs => ?_) fun _ => hreport
  have hmapped := hs.mapped (fun j hj => lookup_mapSet_of_ne s.current hj dest)
    fun j hj => lookup_mapSet_of_ne s.currentConfig hj m.configToml
  rw [lookup_mapSet_self, lookup_mapSet_self] at hmapped
  have hunit : x.started dest m.configToml proxied =
      ⟨(((((x.after (.attach dest)).withProxy proxied).after (.ensureCreds id)).after (.syncConfig id m.configToml)).after
        (.start id)).unit, some dest, some m.configToml⟩ := by
    cases hrunning : x.unit.running <;>
      simp [ModulePart.started, ModulePart.after, ModulePart.withProxy, HostOp.onUnit, hrunning]
  rw [hunit]
  exact hmapped

theorem triple_startAttached_at :
    Triple (At w parts id (x.after (.attach (r.rawDest id m.version)))) (startAttached w r id m)
      (fun _ t => ∃ proxied, At w parts id (x.started (r.rawDest id m.version) m.configToml proxied) t) fun _ => False := by
  refine triple_then (triple_readManifest_at r _) fun manifest => ?_
  cases manifest with
  | none =>
    refine (triple_finishStart_at _ m none x.unit.proxied).weaken (fun _ h => h) (fun _ _ h => ⟨_, h⟩) fun _ h => h
  | some manifest =>
    refine triple_then (triple_applyManifest_at r manifest) fun _ => ?_
    rintro t ⟨proxied, ht⟩
    exact (triple_finishStart_at _ m (some manifest) proxied).weaken (fun _ h => h) (fun _ _ h => ⟨_, h⟩) (fun _ h => h) t ht

theorem triple_startModule_at (hs : At w parts id x s)
    (hobtain : ((obtainImage w r id m).run.run s).1 = .ok ()) :
    Triple (· = s) (startModule w r id m)
      (fun _ t => ∃ proxied, At w parts id (x.started (r.rawDest id m.version) m.configToml proxied) t) fun _ => False := by
  have himage : Triple (· = s) (obtainImage w r id m) (fun _ => At w parts id x) fun _ => False := by
    rintro _ rfl
    have hkept := keeps_obtainImage_at r m _ hs
    refine ⟨fun _ t hrun => ?_, fun e t hrun => ?_⟩
    · rwa [hrun] at hkept
    · rw [hrun] at hobtain
      cases hobtain
  exact triple_then himage fun _ => triple_then (triple_attach_at _) fun _ => triple_startAttached_at r m

/-- A module's turn changes only its own part, also if the image cannot be obtained. -/
theorem triple_startModule_any :
    Triple (At w parts id x) (startModule w r id m) (fun _ t => ∃ y, At w parts id y t) fun t => ∃ y, At w parts id y t := by
  have himage : Triple (At w parts id x) (obtainImage w r id m) (fun _ => At w parts id x) fun t => ∃ y, At w parts id y t :=
    (triple_of_keeps (keeps_obtainImage_at r m)).weaken (fun _ h => h) (fun _ _ h => h) fun _ h => ⟨x, h⟩
  have hattach : Triple (At w parts id x) (attach w id (r.rawDest id m.version))
      (fun _ => At w parts id (x.after (.attach (r.rawDest id m.version)))) fun t => ∃ y, At w parts id y t :=
    (triple_attach_at _).weaken (fun _ h => h) (fun _ _ h => h) fun _ h => h.elim
  refine triple_then himage fun _ => triple_then hattach fun _ => ?_
  exact (triple_startAttached_at r m).weaken (fun _ h => h) (fun _ _ ⟨_, h⟩ => ⟨_, h⟩) fun _ h => h.elim

theorem bringUp_at (desired : List ModuleDesired) (hs : At w parts id x s)
    (hobtain : ∀ m, wanted desired id = some m → x.current ≠ some (r.rawDest id m.version) →
      ((obtainImage w r id m).run.run s).1 = .ok ()) :
    ∃ t y, (bringUp w r desired id).run.run s = (.ok (), t) ∧ At w parts id y t ∧ x.BroughtUp r desired id y := by
  unfold bringUp ModulePart.BroughtUp
  cases hwanted : wanted desired id with
  | none => exact ⟨s, x, rfl, hs, rfl⟩
  | some m =>
    have hattempt : ∀ {p : RoverM Unit} {good : Rover → Prop}, Triple (· = s) p (fun _ => good) (fun _ => False) →
        ∃ t, ((do let _ ← attempt p; pure () : RoverM Unit).run.run s) = (.ok (), t) ∧ good t := by
      intro p good hp
      obtain ⟨u, t, hrun, ht⟩ := hp.returns rfl
      refine ⟨t, ?_, ht⟩
      change (Except.ok (), (p.run.run s).2) = _
      rw [hrun]
    by_cases hcurrent : x.current = some (r.rawDest id m.version)
    · obtain ⟨t, hrun, ht⟩ := hattempt ((triple_applyConfigChange_at m).weaken (fun t ht => ht ▸ hs) (fun _ _ h => h)
        fun _ h => h)
      refine ⟨t, _, ?_, ht, by simp only [hcurrent, if_true]⟩
      change (if s.current.lookup id = some (r.rawDest id m.version) then _ else _ : RoverM Unit).run.run s = _
      rw [if_pos (hs.current.trans hcurrent)]
      exact hrun
    · obtain ⟨t, hrun, proxied, ht⟩ := hattempt (triple_startModule_at r m hs (hobtain m hwanted hcurrent))
      refine ⟨t, _, ?_, ht, ?_⟩
      · change (if s.current.lookup id = some (r.rawDest id m.version) then _ else _ : RoverM Unit).run.run s = _
        rw [if_neg (fun h => hcurrent (hs.current.symm.trans h))]
        exact hrun
      · simp only [hcurrent, if_false]
        exact ⟨proxied, rfl⟩

end

/-! ### A call in which every operation succeeds -/

section

variable (w : World) (r : Setup) (desired : List ModuleDesired)

def Rover.reconciled (s : Rover) : Rover := ((reconcile w r desired).run.run s).2

def Rover.afterDrops (s : Rover) : Rover :=
  ((forM (w.order s.log (s.current.map (·.1))) (dropStale w r desired)).run.run s).2

def Obtains (s : Rover) (id : String) : Prop :=
  ∀ m, wanted desired id = some m → s.current.lookup id ≠ some (r.rawDest id m.version) →
    ((obtainImage w r id m).run.run s).1 = .ok ()

def Rover.upped (s : Rover) (id : String) : Rover := ((bringUp w r desired id).run.run s).2

/-- No operation fails while the modules of the list are brought up, and neither does a fetch. -/
structure Ahead (ids : List String) (s : Rover) : Prop where
  calm : Calm w s.log
  images : Along (Rover.upped w r desired) (Obtains w r desired) s ids

/-- Nothing fails, and every image that is needed is obtained. -/
structure Succeeds (s : Rover) : Prop where
  calm : Calm w s.log
  images : Along (Rover.upped w r desired) (Obtains w r desired) (s.afterDrops w r desired)
    (w.order (s.afterDrops w r desired).log (wantedIds desired))

end

variable {r : Setup} {desired : List ModuleDesired} {m : ModuleDesired} {bad : HostOp}

/-- A module's turn: an attached module is left to its configuration, another one is started. -/
theorem upped_eq (s : Rover) (hwanted : wanted desired id = some m) :
    s.upped w r desired id =
      if s.current.lookup id = some (r.rawDest id m.version) then ((applyConfigChange w id m).run.run s).2
      else ((startModule w r id m).run.run s).2 := by
  unfold Rover.upped bringUp
  rw [hwanted]
  change ((if s.current.lookup id = some (r.rawDest id m.version) then _ else _ : RoverM Unit).run.run s).2 = _
  split
  · rfl
  · rfl

theorem upped_at (r : Setup) (desired : List ModuleDesired) {parts : String → ModulePart} {x : ModulePart}
    (hs : At w parts id x s) : ∃ y, At w parts id y (s.upped w r desired id) := by
  cases hwanted : wanted desired id with
  | none =>
    refine ⟨x, ?_⟩
    rw [Rover.upped, bringUp, hwanted]
    exact hs
  | some m =>
    rw [upped_eq s hwanted]
    split
    · have hconfig : Triple (At w parts id x) (applyConfigChange w id m) (fun _ t => ∃ y, At w parts id y t)
          fun t => ∃ y, At w parts id y t :=
        (triple_applyConfigChange_at m).weaken (fun _ h => h) (fun _ _ h => ⟨_, h⟩) fun _ h => h.elim
      exact hconfig.final hs
    · exact (triple_startModule_any r m).final hs

theorem bringUp_run (id : String) (s : Rover) : (bringUp w r desired id).run.run s = (.ok (), s.upped w r desired id) := by
  have hreturns : Triple (fun _ => True) (bringUp w r desired id) (fun _ _ => True) fun _ => False := by
    unfold bringUp
    cases wanted desired id with
    | none => exact triple_ok fun _ _ => trivial
    | some m =>
      refine triple_get fun s _ => ?_
      split
      · exact triple_then (triple_attempt (triple_any _)) fun _ => triple_ok fun _ h => h
      · exact triple_then (triple_attempt (triple_any _)) fun _ => triple_ok fun _ h => h
  obtain ⟨_, t, hrun, -⟩ := hreturns.returns (s := s) trivial
  rw [Rover.upped, hrun]

theorem round_dropStale (id : String) (hs : Calm w s.log) :
    ∃ t, (dropStale w r desired id).run.run s = (.ok (), t) ∧ Calm w t.log ∧ (∀ j, j ≠ id → t.part w j = s.part w j) ∧
      t.part w id = (s.part w id).dropped r desired id := by
  obtain ⟨_, t, hrun, ht⟩ := (triple_dropStale_at r desired).returns (At.self hs id)
  refine ⟨t, hrun, ht.calm, fun j hj => ?_, ?_⟩
  · rw [ht.parts, Function.update_of_ne hj]
  · rw [ht.parts, Function.update_self]

theorem round_bringUp {rest : List String} (hs : Ahead w r desired (id :: rest) s) :
    ∃ t, (bringUp w r desired id).run.run s = (.ok (), t) ∧ Ahead w r desired rest t ∧
      (∀ j, j ≠ id → t.part w j = s.part w j) ∧ (s.part w id).BroughtUp r desired id (t.part w id) := by
  obtain ⟨t, y, hrun, ht, hup⟩ := bringUp_at r desired (At.self hs.calm id) hs.images.1
  have hrest : Along (Rover.upped w r desired) (Obtains w r desired) (s.upped w r desired id) rest := hs.images.2
  rw [Rover.upped, hrun] at hrest
  refine ⟨t, hrun, ⟨ht.calm, hrest⟩, fun j hj => ?_, ?_⟩
  · rw [ht.parts, Function.update_of_ne hj]
  · rw [ht.parts, Function.update_self]
    exact hup

theorem parts_dropStale (h : Calm w s.log) :
    ∃ t, (forM (w.order s.log (s.current.map (·.1))) (dropStale w r desired)).run.run s = (.ok (), t) ∧ Calm w t.log ∧
      ∀ id, t.part w id = (s.part w id).dropped r desired id := by
  obtain ⟨t, hrun, ht, hparts⟩ := loop_parts (Rover.part w) (fun id a b => b = a.dropped r desired id)
    (fun _ s => Calm w s.log) (fun id _ _ hs => round_dropStale id hs)
    (.inr (by rintro id a _ _ rfl rfl; exact a.dropped_dropped r desired id)) h
  refine ⟨t, hrun, ht, fun id => ?_⟩
  by_cases hid : id ∈ s.current.map (·.1)
  · exact (hparts id).1 ((w.order_perm s.log _).mem_iff.mpr hid)
  rw [(hparts id).2 fun h => hid ((w.order_perm s.log _).mem_iff.mp h)]
  have hcurrent : (s.part w id).current = none := by
    refine List.lookup_eq_none_iff.mpr fun e he => bne_iff_ne.mpr ?_
    rintro rfl
    exact hid (List.mem_map_of_mem he)
  simp [ModulePart.dropped, hcurrent]

/-- What every turn does to its module, the reconcile does to each module that is wanted, once it is dropped if stale. -/
theorem parts_of_rounds (good : List String → Rover → Prop) (rel : String → ModulePart → ModulePart → Prop)
    (hround : ∀ id rest s, good (id :: rest) s → ∃ t, (bringUp w r desired id).run.run s = (.ok (), t) ∧ good rest t ∧
      (∀ j, j ≠ id → t.part w j = s.part w j) ∧ rel id (s.part w id) (t.part w id))
    (hcalm : Calm w s.log) (hgood : Calm w (s.afterDrops w r desired).log →
      good (w.order (s.afterDrops w r desired).log (wantedIds desired)) (s.afterDrops w r desired)) (id : String) :
    (id ∈ wantedIds desired → rel id ((s.part w id).dropped r desired id) ((s.reconciled w r desired).part w id)) ∧
      (id ∉ wantedIds desired → (s.reconciled w r desired).part w id = (s.part w id).dropped r desired id) := by
  obtain ⟨m, hdrops, hcalm, hdropped⟩ : ∃ m,
      (forM (w.order s.log (s.current.map (·.1))) (dropStale w r desired)).run.run s = (.ok (), m) ∧ Calm w m.log ∧
        ∀ id, m.part w id = (s.part w id).dropped r desired id := parts_dropStale hcalm
  rw [show s.afterDrops w r desired = m from congrArg Prod.snd hdrops] at hgood
  have hnodup : (w.order m.log (wantedIds desired)).Nodup := (w.order_perm m.log _).nodup_iff.mpr (List.nodup_dedup _)
  obtain ⟨t, hups, -, hparts⟩ := loop_parts (Rover.part w) rel good hround (.inl hnodup) (hgood hcalm)
  have hrun : s.reconciled w r desired = t := by
    have hpasses : (reconcile w r desired).run.run s =
        ((forM (w.order s.log (s.current.map (·.1))) (dropStale w r desired) : RoverM Unit) >>= fun _ =>
          get >>= fun s => forM (w.order s.log (wantedIds desired)) (bringUp w r desired)).run.run s := rfl
    rw [Rover.reconciled, hpasses, ExceptT.run_bind, StateT.run_bind, hdrops]
    exact congrArg Prod.snd hups
  rw [hrun, ← hdropped id]
  exact ⟨fun hid => (hparts id).1 ((w.order_perm m.log _).mem_iff.mpr hid), fun hid =>
    (hparts id).2 fun h => hid ((w.order_perm m.log _).mem_iff.mp h)⟩

theorem parts_reconciled (h : Succeeds w r desired s) (id : String) :
    ((s.part w id).dropped r desired id).BroughtUp r desired id ((s.reconciled w r desired).part w id) := by
  obtain ⟨hturn, hrest⟩ := parts_of_rounds (Ahead w r desired) (ModulePart.BroughtUp r desired)
    (fun _ _ _ hs => round_bringUp hs) h.calm (fun hcalm => ⟨hcalm, h.images⟩) id
  by_cases hid : id ∈ wantedIds desired
  · exact hturn hid
  rw [hrest hid]
  have hwanted : wanted desired id = none := by
    by_contra hne
    exact hid (mem_wantedIds_iff.mpr hne)
  simp [ModulePart.BroughtUp, hwanted]

/-! ### Convergence -/

def UnitState.Gone (u : UnitState) : Prop := u.attached = none ∧ u.running = false ∧ u.proxied = none

def UnitState.Up (u : UnitState) (dest config : String) : Prop :=
  u.attached = some dest ∧ u.running = true ∧ u.config = some config ∧ u.fresh = true

instance (u : UnitState) : Decidable u.Gone := inferInstanceAs (Decidable (_ ∧ _ ∧ _))

instance (u : UnitState) (dest config : String) : Decidable (u.Up dest config) := inferInstanceAs (Decidable (_ ∧ _ ∧ _ ∧ _))

/-- Exactly the modules of the set are attached and running, at their versions and with their configurations. -/
structure Converged (w : World) (r : Setup) (desired : List ModuleDesired) (s : Rover) : Prop where
  modules : ∀ m ∈ desired, (systemd w s.log m.id).Up (r.rawDest m.id m.version) m.configToml
  others : ∀ id, id ∉ desired.map (·.id) → (systemd w s.log id).Gone

namespace ModulePart

/-- What a call relies on where it does nothing: a module that is neither remembered nor wanted is gone, one that is
remembered as it is wanted is up, and one that has to be started is not running. -/
def ReadyFor (r : Setup) (desired : List ModuleDesired) (id : String) (x : ModulePart) : Prop :=
  match x.current, wanted desired id with
  | none, none => x.unit.Gone
  | none, some _ => x.unit.running = false
  | some _, none => True
  | some rawPath, some m => rawPath = r.rawDest id m.version →
      x.unit.attached = some rawPath ∧ (x.config.getD "" = m.configToml → x.unit.Up rawPath m.configToml)

variable {id : String} {x y : ModulePart}

theorem gone_iff_readyFor (hwanted : wanted desired id = none)
    (h : (x.dropped r desired id).BroughtUp r desired id y) : y.unit.Gone ↔ x.ReadyFor r desired id := by
  simp only [BroughtUp, hwanted] at h
  rw [h]
  rcases hcurrent : x.current with _ | rawPath
  · simp [ReadyFor, dropped, hcurrent, hwanted]
  · simp [ReadyFor, dropped, hcurrent, hwanted, detached, UnitState.Gone]

theorem up_iff_readyFor {m : ModuleDesired} (hwanted : wanted desired id = some m)
    (h : (x.dropped r desired id).BroughtUp r desired id y) :
    y.unit.Up (r.rawDest id m.version) m.configToml ↔ x.ReadyFor r desired id := by
  simp only [BroughtUp, hwanted] at h
  rcases hcurrent : x.current with _ | rawPath
  · have hdropped : x.dropped r desired id = x := by simp [dropped, hcurrent]
    rw [hdropped, hcurrent, if_neg (by simp)] at h
    obtain ⟨proxied, rfl⟩ := h
    simp [ReadyFor, hcurrent, hwanted, UnitState.Up, started]
  · by_cases hpath : rawPath = r.rawDest id m.version
    · have hdropped : x.dropped r desired id = x := by simp [dropped, hcurrent, hwanted, hpath]
      rw [hdropped, hcurrent, if_pos (by rw [hpath])] at h
      rw [h]
      by_cases hconfig : x.config.getD "" = m.configToml
      · simp only [configured, ReadyFor, hcurrent, hwanted, hconfig, ← hpath, ne_eq, not_true_eq_false, if_false, true_implies]
        exact ⟨fun hup => ⟨hup.1, hup⟩, fun hup => hup.2⟩
      · simp [configured, ReadyFor, hcurrent, hwanted, hconfig, ← hpath, UnitState.Up]
    · have hdropped : x.dropped r desired id = x.detached := by simp [dropped, hcurrent, hwanted, hpath]
      rw [hdropped, if_neg (by simp [detached])] at h
      obtain ⟨proxied, rfl⟩ := h
      simp [ReadyFor, hcurrent, hwanted, hpath, UnitState.Up, started, detached]

end ModulePart

def Ready (w : World) (r : Setup) (desired : List ModuleDesired) (s : Rover) : Prop :=
  ∀ id, (s.part w id).ReadyFor r desired id

/-- After any calls before it, a call in which every operation succeeds converges exactly if the rover is ready for it. -/
theorem converges_iff_ready {s : Rover} (hids : (desired.map (·.id)).Nodup) (hfinal : Succeeds w r desired s) :
    Converged w r desired (s.reconciled w r desired) ↔ Ready w r desired s := by
  have hparts := parts_reconciled hfinal
  constructor
  · intro h id
    cases hwanted : wanted desired id with
    | none => exact (ModulePart.gone_iff_readyFor hwanted (hparts id)).mp (h.others id (wanted_eq_none_iff.mp hwanted))
    | some m =>
      obtain ⟨hm, rfl⟩ := mem_of_wanted hwanted
      exact (ModulePart.up_iff_readyFor hwanted (hparts m.id)).mp (h.modules m hm)
  · intro h
    constructor
    · intro m hm
      exact (ModulePart.up_iff_readyFor (wanted_of_mem hids hm) (hparts m.id)).mpr (h m.id)
    · intro id hid
      exact (ModulePart.gone_iff_readyFor (wanted_eq_none_iff.mpr hid) (hparts id)).mpr (h id)

/-! ### Calls without failures -/

namespace ModulePart

variable {id : String} {x y : ModulePart}

theorem BroughtUp.memory {m : ModuleDesired} (hwanted : wanted desired id = some m) (h : x.BroughtUp r desired id y) :
    y.current = some (r.rawDest id m.version) ∧ y.config.getD "" = m.configToml := by
  simp only [BroughtUp, hwanted] at h
  by_cases hcurrent : x.current = some (r.rawDest id m.version)
  · rw [if_pos hcurrent] at h
    by_cases hconfig : x.config.getD "" = m.configToml
    · rw [h, configured, if_neg (not_not_intro hconfig)]
      exact ⟨hcurrent, hconfig⟩
    · rw [h, configured, if_pos hconfig]
      exact ⟨hcurrent, rfl⟩
  · rw [if_neg hcurrent] at h
    obtain ⟨proxied, rfl⟩ := h
    exact ⟨rfl, rfl⟩

theorem current_dropped (hwanted : wanted desired id = none) : (x.dropped r desired id).current = none := by
  rcases hcurrent : x.current with _ | rawPath
  · simp [dropped, hcurrent]
  · simp [dropped, hcurrent, hwanted, detached]

end ModulePart

/-! ### Calling again -/

/-- What is remembered is just the desired set. -/
def Rover.Settled (r : Setup) (desired : List ModuleDesired) (s : Rover) : Prop :=
  ∀ id, match wanted desired id with
    | none => s.current.lookup id = none
    | some m => s.current.lookup id = some (r.rawDest id m.version) ∧ (s.currentConfig.lookup id).getD "" = m.configToml

theorem settled_reconciled (h : Succeeds w r desired s) : (s.reconciled w r desired).Settled r desired := by
  intro id
  have hup := parts_reconciled h id
  cases hwanted : wanted desired id with
  | none =>
    simp only [ModulePart.BroughtUp, hwanted] at hup
    exact (congrArg ModulePart.current hup).trans (ModulePart.current_dropped hwanted)
  | some m => exact hup.memory hwanted

theorem wanted_of_perm {again : List ModuleDesired} (hids : (desired.map (·.id)).Nodup) (hperm : again.Perm desired)
    (id : String) : wanted again id = wanted desired id := by
  have hagain : (again.map (·.id)).Nodup := (hperm.map _).nodup_iff.mpr hids
  cases hwanted : wanted desired id with
  | none =>
    rw [wanted_eq_none_iff] at hwanted ⊢
    exact fun hmem => hwanted ((hperm.map _).mem_iff.mp hmem)
  | some m =>
    obtain ⟨hm, rfl⟩ := mem_of_wanted hwanted
    exact wanted_of_mem hagain (hperm.mem_iff.mpr hm)

theorem Rover.Settled.dropStale_run (h : s.Settled r desired) (id : String) :
    (dropStale w r desired id).run.run s = (.ok (), s) := by
  have hdrop : Triple (· = s) (dropStale w r desired id) (fun _ => (· = s)) fun _ => False := by
    refine triple_get fun t ht => ?_
    subst ht
    have hid := h id
    cases hwanted : wanted desired id with
    | none =>
      rw [hwanted] at hid
      rw [show t.current.lookup id = none from hid]
      exact triple_ok fun _ h => h
    | some m =>
      rw [hwanted] at hid
      rw [hid.1]
      simp only [ne_eq, not_true_eq_false, if_false]
      exact triple_ok fun _ h => h
  obtain ⟨_, _, hrun, rfl⟩ := hdrop.returns rfl
  exact hrun

theorem Rover.Settled.bringUp_run (h : s.Settled r desired) (id : String) :
    (bringUp w r desired id).run.run s = (.ok (), s) := by
  have hup : Triple (· = s) (bringUp w r desired id) (fun _ => (· = s)) fun _ => False := by
    have hid := h id
    unfold bringUp
    cases hwanted : wanted desired id with
    | none => exact triple_ok fun _ h => h
    | some m =>
      rw [hwanted] at hid
      have hconfig : Triple (· = s) (applyConfigChange w id m) (fun _ => (· = s)) (· = s) := by
        refine triple_get fun t ht => ?_
        subst ht
        simp only [hid.2, ne_eq, not_true_eq_false, if_false]
        exact triple_ok fun _ h => h
      refine triple_get fun t ht => ?_
      subst ht
      rw [if_pos hid.1]
      exact triple_then (triple_attempt hconfig) fun _ => triple_ok fun _ h => h
  obtain ⟨_, _, hrun, rfl⟩ := hup.returns rfl
  exact hrun

theorem forM_quiet {p : String → RoverM Unit} (hp : ∀ id, (p id).run.run s = (.ok (), s)) (ids : List String) :
    (forM ids p).run.run s = (.ok (), s) := by
  induction ids with
  | nil => rfl
  | cons id ids ih =>
    rw [List.forM_cons, ExceptT.run_bind, StateT.run_bind, hp id]
    exact ih

/-- A call with the same entries, in any order, does nothing after one that has succeeded: no operation is logged, and the
rover stays as it is. -/
theorem reconcile_again {s : Rover} {again : List ModuleDesired} (hids : (desired.map (·.id)).Nodup)
    (hperm : again.Perm desired) (h : Succeeds w r desired s) :
    (reconcile w r again).run.run (s.reconciled w r desired) = (.ok (), s.reconciled w r desired) := by
  have hsettled : (s.reconciled w r desired).Settled r again := by
    intro id
    rw [wanted_of_perm hids hperm]
    exact settled_reconciled h id
  generalize s.reconciled w r desired = t at hsettled ⊢
  have hpasses : (reconcile w r again).run.run t =
      ((forM (w.order t.log (t.current.map (·.1))) (dropStale w r again) : RoverM Unit) >>= fun _ =>
        get >>= fun s => forM (w.order s.log (wantedIds again)) (bringUp w r again)).run.run t := rfl
  rw [hpasses, ExceptT.run_bind, StateT.run_bind, forM_quiet (fun id => hsettled.dropStale_run id)]
  exact forM_quiet (fun id => hsettled.bringUp_run id) _

/-! ### One failure -/

def failsOnce (bad : Option HostOp) : World where
  fault log op := if some op = bad ∧ op ∉ log.map (·.2) then some "failed" else none
  cut _ := none
  download _ _ := .ok [1]
  tempSuffix log := log.length
  random _ := .ok 0
  moduleTomls _ := []
  sha256 _ := "01"
  formatRate _ := ""
  verifierError := none
  verify _ _ := .ok ""
  order _ ids := ids
  order_perm _ ids := List.Perm.refl ids

def bareSetup : Setup :=
  { dropinDir := "", stateBackingRoot := "", rootDir := "/data", moduleMountRoot := "", runtimeDir := "/run" }

def cameraWith (config : String) : ModuleDesired :=
  { id := "camera", version := "1.0.0", rawUrl := "https://proxy/camera.raw", rawSha256 := "01", configToml := config }

def afterCalls (w : World) (calls : List (List ModuleDesired)) : Rover :=
  calls.foldl (fun s set => s.reconciled w bareSetup set) {}

theorem calm_none (log : List (String × HostOp)) : Calm (failsOnce none) log := by
  intro more op
  simp [failsOnce]

theorem calm_of_failed (h : bad ∈ log.map (·.2)) :
    Calm (failsOnce (some bad)) log := by
  intro more op
  refine if_neg ?_
  rintro ⟨hop, hnew⟩
  cases hop
  rw [List.map_append, List.mem_append, not_or] at hnew
  exact hnew.1 h

theorem nodup_camera (config : String) : ([cameraWith config].map (·.id)).Nodup := List.nodup_singleton _

theorem wanted_camera {config : String} (h : wanted [cameraWith config] "camera" = some m) :
    m = cameraWith config := by
  have hcamera : wanted [cameraWith config] "camera" = some (cameraWith config) :=
    wanted_of_mem (nodup_camera config) (List.mem_singleton_self _)
  exact Option.some.inj (h.symm.trans hcamera)

theorem succeeds_of_remembered (hbad : bad ∈ s.log.map (·.2))
    (hcurrent : (s.afterDrops (failsOnce (some bad)) bareSetup [cameraWith ""]).current.lookup "camera" =
      some (bareSetup.rawDest "camera" "1.0.0")) :
    Succeeds (failsOnce (some bad)) bareSetup [cameraWith ""] s := by
  refine ⟨calm_of_failed hbad, fun m hm hother => ?_, trivial⟩
  rw [wanted_camera hm] at hother
  exact absurd hcurrent hother

theorem systemd_of_untouched (h : ∀ e ∈ log, e.2.target e.1 ≠ id) : systemd w log id = {} := by
  have hreplay : ∀ done units, units id = {} → (log.foldl (replay w) (done, units)).2 id = {} := by
    induction log with
    | nil => exact fun _ _ hunits => hunits
    | cons e log ih =>
      rw [List.forall_mem_cons] at h
      intro done units hunits
      refine ih h.2 _ _ ?_
      split
      · exact (Function.update_of_ne (Ne.symm h.1) _ _).trans hunits
      · exact hunits
  exact hreplay [] _ rfl

def startFails : World := failsOnce (some (.start "camera"))

def startTried : Rover := afterCalls startFails [[cameraWith ""]]

/-- The start of the camera fails, and the call is made again. -/
theorem converges_iff_ready_again :
    Converged startFails bareSetup [cameraWith ""] (afterCalls startFails [[cameraWith ""], [cameraWith ""]]) := by
  obtain ⟨hfailed, hobtained, hcurrent, hrunning, htargets⟩ :
      HostOp.start "camera" ∈ startTried.log.map (·.2) ∧
      ((obtainImage startFails bareSetup "camera" (cameraWith "")).run.run
        (startTried.afterDrops startFails bareSetup [cameraWith ""])).1 = .ok () ∧
      startTried.current = [] ∧ (systemd startFails startTried.log "camera").running = false ∧
      ∀ e ∈ startTried.log, e.2.target e.1 = "camera" := by
    decide +kernel
  have hfinal : Succeeds startFails bareSetup [cameraWith ""] startTried := by
    refine ⟨calm_of_failed hfailed, fun m hm _ => ?_, trivial⟩
    rw [wanted_camera hm]
    exact hobtained
  refine (converges_iff_ready (nodup_camera "") hfinal).mpr fun id => ?_
  simp only [ModulePart.ReadyFor, Rover.part, hcurrent, List.lookup_nil]
  by_cases hid : id = "camera"
  · subst hid
    exact hrunning
  · rw [wanted_eq_none_iff.mpr (by simpa [cameraWith] using hid),
      systemd_of_untouched fun e he => htargets e he ▸ Ne.symm hid]
    exact ⟨rfl, rfl, rfl⟩

theorem reconcile_again_camera :
    (reconcile (failsOnce none) bareSetup [cameraWith ""]).run.run
        (Rover.reconciled (failsOnce none) bareSetup [cameraWith ""] {}) =
      (.ok (), Rover.reconciled (failsOnce none) bareSetup [cameraWith ""] {}) := by
  refine reconcile_again (nodup_camera "") (List.Perm.refl _) ⟨calm_none _, fun m hm _ => ?_, trivial⟩
  rw [wanted_camera hm]
  rfl

/-- A module whose start failed stays attached when it is no longer wanted; one whose detach failed is not started when
it is wanted again; and a configuration whose stop failed stays when the old one is wanted again. -/
theorem failures_left_behind :
    (Succeeds (failsOnce (some (.start "camera"))) bareSetup []
        (afterCalls (failsOnce (some (.start "camera"))) [[cameraWith ""]]) ∧
      ¬Converged (failsOnce (some (.start "camera"))) bareSetup []
        (afterCalls (failsOnce (some (.start "camera"))) [[cameraWith ""], []])) ∧
    (Succeeds (failsOnce (some (.detach "camera"))) bareSetup [cameraWith ""]
        (afterCalls (failsOnce (some (.detach "camera"))) [[cameraWith ""], []]) ∧
      ¬Converged (failsOnce (some (.detach "camera"))) bareSetup [cameraWith ""]
        (afterCalls (failsOnce (some (.detach "camera"))) [[cameraWith ""], [], [cameraWith ""]])) ∧
    Succeeds (failsOnce (some (.stop "camera"))) bareSetup [cameraWith ""]
        (afterCalls (failsOnce (some (.stop "camera"))) [[cameraWith ""], [cameraWith "rate = 5"]]) ∧
      ¬Converged (failsOnce (some (.stop "camera"))) bareSetup [cameraWith ""]
        (afterCalls (failsOnce (some (.stop "camera"))) [[cameraWith ""], [cameraWith "rate = 5"], [cameraWith ""]]) := by
  refine ⟨⟨⟨calm_of_failed (by decide +kernel), trivial⟩, fun h => ?_⟩,
    ⟨succeeds_of_remembered (by decide +kernel) (by decide +kernel), fun h => ?_⟩,
    succeeds_of_remembered (by decide +kernel) (by decide +kernel), fun h => ?_⟩
  · exact absurd (h.others "camera" (by decide)) (by decide +kernel)
  · exact absurd (h.modules _ (List.mem_singleton_self _)) (by decide +kernel)
  · exact absurd (h.modules _ (List.mem_singleton_self _)) (by decide +kernel)

end Waypoint.Agent
