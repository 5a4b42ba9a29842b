import Waypoint.Agent.ApplyImage
import Waypoint.Agent.Desired
import Waypoint.Agent.Dropin
import Waypoint.Base.Effect

/-!
# The rover under the module manager

What the module manager and its reconciler work on: the stored images, the record of what was done to the host, and the manager's maps.
-/

namespace Waypoint.Agent

open Base LexPath

/-- What the agent does to its host. Images are read and written by the first group; `dropin` is a file of a unit. -/
inductive HostOp
  | mkdirAll (path : String)
  | writeFile (path : String) (body : Bytes)
  | createTemp (path : String)
  | rename (source path : String)
  | copyFile (source path : String)
  | remove (path : String)
  | removeAll (path : String)
  | stat (path : String)
  | attach (path : String)
  | detach (id : String)
  | mount (image mountPath : String)
  | unmount (mountPath : String)
  | rmdir (path : String)
  | start (id : String)
  | stop (id : String)
  | reloadUnits
  | dropin (op : FileOp)
  | proxySet (id : String) (port : UInt16)
  | proxyClear (id : String)
  | ensureCreds (id : String)
  | syncConfig (id config : String)
  | onAttach (id : String) (manifest : Option Manifest)
  | onDetach (id : String)
  | readTrust
  | writeTrust
  | writeLocalConfig (id config : String)
  | writeLocalDesired
  deriving DecidableEq

abbrev Store := String → Option Bytes

def Store.set (files : Store) (path : String) (body : Option Bytes) : Store := fun p => if p = path then body else files p

def HostOp.effect (files : Store) : HostOp → Store
  | .writeFile path body => files.set path (some body)
  | .createTemp path => files.set path (some [])
  | .rename source path => if source = path then files else (files.set path (files source)).set source none
  | .copyFile source path => files.set path (files source)
  | .remove path => files.set path none
  | .removeAll path => fun p => if Within (ofString path) (ofString p) then none else files p
  | _ => files

structure StagedModule where
  rawPath : String
  stageDir : String
  id : String
  version : String
  signerSAN : String
  deriving DecidableEq

structure Rover where
  files : Store := fun _ => none
  log : List (String × HostOp) := []
  current : List (String × String) := []
  currentConfig : List (String × String) := []
  staging : List (String × StagedModule) := []
  localDesired : List ModuleDesired := []
  proxyDesired : List ModuleDesired := []
  trust : List (String × String) := []
  /-- every image that was put into the store, by its module and version -/
  stored : List (String × String) := []

/-- A Go map as the list of its entries: at most one for a key, the newest in front. -/
def mapSet {α : Type} (m : List (String × α)) (key : String) (value : α) : List (String × α) :=
  (key, value) :: m.filter fun e => e.1 ≠ key

def mapDelete {α : Type} (m : List (String × α)) (key : String) : List (String × α) := m.filter fun e => e.1 ≠ key

section Maps

variable {α : Type} (m : List (String × α)) {key other : String}

@[simp] theorem lookup_mapDelete_self : (mapDelete m key).lookup key = none := by
  rw [List.lookup_eq_none_iff]
  intro e he
  have hne : e.1 ≠ key := of_decide_eq_true (List.mem_filter.mp he).2
  exact bne_iff_ne.mpr hne.symm

theorem lookup_mapDelete_of_ne (hne : other ≠ key) : (mapDelete m key).lookup other = m.lookup other := by
  induction m with
  | nil => rfl
  | cons e m ih =>
    obtain ⟨k, value⟩ := e
    unfold mapDelete at ih ⊢
    by_cases hk : k = key
    · subst hk
      rw [List.filter_cons_of_neg (by simp), ih, List.lookup_cons, beq_eq_false_iff_ne.mpr hne]
    · rw [List.filter_cons_of_pos (by simpa using hk), List.lookup_cons, List.lookup_cons, ih]

@[simp] theorem lookup_mapSet_self (value : α) : (mapSet m key value).lookup key = some value := by
  rw [mapSet, List.lookup_cons, beq_self_eq_true]

theorem lookup_mapSet_of_ne (hne : other ≠ key) (value : α) : (mapSet m key value).lookup other = m.lookup other := by
  rw [mapSet, List.lookup_cons, beq_eq_false_iff_ne.mpr hne]
  exact lookup_mapDelete_of_ne m hne

end Maps

/-- What is not the agent's choice, as a function of what was done so far. -/
structure World where
  fault : List (String × HostOp) → HostOp → Option String
  /-- where a failed copy stopped: before the destination was opened, or after some bytes -/
  cut : List (String × HostOp) → Option Nat
  download : List (String × HostOp) → String → Except String Bytes
  tempSuffix : List (String × HostOp) → Nat
  random : List (String × HostOp) → Except String UInt64
  /-- the module manifests an image holds, by the directory each is in -/
  moduleTomls : Bytes → List (String × Except String RawManifest)
  sha256 : Bytes → String
  /-- a rate in decimal, with as many digits as it needs -/
  formatRate : Rat → String
  /-- why the signature verifier could not be set up -/
  verifierError : Option String
  /-- the signature check, with the identity it finds -/
  verify : Bytes → Bytes → Except String String
  /-- the order in which a map is iterated -/
  order : List (String × HostOp) → List String → List String
  order_perm : ∀ log ids, (order log ids).Perm ids

abbrev RoverM := ExceptT String (StateM Rover)

section

variable (w : World)

/-- What an operation that fails leaves: a copy may have written part of the file. -/
def HostOp.failure (s : Rover) : HostOp → Store
  | .copyFile source path =>
    match w.cut s.log with
    | none => s.files
    | some n => s.files.set path ((s.files source).map (·.take n))
  | _ => s.files

def perform (owner : String) (op : HostOp) : RoverM Unit := ExceptT.mk do
  let s ← get
  match w.fault s.log op with
  | none =>
    set { s with log := s.log ++ [(owner, op)], files := op.effect s.files }
    return .ok ()
  | some e =>
    set { s with log := s.log ++ [(owner, op)], files := op.failure w s }
    return .error e

def note (owner : String) (op : HostOp) : RoverM Unit := modify fun s => { s with log := s.log ++ [(owner, op)] }

/-- Whether a file is there; an error other than its absence counts as if it were. -/
def fileExists (owner path : String) : RoverM Bool := do
  match ← attempt (perform w owner (.stat path)) with
  | .error _ => return true
  | .ok () => return ((← get).files path).isSome

end

theorem effect_rename_self (files : Store) (source path : String) : (HostOp.rename source path).effect files path = files source := by
  by_cases hsame : source = path
  · simp [HostOp.effect, hsame]
  · simp [HostOp.effect, hsame, Store.set, Ne.symm hsame]

def HostOp.quiet : HostOp → Bool
  | .writeFile .. | .createTemp _ | .rename .. | .copyFile .. | .remove _ | .removeAll _ => false
  | _ => true

theorem HostOp.effect_of_quiet {op : HostOp} (h : op.quiet = true) (files : Store) : op.effect files = files := by
  cases op <;> first | rfl | cases h

section

variable {w : World} {op : HostOp} {pre : Rover → Prop} {post : Unit → Rover → Prop} {owner : String}

theorem HostOp.failure_of_quiet (h : op.quiet = true) (s : Rover) : op.failure w s = s.files := by
  cases op <;> first | rfl | cases h

variable {s : Rover} {err : Rover → Prop} {ok' : HostOp → Prop}

theorem perform_run_ok (h : w.fault s.log op = none) (owner : String) :
    (perform w owner op).run.run s = (.ok (), { s with log := s.log ++ [(owner, op)], files := op.effect s.files }) := by
  simp [perform, h]
  rfl

theorem perform_run_error {e : String} (h : w.fault s.log op = some e) (owner : String) :
    (perform w owner op).run.run s = (.error e, { s with log := s.log ++ [(owner, op)], files := op.failure w s }) := by
  simp [perform, h]
  rfl

theorem perform_run (owner : String) (op : HostOp) (s : Rover) :
    (perform w owner op).run.run s = (.ok (), { s with log := s.log ++ [(owner, op)], files := op.effect s.files }) ∨
      ∃ e, (perform w owner op).run.run s =
        (.error e, { s with log := s.log ++ [(owner, op)], files := op.failure w s }) := by
  cases hfault : w.fault s.log op with
  | none => exact .inl (perform_run_ok hfault owner)
  | some e => exact .inr ⟨e, perform_run_error hfault owner⟩

theorem triple_perform_cases
    (hok : ∀ s, pre s → w.fault s.log op = none →
      post () { s with log := s.log ++ [(owner, op)], files := op.effect s.files })
    (herr : ∀ s e, pre s → w.fault s.log op = some e →
      err { s with log := s.log ++ [(owner, op)], files := op.failure w s }) :
    Triple pre (perform w owner op) post err := by
  intro s hs
  cases hfault : w.fault s.log op with
  | none =>
    rw [perform_run_ok hfault]
    refine ⟨fun a t h => ?_, fun e t h => (by cases h)⟩
    cases h
    exact hok s hs hfault
  | some e =>
    rw [perform_run_error hfault]
    refine ⟨fun a t h => (by cases h), fun e' t h => ?_⟩
    cases h
    exact herr s e hs hfault

theorem triple_perform_ok
    (hfault : ∀ s, pre s → w.fault s.log op = none)
    (hok : ∀ s, pre s → post () { s with log := s.log ++ [(owner, op)], files := op.effect s.files }) :
    Triple pre (perform w owner op) post fun _ => False := by
  refine triple_perform_cases (fun s hs _ => hok s hs) fun s e hs hbad => ?_
  rw [hfault s hs] at hbad
  cases hbad

theorem triple_perform
    (hok : ∀ s, pre s → post () { s with log := s.log ++ [(owner, op)], files := op.effect s.files })
    (herr : ∀ s, pre s → err { s with log := s.log ++ [(owner, op)], files := op.failure w s }) :
    Triple pre (perform w owner op) post err :=
  triple_perform_cases (fun s hs _ => hok s hs) fun s _ hs _ => herr s hs

theorem perform_run_quiet (owner : String) (h : op.quiet = true) (s : Rover) :
    ((perform w owner op).run.run s).2 = { s with log := s.log ++ [(owner, op)] } := by
  rcases perform_run (w := w) owner op s with hrun | ⟨e, hrun⟩
  · rw [hrun, op.effect_of_quiet h]
  · rw [hrun, op.failure_of_quiet h]

/-- A relation that every entry in the log without an effect on the images respects, and that does not look at the maps
of the reconciler. -/
structure Lenient (rel : Rover → Rover → Prop) : Prop where
  quiet : ∀ (owner : String) (op : HostOp) (s : Rover), op.quiet = true → rel s { s with log := s.log ++ [(owner, op)] }
  maps : ∀ (s : Rover) current currentConfig, rel s { s with current := current, currentConfig := currentConfig }

/-- The same, as far as the entries are ones that `ok` allows. -/
structure LenientOn (ok : HostOp → Prop) (rel : Rover → Rover → Prop) : Prop where
  quiet : ∀ (owner : String) (op : HostOp) (s : Rover), op.quiet = true → ok op →
    rel s { s with log := s.log ++ [(owner, op)] }
  maps : ∀ (s : Rover) current currentConfig, rel s { s with current := current, currentConfig := currentConfig }

variable {ok : HostOp → Prop} {rel : Rover → Rover → Prop}

theorem Lenient.on (hrel : Lenient rel) (ok : HostOp → Prop) : LenientOn ok rel where
  quiet owner op s h _ := hrel.quiet owner op s h
  maps := hrel.maps

/-- The relation is respected by every entry of the module without an effect on the images that `ok` allows. -/
def QuietOn (owner : String) (ok : HostOp → Prop) (rel : Rover → Rover → Prop) : Prop :=
  ∀ (op : HostOp) (s : Rover), op.quiet = true → ok op → rel s { s with log := s.log ++ [(owner, op)] }

theorem QuietOn.mono (hrel : QuietOn owner ok rel) (hok : ∀ op, ok' op → ok op) :
    QuietOn owner ok' rel :=
  fun op s hquiet hop => hrel op s hquiet (hok op hop)

theorem LenientOn.quietOn (hrel : LenientOn ok rel) (owner : String) (hok : ∀ op, ok' op → ok op) :
    QuietOn owner ok' rel :=
  fun op s hquiet hop => hrel.quiet owner op s hquiet (hok op hop)

theorem keeps_perform_on (hrel : QuietOn owner ok rel) (h : op.quiet = true) (hok : ok op) :
    Keeps rel (perform w owner op).run := by
  intro s
  rw [perform_run_quiet owner h]
  exact hrel op s h hok

theorem keeps_note_on (hrel : QuietOn owner ok rel) (h : op.quiet = true) (hok : ok op) :
    Keeps rel (note owner op).run :=
  keeps_modify fun s => hrel op s h hok

theorem keeps_perform_quiet (hrel : Lenient rel) (owner : String) (h : op.quiet = true) :
    Keeps rel (perform w owner op).run :=
  keeps_perform_on ((hrel.on fun _ => True).quietOn owner fun _ h => h) h trivial

theorem triple_fileExists {inv : Rover → Prop} (hinv : Lenient (Retains inv)) (owner path : String) :
    Triple inv (fileExists w owner path) (fun found s => inv s ∧ (found = false → s.files path = none)) inv := by
  refine triple_recover (triple_of_keeps (keeps_perform_quiet hinv owner rfl)) (fun _ => ?_) fun e => ?_
  · refine triple_get fun s hs => triple_ok ?_
    rintro t rfl
    refine ⟨hs, fun hfound => ?_⟩
    simpa using hfound
  · exact triple_ok fun s hs => ⟨hs, fun h => by cases h⟩

end

end Waypoint.Agent
