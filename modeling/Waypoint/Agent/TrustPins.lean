import Mathlib.Data.List.TakeWhile
import Mathlib.Logic.Function.Basic
import Waypoint.Agent.ImagePaths

/-!
# Confirmations side by side

`ConfirmModule` reads the trust file to compare the signer, moves the image, and then reads the trust file again to write it back as a whole with its own pin added.
-/

namespace Waypoint.Agent

open Base LexPath

/-- The content of the trust file: the pin of each module. Pins written long ago are full names, with the git ref. -/
abbrev Pins := List (String × String)

namespace Pins

def accepts (pins : Pins) (id san : String) : Bool :=
  match pins.lookup id with
  | some pinned => decide (signingIdentity pinned = signingIdentity san)
  | none => true

def withPin (pins : Pins) (id san : String) : Pins := mapSet pins id (signingIdentity san)

def identity (pins : Pins) (id : String) : Option String := (pins.lookup id).map signingIdentity

end Pins

section

variable {w : World} {pins : Pins} (id san : String)

theorem triple_perform_trust (op : HostOp) :
    Triple (fun s : Rover => s.trust = pins) (perform w id op) (fun _ s => s.trust = pins) (fun s => s.trust = pins) :=
  triple_perform (fun _ hs => hs) (fun _ hs => hs)

/-- `CheckPinnedSAN` returns if the trust file accepts the signer. -/
theorem triple_checkPinnedSAN :
    Triple (fun s => s.trust = pins) (checkPinnedSAN w id san)
      (fun _ s => s.trust = pins ∧ pins.accepts id san = true) (fun s => s.trust = pins) := by
  refine triple_then (triple_perform_trust id .readTrust) fun _ => triple_get fun s hs => ?_
  rw [hs]
  unfold Pins.accepts
  cases pins.lookup id with
  | none =>
    apply triple_ok
    rintro t rfl
    exact ⟨hs, rfl⟩
  | some pinned =>
    dsimp only
    by_cases hsame : signingIdentity pinned = signingIdentity san
    · rw [if_neg (not_not_intro hsame)]
      apply triple_ok
      rintro t rfl
      exact ⟨hs, decide_eq_true hsame⟩
    · rw [if_pos hsame]
      apply triple_error
      rintro t rfl
      exact hs

theorem triple_pinSAN :
    Triple (fun s => s.trust = pins) (pinSAN w id san) (fun _ s => s.trust = pins.withPin id san)
      (fun s => s.trust = pins) := by
  refine triple_then (triple_perform_trust id .readTrust) fun _ =>
    triple_then (triple_perform_trust id .writeTrust) fun _ => ?_
  apply triple_modify
  intro s hs
  rw [Pins.withPin, ← hs]

end

namespace Pins

variable {pins : Pins} {id other san x : String}

theorem signingIdentity_idem (san : String) : signingIdentity (signingIdentity san) = signingIdentity san := by
  unfold signingIdentity
  rw [String.toList_ofList, List.takeWhile_idem]

theorem accepts_iff : pins.accepts id san = true ↔ ∀ x, pins.identity id = some x → x = signingIdentity san := by
  unfold accepts identity
  cases pins.lookup id <;> simp

theorem identity_withPin_self : (pins.withPin id san).identity id = some (signingIdentity san) := by
  rw [identity, withPin, lookup_mapSet_self, Option.map_some, signingIdentity_idem]

theorem identity_withPin_of_ne (hne : other ≠ id) : (pins.withPin id san).identity other = pins.identity other := by
  rw [identity, withPin, lookup_mapSet_of_ne pins hne, identity]

theorem identity_withPin (haccepts : pins.accepts id san = true) (h : pins.identity other = some x) :
    (pins.withPin id san).identity other = some x := by
  by_cases hid : other = id
  · subst hid
    rw [identity_withPin_self, accepts_iff.mp haccepts x h]
  · rw [identity_withPin_of_ne hid, h]

theorem accepts_withPin (haccepts : pins.accepts other x = true)
    (hsame : other = id → signingIdentity x = signingIdentity san) : (pins.withPin id san).accepts other x = true := by
  rw [accepts_iff] at haccepts ⊢
  intro y hy
  by_cases hid : other = id
  · subst hid
    rw [identity_withPin_self] at hy
    rw [hsame rfl, Option.some.inj hy]
  · exact haccepts y (identity_withPin_of_ne hid ▸ hy)

end Pins

inductive Confirmation
  | idle
  | found (stageID : String) (st : StagedModule)
  | checked (stageID : String) (st : StagedModule)
  | moved (st : StagedModule)
  /-- with the content of the trust file that `PinSAN` has read -/
  | read (st : StagedModule) (pins : Pins)
  | pinned (st : StagedModule)
  | succeeded (st : StagedModule)
  | failed
  deriving DecidableEq

namespace Confirmation

/-- The module of a call between its check and the writing of its pin. -/
def unpinned : Confirmation → Option StagedModule
  | .checked _ st | .moved st | .read st _ => some st
  | _ => none

def passed : Confirmation → Option StagedModule
  | .pinned st | .succeeded st => some st
  | c => c.unpinned

/-- The module of a call that has put its image into the store. -/
def installed : Confirmation → Option StagedModule
  | .checked .. => none
  | c => c.passed

def module : Confirmation → Option StagedModule
  | .found _ st => some st
  | c => c.passed

def reading : Confirmation → Bool
  | .read .. => true
  | _ => false

variable {c : Confirmation} {st : StagedModule}

theorem passed_of_unpinned (h : c.unpinned = some st) : c.passed = some st := by
  cases c <;> first | exact h | cases h

theorem passed_of_installed (h : c.installed = some st) : c.passed = some st := by
  cases c <;> first | exact h | cases h

theorem module_of_installed (h : c.installed = some st) : c.module = some st := by
  cases c <;> first | exact h | cases h

end Confirmation

/-- How the image gets to its destination: by a rename, or across devices by a copy, which may break off. -/
inductive Move
  | renamed
  | copied
  | cut (written : Nat)

namespace Move

def whole : Move → Bool
  | .cut _ => false
  | _ => true

def effect (source dest : String) (images : Store) : Move → Store
  | .renamed => (HostOp.rename source dest).effect images
  | .copied => (HostOp.copyFile source dest).effect images
  | .cut n => images.set dest ((images source).map (List.take n))

variable {how : Move} {source dest path : String} {images : Store}

/-- A move may take the source away, writes the destination and changes nothing else. -/
theorem effect_of_ne (how : Move) (source : String) (images : Store) (hne : path ≠ dest) :
    how.effect source dest images path = images path ∨ path = source ∧ how.effect source dest images path = none := by
  cases how with
  | renamed =>
    by_cases hsource : path = source
    · have hdest : source ≠ dest := hsource ▸ hne
      exact .inr ⟨hsource, by simp [effect, HostOp.effect, hdest, hsource, Store.set]⟩
    · have havoids : (HostOp.rename source dest).Avoids path :=
        ⟨by simp [HostOp.written, hsource, hne], by simp [HostOp.cleared]⟩
      exact .inl (HostOp.effect_of_avoids havoids images)
  | copied => exact .inl (HostOp.set_of_ne hne _)
  | cut n => exact .inl (HostOp.set_of_ne hne _)

theorem effect_dest (hwhole : how.whole = true) : how.effect source dest images dest = images source := by
  cases how with
  | renamed => exact effect_rename_self images source dest
  | copied => exact if_pos rfl
  | cut n => cases hwhole

end Move

/-- Any number of calls, on the trust file, the staged modules and the images. -/
structure TrustState (n : Nat) where
  trust : Pins := []
  staging : List (String × StagedModule) := []
  images : Store := fun _ => none
  calls : Fin n → Confirmation := fun _ => .idle

namespace TrustState

variable {n : Nat}

inductive Action (n : Nat)
  | start (t : Fin n) (stageID : String)
  | check (t : Fin n)
  | move (t : Fin n) (how : Move)
  | clear (t : Fin n)
  | readTrust (t : Fin n)
  | writeTrust (t : Fin n)
  | finish (t : Fin n)
  | fail (t : Fin n)

def setCall (s : TrustState n) (t : Fin n) (c : Confirmation) : TrustState n := { s with calls := Function.update s.calls t c }

/-- One step of a call. Any of them may fail, the writing of the configuration and the reconcile after the pin too, and the
staging directory may stay. -/
def next (r : Setup) (s : TrustState n) : Action n → Option (TrustState n)
  | .start t stageID =>
    match s.calls t, s.staging.lookup stageID with
    | .idle, none => some (s.setCall t .failed)
    | .idle, some st => some (s.setCall t (.found stageID st))
    | _, _ => none
  | .check t =>
    match s.calls t with
    | .found stageID st => some (s.setCall t (if s.trust.accepts st.id st.signerSAN then .checked stageID st else .failed))
    | _ => none
  | .move t how =>
    match s.calls t with
    | .checked stageID st =>
      match s.images st.rawPath with
      | none => some (s.setCall t .failed)
      | some _ =>
        let images := how.effect st.rawPath (r.rawDest st.id st.version) s.images
        if how.whole then some ({ s with images, staging := mapDelete s.staging stageID }.setCall t (.moved st))
        else some ({ s with images }.setCall t .failed)
    | _ => none
  | .clear t =>
    match s.calls t with
    | .moved st => some { s with images := (HostOp.removeAll st.stageDir).effect s.images }
    | _ => none
  | .readTrust t =>
    match s.calls t with
    | .moved st => some (s.setCall t (.read st s.trust))
    | _ => none
  | .writeTrust t =>
    match s.calls t with
    | .read st pins => some ({ s with trust := pins.withPin st.id st.signerSAN }.setCall t (.pinned st))
    | _ => none
  | .finish t =>
    match s.calls t with
    | .pinned st => some (s.setCall t (.succeeded st))
    | _ => none
  | .fail t =>
    match s.calls t with
    | .idle | .succeeded _ | .failed => none
    | _ => some (s.setCall t .failed)

/-- While a call is between its check and the writing of its pin, no call for the same module by another signer is
checked. While one is between `PinSAN`'s reading and writing of the file, no other reads it there. A copy that breaks off
does not go where a call has put its image. -/
def Unraced (r : Setup) (s : TrustState n) : Action n → Prop
  | .check t => ∀ st ∈ (s.calls t).module, ∀ t', ∀ st' ∈ (s.calls t').unpinned, st'.id = st.id →
      signingIdentity st'.signerSAN = signingIdentity st.signerSAN
  | .move t (.cut _) => ∀ st ∈ (s.calls t).module, ∀ t', ∀ st' ∈ (s.calls t').installed,
      r.rawDest st'.id st'.version ≠ r.rawDest st.id st.version
  | .readTrust _ => ∀ t, (s.calls t).reading = false
  | _ => True

instance (r : Setup) (s : TrustState n) (a : Action n) : Decidable (s.Unraced r a) := by
  unfold Unraced
  split <;> infer_instance

section

variable (w : World) (r : Setup) (trust : Pins) (images : Store)

/-- What `StageModule` leaves for a module: its image as it was verified, in a directory of its own. -/
structure Staged (st : StagedModule) : Prop where
  storable : Storable st.id st.version
  rawPath : InStaging r st.rawPath
  stageDir : InStaging r st.stageDir
  signed : ∀ raw, images st.rawPath = some raw → ∃ bundle, w.verify raw bundle = .ok st.signerSAN

/-- The image at the destination is signed by the identity. -/
def SignedBy (st : StagedModule) (identity : String) : Prop :=
  ∃ raw bundle san, images (r.rawDest st.id st.version) = some raw ∧ w.verify raw bundle = .ok san ∧
    signingIdentity san = identity

/-- What is known of a call by how far it has come. -/
structure Fits (c : Confirmation) : Prop where
  staged : ∀ st, c.module = some st → Staged w r images st
  accepted : ∀ st, c.passed = some st → trust.accepts st.id st.signerSAN = true
  installed : ∀ st, c.installed = some st → SignedBy w r images st (signingIdentity st.signerSAN)
  read : ∀ st pins, c = .read st pins → pins = trust
  pinned : ∀ st, c.passed = some st → c.unpinned = none → trust.identity st.id = some (signingIdentity st.signerSAN)

end

/-- Two calls that have passed the check for one module have one signer, and only one call is in `PinSAN`. -/
structure Apart (c c' : Confirmation) : Prop where
  agree : ∀ st st', c.passed = some st → c'.passed = some st' → st'.id = st.id →
    signingIdentity st'.signerSAN = signingIdentity st.signerSAN
  alone : c.reading = true → c'.reading = false

theorem Apart.symm {c c' : Confirmation} (h : Apart c c') : Apart c' c :=
  ⟨fun st st' hst hst' hid => (h.agree st' st hst' hst hid.symm).symm, fun hreading => by
    rw [← Bool.not_eq_true]
    intro hboth
    rw [h.alone hboth] at hreading
    cases hreading⟩

/-- What holds between the steps of any calls. -/
structure Inv (w : World) (r : Setup) (s : TrustState n) : Prop where
  staging : ∀ e ∈ s.staging, Staged w r s.images e.2
  fits : ∀ t, Fits w r s.trust s.images (s.calls t)
  apart : ∀ t t', t ≠ t' → Apart (s.calls t) (s.calls t')

variable {w : World} {r : Setup} {s s' : TrustState n} {trust : Pins} {images images' : Store} {st : StagedModule} {c : Confirmation}

theorem Fits.of_failed : Fits w r trust images .failed := ⟨nofun, nofun, nofun, nofun, nofun⟩

theorem Staged.frame (h : Staged w r images st)
    (hkept : ∀ path raw, InStaging r path → images' path = some raw → images path = some raw) : Staged w r images' st :=
  { h with signed := fun raw hraw => h.signed raw (hkept _ raw h.rawPath hraw) }

theorem Staged.isImage (h : Staged w r images st) : IsImage r (r.rawDest st.id st.version) :=
  ⟨st.id, st.version, h.storable, rfl⟩

theorem Staged.ne_dest {path : String} (h : Staged w r images st) (hpath : InStaging r path) :
    path ≠ r.rawDest st.id st.version := by
  rintro rfl
  exact not_inStaging_of_isImage h.isImage hpath

theorem apart_of_passed {calls : Fin n → Confirmation} (hpairs : ∀ t t', t ≠ t' → Apart (calls t) (calls t')) {t : Fin n}
    (hsame : c.passed = (calls t).passed) (hreading : c.reading = false) (t' : Fin n) (hne : t' ≠ t) : Apart c (calls t') :=
  ⟨fun st st' hst => (hpairs t t' hne.symm).agree st st' (hsame ▸ hst), fun h => by
    rw [hreading] at h
    cases h⟩

/-- A step of one call, given what it does to the trust file and the images of the others. -/
theorem inv_setCall {t : Fin n} (hstaging : ∀ e ∈ s.staging, Staged w r s.images e.2)
    (hothers : ∀ t', t' ≠ t → Fits w r s.trust s.images (s.calls t')) (hpairs : ∀ t t', t ≠ t' → Apart (s.calls t) (s.calls t'))
    (hfits : Fits w r s.trust s.images c) (hapart : ∀ t', t' ≠ t → Apart c (s.calls t')) : (s.setCall t c).Inv w r := by
  refine ⟨hstaging, fun t' => ?_, fun t₁ t₂ hne => ?_⟩
  · change Fits w r s.trust s.images (Function.update s.calls t c t')
    by_cases ht : t' = t
    · subst ht
      rwa [Function.update_self]
    · rw [Function.update_of_ne ht]
      exact hothers t' ht
  · change Apart (Function.update s.calls t c t₁) (Function.update s.calls t c t₂)
    by_cases h₁ : t₁ = t
    · subst h₁
      rw [Function.update_self, Function.update_of_ne hne.symm]
      exact hapart t₂ hne.symm
    · rw [Function.update_of_ne h₁]
      by_cases h₂ : t₂ = t
      · subst h₂
        rw [Function.update_self]
        exact (hapart t₁ h₁).symm
      · rw [Function.update_of_ne h₂]
        exact hpairs t₁ t₂ hne

section

variable (hinv : s.Inv w r)

include hinv

theorem inv_fail (t : Fin n) : (s.setCall t .failed).Inv w r :=
  inv_setCall hinv.staging (fun t' _ => hinv.fits t') hinv.apart .of_failed fun _ _ => ⟨nofun, nofun⟩

variable {stageID : String}

theorem inv_start (t : Fin n) (hst : s.staging.lookup stageID = some st) :
    (s.setCall t (.found stageID st)).Inv w r := by
  refine inv_setCall hinv.staging (fun t' _ => hinv.fits t') hinv.apart ⟨?_, nofun, nofun, nofun, nofun⟩ fun _ _ => ⟨nofun, nofun⟩
  rintro _ ⟨⟩
  obtain ⟨l₁, l₂, hlist, -⟩ := List.lookup_eq_some_iff.mp hst
  exact hinv.staging (stageID, st) (by simp [hlist])

theorem inv_check {t : Fin n} (hunraced : s.Unraced r (.check t))
    (hcall : s.calls t = .found stageID st) (haccepts : s.trust.accepts st.id st.signerSAN = true) :
    (s.setCall t (.checked stageID st)).Inv w r := by
  have hfits := hinv.fits t
  rw [hcall] at hfits
  refine inv_setCall hinv.staging (fun t' _ => hinv.fits t') hinv.apart ⟨hfits.staged, ?_, nofun, nofun, nofun⟩ fun t' ht' => ⟨?_, nofun⟩
  · rintro _ ⟨⟩
    exact haccepts
  · rintro _ st' ⟨⟩ hst' hid
    -- a call that is not pinned yet is kept out by the guard, one that is pinned by the check
    cases hunpinned : (s.calls t').unpinned with
    | some st'' =>
      cases (Confirmation.passed_of_unpinned hunpinned).symm.trans hst'
      exact hunraced st (by rw [hcall]; rfl) t' st' hunpinned hid
    | none => exact Pins.accepts_iff.mp haccepts _ (hid ▸ (hinv.fits t').pinned st' hst' hunpinned)

/-- What is left of an image after a move, at its destination and elsewhere. -/
theorem inv_move {t : Fin n} {how : Move} {raw : Bytes} (hunraced : s.Unraced r (.move t how))
    (hcall : s.calls t = .checked stageID st) (hraw : s.images st.rawPath = some raw)
    (hmoved : images = how.effect st.rawPath (r.rawDest st.id st.version) s.images) :
    (how.whole = true → ({ s with images, staging := mapDelete s.staging stageID }.setCall t (.moved st)).Inv w r) ∧
      ({ s with images }.setCall t .failed).Inv w r := by
  have hfits := hinv.fits t
  rw [hcall] at hfits
  have hst := hfits.staged st rfl
  obtain ⟨bundle, hsigned⟩ := hst.signed raw hraw
  have hkept : ∀ path raw, InStaging r path → images path = some raw → s.images path = some raw := by
    intro path raw hpath himage
    rw [hmoved] at himage
    rcases how.effect_of_ne st.rawPath s.images (hst.ne_dest hpath) with hsame | ⟨-, hnone⟩
    · rw [← hsame, himage]
    · rw [hnone] at himage
      cases himage
  have hhere : how.whole = true → ∀ st', r.rawDest st'.id st'.version = r.rawDest st.id st.version →
      SignedBy w r images st' (signingIdentity st.signerSAN) := by
    intro hwhole st' hdest
    refine ⟨raw, bundle, st.signerSAN, ?_, hsigned, rfl⟩
    rw [hmoved, hdest, Move.effect_dest hwhole, hraw]
  have hstaging : ∀ e ∈ s.staging, Staged w r images e.2 := fun e he => (hinv.staging e he).frame hkept
  have hothers : ∀ t', t' ≠ t → Fits w r s.trust images (s.calls t') := by
    intro t' ht'
    have hother := hinv.fits t'
    refine { hother with staged := fun st' hst' => (hother.staged st' hst').frame hkept, installed := fun st' hinstalled => ?_ }
    have hst' := hother.staged st' (Confirmation.module_of_installed hinstalled)
    by_cases hdest : r.rawDest st'.id st'.version = r.rawDest st.id st.version
    · have hid := (rawDest_injective hst'.storable hst.storable (congrArg dir hdest)).1
      rw [(hinv.apart t t' ht'.symm).agree st st' (by rw [hcall]; rfl) (Confirmation.passed_of_installed hinstalled) hid]
      cases how with
      | cut n => exact absurd hdest (hunraced st (by rw [hcall]; rfl) t' st' hinstalled)
      | renamed | copied => exact hhere rfl st' hdest
    · obtain ⟨raw', bundle', san', himage, hsigned'⟩ := hother.installed st' hinstalled
      refine ⟨raw', bundle', san', ?_, hsigned'⟩
      rw [hmoved]
      rcases how.effect_of_ne st.rawPath s.images hdest with hsame | ⟨hsource, -⟩
      · rw [hsame, himage]
      · exact absurd hsource.symm (hst'.ne_dest hst.rawPath)
  constructor
  · intro hwhole
    refine inv_setCall (fun e he => hstaging e (List.mem_filter.mp he).1) hothers hinv.apart ⟨?_, hfits.accepted, ?_, nofun, nofun⟩
      (apart_of_passed hinv.apart (by rw [hcall]; rfl) rfl)
    · rintro _ ⟨⟩
      exact hst.frame hkept
    · rintro _ ⟨⟩
      exact hhere hwhole st rfl
  · exact inv_setCall hstaging hothers hinv.apart .of_failed fun _ _ => ⟨nofun, nofun⟩

theorem inv_clear {t : Fin n} (hcall : s.calls t = .moved st) :
    Inv w r { s with images := (HostOp.removeAll st.stageDir).effect s.images } := by
  have hfits := hinv.fits t
  rw [hcall] at hfits
  have hkept : ∀ path raw, InStaging r path → (HostOp.removeAll st.stageDir).effect s.images path = some raw →
      s.images path = some raw := by
    intro path raw _ hraw
    dsimp only [HostOp.effect] at hraw
    split at hraw
    · cases hraw
    · exact hraw
  refine ⟨fun e he => (hinv.staging e he).frame hkept, fun t' => ?_, hinv.apart⟩
  have hother := hinv.fits t'
  refine { hother with staged := fun st' hst' => (hother.staged st' hst').frame hkept, installed := fun st' hinstalled => ?_ }
  obtain ⟨raw, bundle, san, himage, hsigned⟩ := hother.installed st' hinstalled
  have havoids : (HostOp.removeAll st.stageDir).Avoids (r.rawDest st'.id st'.version) :=
    avoids_of_inStaging (by simp [HostOp.written]) (by simpa [HostOp.cleared] using (hfits.staged st rfl).stageDir)
      (hother.staged st' (Confirmation.module_of_installed hinstalled)).isImage
  exact ⟨raw, bundle, san, (HostOp.effect_of_avoids havoids s.images).trans himage, hsigned⟩

theorem inv_readTrust {t : Fin n} (hunraced : s.Unraced r (.readTrust t)) (hcall : s.calls t = .moved st) :
    (s.setCall t (.read st s.trust)).Inv w r := by
  have hfits := hinv.fits t
  rw [hcall] at hfits
  refine inv_setCall hinv.staging (fun t' _ => hinv.fits t') hinv.apart
    ⟨hfits.staged, hfits.accepted, hfits.installed, ?_, nofun⟩ fun t' ht' => ⟨?_, fun _ => hunraced t'⟩
  · rintro _ _ ⟨⟩
    rfl
  · exact fun st₁ st₂ h₁ => (hinv.apart t t' ht'.symm).agree st₁ st₂ (by rw [hcall]; exact h₁)

theorem inv_writeTrust {t : Fin n} {pins : Pins} (hcall : s.calls t = .read st pins) :
    ({ s with trust := pins.withPin st.id st.signerSAN }.setCall t (.pinned st)).Inv w r ∧
      ∀ id x, s.trust.identity id = some x → (pins.withPin st.id st.signerSAN).identity id = some x := by
  have hfits := hinv.fits t
  rw [hcall] at hfits
  obtain rfl := hfits.read st pins rfl
  have haccepts := hfits.accepted st rfl
  refine ⟨inv_setCall hinv.staging (fun t' ht' => ?_) hinv.apart ⟨hfits.staged, ?_, hfits.installed, nofun, ?_⟩
    (apart_of_passed hinv.apart (by rw [hcall]; rfl) rfl), fun id x h => Pins.identity_withPin haccepts h⟩
  · have hother := hinv.fits t'
    have hapart := hinv.apart t t' ht'.symm
    rw [hcall] at hapart
    refine ⟨hother.staged, fun st' hst' => ?_, hother.installed, fun st' pins' hread => ?_, fun st' hst' hdone => ?_⟩
    · exact Pins.accepts_withPin (hother.accepted st' hst') (hapart.agree st st' rfl hst')
    · have halone := hapart.alone rfl
      rw [hread] at halone
      cases halone
    · exact Pins.identity_withPin haccepts (hother.pinned st' hst' hdone)
  · rintro _ ⟨⟩
    exact Pins.accepts_withPin haccepts fun _ => rfl
  · rintro _ ⟨⟩ -
    exact Pins.identity_withPin_self

theorem inv_finish {t : Fin n} (hcall : s.calls t = .pinned st) : (s.setCall t (.succeeded st)).Inv w r := by
  have hfits := hinv.fits t
  rw [hcall] at hfits
  exact inv_setCall hinv.staging (fun t' _ => hinv.fits t') hinv.apart
    ⟨hfits.staged, hfits.accepted, hfits.installed, nofun, hfits.pinned⟩ (apart_of_passed hinv.apart (by rw [hcall]; rfl) rfl)

/-- What an unraced step keeps: the invariant, and every pinned identity. -/
theorem inv_next {a : Action n} (hunraced : s.Unraced r a) (h : s.next r a = some s') :
    s'.Inv w r ∧ ∀ id x, s.trust.identity id = some x → s'.trust.identity id = some x := by
  cases a with
  | start t stageID =>
    simp only [next] at h
    split at h
    · cases h
      exact ⟨inv_fail hinv t, fun _ _ => id⟩
    · rename_i st _ hst
      cases h
      exact ⟨inv_start hinv t hst, fun _ _ => id⟩
    · cases h
  | check t =>
    simp only [next] at h
    split at h
    · rename_i stageID st hcall
      cases h
      split
      · rename_i haccepts
        exact ⟨inv_check hinv hunraced hcall haccepts, fun _ _ => id⟩
      · exact ⟨inv_fail hinv t, fun _ _ => id⟩
    · cases h
  | move t how =>
    simp only [next] at h
    split at h
    · rename_i stageID st hcall
      split at h
      · cases h
        exact ⟨inv_fail hinv t, fun _ _ => id⟩
      · rename_i raw hraw
        obtain ⟨hdone, hbroken⟩ := inv_move hinv hunraced hcall hraw rfl
        split at h
        · rename_i hwhole
          cases h
          exact ⟨hdone hwhole, fun _ _ => id⟩
        · cases h
          exact ⟨hbroken, fun _ _ => id⟩
    · cases h
  | clear t =>
    simp only [next] at h
    split at h
    · rename_i st hcall
      cases h
      exact ⟨inv_clear hinv hcall, fun _ _ => id⟩
    · cases h
  | readTrust t =>
    simp only [next] at h
    split at h
    · rename_i st hcall
      cases h
      exact ⟨inv_readTrust hinv hunraced hcall, fun _ _ => id⟩
    · cases h
  | writeTrust t =>
    simp only [next] at h
    split at h
    · rename_i st pins hcall
      cases h
      exact inv_writeTrust hinv hcall
    · cases h
  | finish t =>
    simp only [next] at h
    split at h
    · rename_i st hcall
      cases h
      exact ⟨inv_finish hinv hcall, fun _ _ => id⟩
    · cases h
  | fail t =>
    simp only [next] at h
    split at h
    · cases h
    · cases h
    · cases h
    · cases h
      exact ⟨inv_fail hinv t, fun _ _ => id⟩

end

/-- Without a race, a pinned identity stays, and the image a call that succeeded has installed is signed by the identity
its module is pinned to. -/
theorem pins_permanent {s₀ s t : TrustState n} {before after : List (Action n)} (hidle : ∀ c, s₀.calls c = .idle)
    (hstaged : ∀ e ∈ s₀.staging, Staged w r s₀.images e.2)
    (hs : Run (Guarded (Unraced r) (Takes (next r))) s₀ before s)
    (ht : Run (Guarded (Unraced r) (Takes (next r))) s after t) :
    (∀ id x, s.trust.identity id = some x → t.trust.identity id = some x) ∧
      ∀ c st, t.calls c = .succeeded st → ∃ x, t.trust.identity st.id = some x ∧ SignedBy w r t.images st x := by
  have hinit : s₀.Inv w r := by
    refine ⟨hstaged, fun c => ?_, fun c c' _ => ?_⟩
    · rw [hidle c]
      exact ⟨nofun, nofun, nofun, nofun, nofun⟩
    · rw [hidle c]
      exact ⟨nofun, nofun⟩
  have hinv := hs.invariant (Inv w r) (fun _ _ _ hinv h => (inv_next hinv h.1 h.2).1) hinit
  constructor
  · intro id x hpinned
    have hkept := ht.invariant (fun s => s.Inv w r ∧ s.trust.identity id = some x)
      (fun _ _ _ hs h => ⟨(inv_next hs.1 h.1 h.2).1, (inv_next hs.1 h.1 h.2).2 id x hs.2⟩) ⟨hinv, hpinned⟩
    exact hkept.2
  · intro c st hcall
    have hfits := (ht.invariant (Inv w r) (fun _ _ _ hinv h => (inv_next hinv h.1 h.2).1) hinv).fits c
    rw [hcall] at hfits
    exact ⟨signingIdentity st.signerSAN, hfits.pinned st rfl rfl, hfits.installed st rfl⟩

/-! ### Two signers and two modules -/

def stagedBy (stage id owner : String) : StagedModule where
  rawPath := joinAll ["/data/waypoint", "modules", ".staging", stage, "image.raw"]
  stageDir := joinAll ["/data/waypoint", "modules", ".staging", stage]
  id := id
  version := "1.0.0"
  signerSAN := owner ++ "/release.yml@refs/tags/v1.0.0"

/-- The second image is signed by the other owner. -/
def twoOwners : World :=
  { releases with
    verify := fun raw _ => .ok ((if raw = [2] then "evil" else "acme") ++ "/release.yml@refs/tags/v1.0.0") }

def threeStaged : TrustState 3 where
  staging := [("a", stagedBy "a" "camera" "acme"), ("b", stagedBy "b" "camera" "evil"), ("c", stagedBy "c" "lidar" "acme")]
  images path := ([("a", [1]), ("b", [2]), ("c", [3])].find? fun e => path = (stagedBy e.1 "" "").rawPath).map (·.2)

theorem staged_threeStaged : ∀ e ∈ threeStaged.staging, Staged twoOwners manager threeStaged.images e.2 := by
  have hstaged : ∀ stage id owner, LexPath.Name stage → Storable id "1.0.0" →
      (threeStaged.images (stagedBy stage id owner).rawPath).map (twoOwners.verify · []) =
        some (.ok (stagedBy stage id owner).signerSAN) →
      Staged twoOwners manager threeStaged.images (stagedBy stage id owner) := by
    intro stage id owner hstage hstorable hsigned
    refine ⟨hstorable, ?_, ?_, fun raw hraw => ⟨[], ?_⟩⟩
    · unfold stagedBy
      dsimp only
      exact inStaging_joinAll manager (List.forall_mem_cons.mpr ⟨hstage, by decide⟩)
    · unfold stagedBy
      dsimp only
      exact inStaging_joinAll manager (List.forall_mem_singleton.mpr hstage)
    · rw [hraw] at hsigned
      exact Option.some.inj hsigned
  simp only [threeStaged, List.forall_mem_cons]
  refine ⟨hstaged _ _ _ (by decide) ⟨by decide, by decide⟩ ?_, hstaged _ _ _ (by decide) ⟨by decide, by decide⟩ ?_,
    hstaged _ _ _ (by decide) ⟨by decide, by decide⟩ ?_, nofun⟩
  all_goals decide +kernel

/-- The camera and the lidar are confirmed side by side. -/
def sideBySide : List (Action 3) :=
  [.start 0 "a", .start 1 "c", .check 0, .check 1, .move 1 .copied, .move 0 .renamed, .readTrust 0, .clear 1, .writeTrust 0,
    .readTrust 1, .finish 0, .writeTrust 1]

/-- Then the camera of the other owner is refused. -/
theorem pins_permanent_sideBySide :
    ∃ s t, Run (Guarded (Unraced manager) (Takes (next manager))) threeStaged sideBySide s ∧
      Run (Guarded (Unraced manager) (Takes (next manager))) s [.start 2 "b", .check 2, .finish 1] t ∧ t.calls 2 = .failed ∧
      s.trust.identity "camera" = some "acme/release.yml" ∧ t.trust.identity "camera" = some "acme/release.yml" ∧
      ∃ x, t.trust.identity "lidar" = some x ∧ SignedBy twoOwners manager t.images (stagedBy "c" "lidar" "acme") x := by
  have hruns : ∃ s ∈ sideBySide.foldlM (fun s a => if Unraced manager s a then next manager s a else none) threeStaged,
      ∃ t ∈ [Action.start 2 "b", .check 2, .finish 1].foldlM
        (fun s a => if Unraced manager s a then next manager s a else none) s, t.calls 2 = .failed ∧
        s.trust.identity "camera" = some "acme/release.yml" ∧ t.calls 1 = .succeeded (stagedBy "c" "lidar" "acme") := by
    decide +kernel
  obtain ⟨s, hs, t, ht, hfailed, hpinned, hsucceeded⟩ := hruns
  rw [Option.mem_def, ← run_guarded_iff] at hs ht
  have hpins := pins_permanent (fun _ => rfl) staged_threeStaged hs ht
  exact ⟨s, t, hs, ht, hfailed, hpinned, hpins.1 _ _ hpinned, hpins.2 1 _ hsucceeded⟩

def confirm (t : Fin 3) (stageID : String) : List (Action 3) :=
  [.start t stageID, .check t, .move t .renamed, .clear t, .readTrust t, .writeTrust t]

/-- Two signers of one module are checked before either is pinned, and the later pin replaces the one of a call that
has succeeded. Of two modules that are pinned from the same content of the file, one loses its pin. -/
theorem pin_replaced_and_lost :
    (∃ s t, Run (Takes (next manager)) threeStaged ([.start 1 "b", .check 1, .move 1 .renamed] ++ confirm 0 "a" ++ [.finish 0]) s ∧
      Run (Takes (next manager)) s [.readTrust 1, .writeTrust 1, .finish 1] t ∧
      s.trust.identity "camera" = some "acme/release.yml" ∧ t.trust.identity "camera" = some "evil/release.yml" ∧
      t.calls 0 = .succeeded (stagedBy "a" "camera" "acme")) ∧
    ∃ s t, Run (Takes (next manager)) threeStaged ([.start 1 "c", .check 1, .move 1 .renamed, .readTrust 1] ++ confirm 0 "a") s ∧
      Run (Takes (next manager)) s [.writeTrust 1] t ∧
      s.trust.identity "camera" = some "acme/release.yml" ∧ t.trust.identity "camera" = none := by
  simp only [run_takes_iff, exists_and_left, ← Option.mem_def]
  decide +kernel

end TrustState

end Waypoint.Agent
