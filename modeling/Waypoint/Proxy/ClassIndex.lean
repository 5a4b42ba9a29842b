import Mathlib.Data.List.Induction
import Waypoint.Agent.Snapshot

/-!
# The relay's index of component classes

The relay forwards `module.<id>.<class>.cmd` from the sessions account to a rover if the rover's last snapshot gives the module that class.
-/

namespace Waypoint.Proxy

open Base Agent

def roverIDFromSubject (subject : String) : String :=
  match tokens subject with
  | first :: id :: _ :: _ => if first = "waypoint" then id else ""
  | _ => ""

def parseComponentCmd (subject : String) : Option (String × String × String) :=
  match tokens subject with
  | [first, roverID, third, moduleID, token, last] =>
    if first ≠ "waypoint" ∨ third ≠ "module" ∨ last ≠ "cmd" then none
    else if roverID = "" ∨ moduleID = "" ∨ token = "" then none
    else some (roverID, moduleID, token)
  | _ => none

variable {token : String}

theorem parseComponentCmd_eq_some {subject roverID moduleID : String} :
    parseComponentCmd subject = some (roverID, moduleID, token) ↔
      tokens subject = ["waypoint", roverID, "module", moduleID, token, "cmd"] ∧
        roverID ≠ "" ∧ moduleID ≠ "" ∧ token ≠ "" := by
  constructor
  · intro h
    unfold parseComponentCmd at h
    split at h
    · rename_i first r third i t last htokens
      split at h
      · cases h
      rename_i hwords
      split at h
      · cases h
      rename_i hempty
      cases h
      push Not at hwords hempty
      obtain ⟨rfl, rfl, rfl⟩ := hwords
      exact ⟨htokens, hempty⟩
    · cases h
  · rintro ⟨htokens, hrover, hmodule, htoken⟩
    simp [parseComponentCmd, htokens, hrover, hmodule, htoken]

structure ClassIndex where
  byRover : String → String → List String := fun _ _ => []

namespace ClassIndex

/-- The classes an entry declares; agents that predate `components` fill the singular field. -/
def classes (info : ModuleInfo) : List String :=
  ((info.components ++ info.component.toList).map (·.className)).filter (· ≠ "")

def addModule (byModule : String → List String) (info : ModuleInfo) : String → List String :=
  if classes info = [] then byModule else Function.update byModule info.id (classes info)

def byModule (snap : ModuleSnapshot) : String → List String := snap.modules.foldl addModule fun _ => []

/-- A snapshot replaces the rover's entry; one that does not decode is ignored. -/
def learn (c : ClassIndex) (roverID : String) : Option ModuleSnapshot → ClassIndex
  | none => c
  | some snap => { c with byRover := Function.update c.byRover roverID (byModule snap) }

@[simp] theorem byRover_learn_self (c : ClassIndex) (roverID : String) (snap : ModuleSnapshot) :
    (c.learn roverID (some snap)).byRover roverID = byModule snap := Function.update_self ..

variable {roverID target : String} {p : SnapshotPublisher} {data : Option ModuleSnapshot}

theorem byRover_learn_of_ne (c : ClassIndex) {other : String} (h : other ≠ roverID) (snap : ModuleSnapshot) :
    (c.learn roverID (some snap)).byRover other = c.byRover other := Function.update_of_ne h ..

def allow (c : ClassIndex) (subject : String) : Bool :=
  match parseComponentCmd subject with
  | none => false
  | some (roverID, moduleID, token) => decide (token ∈ c.byRover roverID moduleID)

variable {c : ClassIndex} {subject id token : String}

theorem allow_iff :
    c.allow subject = true ↔ ∃ roverID moduleID token,
      parseComponentCmd subject = some (roverID, moduleID, token) ∧ token ∈ c.byRover roverID moduleID := by
  unfold allow
  split
  · rename_i hparse
    rw [hparse]
    simp
  rename_i roverID moduleID token hparse
  rw [hparse, decide_eq_true_eq]
  refine ⟨fun h => ⟨roverID, moduleID, token, rfl, h⟩, ?_⟩
  rintro ⟨_, _, _, heq, h⟩
  cases heq
  exact h

theorem not_allow_empty (subject : String) : ({} : ClassIndex).allow subject ≠ true := by
  intro h
  obtain ⟨_, _, _, -, htoken⟩ := allow_iff.mp h
  exact absurd htoken List.not_mem_nil

theorem allow_learn_iff {snap : ModuleSnapshot} :
    (c.learn roverID (some snap)).allow subject = true ↔ ∃ r moduleID token,
      parseComponentCmd subject = some (r, moduleID, token) ∧
        (r = roverID ∧ token ∈ byModule snap moduleID ∨ r ≠ roverID ∧ token ∈ c.byRover r moduleID) := by
  rw [allow_iff]
  refine exists_congr fun r => exists_congr fun moduleID => exists_congr fun token => and_congr_right fun _ => ?_
  by_cases hrover : r = roverID
  · subst hrover
    simp
  · simp [byRover_learn_of_ne c hrover, hrover]

theorem mem_foldl_addModule {modules : List ModuleInfo}
    (hagree : ∀ i ∈ modules, ∀ j ∈ modules, i.id = j.id → classes i = classes j) :
    token ∈ modules.foldl addModule (fun _ => []) id ↔ ∃ info ∈ modules, info.id = id ∧ token ∈ classes info := by
  induction modules using List.reverseRecOn with
  | nil => simp
  | append_singleton modules info ih =>
    have hinit := ih fun i hi j hj => hagree i (List.mem_append_left _ hi) j (List.mem_append_left _ hj)
    rw [List.foldl_append, List.foldl_cons, List.foldl_nil, addModule]
    by_cases hnone : classes info = []
    · rw [if_pos hnone, hinit]
      simp [List.mem_append, or_and_right, exists_or, hnone]
    rw [if_neg hnone]
    by_cases hid : info.id = id
    · rw [← hid, Function.update_self]
      refine ⟨fun h => ⟨info, List.mem_append_right _ (List.mem_singleton_self info), rfl, h⟩, ?_⟩
      rintro ⟨other, hother, hsame, h⟩
      exact hagree other hother info (List.mem_append_right _ (List.mem_singleton_self info)) hsame ▸ h
    · rw [Function.update_of_ne (Ne.symm hid), hinit]
      simp [List.mem_append, or_and_right, exists_or, hid]

theorem mem_classes_entry {m : Manifest} {origin : ModuleOrigin} :
    token ∈ classes (p.entry id m origin) ↔ token ≠ "" ∧ ∃ c ∈ m.components, c.className = token := by
  have hfirst : ∀ c, m.components.head? = some c → c ∈ m.components := fun c => List.mem_of_mem_head?
  simp only [classes, SnapshotPublisher.entry, manifestToInfo, List.mem_filter, List.mem_map, List.mem_append,
    Option.mem_toList, decide_eq_true_eq]
  constructor
  · rintro ⟨⟨c, hc, rfl⟩, hne⟩
    exact ⟨hne, c, hc.elim (fun hc => hc) (hfirst c), rfl⟩
  · rintro ⟨hne, c, hc, rfl⟩
    exact ⟨⟨c, .inl hc, rfl⟩, hne⟩

theorem mem_byModule {now : Nat} :
    token ∈ byModule (p.buildSnapshot now) id ↔
      token ≠ "" ∧ ∃ m, p.Shows id m ∧ ∃ c ∈ m.components, c.className = token := by
  have hagree : ∀ i ∈ (p.buildSnapshot now).modules, ∀ j ∈ (p.buildSnapshot now).modules, i.id = j.id →
      classes i = classes j := by
    intro i hi j hj hid
    obtain ⟨m, _, hshows, hinfo⟩ := SnapshotPublisher.shows_of_mem hi
    obtain ⟨m', _, hshows', hinfo'⟩ := SnapshotPublisher.shows_of_mem hj
    have hm : m = m' := hshows.unique (hid ▸ hshows')
    rw [hinfo, hinfo', hm]
    rfl
  rw [byModule, mem_foldl_addModule hagree]
  constructor
  · rintro ⟨info, hinfo, rfl, htoken⟩
    obtain ⟨m, origin, hshows, heq⟩ := SnapshotPublisher.shows_of_mem hinfo
    rw [heq, mem_classes_entry] at htoken
    exact ⟨htoken.1, m, hshows, htoken.2⟩
  · rintro ⟨hne, m, hshows, hc⟩
    obtain ⟨origin, hentry⟩ := SnapshotPublisher.mem_of_shows hshows now
    exact ⟨_, hentry, rfl, mem_classes_entry.mpr ⟨hne, hc⟩⟩

def onModules (c : ClassIndex) (subject : String) (data : Option ModuleSnapshot) : ClassIndex :=
  if covers (tokens "waypoint.*.infra.modules") (tokens subject) = true ∧ roverIDFromSubject subject ≠ "" then
    c.learn (roverIDFromSubject subject) data
  else c

theorem onModules_cases (subject : String) (data : Option ModuleSnapshot) :
    (∀ c : ClassIndex, c.onModules subject data = c) ∨
      ∃ roverID snap, ∀ c : ClassIndex, c.onModules subject data = c.learn roverID (some snap) := by
  unfold onModules
  split
  · cases data with
    | none => exact .inl fun _ => rfl
    | some snap => exact .inr ⟨_, snap, fun _ => rfl⟩
  · exact .inl fun _ => rfl

theorem allow_of_onModules
    (h : (c.onModules subject data).allow target = true) :
    c.allow target = true ∨ (({} : ClassIndex).onModules subject data).allow target = true := by
  rcases onModules_cases subject data with hsame | ⟨roverID, snap, hlearn⟩
  · exact .inl (hsame c ▸ h)
  rw [hlearn, allow_learn_iff] at h
  obtain ⟨r, i, token, hparse, hhere | ⟨-, htoken⟩⟩ := h
  · refine .inr ?_
    rw [hlearn, allow_learn_iff]
    exact ⟨r, i, token, hparse, .inl hhere⟩
  · exact .inl (allow_iff.mpr ⟨r, i, token, hparse, htoken⟩)

theorem allow_onModules
    (h : (({} : ClassIndex).onModules subject data).allow target = true) (c : ClassIndex) :
    (c.onModules subject data).allow target = true := by
  rcases onModules_cases subject data with hsame | ⟨roverID, snap, hlearn⟩
  · rw [hsame] at h
    exact absurd h (not_allow_empty target)
  rw [hlearn, allow_learn_iff] at h ⊢
  obtain ⟨r, i, token, hparse, hhere | ⟨-, htoken⟩⟩ := h
  · exact ⟨r, i, token, hparse, .inl hhere⟩
  · exact absurd htoken List.not_mem_nil

def hear (c : ClassIndex) (d : SnapshotPublisher × Nat) : ClassIndex :=
  c.onModules d.1.subject (some (d.1.buildSnapshot d.2))

def heard (ds : List (SnapshotPublisher × Nat)) : ClassIndex := ds.foldl hear {}

end ClassIndex

def Addressable (roverID : String) : Prop := SingleToken roverID ∧ roverID ≠ "" ∧ roverID ≠ ">"

theorem tokens_modules (roverID : String) :
    tokens ("waypoint." ++ roverID ++ ".infra.modules") = "waypoint" :: (tokens roverID ++ ["infra", "modules"]) := by
  have hsubject : "waypoint." ++ roverID ++ ".infra.modules" = "waypoint" ++ "." ++ (roverID ++ "." ++ "infra.modules") := by
    simp only [String.append_assoc]
    rfl
  rw [hsubject, tokens_append, tokens_append]
  rfl

theorem hears_iff (roverID : String) :
    (covers (tokens "waypoint.*.infra.modules") (tokens ("waypoint." ++ roverID ++ ".infra.modules")) = true ∧
      roverIDFromSubject ("waypoint." ++ roverID ++ ".infra.modules") ≠ "") ↔ Addressable roverID := by
  have hpattern : tokens "waypoint.*.infra.modules" = ["waypoint", "*", "infra", "modules"] := by decide
  have hleaf : ∀ t ∈ ["infra", "modules"], t ≠ "*" ∧ t ≠ ">" := by decide
  rw [roverIDFromSubject, tokens_modules, hpattern]
  constructor
  · rintro ⟨hcovers, hid⟩
    cases htokens : tokens roverID with
    | nil => exact absurd htokens (fields_ne_nil roverID)
    | cons first rest =>
      rw [htokens] at hcovers hid
      -- the wildcard takes the first token, so the id has no other
      have hrest : (first ≠ ">" && covers ["infra", "modules"] (rest ++ ["infra", "modules"])) = true := hcovers
      rw [Bool.and_eq_true, decide_eq_true_eq, covers_literal hleaf] at hrest
      have hnone : rest = [] := by
        have hlength := congrArg List.length hrest.2
        rw [List.length_append] at hlength
        exact List.length_eq_zero_iff.mp (by simpa using hlength)
      subst hnone
      obtain ⟨hsingle, rfl⟩ := single_of_tokens htokens
      exact ⟨hsingle, hid, hrest.1⟩
  · rintro ⟨hsingle, hne, hrest⟩
    rw [tokens_of_single hsingle]
    refine ⟨?_, hne⟩
    show (roverID ≠ ">" && covers ["infra", "modules"] ["infra", "modules"]) = true
    rw [covers_refl, Bool.and_true, decide_eq_true_eq]
    exact hrest

namespace ClassIndex

variable {d : SnapshotPublisher × Nat}

theorem hear_of_addressable (h : Addressable d.1.roverID) (c : ClassIndex) :
    c.hear d = c.learn d.1.roverID (some (d.1.buildSnapshot d.2)) := by
  have hid : roverIDFromSubject ("waypoint." ++ d.1.roverID ++ ".infra.modules") = d.1.roverID := by
    rw [roverIDFromSubject, tokens_modules, tokens_of_single h.1]
    rfl
  rw [hear, onModules, SnapshotPublisher.subject, if_pos ((hears_iff d.1.roverID).mpr h), hid]

theorem hear_of_not_addressable (h : ¬Addressable d.1.roverID) (c : ClassIndex) :
    c.hear d = c := by
  rw [hear, onModules, SnapshotPublisher.subject, if_neg (mt (hears_iff d.1.roverID).mp h)]

theorem shown_of_heard {ds : List (SnapshotPublisher × Nat)} {roverID moduleID token : String}
    (h : token ∈ (heard ds).byRover roverID moduleID) :
    ∃ d ∈ ds, Addressable d.1.roverID ∧ ∃ m, d.1.Shows moduleID m ∧ ∃ c ∈ m.components, c.className = token := by
  induction ds using List.reverseRecOn with
  | nil => cases h
  | append_singleton ds d ih =>
    have hlast : d ∈ ds ++ [d] := List.mem_append_right _ (List.mem_singleton_self d)
    have hearlier : token ∈ (heard ds).byRover roverID moduleID → ∃ d' ∈ ds ++ [d], Addressable d'.1.roverID ∧
        ∃ m, d'.1.Shows moduleID m ∧ ∃ c ∈ m.components, c.className = token := by
      intro h
      obtain ⟨d', hd', hshown⟩ := ih h
      exact ⟨d', List.mem_append_left _ hd', hshown⟩
    rw [heard, List.foldl_append, List.foldl_cons, List.foldl_nil] at h
    by_cases haddressable : Addressable d.1.roverID
    · rw [hear_of_addressable haddressable] at h
      by_cases hrover : roverID = d.1.roverID
      · rw [hrover, byRover_learn_self, mem_byModule] at h
        exact ⟨d, hlast, haddressable, h.2⟩
      · rw [byRover_learn_of_ne _ hrover] at h
        exact hearlier h
    · rw [hear_of_not_addressable haddressable] at h
      exact hearlier h

end ClassIndex

/-- The leaves of a module that `servoBroker` and `driveBroker` serve. -/
def brokerLeaves : List String := ["servo", "drive"]

def componentCmd (roverID moduleID token : String) : String :=
  "waypoint." ++ roverID ++ ".module." ++ moduleID ++ "." ++ token ++ ".cmd"

theorem tokens_componentCmd (roverID moduleID : String) (h : SingleToken token) :
    tokens (componentCmd roverID moduleID token) =
      "waypoint" :: (tokens roverID ++ "module" :: (tokens moduleID ++ [token, "cmd"])) := by
  have hsubject : componentCmd roverID moduleID token =
      "waypoint" ++ "." ++ (roverID ++ "." ++ ("module" ++ "." ++ (moduleID ++ "." ++ (token ++ "." ++ "cmd")))) := by
    have hwaypoint : "waypoint." = "waypoint" ++ "." := rfl
    have hmodule : ".module." = "." ++ ("module" ++ ".") := rfl
    have hcmd : ".cmd" = "." ++ "cmd" := rfl
    -- the equation of the definition would be proved by unfolding the strings
    delta componentCmd
    rw [hwaypoint, hmodule, hcmd]
    simp only [String.append_assoc]
  rw [hsubject, tokens_append, tokens_append, tokens_append, tokens_append, tokens_cons h]
  rfl

/-- Along every sequence of snapshots, sessions stay away from the brokers' leaves exactly if no module that a rover shows is of a class with such a name. -/
theorem brokers_unreachable_iff (ds : List (SnapshotPublisher × Nat)) :
    (∀ before, before <+: ds → ∀ roverID moduleID, ∀ leaf ∈ brokerLeaves,
        (ClassIndex.heard before).allow (componentCmd roverID moduleID leaf) = false) ↔
      ∀ d ∈ ds, Addressable d.1.roverID → ∀ moduleID m, d.1.Shows moduleID m → SingleToken moduleID → moduleID ≠ "" →
        ∀ c ∈ m.components, c.className ∉ brokerLeaves := by
  have hleaves : ∀ leaf ∈ brokerLeaves, SingleToken leaf ∧ leaf ≠ "" := by decide
  constructor
  · rintro h d hd haddressable moduleID m hshows hsingle hne c hc hleaf
    obtain ⟨before, after, rfl⟩ := List.append_of_mem hd
    have hrefused := h (before ++ [d]) ⟨after, by simp⟩ d.1.roverID moduleID _ hleaf
    -- the module's class has just been learned
    have hallowed : (ClassIndex.heard (before ++ [d])).allow (componentCmd d.1.roverID moduleID c.className) = true := by
      refine ClassIndex.allow_iff.mpr ⟨d.1.roverID, moduleID, c.className, parseComponentCmd_eq_some.mpr ⟨?_, ?_⟩, ?_⟩
      · rw [tokens_componentCmd _ _ (hleaves _ hleaf).1, tokens_of_single haddressable.1, tokens_of_single hsingle]
        rfl
      · exact ⟨haddressable.2.1, hne, (hleaves _ hleaf).2⟩
      · rw [ClassIndex.heard, List.foldl_append, List.foldl_cons, List.foldl_nil,
          ClassIndex.hear_of_addressable haddressable, ClassIndex.byRover_learn_self]
        exact ClassIndex.mem_byModule.mpr ⟨(hleaves _ hleaf).2, m, hshows, c, hc, rfl⟩
    rw [hallowed] at hrefused
    cases hrefused
  · intro h before hbefore roverID moduleID leaf hleaf
    by_contra hallowed
    rw [Bool.not_eq_false, ClassIndex.allow_iff] at hallowed
    obtain ⟨r, i, token, hparse, htoken⟩ := hallowed
    obtain ⟨htokens, -, hne, -⟩ := parseComponentCmd_eq_some.mp hparse
    have hmem : i ∈ tokens (componentCmd roverID moduleID leaf) := by
      rw [htokens]
      simp
    have hsingle : SingleToken i := not_mem_of_mem_fields hmem
    have htoken_eq : leaf = token := by
      rw [tokens_componentCmd _ _ (hleaves leaf hleaf).1] at htokens
      have hends : ("waypoint" :: (tokens roverID ++ "module" :: tokens moduleID)) ++ [leaf, "cmd"] =
          ["waypoint", r, "module", i] ++ [token, "cmd"] := by
        simpa using htokens
      exact (List.cons.inj (List.append_inj_right' hends rfl)).1
    subst htoken_eq
    obtain ⟨d, hd, haddressable, m, hshows, c, hc, hclass⟩ := ClassIndex.shown_of_heard htoken
    exact h d (hbefore.subset hd) haddressable i m hshows hsingle hne c hc (hclass ▸ hleaf)

def servoArm : RawManifest :=
  { name := "arm", entrypoint := "/usr/bin/arm", requires := ["servo-control"], component := some ⟨"servo", 0⟩ }

theorem session_reaches_servo_broker :
    ∃ specs, ∃ h : discover [("/usr/lib/waypoint/modules/arm/module.toml", .ok (.ok servoArm))] (.ok [⟨"arm", true⟩]) =
        .ok specs,
      (ClassIndex.heard [(.newSnapshotPublisher "rover-1" h, 0)]).allow "waypoint.rover-1.module.arm.servo.cmd" = true :=
  ⟨_, rfl, by decide +kernel⟩

end Waypoint.Proxy
