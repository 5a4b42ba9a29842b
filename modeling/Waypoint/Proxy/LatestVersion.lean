import Waypoint.Proxy.CheckUpdates

/-!
# The latest version

A check walks over the releases in the order in which they are listed, and ingests each that is newer than all that it knows by then. Which ones these are depends on the order; which version is the latest does not.
-/

namespace Waypoint.Proxy

open Base

variable [Semver]

theorem isNewerVersion_iff {v : String} {known : List String} :
    isNewerVersion v known = true ↔
      Semver.isValid (canon v) = true ∧ ∀ w ∈ known, Semver.cmp (canon v) (canon w) = .gt := by
  simp [isNewerVersion]

def AtMost (v w : String) : Prop := (Semver.cmp (canon v) (canon w)).isLE = true

section

variable {v w : String} {known : List String} {rels : List GitHubRelease}

theorem AtMost.refl (v : String) : AtMost v v := by
  rw [AtMost, Semver.cmp_self]
  rfl

theorem atMost_of_newer (h : Semver.cmp (canon w) (canon v) = .gt) : AtMost v w := by
  rw [AtMost, ← Semver.cmp_swap, h]
  rfl

theorem atMost_of_not_isValid (h : Semver.isValid (canon v) = false) (w : String) : AtMost v w :=
  Semver.isLE_cmp h (canon w)

theorem atMost_of_not_isNewerVersion (h : isNewerVersion v known = false) :
    Semver.isValid (canon v) = false ∨ ∃ w ∈ known, AtMost v w := by
  by_contra hnot
  rw [not_or, Bool.not_eq_false] at hnot
  refine Bool.false_ne_true (h.symm.trans (isNewerVersion_iff.mpr ⟨hnot.1, fun w hw => ?_⟩))
  have hgt : ¬AtMost v w := fun hle => hnot.2 ⟨w, hw, hle⟩
  cases hcmp : Semver.cmp (canon v) (canon w) <;> simp_all [AtMost]

theorem atMost_later (latest v : String) : AtMost latest (later latest v) ∧ AtMost v (later latest v) := by
  unfold later
  split
  · rename_i htaken
    refine ⟨?_, AtMost.refl v⟩
    rcases htaken with rfl | hnewer
    · exact atMost_of_not_isValid not_isValid_empty v
    · exact atMost_of_newer ((isNewerVersion_iff.mp hnewer).2 _ (List.mem_singleton_self _))
  · rename_i hkept
    rw [not_or, Bool.not_eq_true] at hkept
    refine ⟨AtMost.refl latest, ?_⟩
    rcases atMost_of_not_isNewerVersion hkept.2 with hinvalid | ⟨w, hw, hle⟩
    · exact atMost_of_not_isValid hinvalid latest
    · exact List.mem_singleton.mp hw ▸ hle

theorem atMost_foldl_later (latest : String) (known : List String) :
    ∀ v ∈ latest :: known, AtMost v (known.foldl later latest) := by
  induction known generalizing latest with
  | nil => simpa using AtMost.refl latest
  | cons w known ih =>
    obtain ⟨hlatest, hw⟩ := atMost_later latest w
    obtain ⟨hfirst, hrest⟩ := List.forall_mem_cons.mp (ih (later latest w))
    exact List.forall_mem_cons.mpr ⟨Std.TransCmp.isLE_trans hlatest hfirst,
      List.forall_mem_cons.mpr ⟨Std.TransCmp.isLE_trans hw hfirst, hrest⟩⟩

theorem foldl_later_mem (latest : String) (known : List String) : known.foldl later latest ∈ latest :: known := by
  induction known generalizing latest with
  | nil => exact List.mem_singleton_self latest
  | cons v known ih =>
    have hstep : later latest v = v ∨ later latest v = latest := ite_eq_or_eq _ _ _
    have hmem := ih (later latest v)
    simp only [List.foldl_cons, List.mem_cons] at hmem ⊢
    grind

/-- The latest of some versions is one of them and at least as new as each. -/
theorem latestOf_spec (h : known ≠ []) : latestOf known ∈ known ∧ ∀ v ∈ known, AtMost v (latestOf known) := by
  refine ⟨?_, (List.forall_mem_cons.mp (atMost_foldl_later "" known)).2⟩
  obtain ⟨v, known, rfl⟩ := List.exists_cons_of_ne_nil h
  exact foldl_later_mem v known

theorem latestOf_eq (hv : v ∈ known) (hnewest : ∀ w ∈ known, w ≠ v → isNewerVersion v [w] = true) : latestOf known = v := by
  obtain ⟨hmem, hmost⟩ := latestOf_spec (List.ne_nil_of_mem hv)
  by_contra hother
  have hnewer := (isNewerVersion_iff.mp (hnewest _ hmem hother)).2 _ (List.mem_singleton_self _)
  have hle := hmost v hv
  rw [AtMost, hnewer] at hle
  cases hle

/-- Each version that is ingested is newer than all that were known, and than those ingested before; and no release is left out that is newer than all of them. -/
theorem newVersions_spec (rels : List GitHubRelease) (known : List String) :
    (newVersions rels known).Pairwise (fun v w => Semver.cmp (canon w) (canon v) = .gt) ∧
      (∀ v ∈ newVersions rels known, isNewerVersion v known = true ∧ v ∈ rels.map (·.version)) ∧
      ∀ rel ∈ rels, Semver.isValid (canon rel.version) = true → ∃ w ∈ known ++ newVersions rels known, AtMost rel.version w := by
  induction rels generalizing known with
  | nil => simp [newVersions]
  | cons rel rels ih =>
    unfold newVersions
    by_cases hnewer : isNewerVersion rel.version known = true
    · rw [if_pos hnewer]
      obtain ⟨hincreasing, hnew, hcovered⟩ := ih (known ++ [rel.version])
      simp only [isNewerVersion_iff, List.forall_mem_append, List.forall_mem_singleton] at hnew hnewer ⊢
      refine ⟨List.pairwise_cons.mpr ⟨fun v hv => (hnew v hv).1.2.2, hincreasing⟩, ?_, ?_⟩
      · refine List.forall_mem_cons.mpr ⟨⟨hnewer, List.mem_cons_self⟩, fun v hv => ?_⟩
        obtain ⟨⟨hvalid, hknown, -⟩, hmem⟩ := hnew v hv
        exact ⟨⟨hvalid, hknown⟩, List.mem_cons_of_mem _ hmem⟩
      · refine List.forall_mem_cons.mpr ⟨fun _ => ⟨rel.version, by simp, AtMost.refl _⟩, fun r hr hvalid => ?_⟩
        simpa using hcovered r hr hvalid
    · rw [if_neg hnewer]
      obtain ⟨hincreasing, hnew, hcovered⟩ := ih known
      refine ⟨hincreasing, fun v hv => (hnew v hv).imp_right (List.mem_cons_of_mem _), ?_⟩
      refine List.forall_mem_cons.mpr ⟨fun hvalid => ?_, hcovered⟩
      rcases atMost_of_not_isNewerVersion (Bool.eq_false_of_not_eq_true hnewer) with hinvalid | ⟨w, hw, hle⟩
      · cases hinvalid.symm.trans hvalid
      · exact ⟨w, List.mem_append_left _ hw, hle⟩

end

/-- The versions that a check compares: those that are known, and those of the releases that have one. -/
def candidates (known : List String) (rels : List GitHubRelease) : List String :=
  known ++ (rels.map (·.version)).filter fun v => Semver.isValid (canon v)

theorem latest_spec (known : List String) (rels : List GitHubRelease) :
    (candidates known rels = [] → latestOf (known ++ newVersions rels known) = "") ∧
      ∀ v ∈ candidates known rels, latestOf (known ++ newVersions rels known) ∈ candidates known rels ∧
        AtMost v (latestOf (known ++ newVersions rels known)) := by
  obtain ⟨-, hnew, hcovered⟩ := newVersions_spec rels known
  have hsub : ∀ v ∈ known ++ newVersions rels known, v ∈ candidates known rels := by
    refine List.forall_mem_append.mpr ⟨fun v hv => List.mem_append_left _ hv, fun v hv => ?_⟩
    exact List.mem_append_right _ (List.mem_filter.mpr ⟨(hnew v hv).2, (isNewerVersion_iff.mp (hnew v hv).1).1⟩)
  refine ⟨fun hnone => ?_, fun v hv => ?_⟩
  · have hnil : known ++ newVersions rels known = [] :=
      List.eq_nil_iff_forall_not_mem.mpr fun v hv => List.not_mem_nil (hnone ▸ hsub v hv)
    rw [hnil]
    rfl
  · obtain ⟨w, hw, hle⟩ : ∃ w ∈ known ++ newVersions rels known, AtMost v w := by
      rcases List.mem_append.mp hv with hv | hv
      · exact ⟨v, List.mem_append_left _ hv, AtMost.refl v⟩
      · obtain ⟨hmem, hvalid⟩ := List.mem_filter.mp hv
        obtain ⟨rel, hrel, rfl⟩ := List.mem_map.mp hmem
        exact hcovered rel hrel hvalid
    obtain ⟨hmem, hmost⟩ := latestOf_spec (List.ne_nil_of_mem hw)
    exact ⟨hsub _ hmem, Std.TransCmp.isLE_trans hle (hmost w hw)⟩

/-- Each version is newer than all after it. -/
def Descending : List String → Prop
  | [] => True
  | v :: older => isNewerVersion v older = true ∧ Descending older

theorem latestOf_of_descending {versions listed : List String} (h : Descending versions)
    (hmem : ∀ v, v ∈ listed ↔ v ∈ versions) : latestOf listed = latestOf versions := by
  cases versions with
  | nil => rw [List.eq_nil_iff_forall_not_mem.mpr fun v hv => List.not_mem_nil ((hmem v).mp hv)]
  | cons v older =>
    obtain ⟨hvalid, hnewer⟩ := isNewerVersion_iff.mp h.1
    have hnewest : ∀ w ∈ v :: older, w ≠ v → isNewerVersion v [w] = true := by
      intro w hw hne
      refine isNewerVersion_iff.mpr ⟨hvalid, fun w' hw' => ?_⟩
      cases List.mem_singleton.mp hw'
      exact hnewer w ((List.mem_cons.mp hw).resolve_left hne)
    rw [latestOf_eq List.mem_cons_self hnewest]
    exact latestOf_eq ((hmem v).mpr List.mem_cons_self) fun w hw => hnewest w ((hmem w).mp hw)

end Waypoint.Proxy
