import Mathlib.Data.List.Basic
import Mathlib.Data.List.Dedup

/-!
# Desired module sets

The sets the agent keeps of modules that should run: one pushed by the proxy, one of local installs. Entries are kept in order; the local set wins where both name a module.
-/

namespace Waypoint.Agent

structure ModuleDesired where
  id : String
  version : String
  rawUrl : String := ""
  rawSha256 : String := ""
  configToml : String := ""
  deriving DecidableEq

/-- The union of both sets; an entry of the proxy is left out where a local one has its id. -/
def mergeDesired (proxy loc : List ModuleDesired) : List ModuleDesired :=
  loc ++ proxy.filter fun m => !(loc.any fun l => l.id = m.id)

/-- The first entry with the id is replaced in place, or the new one appended. -/
def upsertModule : List ModuleDesired → ModuleDesired → List ModuleDesired
  | [], m => [m]
  | e :: set, m => if e.id = m.id then m :: set else e :: upsertModule set m

def removeModule (set : List ModuleDesired) (id : String) : List ModuleDesired := set.filter fun m => m.id ≠ id

def containsModule (set : List ModuleDesired) (id : String) : Bool := set.any fun m => m.id = id

/-- The map a reconcile builds from a set: a later entry overwrites an earlier one of the same id. -/
def wanted (desired : List ModuleDesired) (id : String) : Option ModuleDesired := desired.reverse.find? fun m => m.id = id

def wantedIds (desired : List ModuleDesired) : List String := (desired.map (·.id)).dedup

variable {m : ModuleDesired} {desired : List ModuleDesired} {id : String}

theorem mem_of_mem_mergeDesired {proxy loc : List ModuleDesired} (h : m ∈ mergeDesired proxy loc) :
    m ∈ loc ∨ m ∈ proxy := by
  rcases List.mem_append.mp h with hloc | hproxy
  · exact .inl hloc
  · exact .inr (List.mem_of_mem_filter hproxy)

theorem mem_of_mem_upsertModule {set : List ModuleDesired} {e : ModuleDesired} (h : e ∈ upsertModule set m) :
    e = m ∨ e ∈ set := by
  induction set with
  | nil => exact .inl (List.mem_singleton.mp h)
  | cons x set ih =>
    rw [upsertModule] at h
    split at h
    · rcases List.mem_cons.mp h with rfl | hset
      · exact .inl rfl
      · exact .inr (List.mem_cons_of_mem _ hset)
    rcases List.mem_cons.mp h with rfl | hset
    · exact .inr List.mem_cons_self
    · rcases ih hset with rfl | hset
      · exact .inl rfl
      · exact .inr (List.mem_cons_of_mem _ hset)

theorem mem_of_wanted (h : wanted desired id = some m) :
    m ∈ desired ∧ m.id = id := by
  have hfound := List.find?_some h
  exact ⟨List.mem_reverse.mp (List.mem_of_find?_eq_some h), of_decide_eq_true hfound⟩

theorem wanted_eq_none_iff : wanted desired id = none ↔ id ∉ desired.map (·.id) := by
  unfold wanted
  simp [List.find?_eq_none]

theorem mem_wantedIds_iff : id ∈ wantedIds desired ↔ wanted desired id ≠ none := by
  rw [wantedIds, List.mem_dedup, Ne, wanted_eq_none_iff, not_not]

theorem wanted_of_mem (hids : (desired.map (·.id)).Nodup)
    (h : m ∈ desired) : wanted desired m.id = some m := by
  cases hwanted : wanted desired m.id with
  | none => exact absurd (List.mem_map_of_mem h) (wanted_eq_none_iff.mp hwanted)
  | some m' =>
    obtain ⟨hm', hid⟩ := mem_of_wanted hwanted
    rw [List.inj_on_of_nodup_map hids hm' h hid]

end Waypoint.Agent
