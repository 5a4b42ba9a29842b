import Waypoint.Agent.Convergence
import Waypoint.Base.Published

/-!
# Calls of the module manager side by side

`handleDesired`, `ConfirmModule` and `UninstallModule` each store a desired set under the manager's lock, merge both sets under the lock again, and reconcile the merged set outside of it.
-/

namespace Waypoint.Agent

open Base

structure DesiredSets where
  proxyDesired : List ModuleDesired := []
  localDesired : List ModuleDesired := []

inductive SetChange
  | handleDesired (set : List ModuleDesired)
  | confirmModule (entry : ModuleDesired)
  | uninstallModule (id : String)

namespace DesiredSets

/-- A module that is not installed locally cannot be uninstalled; the call returns without a reconcile. -/
def store (s : DesiredSets) : SetChange → Option DesiredSets
  | .handleDesired set => some { s with proxyDesired := set }
  | .confirmModule entry => some { s with localDesired := upsertModule s.localDesired entry }
  | .uninstallModule id =>
    if containsModule s.localDesired id then some { s with localDesired := removeModule s.localDesired id } else none

def merged (s : DesiredSets) : List ModuleDesired := mergeDesired s.proxyDesired s.localDesired

end DesiredSets

/-- The version of a module that a reconcile of the set leaves attached. -/
def attachedBy (desired : List ModuleDesired) (id : String) : Option String := (wanted desired id).map (·.version)

/-- A reconcile in which nothing fails remembers, for each module, the image of that version and nothing else. -/
theorem current_reconciled {w : World} {r : Setup} {desired : List ModuleDesired} {s : Rover}
    (h : Succeeds w r desired s) (id : String) :
    (s.reconciled w r desired).current.lookup id = (attachedBy desired id).map (r.rawDest id) := by
  have hsettled := settled_reconciled h id
  unfold attachedBy
  cases hwanted : wanted desired id with
  | none =>
    rw [hwanted] at hsettled
    exact hsettled
  | some m =>
    rw [hwanted] at hsettled
    exact hsettled.1

abbrev ManagerState := Published DesiredSets (List ModuleDesired)

namespace ManagerState

abbrev Action := Published.Action SetChange

def next : ManagerState → Action → Option ManagerState := Published.next DesiredSets.store DesiredSets.merged

/-- An old merge is reconciled only while a call that will reconcile a newer one is under way. -/
abbrev Orderly : ManagerState → Action → Prop := Published.Orderly DesiredSets.merged

/-- Where merges are reconciled in order, the attached modules are those of the stored sets once all calls have
returned. -/
theorem last_stored_wins {sets : DesiredSets} {es : List Action} {s : ManagerState}
    (hrun : Run (Guarded Orderly (Takes next)) (.init DesiredSets.merged sets) es s) (hquiet : s.Quiet) :
    attachedBy s.latest = attachedBy (mergeDesired s.store.proxyDesired s.store.localDesired) :=
  congrArg attachedBy (Published.latest_of_orderly (Published.fresh_init sets) hrun hquiet)

def camera : ModuleDesired := { id := "camera", version := "1.0.0" }

def lidar : ModuleDesired := { id := "lidar", version := "2.0.0" }

def oneByOne : List Action :=
  [.change 0 (.handleDesired [camera]), .take 0, .publish 0, .change 1 (.confirmModule lidar), .take 1, .publish 1]

theorem last_stored_wins_oneByOne :
    ∃ s, Run (Guarded Orderly (Takes next)) (.init DesiredSets.merged {}) oneByOne s ∧
      s.store = ⟨[camera], [lidar]⟩ ∧ attachedBy s.latest = attachedBy (mergeDesired [camera] [lidar]) := by
  have hrun : ∃ s, Run (Guarded Orderly (Takes next)) (.init DesiredSets.merged {}) oneByOne s ∧
      s.store = ⟨[camera], [lidar]⟩ ∧ s.Quiet := by
    refine ⟨_, .cons ⟨trivial, rfl⟩ (.cons ⟨trivial, rfl⟩ (.cons ⟨.inl rfl, rfl⟩ (.cons ⟨trivial, rfl⟩
      (.cons ⟨trivial, rfl⟩ (.cons ⟨.inl rfl, rfl⟩ (.nil _)))))), rfl, fun t => ?_⟩
    rcases t with _ | _ | t <;> rfl
  obtain ⟨s, hrun, hstore, hquiet⟩ := hrun
  have hlast := last_stored_wins hrun hquiet
  rw [hstore] at hlast
  exact ⟨s, hrun, hstore, hlast⟩

/-- An installation merges before a push is stored, and is reconciled after it: the pushed module ends detached. -/
def overtaken : List Action :=
  [.change 0 (.confirmModule lidar), .take 0, .change 1 (.handleDesired [camera]), .take 1, .publish 1, .publish 0]

theorem older_merge_wins :
    ∃ s, Run (Takes next) (.init DesiredSets.merged {}) overtaken s ∧ s.Quiet ∧
      attachedBy s.latest "camera" = none ∧
      attachedBy (mergeDesired s.store.proxyDesired s.store.localDesired) "camera" = some "1.0.0" := by
  refine ⟨_, .cons rfl (.cons rfl (.cons rfl (.cons rfl (.cons rfl (.cons rfl (.nil _)))))), fun t => ?_, by decide, by decide⟩
  rcases t with _ | _ | t <;> rfl

end ManagerState

end Waypoint.Agent
