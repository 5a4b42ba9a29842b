import Waypoint.Proxy.AlertMirror

/-!
# Alerts of different rovers

The mirror takes the rover from the subject and the alert id from the body, and the table is keyed by the id alone.
-/

namespace Waypoint.Proxy.AlertMirror

open Base Alerts

variable {δ : Type} (codec : Codec δ) (refs : Refs)

/-- The delivery writes rows of its own rover only. -/
def Isolated [UuidParser] (t : AlertsRepo) (d : Delivery δ) : Prop :=
  ∀ id, (receive codec refs t d).lookup id ≠ t.lookup id →
    (∀ r ∈ t.lookup id, r.roverID = d.roverID) ∧ ∀ r ∈ (receive codec refs t d).lookup id, r.roverID = d.roverID

/-- If the delivery names the alert of another rover, it writes what the row holds already. -/
def SparesForeign [UuidParser] (t : AlertsRepo) (d : Delivery δ) : Prop :=
  ∀ c ∈ d.call codec, c.refers refs = true → ∀ r ∈ t.lookup c.id, r.roverID ≠ d.roverID → c.write (some r) = some r

instance [UuidParser] (t : AlertsRepo) (d : Delivery δ) : Decidable (SparesForeign codec refs t d) :=
  inferInstanceAs (Decidable (∀ c ∈ d.call codec, _ → ∀ r ∈ t.lookup c.id, _ → _))

def ownRows (rover : String) (t : AlertsRepo) : String → Option AlertRow :=
  fun id => (t.lookup id).filter (·.roverID = rover)

variable {codec refs} {c : AlertsRepo.Call} {rover : String} {full own : Option AlertRow}

theorem write_cases [UuidParser] {d : Delivery δ} (h : d.call codec = some c) :
    (∃ a, a.roverID = d.roverID ∧ ∀ row, c.write row = some a) ∨
      ∃ f : AlertRow → AlertRow, (∀ r, (f r).roverID = r.roverID) ∧ ∀ row, c.write row = row.map f := by
  cases c with
  | raise id a =>
    obtain ⟨k, -, hcall⟩ := callOf_of_call h
    have howner : a.roverID = d.roverID := roverID_of_callOf hcall
    exact .inl ⟨a.raised, howner, fun _ => rfl⟩
  | acknowledge id userID time => exact .inr ⟨AlertRow.acknowledged userID time, fun _ => rfl, fun _ => rfl⟩
  | resolve id userID time autoResolved =>
    exact .inr ⟨AlertRow.resolved userID time autoResolved, fun _ => rfl, fun _ => rfl⟩

theorem receive_cases [UuidParser] (codec : Codec δ) (refs : Refs) (t : AlertsRepo) (d : Delivery δ) :
    receive codec refs t d = t ∨
      ∃ c, d.call codec = some c ∧ c.refers refs = true ∧ receive codec refs t d = t.perform refs c := by
  cases hcall : d.call codec with
  | none => exact .inl (receive_of_none hcall t)
  | some c =>
    cases hrefers : c.refers refs with
    | false => exact .inl (by rw [receive_of_some hcall, AlertsRepo.perform_of_not_refers hrefers])
    | true => exact .inr ⟨c, rfl, hrefers, receive_of_some hcall t⟩

theorem isolated_iff [UuidParser] (t : AlertsRepo) (d : Delivery δ) : Isolated codec refs t d ↔ SparesForeign codec refs t d := by
  constructor
  · intro h c hcall hrefers r hr hforeign
    by_contra hwrites
    have hnext : (receive codec refs t d).lookup c.id = c.write (some r) := by
      rw [receive_of_some hcall, AlertsRepo.lookup_perform_self hrefers, hr]
    refine hforeign ((h c.id ?_).1 r hr)
    rw [hnext, hr]
    exact hwrites
  · intro h id hchanged
    obtain hsame | ⟨c, hcall, hrefers, hnext⟩ := receive_cases codec refs t d
    · exact absurd (by rw [hsame]) hchanged
    rw [hnext] at hchanged ⊢
    have hid : id = c.id := by
      by_contra hother
      exact hchanged (AlertsRepo.lookup_perform_of_ne t c hother)
    subst hid
    rw [AlertsRepo.lookup_perform_self hrefers] at hchanged ⊢
    have hbefore : ∀ r ∈ t.lookup c.id, r.roverID = d.roverID := by
      intro r hr
      by_contra hforeign
      refine hchanged ?_
      rw [show t.lookup c.id = some r from hr]
      exact h c hcall hrefers r hr hforeign
    refine ⟨hbefore, ?_⟩
    obtain ⟨a, ha, hwrite⟩ | ⟨f, hf, hwrite⟩ := write_cases hcall
    · rw [hwrite]
      intro r hr
      cases hr
      exact ha
    · rw [hwrite]
      intro r hr
      obtain ⟨r₀, hr₀, rfl⟩ := Option.map_eq_some_iff.mp hr
      rw [hf]
      exact hbefore r₀ hr₀

/-- What a rover sees of a row in the full run and in the run of its own events: the same row if it is its own, and
no row of another rover that the full run does not have. -/
def Alike (rover : String) (full own : Option AlertRow) : Prop :=
  full.filter (·.roverID = rover) = own.filter (·.roverID = rover) ∧
    ∀ r ∈ own, r.roverID ≠ rover → ∃ r' ∈ full, r'.roverID ≠ rover

theorem Alike.refl (rover : String) (row : Option AlertRow) : Alike rover row row := ⟨rfl, fun r hr hforeign => ⟨r, hr, hforeign⟩⟩

theorem filter_of_foreign {row : Option AlertRow} (h : ∀ r ∈ row, r.roverID ≠ rover) :
    row.filter (·.roverID = rover) = none := by
  cases row with
  | none => rfl
  | some r => simp [Option.filter, h r rfl]

theorem foreign_of_filter {row : Option AlertRow} (h : row.filter (·.roverID = rover) = none) :
    ∀ r ∈ row, r.roverID ≠ rover := by
  rintro r hr
  cases hr
  simpa using h

theorem Alike.of_foreign {r : AlertRow} (hfull : full = some r)
    (hr : r.roverID ≠ rover) (hown : ∀ r ∈ own, r.roverID ≠ rover) : Alike rover full own := by
  subst hfull
  refine ⟨?_, fun _ _ _ => ⟨r, rfl, hr⟩⟩
  rw [filter_of_foreign hown, filter_of_foreign]
  rintro _ ⟨⟩
  exact hr

theorem Alike.cases (h : Alike rover full own) :
    own = full ∨ ∃ r, full = some r ∧ r.roverID ≠ rover ∧ ∀ r ∈ own, r.roverID ≠ rover := by
  cases full with
  | none =>
    cases own with
    | none => exact .inl rfl
    | some r =>
      obtain ⟨r', hr', -⟩ := h.2 r rfl (foreign_of_filter h.1.symm r rfl)
      cases hr'
  | some r =>
    by_cases hr : r.roverID = rover
    · have hown := h.1
      rw [show (some r).filter (·.roverID = rover) = some r by simp [Option.filter, hr]] at hown
      exact .inl (Option.filter_eq_some_iff.mp hown.symm).1
    · exact .inr ⟨r, rfl, hr, foreign_of_filter (h.1.symm.trans (filter_of_foreign (by rintro _ ⟨⟩; exact hr)))⟩

theorem Alike.write_other [UuidParser] {d : Delivery δ} (hcall : d.call codec = some c)
    (hd : d.roverID ≠ rover) (h : Alike rover full own)
    (hspares : ∀ r ∈ full, r.roverID ≠ d.roverID → c.write (some r) = some r) : Alike rover (c.write full) own := by
  by_cases hown : ∀ r ∈ full, r.roverID = d.roverID
  · -- The row is the other rover's or new, so this rover has none in either run.
    have hnone : ∀ r ∈ own, r.roverID ≠ rover := by
      refine foreign_of_filter (h.1.symm.trans (filter_of_foreign fun r hr => ?_))
      rw [hown r hr]
      exact hd
    obtain ⟨a, ha, hwrite⟩ | ⟨f, hf, hwrite⟩ := write_cases hcall
    · exact .of_foreign (hwrite full) (ha ▸ hd) hnone
    rw [hwrite]
    cases full with
    | none => exact h
    | some r =>
      refine .of_foreign rfl ?_ hnone
      rw [hf, hown r rfl]
      exact hd
  · push Not at hown
    obtain ⟨r, hr, hforeign⟩ := hown
    cases hr
    rw [hspares r rfl hforeign]
    exact h

theorem Alike.write_own [UuidParser] {d : Delivery δ} (hcall : d.call codec = some c)
    (hd : d.roverID = rover) (h : Alike rover full own)
    (hspares : ∀ r ∈ full, r.roverID ≠ d.roverID → c.write (some r) = some r) :
    Alike rover (c.write full) (c.write own) := by
  obtain rfl | ⟨r, rfl, hr, hown⟩ := h.cases
  · exact .refl rover _
  have hkept := hspares r rfl (hd ▸ hr)
  rw [hkept]
  refine .of_foreign rfl hr ?_
  obtain ⟨a, ha, hwrite⟩ | ⟨f, hf, hwrite⟩ := write_cases hcall
  · rw [hwrite] at hkept
    cases hkept
    exact absurd (ha.trans hd) hr
  rw [hwrite]
  intro r' hr'
  obtain ⟨r₀, hr₀, rfl⟩ := Option.map_eq_some_iff.mp hr'
  rw [hf]
  exact hown r₀ hr₀

def AlikeTables (rover : String) (full own : AlertsRepo) : Prop := ∀ id, Alike rover (full.lookup id) (own.lookup id)

theorem alike_receive_other [UuidParser] {full own : AlertsRepo} (h : AlikeTables rover full own) {d : Delivery δ}
    (hd : d.roverID ≠ rover) (hspares : SparesForeign codec refs full d) :
    AlikeTables rover (receive codec refs full d) own := by
  obtain hsame | ⟨c, hcall, hrefers, hnext⟩ := receive_cases codec refs full d
  · rw [hsame]
    exact h
  intro id
  rw [hnext]
  by_cases hid : id = c.id
  · subst hid
    rw [AlertsRepo.lookup_perform_self hrefers]
    exact (h c.id).write_other hcall hd (hspares c hcall hrefers)
  · rw [AlertsRepo.lookup_perform_of_ne full c hid]
    exact h id

theorem alike_receive_own [UuidParser] {full own : AlertsRepo} (h : AlikeTables rover full own) {d : Delivery δ}
    (hd : d.roverID = rover) (hspares : SparesForeign codec refs full d) :
    AlikeTables rover (receive codec refs full d) (receive codec refs own d) := by
  cases hcall : d.call codec with
  | none =>
    rw [receive_of_none hcall, receive_of_none hcall]
    exact h
  | some c =>
    rw [receive_of_some hcall, receive_of_some hcall]
    cases hrefers : c.refers refs with
    | false =>
      rw [AlertsRepo.perform_of_not_refers hrefers, AlertsRepo.perform_of_not_refers hrefers]
      exact h
    | true =>
      intro id
      by_cases hid : id = c.id
      · subst hid
        rw [AlertsRepo.lookup_perform_self hrefers, AlertsRepo.lookup_perform_self hrefers]
        exact (h c.id).write_own hcall hd (hspares c hcall hrefers)
      · rw [AlertsRepo.lookup_perform_of_ne full c hid, AlertsRepo.lookup_perform_of_ne own c hid]
        exact h id

theorem alike_run [UuidParser] (rover : String) {ds : List (Delivery δ)} {full own : AlertsRepo} (h : AlikeTables rover full own)
    (hspares : Along (receive codec refs) (SparesForeign codec refs) full ds) :
    AlikeTables rover (ds.foldl (receive codec refs) full)
      ((ds.filter (·.roverID = rover)).foldl (receive codec refs) own) := by
  induction ds generalizing full own with
  | nil => exact h
  | cons d ds ih =>
    by_cases hd : d.roverID = rover
    · rw [List.filter_cons_of_pos (by simpa using hd)]
      exact ih (alike_receive_own h hd hspares.1) hspares.2
    · rw [List.filter_cons_of_neg (by simpa using hd)]
      exact ih (alike_receive_other h hd hspares.1) hspares.2

/-- Where no delivery writes to another rover's alert, every delivery is isolated, and the rows of each rover are
those of its own events. -/
theorem alert_rows_isolated [UuidParser] {t : AlertsRepo} {ds : List (Delivery δ)}
    (h : Along (receive codec refs) (SparesForeign codec refs) t ds) :
    Along (receive codec refs) (Isolated codec refs) t ds ∧
      ∀ rover, ownRows rover (ds.foldl (receive codec refs) t) =
        ownRows rover ((ds.filter (·.roverID = rover)).foldl (receive codec refs) t) :=
  ⟨h.mono fun t d => (isolated_iff t d).mpr,
    fun rover => funext fun id => (alike_run rover (fun id => .refl rover (t.lookup id)) h id).1⟩

def raisedBy (rover id : String) : Delivery Event :=
  delivery rover .raised (.raised { id := id, source := "agent", severity := 3, code := "fault", message := "stopped" }) 10

def acknowledgedOn (rover id : String) : Delivery Event :=
  delivery rover .acknowledged (.acknowledged { id := id, userId := "9b2f1c3e-5d4a-4e7b-8a6f-0123456789ab" }) 20

attribute [local instance] oneUser

theorem alert_rows_isolated_apart :
    (ownRows "r1" ([raisedBy "r1" "a", raisedBy "r2" "b", acknowledgedOn "r1" "a"].foldl
        (receive Event.codec .complete) ∅) "a").map AlertRow.state = some .acknowledged ∧
      Along (receive Event.codec .complete) (Isolated Event.codec .complete) ∅
        [raisedBy "r1" "a", raisedBy "r2" "b", acknowledgedOn "r1" "a"] :=
  ⟨by decide +kernel, (alert_rows_isolated (by decide +kernel)).1⟩

def takeover : List (Delivery Event) := [raisedBy "r1" "a", raisedBy "r2" "a"]

def strayAcknowledgement : List (Delivery Event) := [raisedBy "r1" "a", acknowledgedOn "r2" "a"]

/-- A rover takes over another's alert by raising the same id, and acknowledges one it never raised. -/
theorem foreign_alert_written :
    ¬Isolated Event.codec .complete (receive Event.codec .complete ∅ (raisedBy "r1" "a")) (raisedBy "r2" "a") ∧
      ownRows "r1" (takeover.foldl (receive Event.codec .complete) ∅) ≠
        ownRows "r1" ((takeover.filter (·.roverID = "r1")).foldl (receive Event.codec .complete) ∅) ∧
      ownRows "r1" (strayAcknowledgement.foldl (receive Event.codec .complete) ∅) ≠
        ownRows "r1" ((strayAcknowledgement.filter (·.roverID = "r1")).foldl (receive Event.codec .complete) ∅) := by
  refine ⟨fun h => ?_, fun h => ?_, fun h => ?_⟩
  · exact absurd ((isolated_iff _ _).mp h) (by decide +kernel)
  · exact absurd (congrFun h "a") (by decide +kernel)
  · exact absurd (congrFun h "a") (by decide +kernel)

end Waypoint.Proxy.AlertMirror
