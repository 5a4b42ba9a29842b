import Waypoint.Survey.Safety

/-!
# A mission that ends is complete

An observer writes down, since the engine was last armed, which legs it left, on which legs it began a dwell, and what was reported during each dwell.
-/

namespace Waypoint.Survey

open Base Engine

variable {K : Type}

/-! ### The observer -/

structure History where
  completed : List Nat := []
  dwells : List Nat := []
  /-- the ids that were reported during a dwell, with the leg -/
  reports : List (Nat × Int) := []

def reported : Call K → List Int
  | .onDetections dets _ => dets.map (·.id)
  | _ => []

/-- How often an id is among those that match the tag. -/
def sightings (tag : Int) (ids : List Int) (id : Int) : Nat := ids.countP fun i => tagMatches tag i && decide (i = id)

def History.record (h : History) (m : Mission K) (c : Call K) (m' : Mission K) : History :=
  if m.state = .idle ∧ m'.state = .transit then {}
  else
    { completed := if m.li < m'.li then h.completed ++ [m.li] else h.completed
      dwells := if m.state ≠ .sense ∧ m'.state = .sense then h.dwells ++ [m.li] else h.dwells
      reports := if m.state = .sense then h.reports ++ (reported c).map fun id => (m.li, id) else h.reports }

/-! ### Legs -/

section Legs

variable {p : Params K} {i : Nat} {lg : Leg K}

theorem legs_out (h : i < p.waypoints.length) : (buildLegs p)[i]? = some (p.legTo true (p.waypoints[i], i)) := by
  rw [buildLegs, List.getElem?_append_left (by rwa [List.length_map, List.length_zipIdx]), List.getElem?_map,
    List.getElem?_zipIdx, List.getElem?_eq_getElem h, Option.map_some, Option.map_some, Nat.zero_add]

theorem legs_back (h : p.waypoints.length ≤ i) (hlg : (buildLegs p)[i]? = some lg) : lg.sense = false := by
  rw [buildLegs, List.getElem?_append_right (by rwa [List.length_map, List.length_zipIdx])] at hlg
  have hmem := List.mem_of_getElem? hlg
  split at hmem
  · rcases List.mem_append.mp hmem with hmem | hmem
    · obtain ⟨wp, -, rfl⟩ := List.mem_map.mp hmem
      rfl
    · rw [List.mem_singleton.mp hmem]
  · cases hmem

theorem length_waypoints_le (p : Params K) : p.waypoints.length ≤ (buildLegs p).length := by
  rw [buildLegs, List.length_append, List.length_map, List.length_zipIdx]
  exact Nat.le_add_right _ _

theorem sense_iff (hlg : (buildLegs p)[i]? = some lg) : lg.sense = true ↔ i < p.waypoints.length := by
  constructor
  · intro hsense
    by_contra hback
    rw [legs_back (not_lt.mp hback) hlg] at hsense
    cases hsense
  · intro hout
    rw [legs_out hout] at hlg
    cases hlg
    rfl

end Legs

section Mark

variable {α : Type} {xs : List α} {i : Int} {a : α}

theorem length_mark : (mark xs i a).length = xs.length := by
  unfold mark
  split
  · exact List.length_set
  · rfl

variable {j : Nat}

theorem getElem?_mark_self (h : j < xs.length) : (mark xs (j : Int) a)[j]? = some a := by
  rw [mark, if_pos ⟨Int.natCast_nonneg j, by omega⟩, Int.toNat_natCast, List.getElem?_set_self h]

theorem getElem?_mark_of_ne (h : (j : Int) ≠ i) : (mark xs i a)[j]? = xs[j]? := by
  unfold mark
  split
  · rw [List.getElem?_set_ne (by omega)]
  · rfl

theorem getElem?_mark_same (h : xs[j]? = some a) : (mark xs i a)[j]? = some a := by
  by_cases hj : (j : Int) = i
  · rw [← hj]
    exact getElem?_mark_self (List.getElem?_eq_some_iff.mp h).1
  · rw [getElem?_mark_of_ne hj, h]

end Mark

/-! ### A mission under way -/

namespace Mission

variable {m m' : Mission K} {c : Call K} {h : History}

/-- Where a running mission is, according to the observer. -/
structure Tracked (m : Mission K) (h : History) : Prop where
  legs : m.legs = buildLegs m.p
  within : m.li < m.legs.length
  completed : h.completed = List.range m.li
  dwells : h.dwells = List.range (min m.p.waypoints.length (m.li + if m.state = .sense then 1 else 0))
  /-- a scan or a dwell is at a waypoint, which has been reached -/
  stopped : m.state = .scan ∨ m.state = .sense → m.li < m.p.waypoints.length ∧ m.reached[m.li]? = some true
  lengths : m.reached.length = m.p.waypoints.length ∧ m.detected.length = m.p.waypoints.length
  reached : ∀ i < m.p.waypoints.length, i < m.li → m.reached[i]? = some true
  detected : ∀ i < m.p.waypoints.length, ∃ id, m.detected[i]? = some id ∧
    (id = -1 ∨ tagMatches (m.p.tagOf i) id = true ∧ (i, id) ∈ h.reports)
  counted : m.state = .sense → ∀ e ∈ m.counts.getD [], tagMatches (m.p.tagOf m.li) e.1 = true ∧ (m.li, e.1) ∈ h.reports

/-- The part of it that the observer has seen when the last leg was left. -/
structure Ended (m : Mission K) (h : History) : Prop where
  legs : m.legs = buildLegs m.p
  completed : h.completed = List.range m.legs.length
  dwells : h.dwells = List.range m.p.waypoints.length
  reached : m.reached = List.replicate m.p.waypoints.length true
  detected : ∀ i < m.p.waypoints.length, ∃ id, m.detected[i]? = some id ∧
    (id = -1 ∨ tagMatches (m.p.tagOf i) id = true ∧ (i, id) ∈ h.reports)

theorem tracked_armed (hp : m.p.waypoints ≠ []) : m.armed.Tracked {} where
  legs := rfl
  within := List.length_pos_iff.mpr (buildLegs_ne_nil hp)
  completed := rfl
  dwells := by
    change [] = List.range (min _ (0 + 0))
    rw [Nat.add_zero, Nat.min_zero]
    rfl
  stopped hstate := by rcases hstate with hstate | hstate <;> cases hstate
  lengths := ⟨List.length_replicate, List.length_replicate⟩
  reached i _ hi := absurd hi (Nat.not_lt_zero i)
  detected i hi := ⟨-1, List.getElem?_replicate_of_lt hi, .inl rfl⟩
  counted hstate := by cases hstate

variable {lg : Leg K}

theorem Tracked.leg_sense (ht : m.Tracked h) (hlg : m.leg = some lg) :
    lg.sense = true ↔ m.li < m.p.waypoints.length := by
  rw [leg, ht.legs] at hlg
  exact sense_iff hlg

theorem Tracked.leg_out (ht : m.Tracked h) (hlg : m.leg = some lg) (hi : m.li < m.p.waypoints.length) :
    lg.wpIndex = m.li ∧ lg.tag = m.p.tagOf m.li := by
  rw [leg, ht.legs, legs_out hi] at hlg
  cases hlg
  exact ⟨rfl, rfl⟩

/-! ### One transition -/

theorem record_same (hidle : m.state ≠ .idle) (hli : m'.li = m.li) (hdwell : m'.state = .sense → m.state = .sense)
    (hreported : m.state = .sense → reported c = []) : h.record m c m' = h := by
  rw [History.record, if_neg fun hc => hidle hc.1, if_neg (by rw [hli]; exact lt_irrefl _),
    if_neg fun hc => hc.1 (hdwell hc.2)]
  split
  · rename_i hsense
    rw [hreported hsense, List.map_nil, List.append_nil]
  · rfl

theorem record_dwell (hidle : m.state ≠ .idle) (hstate : m.state ≠ .sense) (hli : m'.li = m.li) (hdwell : m'.state = .sense) :
    h.record m c m' = { h with dwells := h.dwells ++ [m.li] } := by
  rw [History.record, if_neg fun hc => hidle hc.1, if_neg (by rw [hli]; exact lt_irrefl _), if_pos ⟨hstate, hdwell⟩,
    if_neg hstate]

variable {r : Mission K} {counts : List (Int × Nat)}

theorem record_advance (now : Time) (hidle : m.state ≠ .idle) (hli : r.li = m.li) :
    h.record m (.tick now) r.advance = { h with completed := h.completed ++ [m.li] } := by
  have hlt : m.li < r.advance.li := by
    change m.li < r.li + 1
    omega
  rw [History.record, if_neg fun hc => hidle hc.1, if_pos hlt, if_neg fun hc => advance_ne_sense hc.2]
  split
  · have hnone : (reported (.tick now : Call K)).map (fun id => (m.li, id)) = [] := rfl
    rw [hnone, List.append_nil]
  · rfl

/-- A leg that can be left: its waypoint is reached, and a dwell was held where there is one. -/
structure Passed (m : Mission K) (h : History) : Prop where
  legs : m.legs = buildLegs m.p
  within : m.li < m.legs.length
  completed : h.completed = List.range m.li
  dwells : h.dwells = List.range (min m.p.waypoints.length (m.li + 1))
  lengths : m.reached.length = m.p.waypoints.length ∧ m.detected.length = m.p.waypoints.length
  reached : ∀ i < m.p.waypoints.length, i ≤ m.li → m.reached[i]? = some true
  detected : ∀ i < m.p.waypoints.length, ∃ id, m.detected[i]? = some id ∧
    (id = -1 ∨ tagMatches (m.p.tagOf i) id = true ∧ (i, id) ∈ h.reports)

theorem Passed.tracked (hm : m.Passed h) (hmore : m.advance.Active) :
    m.advance.Tracked { h with completed := h.completed ++ [m.li] } := by
  have hlt : m.li + 1 < m.legs.length := by
    by_contra hend
    have hdone : m.advance.state = .done := if_pos (not_lt.mp hend)
    rcases hmore with hstate | hstate | hstate <;> cases hdone.symm.trans hstate
  have hstate : m.advance.state = .transit := if_neg (not_le.mpr hlt)
  have hnot : ∀ {s : State}, s ≠ .transit → m.advance.state ≠ s := fun hs heq => hs (heq.symm.trans hstate)
  refine ⟨hm.legs, hlt, ?_, ?_, fun hstop => ?_, hm.lengths, fun i hi hle => hm.reached i hi (Nat.lt_succ_iff.mp hle),
    hm.detected, fun hsense => absurd hsense (hnot (by decide))⟩
  · change h.completed ++ [m.li] = List.range (m.li + 1)
    rw [hm.completed, List.range_succ]
  · rw [if_neg (hnot (by decide))]
    exact hm.dwells
  · rcases hstop with hstop | hstop
    · exact absurd hstop (hnot (by decide))
    · exact absurd hstop (hnot (by decide))

theorem Passed.ended (hm : m.Passed h) (hdone : m.advance.state = .done) :
    m.advance.Ended { h with completed := h.completed ++ [m.li] } := by
  have hlast : m.legs.length ≤ m.li + 1 := by
    by_contra hmore
    cases hdone.symm.trans (if_neg hmore)
  have hlength : m.li + 1 = m.legs.length := le_antisymm hm.within hlast
  have hall : m.p.waypoints.length ≤ m.li + 1 := by
    rw [hlength, hm.legs]
    exact length_waypoints_le m.p
  refine ⟨hm.legs, ?_, ?_, ?_, hm.detected⟩
  · change h.completed ++ [m.li] = List.range m.legs.length
    rw [hm.completed, ← hlength, List.range_succ]
  · change h.dwells = List.range m.p.waypoints.length
    rw [hm.dwells, Nat.min_eq_left hall]
  apply List.ext_getElem?
  intro i
  change m.reached[i]? = (List.replicate m.p.waypoints.length true)[i]?
  by_cases hi : i < m.p.waypoints.length
  · rw [hm.reached i hi (by omega), List.getElem?_replicate_of_lt hi]
  · rw [List.getElem?_eq_none (by rw [hm.lengths.1]; omega), List.getElem?_eq_none (by rw [List.length_replicate]; omega)]

theorem Tracked.passed_reach (ht : m.Tracked h) (hlg : m.leg = some lg) (hstate : m.state = .transit)
    (hsense : lg.sense = false) : (m.reach lg).Passed h := by
  have hback : m.p.waypoints.length ≤ m.li := by
    by_contra hout
    rw [(ht.leg_sense hlg).mpr (not_le.mp hout)] at hsense
    cases hsense
  refine ⟨ht.legs, ht.within, ht.completed, ?_, ⟨length_mark.trans ht.lengths.1, ht.lengths.2⟩, fun i hi _ => ?_, ht.detected⟩
  · rw [ht.dwells, hstate]
    change List.range (min m.p.waypoints.length (m.li + 0)) = List.range (min m.p.waypoints.length (m.li + 1))
    rw [Nat.min_eq_left (by omega), Nat.min_eq_left (by omega)]
  · exact getElem?_mark_same (ht.reached i hi (lt_of_lt_of_le hi hback))

theorem Tracked.passed_note (ht : m.Tracked h) (hlg : m.leg = some lg) (hstate : m.state = .sense) :
    (m.note lg).Passed h := by
  obtain ⟨hout, hreached⟩ := ht.stopped (.inr hstate)
  have hdetected : (m.note lg).detected.length = m.p.waypoints.length ∧ ∀ i < m.p.waypoints.length, ∃ id,
      (m.note lg).detected[i]? = some id ∧ (id = -1 ∨ tagMatches (m.p.tagOf i) id = true ∧ (i, id) ∈ h.reports) := by
    unfold note
    cases hbest : m.best with
    | none => exact ⟨ht.lengths.2, ht.detected⟩
    | some id =>
      obtain ⟨-, n, -, hmem, -⟩ := bestOf_eq_some_iff.mp hbest
      rw [(ht.leg_out hlg hout).1]
      refine ⟨length_mark.trans ht.lengths.2, fun i hi => ?_⟩
      by_cases heq : i = m.li
      · rw [heq]
        exact ⟨id, getElem?_mark_self (by rw [ht.lengths.2]; exact hout), .inr (ht.counted hstate _ hmem)⟩
      · obtain ⟨old, hold, hcases⟩ := ht.detected i hi
        exact ⟨old, (getElem?_mark_of_ne (by omega)).trans hold, hcases⟩
  refine ⟨ht.legs, ht.within, ht.completed, ?_, ⟨ht.lengths.1, hdetected.1⟩, fun i hi hle => ?_, hdetected.2⟩
  · rw [ht.dwells, hstate]
    rfl
  rcases Nat.lt_or_eq_of_le hle with hlt | heq
  · exact ht.reached i hi hlt
  · rw [heq]
    exact hreached

theorem mem_foldl_bump {tag : Int} {dets : List (Detection K)} {e : Int × Nat}
    (he : e ∈ dets.foldl (bump tag) counts) :
    (∃ e' ∈ counts, e'.1 = e.1) ∨ tagMatches tag e.1 = true ∧ e.1 ∈ dets.map (·.id) := by
  induction dets generalizing counts with
  | nil => exact .inl ⟨e, he, rfl⟩
  | cons d dets ih =>
    rcases ih he with ⟨e', he', heq⟩ | ⟨hmatch, hmem⟩
    · unfold bump at he'
      split at he'
      · exact .inl ⟨e', he', heq⟩
      rename_i hmatch
      rcases List.mem_append.mp he' with he' | he'
      · exact .inl ⟨e', (List.mem_filter.mp he').1, heq⟩
      · rw [List.mem_singleton.mp he'] at heq
        rw [← heq]
        exact .inr ⟨by simpa using hmatch, List.mem_cons_self⟩
    · exact .inr ⟨hmatch, List.mem_cons_of_mem _ hmem⟩

theorem Tracked.reach_scan (ht : m.Tracked h) (hlg : m.leg = some lg) (hstate : m.state = .transit)
    (hsense : lg.sense = true) : (m.reach lg).scan.Tracked h := by
  have hout := (ht.leg_sense hlg).mp hsense
  have hdwells := ht.dwells
  rw [hstate] at hdwells
  refine ⟨ht.legs, ht.within, ht.completed, hdwells, fun _ => ⟨hout, ?_⟩, ⟨length_mark.trans ht.lengths.1, ht.lengths.2⟩,
    fun i hi hlt => getElem?_mark_same (ht.reached i hi hlt), ht.detected, nofun⟩
  change (mark m.reached lg.wpIndex true)[m.li]? = some true
  rw [(ht.leg_out hlg hout).1]
  exact getElem?_mark_self (by rw [ht.lengths.1]; exact hout)

theorem Tracked.begin_dwell (ht : m.Tracked h) (hstate : m.state = .scan) :
    m.dwell.Tracked { h with dwells := h.dwells ++ [m.li] } := by
  have hstop := ht.stopped (.inl hstate)
  refine ⟨ht.legs, ht.within, ht.completed, ?_, fun _ => hstop, ht.lengths, ht.reached, ht.detected, fun _ e he => ?_⟩
  · have hdwells := ht.dwells
    rw [hstate] at hdwells
    change h.dwells = List.range (min m.p.waypoints.length (m.li + 0)) at hdwells
    change h.dwells ++ [m.li] = List.range (min m.p.waypoints.length (m.li + 1))
    rw [hdwells, Nat.min_eq_right (by omega), Nat.min_eq_right (by omega), Nat.add_zero, List.range_succ]
  · cases he

theorem Tracked.count (ht : m.Tracked h) (hlg : m.leg = some lg)
    (hstate : m.state = .sense) (hcounts : m.counts = some counts) (dets : List (Detection K)) :
    ({ m with counts := some (dets.foldl (bump lg.tag) counts) } : Mission K).Tracked
      { h with reports := h.reports ++ (dets.map (·.id)).map fun id => (m.li, id) } := by
  obtain ⟨hout, -⟩ := ht.stopped (.inr hstate)
  refine ⟨ht.legs, ht.within, ht.completed, ht.dwells, ht.stopped, ht.lengths, ht.reached, fun i hi => ?_, fun _ e he => ?_⟩
  · obtain ⟨id, hid, hcases⟩ := ht.detected i hi
    exact ⟨id, hid, hcases.imp_right fun hold => ⟨hold.1, List.mem_append_left _ hold.2⟩⟩
  rcases mem_foldl_bump he with ⟨e', he', heq⟩ | ⟨hmatch, hmem⟩
  · have hold := ht.counted hstate e' (by rw [hcounts]; exact he')
    rw [heq] at hold
    exact ⟨hold.1, List.mem_append_left _ hold.2⟩
  · rw [(ht.leg_out hlg hout).2] at hmatch
    exact ⟨hmatch, List.mem_append_right _ (List.mem_map.mpr ⟨e.1, hmem, rfl⟩)⟩

theorem not_idle_of_active (h : m.Active) : m.state ≠ .idle := by
  intro heq
  rcases h with hs | hs | hs <;> cases heq.symm.trans hs

theorem tracked_same {m' : Mission K} (ht : m.Active → m.Tracked h) (hli : m'.li = m.li) (hstate : m'.state = m.state)
    (hreported : m.state = .sense → reported c = []) (hkeep : ∀ h', m.Tracked h' → m'.Tracked h') :
    (m'.Active → m'.Tracked (h.record m c m')) ∧ (m.state ≠ .done → m'.state = .done → m'.Ended (h.record m c m')) := by
  refine ⟨fun hactive => ?_, fun hne heq => absurd (hstate.symm.trans heq) hne⟩
  have hactive : m.Active := by
    unfold Active at hactive ⊢
    rwa [hstate] at hactive
  rw [record_same (not_idle_of_active hactive) hli (fun hs => hstate.symm.trans hs) hreported]
  exact hkeep h (ht hactive)

theorem tracked_left (now : Time) (hactive : m.Active) (hli : r.li = m.li) (hpassed : r.Passed h) :
    (r.advance.Active → r.advance.Tracked (h.record m (.tick now) r.advance)) ∧
      (m.state ≠ .done → r.advance.state = .done → r.advance.Ended (h.record m (.tick now) r.advance)) := by
  rw [record_advance now (not_idle_of_active hactive) hli, ← hli]
  exact ⟨hpassed.tracked, fun _ => hpassed.ended⟩

theorem tracked_step (ht : m.Active → m.Tracked h) (hstep : Step m c m') :
    (m'.Active → m'.Tracked (h.record m c m')) ∧ (m.state ≠ .done → m'.state = .done → m'.Ended (h.record m c m')) := by
  cases hstep with
  | @stay c hc =>
    refine tracked_same ht rfl rfl (fun _ => ?_) fun _ h' => h'
    cases c with
    | onDetections dets now => cases hc
    | _ => rfl
  | onMode mode now => exact tracked_same ht rfl rfl (fun _ => rfl) fun _ h' => { h' with }
  | arm now hstate hp =>
    have hrecord : h.record m (.onMode .autonomous now) ({ m with mode := .autonomous, lastModeAt := now } : Mission K).armed = {} :=
      if_pos ⟨hstate, rfl⟩
    rw [hrecord]
    exact ⟨fun _ => tracked_armed hp, fun _ hdone => by cases hdone⟩
  | reload wps tags tags' start now hstate =>
    exact ⟨fun hactive => (by rcases hactive with hs | hs | hs <;> cases hs), fun _ hdone => by cases hdone⟩
  | reset now hstate => exact ⟨fun hactive => (by rcases hactive with hs | hs | hs <;> cases hs), fun _ hdone => by cases hdone⟩
  | @reachScan now lg hstate hlg hsense =>
    have hrecord : h.record m (.tick now) (m.reach lg).scan = h :=
      record_same (not_idle_of_active (.inl hstate)) rfl (fun hs => by cases hs) fun _ => rfl
    rw [hrecord]
    exact ⟨fun _ => (ht (.inl hstate)).reach_scan hlg hstate hsense, fun _ hdone => by cases hdone⟩
  | @reachSense now lg hstate hlg hsense =>
    have hscan := (ht (.inl hstate)).reach_scan hlg hstate hsense
    have hrecord : h.record m (.tick now) (m.reach lg).dwell = { h with dwells := h.dwells ++ [m.li] } :=
      record_dwell (not_idle_of_active (.inl hstate)) (by rw [hstate]; decide) rfl rfl
    rw [hrecord]
    exact ⟨fun _ => { hscan.begin_dwell rfl with }, fun _ hdone => by cases hdone⟩
  | pass now hstate hlg hsense => exact tracked_left now (.inl hstate) rfl ((ht (.inl hstate)).passed_reach hlg hstate hsense)
  | turn now hstate => exact tracked_same ht rfl rfl (fun _ => rfl) fun _ h' => { h' with }
  | find now hstate =>
    have hrecord : h.record m (.tick now) m.dwell = { h with dwells := h.dwells ++ [m.li] } :=
      record_dwell (not_idle_of_active (.inr (.inl hstate))) (by rw [hstate]; decide) rfl rfl
    rw [hrecord]
    exact ⟨fun _ => (ht (.inr (.inl hstate))).begin_dwell hstate, fun _ hdone => by cases hdone⟩
  | overlook dets now hstate => exact tracked_same ht rfl rfl (fun hs => absurd hs hstate) fun _ h' => h'
  | @count dets now lg counts hstate hlg hcounts =>
    have hactive : m.Active := .inr (.inr hstate)
    have hrecord : h.record m (.onDetections dets now) { m with counts := some (dets.foldl (bump lg.tag) counts) } =
        { h with reports := h.reports ++ (dets.map (·.id)).map fun id => (m.li, id) } := by
      rw [History.record, if_neg fun hc => not_idle_of_active hactive hc.1, if_neg (lt_irrefl _), if_neg fun hc => hc.1 hc.2,
        if_pos hstate]
      rfl
    rw [hrecord]
    exact ⟨fun _ => (ht hactive).count hlg hstate hcounts dets, fun hne hdone => absurd hdone hne⟩
  | leave now hstate hlg => exact tracked_left now (.inr (.inr hstate)) rfl ((ht (.inr (.inr hstate))).passed_note hlg hstate)

section Dwell

variable {tag : Int} {ids : List Int} {counts : List (Int × Nat)} {lg : Leg K}

/-- The counts are those of the matching sightings. -/
def Tally (tag : Int) (ids : List Int) (counts : List (Int × Nat)) : Prop :=
  ∀ id n, (id, n) ∈ counts ↔ n = sightings tag ids id ∧ 0 < n

theorem Tally.lookup (h : Tally tag ids counts) (id : Int) : (counts.lookup id).getD 0 = sightings tag ids id := by
  cases hlookup : counts.lookup id with
  | none =>
    by_contra hne
    have hmem := (h id _).mpr ⟨rfl, Nat.pos_of_ne_zero (Ne.symm hne)⟩
    simpa using List.lookup_eq_none_iff.mp hlookup _ hmem
  | some n =>
    obtain ⟨before, after, hsplit, -⟩ := List.lookup_eq_some_iff.mp hlookup
    exact ((h id n).mp (by simp [hsplit])).1

theorem Tally.bump (h : Tally tag ids counts) (d : Detection K) : Tally tag (ids ++ [d.id]) (bump tag counts d) := by
  intro id n
  rw [Mission.bump, h.lookup, show sightings tag (ids ++ [d.id]) id = _ from List.countP_append, List.countP_singleton, ← sightings]
  by_cases hmatch : tagMatches tag d.id = true
  · by_cases hid : d.id = id
    · subst hid
      simp [hmatch]
      omega
    · simp [hmatch, hid, Ne.symm hid, h id n]
  · simp [hmatch, h id n]

theorem Tally.count (h : Tally tag ids counts) (dets : List (Detection K)) :
    Tally tag (ids ++ dets.map (·.id)) (dets.foldl (Mission.bump tag) counts) := by
  induction dets generalizing ids counts with
  | nil => simpa using h
  | cons d dets ih => simpa using ih (h.bump d)

structure Dwelling (lg : Leg K) (ids : List Int) (m : Mission K) : Prop where
  state : m.state = .sense
  leg : m.leg = some lg
  counts : ∃ counts, m.counts = some counts ∧ Tally lg.tag ids counts

theorem Dwelling.step (h : m.Dwelling lg ids) (hstep : Step m c m') (hlasts : m'.state = .sense) :
    m'.Dwelling lg (ids ++ reported c) := by
  have hstate := h.state
  cases hstep with
  | stay hc =>
    cases c with
    | onDetections => cases hc
    | _ => simpa [reported] using h
  | onMode mode now => exact ⟨hstate, h.leg, by simpa [reported] using h.counts⟩
  | count dets now _ hlg hcounts =>
    cases hlg.symm.trans h.leg
    obtain ⟨counts, hcounts', htally⟩ := h.counts
    cases hcounts.symm.trans hcounts'
    exact ⟨hstate, h.leg, _, rfl, htally.count dets⟩
  | leave now _ hlg => exact absurd hlasts advance_ne_sense
  | overlook dets now hother => exact absurd hstate hother
  | _ => simp_all

theorem dwelling_of_step (hready : m.Ready) (hbefore : m.state ≠ .sense) (hstep : Step m c m') (hsense : m'.state = .sense) :
    ∃ lg, m'.Dwelling lg [] := by
  have hlg : ∃ lg, m'.leg = some lg :=
    ⟨_, List.getElem?_eq_getElem ((hready.step hstep).within (.inr (.inr hsense)))⟩
  obtain ⟨lg, hlg⟩ := hlg
  refine ⟨lg, hsense, hlg, [], ?_, by simp [Tally, sightings]⟩
  cases hstep with
  | reachSense => rfl
  | find => rfl
  | pass => exact absurd hsense advance_ne_sense
  | _ => simp_all [armed, reloaded, reach, scan]

theorem best_of_tally (h : Tally tag ids counts) (hids : ∀ id ∈ ids, 0 ≤ id) :
    (bestOf counts = none ↔ ∀ id ∈ ids, tagMatches tag id = false) ∧
      ∀ id, bestOf counts = some id → 0 < sightings tag ids id ∧
        ∀ id', sightings tag ids id' ≤ sightings tag ids id ∧ (sightings tag ids id' = sightings tag ids id → id ≤ id') := by
  have hseen (id : Int) (hmem : id ∈ ids) (hmatch : tagMatches tag id = true) : (id, sightings tag ids id) ∈ counts :=
    (h id _).mpr ⟨rfl, List.countP_pos_iff.mpr ⟨id, hmem, by simpa using hmatch⟩⟩
  have hfrom (e : Int × Nat) (he : e ∈ counts) : e.1 ∈ ids ∧ tagMatches tag e.1 = true := by
    obtain ⟨heq, hpos⟩ := (h e.1 e.2).mp he
    obtain ⟨id, hmem, hid⟩ := List.countP_pos_iff.mp (heq ▸ hpos)
    rw [Bool.and_eq_true, decide_eq_true_eq] at hid
    exact hid.2 ▸ ⟨hmem, hid.1⟩
  constructor
  · obtain ⟨hbest, hall⟩ := bestSeen_spec counts
    rw [bestOf, ite_eq_right_iff]
    constructor
    · intro hnone id hmem
      by_contra hmatch
      have hin := hseen id hmem (Bool.eq_true_of_not_eq_false hmatch)
      have hpos := ((h id _).mp hin).2
      have hle := (hall _ hin).1
      rcases hbest with hzero | ⟨hmost, -⟩
      · rw [hzero] at hle
        omega
      · cases hnone (hids _ (hfrom _ hmost).1)
    · intro hnone hnonneg
      rcases hbest with hzero | ⟨hmost, -⟩
      · rw [hzero] at hnonneg
        cases hnonneg
      · cases (hnone _ (hfrom _ hmost).1).symm.trans (hfrom _ hmost).2
  · intro id hid
    obtain ⟨-, n, hpos, hmem, hall⟩ := bestOf_eq_some_iff.mp hid
    obtain ⟨rfl, -⟩ := (h id n).mp hmem
    refine ⟨hpos, fun id' => ?_⟩
    rcases Nat.eq_zero_or_pos (sightings tag ids id') with hzero | hpos'
    · omega
    · exact hall _ ((h id' _).mpr ⟨rfl, hpos'⟩)

end Dwell

end Mission

/-! ### The line drawn -/

/-- The line drawn for a mission goes through the targets of its legs: out to every waypoint and, with `ReturnHome`, back over the others to the start. -/
theorem planned_matches_legs (p : Params K) (h : p.waypoints ≠ []) :
    buildPlanned p = (p.start.x, p.start.y) :: (buildLegs p).map (fun lg => (lg.target.x, lg.target.y)) ∧
      (buildLegs p).length = (if p.returnHome then 2 else 1) * p.waypoints.length ∧
      (buildLegs p).map (·.wpIndex) = (List.range p.waypoints.length).map Int.ofNat ++
        if p.returnHome then (List.range (p.waypoints.length - 1)).reverse.map Int.ofNat ++ [-1] else [] := by
  have hpos := List.length_pos_iff.mpr h
  have hxy (wps : List (Vec K × Nat)) : wps.map (fun wp => (wp.1.x, wp.1.y)) = (wps.map Prod.fst).map fun wp => (wp.x, wp.y) := by
    simp
  have hindex (wps : List (Vec K × Nat)) : wps.map (fun wp => (wp.2 : Int)) = (wps.map Prod.snd).map Int.ofNat := by simp
  have hback (n : Nat) : (List.range n).dropLast = List.range (n - 1) := by cases n <;> simp [List.range_succ]
  unfold buildPlanned buildLegs
  cases p.returnHome with
  | false => simp [Params.legTo, Function.comp_def, hxy, hindex, ← List.range_eq_range']
  | true =>
    simp only [Params.legTo, List.map_append, List.map_map, Function.comp_def, hxy, hindex, List.map_reverse, List.map_dropLast,
      List.zipIdx_map_fst, List.zipIdx_map_snd, ← List.range_eq_range', if_true, List.length_append]
    simp [h]
    refine ⟨⟨rfl, rfl⟩, by omega, ?_⟩
    rw [← List.map_dropLast, hback]

def Params.around : Params ℚ := { Params.ahead with waypoints := [⟨1, 0⟩, ⟨1, 1⟩, ⟨0, 1⟩] }

theorem planned_matches_legs_around : (buildLegs Params.around).map (·.wpIndex) = [0, 1, 2, 1, 0, -1] :=
  (planned_matches_legs Params.around (List.cons_ne_nil _ _)).2.2

/-! ### Runs under observation -/

variable [Field K] [LinearOrder K] [IsStrictOrderedRing K] [FloorSemiring K]

def watch (M : MathPackage K) (fixed2 : K → String) (w : Engine K × History) (c : Call K) : Option (Engine K × History) :=
  (w.1.next M fixed2 c).map fun e => (e, w.2.record w.1.mission c e.mission)

section Watch

variable {M : MathPackage K} {fixed2 : K → String} {w w' : Engine K × History} {c : Call K}

theorem step_of_watch (hready : w.1.mission.Ready) (hwatch : watch M fixed2 w c = some w') :
    Mission.Step w.1.mission c w'.1.mission ∧ w'.2 = w.2.record w.1.mission c w'.1.mission := by
  obtain ⟨e, hnext, rfl⟩ := Option.map_eq_some_iff.mp hwatch
  exact ⟨step_of_next hready hnext, rfl⟩

theorem tracked_run {p : Params K} {calls : List (Call K)} (hrun : Run (Takes (watch M fixed2)) (new p, {}) calls w) :
    w.1.mission.Ready ∧ (w.1.mission.Active → w.1.mission.Tracked w.2) := by
  refine hrun.invariant (fun w => w.1.mission.Ready ∧ (w.1.mission.Active → w.1.mission.Tracked w.2))
    (fun w c w' hw hwatch => ?_) ⟨ready_new p, fun hactive => ?_⟩
  · obtain ⟨hstep, hrecord⟩ := step_of_watch hw.1 hwatch
    refine ⟨hw.1.step hstep, ?_⟩
    rw [hrecord]
    exact (Mission.tracked_step hw.2 hstep).1
  · rcases hactive with hstate | hstate | hstate <;> cases hstate

end Watch

/-- Whenever a call ends a mission: since it was armed, the legs that `buildLegs` gives were left in their order, each once; every waypoint was reached and had one dwell, on its way out, and the way back had none; and what is kept for a waypoint is nothing, or an id that matches its tag and was reported during its own dwell. -/
theorem mission_complete (M : MathPackage K) (fixed2 : K → String) (p : Params K) (calls : List (Call K)) (e e' : Engine K)
    (h h' : History) (c : Call K) (hrun : Run (Takes (watch M fixed2)) (new p, {}) calls (e, h))
    (hcall : watch M fixed2 (e, h) c = some (e', h')) (hbefore : e.state ≠ .done) (hdone : e'.state = .done) :
    e'.legs = buildLegs e'.p ∧ h'.completed = List.range e'.legs.length ∧
      e'.wpReached = List.replicate e'.p.waypoints.length true ∧
      h'.dwells = List.range e'.p.waypoints.length ∧
      (∀ i lg, e'.legs[i]? = some lg → (lg.sense = true ↔ i < e'.p.waypoints.length) ∧ (lg.sense = true → lg.wpIndex = (i : Int))) ∧
      ∀ i < e'.p.waypoints.length, ∃ id, e'.wpDetected[i]? = some id ∧
        (id = -1 ∨ tagMatches (e'.p.tagOf i) id = true ∧ (i, id) ∈ h'.reports) := by
  obtain ⟨hready, htracked⟩ := tracked_run hrun
  obtain ⟨hstep, hrecord⟩ := step_of_watch hready hcall
  have hended := (Mission.tracked_step htracked hstep).2 hbefore hdone
  rw [← hrecord] at hended
  refine ⟨hended.legs, hended.completed, hended.reached, hended.dwells, fun i lg hlg => ?_, hended.detected⟩
  have hlg : (buildLegs e'.p)[i]? = some lg := hended.legs ▸ hlg
  have hsense := sense_iff hlg
  refine ⟨hsense, fun hs => ?_⟩
  rw [legs_out (hsense.mp hs)] at hlg
  rw [← Option.some.inj hlg]
  rfl

def Params.atStart : Params ℚ := { Params.ahead with waypoints := [⟨0, 0⟩], senseDwell := Survey.milliseconds 1000 }

def atStartCalls : List (Call ℚ) :=
  [.onMode .autonomous 1, .tick (milliseconds 50), .onDetections [⟨7, 0, 0, milliseconds 60⟩] (milliseconds 60),
    .tick (milliseconds 100), .onDetections [⟨7, 0, 0, milliseconds 160⟩] (milliseconds 160), .tick (milliseconds 1200)]

theorem mission_complete_atStart :
    ∃ e h e' h', Run (Takes (watch .flat toString)) (new .atStart, {}) atStartCalls (e, h) ∧
      watch .flat toString (e, h) (.tick (milliseconds 1250)) = some (e', h') ∧ e'.state = .done ∧
      h'.completed = [0, 1] ∧ h'.dwells = [0] ∧ e'.wpReached = [true] ∧ e'.wpDetected = [7] ∧ (0, 7) ∈ h'.reports := by
  have hends : ((atStartCalls.foldlM (watch .flat toString) (new .atStart, {})).bind fun w =>
      (watch .flat toString w (.tick (milliseconds 1250))).map fun w' =>
        (w.1.state, w'.1.state, w'.1.legs.length, w'.1.p.waypoints.length, w'.1.wpDetected)) =
      some (.transit, .done, 2, 1, [7]) := by decide +kernel
  obtain ⟨⟨e, h⟩, hfold, hends⟩ := Option.bind_eq_some_iff.mp hends
  obtain ⟨⟨e', h'⟩, hcall, hends⟩ := Option.map_eq_some_iff.mp hends
  simp only [Prod.mk.injEq] at hends
  obtain ⟨hbefore, hdone, hlegs, hwaypoints, hfound⟩ := hends
  have hrun : Run (Takes (watch .flat toString)) (new .atStart, {}) atStartCalls (e, h) := run_takes_iff.mpr hfold
  obtain ⟨-, hcompleted, hreached, hdwells, -, hdetected⟩ :=
    mission_complete .flat toString .atStart atStartCalls e e' h h' _ hrun hcall (by rw [hbefore]; decide) hdone
  rw [hlegs] at hcompleted
  rw [hwaypoints] at hreached hdwells hdetected
  obtain ⟨id, hid, hcases⟩ := hdetected 0 Nat.one_pos
  rw [hfound] at hid
  cases hid
  exact ⟨e, h, e', h', hrun, hcall, hdone, hcompleted, hdwells, hreached, hfound, (hcases.resolve_left (by decide)).2⟩

/-! ### Dwells -/

/-- A call during a dwell that does not end it. -/
def sensing (M : MathPackage K) (fixed2 : K → String) (e : Engine K) (c : Call K) : Option (Engine K) :=
  (e.next M fixed2 c).filter (·.state = .sense)

theorem dwelling_run {M : MathPackage K} {fixed2 : K → String} {e e' : Engine K} {calls : List (Call K)} {lg : Leg K}
    {ids : List Int} (hready : e.mission.Ready) (hdwelling : e.mission.Dwelling lg ids)
    (hrun : Run (Takes (sensing M fixed2)) e calls e') :
    e'.mission.Dwelling lg (ids ++ calls.flatMap reported) := by
  induction hrun generalizing ids with
  | nil => simpa using hdwelling
  | cons hfirst _ ih =>
    obtain ⟨hnext, hlasts⟩ := Option.filter_eq_some_iff.mp hfirst
    have hstep := step_of_next hready hnext
    simpa using ih (hready.step hstep) (hdwelling.step hstep (of_decide_eq_true hlasts))

/-- Along a dwell, the counts are the numbers of matching sightings; and in whatever order the loop of `senseBest` visits them, it finds the lowest of the ids that were seen most often, or none if none has matched. -/
theorem dwell_winner (M : MathPackage K) (fixed2 : K → String) (p : Params K) {before calls : List (Call K)} {c : Call K}
    {e₀ e e' : Engine K} (hrun : Run (Takes (next M fixed2)) (new p) before e₀) (hbefore : e₀.state ≠ .sense)
    (henter : e₀.next M fixed2 c = some e) (hsense : e.state = .sense)
    (hdwell : Run (Takes (sensing M fixed2)) e calls e')
    (hids : ∀ id ∈ calls.flatMap reported, 0 ≤ id) :
    ∃ lg counts, e'.leg = some lg ∧ e'.senseCounts = some counts ∧
      (∀ id, (counts.lookup id).getD 0 = sightings lg.tag (calls.flatMap reported) id) ∧
      ∀ order, order.Perm counts →
        (bestOf order = none ↔ ∀ id ∈ calls.flatMap reported, tagMatches lg.tag id = false) ∧
        ∀ id, bestOf order = some id → 0 < sightings lg.tag (calls.flatMap reported) id ∧
          ∀ id', sightings lg.tag (calls.flatMap reported) id' ≤ sightings lg.tag (calls.flatMap reported) id ∧
            (sightings lg.tag (calls.flatMap reported) id' = sightings lg.tag (calls.flatMap reported) id → id ≤ id') := by
  have hready := ready_run hrun
  have hstep := step_of_next hready henter
  obtain ⟨lg, hfresh⟩ := Mission.dwelling_of_step hready hbefore hstep hsense
  obtain ⟨-, hlg, counts, hcounts, htally⟩ := dwelling_run (hready.step hstep) hfresh hdwell
  refine ⟨lg, counts, hlg, hcounts, htally.lookup, fun order horder => ?_⟩
  rw [bestOf_perm horder]
  exact Mission.best_of_tally htally hids

def twoSeen : List (Call ℚ) := [.onDetections [⟨7, 0, 0, 0⟩, ⟨4, 0, 0, 0⟩] (milliseconds 160)]

theorem dwell_winner_twoSeen :
    ∃ (e e' : Engine ℚ) (counts : List (Int × Nat)), e.state = .sense ∧ Run (Takes (sensing .flat toString)) e twoSeen e' ∧
      e'.senseCounts = some counts ∧ (counts.lookup 4).getD 0 = 1 ∧ bestOf counts.reverse ≠ none := by
  have hends : ((atStartCalls.take 3).foldlM (next .flat toString) (new .atStart)).bind (fun e₀ =>
      (e₀.next .flat toString (.tick (milliseconds 100))).bind fun e =>
        (twoSeen.foldlM (sensing .flat toString) e).map fun e' => (e₀.state, e.state, e'.leg.map (·.tag))) =
      some (.scan, .sense, some tagAny) := by decide +kernel
  obtain ⟨e₀, hfold, hends⟩ := Option.bind_eq_some_iff.mp hends
  obtain ⟨e, henter, hends⟩ := Option.bind_eq_some_iff.mp hends
  obtain ⟨e', hcalls, hends⟩ := Option.map_eq_some_iff.mp hends
  simp only [Prod.mk.injEq] at hends
  obtain ⟨hbefore, hsense, htag⟩ := hends
  have hdwell := run_takes_iff.mpr hcalls
  obtain ⟨lg, counts, hlg, hcounts, hlookup, hbest⟩ := dwell_winner .flat toString .atStart (run_takes_iff.mpr hfold)
    (by rw [hbefore]; decide) henter hsense hdwell (by decide)
  have htag : lg.tag = tagAny := by simpa [hlg] using htag
  rw [htag] at hlookup hbest
  refine ⟨e, e', counts, hsense, hdwell, hcounts, hlookup 4, fun hnone => ?_⟩
  have hmatches := (hbest _ counts.reverse_perm).1.mp hnone 4 (by decide)
  exact absurd hmatches (by decide)

end Waypoint.Survey
