import Waypoint.Agent.Recorder.Camera
import Waypoint.Base.AnnexB
import Waypoint.Base.Run

/-!
# The access units of a camera

What the fanout goroutine hands to a tap that is registered from before the first NAL unit to the end of the stream: the NAL units fall into groups, a new one with each access unit delimiter, and each group is one access unit, with the flag that an IDR slice is in it.
-/

namespace Waypoint.Agent.Recorder

open Base

def isAUD (nal : List UInt8) : Bool := nal.head?.map (· &&& 0x1f) == some Camera.nalTypeAUD

def isIDR (nal : List UInt8) : Bool := nal.head?.map (· &&& 0x1f) == some Camera.nalTypeIDR

/-- A delimiter opens a group, as does the first NAL unit. -/
def addNal (gs : List (List (List UInt8))) (nal : List UInt8) : List (List (List UInt8)) :=
  if isAUD nal ∨ gs = [] then gs ++ [[nal]] else gs.dropLast ++ [gs.getLastD [] ++ [nal]]

def groups (nals : List (List UInt8)) : List (List (List UInt8)) := nals.foldl addNal []

theorem groups_concat (nals : List (List UInt8)) (nal : List UInt8) : groups (nals ++ [nal]) = addNal (groups nals) nal := by
  rw [groups, List.foldl_append]
  rfl

/-- A delimiter stands at the beginning of every group but the first, and nowhere else in any. -/
structure Delimited (gs : List (List (List UInt8))) : Prop where
  nonempty : [] ∉ gs
  starts : ∀ g ∈ gs.tail, ∃ nal ∈ g.head?, isAUD nal = true
  single : ∀ g ∈ gs, ∀ nal ∈ g.tail, isAUD nal = false

variable {gs : List (List (List UInt8))} {nal : List UInt8}

theorem addNal_cases (h : [] ∉ gs) (nal : List UInt8) :
    (addNal gs nal = gs ++ [[nal]] ∧ (isAUD nal = true ∨ gs = [])) ∨
      ∃ init g, gs = init ++ [g] ∧ g ≠ [] ∧ isAUD nal = false ∧ addNal gs nal = init ++ [g ++ [nal]] := by
  by_cases hopen : isAUD nal = true ∨ gs = []
  · exact .inl ⟨if_pos hopen, hopen⟩
  rcases List.eq_nil_or_concat' gs with rfl | ⟨init, g, rfl⟩
  · exact absurd (.inr rfl) hopen
  refine .inr ⟨init, g, rfl, ?_, by simpa using hopen, ?_⟩
  · rintro rfl
    exact h (List.mem_append_right _ List.mem_cons_self)
  · rw [addNal, if_neg hopen, List.dropLast_concat, List.getLastD_concat]

theorem Delimited.addNal (h : Delimited gs) (nal : List UInt8) :
    Delimited (addNal gs nal) := by
  rcases addNal_cases h.nonempty nal with ⟨heq, hopen⟩ | ⟨init, g, rfl, hg, haud, heq⟩
  · rw [heq]
    refine ⟨by simpa using h.nonempty, fun g hg => ?_, fun g hg => ?_⟩
    · cases gs with
      | nil => cases hg
      | cons first rest =>
        rcases List.mem_append.mp hg with hg | hg
        · exact h.starts g hg
        · refine ⟨nal, ?_, hopen.resolve_right (List.cons_ne_nil _ _)⟩
          rw [List.mem_singleton.mp hg]
          rfl
    · rcases List.mem_append.mp hg with hg | hg
      · exact h.single g hg
      · rw [List.mem_singleton.mp hg]
        simp
  · rw [heq]
    obtain ⟨first, rest, rfl⟩ := List.exists_cons_of_ne_nil hg
    refine ⟨by simpa using h.nonempty, fun k hk => ?_, fun k hk n hn => ?_⟩
    · cases init with
      | nil => cases hk
      | cons i init =>
        rcases List.mem_append.mp hk with hk | hk
        · exact h.starts k (List.mem_append_left _ hk)
        · obtain ⟨n, hn, haud⟩ := h.starts (first :: rest) (List.mem_append_right _ List.mem_cons_self)
          rw [List.mem_singleton.mp hk]
          exact ⟨n, hn, haud⟩
    · rcases List.mem_append.mp hk with hk | hk
      · exact h.single k (List.mem_append_left _ hk) n hn
      rw [List.mem_singleton.mp hk, List.cons_append, List.tail_cons, List.mem_append] at hn
      rcases hn with hn | hn
      · exact h.single _ (List.mem_append_right _ List.mem_cons_self) n hn
      · rw [List.mem_singleton.mp hn]
        exact haud

theorem delimited_groups (nals : List (List UInt8)) : Delimited (groups nals) := by
  induction nals using List.reverseRecOn with
  | nil => exact ⟨List.not_mem_nil, fun g hg => absurd hg List.not_mem_nil, fun g hg => absurd hg List.not_mem_nil⟩
  | append_singleton nals nal ih =>
    rw [groups_concat]
    exact ih.addNal nal

theorem flatten_groups (nals : List (List UInt8)) : (groups nals).flatten = nals := by
  induction nals using List.reverseRecOn with
  | nil => rfl
  | append_singleton nals nal ih =>
    rw [groups_concat]
    rcases addNal_cases (delimited_groups nals).nonempty nal with ⟨heq, -⟩ | ⟨init, g, hgs, -, -, heq⟩
    · rw [heq, List.flatten_append, ih]
      rfl
    · rw [hgs] at ih
      rw [heq, ← ih]
      simp

def lastGroup (nals : List (List UInt8)) : List (List UInt8) := (groups nals).getLastD []

variable {nals : List (List UInt8)}

theorem groups_join (h : isAUD nal = false) :
    lastGroup (nals ++ [nal]) = lastGroup nals ++ [nal] ∧ (groups (nals ++ [nal])).dropLast = (groups nals).dropLast := by
  unfold lastGroup
  rw [groups_concat]
  rcases addNal_cases (delimited_groups nals).nonempty nal with ⟨heq, hopen⟩ | ⟨init, g, hgs, -, -, heq⟩
  · have hnil : groups nals = [] := hopen.resolve_left (by simp [h])
    rw [heq, hnil]
    exact ⟨rfl, rfl⟩
  · rw [heq, hgs]
    simp

theorem groups_open (h : isAUD nal = true) :
    groups (nals ++ [nal]) = groups nals ++ [[nal]] := by
  rw [groups_concat, addNal, if_pos (.inl h)]

theorem lastGroup_eq_nil_iff : lastGroup nals = [] ↔ groups nals = [] := by
  rcases List.eq_nil_or_concat' (groups nals) with hnil | ⟨init, g, hgs⟩
  · simp [lastGroup, hnil]
  have hg : g ≠ [] := by
    rintro rfl
    exact (delimited_groups nals).nonempty (hgs ▸ List.mem_append_right _ List.mem_cons_self)
  simp [lastGroup, hgs, hg]

inductive CameraAction
  | addTap (tap : Tap)
  | removeTap (id : Nat)
  | stop
  | receive (nal : Option (List UInt8))
  | cancel
  | call (tap : Tap) (passes : Bool)
  | leave
  | flushed
  deriving DecidableEq

namespace Camera

def next (c : Camera) : CameraAction → Option Camera
  | .addTap tap => some (c.addTap tap)
  | .removeTap id => some (c.removeTap id)
  | .stop => some { c with cancelled := true }
  | .receive nal => c.receive nal
  | .cancel => c.cancel
  | .call tap passes => c.enter tap passes
  | .leave => if c.fanout.inside.isSome then some c.leave else none
  | .flushed => c.flushed

end Camera

def CameraAction.nal? : CameraAction → Option (List UInt8)
  | .receive nal => nal
  | _ => none

def CameraAction.unit? (tap : Tap) (c : Camera) : CameraAction → Option (List UInt8 × Bool)
  | .call tap' _ => if tap' = tap then some (c.au, c.keyframe) else none
  | _ => none

def received (es : List CameraAction) : List (List UInt8) := es.filterMap CameraAction.nal?

def handed (tap : Tap) : Camera → List CameraAction → List (List UInt8 × Bool)
  | _, [] => []
  | c, e :: es => (e.unit? tap c).toList ++ ((c.next e).map fun c' => handed tap c' es).getD []

def accessUnit (g : List (List UInt8)) : List UInt8 × Bool := (g.flatMap (Camera.startCode4 ++ ·), g.any isIDR)

/-- The tap is registered once. -/
structure Camera.Sole (id : Nat) (tap : Tap) (c : Camera) : Prop where
  registered : c.taps.lookup id = some tap
  once : ∀ k, c.taps.lookup k = some tap → k = id
  fresh : id < c.nextTap

/-- What the tap has been given of the stream so far. -/
def Camera.Handing (tap : Tap) (nals : List (List UInt8)) (units : List (List UInt8 × Bool)) (closed : Bool) (c : Camera) : Prop :=
  match c.fanout with
  | .waiting =>
    closed = false ∧ (c.au, c.keyframe) = accessUnit (lastGroup nals) ∧ units = (groups nals).dropLast.map accessUnit
  | .flushing taps _ nal =>
    ∃ before, nals = before ++ nal.toList ∧ groups before ≠ [] ∧ (∀ n ∈ nal, isAUD n = true) ∧ closed = nal.isNone ∧
      (c.au, c.keyframe) = accessUnit (lastGroup before) ∧ taps.count tap ≤ 1 ∧
      units = (if tap ∈ taps then (groups before).dropLast else groups before).map accessUnit
  | .ended => closed = true → units = (groups nals).map accessUnit

theorem Camera.Sole.count {id : Nat} {tap : Tap} {c : Camera} (h : c.Sole id tap) :
    tap ∈ c.taps.entries.map (·.2) ∧ (c.taps.entries.map (·.2)).count tap ≤ 1 := by
  have hmem : (⟨id, tap⟩ : Sigma fun _ : Nat => Tap) ∈ c.taps.entries := Table.mem_entries_iff.mpr h.registered
  refine ⟨List.mem_map.mpr ⟨_, hmem, rfl⟩, ?_⟩
  have hkeys : (c.taps.entries.map (·.1)).count id ≤ 1 := List.nodup_iff_count_le_one.mp c.taps.nodupKeys id
  refine Nat.le_trans (Nat.le_of_eq ?_) hkeys
  rw [List.count, List.count, List.countP_map, List.countP_map]
  refine List.countP_congr fun e he => ?_
  obtain ⟨k, t⟩ := e
  have hlookup := Table.mem_entries_iff.mp he
  simp only [Function.comp_apply, beq_iff_eq]
  constructor
  · rintro rfl
    exact h.once k hlookup
  · rintro rfl
    exact Option.some.inj (hlookup.symm.trans h.registered)

theorem accessUnit_append (g : List (List UInt8)) (nal : List UInt8) :
    accessUnit (g ++ [nal]) = ((accessUnit g).1 ++ Camera.startCode4 ++ nal, (accessUnit g).2 || isIDR nal) := by
  simp [accessUnit]

theorem accessUnit_eq_nil_iff {g : List (List UInt8)} : (accessUnit g).1 = [] ↔ g = [] := by
  cases g with
  | nil => simp [accessUnit]
  | cons nal g => simp [accessUnit, Camera.startCode4]

theorem map_dropLast_groups (h : groups nals ≠ []) :
    (groups nals).dropLast.map accessUnit ++ [accessUnit (lastGroup nals)] = (groups nals).map accessUnit := by
  rw [← List.map_singleton (f := accessUnit), ← List.map_append]
  congr 1
  rcases List.eq_nil_or_concat' (groups nals) with hnil | ⟨init, g, hgs⟩
  · exact absurd hnil h
  · simp [lastGroup, hgs]

section

variable {tap : Tap} {nals : List (List UInt8)} {units : List (List UInt8 × Bool)} {closed : Bool} {c c' : Camera}

theorem handing_waiting (h : c.fanout = .waiting) : c.Handing tap nals units closed ↔
    closed = false ∧ (c.au, c.keyframe) = accessUnit (lastGroup nals) ∧ units = (groups nals).dropLast.map accessUnit := by
  unfold Camera.Handing
  rw [h]

variable {nal : Option (List UInt8)}

theorem handing_flushing {taps : List Tap} {inside : Option Tap}
    (h : c.fanout = .flushing taps inside nal) : c.Handing tap nals units closed ↔
    ∃ before, nals = before ++ nal.toList ∧ groups before ≠ [] ∧ (∀ n ∈ nal, isAUD n = true) ∧ closed = nal.isNone ∧
      (c.au, c.keyframe) = accessUnit (lastGroup before) ∧ taps.count tap ≤ 1 ∧
      units = (if tap ∈ taps then (groups before).dropLast else groups before).map accessUnit := by
  unfold Camera.Handing
  rw [h]

theorem handing_ended (h : c.fanout = .ended) : c.Handing tap nals units closed ↔
    (closed = true → units = (groups nals).map accessUnit) := by
  unfold Camera.Handing
  rw [h]

theorem Camera.Handing.congr (h : c.Handing tap nals units closed) (hfanout : c'.fanout = c.fanout) (hau : c'.au = c.au)
    (hkeyframe : c'.keyframe = c.keyframe) : c'.Handing tap nals units closed := by
  unfold Camera.Handing at h ⊢
  rw [hfanout, hau, hkeyframe]
  exact h

theorem append_accessUnit {g : List (List UInt8)} (h : (c.au, c.keyframe) = accessUnit g) (nal : List UInt8) :
    ((c.append nal).au, (c.append nal).keyframe) = accessUnit (g ++ [nal]) := by
  rw [accessUnit_append, ← h]
  rfl

theorem handing_resume (hempty : (c.au, c.keyframe) = accessUnit [])
    (hunits : units = (groups nals).map accessUnit) (haud : ∀ n ∈ nal, isAUD n = true) :
    (c.resume nal).Handing tap (nals ++ nal.toList) units nal.isNone := by
  cases nal with
  | none =>
    refine (handing_ended rfl).mpr fun _ => ?_
    rw [Option.toList_none, List.append_nil]
    exact hunits
  | some n =>
    refine (handing_waiting rfl).mpr ⟨rfl, ?_, ?_⟩
    · rw [lastGroup, Option.toList_some, groups_open (haud n rfl), List.getLastD_concat]
      exact append_accessUnit hempty n
    · rw [Option.toList_some, groups_open (haud n rfl), List.dropLast_concat]
      exact hunits

variable {id : Nat}

theorem handing_flush (hsole : c.Sole id tap)
    (hunit : (c.au, c.keyframe) = accessUnit (lastGroup nals)) (hunits : units = (groups nals).dropLast.map accessUnit)
    (haud : ∀ n ∈ nal, isAUD n = true) : (c.flush nal).Handing tap (nals ++ nal.toList) units nal.isNone := by
  unfold Camera.flush
  have hau : c.au = (accessUnit (lastGroup nals)).1 := congrArg Prod.fst hunit
  split
  · rename_i hempty
    have hlast : lastGroup nals = [] := accessUnit_eq_nil_iff.mp (hau.symm.trans hempty)
    have hgroups := lastGroup_eq_nil_iff.mp hlast
    refine handing_resume (hlast ▸ hunit) ?_ haud
    rw [hunits, hgroups]
    rfl
  · rename_i hfull
    obtain ⟨hmem, hcount⟩ := hsole.count
    refine (handing_flushing rfl).mpr ⟨nals, rfl, fun hnil => hfull ?_, haud, rfl, hunit, hcount, ?_⟩
    · rw [hau, lastGroup_eq_nil_iff.mpr hnil]
      rfl
    · rw [if_pos hmem]
      exact hunits

section

variable (h : c.Handing tap nals units closed)

include h

theorem handing_receive (hsole : c.Sole id tap)
    (hne : nal ≠ some []) (hstep : c.receive nal = some c') :
    c'.Handing tap (nals ++ nal.toList) units (closed || nal.isNone) := by
  obtain ⟨hwaiting, hstep⟩ := Option.ite_none_right_eq_some.mp hstep
  obtain ⟨hclosed, hunit, hunits⟩ := (handing_waiting hwaiting).mp h
  rw [hclosed, Bool.false_or]
  match nal, hstep with
  | none, hstep =>
    obtain ⟨-, hout⟩ := Option.ite_none_right_eq_some.mp hstep
    cases hout
    exact handing_flush hsole hunit hunits fun n hn => (by cases hn)
  | some [], _ => exact absurd rfl hne
  | some (b :: bs), hstep =>
    dsimp only at hstep
    have htype : isAUD (b :: bs) = decide (b &&& 0x1f = Camera.nalTypeAUD) := by simp [isAUD, beq_eq_decide]
    split at hstep
    · rename_i haud
      cases hstep
      refine handing_flush hsole hunit hunits fun n hn => ?_
      cases hn
      rw [htype, decide_eq_true haud]
    · rename_i haud
      cases hstep
      have hother : isAUD (b :: bs) = false := by rw [htype, decide_eq_false haud]
      refine (handing_waiting rfl).mpr ⟨rfl, ?_, ?_⟩
      · rw [Option.toList_some, (groups_join hother).1]
        exact append_accessUnit hunit (b :: bs)
      · rw [Option.toList_some, (groups_join hother).2]
        exact hunits

theorem handing_call {tap' : Tap} {passes : Bool}
    (hstep : c.enter tap' passes = some c') :
    c'.Handing tap nals (units ++ ((CameraAction.call tap' passes).unit? tap c).toList) closed := by
  unfold Camera.enter at hstep
  split at hstep
  · rename_i taps nal hfanout
    obtain ⟨htap, hout⟩ := Option.ite_none_right_eq_some.mp hstep
    cases hout
    obtain ⟨before, hnals, hne, haud, hclosed, hunit, hcount, hunits⟩ := (handing_flushing hfanout).mp h
    refine (handing_flushing rfl).mpr ⟨before, hnals, hne, haud, hclosed, hunit, ?_⟩
    by_cases hsame : tap' = tap
    · subst hsame
      have hgone : tap' ∉ taps.erase tap' := by
        rw [← List.count_eq_zero, List.count_erase_self]
        omega
      refine ⟨Nat.le_trans (List.erase_sublist.count_le tap') hcount, ?_⟩
      rw [if_pos htap] at hunits
      rw [if_neg hgone, CameraAction.unit?, if_pos rfl, Option.toList_some, hunits, hunit, map_dropLast_groups hne]
    · rw [CameraAction.unit?, if_neg hsame, Option.toList_none, List.append_nil, List.count_erase_of_ne (Ne.symm hsame)]
      refine ⟨hcount, ?_⟩
      simp only [List.mem_erase_of_ne (Ne.symm hsame)]
      exact hunits
  · cases hstep

theorem handing_leave : c.leave.Handing tap nals units closed := by
  unfold Camera.leave
  split
  · rename_i taps inside nal hfanout
    exact (handing_flushing rfl).mpr ((handing_flushing hfanout).mp h)
  · exact h

theorem handing_flushed (hstep : c.flushed = some c') :
    c'.Handing tap nals units closed := by
  unfold Camera.flushed at hstep
  split at hstep
  · rename_i nal hfanout
    cases hstep
    obtain ⟨before, hnals, -, haud, hclosed, -, -, hunits⟩ := (handing_flushing hfanout).mp h
    rw [if_neg List.not_mem_nil] at hunits
    rw [hnals, hclosed]
    exact handing_resume rfl hunits haud
  · cases hstep

end

end

section

variable {id : Nat} {tap : Tap} {c c' : Camera}

theorem resume_nextTap (c : Camera) (nal : Option (List UInt8)) : (c.resume nal).nextTap = c.nextTap := by
  cases nal <;> rfl

variable {e : CameraAction}

theorem taps_of_next (h : c.next e = some c') :
    (∃ other, e = .addTap other) ∨ (∃ k, e = .removeTap k) ∨ (c'.taps = c.taps ∧ c'.nextTap = c.nextTap) := by
  have hflush : ∀ nal, (c.flush nal).nextTap = c.nextTap := by
    intro nal
    unfold Camera.flush
    split
    · exact resume_nextTap c nal
    · rfl
  cases e with
  | addTap other => exact .inl ⟨other, rfl⟩
  | removeTap k => exact .inr (.inl ⟨k, rfl⟩)
  | stop =>
    cases h
    exact .inr (.inr ⟨rfl, rfl⟩)
  | receive nal =>
    refine .inr (.inr ⟨(Camera.follows_receive h).taps, ?_⟩)
    obtain ⟨-, h⟩ := Option.ite_none_right_eq_some.mp h
    split at h
    · obtain ⟨-, hout⟩ := Option.ite_none_right_eq_some.mp h
      cases hout
      exact hflush none
    · cases h
      rfl
    split at h
    · cases h
      exact hflush _
    · cases h
      rfl
  | cancel =>
    refine .inr (.inr ⟨(Camera.follows_cancel h).taps, ?_⟩)
    obtain ⟨-, hout⟩ := Option.ite_none_right_eq_some.mp h
    cases hout
    rfl
  | call other passes =>
    refine .inr (.inr ⟨(Camera.follows_enter h).taps, ?_⟩)
    simp only [Camera.next, Camera.enter] at h
    split at h
    · obtain ⟨-, hout⟩ := Option.ite_none_right_eq_some.mp h
      cases hout
      rfl
    · cases h
  | leave =>
    obtain ⟨-, hout⟩ := Option.ite_none_right_eq_some.mp h
    cases hout
    refine .inr (.inr ⟨c.follows_leave.taps, ?_⟩)
    unfold Camera.leave
    split <;> rfl
  | flushed =>
    refine .inr (.inr ⟨(Camera.follows_flushed h).taps, ?_⟩)
    simp only [Camera.next, Camera.flushed] at h
    split at h
    · cases h
      exact resume_nextTap _ _
    · cases h

def CameraAction.Keeps (id : Nat) (tap : Tap) (e : CameraAction) : Prop := e ≠ .removeTap id ∧ e ≠ .addTap tap

theorem Camera.Sole.step (h : c.Sole id tap) (he : e.Keeps id tap) (hstep : c.next e = some c') :
    c'.Sole id tap := by
  rcases taps_of_next hstep with ⟨other, rfl⟩ | ⟨k, rfl⟩ | ⟨htaps, hnext⟩
  · cases hstep
    have hid : id ≠ c.nextTap := Nat.ne_of_lt h.fresh
    refine ⟨(AList.lookup_insert_ne hid).trans h.registered, fun k hk => ?_, Nat.lt_succ_of_lt h.fresh⟩
    by_cases hnew : k = c.nextTap
    · have hother : other = tap := by
        rw [hnew] at hk
        exact Option.some.inj ((AList.lookup_insert c.taps).symm.trans hk)
      exact absurd (congrArg CameraAction.addTap hother) he.2
    · exact h.once k ((AList.lookup_insert_ne hnew).symm.trans hk)
  · cases hstep
    have hk : id ≠ k := by
      rintro rfl
      exact he.1 rfl
    refine ⟨(AList.lookup_erase_ne hk).trans h.registered, fun j hj => ?_, h.fresh⟩
    by_cases hjk : j = k
    · have hnone : (c.removeTap k).taps.lookup j = none := by
        rw [hjk]
        exact AList.lookup_erase k c.taps
      rw [hnone] at hj
      cases hj
    · exact h.once j ((AList.lookup_erase_ne hjk).symm.trans hj)
  · exact ⟨htaps ▸ h.registered, fun k hk => h.once k (htaps ▸ hk), hnext ▸ h.fresh⟩

variable {units : List (List UInt8 × Bool)} {closed : Bool} {t : Camera} {es : List CameraAction}

theorem Camera.Handing.step {nals : List (List UInt8)}
    (h : c.Handing tap nals units closed) (hsole : c.Sole id tap) (hne : e.nal? ≠ some []) (hstep : c.next e = some c') :
    c'.Handing tap (nals ++ e.nal?.toList) (units ++ (e.unit? tap c).toList) (closed || decide (e = .receive none)) := by
  have hquiet : ∀ {c' : Camera} {e : CameraAction}, c'.Handing tap nals units closed → e.nal? = none → e.unit? tap c = none →
      e ≠ .receive none →
      c'.Handing tap (nals ++ e.nal?.toList) (units ++ (e.unit? tap c).toList) (closed || decide (e = .receive none)) := by
    intro c' e h hnal hunit hother
    rw [hnal, hunit, decide_eq_false hother, Bool.or_false, Option.toList_none, List.append_nil, Option.toList_none,
      List.append_nil]
    exact h
  cases e with
  | addTap other =>
    cases hstep
    exact hquiet (h.congr rfl rfl rfl) rfl rfl (by simp)
  | removeTap k =>
    cases hstep
    exact hquiet (h.congr rfl rfl rfl) rfl rfl (by simp)
  | stop =>
    cases hstep
    exact hquiet (h.congr rfl rfl rfl) rfl rfl (by simp)
  | receive nal =>
    have hclosed : decide (CameraAction.receive nal = .receive none) = nal.isNone := by cases nal <;> simp
    have hnone : (CameraAction.receive nal).unit? tap c = none := rfl
    rw [hclosed, hnone, Option.toList_none, List.append_nil]
    exact handing_receive h hsole hne hstep
  | cancel =>
    obtain ⟨hwaiting, hout⟩ := Option.ite_none_right_eq_some.mp hstep
    cases hout
    obtain ⟨hclosed, -⟩ := (handing_waiting hwaiting.1).mp h
    refine hquiet ((handing_ended rfl).mpr fun hc => ?_) rfl rfl (by simp)
    rw [hclosed] at hc
    cases hc
  | call other passes =>
    have hnone : (CameraAction.call other passes).nal? = none := rfl
    rw [hnone, Option.toList_none, List.append_nil, decide_eq_false (by simp), Bool.or_false]
    exact handing_call h hstep
  | leave =>
    obtain ⟨-, hout⟩ := Option.ite_none_right_eq_some.mp hstep
    cases hout
    exact hquiet (handing_leave h) rfl rfl (by simp)
  | flushed => exact hquiet (handing_flushed h hstep) rfl rfl (by simp)

theorem Camera.Handing.run {nals : List (List UInt8)}
    (h : c.Handing tap nals units closed) (hsole : c.Sole id tap)
    (hkeeps : ∀ e ∈ es, e.Keeps id tap) (hne : [] ∉ received es) (hrun : Run (Takes Camera.next) c es t) :
    t.Handing tap (nals ++ received es) (units ++ handed tap c es) (closed || decide (.receive none ∈ es)) := by
  induction hrun generalizing nals units closed with
  | nil c => simpa [received, handed] using h
  | @cons c m t e es hstep _ ih =>
    rw [List.forall_mem_cons] at hkeeps
    have hnext : c.next e = some m := hstep
    have hnals : received (e :: es) = e.nal?.toList ++ received es := by
      rw [received, List.filterMap_cons]
      cases e.nal? <;> rfl
    rw [hnals, List.mem_append, not_or] at hne
    have hfirst : e.nal? ≠ some [] := by
      intro hempty
      rw [hempty] at hne
      exact hne.1 List.mem_cons_self
    have hrest := ih (h.step hsole hfirst hnext) (hsole.step hkeeps.1 hnext) hkeeps.2 hne.2
    rw [hnals, handed, hnext, Option.map_some, Option.getD_some, ← List.append_assoc, ← List.append_assoc]
    have hclosed : (closed || decide (.receive none ∈ e :: es)) =
        ((closed || decide (e = .receive none)) || decide (.receive none ∈ es)) := by
      rw [Bool.or_assoc, ← Bool.decide_or]
      simp only [List.mem_cons, eq_comm]
    rw [hclosed]
    exact hrest

theorem handed_groups (hau : c.au = []) (hkeyframe : c.keyframe = false)
    (hwaiting : c.fanout = .waiting) (hsole : c.Sole id tap) (hkeeps : ∀ e ∈ es, e.Keeps id tap) (hne : [] ∉ received es)
    (hrun : Run (Takes Camera.next) c es t) (hclosed : .receive none ∈ es) (hended : t.fanout = .ended) :
    handed tap c es = (groups (received es)).map accessUnit := by
  have hstart : c.Handing tap [] [] false := by
    refine (handing_waiting hwaiting).mpr ⟨rfl, ?_, rfl⟩
    rw [hau, hkeyframe]
    rfl
  have hend := hstart.run hsole hkeeps hne hrun
  rw [List.nil_append, List.nil_append, handing_ended hended] at hend
  exact hend (by simpa using hclosed)

end

end Waypoint.Agent.Recorder
