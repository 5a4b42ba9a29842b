import Mathlib.Data.List.GetD
import Mathlib.Data.List.Rotate
import Waypoint.Base.Run
import Waypoint.Core.Servo.Frame

/-!
# The telemetry rotation of the other servos

`servo/AuxRotation.cpp`: which non-drive servos the loop reads next. A servo that fails too often in a row is dropped for good.
-/

namespace Waypoint.Core

open Base

structure AuxRotation where
  ids : List JointId
  maxFailures : Nat
  dropped : List JointId := []
  fails : JointId → Nat := fun _ => 0
  cursor : Nat := 0

namespace AuxRotation

/-- The scan of `next`: at most `remaining` more entries, until `k` ids are out. -/
def scan (a : AuxRotation) (k : Nat) : Nat → Nat → List JointId → Nat × List JointId
  | 0, cursor, out => (cursor, out)
  | remaining + 1, cursor, out =>
    if out.length < k then
      let id := a.ids.getD cursor 0
      scan a k remaining ((cursor + 1) % a.ids.length) (if a.dropped.contains id then out else out ++ [id])
    else (cursor, out)

def next (a : AuxRotation) (k : Nat) : List JointId × AuxRotation :=
  if a.ids.isEmpty ∨ k = 0 then ([], a)
  else
    let (cursor, out) := a.scan k a.ids.length a.cursor []
    (out, { a with cursor := cursor })

def recordResult (a : AuxRotation) (id : JointId) (ok : Bool) : AuxRotation :=
  if a.dropped.contains id then a
  else if ok then { a with fails := fun i => if i = id then 0 else a.fails i }
  else
    let n := a.fails id + 1
    { a with
      fails := fun i => if i = id then n else a.fails i
      dropped := if n ≥ a.maxFailures then id :: a.dropped else a.dropped }

def ring (a : AuxRotation) : List JointId := a.ids.rotate a.cursor

def live (a : AuxRotation) (ids : List JointId) : List JointId := ids.filter fun id => !a.dropped.contains id

theorem take_rotate_succ {α : Type} {l : List α} {c m : Nat} (hc : c < l.length) (hm : m < l.length) (default : α) :
    (l.rotate c).take (m + 1) = l.getD c default :: (l.rotate (c + 1)).take m := by
  have hfront : l.rotate c = l.getD c default :: (l.drop (c + 1) ++ l.take c) := by
    rw [List.rotate_eq_drop_append_take hc.le, List.drop_eq_getElem_cons hc, List.getD_eq_getElem _ _ hc, List.cons_append]
  have hnext : l.rotate (c + 1) = l.drop (c + 1) ++ l.take c ++ [l.getD c default] := by
    rw [← List.rotate_rotate, hfront]
    simp
  have hlength : (l.drop (c + 1) ++ l.take c).length = l.length - 1 := by
    rw [List.length_append, List.length_drop, List.length_take]
    omega
  rw [hfront, hnext, List.take_succ_cons]
  exact congrArg _ (List.take_append_of_le_length (by omega)).symm

/-- The scan goes over a stretch of the ring and keeps what is live; it ends when the ring is through or enough is out. -/
theorem scan_spec (a : AuxRotation) (k : Nat) {remaining : Nat} (cursor : Nat) (out : List JointId)
    (hcursor : cursor < a.ids.length) (hremaining : remaining ≤ a.ids.length) (hout : out.length ≤ k) :
    ∃ m ≤ remaining, a.scan k remaining cursor out =
        ((cursor + m) % a.ids.length, out ++ a.live ((a.ids.rotate cursor).take m)) ∧
      (out ++ a.live ((a.ids.rotate cursor).take m)).length ≤ k ∧
      (m = remaining ∨ k ≤ out.length + m) := by
  induction remaining generalizing cursor out with
  | zero =>
    refine ⟨0, Nat.le_refl _, ?_, ?_, .inl rfl⟩
    · simp [scan, live, Nat.mod_eq_of_lt hcursor]
    · simpa [live] using hout
  | succ remaining ih =>
    by_cases hroom : out.length < k
    · -- the entry at the cursor comes first in the stretch
      obtain ⟨first, hfirst⟩ : ∃ first, first =
          if a.dropped.contains (a.ids.getD cursor 0) then out else out ++ [a.ids.getD cursor 0] := ⟨_, rfl⟩
      have hgrows : first.length ≤ out.length + 1 := by
        rw [hfirst]
        split <;> simp
      obtain ⟨m, hm, hscan, hlength, hend⟩ :=
        ih ((cursor + 1) % a.ids.length) first (Nat.mod_lt _ (by omega)) (by omega) (by omega)
      have hstretch : first ++ a.live ((a.ids.rotate ((cursor + 1) % a.ids.length)).take m) =
          out ++ a.live ((a.ids.rotate cursor).take (m + 1)) := by
        rw [hfirst, List.rotate_mod, take_rotate_succ hcursor (by omega) 0, live, live, List.filter_cons]
        cases a.dropped.contains (a.ids.getD cursor 0) with
        | true => simp
        | false => simp
      rw [hstretch] at hscan hlength
      refine ⟨m + 1, by omega, ?_, hlength, ?_⟩
      · rw [scan, if_pos hroom]
        dsimp only
        rw [← hfirst, hscan, Nat.mod_add_mod, Nat.add_right_comm, Nat.add_assoc]
      · rcases hend with rfl | hend
        · exact .inl rfl
        · exact .inr (by omega)
    · refine ⟨0, Nat.zero_le _, ?_, ?_, .inr (by omega)⟩
      · rw [scan, if_neg hroom]
        simp [live, Nat.mod_eq_of_lt hcursor]
      · simpa [live] using hout

/-- The cursor is on an id. -/
def Standing (a : AuxRotation) : Prop := a.cursor < a.ids.length

variable {a : AuxRotation} {k : Nat} {id : JointId}

theorem next_spec (h : a.Standing) (hk : 1 ≤ k) :
    ∃ m, min k a.ids.length ≤ m ∧ m ≤ a.ids.length ∧
      a.next k = (a.live (a.ring.take m), { a with cursor := (a.cursor + m) % a.ids.length }) ∧
      (a.live (a.ring.take m)).length ≤ k := by
  obtain ⟨m, hm, hscan, hlength, hend⟩ := a.scan_spec k a.cursor [] h (Nat.le_refl _) (Nat.zero_le _)
  rw [List.nil_append] at hscan hlength
  refine ⟨m, ?_, hm, ?_, hlength⟩
  · rw [List.length_nil] at hend
    omega
  have hnonempty : ¬(a.ids.isEmpty = true ∨ k = 0) := by
    rintro (hempty | hzero)
    · rw [Standing, List.isEmpty_iff.mp hempty] at h
      exact Nat.not_lt_zero _ h
    · omega
  rw [next, if_neg hnonempty, hscan]
  rfl

theorem next_returns (h : a.Standing) (hk : 1 ≤ k) :
    (a.next k).1.length ≤ k ∧ (a.ids.Nodup → (a.next k).1.Nodup) ∧ ∀ id ∈ (a.next k).1, id ∈ a.ids ∧ id ∉ a.dropped := by
  obtain ⟨m, -, -, hnext, hlength⟩ := next_spec h hk
  rw [hnext]
  refine ⟨hlength, fun hdistinct => ?_, fun id hid => ?_⟩
  · have hring : a.ring.Nodup := List.nodup_rotate.mpr hdistinct
    exact (hring.sublist (List.take_sublist _ _)).filter _
  · obtain ⟨htaken, hlive⟩ := List.mem_filter.mp hid
    exact ⟨List.mem_rotate.mp (List.mem_of_mem_take htaken), by simpa using hlive⟩

inductive AuxCall
  | next
  | recordResult (id : JointId) (ok : Bool)
  deriving DecidableEq

def call (k : Nat) (a : AuxRotation) : AuxCall → AuxRotation
  | .next => (a.next k).2
  | .recordResult id ok => a.recordResult id ok

def after (ids : List JointId) (maxFailures k : Nat) (calls : List AuxCall) : AuxRotation :=
  calls.foldl (call k) { ids := ids, maxFailures := maxFailures }

def results (id : JointId) (calls : List AuxCall) : List Bool :=
  calls.filterMap fun
    | .next => none
    | .recordResult i ok => if i = id then some ok else none

/-- What stays the same in the course of calls: the ring, and that what is dropped stays dropped. -/
structure Follows (a b : AuxRotation) : Prop where
  ids : b.ids = a.ids
  maxFailures : b.maxFailures = a.maxFailures
  standing : b.Standing
  dropped : ∀ id ∈ a.dropped, id ∈ b.dropped

theorem Follows.trans {b c : AuxRotation} (hab : Follows a b) (hbc : Follows b c) : Follows a c where
  ids := hbc.ids.trans hab.ids
  maxFailures := hbc.maxFailures.trans hab.maxFailures
  standing := hbc.standing
  dropped id hid := hbc.dropped id (hab.dropped id hid)

section Record

variable {a : AuxRotation} {id : JointId}

theorem recordResult_of_dropped (h : id ∈ a.dropped) (ok : Bool) : a.recordResult id ok = a :=
  if_pos (List.contains_iff_mem.mpr h)

theorem recordResult_ok (h : id ∉ a.dropped) :
    a.recordResult id true = { a with fails := fun i => if i = id then 0 else a.fails i } :=
  if_neg fun hdropped => h (List.contains_iff_mem.mp hdropped)

theorem recordResult_failed (h : id ∉ a.dropped) :
    a.recordResult id false = { a with
      fails := fun i => if i = id then a.fails id + 1 else a.fails i
      dropped := if a.fails id + 1 ≥ a.maxFailures then id :: a.dropped else a.dropped } :=
  if_neg fun hdropped => h (List.contains_iff_mem.mp hdropped)

end Record

theorem recordResult_eq (a : AuxRotation) (id : JointId) (ok : Bool) :
    ∃ dropped fails, a.recordResult id ok = { a with dropped := dropped, fails := fails } ∧ ∀ i ∈ a.dropped, i ∈ dropped := by
  by_cases hdropped : id ∈ a.dropped
  · exact ⟨a.dropped, a.fails, recordResult_of_dropped hdropped ok, fun i hi => hi⟩
  cases ok with
  | true => exact ⟨a.dropped, _, recordResult_ok hdropped, fun i hi => hi⟩
  | false =>
    refine ⟨_, _, recordResult_failed hdropped, fun i hi => ?_⟩
    split
    · exact List.mem_cons_of_mem _ hi
    · exact hi

theorem follows_call (hk : 1 ≤ k) (h : a.Standing) (c : AuxCall) : Follows a (a.call k c) := by
  cases c with
  | recordResult id ok =>
    obtain ⟨dropped, fails, hcall, hgrows⟩ := a.recordResult_eq id ok
    rw [call, hcall]
    exact ⟨rfl, rfl, h, hgrows⟩
  | next =>
    obtain ⟨m, -, -, hnext, -⟩ := next_spec h hk
    rw [call, hnext]
    exact ⟨rfl, rfl, Nat.mod_lt _ (Nat.zero_lt_of_lt h), fun id hid => hid⟩

theorem follows_calls (hk : 1 ≤ k) (h : a.Standing) (calls : List AuxCall) :
    Follows a (calls.foldl (call k) a) := by
  induction calls generalizing a with
  | nil => exact ⟨rfl, rfl, h, fun id hid => hid⟩
  | cons c calls ih =>
    have hfirst := follows_call hk h c
    exact hfirst.trans (ih hfirst.standing)

theorem idxOf_rotate {l : List JointId} (hid : id ∈ l) {m : Nat} (hm : m ≤ l.idxOf id) :
    (l.rotate m).idxOf id + m = l.idxOf id := by
  have hlength : m ≤ l.length := hm.trans List.idxOf_le_length
  have hlater : id ∉ l.take m := by
    rw [List.mem_take_iff_idxOf_lt hid]
    omega
  have hdrop : id ∈ l.drop m := by
    rw [← List.take_append_drop m l] at hid
    exact (List.mem_append.mp hid).resolve_left hlater
  have hsplit : (l.take m ++ l.drop m).idxOf id = (l.take m).length + (l.drop m).idxOf id :=
    List.idxOf_append_of_notMem hlater
  rw [List.take_append_drop, List.length_take, Nat.min_eq_left hlength] at hsplit
  rw [List.rotate_eq_drop_append_take hlength, List.idxOf_append_of_mem hdrop, hsplit, Nat.add_comm]

def distance (id : JointId) (a : AuxRotation) : Nat := a.ring.idxOf id

theorem distance_call (hk : 1 ≤ k) (hstanding : a.Standing) (hid : id ∈ a.ids)
    (hlive : id ∉ a.dropped) {c : AuxCall} (hpassed : c = .next → id ∉ (a.next k).1) :
    distance id (a.call k c) + (if c = .next then min k a.ids.length else 0) ≤ distance id a := by
  cases c with
  | recordResult i ok =>
    obtain ⟨dropped, fails, hcall, -⟩ := a.recordResult_eq i ok
    rw [call, hcall]
    exact Nat.le_refl _
  | next =>
    obtain ⟨m, hleast, hm, hnext, -⟩ := next_spec hstanding hk
    have hring : id ∈ a.ring := List.mem_rotate.mpr hid
    have hfar : m ≤ a.ring.idxOf id := by
      refine Nat.le_of_not_lt fun hnear => hpassed rfl ?_
      rw [hnext]
      refine List.mem_filter.mpr ⟨(List.mem_take_iff_idxOf_lt hring).mpr hnear, ?_⟩
      simpa using hlive
    have hturned : (a.call k .next).ring = a.ring.rotate m := by
      rw [call, hnext]
      exact (List.rotate_mod _ _).trans (List.rotate_rotate _ _ _).symm
    have hnearer := idxOf_rotate hring hfar
    rw [distance, hturned, if_pos rfl, distance]
    omega

theorem length_le_window (hk : 1 ≤ k) (n : Nat) : n ≤ min k n * ((n + k - 1) / k) := by
  by_cases hshort : k ≤ n
  · have hdiv := Nat.div_add_mod (n + k - 1) k
    have hmod := Nat.mod_lt (n + k - 1) hk
    rw [Nat.min_eq_left hshort]
    omega
  · have hle : n ≤ k := by omega
    rw [Nat.min_eq_right hle]
    rcases Nat.eq_zero_or_pos n with rfl | hpos
    · exact Nat.zero_le _
    · exact Nat.le_mul_of_pos_right _ ((Nat.one_le_div_iff hk).mpr (by omega))

theorem returned_in_window (hk : 1 ≤ k) (hstanding : a.Standing) {window : List AuxCall}
    (hwindow : window.countP (· = .next) = (a.ids.length + k - 1) / k) (hid : id ∈ a.ids)
    (hlive : id ∉ (window.foldl (call k) a).dropped) :
    ∃ before, before ++ [.next] <+: window ∧ id ∈ ((before.foldl (call k) a).next k).1 := by
  by_contra hnever
  -- otherwise every call of the window leaves the id further ahead than the ring is long
  have halong : Along (call k) (fun b c => b.ids = a.ids ∧ distance id (b.call k c) +
      (if (c = .next : Bool) then min k a.ids.length else 0) ≤ distance id b) a window := by
    refine along_iff.mpr fun before c hbefore => ?_
    have hfollows := follows_calls hk hstanding before
    refine ⟨hfollows.ids, ?_⟩
    have hcall := distance_call hk hfollows.standing (hfollows.ids ▸ hid) (c := c) ?_ ?_
    · rw [hfollows.ids] at hcall
      simpa using hcall
    · intro hdropped
      obtain ⟨rest, hrest⟩ := (List.prefix_append before [c]).trans hbefore
      refine hlive ?_
      rw [← hrest, List.foldl_append]
      exact (follows_calls hk hfollows.standing rest).dropped id hdropped
    · rintro rfl hreturned
      exact hnever ⟨before, hbefore, hreturned⟩
  have hdescends := halong.descends (fun _ _ h => h.2)
  have hstart : distance id a < a.ids.length := by
    have hring : id ∈ a.ring := List.mem_rotate.mpr hid
    have hlt := List.idxOf_lt_length_iff.mpr hring
    rwa [ring, List.length_rotate] at hlt
  have henough := length_le_window hk a.ids.length
  rw [hwindow] at hdescends
  omega

theorem replicate_suffix_concat (m : Nat) (rs : List Bool) (b : Bool) :
    List.replicate (m + 1) false <:+ rs ++ [b] ↔ b = false ∧ List.replicate m false <:+ rs := by
  rw [List.suffix_concat_iff, List.replicate_succ']
  constructor
  · rintro (hnil | ⟨t, ht, hsuffix⟩)
    · simp at hnil
    · obtain ⟨rfl, hb⟩ := List.append_inj' ht rfl
      exact ⟨by simpa using hb.symm, hsuffix⟩
  · rintro ⟨rfl, hsuffix⟩
    exact .inr ⟨_, rfl, hsuffix⟩

/-- The failures in a row are counted until they are enough. -/
structure Tallied (a : AuxRotation) (id : JointId) (rs : List Bool) : Prop where
  dropped : id ∈ a.dropped ↔ List.replicate a.maxFailures false <:+: rs
  fails : id ∉ a.dropped → ∀ m, List.replicate m false <:+ rs ↔ m ≤ a.fails id

section Tally

variable {a : AuxRotation} {id : JointId} {rs : List Bool}

theorem tallied_ok (hmax : 1 ≤ a.maxFailures) (hlive : id ∉ a.dropped) (h : Tallied a id rs) :
    Tallied (a.recordResult id true) id (rs ++ [true]) := by
  obtain ⟨most, hmost⟩ := Nat.exists_eq_add_of_le' hmax
  rw [recordResult_ok hlive]
  refine ⟨iff_of_false hlive fun hall => hlive (h.dropped.mpr ?_), fun _ m => ?_⟩
  · rw [List.infix_concat_iff, hmost, replicate_suffix_concat] at hall
    rw [hmost]
    exact hall.resolve_left fun hlast => Bool.noConfusion hlast.1
  dsimp only
  rw [if_pos rfl]
  cases m with
  | zero => simp
  | succ m => simp [replicate_suffix_concat]

theorem tallied_failed (hmax : 1 ≤ a.maxFailures) (hlive : id ∉ a.dropped) (h : Tallied a id rs) :
    Tallied (a.recordResult id false) id (rs ++ [false]) := by
  obtain ⟨most, hmost⟩ := Nat.exists_eq_add_of_le' hmax
  have hrs : ¬List.replicate a.maxFailures false <:+: rs := fun hall => hlive (h.dropped.mpr hall)
  have hwithin : List.replicate a.maxFailures false <:+: rs ++ [false] ↔ a.fails id + 1 ≥ a.maxFailures := by
    rw [List.infix_concat_iff, or_iff_left hrs, hmost, replicate_suffix_concat, h.fails hlive most]
    simp
  rw [recordResult_failed hlive]
  refine ⟨?_, fun _ m => ?_⟩
  · dsimp only
    rw [hwithin]
    by_cases henough : a.fails id + 1 ≥ a.maxFailures
    · rw [if_pos henough]
      exact iff_of_true List.mem_cons_self henough
    · rw [if_neg henough]
      exact iff_of_false hlive henough
  · dsimp only
    rw [if_pos rfl]
    cases m with
    | zero => simp
    | succ m =>
      rw [replicate_suffix_concat, h.fails hlive m]
      simp

theorem tallied_recordResult (hmax : 1 ≤ a.maxFailures) (h : Tallied a id rs) (ok : Bool) :
    Tallied (a.recordResult id ok) id (rs ++ [ok]) := by
  by_cases hdropped : id ∈ a.dropped
  · rw [recordResult_of_dropped hdropped]
    have hall : List.replicate a.maxFailures false <:+: rs ++ [ok] :=
      List.infix_append_of_infix_left (h.dropped.mp hdropped)
    exact ⟨iff_of_true hdropped hall, fun hlive => absurd hdropped hlive⟩
  · cases ok with
    | true => exact tallied_ok hmax hdropped h
    | false => exact tallied_failed hmax hdropped h

theorem tallied_other {i : JointId} (hother : i ≠ id) (h : Tallied a id rs) (ok : Bool) :
    Tallied (a.recordResult i ok) id rs := by
  have hfails : ∀ n, (if id = i then n else a.fails id) = a.fails id := fun n => if_neg hother.symm
  by_cases hdropped : i ∈ a.dropped
  · rw [recordResult_of_dropped hdropped]
    exact h
  cases ok with
  | true =>
    rw [recordResult_ok hdropped]
    refine ⟨h.dropped, fun hlive m => ?_⟩
    dsimp only
    rw [hfails]
    exact h.fails hlive m
  | false =>
    have hsame : id ∈ (if a.fails i + 1 ≥ a.maxFailures then i :: a.dropped else a.dropped) ↔ id ∈ a.dropped := by
      split
      · rw [List.mem_cons, or_iff_right hother.symm]
      · rfl
    rw [recordResult_failed hdropped]
    refine ⟨hsame.trans h.dropped, fun hlive m => ?_⟩
    dsimp only
    rw [hfails]
    exact h.fails (fun hid => hlive (hsame.mpr hid)) m

end Tally

theorem tallied_call (hk : 1 ≤ k) (hstanding : a.Standing) (hmax : 1 ≤ a.maxFailures)
    {calls : List AuxCall} (h : Tallied a id (results id calls)) (c : AuxCall) :
    Tallied (a.call k c) id (results id (calls ++ [c])) := by
  rw [results, List.filterMap_append, ← results]
  cases c with
  | next =>
    obtain ⟨m, -, -, hnext, -⟩ := next_spec hstanding hk
    rw [call, hnext]
    simpa using (⟨h.dropped, h.fails⟩ : Tallied { a with cursor := (a.cursor + m) % a.ids.length } id _)
  | recordResult i ok =>
    by_cases hid : i = id
    · subst hid
      simpa [call] using tallied_recordResult hmax h ok
    · simpa [call, hid] using tallied_other hid h ok

section Life

variable {ids : List JointId} (hids : ids ≠ []) (maxFailures : Nat) {k : Nat} (hk : 1 ≤ k)

include hids hk

theorem follows_after (calls : List AuxCall) :
    Follows { ids := ids, maxFailures := maxFailures } (after ids maxFailures k calls) := by
  have hstanding : Standing { ids := ids, maxFailures := maxFailures } := List.length_pos_iff.mpr hids
  exact follows_calls hk hstanding calls

theorem tallied_after (hmax : 1 ≤ maxFailures) (id : JointId) (calls : List AuxCall) :
    Tallied (after ids maxFailures k calls) id (results id calls) := by
  induction calls using List.reverseRecOn with
  | nil =>
    refine ⟨?_, fun _ m => ?_⟩
    · simp [after, results]
      omega
    · simp [after, results]
  | append_singleton calls c ih =>
    have hfollows := follows_after hids maxFailures hk calls
    rw [after, List.foldl_append]
    exact tallied_call hk hfollows.standing (hfollows.maxFailures ▸ hmax) ih c

end Life

/-- The rotation over its whole life, always asked for `k` ids. A call returns at most `k` distinct ids, none of them
dropped. In a window of as many calls as it takes to go round, every id that is not dropped is returned. An id is dropped
exactly by `maxFailures` failures in a row, and is not returned after that. -/
theorem rotation_fair (ids : List JointId) (hids : ids ≠ []) (hdistinct : ids.Nodup) (maxFailures : Nat)
    (hmax : 1 ≤ maxFailures) (k : Nat) (hk : 1 ≤ k) (calls : List AuxCall) :
    (((after ids maxFailures k calls).next k).1.length ≤ k ∧ ((after ids maxFailures k calls).next k).1.Nodup ∧
      ∀ id ∈ ((after ids maxFailures k calls).next k).1, id ∈ ids ∧ id ∉ (after ids maxFailures k calls).dropped) ∧
    (∀ window : List AuxCall, window.countP (· = .next) = (ids.length + k - 1) / k →
      ∀ id ∈ ids, id ∉ (after ids maxFailures k (calls ++ window)).dropped →
        ∃ before, before ++ [.next] <+: window ∧ id ∈ ((after ids maxFailures k (calls ++ before)).next k).1) ∧
    (∀ id, id ∈ (after ids maxFailures k calls).dropped ↔
      List.replicate maxFailures false <:+: results id calls) ∧
    ∀ id ∈ (after ids maxFailures k calls).dropped, ∀ later : List AuxCall,
      id ∉ ((after ids maxFailures k (calls ++ later)).next k).1 := by
  have hfollows := follows_after hids maxFailures hk calls
  have hring : (after ids maxFailures k calls).ids = ids := hfollows.ids
  have hsplit : ∀ more, after ids maxFailures k (calls ++ more) = more.foldl (call k) (after ids maxFailures k calls) :=
    fun more => List.foldl_append
  refine ⟨?_, ?_, ?_, ?_⟩
  · obtain ⟨hlength, hnodup, hmem⟩ := next_returns hfollows.standing hk
    rw [hring] at hnodup hmem
    exact ⟨hlength, hnodup hdistinct, hmem⟩
  · intro window hwindow id hid hlive
    simp only [hsplit] at hlive ⊢
    exact returned_in_window hk hfollows.standing (by rw [hring]; exact hwindow) (by rw [hring]; exact hid) hlive
  · intro id
    have hdropped := (tallied_after hids maxFailures hk hmax id calls).dropped
    rwa [hfollows.maxFailures] at hdropped
  intro id hid later hreturned
  rw [hsplit] at hreturned
  have hlater := follows_calls hk hfollows.standing later
  exact ((next_returns hlater.standing hk).2.2 id hreturned).2 (hlater.dropped id hid)

theorem rotation_fair_three :
    (2 : JointId) ∈ (after [1, 2, 3] 3 2 [.recordResult 2 false, .next, .recordResult 2 false, .recordResult 2 false]).dropped ∧
      ((after [1, 2, 3] 3 2 [.recordResult 2 false, .next, .recordResult 2 false, .recordResult 2 false]).next 2).1.Nodup :=
  have h := rotation_fair [1, 2, 3] (by decide) (by decide) 3 (by decide) 2 (by decide)
    [.recordResult 2 false, .next, .recordResult 2 false, .recordResult 2 false]
  ⟨(h.2.2.1 2).mpr (by decide), h.1.2.1⟩

end AuxRotation

end Waypoint.Core
