import Waypoint.Base.AnnexB

/-!
# NAL units of an access unit

`episode/annexb.ts` of the dashboard: the access units of a recorded episode are taken apart for the decoder.
-/

namespace Waypoint.Dashboard

open Base

def starts (i : Nat) : List UInt8 → List Nat
  | a :: b :: c :: rest =>
    if a = 0 ∧ b = 0 ∧ c = 1 then (i + 3) :: starts (i + 3) rest else starts (i + 1) (b :: c :: rest)
  | _ => []

def slice (au : List UInt8) (s : Nat) (next : Option Nat) : List UInt8 :=
  let stop := match next with
    | some t => t - 3
    | none => au.length
  let stop := if stop > s ∧ au[stop - 1]? = some 0 ∧ next.isSome then stop - 1 else stop
  (au.take stop).drop s

def slices (au : List UInt8) : List Nat → List (List UInt8)
  | [] => []
  | s :: rest => slice au s rest.head? :: slices au rest

def splitNals (au : List UInt8) : List (List UInt8) := slices au (starts 0 au)

structure AuInfo where
  key : Bool := false
  sps : Option (List UInt8) := none
  pps : Option (List UInt8) := none

/-- The type of a NAL unit; an empty one has no first byte and counts as type 0. -/
def nalType (nal : List UInt8) : UInt8 := nal.head?.getD 0 &&& 0x1f

def auInfo (au : List UInt8) : AuInfo :=
  (splitNals au).foldl
    (fun info nal =>
      { key := if nalType nal = 5 then true else info.key
        sps := if nalType nal = 7 then some nal else info.sps
        pps := if nalType nal = 8 then some nal else info.pps })
    {}

theorem starts_cons (i : Nat) (b : UInt8) (rest : List UInt8) :
    starts i (b :: rest) =
      if startCode <+: b :: rest then (i + 3) :: starts (i + 3) (rest.drop 2) else starts (i + 1) rest := by
  have hshort : ∀ l : List UInt8, l.length < 3 → ¬startCode <+: l := fun l hl h => by
    have hlength := h.length_le
    have hthree : startCode.length = 3 := rfl
    omega
  match rest with
  | [] =>
    rw [if_neg (hshort [b] (by simp))]
    rfl
  | [c] =>
    rw [if_neg (hshort [b, c] (by simp))]
    rfl
  | c :: d :: rest =>
    have hpre : startCode <+: b :: c :: d :: rest ↔ b = 0 ∧ c = 0 ∧ d = 1 := by
      simp only [startCode, List.cons_prefix_cons, List.nil_prefix, and_true, eq_comm]
    rw [starts]
    simp only [hpre]
    rfl

variable {l before after : List UInt8} {segments : List (List UInt8)}

theorem starts_of_cut (i : Nat) (h : cutStart l = some (before, after)) :
    starts i l = (i + before.length + 3) :: starts (i + before.length + 3) after := by
  induction l generalizing i before with
  | nil => cases h
  | cons b l ih =>
    rw [cutStart] at h
    rw [starts_cons]
    by_cases hpre : startCode <+: b :: l
    · rw [if_pos hpre] at h ⊢
      cases h
      rfl
    rw [if_neg hpre] at h ⊢
    obtain ⟨cut, hcut, heq⟩ := Option.map_eq_some_iff.mp h
    cases heq
    rw [ih (i + 1) hcut, List.length_cons, show i + 1 + cut.1.length = i + (cut.1.length + 1) by omega]

theorem starts_of_none (i : Nat) (h : cutStart l = none) : starts i l = [] := by
  induction l generalizing i with
  | nil => rfl
  | cons b l ih =>
    rw [cutStart_eq_none_iff, List.infix_cons_iff, not_or] at h
    rw [starts_cons, if_neg h.1, ih (i + 1) (cutStart_eq_none_iff.mpr h.2)]

theorem slice_before (pre before rest : List UInt8) :
    slice (pre ++ before ++ rest) pre.length (some (pre.length + before.length + 3)) = trimZero before := by
  have htake : ∀ xs ys : List UInt8, (pre ++ xs ++ ys).take (pre.length + xs.length) = pre ++ xs := fun xs ys => by
    rw [← List.length_append, List.take_left]
  rcases List.eq_nil_or_concat' before with rfl | ⟨init, x, rfl⟩
  · simp [slice, trimZero]
  have hlast : (pre ++ (init ++ [x]) ++ rest)[pre.length + (init ++ [x]).length - 1]? = some x := by
    rw [List.length_append, List.length_singleton, show pre.length + (init.length + 1) - 1 = (pre ++ init).length by
      rw [List.length_append]; omega, ← List.append_assoc, List.append_assoc (pre ++ init)]
    rw [List.getElem?_append_right (Nat.le_refl _), Nat.sub_self]
    rfl
  unfold slice trimZero
  dsimp only
  rw [Nat.add_sub_cancel, hlast]
  by_cases hx : x = 0
  · rw [if_pos ⟨by simp, by rw [hx], rfl⟩, if_pos (by simp [hx]), List.dropLast_concat]
    rw [show pre.length + (init ++ [x]).length - 1 = pre.length + init.length by simp, ← List.append_assoc,
      List.append_assoc (pre ++ init), htake, List.drop_left]
  · rw [if_neg fun h => hx (Option.some.inj h.2.1), if_neg (by simpa using hx), htake, List.drop_left]

theorem slices_of_segments (h : Segments l segments) (pre : List UInt8) :
    slices (pre ++ l) (pre.length :: starts pre.length l) = segments := by
  induction h generalizing pre with
  | @last l hcut =>
    have hslice : slice (pre ++ l) pre.length none = l := by
      simp only [slice, Option.isSome_none, Bool.false_eq_true, and_false, if_false, List.take_length, List.drop_left]
    rw [starts_of_none _ hcut, slices, slices, List.head?_nil, hslice]
  | @cut l before after rest hcut hrest ih =>
    have hsplit := eq_of_cutStart hcut
    have hrest := ih (pre ++ before ++ startCode)
    rw [show (pre ++ before ++ startCode).length = pre.length + before.length + 3 by simp [startCode]; omega] at hrest
    rw [starts_of_cut _ hcut, slices, List.head?_cons, hsplit]
    simp only [← List.append_assoc]
    rw [hrest, List.append_assoc (pre ++ before), slice_before]

theorem splitNals_of_cut {au : List UInt8}
    (hcut : cutStart au = some (before, after)) (h : Segments after segments) : splitNals au = segments := by
  have hslices := slices_of_segments h (before ++ startCode)
  rw [show (before ++ startCode).length = before.length + 3 by simp [startCode], ← eq_of_cutStart hcut] at hslices
  rw [splitNals, starts_of_cut 0 hcut, Nat.zero_add, hslices]

theorem splitNals_coded {units : List (Bool × List UInt8)} (h : ∀ u ∈ units, Payload u.2) :
    splitNals (units.flatMap coded) = units.map (·.2) := by
  cases units with
  | nil => rfl
  | cons u units =>
    rw [List.forall_mem_cons] at h
    have hcut : cutStart ((u :: units).flatMap coded) = some ([] ++ (if u.1 then [0] else []), u.2 ++ units.flatMap coded) :=
      cutStart_coded (by decide : ¬startCode <:+: []) u (units.flatMap coded)
    exact splitNals_of_cut hcut (segments_coded h.1 h.2)

theorem auInfo_key (au : List UInt8) : (auInfo au).key = (splitNals au).any fun nal => nalType nal = 5 := by
  have hfold : ∀ (nals : List (List UInt8)) (info : AuInfo), (nals.foldl
      (fun info nal =>
        { key := if nalType nal = 5 then true else info.key
          sps := if nalType nal = 7 then some nal else info.sps
          pps := if nalType nal = 8 then some nal else info.pps : AuInfo }) info).key =
      (info.key || nals.any fun nal => nalType nal = 5) := by
    intro nals
    induction nals with
    | nil => simp
    | cons nal nals ih =>
      intro info
      rw [List.foldl_cons, ih, List.any_cons]
      by_cases hkey : nalType nal = 5
      · simp [hkey]
      · simp [hkey]
  exact (hfold _ {}).trans (Bool.false_or _)

end Waypoint.Dashboard
