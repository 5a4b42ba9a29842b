import Mathlib.Data.List.Infix

/-!
# Byte streams with start codes

A stream of payloads, each behind the bytes `00 00 01` or `00 00 00 01`.
-/

namespace Base

def startCode : List UInt8 := [0, 0, 1]

def cutStart : List UInt8 → Option (List UInt8 × List UInt8)
  | [] => none
  | b :: rest =>
    if startCode <+: b :: rest then some ([], rest.drop 2)
    else (cutStart rest).map fun cut => (b :: cut.1, cut.2)

theorem cutStart_code (rest : List UInt8) : cutStart (startCode ++ rest) = some ([], rest) := by
  have hfront : startCode <+: 0 :: 0 :: 1 :: rest := ⟨rest, rfl⟩
  change cutStart (0 :: 0 :: 1 :: rest) = _
  rw [cutStart, if_pos hfront]
  rfl

variable {before l p : List UInt8}

theorem cutStart_append (h : ¬startCode <:+: before ++ [0, 0]) (after : List UInt8) :
    cutStart (before ++ startCode ++ after) = some (before, after) := by
  induction before with
  | nil => exact cutStart_code after
  | cons b before ih =>
    rw [List.cons_append, List.infix_cons_iff, not_or] at h
    have hfront : ¬startCode <+: b :: (before ++ startCode ++ after) := by
      intro hfront
      refine h.1 (List.prefix_of_prefix_length_le hfront ⟨1 :: after, ?_⟩ ?_)
      · simp [startCode]
      · simp [startCode]
    rw [List.cons_append, List.cons_append, cutStart, if_neg hfront, ih h.2]
    rfl

theorem eq_of_cutStart {after : List UInt8} (h : cutStart l = some (before, after)) :
    l = before ++ startCode ++ after := by
  induction l generalizing before with
  | nil => cases h
  | cons b l ih =>
    rw [cutStart] at h
    by_cases hfront : startCode <+: b :: l
    · rw [if_pos hfront] at h
      cases h
      obtain ⟨rest, hrest⟩ := hfront
      cases hrest
      rfl
    · rw [if_neg hfront] at h
      obtain ⟨cut, hcut, heq⟩ := Option.map_eq_some_iff.mp h
      cases heq
      rw [ih hcut]
      rfl

theorem cutStart_eq_none_iff : cutStart l = none ↔ ¬startCode <:+: l := by
  induction l with
  | nil => exact iff_of_true rfl (by decide)
  | cons b l ih =>
    rw [cutStart, List.infix_cons_iff, not_or]
    by_cases hfront : startCode <+: b :: l
    · rw [if_pos hfront]
      exact iff_of_false (fun h => by cases h) fun h => h.1 hfront
    · rw [if_neg hfront, Option.map_eq_none_iff, ih]
      exact (and_iff_right hfront).symm

theorem not_infix_zeros (h : ¬startCode <:+: l) (n : Nat) : ¬startCode <:+: l ++ List.replicate n 0 := by
  induction n with
  | zero => rwa [List.replicate_zero, List.append_nil]
  | succ n ih =>
    rw [List.replicate_succ', ← List.append_assoc, List.infix_concat_iff, not_or]
    refine ⟨?_, ih⟩
    rintro ⟨before, hbefore⟩
    have hlast := congrArg List.getLast? hbefore
    simp [startCode] at hlast

structure Payload (p : List UInt8) : Prop where
  nonempty : p ≠ []
  clean : ¬startCode <:+: p
  last : p.getLast? ≠ some 0

def coded (unit : Bool × List UInt8) : List UInt8 := (if unit.1 then [0] else []) ++ startCode ++ unit.2

theorem cutStart_coded (h : ¬startCode <:+: before) (unit : Bool × List UInt8) (rest : List UInt8) :
    cutStart (before ++ (coded unit ++ rest)) = some (before ++ (if unit.1 then [0] else []), unit.2 ++ rest) := by
  have hsplit : before ++ (coded unit ++ rest) = before ++ (if unit.1 then [0] else []) ++ startCode ++ (unit.2 ++ rest) := by
    simp only [coded, List.append_assoc]
  rw [hsplit]
  apply cutStart_append
  cases unit.1 with
  | true =>
    have hzeros := not_infix_zeros h 3
    simpa using hzeros
  | false =>
    have hzeros := not_infix_zeros h 2
    simpa using hzeros

/-- One zero at the end belongs to the start code that follows. -/
def trimZero (l : List UInt8) : List UInt8 := if l.getLast? = some 0 then l.dropLast else l

/-- The pieces between the start codes. -/
inductive Segments : List UInt8 → List (List UInt8) → Prop
  | last {l : List UInt8} (h : cutStart l = none) : Segments l [l]
  | cut {l before after : List UInt8} {rest : List (List UInt8)} (h : cutStart l = some (before, after))
      (hrest : Segments after rest) : Segments l (trimZero before :: rest)

theorem trimZero_append (h : p.getLast? ≠ some 0) (long : Bool) :
    trimZero (p ++ (if long then [0] else [])) = p := by
  cases long with
  | true => simp [trimZero]
  | false => simp [trimZero, h]

theorem segments_coded {units : List (Bool × List UInt8)} (hp : Payload p)
    (hunits : ∀ u ∈ units, Payload u.2) : Segments (p ++ units.flatMap coded) (p :: units.map (·.2)) := by
  induction units generalizing p with
  | nil =>
    rw [List.flatMap_nil, List.append_nil]
    exact .last (cutStart_eq_none_iff.mpr hp.clean)
  | cons u units ih =>
    rw [List.forall_mem_cons] at hunits
    have hcut := Segments.cut (cutStart_coded hp.clean u (units.flatMap coded)) (ih hunits.1 hunits.2)
    rwa [trimZero_append hp.last] at hcut

end Base
