import Waypoint.Base.AnnexB

/-!
# Reading NAL units

The reader of the camera pipeline's output, `h264/annexb.go`. The first call looks for a start code through a window of four bytes; every call then collects bytes until they end in a start code.
-/

namespace Waypoint.Agent.Recorder

open Base

inductive ReadError
  | eof
  | other (message : String)
  deriving DecidableEq

/-- The bytes that are still to be read and the error after them; whether a call has found the first start code, and whether the last NAL unit was returned. -/
structure NalReader where
  input : List UInt8
  failure : ReadError := .eof
  inside : Bool := false
  eofd : Bool := false

def skipToStart : UInt8 × UInt8 × UInt8 × UInt8 → List UInt8 → Option (List UInt8)
  | _, [] => none
  | (_, w1, w2, w3), b :: rest =>
    let window := (w1, w2, w3, b)
    if window.2.1 = 0 ∧ window.2.2.1 = 0 ∧ window.2.2.2 = 1 then some rest
    else if window.1 = 0 ∧ window.2.1 = 0 ∧ window.2.2.1 = 0 ∧ window.2.2.2 = 1 then some rest
    else skipToStart window rest

def hasTrailingStart (p : List UInt8) : Bool :=
  if p.length < 3 then false
  else if p.drop (p.length - 3) = [0, 0, 1] then true
  else if p.length ≥ 4 then p.drop (p.length - 4) = [0, 0, 0, 1]
  else false

def trimTrailingStart (p : List UInt8) : List UInt8 × Nat :=
  if p.length ≥ 4 ∧ p.drop (p.length - 4) = [0, 0, 0, 1] then (p.take (p.length - 4), 4)
  else (p.take (p.length - 3), 3)

def NalReader.readPayload (r : NalReader) (payload : List UInt8) : List UInt8 → Except ReadError (List UInt8) × NalReader
  | [] =>
    if r.failure = .eof ∧ payload.length > 0 then (.ok payload, { r with input := [], inside := true, eofd := true })
    else (.error r.failure, { r with input := [], inside := true })
  | b :: rest =>
    let payload := payload ++ [b]
    if hasTrailingStart payload then (.ok (trimTrailingStart payload).1, { r with input := rest, inside := true })
    else r.readPayload payload rest

def NalReader.readNAL (r : NalReader) : Except ReadError (List UInt8) × NalReader :=
  if r.eofd then (.error .eof, r)
  else if r.inside then r.readPayload [] r.input
  else
    match skipToStart (0, 0, 0, 0) r.input with
    | none => (.error r.failure, { r with input := [] })
    | some rest => r.readPayload [] rest

def NalReader.reads (r : NalReader) : Nat → List (Except ReadError (List UInt8))
  | 0 => []
  | n + 1 => r.readNAL.1 :: r.readNAL.2.reads n

theorem hasTrailingStart_iff {p : List UInt8} : hasTrailingStart p = true ↔ startCode <:+ p := by
  have hsuffix : startCode <:+ p ↔ 3 ≤ p.length ∧ p.drop (p.length - 3) = [0, 0, 1] := by
    rw [List.suffix_iff_eq_drop]
    constructor
    · intro h
      have hlength := congrArg List.length h
      rw [List.length_drop] at hlength
      have hthree : startCode.length = 3 := rfl
      exact ⟨by omega, h.symm⟩
    · exact fun h => h.2.symm
  have hlong : 4 ≤ p.length → p.drop (p.length - 4) = [0, 0, 0, 1] → p.drop (p.length - 3) = [0, 0, 1] := by
    intro hlength h
    have hdrop := congrArg (List.drop 1) h
    rw [List.drop_drop, show p.length - 4 + 1 = p.length - 3 by omega] at hdrop
    exact hdrop
  rw [hsuffix]
  unfold hasTrailingStart
  split
  · rename_i hshort
    exact iff_of_false (by decide) fun h => by omega
  rename_i hlength
  have hthree : 3 ≤ p.length := by omega
  split
  · rename_i htail
    exact iff_of_true rfl ⟨hthree, htail⟩
  rename_i htail
  split
  · rename_i hfour
    rw [decide_eq_true_eq]
    exact iff_of_false (fun h => htail (hlong hfour h)) fun h => htail h.2
  · exact iff_of_false (by decide) fun h => htail h.2

theorem trimTrailingStart_append (before : List UInt8) : (trimTrailingStart (before ++ startCode)).1 = trimZero before := by
  rcases List.eq_nil_or_concat' before with rfl | ⟨init, x, rfl⟩
  · rfl
  have hlength : (init ++ [x] ++ startCode).length = init.length + 4 := by simp [startCode]
  have hfour : (init ++ [x] ++ startCode).drop (init.length + 4 - 4) = [x, 0, 0, 1] := by
    rw [Nat.add_sub_cancel, List.append_assoc, List.drop_left]
    rfl
  have htake : (init ++ [x] ++ startCode).take (init.length + 4 - 3) = init ++ [x] := by
    rw [show init.length + 4 - 3 = (init ++ [x]).length by simp, List.take_left]
  unfold trimTrailingStart trimZero
  rw [hlength, hfour, htake]
  by_cases hx : x = 0
  · rw [if_pos ⟨by omega, by rw [hx]⟩, if_pos (by simp [hx]), Nat.add_sub_cancel, List.append_assoc, List.take_left,
      List.dropLast_concat]
  · rw [if_neg fun h => hx (List.cons.inj h.2).1, if_neg (by simpa using hx)]

variable {payload input pre : List UInt8} {r : NalReader} {segments : List (List UInt8)}

theorem readPayload_cut (r : NalReader) {before after : List UInt8} (h : ¬startCode <:+: payload)
    (hcut : cutStart (payload ++ input) = some (before, after)) :
    r.readPayload payload input = (.ok (trimZero before), { r with input := after, inside := true }) := by
  induction input generalizing payload with
  | nil =>
    rw [List.append_nil, cutStart_eq_none_iff.mpr h] at hcut
    cases hcut
  | cons b rest ih =>
    rw [NalReader.readPayload]
    by_cases htail : startCode <:+ payload ++ [b]
    · obtain ⟨init, hinit⟩ := htail
      rw [if_pos (hasTrailingStart_iff.mpr ⟨init, hinit⟩), ← hinit, trimTrailingStart_append]
      -- all but the last byte was there before, with no start code in it
      have hpayload : init ++ [0, 0] = payload := by
        have hlast : init ++ [0, 0] ++ [1] = payload ++ [b] := by
          rw [List.append_assoc]
          exact hinit
        exact (List.append_inj' hlast rfl).1
      rw [← List.singleton_append, ← List.append_assoc, ← hinit, cutStart_append (hpayload ▸ h)] at hcut
      cases hcut
      rfl
    · rw [if_neg (mt hasTrailingStart_iff.mp htail)]
      apply ih
      · rw [List.infix_concat_iff, not_or]
        exact ⟨htail, h⟩
      · rwa [List.append_assoc]

theorem readPayload_last (hr : r.failure = .eof)
    (hcut : ¬startCode <:+: payload ++ input) (hne : payload ++ input ≠ []) :
    r.readPayload payload input = (.ok (payload ++ input), { r with input := [], inside := true, eofd := true }) := by
  induction input generalizing payload with
  | nil =>
    rw [List.append_nil] at hne ⊢
    rw [NalReader.readPayload, if_pos ⟨hr, List.length_pos_iff.mpr hne⟩]
  | cons b rest ih =>
    have htail : ¬startCode <:+ payload ++ [b] := by
      rintro ⟨init, hinit⟩
      refine hcut ⟨init, rest, ?_⟩
      rw [hinit, List.append_assoc]
      rfl
    rw [NalReader.readPayload, if_neg (mt hasTrailingStart_iff.mp htail), ih, List.append_assoc]
    · rfl
    · rwa [List.append_assoc]
    · simp

theorem skipToStart_eq (w0 w1 w2 w3 : UInt8) (input : List UInt8) :
    skipToStart (w0, w1, w2, w3) input = (cutStart (w2 :: w3 :: input)).map (·.2) := by
  induction input generalizing w0 w1 w2 w3 with
  | nil =>
    have hshort : ¬startCode <:+: [w2, w3] := fun h => absurd h.length_le (by simp [startCode])
    rw [cutStart_eq_none_iff.mpr hshort]
    rfl
  | cons b rest ih =>
    rw [skipToStart]
    dsimp only
    by_cases hstart : w2 = 0 ∧ w3 = 0 ∧ b = 1
    · obtain ⟨rfl, rfl, rfl⟩ := hstart
      rw [if_pos ⟨rfl, rfl, rfl⟩, show (0 : UInt8) :: 0 :: 1 :: rest = startCode ++ rest from rfl, cutStart_code]
      rfl
    have hprefix : ¬startCode <+: w2 :: w3 :: b :: rest := by
      rintro ⟨after, hafter⟩
      cases hafter
      exact hstart ⟨rfl, rfl, rfl⟩
    have hcut : cutStart (w2 :: w3 :: b :: rest) = (cutStart (w3 :: b :: rest)).map fun cut => (w2 :: cut.1, cut.2) := by
      rw [cutStart, if_neg hprefix]
    rw [if_neg hstart, if_neg fun h => hstart h.2, ih, hcut, Option.map_map]
    rfl

theorem reads_eofd (h : r.eofd = true) : r.reads 1 = [.error .eof] := by
  rw [NalReader.reads, NalReader.reads, NalReader.readNAL, if_pos h]

theorem reads_segments (h : Segments input segments)
    (hlast : segments.getLast? ≠ some []) :
    NalReader.reads { input, inside := true } (segments.length + 1) = segments.map .ok ++ [.error .eof] := by
  induction h with
  | @last l hcut =>
    have hne : l ≠ [] := by
      rintro rfl
      exact hlast rfl
    have hread : NalReader.readNAL { input := l, inside := true } = (.ok l, { input := [], inside := true, eofd := true }) :=
      readPayload_last rfl (cutStart_eq_none_iff.mp hcut) hne
    rw [List.length_singleton, NalReader.reads, hread, reads_eofd rfl]
    rfl
  | @cut l before after rest hcut hrest ih =>
    have hread : NalReader.readNAL { input := l, inside := true } = (.ok (trimZero before), { input := after, inside := true }) :=
      readPayload_cut _ (by decide) hcut
    have hlast' : rest.getLast? ≠ some [] := by
      cases hrest <;> simpa using hlast
    rw [List.length_cons, NalReader.reads, hread, ih hlast']
    rfl

theorem reads_concat (r : NalReader) (n : Nat) : ∃ result, r.reads (n + 1) = r.reads n ++ [result] := by
  induction n generalizing r with
  | zero => exact ⟨_, rfl⟩
  | succ n ih =>
    obtain ⟨result, hresult⟩ := ih r.readNAL.2
    refine ⟨result, ?_⟩
    rw [NalReader.reads, hresult]
    rfl

theorem reads_segments_ok (h : Segments input segments)
    (hlast : segments.getLast? ≠ some []) :
    NalReader.reads { input, inside := true } segments.length = segments.map .ok := by
  have hreads := reads_segments h hlast
  obtain ⟨result, hconcat⟩ := reads_concat { input, inside := true } segments.length
  rw [hconcat] at hreads
  exact (List.append_inj' hreads rfl).1

theorem readPayload_input (r : NalReader) (rest payload input : List UInt8) :
    r.readPayload payload input = NalReader.readPayload { r with input := rest, inside := true } payload input := by
  induction input generalizing payload with
  | nil => rfl
  | cons b input ih => rw [NalReader.readPayload, NalReader.readPayload, ih]

theorem reads_of_skip {rest : List UInt8} (h : skipToStart (0, 0, 0, 0) input = some rest) (n : Nat) :
    NalReader.reads { input } n = NalReader.reads { input := rest, inside := true } n := by
  cases n with
  | zero => rfl
  | succ n =>
    have hread : NalReader.readNAL { input } = NalReader.readNAL { input := rest, inside := true } := by
      simp only [NalReader.readNAL, h, Bool.false_eq_true, if_false, if_true]
      exact readPayload_input { input } rest [] rest
    rw [NalReader.reads, hread]
    rfl

/-- The first bytes of the stream and the zeros of the window look like a start code. -/
def PhantomStart (pre : List UInt8) : Prop := [1] <+: pre ∨ [0, 1] <+: pre

instance (pre : List UInt8) : Decidable (PhantomStart pre) := inferInstanceAs (Decidable (_ ∨ _))

theorem phantomStart_iff (hpre : ¬startCode <:+: pre) : startCode <:+: 0 :: 0 :: pre ↔ PhantomStart pre := by
  have hzero : startCode <+: 0 :: 0 :: pre ↔ [1] <+: pre := by simp [startCode, List.cons_prefix_cons]
  have hone : startCode <+: 0 :: pre ↔ [0, 1] <+: pre := by simp [startCode, List.cons_prefix_cons]
  rw [List.infix_cons_iff, List.infix_cons_iff, hzero, hone, PhantomStart, or_iff_left hpre]

theorem skipToStart_phantom (h : PhantomStart pre) (rest : List UInt8) :
    ∃ left, skipToStart (0, 0, 0, 0) (pre ++ rest) = some (left ++ rest) ∧ left <:+ pre := by
  rw [skipToStart_eq]
  rcases h with ⟨left, rfl⟩ | ⟨left, rfl⟩
  · have hcut : cutStart (0 :: 0 :: ([1] ++ left ++ rest)) = some ([], left ++ rest) := cutStart_code (left ++ rest)
    rw [hcut]
    exact ⟨left, rfl, List.suffix_append _ _⟩
  have hclean : ¬startCode <:+: [0] ++ [0, 0] := by decide
  have hcut : cutStart (0 :: 0 :: ([0, 1] ++ left ++ rest)) = some ([0], left ++ rest) :=
    cutStart_append hclean (left ++ rest)
  rw [hcut]
  exact ⟨left, rfl, List.suffix_append _ _⟩

/-- Bytes in which no start code begins are followed by payloads, each behind a start code. Successive calls return the
payloads and then the end of the stream, exactly if the first bytes are no phantom of a start code. -/
theorem reads_payloads_iff {pre : List UInt8} {units : List (Bool × List UInt8)} (hpre : ¬startCode <:+: pre)
    (hunits : ∀ u ∈ units, Payload u.2) (hne : units ≠ []) :
    NalReader.reads { input := pre ++ units.flatMap coded } (units.length + 1) =
        units.map (fun u => .ok u.2) ++ [.error .eof] ↔ ¬PhantomStart pre := by
  obtain ⟨u, units, rfl⟩ := List.exists_cons_of_ne_nil hne
  obtain ⟨hu, hrest⟩ := List.forall_mem_cons.mp hunits
  have hsegments := segments_coded hu hrest
  have hlast : (u.2 :: units.map (·.2)).getLast? ≠ some [] := by
    intro hlast
    rcases List.mem_cons.mp (List.mem_of_getLast? hlast) with hempty | hmem
    · exact hu.nonempty hempty.symm
    · obtain ⟨v, hv, hempty⟩ := List.mem_map.mp hmem
      exact (hrest v hv).nonempty hempty
  by_cases hphantom : PhantomStart pre
  · refine iff_of_false (fun hreturned => ?_) (not_not_intro hphantom)
    -- the first call returns what is left of the first bytes, and the others lag behind by one
    obtain ⟨left, hskip, hleft⟩ := skipToStart_phantom hphantom ((u :: units).flatMap coded)
    have hclean : ¬startCode <:+: left := fun h => hpre (h.trans hleft.isInfix)
    have hcut := Segments.cut (cutStart_coded hclean u (units.flatMap coded)) hsegments
    have hreads := reads_segments_ok hcut (by simpa using hlast)
    rw [List.length_cons, List.length_cons, List.length_map] at hreads
    rw [reads_of_skip hskip, List.length_cons, List.flatMap_cons, hreads] at hreturned
    have hend : Except.error ReadError.eof ∈ (u :: units).map (fun u => Except.ok u.2) ++ [Except.error ReadError.eof] :=
      List.mem_append_right _ List.mem_cons_self
    rw [← hreturned] at hend
    obtain ⟨segment, -, hsegment⟩ := List.mem_map.mp hend
    cases hsegment
  · refine iff_of_true ?_ hphantom
    have hskip : skipToStart (0, 0, 0, 0) (pre ++ (u :: units).flatMap coded) = some (u.2 ++ units.flatMap coded) := by
      have hzeros := mt (phantomStart_iff hpre).mp hphantom
      have hcut := cutStart_coded hzeros u (units.flatMap coded)
      rw [skipToStart_eq, List.flatMap_cons, ← List.cons_append, ← List.cons_append, hcut]
      rfl
    rw [reads_of_skip hskip]
    have hreads := reads_segments hsegments hlast
    rw [List.length_cons, List.length_map] at hreads
    rw [List.length_cons, hreads, ← List.map_cons, List.map_map]
    rfl

theorem reads_payloads_iff_mixed :
    (∀ u ∈ [(true, [0x67, 0x42]), (false, [0x68])], Payload u.2) ∧
      NalReader.reads { input := [0xff, 0] ++ [(true, [0x67, 0x42]), (false, [0x68])].flatMap coded } 3 =
        [.ok [0x67, 0x42], .ok [0x68], .error .eof] := by
  have hunits : ∀ u ∈ [(true, [0x67, 0x42]), (false, [0x68])], Payload u.2 := by
    simp only [List.forall_mem_cons, List.not_mem_nil, false_implies, implies_true, and_true]
    exact ⟨⟨by decide, by decide, by decide⟩, by decide, by decide, by decide⟩
  exact ⟨hunits, (reads_payloads_iff (by decide) hunits (List.cons_ne_nil _ _)).mpr (by decide)⟩

/-- One byte in front of the first start code: the first call returns an empty NAL unit. -/
theorem reads_phantom :
    ¬startCode <:+: [1] ∧ Payload [0x67] ∧
      NalReader.reads { input := [1] ++ [(false, [0x67])].flatMap coded } 2 = [.ok [], .ok [0x67]] :=
  ⟨by decide, ⟨by decide, by decide, by decide⟩, rfl⟩

end Waypoint.Agent.Recorder
