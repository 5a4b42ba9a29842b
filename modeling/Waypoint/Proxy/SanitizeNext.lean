import Waypoint.Base.LexPath

/-!
# The redirect after sign-in

`SanitizeNext` of `authkit/next.go` compares the target with the paths of the sign-in as it is written; the browser and the router resolve it first.
-/

namespace Waypoint.Proxy

open Base LexPath

def loops : List String := ["/auth/login", "/auth/callback", "/auth/logout"]

def sanitizeNext (s : String) : String :=
  if s = "" then "/"
  else if ¬hasPrefix s "/" then "/"
  else if hasPrefix s "//" then "/"
  else if '\\' ∈ s.toList then "/"
  else if s.toList.any fun c => c.toNat < 0x20 ∨ c.toNat = 0x7f then "/"
  else if contains s "%5C" ∨ contains s "%5c" then "/"
  else if ∃ p ∈ loops, s = p ∨ hasPrefix s (p ++ "?") ∨ hasPrefix s (p ++ "/") then "/"
  else s

def pathPart (s : String) : String := String.ofList (s.toList.takeWhile fun c => c ≠ '?' && c ≠ '#')

def hexValue (c : Char) : Option Nat :=
  if '0' ≤ c ∧ c ≤ '9' then some (c.toNat - 48)
  else if 'a' ≤ c.toLower ∧ c.toLower ≤ 'f' then some (c.toLower.toNat - 87)
  else none

/-- The ASCII character behind two hexadecimal digits. -/
def escaped (high low : Char) : Option Char := do
  let n := 16 * (← hexValue high) + (← hexValue low)
  if n < 0x80 then some (Char.ofNat n) else none

def unescape : List Char → List Char
  | [] => []
  | c :: cs =>
    match c, cs with
    | '%', high :: low :: rest =>
      match escaped high low with
      | some d => d :: unescape rest
      | none => '%' :: unescape (high :: low :: rest)
    | c, cs => c :: unescape cs

/-- The path that is asked for: what stands before a query or a fragment, each segment unescaped, and empty, `.` and `..`
segments resolved. Browsers take `%2e` for a dot as well. -/
def resolved (s : String) : LexPath :=
  ((fields '/' (pathPart s)).map fun e => String.ofList (unescape e.toList)).foldl push ⟨hasPrefix s "/", []⟩

def LoopFree (s : String) : Prop := ∀ p ∈ loops, ¬Within (ofString p) (resolved s)

instance (s : String) : Decidable (LoopFree s) := inferInstanceAs (Decidable (∀ p ∈ loops, _))

/-- What a redirect target has to look like. -/
structure Redirectable (target : String) : Prop where
  slash : hasPrefix target "/" = true ∧ ¬hasPrefix target "//" = true
  printable : ∀ c ∈ target.toList, c ≠ '\\' ∧ ¬(c.toNat < 0x20 ∨ c.toNat = 0x7f)
  fixed : sanitizeNext target = target

/-- A string that none of the tests on the text refuses. -/
structure Passes (s : String) : Prop where
  slash : hasPrefix s "/" = true ∧ ¬hasPrefix s "//" = true
  printable : ∀ c ∈ s.toList, c ≠ '\\' ∧ ¬(c.toNat < 0x20 ∨ c.toNat = 0x7f)
  encoded : ¬(contains s "%5C" = true ∨ contains s "%5c" = true)
  written : ∀ p ∈ loops, ¬(s = p ∨ hasPrefix s (p ++ "?") = true ∨ hasPrefix s (p ++ "/") = true)

/-- A string that is resolved to what is written: it has no fragment, and its segments are names without escapes, up to an
empty last one. -/
structure WrittenOut (s : String) : Prop where
  fragment : '#' ∉ s.toList
  escapes : ∀ e ∈ fields '/' (pathPart s), '%' ∉ e.toList
  segments : ∀ e ∈ (fields '/' (pathPart s)).tail.dropLast, Plain e
  last : ∀ e ∈ (fields '/' (pathPart s)).getLast?, e = "" ∨ Plain e

variable {s p : String}

theorem sanitizeNext_of_passes (h : Passes s) : sanitizeNext s = s := by
  have hempty : s ≠ "" := by
    rintro rfl
    exact absurd h.slash.1 (by decide)
  have hback : '\\' ∉ s.toList := fun hmem => (h.printable _ hmem).1 rfl
  have hcontrol : ¬(s.toList.any fun c => c.toNat < 0x20 ∨ c.toNat = 0x7f) = true := by
    rw [List.any_eq_true]
    rintro ⟨c, hc, hbad⟩
    exact (h.printable c hc).2 (of_decide_eq_true hbad)
  have hloop : ¬∃ p ∈ loops, s = p ∨ hasPrefix s (p ++ "?") = true ∨ hasPrefix s (p ++ "/") = true :=
    fun ⟨p, hp, hwritten⟩ => h.written p hp hwritten
  rw [sanitizeNext, if_neg hempty, if_neg (not_not_intro h.slash.1), if_neg h.slash.2, if_neg hback, if_neg hcontrol,
    if_neg h.encoded, if_neg hloop]

theorem passes_of_kept (hroot : sanitizeNext s ≠ "/") : Passes s := by
  unfold sanitizeNext at hroot
  simp only [ne_eq, ite_eq_left_iff, Classical.not_imp] at hroot
  obtain ⟨-, hslash, hdouble, hback, hcontrol, hencoded, hloop, -⟩ := hroot
  refine ⟨⟨not_not.mp hslash, hdouble⟩, fun c hc => ⟨?_, fun h => hcontrol (List.any_eq_true.mpr ⟨c, hc, decide_eq_true h⟩)⟩,
    hencoded, fun p hp h => hloop ⟨p, hp, h⟩⟩
  rintro rfl
  exact hback hc

theorem passes_root : Passes "/" :=
  ⟨by decide +kernel, List.forall_mem_singleton.mpr (by decide), by decide +kernel, by decide +kernel⟩

theorem redirectable_of_passes (h : Passes s) : Redirectable s := ⟨h.slash, h.printable, sanitizeNext_of_passes h⟩

theorem unescape_of_not_mem {cs : List Char} (h : '%' ∉ cs) : unescape cs = cs := by
  induction cs with
  | nil => rfl
  | cons c cs ih =>
    rw [List.mem_cons, not_or] at h
    unfold unescape
    split
    · exact absurd rfl h.1
    · rw [ih h.2]

theorem append_pathPart (hfragment : '#' ∉ s.toList) : s = pathPart s ∨ hasPrefix s (pathPart s ++ "?") = true := by
  have hsplit := List.takeWhile_append_dropWhile (p := fun c => c ≠ '?' && c ≠ '#') (l := s.toList)
  cases hrest : s.toList.dropWhile fun c => c ≠ '?' && c ≠ '#' with
  | nil =>
    left
    rw [hrest, List.append_nil] at hsplit
    rw [pathPart, hsplit, String.ofList_toList]
  | cons c rest =>
    right
    have hstop := List.head?_dropWhile_not (p := fun c => c ≠ '?' && c ≠ '#') (l := s.toList)
    rw [hrest] at hsplit hstop
    have hc : c = '?' := by
      have hmem : c ∈ s.toList := hsplit ▸ List.mem_append_right _ List.mem_cons_self
      by_contra hquery
      have hother : c ≠ '#' := fun h => hfragment (h ▸ hmem)
      simp [hquery, hother] at hstop
    rw [hasPrefix_iff]
    refine ⟨String.ofList rest, ?_⟩
    rw [← String.toList_inj, ← hsplit, hc]
    simp [pathPart]

theorem fields_pathPart (hslash : hasPrefix s "/" = true) :
    hasPrefix (pathPart s) "/" = true ∧ ∃ rest, fields '/' (pathPart s) = "" :: fields '/' (pathPart rest) := by
  obtain ⟨rest, rfl⟩ := hasPrefix_iff.mp hslash
  have hpath : pathPart ("/" ++ rest) = "" ++ "/" ++ pathPart rest := by
    rw [← String.toList_inj]
    simp [pathPart]
  refine ⟨hasPrefix_iff.mpr ⟨pathPart rest, hpath⟩, rest, ?_⟩
  rw [hpath, fields_append_sep "" _ rfl]
  rfl

theorem resolved_of_writtenOut (h : WrittenOut s) (hslash : hasPrefix s "/" = true) : resolved s = ofString (pathPart s) := by
  have hmap : (fields '/' (pathPart s)).map (fun e => String.ofList (unescape e.toList)) = fields '/' (pathPart s) := by
    refine (List.map_congr_left fun e he => ?_).trans (List.map_id _)
    rw [unescape_of_not_mem (h.escapes e he), String.ofList_toList]
    rfl
  rw [resolved, hmap, hslash, ofString, (fields_pathPart hslash).1]

theorem fields_loop (hp : p ∈ loops) : ∃ names, names ≠ [] ∧ fields '/' p = "" :: names ∧ ∀ e ∈ names, Plain e := by
  have hall : ∀ p ∈ loops, (fields '/' p).tail ≠ [] ∧ fields '/' p = "" :: (fields '/' p).tail ∧
      ∀ e ∈ (fields '/' p).tail, Plain e := by decide +kernel
  exact ⟨_, hall p hp⟩

theorem loopFree_of_writtenOut (h : WrittenOut s) (hpasses : Passes s) : LoopFree s := by
  intro p hp hwithin
  refine hpasses.written p hp ?_
  rw [resolved_of_writtenOut h hpasses.slash.1] at hwithin
  obtain ⟨-, rest, hfields⟩ := fields_pathPart hpasses.slash.1
  obtain ⟨segs, last, hsegs⟩ := List.eq_nil_or_concat' (fields '/' (pathPart rest)) |>.resolve_left (fields_ne_nil _)
  have hplain := h.segments
  have hlast := h.last
  rw [hfields, hsegs] at hplain hlast
  rw [hsegs] at hfields
  obtain ⟨names, hne, hnames, hloop⟩ := fields_loop hp
  have hpath := written_of_within hnames hne hloop hfields (by simpa using hplain) (hlast last (by rw [← List.cons_append, List.getLast?_concat]; rfl)) hwithin
  rcases append_pathPart h.fragment with hs | hquery
  · rw [← hs] at hpath
    exact hpath.imp_right .inr
  obtain ⟨query, hquery⟩ := hasPrefix_iff.mp hquery
  rcases hpath with hpath | hbelow
  · exact .inr (.inl (hasPrefix_iff.mpr ⟨query, hpath ▸ hquery⟩))
  obtain ⟨below, hbelow⟩ := hasPrefix_iff.mp hbelow
  refine .inr (.inr (hasPrefix_iff.mpr ⟨below ++ "?" ++ query, ?_⟩))
  rw [hquery, hbelow]
  simp only [String.append_assoc]

/-- Every target can be redirected to. It is free of loops exactly if a string that passes the tests on the text is not resolved
to a path of the sign-in; strings that are resolved to what is written are not. -/
theorem sanitizeNext_safe (s : String) :
    Redirectable (sanitizeNext s) ∧ (LoopFree (sanitizeNext s) ↔ (Passes s → LoopFree s)) ∧
      (WrittenOut s → LoopFree (sanitizeNext s)) := by
  have hroot : LoopFree "/" := by decide +kernel
  by_cases hpasses : Passes s
  · rw [sanitizeNext_of_passes hpasses]
    exact ⟨redirectable_of_passes hpasses, ⟨fun h _ => h, fun h => h hpasses⟩, fun h => loopFree_of_writtenOut h hpasses⟩
  · have hrefused : sanitizeNext s = "/" := by
      by_contra hkept
      exact hpasses (passes_of_kept hkept)
    rw [hrefused]
    exact ⟨redirectable_of_passes passes_root, ⟨fun _ h => absurd h hpasses, fun _ => hroot⟩, fun _ => hroot⟩

/-- A fragment, a dot segment, an empty one and an escaped dot each hide the way back to the sign-in. -/
theorem hidden_loops :
    ¬LoopFree (sanitizeNext "/auth/login#x") ∧ ¬LoopFree (sanitizeNext "/./auth/login") ∧ ¬LoopFree (sanitizeNext "/auth//login") ∧
      ¬LoopFree (sanitizeNext "/rovers/../auth/logout") ∧ ¬LoopFree (sanitizeNext "/%2e/auth/login") := by
  decide +kernel

end Waypoint.Proxy
