import Mathlib.Data.List.Infix

/-!
# Text: prefixes, endings, fields and lines

Subjects, paths and configuration files are strings that a reader takes apart at one character.
-/

namespace Base

def fields (sep : Char) (s : String) : List String := (s.toList.splitOn sep).map String.ofList

variable {sep : Char}

theorem fields_ne_nil (s : String) : fields sep s ≠ [] := by
  simp [fields, List.splitOn_ne_nil]

variable {s x : String}

theorem fields_of_not_mem (h : sep ∉ s.toList) : fields sep s = [s] := by
  rw [fields, List.splitOn_eq_singleton h]
  simp

theorem fields_append_sep (x y : String) (hs : s.toList = [sep]) :
    fields sep (x ++ s ++ y) = fields sep x ++ fields sep y := by
  have hlist : (x ++ s ++ y).toList = x.toList ++ sep :: y.toList := by simp [hs]
  rw [fields, hlist, List.splitOn_append_cons_self, List.map_append]
  rfl

theorem splitOn_append {xs ys last first : List Char} {init rest : List (List Char)}
    (hxs : xs.splitOn sep = init ++ [last]) (hys : ys.splitOn sep = first :: rest) :
    (xs ++ ys).splitOn sep = init ++ (last ++ first) :: rest := by
  induction xs generalizing init last with
  | nil =>
    cases init with
    | nil =>
      cases hxs
      exact hys
    | cons a init => simp at hxs
  | cons c xs ih =>
    obtain hnil | ⟨kept, tail, htail⟩ := List.eq_nil_or_concat' (xs.splitOn sep)
    · exact absurd hnil (List.splitOn_ne_nil sep xs)
    rw [List.splitOn_cons_eq_if_modifyHead, htail] at hxs
    rw [List.cons_append, List.splitOn_cons_eq_if_modifyHead, ih htail]
    by_cases hc : (c == sep) = true
    · rw [if_pos hc] at hxs ⊢
      obtain ⟨rfl, hlast⟩ := List.append_inj' (show ([] :: kept) ++ [tail] = init ++ [last] from hxs) rfl
      cases hlast
      rfl
    · rw [if_neg hc] at hxs ⊢
      cases kept with
      | nil =>
        obtain ⟨rfl, hlast⟩ := List.append_inj' (show [] ++ [c :: tail] = init ++ [last] from hxs) rfl
        cases hlast
        rfl
      | cons a kept =>
        obtain ⟨rfl, hlast⟩ := List.append_inj' (show ((c :: a) :: kept) ++ [tail] = init ++ [last] from hxs) rfl
        cases hlast
        rfl

theorem fields_append {y last first : String} {init rest : List String} (hx : fields sep x = init ++ [last])
    (hy : fields sep y = first :: rest) : fields sep (x ++ y) = init ++ (last ++ first) :: rest := by
  obtain ⟨init, last, hxs, rfl, hlast⟩ := List.map_eq_append_iff.mp hx
  obtain ⟨last, rfl, rfl⟩ := List.map_eq_singleton_iff.mp hlast
  obtain ⟨first, rest, hys, rfl, rfl⟩ := List.map_eq_cons_iff.mp hy
  rw [fields, String.toList_append, splitOn_append hxs hys]
  simp

theorem fields_intercalate {xs : List String} (hs : s.toList = [sep]) (hne : xs ≠ [])
    (hxs : ∀ x ∈ xs, sep ∉ x.toList) : fields sep (s.intercalate xs) = xs := by
  rw [fields, String.toList_intercalate, hs, List.splitOn_intercalate sep (by simpa using hxs) (by simpa using hne)]
  simp

theorem intercalate_fields (x : String) (hs : s.toList = [sep]) : s.intercalate (fields sep x) = x := by
  rw [← String.toList_inj, String.toList_intercalate, hs, fields]
  simp [Function.comp_def, List.intercalate_splitOn]

theorem not_mem_of_mem_splitOn {cs l : List Char} (hl : l ∈ cs.splitOn sep) : sep ∉ l := by
  induction cs generalizing l with
  | nil => simp_all
  | cons c cs ih =>
    rw [List.splitOn_cons_eq_if_modifyHead] at hl
    split at hl
    · rcases List.mem_cons.mp hl with rfl | hl
      · exact List.not_mem_nil
      · exact ih hl
    rename_i hc
    have hc : sep ≠ c := fun h => hc (by simp [h])
    cases hsplit : cs.splitOn sep with
    | nil => simp [hsplit] at hl
    | cons first rest =>
      rw [hsplit, List.modifyHead_cons] at hl
      rw [hsplit] at ih
      rcases List.mem_cons.mp hl with rfl | hl
      · simpa [hc] using ih List.mem_cons_self
      · exact ih (List.mem_cons_of_mem _ hl)

theorem not_mem_of_mem_fields (hx : x ∈ fields sep s) : sep ∉ x.toList := by
  obtain ⟨l, hl, rfl⟩ := List.mem_map.mp hx
  simpa using not_mem_of_mem_splitOn hl

theorem mem_of_mem_fields {c : Char} (hx : x ∈ fields sep s) (hc : c ∈ x.toList) : c ∈ s.toList := by
  have hlist : ∀ cs : List Char, ∀ l ∈ cs.splitOn sep, ∀ c ∈ l, c ∈ cs := by
    intro cs
    induction cs with
    | nil => simp
    | cons d cs ih =>
      rw [List.splitOn_cons_eq_if_modifyHead]
      split
      · simp only [List.forall_mem_cons, List.not_mem_nil, false_implies, implies_true, true_and]
        exact fun l hl c hc => List.mem_cons_of_mem _ (ih l hl c hc)
      cases hsplit : cs.splitOn sep with
      | nil => simp
      | cons first rest =>
        rw [hsplit] at ih
        simp only [List.modifyHead_cons, List.forall_mem_cons] at ih ⊢
        exact ⟨⟨List.mem_cons_self, fun c hc => List.mem_cons_of_mem _ (ih.1 c hc)⟩,
          fun l hl c hc => List.mem_cons_of_mem _ (ih.2 l hl c hc)⟩
  obtain ⟨l, hl, rfl⟩ := List.mem_map.mp hx
  exact hlist s.toList l hl c (by simpa using hc)

def unlines : List String → String
  | [] => ""
  | x :: xs => x ++ "\n" ++ unlines xs

@[simp] theorem unlines_append (xs ys : List String) : unlines (xs ++ ys) = unlines xs ++ unlines ys := by
  induction xs with
  | nil => simp [unlines]
  | cons x xs ih => simp [unlines, ih, String.append_assoc]

/-! ### Lines -/

/-- Line feed, carriage return and NUL end a line. -/
def endsLine (c : Char) : Bool := c = '\n' || c = '\r' || c = '\x00'

def unended (s : String) : Bool := s.toList.all fun c => !endsLine c

/-- A reader of configuration files by lines. Which of the characters that end a line count as one end together is left open. -/
structure LineReader where
  lines : String → List String
  lines_empty : lines "" = []
  lines_single {x : String} : unended x = true → lines (x ++ "\n") = [x]
  lines_append (x : String) {y : String} : (∀ c ∈ y.toList.head?, endsLine c = false) →
    lines (x ++ "\n" ++ y) = lines (x ++ "\n") ++ lines y

theorem LineReader.lines_unlines (R : LineReader) {xs : List String}
    (h : ∀ x ∈ xs, ∃ c ∈ x.toList.head?, endsLine c = false) :
    R.lines (unlines xs) = xs.flatMap fun x => R.lines (x ++ "\n") := by
  induction xs with
  | nil => exact R.lines_empty
  | cons x xs ih =>
    rw [List.forall_mem_cons] at h
    rw [unlines, R.lines_append, ih h.2, List.flatMap_cons]
    intro c hc
    cases xs with
    | nil => cases hc
    | cons y xs =>
      obtain ⟨d, hd, hend⟩ := h.2 y List.mem_cons_self
      rw [unlines, String.toList_append, String.toList_append, List.head?_append, List.head?_append, Option.mem_def.mp hd] at hc
      cases hc
      exact hend

/-- The characters that have ended the line so far: one more of a kind, or anything after a NUL, belongs to the next line. -/
def markedLines : List Char → List Char → List Char → List (List Char)
  | seen, line, [] => if line = [] ∧ seen = [] then [] else [line]
  | seen, line, c :: cs =>
    if endsLine c then
      if '\x00' ∈ seen ∨ c ∈ seen then line :: markedLines [c] [] cs else markedLines (c :: seen) line cs
    else if seen = [] then markedLines [] (line ++ [c]) cs
    else line :: markedLines [] [c] cs

theorem markedLines_plain {x : List Char} (h : ∀ c ∈ x, endsLine c = false) (line : List Char) :
    markedLines [] line (x ++ ['\n']) = [line ++ x] := by
  induction x generalizing line with
  | nil => simp [markedLines, endsLine]
  | cons c x ih =>
    rw [List.forall_mem_cons] at h
    simp [markedLines, h.1, ih h.2]

theorem markedLines_next {y : List Char} (hy : ∀ c ∈ y.head?, endsLine c = false) {seen : List Char} (hseen : seen ≠ [])
    (line : List Char) : markedLines seen line y = line :: markedLines [] [] y := by
  cases y with
  | nil => simp [markedLines, hseen]
  | cons c y => simp [markedLines, hy c rfl, hseen]

theorem markedLines_append {y : List Char} (hy : ∀ c ∈ y.head?, endsLine c = false) (seen line x : List Char) :
    markedLines seen line (x ++ '\n' :: y) = markedLines seen line (x ++ ['\n']) ++ markedLines [] [] y := by
  induction x generalizing seen line with
  | nil =>
    simp only [List.nil_append, markedLines, show endsLine '\n' = true from rfl, if_true]
    split
    · rw [markedLines_next hy (List.cons_ne_nil _ _)]
      rfl
    · rw [markedLines_next hy (List.cons_ne_nil _ _)]
      simp
  | cons c x ih =>
    simp only [List.cons_append, markedLines]
    split
    · split <;> simp [ih]
    · split <;> simp [ih]

/-- The reader of systemd. -/
def LineReader.systemd : LineReader where
  lines s := (markedLines [] [] s.toList).map String.ofList
  lines_empty := rfl
  lines_single {x} h := by
    rw [String.toList_append, show "\n".toList = ['\n'] from rfl, markedLines_plain (by simpa [unended] using h)]
    simp
  lines_append x {y} hy := by
    have hsplit := markedLines_append hy [] [] x.toList
    simp only [String.toList_append, show "\n".toList = ['\n'] from rfl, List.append_assoc, List.singleton_append, hsplit,
      List.map_append]

def hasPrefix (s start : String) : Bool := start.toList.isPrefixOf s.toList

theorem hasPrefix_iff {start : String} : hasPrefix s start = true ↔ ∃ rest, s = start ++ rest := by
  rw [hasPrefix, List.isPrefixOf_iff_prefix]
  constructor
  · rintro ⟨rest, hrest⟩
    refine ⟨String.ofList rest, ?_⟩
    rw [← String.toList_inj]
    simp [hrest]
  · rintro ⟨rest, rfl⟩
    exact ⟨rest.toList, by simp⟩

def contains (s part : String) : Bool := part.toList <:+: s.toList

def cutSuffix (s ending : String) : Option String :=
  if ending.toList.isSuffixOf s.toList then
    some (String.ofList (s.toList.take (s.toList.length - ending.toList.length)))
  else none

theorem append_ne_append_of_getLast {y e f : String} (he : e.toList ≠ []) (hf : f.toList ≠ [])
    (hne : e.toList.getLast? ≠ f.toList.getLast?) : x ++ e ≠ y ++ f := by
  intro h
  have hlast := congrArg (fun s : String => s.toList.getLast?) h
  simp only [String.toList_append, List.getLast?_append_of_ne_nil _ he, List.getLast?_append_of_ne_nil _ hf] at hlast
  exact hne hlast

end Base
