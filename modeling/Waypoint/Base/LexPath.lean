import Waypoint.Base.Text

/-!
# Lexical paths

Slash-separated paths and their lexical cleaning: empty elements and `.` disappear, `..` takes back the element before it, and at the root it disappears too.
-/

namespace Base

structure LexPath where
  rooted : Bool
  elements : List String

namespace LexPath

def push (p : LexPath) (e : String) : LexPath :=
  if e = "" ∨ e = "." then p
  else if e = ".." then
    match p.elements.getLast? with
    | none => if p.rooted then p else { p with elements := [".."] }
    | some last =>
      if last = ".." then { p with elements := p.elements ++ [".."] }
      else { p with elements := p.elements.dropLast }
  else { p with elements := p.elements ++ [e] }

def ofString (s : String) : LexPath := (fields '/' s).foldl push ⟨hasPrefix s "/", []⟩

def render (p : LexPath) : String :=
  if p.rooted then "/" ++ "/".intercalate p.elements
  else if p.elements = [] then "."
  else "/".intercalate p.elements

def Within (dir p : LexPath) : Prop :=
  p.rooted = dir.rooted ∧ ∃ rest, ".." ∉ rest ∧ p.elements = dir.elements ++ rest

theorem within_iff {dir p : LexPath} : Within dir p ↔
    p.rooted = dir.rooted ∧ dir.elements <+: p.elements ∧ ".." ∉ p.elements.drop dir.elements.length := by
  refine and_congr_right fun _ => ⟨?_, ?_⟩
  · rintro ⟨rest, hrest, helements⟩
    exact ⟨⟨rest, helements.symm⟩, by simpa [helements] using hrest⟩
  · rintro ⟨⟨rest, helements⟩, hrest⟩
    exact ⟨rest, by simpa [← helements] using hrest, helements.symm⟩

instance (dir p : LexPath) : Decidable (Within dir p) := decidable_of_iff _ within_iff.symm

theorem within_trans {a b c : LexPath} (hab : Within a b) (hbc : Within b c) : Within a c := by
  obtain ⟨hrooted, rest, hrest, helements⟩ := hab
  obtain ⟨hrooted', rest', hrest', helements'⟩ := hbc
  refine ⟨hrooted'.trans hrooted, rest ++ rest', ?_, by rw [helements', helements, List.append_assoc]⟩
  rw [List.mem_append, not_or]
  exact ⟨hrest, hrest'⟩

def Below (dir p : LexPath) : Prop := Within dir p ∧ p ≠ dir

end LexPath

def clean (s : String) : String := (LexPath.ofString s).render

/-- `path.Join` of two elements: empty ones are ignored. -/
def join (a b : String) : String :=
  if a ≠ "" then clean (a ++ "/" ++ b) else if b ≠ "" then clean b else ""

/-- `filepath.Join` of any number of elements: leading empty ones are ignored. -/
def joinAll (es : List String) : String :=
  match es.dropWhile (· = "") with
  | [] => ""
  | es => clean ("/".intercalate es)

/-- `filepath.Dir`: what stands before the last slash, cleaned. -/
def dir (s : String) : String := clean ("/".intercalate ((fields '/' s).dropLast ++ [""]))

namespace LexPath

/-- An element that `Clean` keeps as it is. -/
def Plain (e : String) : Prop := e ≠ "" ∧ e ≠ "." ∧ e ≠ ".."

theorem push_plain (p : LexPath) {e : String} (he : Plain e) : p.push e = { p with elements := p.elements ++ [e] } := by
  simp [push, he.1, he.2.1, he.2.2]

variable {names es dirs tail : List String} {stem p x last : String}

theorem foldl_push_names (hnames : ∀ e ∈ names, Plain e) (p : LexPath) :
    names.foldl push p = { p with elements := p.elements ++ names } := by
  induction names generalizing p with
  | nil => simp
  | cons e names ih =>
    rw [List.forall_mem_cons] at hnames
    rw [List.foldl_cons, push_plain p hnames.1, ih hnames.2, List.append_assoc]
    rfl

def inside : Nat → List String → Bool
  | _, [] => true
  | depth, e :: es =>
    if e = "" ∨ e = "." then inside depth es
    else if e = ".." then
      match depth with
      | 0 => false
      | depth + 1 => inside depth es
    else inside (depth + 1) es

theorem foldl_push_of_inside (rooted : Bool) (base : List String) {added : List String} (hadded : ".." ∉ added)
    (hinside : inside added.length es = true) :
    ∃ rest, ".." ∉ rest ∧ es.foldl push ⟨rooted, base ++ added⟩ = ⟨rooted, base ++ rest⟩ := by
  induction es generalizing added with
  | nil => exact ⟨added, hadded, rfl⟩
  | cons e es ih =>
    rw [List.foldl_cons]
    unfold inside at hinside
    by_cases hskip : e = "" ∨ e = "."
    · rw [if_pos hskip] at hinside
      rw [push, if_pos hskip]
      exact ih hadded hinside
    rw [if_neg hskip] at hinside
    by_cases hup : e = ".."
    · rw [if_pos hup] at hinside
      obtain rfl | ⟨kept, last, rfl⟩ := List.eq_nil_or_concat' added
      · cases hinside
      have hlast : last ≠ ".." := fun h => hadded (by simp [h])
      have hpush : push ⟨rooted, base ++ (kept ++ [last])⟩ e = ⟨rooted, base ++ kept⟩ := by
        simp [push, hup, ← List.append_assoc, hlast]
      rw [hpush]
      rw [List.length_append, List.length_singleton] at hinside
      exact ih (fun h => hadded (List.mem_append_left _ h)) hinside
    · rw [if_neg hup] at hinside
      rw [push_plain _ ⟨fun h => hskip (.inl h), fun h => hskip (.inr h), hup⟩, List.append_assoc]
      have hnext : ".." ∉ added ++ [e] := by simp [hadded, Ne.symm hup]
      exact ih hnext (by simpa using hinside)

theorem ofString_append {a : String} (ha : a ≠ "") (b : String) :
    ofString (a ++ "/" ++ b) = (fields '/' b).foldl push (ofString a) := by
  have hrooted : hasPrefix (a ++ "/" ++ b) "/" = hasPrefix a "/" := by
    obtain hnil | ⟨c, cs, hcons⟩ : a.toList = [] ∨ ∃ c cs, a.toList = c :: cs := by cases a.toList <;> simp
    · exact absurd (String.toList_inj.mp (hnil.trans rfl)) ha
    · simp [hasPrefix, hcons, List.isPrefixOf]
  rw [ofString, fields_append_sep a b rfl, List.foldl_append, hrooted, ofString]

structure Names (start : String) (dirs : List String) (stem : String) : Prop where
  written : start = "/" ++ "/".intercalate (dirs ++ [stem])
  fields_eq : fields '/' start = "" :: (dirs ++ [stem])
  dirs_plain : ∀ e ∈ dirs, Plain e
  stem_plain : ∀ t, Plain (stem ++ t)

theorem plain_append (hstem : stem ≠ "") (hdot : stem.toList.head? ≠ some '.') (t : String) :
    Plain (stem ++ t) := by
  obtain hnil | ⟨c, cs, hcons⟩ : stem.toList = [] ∨ ∃ c cs, stem.toList = c :: cs := by cases stem.toList <;> simp
  · exact absurd (String.toList_inj.mp (hnil.trans rfl)) hstem
  have hc : c ≠ '.' := by simpa [hcons] using hdot
  have hhead : ∀ e : String, stem ++ t = e → e.toList.head? = some c := by
    rintro e rfl
    simp [hcons]
  exact ⟨by simp [hstem], fun h => hc (Option.some.inj (hhead _ h)).symm,
    fun h => hc (Option.some.inj (hhead _ h)).symm⟩

theorem Names.fields_of_hasPrefix {start : String} (hnames : Names start dirs stem)
    (hstarts : hasPrefix p start = true) : ∃ t tail, fields '/' p = "" :: (dirs ++ (stem ++ t) :: tail) := by
  obtain ⟨rest, rfl⟩ := hasPrefix_iff.mp hstarts
  cases hrest : fields '/' rest with
  | nil => exact absurd hrest (fields_ne_nil rest)
  | cons t tail => exact ⟨t, tail, fields_append (hnames.fields_eq.trans (List.cons_append ..).symm) hrest⟩

theorem foldl_push_absolute (hdirs : ∀ e ∈ dirs, Plain e) (hx : Plain x)
    (hinside : inside 0 tail = true) (q : LexPath) :
    ∃ rest, ".." ∉ rest ∧
      (dirs ++ x :: tail).foldl push q = ⟨q.rooted, q.elements ++ (dirs ++ x :: rest)⟩ := by
  obtain ⟨rest, hrest, hfold⟩ := foldl_push_of_inside q.rooted (q.elements ++ dirs ++ [x])
    (List.not_mem_nil (a := "..")) hinside
  refine ⟨rest, hrest, ?_⟩
  rw [List.foldl_append, foldl_push_names hdirs, List.foldl_cons, push_plain _ hx]
  rw [List.append_nil] at hfold
  rw [hfold]
  simp

theorem ofString_of_fields (hp : fields '/' p = "" :: es) (hes : es ≠ []) :
    ofString p = es.foldl push ⟨true, []⟩ := by
  have hrooted : hasPrefix p "/" = true := by
    rw [hasPrefix_iff, ← intercalate_fields p (show "/".toList = ['/'] from rfl), hp,
      String.intercalate_cons_of_ne_nil hes]
    exact ⟨"/".intercalate es, by simp⟩
  rw [ofString, hrooted, hp]
  rfl

theorem ofString_absolute (hp : fields '/' p = "" :: (dirs ++ x :: tail))
    (hdirs : ∀ e ∈ dirs, Plain e) (hx : Plain x) (hinside : inside 0 tail = true) :
    ∃ rest, ".." ∉ rest ∧ ofString p = ⟨true, dirs ++ x :: rest⟩ := by
  rw [ofString_of_fields hp (by simp)]
  exact foldl_push_absolute hdirs hx hinside ⟨true, []⟩

/-- For a path that does not climb out, lying within a directory is a matter of its elements as written. -/
theorem within_iff_fields {dir name : String} (hdir : fields '/' dir = "" :: (dirs ++ [name]))
    (hname : Plain name) (hp : fields '/' p = "" :: (dirs ++ x :: tail)) (hdirs : ∀ e ∈ dirs, Plain e) (hx : Plain x)
    (hinside : inside 0 tail = true) : Within (ofString dir) (ofString p) ↔ fields '/' dir <+: fields '/' p := by
  obtain ⟨rest, hrest, hpath⟩ := ofString_absolute hp hdirs hx hinside
  have hnames : ∀ e ∈ dirs ++ [name], Plain e := List.forall_mem_append.mpr ⟨hdirs, by simpa using hname⟩
  rw [ofString_of_fields hdir (by simp), foldl_push_names hnames, hpath, hdir, hp]
  -- Both sides say that the element the path has next is the directory's.
  have hwritten : "" :: (dirs ++ [name]) <+: "" :: (dirs ++ x :: tail) ↔ x = name := by
    simp [List.prefix_append_right_inj, eq_comm]
  rw [hwritten]
  constructor
  · rintro ⟨-, rest', -, helements⟩
    have hnext : x = name ∧ rest = rest' := by simpa using helements
    exact hnext.1
  · rintro rfl
    exact ⟨rfl, rest, hrest, by simp⟩

theorem written_of_within {dir p last : String} {names segs : List String} (hdir : fields '/' dir = "" :: names)
    (hne : names ≠ []) (hnames : ∀ e ∈ names, Plain e) (hp : fields '/' p = "" :: (segs ++ [last]))
    (hsegs : ∀ e ∈ segs, Plain e) (hlast : last = "" ∨ Plain last) (h : Within (ofString dir) (ofString p)) :
    p = dir ∨ hasPrefix p (dir ++ "/") = true := by
  have hrest : ∃ rest, fields '/' p = fields '/' dir ++ rest := by
    rw [ofString_of_fields hdir hne, ofString_of_fields hp (by simp), foldl_push_names hnames, List.foldl_append,
      foldl_push_names hsegs, List.foldl_cons, List.foldl_nil] at h
    obtain ⟨-, rest, -, helements⟩ := h
    rw [hp, hdir]
    rcases hlast with rfl | hlast
    · have helements : segs = names ++ rest := helements
      exact ⟨rest ++ [""], by simp [helements]⟩
    · rw [push_plain _ hlast] at helements
      have helements : segs ++ [last] = names ++ rest := helements
      exact ⟨rest, by simp [helements]⟩
  obtain ⟨rest, hrest⟩ := hrest
  have hwritten {q : String} (hq : fields '/' p = fields '/' q) : p = q := by
    rw [← intercalate_fields p (show "/".toList = ['/'] from rfl), hq, intercalate_fields q rfl]
  by_cases hnil : rest = []
  · left
    exact hwritten (by rw [hrest, hnil, List.append_nil])
  right
  have hslashless : ∀ e ∈ rest, '/' ∉ e.toList := fun e he =>
    not_mem_of_mem_fields (s := p) (by rw [hrest]; exact List.mem_append_right _ he)
  rw [hwritten (q := dir ++ "/" ++ "/".intercalate rest)
    (by rw [fields_append_sep dir _ rfl, fields_intercalate rfl hnil hslashless, hrest])]
  exact hasPrefix_iff.mpr ⟨_, rfl⟩

theorem intercalate_append_cons {rest : List String} {t : String} :
    "/".intercalate (dirs ++ (stem ++ t) :: rest) = "/".intercalate (dirs ++ [stem]) ++ "/".intercalate (t :: rest) := by
  induction dirs with
  | nil => simp [String.intercalate_cons_append]
  | cons d dirs ih =>
    rw [List.cons_append, List.cons_append, String.intercalate_cons_of_ne_nil (by simp),
      String.intercalate_cons_of_ne_nil (by simp), ih]
    simp only [String.append_assoc]

theorem hasPrefix_render (dirs rest : List String) (stem t : String) :
    hasPrefix (render ⟨true, dirs ++ (stem ++ t) :: rest⟩) ("/" ++ "/".intercalate (dirs ++ [stem])) = true := by
  rw [hasPrefix_iff, render, if_pos rfl, intercalate_append_cons, ← String.append_assoc]
  exact ⟨_, rfl⟩

/-- Cleaned elements: the ups that could not be taken back, only without a root, and then names. -/
structure IsClean (p : LexPath) : Prop where
  slashless : ∀ e ∈ p.elements, '/' ∉ e.toList
  ups : ∃ ups names, p.elements = List.replicate ups ".." ++ names ∧ (∀ e ∈ names, Plain e) ∧ (p.rooted = true → ups = 0)

theorem isClean_push {p : LexPath} (hclean : p.IsClean) {e : String} (he : '/' ∉ e.toList) : (p.push e).IsClean := by
  obtain ⟨rooted, elements⟩ := p
  obtain ⟨hslashless, ups, names, rfl, hnames, hrooted⟩ := hclean
  by_cases hskip : e = "" ∨ e = "."
  · rw [push, if_pos hskip]
    exact ⟨hslashless, ups, names, rfl, hnames, hrooted⟩
  by_cases hup : e = ".."
  · obtain rfl | ⟨kept, last, rfl⟩ := List.eq_nil_or_concat' names
    · -- Nothing to take back: at the root the element disappears, otherwise it is one more up.
      obtain rfl | ⟨k, rfl⟩ : ups = 0 ∨ ∃ k, ups = k + 1 := by cases ups <;> simp
      · cases rooted with
        | true => exact ⟨by simp [push, hup], 0, [], by simp [push, hup], by simp, fun _ => rfl⟩
        | false => exact ⟨by simp [push, hup], 1, [], by simp [push, hup], by simp, by simp [push, hup]⟩
      have hrel : rooted = false := by simpa using hrooted
      have hpush : push ⟨rooted, List.replicate (k + 1) ".." ++ []⟩ e = ⟨rooted, List.replicate (k + 2) ".."⟩ := by
        simp [push, hup, List.replicate_succ']
      rw [hpush]
      exact ⟨by simp, k + 2, [], by simp, by simp, by simp [hrel]⟩
    · have hlast : last ≠ ".." := (hnames last (by simp)).2.2
      have hpush : push ⟨rooted, List.replicate ups ".." ++ (kept ++ [last])⟩ e =
          ⟨rooted, List.replicate ups ".." ++ kept⟩ := by
        simp [push, hup, ← List.append_assoc, hlast]
      rw [hpush]
      refine ⟨fun e he => hslashless e ?_, ups, kept, rfl, fun e he => hnames e (List.mem_append_left _ he), hrooted⟩
      rw [← List.append_assoc]
      exact List.mem_append_left _ he
  · have hplain : Plain e := ⟨fun h => hskip (.inl h), fun h => hskip (.inr h), hup⟩
    rw [push_plain _ hplain]
    refine ⟨?_, ups, names ++ [e], List.append_assoc .., ?_, hrooted⟩
    · exact List.forall_mem_append.mpr ⟨hslashless, by simpa using he⟩
    · exact List.forall_mem_append.mpr ⟨hnames, by simpa using hplain⟩

theorem isClean_ofString (s : String) : (ofString s).IsClean := by
  have hfold : ∀ es : List String, (∀ e ∈ es, '/' ∉ e.toList) → ∀ p : LexPath, p.IsClean → (es.foldl push p).IsClean := by
    intro es hes p hp
    induction es generalizing p with
    | nil => exact hp
    | cons e es ih =>
      exact ih (fun e he => hes e (List.mem_cons_of_mem _ he)) _ (isClean_push hp (hes e List.mem_cons_self))
  exact hfold _ (fun e he => not_mem_of_mem_fields he) _ ⟨by simp, 0, [], rfl, by simp, fun _ => rfl⟩

theorem foldl_push_ups (j k : Nat) :
    (List.replicate k "..").foldl push ⟨false, List.replicate j ".."⟩ = ⟨false, List.replicate (j + k) ".."⟩ := by
  induction k generalizing j with
  | zero => rfl
  | succ k ih =>
    have hpush : push ⟨false, List.replicate j ".."⟩ ".." = ⟨false, List.replicate (j + 1) ".."⟩ := by
      cases j with
      | zero => rfl
      | succ j => simp [push, List.replicate_succ']
    rw [List.replicate_succ, List.foldl_cons, hpush, ih, Nat.add_right_comm, Nat.add_assoc]

theorem ofString_render {p : LexPath} (hclean : p.IsClean) : ofString p.render = p := by
  obtain ⟨rooted, elements⟩ := p
  obtain ⟨hslashless, ups, names, rfl, hnames, hrooted⟩ := hclean
  by_cases hnone : List.replicate ups ".." ++ names = []
  · rw [hnone]
    cases rooted <;> rfl
  have hfields := fields_intercalate (show "/".toList = ['/'] from rfl) hnone hslashless
  generalize hx : "/".intercalate (List.replicate ups ".." ++ names) = x at hfields
  cases rooted with
  | true =>
    obtain rfl := hrooted rfl
    have hroot : fields '/' ("/" ++ x) = "" :: names := by
      rw [show "/" ++ x = "" ++ "/" ++ x by simp, fields_append_sep "" x rfl, hfields]
      rfl
    have hstarts : hasPrefix ("/" ++ x) "/" = true := hasPrefix_iff.mpr ⟨x, rfl⟩
    rw [render, if_pos rfl, hx, ofString, hroot, hstarts, List.foldl_cons, foldl_push_names hnames]
    rfl
  | false =>
    have hstarts : hasPrefix x "/" = false := by
      rw [Bool.eq_false_iff]
      intro hstarts
      obtain ⟨rest, rfl⟩ := hasPrefix_iff.mp hstarts
      rw [show "/" ++ rest = "" ++ "/" ++ rest by simp, fields_append_sep "" rest rfl] at hfields
      have hmem : "" ∈ List.replicate ups ".." ++ names := by
        rw [← hfields]
        exact List.mem_append_left _ List.mem_cons_self
      obtain hmem | hmem := List.mem_append.mp hmem
      · exact absurd (List.eq_of_mem_replicate hmem) (by decide)
      · exact (hnames "" hmem).1 rfl
    rw [render, if_neg Bool.false_ne_true, if_neg hnone, hx, ofString, hfields, hstarts, List.foldl_append,
      show ([] : List String) = List.replicate 0 ".." from rfl, foldl_push_ups, Nat.zero_add, foldl_push_names hnames]

theorem ofString_clean (s : String) : ofString (clean s) = ofString s := ofString_render (isClean_ofString s)

theorem getLast_foldl_push (p : LexPath) (init : List String) (hlast : Plain last) :
    ((init ++ [last]).foldl push p).elements.getLast? = some last := by
  rw [List.foldl_append, List.foldl_cons, List.foldl_nil, push_plain _ hlast, List.getLast?_concat]

/-- One ordinary element: cleaning keeps it, and it does not fall apart at a slash. -/
def Name (e : String) : Prop := Plain e ∧ '/' ∉ e.toList

instance (e : String) : Decidable (Plain e) := inferInstanceAs (Decidable (_ ∧ _ ∧ _))

instance (e : String) : Decidable (Name e) := inferInstanceAs (Decidable (_ ∧ _))

theorem fields_intercalate_names (hne : names ≠ []) (hnames : ∀ e ∈ names, Name e) :
    fields '/' ("/".intercalate names) = names :=
  fields_intercalate rfl hne fun e he => (hnames e he).2

theorem not_rooted_of_names (hne : names ≠ []) (hnames : ∀ e ∈ names, Name e) :
    hasPrefix ("/".intercalate names) "/" = false := by
  rw [Bool.eq_false_iff]
  intro hstarts
  obtain ⟨rest, hrest⟩ := hasPrefix_iff.mp hstarts
  have hfields := fields_intercalate_names hne hnames
  rw [hrest, show "/" ++ rest = "" ++ "/" ++ rest by simp, fields_append_sep "" rest rfl] at hfields
  have hempty : "" ∈ names := by
    rw [← hfields]
    exact List.mem_append_left _ List.mem_cons_self
  exact (hnames "" hempty).1.1 rfl

theorem joinAll_names (root : String) (hne : names ≠ []) (hnames : ∀ e ∈ names, Name e) :
    ∃ s, joinAll (root :: names) = clean s ∧ ofString s = ⟨(ofString root).rooted, (ofString root).elements ++ names⟩ := by
  have hplain : ∀ e ∈ names, Plain e := fun e he => (hnames e he).1
  by_cases hroot : root = ""
  · obtain ⟨first, rest, rfl⟩ := List.exists_cons_of_ne_nil hne
    have hfirst : first ≠ "" := (hplain first List.mem_cons_self).1
    refine ⟨"/".intercalate (first :: rest), by simp [joinAll, hroot, hfirst], ?_⟩
    rw [ofString, fields_intercalate_names hne hnames, not_rooted_of_names hne hnames, foldl_push_names hplain, hroot]
    rfl
  · refine ⟨root ++ "/" ++ "/".intercalate names, by simp [joinAll, hroot, String.intercalate_cons_of_ne_nil hne], ?_⟩
    rw [ofString_append hroot, fields_intercalate_names hne hnames, foldl_push_names hplain]

theorem ofString_joinAll (root : String) (hne : names ≠ []) (hnames : ∀ e ∈ names, Name e) :
    ofString (joinAll (root :: names)) = ⟨(ofString root).rooted, (ofString root).elements ++ names⟩ := by
  obtain ⟨s, hjoin, hs⟩ := joinAll_names root hne hnames
  rw [hjoin, ofString_clean, hs]

theorem join_eq_joinAll (a b : String) : join a b = joinAll [a, b] := by
  by_cases ha : a = ""
  · by_cases hb : b = ""
    · simp [join, joinAll, ha, hb]
    · simp [join, joinAll, ha, hb]
  · simp [join, joinAll, ha]

theorem ofString_join (a : String) {name : String} (hname : Name name) :
    ofString (join a name) = ⟨(ofString a).rooted, (ofString a).elements ++ [name]⟩ := by
  rw [join_eq_joinAll]
  exact ofString_joinAll a (by simp) (by simpa using hname)

theorem joinAll_eq_render (root : String) (hne : names ≠ []) (hnames : ∀ e ∈ names, Name e) :
    joinAll (root :: names) = render ⟨(ofString root).rooted, (ofString root).elements ++ names⟩ := by
  obtain ⟨s, hjoin, hs⟩ := joinAll_names root hne hnames
  rw [hjoin, clean, hs]

theorem fields_render {p : LexPath} (hclean : p.IsClean) (hne : p.elements ≠ []) :
    fields '/' p.render = if p.rooted then "" :: p.elements else p.elements := by
  have hfields : fields '/' ("/".intercalate p.elements) = p.elements := fields_intercalate rfl hne hclean.slashless
  cases hrooted : p.rooted with
  | true =>
    have hwritten : p.render = "" ++ "/" ++ "/".intercalate p.elements := by simp [render, hrooted]
    rw [hwritten, fields_append_sep "" _ rfl, hfields]
    rfl
  | false =>
    have hwritten : p.render = "/".intercalate p.elements := by simp [render, hrooted, hne]
    rw [hwritten, hfields]
    rfl

theorem dir_render {rooted : Bool} (hes : es ≠ [])
    (hclean : IsClean ⟨rooted, es⟩) (hlast : Name last) :
    dir (render ⟨rooted, es ++ [last]⟩) = render ⟨rooted, es⟩ := by
  have hwhole : IsClean ⟨rooted, es ++ [last]⟩ := by
    have hpush := isClean_push hclean hlast.2
    rwa [push_plain _ hlast.1] at hpush
  have hfields : (fields '/' (render ⟨rooted, es ++ [last]⟩)).dropLast = if rooted then "" :: es else es := by
    rw [fields_render hwhole (by simp)]
    cases rooted with
    | true =>
      change ("" :: (es ++ [last])).dropLast = "" :: es
      rw [← List.cons_append, List.dropLast_concat]
    | false => exact List.dropLast_concat
  have hwritten : "/".intercalate ((if rooted then "" :: es else es) ++ [""]) = render ⟨rooted, es⟩ ++ "/" ++ "" := by
    have hends : ∀ xs : List String, xs ≠ [] → "/".intercalate (xs ++ [""]) = "/".intercalate xs ++ "/" ++ "" := by
      intro xs hxs
      induction xs with
      | nil => exact absurd rfl hxs
      | cons x xs ih =>
        by_cases hnil : xs = []
        · subst hnil
          simp
        · rw [List.cons_append, String.intercalate_cons_of_ne_nil (by simp), ih hnil,
            String.intercalate_cons_of_ne_nil hnil]
          simp only [String.append_assoc]
    cases rooted with
    | true =>
      change "/".intercalate (("" :: es) ++ [""]) = _
      rw [hends _ (by simp), String.intercalate_cons_of_ne_nil hes]
      simp [render]
    | false =>
      change "/".intercalate (es ++ [""]) = _
      rw [hends _ hes]
      simp [render, hes]
  have hnonempty : render ⟨rooted, es⟩ ≠ "" := by
    intro hempty
    have hnames := ofString_render hclean
    rw [hempty] at hnames
    exact hes (congrArg elements hnames).symm
  rw [dir, hfields, hwritten, clean, ofString_append hnonempty, ofString_render hclean]
  rfl

theorem dir_joinAll (root : String) (hne : names ≠ [])
    (hnames : ∀ e ∈ names, Name e) (hlast : Name last) :
    dir (joinAll (root :: (names ++ [last]))) = joinAll (root :: names) := by
  have hclean : IsClean ⟨(ofString root).rooted, (ofString root).elements ++ names⟩ := by
    rw [← ofString_joinAll root hne hnames]
    exact isClean_ofString _
  have hall : ∀ e ∈ names ++ [last], Name e := List.forall_mem_append.mpr ⟨hnames, by simpa using hlast⟩
  rw [joinAll_eq_render root (by simp) hall, joinAll_eq_render root hne hnames, ← List.append_assoc]
  exact dir_render (by simp [hne]) hclean hlast

end LexPath

end Base
