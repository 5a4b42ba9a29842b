import Mathlib.Data.List.DropRight
import Mathlib.Data.List.Nodup
import Waypoint.Agent.Manifest
import Waypoint.Core.Descriptor

/-!
# Module configurations

The dashboard shows a module's configuration as flat keys and wraps it into the module's table when it is sent. Both ways work on lines and substrings; the rover decodes the text as TOML.
-/

namespace Waypoint.Dashboard

open Base

def space (c : Char) : Bool :=
  c.toNat ∈ [9, 10, 11, 12, 13, 32, 0xa0, 0x1680, 0x2028, 0x2029, 0x202f, 0x205f, 0x3000, 0xfeff] ||
    (0x2000 ≤ c.toNat && c.toNat ≤ 0x200a)

def trim (s : List Char) : List Char := (s.dropWhile space).rdropWhile space

def tablePath (moduleId : List Char) : List Char := "modules_config.".toList ++ moduleId

def header (moduleId : List Char) : List Char := '[' :: tablePath moduleId ++ [']']

def isTableHeader (l : List Char) : Bool := (trim l).head? = some '['

def stripNewlines (s : List Char) : List Char := s.dropWhile (· = '\n')

def unwrapModuleConfig (configToml moduleId : List Char) : List Char :=
  match (configToml.splitOn '\n').filter isTableHeader with
  | [table] =>
    if trim table = header moduleId then
      stripNewlines (['\n'].intercalate ((configToml.splitOn '\n').filter fun l => !isTableHeader l))
    else configToml
  | _ => configToml

def wrapModuleConfig (flat moduleId : List Char) : List Char :=
  if trim flat = [] then []
  else if ('[' :: tablePath []) <:+: flat then flat
  else header moduleId ++ '\n' :: stripNewlines flat

/-- The TOML package on the rover: any reader for which the language's rules on texts without tables of their own hold. -/
structure TomlReader where
  parse : List Char → Option (List (String × Core.Toml))
  /-- The text declares no table: it is made of pairs, comments and blank lines. A value may take several lines. -/
  Headless : List Char → Prop
  /-- The value that is decoded into a struct's field. Keys are compared with its name without regard to case. -/
  field : List (String × Core.Toml) → String → Option Core.Toml
  parse_nil : parse [] = some []
  newline {text : List Char} : Headless ('\n' :: text) → Headless text ∧ parse text = parse ('\n' :: text)
  /-- A text without pairs has only comments. -/
  comments {text : List Char} : Headless text → parse text = some [] →
    ∀ l ∈ text.splitOn '\n', ∀ c ∈ (l.dropWhile space).head?, c = '#'
  /-- Below a header the pairs are those of the table. -/
  headed {text moduleId : List Char} {kvs : List (String × Core.Toml)} : Headless text → parse text = some kvs →
    Agent.validModuleName (String.ofList moduleId) = true →
    parse (header moduleId ++ '\n' :: text) = some [("modules_config", .table [(String.ofList moduleId, .table kvs)])]
  field_self (name : String) (v : Core.Toml) : field [(name, v)] name = some v
  field_mem {kvs : List (String × Core.Toml)} {name : String} {v : Core.Toml} : field kvs name = some v →
    v ∈ kvs.map Prod.snd

variable (T : TomlReader)

/-- The tables under `modules_config`; anything else there is an error. -/
def decodeModulesConfig (s : List Char) : Option (List (String × List (String × Core.Toml))) := do
  match T.field (← T.parse s) "modules_config" with
  | none => some []
  | some v => (← v.asTable).mapM fun e => e.2.asTable.map fun kvs => (e.1, kvs)

/-- The map's entry for the module, which is empty where there is none. -/
def moduleConfig (s moduleId : List Char) : Option (List (String × Core.Toml)) :=
  (decodeModulesConfig T s).map fun tables => (tables.lookup (String.ofList moduleId)).getD []

variable {T}

theorem isTableHeader_header (moduleId : List Char) : isTableHeader (header moduleId) = true ∧ trim (header moduleId) = header moduleId := by
  have hdrop : (header moduleId).dropWhile space = header moduleId := by
    rw [header, List.cons_append, List.dropWhile_cons_of_neg (by decide)]
  have htrim : trim (header moduleId) = header moduleId := by
    rw [trim, hdrop, header, List.rdropWhile_concat_neg _ _ _ (by decide)]
  rw [isTableHeader, htrim]
  exact ⟨by simp [header], rfl⟩

theorem head_trim {l : List Char} {c : Char} (h : (trim l).head? = some c) : (l.dropWhile space).head? = some c := by
  obtain ⟨tail, htail⟩ := List.rdropWhile_prefix space (l.dropWhile space)
  rw [trim] at h
  rw [← htail, List.head?_append, h]
  rfl

theorem splitOn_wrapped {moduleId : List Char} (hid : Agent.validModuleName (String.ofList moduleId) = true) (text : List Char) :
    (header moduleId ++ '\n' :: text).splitOn '\n' = header moduleId :: text.splitOn '\n' := by
  have hword := Agent.not_mem_of_wordRe hid (d := '\n') (by decide)
  have hname : '\n' ∉ "modules_config.".toList := by decide +kernel
  rw [String.toList_ofList] at hword
  have htable : '\n' ∉ tablePath moduleId := fun h => (List.mem_append.mp h).elim hname hword
  have hnot : '\n' ∉ header moduleId := by
    simp [header, htable]
  rw [List.splitOn_append_cons_self, List.splitOn_eq_singleton hnot, List.singleton_append]

theorem tables_stripNewlines (flat : List Char) :
    ((stripNewlines flat).splitOn '\n').filter isTableHeader = (flat.splitOn '\n').filter isTableHeader := by
  induction flat with
  | nil => rfl
  | cons c flat ih =>
    by_cases hc : c = '\n'
    · subst hc
      rw [show ('\n' :: flat).splitOn '\n' = [] :: flat.splitOn '\n' from List.splitOn_append_cons_self [] flat,
        List.filter_cons_of_neg (by decide)]
      exact ih
    · rw [stripNewlines, List.dropWhile_cons_of_neg (by simpa using hc)]

theorem headless_stripNewlines {flat : List Char} (h : T.Headless flat) :
    T.Headless (stripNewlines flat) ∧ T.parse (stripNewlines flat) = T.parse flat := by
  induction flat with
  | nil => exact ⟨h, rfl⟩
  | cons c flat ih =>
    by_cases hc : c = '\n'
    · subst hc
      obtain ⟨hheadless, hparse⟩ := T.newline h
      rw [← hparse]
      exact ih hheadless
    · rw [stripNewlines, List.dropWhile_cons_of_neg (by simpa using hc)]
      exact ⟨h, rfl⟩

section Kept

variable {moduleId flat : List Char} {kvs : List (String × Core.Toml)}

theorem moduleConfig_wrapped (hid : Agent.validModuleName (String.ofList moduleId) = true) (hflat : T.Headless flat)
    (hparse : T.parse flat = some kvs) : moduleConfig T (header moduleId ++ '\n' :: stripNewlines flat) moduleId = some kvs := by
  obtain ⟨hheadless, hstripped⟩ := headless_stripNewlines hflat
  have hread := T.headed hheadless (hstripped.trans hparse) hid
  simp [moduleConfig, decodeModulesConfig, hread, T.field_self, Core.Toml.asTable]

theorem unwrap_wrapped_iff (hid : Agent.validModuleName (String.ofList moduleId) = true) :
    stripNewlines (unwrapModuleConfig (header moduleId ++ '\n' :: stripNewlines flat) moduleId) = stripNewlines flat ↔
      (flat.splitOn '\n').filter isTableHeader = [] := by
  obtain ⟨hheader, htrim⟩ := isTableHeader_header moduleId
  rw [unwrapModuleConfig, splitOn_wrapped hid, List.filter_cons_of_pos hheader, tables_stripNewlines]
  constructor
  · intro h
    by_contra hne
    obtain ⟨table, tables, htables⟩ := List.exists_cons_of_ne_nil hne
    rw [htables] at h
    -- with a second line taken for a header the text comes back with the module's own
    have hlength := congrArg List.length h
    rw [stripNewlines, header, List.cons_append, List.cons_append, List.dropWhile_cons_of_neg (by decide)] at hlength
    simp only [List.length_cons, List.length_append] at hlength
    omega
  · intro hnone
    rw [hnone]
    simp only
    have hbody := List.filter_eq_nil_iff.mp ((tables_stripNewlines flat).trans hnone)
    rw [if_pos htrim, List.filter_cons_of_neg (by simp [hheader]), List.filter_eq_self.mpr fun l hl => by simp [hbody l hl],
      List.intercalate_splitOn, stripNewlines, stripNewlines, stripNewlines, List.dropWhile_idempotent, List.dropWhile_idempotent]

theorem sizeOf_lt_of_mem {v : Core.Toml} {kvs : List (String × Core.Toml)} (h : v ∈ kvs.map Prod.snd) : sizeOf v < sizeOf kvs := by
  obtain ⟨e, he, rfl⟩ := List.mem_map.mp h
  have hpair : sizeOf e = 1 + sizeOf e.1 + sizeOf e.2 := rfl
  have hlt := List.sizeOf_lt_of_mem he
  omega

/-- Text that is sent as typed: what is found under the module is part of the text's own table, so it is not all of it. -/
theorem moduleConfig_typed_iff (hparse : T.parse flat = some kvs) : moduleConfig T flat moduleId = some kvs ↔ kvs = [] := by
  rw [moduleConfig, decodeModulesConfig, hparse]
  simp only [Option.bind_eq_bind, Option.bind_some]
  constructor
  · intro h
    cases hfield : T.field kvs "modules_config" with
    | none => simpa [hfield] using h.symm
    | some v =>
      rw [hfield] at h
      obtain ⟨tables, htables, hlookup⟩ := Option.map_eq_some_iff.mp h
      obtain ⟨es, hes, hmap⟩ := Option.bind_eq_some_iff.mp htables
      cases hfound : tables.lookup (String.ofList moduleId) with
      | none => simpa [hfound] using hlookup.symm
      | some found =>
        rw [hfound, Option.getD_some] at hlookup
        subst hlookup
        obtain ⟨before, after, hsplit, -⟩ := List.lookup_eq_some_iff.mp hfound
        have hmem : (String.ofList moduleId, found) ∈ tables := hsplit ▸ List.mem_append_right _ List.mem_cons_self
        obtain ⟨e, he, htable⟩ := exists_of_forall₂ (List.Forall₂.flip (mapM_eq_some.mp hmap)) hmem
        have hinner := sizeOf_lt_of_mem (List.mem_map_of_mem (f := Prod.snd) he)
        have houter := sizeOf_lt_of_mem (T.field_mem hfield)
        cases v with
        | table entries =>
          cases hes
          cases hvalue : e.2 with
          | table entries' =>
            rw [hvalue, Core.Toml.asTable] at htable
            rw [hvalue, Core.Toml.table.sizeOf_spec] at hinner
            rw [Core.Toml.table.sizeOf_spec] at houter
            obtain ⟨-, hsame⟩ := Prod.mk.inj (Option.some.inj htable)
            rw [hsame] at hinner
            omega
          | _ => rw [hvalue] at htable; simp [Core.Toml.asTable] at htable
        | _ => cases hes
  · rintro rfl
    cases hfield : T.field [] "modules_config" with
    | none => rfl
    | some v => cases T.field_mem hfield

/-- Without the beginning of a module's header anywhere in it the text is kept if no line begins with a bracket; with it, only
if there are no pairs to lose. -/
def Kept (flat : List Char) (kvs : List (String × Core.Toml)) : Prop :=
  if ('[' :: tablePath []) <:+: flat then kvs = [] else ∀ l ∈ flat.splitOn '\n', isTableHeader l = false

theorem unwrap_of_comments (hflat : T.Headless flat) (hparse : T.parse flat = some []) : unwrapModuleConfig flat moduleId = flat := by
  have hnone : (flat.splitOn '\n').filter isTableHeader = [] := by
    refine List.filter_eq_nil_iff.mpr fun l hl hheader => ?_
    have hhash := T.comments hflat hparse l hl '[' (head_trim (of_decide_eq_true hheader))
    exact absurd hhash (by decide)
  rw [unwrapModuleConfig, hnone]

end Kept

/-- Blank text is decoded as no configuration. Any other text without tables is decoded under the module as it is by itself,
and unwrapped to itself up to the newlines before it, exactly if it is kept. -/
theorem wrapped_config_kept_iff (T : TomlReader) {moduleId flat : List Char} {kvs : List (String × Core.Toml)}
    (hid : Agent.validModuleName (String.ofList moduleId) = true) (hflat : T.Headless flat) (hparse : T.parse flat = some kvs) :
    (trim flat = [] → moduleConfig T (wrapModuleConfig flat moduleId) moduleId = some []) ∧
    (trim flat ≠ [] → ((moduleConfig T (wrapModuleConfig flat moduleId) moduleId = some kvs ∧
      stripNewlines (unwrapModuleConfig (wrapModuleConfig flat moduleId) moduleId) = stripNewlines flat) ↔ Kept flat kvs)) := by
  refine ⟨fun hblank => ?_, fun hblank => ?_⟩
  · rw [wrapModuleConfig, if_pos hblank]
    exact (moduleConfig_typed_iff T.parse_nil).mpr rfl
  rw [wrapModuleConfig, if_neg hblank, Kept]
  split
  · rw [moduleConfig_typed_iff hparse]
    refine and_iff_left_of_imp ?_
    rintro rfl
    rw [unwrap_of_comments hflat hparse]
  · rw [unwrap_wrapped_iff hid, List.filter_eq_nil_iff]
    simp [moduleConfig_wrapped hid hflat hparse]

/-! ### A part of the language -/

/-- One comment, or one pair of a bare key and a quoted word. -/
def readLine (l : List Char) : Option (Option (String × Core.Toml)) :=
  match l with
  | [] => some none
  | '#' :: _ => some none
  | l =>
    match l.dropWhile Char.isAlphanum with
    | ' ' :: '=' :: ' ' :: '"' :: value =>
      if l.head?.any Char.isAlphanum ∧ value.dropWhile Char.isAlphanum = ['"'] then
        some (some (String.ofList (l.takeWhile Char.isAlphanum), .string (String.ofList value.dropLast)))
      else none
    | _ => none

def readPairs (ls : List (List Char)) : Option (List (String × Core.Toml)) := do
  let kvs := (← ls.mapM readLine).filterMap id
  if (kvs.map Prod.fst).Nodup then some kvs else none

def readText (text : List Char) : Option (List (String × Core.Toml)) :=
  match text.splitOn '\n' with
  | ('[' :: name) :: ls =>
    (readPairs ls).map fun kvs => [("modules_config", .table [(String.ofList (name.drop (tablePath []).length).dropLast, .table kvs)])]
  | ls => readPairs ls

theorem readText_of_readPairs {text : List Char} (h : (readPairs (text.splitOn '\n')).isSome) :
    readText text = readPairs (text.splitOn '\n') := by
  unfold readText
  split
  · rename_i name ls hlines
    rw [hlines] at h
    cases h
  · rfl

theorem readLine_eq_none {l : List Char} (h : readLine l = some none) : ∀ c ∈ (l.dropWhile space).head?, c = '#' := by
  unfold readLine at h
  split at h
  · simp
  · rw [List.dropWhile_cons_of_neg (by decide)]
    simp
  · split at h
    · split at h <;> cases h
    · cases h

/-- A reader that takes these lines only, below one header or none. -/
def wordReader : TomlReader where
  parse := readText
  Headless text := (readPairs (text.splitOn '\n')).isSome
  field kvs name := kvs.lookup name
  parse_nil := rfl
  newline {text} h := by
    have hlines : ('\n' :: text).splitOn '\n' = [] :: text.splitOn '\n' := List.splitOn_append_cons_self [] text
    have hpairs : readPairs ([] :: text.splitOn '\n') = readPairs (text.splitOn '\n') := by
      cases hread : (text.splitOn '\n').mapM readLine <;> simp [readPairs, readLine, hread]
    have hrest := h
    rw [hlines, hpairs] at hrest
    exact ⟨hrest, by rw [readText_of_readPairs h, readText_of_readPairs hrest, hlines, hpairs]⟩
  comments {text} h hnone l hl := by
    rw [readText_of_readPairs h] at hnone
    obtain ⟨es, hes, hkvs⟩ := Option.bind_eq_some_iff.mp hnone
    obtain ⟨x, hx, hline⟩ := exists_of_forall₂ (mapM_eq_some.mp hes) hl
    obtain ⟨-, hkvs⟩ := Option.ite_none_right_eq_some.mp hkvs
    cases x with
    | none => exact readLine_eq_none hline
    | some e =>
      have hmem : e ∈ es.filterMap id := List.mem_filterMap.mpr ⟨_, hx, rfl⟩
      rw [Option.some.inj hkvs] at hmem
      cases hmem
  headed {text moduleId kvs} h hparse hid := by
    rw [readText_of_readPairs h] at hparse
    have hname : ((tablePath moduleId ++ [']']).drop (tablePath []).length).dropLast = moduleId := by
      have hpath : tablePath moduleId = tablePath [] ++ moduleId := congrArg (· ++ moduleId) (List.append_nil _).symm
      rw [hpath, List.append_assoc, List.drop_left, List.dropLast_concat]
    rw [readText, splitOn_wrapped hid, header, List.cons_append]
    simp only [hparse, hname, Option.map_some]
  field_self name v := by simp
  field_mem {kvs name v} h := by
    obtain ⟨before, after, hsplit, -⟩ := List.lookup_eq_some_iff.mp h
    simp [hsplit]

theorem wrapped_config_kept_iff_modem :
    moduleConfig wordReader (wrapModuleConfig "host = \"h\"\n# every second\npoll = \"1\"\n".toList "umr".toList) "umr".toList =
      some [("host", .string "h"), ("poll", .string "1")] := by
  have hparse : wordReader.parse "host = \"h\"\n# every second\npoll = \"1\"\n".toList =
      some [("host", .string "h"), ("poll", .string "1")] := rfl
  have hkept : Kept "host = \"h\"\n# every second\npoll = \"1\"\n".toList [("host", .string "h"), ("poll", .string "1")] := by
    rw [Kept, if_neg (by decide +kernel)]
    decide +kernel
  exact (((wrapped_config_kept_iff wordReader (by decide +kernel) (by rfl) hparse).2 (by decide +kernel)).mpr hkept).1

/-- A comment that names the table: the text is sent unwrapped, and the rover finds no configuration. -/
theorem config_lost_by_comment :
    wordReader.parse "# see [modules_config.umr]\nhost = \"h\"".toList = some [("host", .string "h")] ∧
      moduleConfig wordReader (wrapModuleConfig "# see [modules_config.umr]\nhost = \"h\"".toList "umr".toList) "umr".toList =
        some [] := by
  refine ⟨rfl, ?_⟩
  rw [wrapModuleConfig, if_neg (by decide +kernel), if_pos (by decide +kernel)]
  rfl

end Waypoint.Dashboard
