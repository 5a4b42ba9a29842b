import Waypoint.Agent.LocalAuth
import Waypoint.Base.Overlap

/-!
# What a granted pattern matches

A manifest writes its patterns for any rover, with `*` in the second token, and `AddModuleUser` puts the rover's id in the place of every `*` of the string.
-/

namespace Waypoint.Agent

open Base

theorem toList_substituteRoverID (roverID p : String) :
    (substituteRoverID roverID p).toList = p.toList.flatMap fun c => if c = '*' then roverID.toList else [c] := by
  rw [substituteRoverID, String.toList_ofList]

variable {roverID t : String} {p : List String} {c : Char} {base : List String}

theorem mem_substituteRoverID {p : String} :
    c ∈ (substituteRoverID roverID p).toList ↔ (c ∈ roverID.toList ∧ '*' ∈ p.toList) ∨ (c ∈ p.toList ∧ c ≠ '*') := by
  rw [toList_substituteRoverID, List.mem_flatMap]
  constructor
  · rintro ⟨d, hd, hc⟩
    split at hc
    · rename_i hstar
      exact .inl ⟨hc, hstar ▸ hd⟩
    · rename_i hstar
      rw [List.mem_singleton] at hc
      exact .inr ⟨hc ▸ hd, hc ▸ hstar⟩
  · rintro (⟨hc, hstar⟩ | ⟨hc, hne⟩)
    · exact ⟨'*', hstar, by simpa using hc⟩
    · exact ⟨c, hc, by simp [hne]⟩

theorem substituteRoverID_intercalate (roverID : String) (ts : List String) :
    substituteRoverID roverID (".".intercalate ts) = ".".intercalate (ts.map (substituteRoverID roverID)) := by
  have hchars : ∀ ls : List (List Char), (['.'].intercalate ls).flatMap (fun c => if c = '*' then roverID.toList else [c]) =
      ['.'].intercalate (ls.map fun l => l.flatMap fun c => if c = '*' then roverID.toList else [c]) := by
    intro ls
    induction ls with
    | nil => rfl
    | cons l ls ih =>
      cases ls with
      | nil => simp
      | cons k ls =>
        rw [List.intercalate_cons_cons, List.flatMap_append, List.flatMap_append, ih]
        simp
  rw [← String.toList_inj, toList_substituteRoverID, String.toList_intercalate, String.toList_intercalate]
  have hdot : ".".toList = ['.'] := rfl
  rw [hdot, hchars, List.map_map, List.map_map]
  congr 2
  funext t
  exact (toList_substituteRoverID roverID t).symm

theorem tokens_substitute (hrover : SingleToken roverID) (p : String) :
    tokens (substituteRoverID roverID p) = (tokens p).map (substituteRoverID roverID) := by
  have hjoin : ".".intercalate (tokens p) = p := intercalate_fields p rfl
  rw [← hjoin, substituteRoverID_intercalate, hjoin]
  apply fields_intercalate rfl
  · rw [ne_eq, List.map_eq_nil_iff]
    exact fields_ne_nil p
  intro t ht hdot
  obtain ⟨u, hu, rfl⟩ := List.mem_map.mp ht
  rcases mem_substituteRoverID.mp hdot with ⟨hdot, -⟩ | ⟨hdot, -⟩
  · exact hrover hdot
  · exact not_mem_of_mem_fields hu hdot

theorem substituteRoverID_star (p : String) : substituteRoverID "*" p = p := by
  have hchar : (fun c : Char => if c = '*' then "*".toList else [c]) = fun c => [c] := by
    funext c
    split
    · rename_i hstar
      rw [hstar]
      rfl
    · rfl
  rw [substituteRoverID, hchar, List.flatMap_singleton', String.ofList_toList]

theorem length_substituteRoverID (hrover : roverID ≠ "") (t : String) :
    t.toList.length ≤ (substituteRoverID roverID t).toList.length := by
  have hpos : 0 < roverID.toList.length := by
    rw [List.length_pos_iff, ne_eq, String.toList_eq_nil_iff]
    exact hrover
  rw [toList_substituteRoverID]
  induction t.toList with
  | nil => exact Nat.le_refl _
  | cons c cs ih =>
    rw [List.flatMap_cons, List.length_append, List.length_cons]
    split
    · omega
    · rw [List.length_singleton]
      omega

theorem eq_of_substitute_eq {w : String} (hrover : roverID ≠ "") (hw : w.toList = [c])
    (hne : roverID ≠ w) (h : substituteRoverID roverID t = w) : t = w ∧ c ≠ '*' := by
  have hlength := length_substituteRoverID hrover t
  rw [h, hw, List.length_singleton] at hlength
  have hchars := congrArg String.toList h
  rw [toList_substituteRoverID, hw] at hchars
  match hlist : t.toList, hlength with
  | [], _ =>
    rw [hlist] at hchars
    cases hchars
  | [d], _ =>
    rw [hlist, List.flatMap_singleton] at hchars
    split at hchars
    · exact absurd (String.toList_inj.mp (hchars.trans hw.symm)) hne
    rename_i hstar
    rw [List.cons.injEq] at hchars
    refine ⟨String.toList_inj.mp ?_, hchars.1 ▸ hstar⟩
    rw [hlist, hw, hchars.1]

theorem substitute_ne_self (hrover : roverID ≠ "") (hne : roverID ≠ "*") (ht : '*' ∈ t.toList) :
    substituteRoverID roverID t ≠ t := by
  intro heq
  obtain ⟨before, after, hlist, hbefore⟩ := List.eq_append_cons_of_mem ht
  have hkeep : ∀ cs : List Char, '*' ∉ cs → (substituteRoverID roverID (String.ofList cs)).toList = cs := by
    intro cs hcs
    rw [substituteRoverID_of_not_mem roverID (by simpa using hcs), String.toList_ofList]
  have hchars := congrArg String.toList heq
  have hsplit : t = String.ofList before ++ ("*" ++ String.ofList after) := by
    rw [← String.toList_inj, hlist]
    simp
  have hid : substituteRoverID roverID "*" = roverID := by simp [substituteRoverID]
  rw [hlist, hsplit, substituteRoverID_append, substituteRoverID_append, hid, String.toList_append, hkeep before hbefore,
    String.toList_append, List.append_cancel_left_eq] at hchars
  -- the id and what follows it are one character longer than what followed the `*`
  have hlength := congrArg List.length hchars
  have hafter := length_substituteRoverID hrover (String.ofList after)
  rw [List.length_append, List.length_cons] at hlength
  rw [String.toList_ofList] at hafter
  cases hid : roverID.toList with
  | nil => exact hrover (String.toList_eq_nil_iff.mp hid)
  | cons d rest =>
    cases rest with
    | nil =>
      rw [hid, List.singleton_append, List.cons.injEq] at hchars
      refine hne (String.toList_inj.mp ?_)
      rw [hid, hchars.1]
      rfl
    | cons e rest =>
      rw [hid, List.length_cons, List.length_cons] at hlength
      omega

theorem validToken_substitute (hrover : ValidToken roverID) :
    ValidToken (substituteRoverID roverID t) ↔ ValidToken t := by
  constructor
  · rintro ⟨hne, hchars⟩
    refine ⟨?_, fun c hc => ?_⟩
    · rintro rfl
      exact hne rfl
    by_cases hstar : c = '*'
    · rw [hstar]
      decide
    · exact hchars c (mem_substituteRoverID.mpr (.inr ⟨hc, hstar⟩))
  · rintro ⟨hne, hchars⟩
    refine ⟨fun hempty => hne ?_, fun c hc => ?_⟩
    · have hlength := length_substituteRoverID hrover.1 t
      rw [hempty] at hlength
      exact String.toList_eq_nil_iff.mp (List.eq_nil_of_length_eq_zero (Nat.le_zero.mp hlength))
    · rcases mem_substituteRoverID.mp hc with ⟨hc, -⟩ | ⟨hc, -⟩
      · exact hrover.2 c hc
      · exact hchars c hc

structure LiteralID (roverID : String) : Prop where
  valid : ValidToken roverID
  star : roverID ≠ "*"
  rest : roverID ≠ ">"

theorem LiteralID.substitute_ne_star (h : LiteralID roverID) (t : String) :
    substituteRoverID roverID t ≠ "*" := fun heq => (eq_of_substitute_eq h.valid.1 rfl h.star heq).2 rfl

theorem LiteralID.substitute_eq_rest (h : LiteralID roverID) :
    substituteRoverID roverID t = ">" ↔ t = ">" := by
  refine ⟨fun heq => (eq_of_substitute_eq h.valid.1 rfl h.rest heq).1, ?_⟩
  rintro rfl
  rfl

theorem LiteralID.wellFormed_substitute (h : LiteralID roverID) (p : List String) :
    WellFormed (p.map (substituteRoverID roverID)) ↔ WellFormed p := by
  simp only [WellFormed, List.forall_mem_map, ← List.map_dropLast, validToken_substitute h.valid, ne_eq,
    h.substitute_eq_rest]

def elsewhere (roverID t : String) : String := if t = "*" then roverID ++ "x" else if t = ">" then "x" else t

theorem LiteralID.literal_elsewhere (h : LiteralID roverID) (ht : ValidToken t) :
    ValidToken (elsewhere roverID t) ∧ elsewhere roverID t ≠ "*" ∧ elsewhere roverID t ≠ ">" := by
  unfold elsewhere
  split
  · have hlast : ∀ w : String, w.toList.getLast? ≠ some 'x' → roverID ++ "x" ≠ w := by
      rintro w hw rfl
      exact hw (by simp)
    refine ⟨⟨hlast "" (by decide), fun c hc => ?_⟩, hlast "*" (by decide), hlast ">" (by decide)⟩
    rw [String.toList_append, List.mem_append] at hc
    rcases hc with hc | hc
    · exact h.valid.2 c hc
    · rw [List.mem_singleton.mp hc]
      decide
  · split
    · decide
    · rename_i hstar hrest
      exact ⟨ht, hstar, hrest⟩

theorem covers_elsewhere (roverID : String) (h : WellFormed p)
    (hid : ∀ t ∈ p, elsewhere roverID t ≠ ">") : covers p (p.map (elsewhere roverID)) = true := by
  induction p with
  | nil => rfl
  | cons t p ih =>
    rw [List.forall_mem_cons] at hid
    have htail := ih (wellFormed_tail h).1 hid.2
    rw [List.map_cons, covers]
    by_cases hrest : t = ">"
    · rw [if_pos hrest]
    rw [if_neg hrest]
    by_cases hstar : t = "*"
    · rw [if_pos hstar, decide_eq_true hid.1, htail]
      rfl
    · have hsame : elsewhere roverID t = t := by rw [elsewhere, if_neg hstar, if_neg hrest]
      rw [if_neg hstar, hsame, decide_eq_true rfl, htail]
      rfl

theorem LiteralID.not_mem_of_covers (h : LiteralID roverID) (hp : WellFormed p)
    (hcovers : covers (p.map (substituteRoverID roverID)) (p.map (elsewhere roverID)) = true) :
    ∀ t ∈ p, '*' ∉ t.toList := by
  induction p with
  | nil => simp
  | cons t p ih =>
    obtain ⟨htail, hlast⟩ := wellFormed_tail hp
    by_cases hrest : t = ">"
    · rw [hlast hrest, List.forall_mem_singleton, hrest]
      decide
    obtain ⟨hcovers, hsame⟩ := covers_cons_inner (mt h.substitute_eq_rest.mp hrest) hcovers
    refine List.forall_mem_cons.mpr ⟨fun hstar => ?_, ih htail hcovers⟩
    have heq := hsame (h.substitute_ne_star t)
    by_cases hwild : t = "*"
    · have hid : substituteRoverID roverID t = roverID := by
        rw [hwild]
        simp [substituteRoverID]
      rw [hid, elsewhere, if_pos hwild] at heq
      have hlength := congrArg (fun s => s.toList.length) heq
      simp at hlength
    · rw [elsewhere, if_neg hwild, if_neg hrest] at heq
      exact substitute_ne_self h.valid.1 h.star hstar heq

theorem covers_append_literal (hbase : ∀ b ∈ base, b ≠ "*" ∧ b ≠ ">") {s : List String} :
    covers (base ++ p) s = true ↔ ∃ tail, s = base ++ tail ∧ covers p tail = true := by
  induction base generalizing s with
  | nil => simp
  | cons b base ih =>
    rw [List.forall_mem_cons] at hbase
    cases s with
    | nil => exact ⟨fun h => (by cases h), fun ⟨tail, h, _⟩ => (by cases h)⟩
    | cons u s =>
      rw [List.cons_append, covers, if_neg hbase.1.2, if_neg hbase.1.1, Bool.and_eq_true, decide_eq_true_eq, ih hbase.2]
      simp only [List.cons_append, List.cons.injEq]
      constructor
      · rintro ⟨rfl, tail, rfl, htail⟩
        exact ⟨tail, ⟨rfl, rfl⟩, htail⟩
      · rintro ⟨tail, ⟨rfl, rfl⟩, htail⟩
        exact ⟨rfl, tail, rfl, htail⟩

theorem wellFormed_append_iff (hbase : ∀ b ∈ base, Inner b) (hp : p ≠ []) :
    WellFormed (base ++ p) ↔ WellFormed p := by
  unfold WellFormed
  rw [List.dropLast_append_of_ne_nil hp, List.forall_mem_append, List.forall_mem_append]
  constructor
  · rintro ⟨⟨-, hvalid⟩, -, hlast⟩
    exact ⟨hvalid, hlast⟩
  · rintro ⟨hvalid, hlast⟩
    exact ⟨⟨fun b hb => (hbase b hb).1, hvalid⟩, fun b hb => (hbase b hb).2, hlast⟩

theorem valid_of_wordRe {name : String} (h : validModuleName name = true) : LiteralID name := by
  have hchars : ∀ c ∈ name.toList, c ∉ ['.', ' ', '\t', '\n', '\x0c', '\r'] := by
    intro c hc hbad
    refine not_mem_of_wordRe h ?_ hc
    simp only [List.mem_cons, List.not_mem_nil, or_false] at hbad
    obtain rfl | rfl | rfl | rfl | rfl | rfl := hbad <;> decide
  refine ⟨⟨?_, hchars⟩, ?_, ?_⟩ <;> rintro rfl <;> exact absurd h (by decide)

section Patterns

variable {roverID name : String} (hname : validModuleName name = true)

include hname

theorem inner_head (hid : Inner roverID) : ∀ b ∈ ["waypoint", roverID, "module", name], Inner b := by
  have hvalid := valid_of_wordRe hname
  simp only [List.forall_mem_cons, List.not_mem_nil, false_implies, implies_true, and_true]
  exact ⟨by decide, hid, by decide, hvalid.valid, hvalid.rest⟩

theorem tokens_sandbox (rest : String) :
    tokens (sandbox name ++ rest) = ["waypoint", "*", "module", name] ++ tokens rest := by
  have hstar := tokens_substituteRoverID (by decide : SingleToken "*") hname rest
  rwa [substituteRoverID_star, substituteRoverID_star] at hstar

theorem covers_sandbox_iff (hid : roverID ≠ ">") {p s : List String} :
    covers (["waypoint", "*", "module", name] ++ p) s = true ∧ s[1]? = some roverID ↔
      ∃ tail, s = ["waypoint", roverID, "module", name] ++ tail ∧ covers p tail = true := by
  have hvalid := valid_of_wordRe hname
  have hfirst : covers (["waypoint", "*", "module", name] ++ p) s = true ↔
      ∃ tail, s = ["waypoint"] ++ tail ∧ covers ("*" :: (["module", name] ++ p)) tail = true :=
    covers_append_literal (by decide : ∀ b ∈ ["waypoint"], b ≠ "*" ∧ b ≠ ">")
  have hlast : ∀ tail, covers (["module", name] ++ p) tail = true ↔
      ∃ more, tail = ["module", name] ++ more ∧ covers p more = true := by
    intro tail
    apply covers_append_literal
    simp [hvalid.star, hvalid.rest]
  rw [hfirst]
  constructor
  · rintro ⟨⟨tail, rfl, htail⟩, hsecond⟩
    cases tail with
    | nil => cases htail
    | cons u tail =>
      cases hsecond
      obtain ⟨htail, -⟩ := covers_cons_inner (by decide) htail
      obtain ⟨more, rfl, hmore⟩ := (hlast tail).mp htail
      exact ⟨more, rfl, hmore⟩
  · rintro ⟨more, rfl, hmore⟩
    refine ⟨⟨roverID :: (["module", name] ++ more), rfl, ?_⟩, rfl⟩
    rw [covers, if_neg (by decide), if_pos rfl, decide_eq_true hid, (hlast _).mpr ⟨more, rfl, hmore⟩]
    rfl

end Patterns

theorem exists_matches {pattern : String} (h : WellFormed (tokens pattern)) : ∃ subject, Matches pattern subject := by
  have hid : LiteralID "x" := ⟨by decide, by decide, by decide⟩
  have hliteral : Literal ((tokens pattern).map (elsewhere "x")) := by
    intro t ht
    obtain ⟨u, hu, rfl⟩ := List.mem_map.mp ht
    exact hid.literal_elsewhere (h.1 u hu)
  have hne : (tokens pattern).map (elsewhere "x") ≠ [] := by
    rw [ne_eq, List.map_eq_nil_iff]
    exact fields_ne_nil pattern
  obtain ⟨subject, hsubject⟩ := exists_tokens_eq hne hliteral
  refine ⟨subject, h, hsubject ▸ hliteral, ?_⟩
  rw [hsubject]
  exact covers_elsewhere "x" h fun t ht => (hid.literal_elsewhere (h.1 t ht)).2.2

/-- The granted pattern means what was written, for this rover. -/
def Exact (roverID pattern granted : String) : Prop :=
  ∀ subject, Matches granted subject ↔ Matches pattern subject ∧ (tokens subject)[1]? = some roverID

section Grants

variable {roverID name rest : String} (hname : validModuleName name = true)

include hname

theorem LiteralID.wellFormed_granted (hid : LiteralID roverID) (hrover : SingleToken roverID) :
    WellFormed (tokens (substituteRoverID roverID (sandbox name ++ rest))) ↔ WellFormed (tokens rest) := by
  have hne : (tokens rest).map (substituteRoverID roverID) ≠ [] := by
    rw [ne_eq, List.map_eq_nil_iff]
    exact fields_ne_nil rest
  rw [tokens_substituteRoverID hrover hname, tokens_substitute hrover,
    wellFormed_append_iff (inner_head hname ⟨hid.valid, hid.rest⟩) hne, hid.wellFormed_substitute]

theorem wellFormed_sandbox : WellFormed (tokens (sandbox name ++ rest)) ↔ WellFormed (tokens rest) := by
  have hne : tokens rest ≠ [] := fields_ne_nil rest
  rw [tokens_sandbox hname, wellFormed_append_iff (inner_head hname (by decide)) hne]

theorem LiteralID.covers_granted (hid : LiteralID roverID) (hrover : SingleToken roverID) {s : List String} :
    covers (tokens (substituteRoverID roverID (sandbox name ++ rest))) s = true ↔
      ∃ tail, s = ["waypoint", roverID, "module", name] ++ tail ∧
        covers ((tokens rest).map (substituteRoverID roverID)) tail = true := by
  have hvalid := valid_of_wordRe hname
  rw [tokens_substituteRoverID hrover hname, tokens_substitute hrover]
  apply covers_append_literal
  simp [hid.star, hid.rest, hvalid.star, hvalid.rest]

theorem LiteralID.exact_of_not_mem (hid : LiteralID roverID) (hrover : SingleToken roverID) (hstar : '*' ∉ rest.toList) :
    Exact roverID (sandbox name ++ rest) (substituteRoverID roverID (sandbox name ++ rest)) := by
  have hsame : (tokens rest).map (substituteRoverID roverID) = tokens rest := by
    rw [← tokens_substitute hrover, substituteRoverID_of_not_mem roverID hstar]
  intro subject
  unfold Matches
  rw [hid.wellFormed_granted hname hrover, wellFormed_sandbox hname, hid.covers_granted hname hrover, hsame,
    ← covers_sandbox_iff hname hid.rest, tokens_sandbox hname]
  tauto

theorem LiteralID.not_mem_of_exact (hid : LiteralID roverID) (hrover : SingleToken roverID)
    (hrest : WellFormed (tokens rest))
    (h : Exact roverID (sandbox name ++ rest) (substituteRoverID roverID (sandbox name ++ rest))) :
    '*' ∉ rest.toList := by
  have hvalid := valid_of_wordRe hname
  have hliteral : Literal (["waypoint", roverID, "module", name] ++ (tokens rest).map (elsewhere roverID)) := by
    intro t ht
    rcases List.mem_append.mp ht with ht | ht
    · simp only [List.mem_cons, List.not_mem_nil, or_false] at ht
      obtain rfl | rfl | rfl | rfl := ht
      · decide
      · exact ⟨hid.valid, hid.star, hid.rest⟩
      · decide
      · exact ⟨hvalid.valid, hvalid.star, hvalid.rest⟩
    · obtain ⟨u, hu, rfl⟩ := List.mem_map.mp ht
      exact hid.literal_elsewhere (hrest.1 u hu)
  obtain ⟨subject, hsubject⟩ := exists_tokens_eq (by simp) hliteral
  have hwritten : covers (tokens (sandbox name ++ rest)) (tokens subject) = true ∧ (tokens subject)[1]? = some roverID := by
    rw [tokens_sandbox hname, hsubject]
    refine (covers_sandbox_iff hname hid.rest).mpr ⟨_, rfl, ?_⟩
    exact covers_elsewhere roverID hrest fun t ht => (hid.literal_elsewhere (hrest.1 t ht)).2.2
  have hwell := (wellFormed_sandbox hname).mpr hrest
  have hgranted := (h subject).mpr ⟨⟨hwell, hsubject ▸ hliteral, hwritten.1⟩, hwritten.2⟩
  obtain ⟨tail, htail, hcovers⟩ := (hid.covers_granted hname hrover).mp hgranted.2.2
  rw [hsubject] at htail
  obtain rfl := List.append_cancel_left htail
  have hnone := hid.not_mem_of_covers hrest hcovers
  -- a text whose tokens have no `*` keeps its text
  have hself : substituteRoverID roverID rest = rest := by
    have hjoin : ".".intercalate (tokens rest) = rest := intercalate_fields rest rfl
    rw [← hjoin, substituteRoverID_intercalate, hjoin,
      List.map_congr_left fun t ht => substituteRoverID_of_not_mem roverID (hnone t ht), List.map_id', hjoin]
  exact fun hstar => substitute_ne_self hid.valid.1 hid.star hstar hself

theorem wellFormed_granted (hrover : SingleToken roverID) :
    WellFormed (tokens (substituteRoverID roverID (sandbox name ++ rest))) ↔
      Inner roverID ∧ WellFormed (tokens (sandbox name ++ rest)) := by
  by_cases hid : Inner roverID
  · rw [and_iff_right hid]
    by_cases hstar : roverID = "*"
    · rw [hstar, substituteRoverID_star]
    · have hliteral : LiteralID roverID := ⟨hid.1, hstar, hid.2⟩
      rw [hliteral.wellFormed_granted hname hrover, wellFormed_sandbox hname]
  · refine iff_of_false (fun hwell => hid ?_) fun h => hid h.1
    rw [tokens_substituteRoverID hrover hname, List.cons_append, List.cons_append] at hwell
    have hinner : ∀ t ∈ ["waypoint", roverID], Inner t := inner_of_wellFormed hwell
    exact hinner roverID (by simp)

theorem exact_iff (hrover : SingleToken roverID) :
    Exact roverID (sandbox name ++ rest) (substituteRoverID roverID (sandbox name ++ rest)) ↔
      ¬Inner roverID ∨ ¬WellFormed (tokens (sandbox name ++ rest)) ∨ (roverID ≠ "*" ∧ '*' ∉ rest.toList) := by
  rw [← or_assoc, ← not_and_or]
  by_cases hmeans : Inner roverID ∧ WellFormed (tokens (sandbox name ++ rest))
  · rw [or_iff_right (not_not_intro hmeans)]
    obtain ⟨hid, hwell⟩ := hmeans
    by_cases hstar : roverID = "*"
    · subst hstar
      rw [substituteRoverID_star]
      refine ⟨fun h => ?_, fun h => absurd rfl h.1⟩
      obtain ⟨subject, hsubject⟩ := exists_matches hwell
      have hsecond := ((h subject).mp hsubject).2
      exact absurd rfl (hsubject.2.1 "*" (List.mem_of_getElem? hsecond)).2.1
    · have hliteral : LiteralID roverID := ⟨hid.1, hstar, hid.2⟩
      have hrest := (wellFormed_sandbox hname).mp hwell
      exact ⟨fun h => ⟨hstar, hliteral.not_mem_of_exact hname hrover hrest h⟩,
        fun h => hliteral.exact_of_not_mem hname hrover h.2⟩
  · refine iff_of_true (fun subject => iff_of_false (fun h => ?_) fun ⟨h, hsecond⟩ => ?_) (.inl hmeans)
    · exact hmeans ((wellFormed_granted hname hrover).mp h.1)
    · have hliteral := h.2.1 roverID (List.mem_of_getElem? hsecond)
      exact hmeans ⟨⟨hliteral.1, hliteral.2.2⟩, h.1⟩

end Grants

/-- What `AddModuleUser` grants for the patterns of a manifest, and which of the grants mean what was written. -/
theorem granted_exact_iff {data : Except String RawManifest} {m : Manifest} {b b' : Builder} {roverID : String}
    {password : Except String String} {creds : Credentials} (hparse : parseManifest data = .ok m)
    (hrover : SingleToken roverID)
    (hadd : b.addModuleUser password m.name roverID (manifestAuthPermissions m) = .ok (creds, b')) :
    ∃ u, b'.users = b.users ++ [u] ∧
      u.publish.allow = "_INBOX.>" :: (manifestAuthPermissions m).publish.map (substituteRoverID roverID) ∧
      u.subscribe.allow = "_INBOX.>" :: (manifestAuthPermissions m).subscribe.map (substituteRoverID roverID) ∧
      ∀ pattern ∈ (manifestAuthPermissions m).publish ++ (manifestAuthPermissions m).subscribe,
        ∃ rest, pattern = sandbox m.name ++ rest ∧
          (Exact roverID pattern (substituteRoverID roverID pattern) ↔
            ¬Inner roverID ∨ ¬WellFormed (tokens pattern) ∨ (roverID ≠ "*" ∧ '*' ∉ rest.toList)) := by
  have hchecked := checked_of_parseManifest hparse
  refine ⟨_, (addModuleUser_eq_ok hadd).2.2, rfl, rfl, fun pattern hpattern => ?_⟩
  obtain ⟨rest, rfl⟩ := own_manifestAuthPermissions hchecked pattern hpattern
  exact ⟨rest, rfl, exact_iff hchecked.name hrover⟩

def jawsManifest : RawManifest :=
  { name := "gripper", entrypoint := "/usr/bin/gripper"
    permissions := { publish := ["waypoint.*.module.gripper.log.>", "waypoint.*.module.gripper.*.state"] } }

theorem granted_exact_iff_jaws :
    SingleToken "rover-1" ∧ ∃ m creds b, parseManifest (.ok jawsManifest) = .ok m ∧
      Builder.newBuilder.addModuleUser (.ok "secret") m.name "rover-1" (manifestAuthPermissions m) = .ok (creds, b) ∧
      ∃ u ∈ b.users, u.publish.allow =
        ["_INBOX.>", "waypoint.rover-1.module.gripper.log.>", "waypoint.rover-1.module.gripper.rover-1.state"] := by
  have hrover : SingleToken "rover-1" := by decide
  refine ⟨hrover, _, _, _, rfl, rfl, ?_⟩
  obtain ⟨u, husers, hpublish, -⟩ := granted_exact_iff (rfl : parseManifest (.ok jawsManifest) = .ok _) hrover
    (rfl : Builder.newBuilder.addModuleUser (.ok "secret") _ _ _ = .ok _)
  exact ⟨u, husers ▸ List.mem_append_right _ List.mem_cons_self, hpublish⟩

/-- The state of the left jaw, which the manifest asks for, is not granted. -/
theorem left_jaw_refused :
    ∃ m, parseManifest (.ok jawsManifest) = .ok m ∧
      "waypoint.*.module.gripper.*.state" ∈ (manifestAuthPermissions m).publish ∧
      Matches "waypoint.*.module.gripper.*.state" "waypoint.rover-1.module.gripper.left.state" ∧
      (tokens "waypoint.rover-1.module.gripper.left.state")[1]? = some "rover-1" ∧
      ¬Matches (substituteRoverID "rover-1" "waypoint.*.module.gripper.*.state")
        "waypoint.rover-1.module.gripper.left.state" :=
  ⟨_, rfl, by decide +kernel, by decide +kernel, by decide +kernel, by decide +kernel⟩

end Waypoint.Agent
