import Waypoint.Base.Subject

/-!
# When two namespaces meet

What a server takes for a subject and for a pattern, and when two patterns of the form `a.>` and `b.>` have a subject in common: exactly if no position of both has two different tokens, neither of them a wildcard.
-/

namespace Base

def ValidToken (t : String) : Prop := t ≠ "" ∧ ∀ c ∈ t.toList, c ∉ ['.', ' ', '\t', '\n', '\x0c', '\r']

instance (t : String) : Decidable (ValidToken t) :=
  decidable_of_iff (t ≠ "" ∧ (t.toList.all fun c => decide (c ∉ ['.', ' ', '\t', '\n', '\x0c', '\r'])) = true)
    (and_congr_right fun _ => by simp only [List.all_eq_true, decide_eq_true_eq])

/-- A subject that can be published to. -/
def Literal (s : List String) : Prop := ∀ t ∈ s, ValidToken t ∧ t ≠ "*" ∧ t ≠ ">"

instance (s : List String) : Decidable (Literal s) := inferInstanceAs (Decidable (∀ t ∈ s, _))

/-- The tokens of a pattern: `>` stands at the end only. -/
def WellFormed (p : List String) : Prop := (∀ t ∈ p, ValidToken t) ∧ ∀ t ∈ p.dropLast, t ≠ ">"

instance (p : List String) : Decidable (WellFormed p) := inferInstanceAs (Decidable (_ ∧ _))

def Matches (pattern subject : String) : Prop :=
  WellFormed (tokens pattern) ∧ Literal (tokens subject) ∧ covers (tokens pattern) (tokens subject) = true

instance (pattern subject : String) : Decidable (Matches pattern subject) := inferInstanceAs (Decidable (_ ∧ _))

/-- A token that may stand before the last one of a pattern. -/
def Inner (t : String) : Prop := ValidToken t ∧ t ≠ ">"

instance (t : String) : Decidable (Inner t) := inferInstanceAs (Decidable (_ ∧ _))

variable {base p a b s : List String} {t : String}

theorem inner_of_wellFormed {rest : List String}
    (h : WellFormed (base ++ t :: rest)) : ∀ b ∈ base, Inner b := by
  intro b hb
  refine ⟨h.1 b (List.mem_append_left _ hb), h.2 b ?_⟩
  rw [List.dropLast_append_of_ne_nil (List.cons_ne_nil t rest)]
  exact List.mem_append_left _ hb

theorem wellFormed_tail (h : WellFormed (t :: p)) :
    WellFormed p ∧ (t = ">" → p = []) := by
  cases p with
  | nil => exact ⟨⟨by simp, by simp⟩, fun _ => rfl⟩
  | cons u p =>
    refine ⟨⟨fun x hx => h.1 x (List.mem_cons_of_mem _ hx), fun x hx => h.2 x ?_⟩, fun ht => ?_⟩
    · rw [List.dropLast_cons_of_ne_nil (List.cons_ne_nil u p)]
      exact List.mem_cons_of_mem _ hx
    · refine absurd ht (h.2 t ?_)
      rw [List.dropLast_cons_of_ne_nil (List.cons_ne_nil u p)]
      exact List.mem_cons_self

theorem wellFormed_append_rest : WellFormed (base ++ [">"]) ↔ ∀ b ∈ base, Inner b := by
  refine ⟨inner_of_wellFormed, fun h => ⟨fun t ht => ?_, fun t ht => ?_⟩⟩
  · rcases List.mem_append.mp ht with ht | ht
    · exact (h t ht).1
    · rw [List.mem_singleton.mp ht]
      decide
  · rw [List.dropLast_concat] at ht
    exact (h t ht).2

/-- Some place holds two different literals. -/
def Clash (a b : List String) : Prop := ∃ p ∈ a.zip b, p.1 ≠ p.2 ∧ p.1 ≠ "*" ∧ p.2 ≠ "*"

instance (a b : List String) : Decidable (Clash a b) := inferInstanceAs (Decidable (∃ p ∈ a.zip b, _))

theorem clash_cons {a b : String} {as bs : List String} :
    Clash (a :: as) (b :: bs) ↔ (a ≠ b ∧ a ≠ "*" ∧ b ≠ "*") ∨ Clash as bs := by
  simp [Clash]

def fill (t : String) : String := if t = "*" then "x" else t

theorem literal_fill (h : Inner t) : ValidToken (fill t) ∧ fill t ≠ "*" ∧ fill t ≠ ">" := by
  unfold fill
  split
  · decide
  · rename_i hstar
    exact ⟨h.1, hstar, h.2⟩

theorem covers_cons_fill (h : Inner t) (p s : List String) :
    covers (t :: p) (fill t :: s) = covers p s := by
  rw [covers, if_neg h.2]
  by_cases hstar : t = "*"
  · rw [if_pos hstar, decide_eq_true (literal_fill h).2.2, Bool.true_and]
  · have hfill : fill t = t := if_neg hstar
    rw [if_neg hstar, hfill, decide_eq_true rfl, Bool.true_and]

theorem covers_fill (h : ∀ t ∈ base, Inner t) (last : String) :
    covers (base ++ [">"]) (base.map fill ++ [last]) = true := by
  induction base with
  | nil => rfl
  | cons t base ih =>
    rw [List.forall_mem_cons] at h
    rw [List.cons_append, List.map_cons, List.cons_append, covers_cons_fill h.1]
    exact ih h.2

theorem literal_map_fill (h : ∀ t ∈ base, Inner t) : Literal (base.map fill ++ ["x"]) := by
  intro t ht
  rcases List.mem_append.mp ht with ht | ht
  · obtain ⟨u, hu, rfl⟩ := List.mem_map.mp ht
    exact literal_fill (h u hu)
  · rw [List.mem_singleton.mp ht]
    decide

theorem exists_common_of_not_clash (ha : ∀ t ∈ a, Inner t) (hb : ∀ t ∈ b, Inner t)
    (h : ¬Clash a b) :
    ∃ s, Literal s ∧ covers (a ++ [">"]) s = true ∧ covers (b ++ [">"]) s = true := by
  induction a generalizing b with
  | nil =>
    refine ⟨b.map fill ++ ["x"], literal_map_fill hb, ?_, covers_fill hb "x"⟩
    cases b <;> rfl
  | cons t a ih =>
    cases b with
    | nil =>
      refine ⟨(t :: a).map fill ++ ["x"], literal_map_fill ha, covers_fill ha "x", ?_⟩
      rfl
    | cons u b =>
      rw [clash_cons, not_or] at h
      rw [List.forall_mem_cons] at ha hb
      obtain ⟨s, hs, has, hbs⟩ := ih ha.2 hb.2 h.2
      -- the more specific of the two heads fits both
      by_cases hstar : t = "*"
      · refine ⟨fill u :: s, List.forall_mem_cons.mpr ⟨literal_fill hb.1, hs⟩, ?_, ?_⟩
        · rw [List.cons_append, covers, if_neg ha.1.2, if_pos hstar, decide_eq_true (literal_fill hb.1).2.2, has]
          rfl
        · rw [List.cons_append, covers_cons_fill hb.1, hbs]
      · have hfill : fill t = t := if_neg hstar
        refine ⟨fill t :: s, List.forall_mem_cons.mpr ⟨literal_fill ha.1, hs⟩, ?_, ?_⟩
        · rw [List.cons_append, covers_cons_fill ha.1, has]
        by_cases hother : u = "*"
        · rw [List.cons_append, covers, if_neg hb.1.2, if_pos hother, decide_eq_true (literal_fill ha.1).2.2, hbs]
          rfl
        have hsame : t = u := by
          by_contra hne
          exact h.1 ⟨hne, hstar, hother⟩
        rw [hsame, List.cons_append, covers_cons_fill hb.1, hbs]

theorem covers_cons_inner {u : String} (ht : t ≠ ">") (h : covers (t :: p) (u :: s) = true) :
    covers p s = true ∧ (t ≠ "*" → t = u) := by
  rw [covers, if_neg ht] at h
  split at h
  · rename_i hstar
    rw [Bool.and_eq_true] at h
    exact ⟨h.2, fun hne => absurd hstar hne⟩
  · rw [Bool.and_eq_true, decide_eq_true_eq] at h
    exact ⟨h.2, fun _ => h.1⟩

/-- Before a `>`, the patterns have two different literal tokens at one position, or one of them ends. -/
def differ : List String → List String → Bool
  | [], [] => false
  | t :: p, u :: q => t ≠ ">" && u ≠ ">" && (t ≠ u && t ≠ "*" && u ≠ "*" || differ p q)
  | _, _ => true

theorem not_covers_of_differ {q : List String} (h : differ p q = true) (hp : covers p s = true) : covers q s = false := by
  rw [Bool.eq_false_iff]
  intro hq
  induction p generalizing q s with
  | nil =>
    cases s with
    | nil => cases q <;> simp_all [differ, covers]
    | cons x s => cases hp
  | cons t p ih =>
    cases s with
    | nil => cases hp
    | cons x s =>
      cases q with
      | nil => cases hq
      | cons u q =>
        simp only [differ, Bool.and_eq_true, Bool.or_eq_true, decide_eq_true_eq] at h
        obtain ⟨hp', ht⟩ := covers_cons_inner h.1.1 hp
        obtain ⟨hq', hu⟩ := covers_cons_inner h.1.2 hq
        rcases h.2 with ⟨⟨hne, htstar⟩, hustar⟩ | hrest
        · exact hne ((ht htstar).trans (hu hustar).symm)
        · exact ih hrest hp' hq'

theorem not_common_of_clash (h : Clash a b) (ha : ∀ t ∈ a, t ≠ ">") (hb : ∀ t ∈ b, t ≠ ">")
    (has : covers (a ++ [">"]) s = true) (hbs : covers (b ++ [">"]) s = true) : False := by
  induction a generalizing b s with
  | nil =>
    obtain ⟨p, hp, -⟩ := h
    cases hp
  | cons t a ih =>
    cases b with
    | nil =>
      obtain ⟨p, hp, -⟩ := h
      cases hp
    | cons u b =>
      rw [List.forall_mem_cons] at ha hb
      cases s with
      | nil => cases has
      | cons v s =>
        obtain ⟨has, ht⟩ := covers_cons_inner ha.1 has
        obtain ⟨hbs, hu⟩ := covers_cons_inner hb.1 hbs
        rcases clash_cons.mp h with ⟨hne, htstar, hustar⟩ | htails
        · exact hne ((ht htstar).trans (hu hustar).symm)
        · exact ih htails ha.2 hb.2 has hbs

theorem exists_tokens_eq (hne : s ≠ []) (hs : Literal s) : ∃ subject, tokens subject = s := by
  refine ⟨String.intercalate "." s, ?_⟩
  apply fields_intercalate rfl hne
  intro t ht hdot
  exact (hs t ht).1.2 '.' hdot (by decide)

theorem matches_common_iff {p q : String} (hp : tokens p = a ++ [">"]) (hq : tokens q = b ++ [">"]) :
    (∃ subject, Matches p subject ∧ Matches q subject) ↔
      (∀ t ∈ a, Inner t) ∧ (∀ t ∈ b, Inner t) ∧ ¬Clash a b := by
  simp only [Matches, hp, hq, wellFormed_append_rest]
  constructor
  · rintro ⟨subject, ⟨ha, -, has⟩, hb, -, hbs⟩
    refine ⟨ha, hb, fun hclash => ?_⟩
    exact not_common_of_clash hclash (fun t ht => (ha t ht).2) (fun t ht => (hb t ht).2) has hbs
  rintro ⟨ha, hb, hclash⟩
  obtain ⟨s, hs, has, hbs⟩ := exists_common_of_not_clash ha hb hclash
  have hne : s ≠ [] := by
    rintro rfl
    cases a <;> cases has
  obtain ⟨subject, rfl⟩ := exists_tokens_eq hne hs
  exact ⟨subject, ⟨ha, hs, has⟩, hb, hs, hbs⟩

end Base
