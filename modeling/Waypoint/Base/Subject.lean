import Waypoint.Base.Text

/-!
# Subjects, wildcards and permissions

Subjects of a message bus are strings of tokens separated by dots. In a pattern the token `*` stands for one token and `>` for one or more at the end.
-/

namespace Base

def tokens (s : String) : List String := fields '.' s

def covers : List String → List String → Bool
  | [], [] => true
  | [], _ :: _ => false
  | _ :: _, [] => false
  | t :: p, u :: s =>
    if t = ">" then true
    else if t = "*" then u ≠ ">" && covers p s
    else t = u && covers p s

theorem covers_refl (p : List String) : covers p p = true := by
  induction p with
  | nil => rfl
  | cons t p ih =>
    rw [covers]
    split
    · rfl
    rename_i hrest
    split
    · simp [hrest, ih]
    · simp [ih]

theorem covers_trans {p q s : List String} (hpq : covers p q = true) (hqs : covers q s = true) :
    covers p s = true := by
  induction p generalizing q s with
  | nil =>
    cases q with
    | nil => exact hqs
    | cons u q => cases hpq
  | cons t p ih =>
    cases q with
    | nil => cases hpq
    | cons u q =>
      cases s with
      | nil => cases hqs
      | cons v s =>
        rw [covers] at hpq hqs ⊢
        by_cases ht : t = ">"
        · rw [if_pos ht]
        rw [if_neg ht] at hpq ⊢
        by_cases hstar : t = "*"
        · rw [if_pos hstar, Bool.and_eq_true, decide_eq_true_eq] at hpq ⊢
          rw [if_neg hpq.1] at hqs
          split at hqs
          · rw [Bool.and_eq_true, decide_eq_true_eq] at hqs
            exact ⟨hqs.1, ih hpq.2 hqs.2⟩
          · rw [Bool.and_eq_true, decide_eq_true_eq] at hqs
            exact ⟨hqs.1 ▸ hpq.1, ih hpq.2 hqs.2⟩
        · rw [if_neg hstar, Bool.and_eq_true, decide_eq_true_eq] at hpq ⊢
          obtain ⟨rfl, hpq⟩ := hpq
          rw [if_neg ht, if_neg hstar, Bool.and_eq_true, decide_eq_true_eq] at hqs
          exact ⟨hqs.1, ih hpq hqs.2⟩

theorem covers_literal {p : List String} (hp : ∀ t ∈ p, t ≠ "*" ∧ t ≠ ">") {s : List String} :
    covers p s = true ↔ s = p := by
  induction p generalizing s with
  | nil =>
    cases s with
    | nil => exact ⟨fun _ => rfl, fun _ => rfl⟩
    | cons u s => exact ⟨fun h => (by cases h), fun h => (by cases h)⟩
  | cons t p ih =>
    rw [List.forall_mem_cons] at hp
    cases s with
    | nil => exact ⟨fun h => (by cases h), fun h => (by cases h)⟩
    | cons u s =>
      rw [covers, if_neg hp.1.2, if_neg hp.1.1, Bool.and_eq_true, decide_eq_true_eq, ih hp.2, List.cons.injEq,
        eq_comm (a := t)]

theorem covers_all (s : String) : covers (tokens ">") (tokens s) = true := by
  cases htokens : tokens s with
  | nil => exact absurd htokens (fields_ne_nil s)
  | cons t rest => rfl

/-- One token of a subject, possibly an empty one. -/
def SingleToken (t : String) : Prop := '.' ∉ t.toList

instance (t : String) : Decidable (SingleToken t) := inferInstanceAs (Decidable (¬_))

theorem tokens_of_single {s : String} (h : SingleToken s) : tokens s = [s] := fields_of_not_mem h

theorem tokens_append (x y : String) : tokens (x ++ "." ++ y) = tokens x ++ tokens y := fields_append_sep x y rfl

theorem tokens_cons {s rest : String} (h : SingleToken s) : tokens (s ++ "." ++ rest) = s :: tokens rest := by
  rw [tokens_append, tokens_of_single h]
  rfl

theorem single_of_tokens {s t : String} (h : tokens s = [t]) : SingleToken s ∧ t = s := by
  have hjoin : String.intercalate "." (tokens s) = s := intercalate_fields s rfl
  rw [h] at hjoin
  have heq : t = s := by simpa using hjoin
  exact ⟨heq ▸ not_mem_of_mem_fields (h ▸ List.mem_singleton_self t), heq⟩

def Under (base : List String) (s : String) : Prop := covers (base ++ [">"]) (tokens s) = true

instance (base : List String) (s : String) : Decidable (Under base s) := inferInstanceAs (Decidable (_ = true))

theorem covers_append_rest (base : List String) (t : String) (rest : List String) :
    covers (base ++ [">"]) (base ++ t :: rest) = true := by
  induction base with
  | nil => rfl
  | cons b base ih =>
    rw [List.cons_append, List.cons_append, covers]
    split
    · rfl
    rename_i hrest
    split
    · simp [hrest, ih]
    · simp [ih]

theorem under_iff {base : List String} (hbase : ∀ b ∈ base, b ≠ "*" ∧ b ≠ ">") {s : String} :
    Under base s ↔ ∃ t rest, tokens s = base ++ t :: rest := by
  rw [Under]
  generalize tokens s = ts
  induction base generalizing ts with
  | nil =>
    cases ts with
    | nil => exact ⟨fun h => (by cases h), fun ⟨t, rest, h⟩ => (by cases h)⟩
    | cons t rest => exact ⟨fun _ => ⟨t, rest, rfl⟩, fun _ => rfl⟩
  | cons b base ih =>
    rw [List.forall_mem_cons] at hbase
    cases ts with
    | nil => exact ⟨fun h => (by cases h), fun ⟨t, rest, h⟩ => (by cases h)⟩
    | cons u ts =>
      rw [List.cons_append, covers, if_neg hbase.1.2, if_neg hbase.1.1, Bool.and_eq_true, decide_eq_true_eq,
        ih hbase.2]
      simp [eq_comm]

structure Permission where
  allow : List String := []
  deny : List String := []

namespace Permission

def denies (p : Permission) (s : String) : Bool := p.deny.any fun d => covers (tokens d) (tokens s)

/-- The allow list is closed unless it is empty. -/
def permits (p : Permission) (s : String) : Bool :=
  (p.allow.isEmpty || p.allow.any fun a => covers (tokens a) (tokens s)) && !p.denies s

def Receives (p : Permission) (s : String) : Prop :=
  ∃ q, p.permits q = true ∧ covers (tokens q) (tokens s) = true ∧ p.denies s = false

theorem permits_of_allowed {p : Permission} (hallow : p.allow ≠ []) (hdeny : p.deny = []) (s : String) :
    p.permits s = true ↔ ∃ a ∈ p.allow, covers (tokens a) (tokens s) = true := by
  simp [permits, denies, hallow, hdeny]

theorem receives_iff {p : Permission} (hdeny : p.deny = []) (s : String) : p.Receives s ↔ p.permits s = true := by
  refine ⟨?_, fun h => ⟨s, h, covers_refl _, by simp [denies, hdeny]⟩⟩
  rintro ⟨q, hq, hqs, -⟩
  by_cases hallow : p.allow = []
  · simp [permits, denies, hallow, hdeny]
  · rw [permits_of_allowed hallow hdeny] at hq ⊢
    obtain ⟨a, ha, haq⟩ := hq
    exact ⟨a, ha, covers_trans haq hqs⟩

end Permission

end Base
