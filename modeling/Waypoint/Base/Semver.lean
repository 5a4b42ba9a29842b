import Mathlib.Order.Compare
import Waypoint.Base.Text

/-!
# Semantic versions

What is assumed of `golang.org/x/mod/semver`: which texts are versions, and their precedence.
-/

namespace Base

namespace Semver

/-- A letter, a digit, or one of the separators of a version. -/
def IsVersionChar (c : Char) : Prop := c.isAlphanum = true ∨ c = '-' ∨ c = '.' ∨ c = '+'

instance (c : Char) : Decidable (IsVersionChar c) := inferInstanceAs (Decidable (_ ∨ _))

end Semver

/-- `semver.IsValid` and `semver.Compare`. -/
class Semver where
  isValid : String → Bool
  cmp : String → String → Ordering
  /-- the precedence is a total preorder -/
  transCmp : Std.TransCmp cmp
  /-- an invalid version comes before every other one -/
  isLE_cmp {v : String} (hv : isValid v = false) (w : String) : (cmp v w).isLE = true
  /-- a version has a major number -/
  not_isValid_v : isValid "v" = false
  isVersionChar_of_isValid {v : String} (hv : isValid v = true) : ∀ c ∈ v.toList, Semver.IsVersionChar c

namespace Semver

attribute [instance] transCmp

theorem cmp_self [Semver] (v : String) : cmp v v = .eq := Std.ReflCmp.compare_self

theorem cmp_swap [Semver] (v w : String) : (cmp v w).swap = cmp w v := Std.OrientedCmp.eq_swap.symm

theorem transCmp_on {α β : Type} (f : α → β) (cmp : β → β → Ordering) [Std.TransCmp cmp] :
    Std.TransCmp fun a b => cmp (f a) (f b) where
  eq_swap := Std.OrientedCmp.eq_swap
  isLE_trans := Std.TransCmp.isLE_trans

def spelled (v : String) : Bool := decide (v ≠ "v") && v.toList.all fun c => decide (IsVersionChar c)

def key (v : String) : List Nat := if spelled v then v.toList.map Char.toNat else []

/-- Versions whose numbers all have one digit compare as texts do. -/
abbrev oneDigit : Semver where
  isValid := spelled
  cmp := compareLex (compareOn spelled) fun v w => List.compareLex compare (key v) (key w)
  transCmp :=
    have : Std.TransCmp fun v w => List.compareLex compare (key v) (key w) := transCmp_on key _
    inferInstance
  isLE_cmp {v} hv w := by
    cases hw : spelled w <;> simp [compareLex, compareOn, key, hv, hw] <;> rfl
  not_isValid_v := rfl
  isVersionChar_of_isValid hv c hc := of_decide_eq_true (List.all_eq_true.mp (Bool.and_eq_true_iff.mp hv).2 c hc)

end Semver

end Base
