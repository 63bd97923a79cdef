import Mathlib.Order.Interval.Set.Basic
import RagnorDb.Lib.Checked

/-!
# Positions in an ordered key space

The places that a bound can take: before all keys, at a key, and behind all keys.  Positions are
linearly ordered by the comparison of the keys, so that a half-open span with optional bounds is an
interval of positions, and is empty only if its bounds are out of order.
-/

universe u

/-- A place in the key space that `cmp` orders. -/
inductive Position {κ : Type u} (cmp : κ → κ → Ordering) where
  | bottom
  | key (k : κ)
  | top

namespace Position

open Std

variable {κ : Type u} {cmp : κ → κ → Ordering}

def isLE : Position cmp → Position cmp → Bool
  | .bottom, _ | _, .top => true
  | .key a, .key b => (cmp a b).isLE
  | _, _ => false

/-- An inclusive lower bound that may be absent. -/
def lower (bound : Option κ) : Position cmp :=
  bound.elim .bottom .key

/-- An exclusive upper bound that may be absent. -/
def upper (bound : Option κ) : Position cmp :=
  bound.elim .top .key

variable [TransCmp cmp] [LawfulEqCmp cmp]

instance : LinearOrder (Position cmp) where
  le p q := p.isLE q = true
  le_refl p := by
    cases p with
    | key => simp [isLE, ReflCmp.compare_self]
    | _ => rfl
  le_trans p q r := by
    cases p <;> cases q <;> cases r <;> simp only [isLE, Bool.false_eq_true, false_imp_iff,
      imp_self, implies_true]
    exact TransCmp.isLE_trans
  le_antisymm p q := by
    cases p <;> cases q <;> simp only [isLE, Bool.false_eq_true, false_imp_iff, imp_self,
      reduceCtorEq, key.injEq]
    intro hle hge
    exact LawfulEqCmp.eq_of_compare (OrientedCmp.isLE_antisymm hle hge)
  le_total p q := by
    cases p <;> cases q <;> simp only [isLE, true_or, or_true, or_self]
    rename_i a b
    cases hcmp : cmp a b with
    | gt => exact .inr (by rw [OrientedCmp.lt_of_gt hcmp]; rfl)
    | _ => exact .inl rfl
  toDecidableLE p q := inferInstanceAs (Decidable (p.isLE q = true))

variable {a b : κ} {p : Position cmp}

@[simp] theorem bottom_le : (bottom : Position cmp) ≤ p := by
  cases p <;> rfl

@[simp] theorem le_top : p ≤ top := by
  cases p <;> rfl

@[simp] theorem key_le_key : (key a : Position cmp) ≤ key b ↔ (cmp a b).isLE = true := Iff.rfl

@[simp] theorem key_lt_key : (key a : Position cmp) < key b ↔ cmp a b = .lt := by
  rw [lt_iff_not_ge, key_le_key, Bool.not_eq_true, Ordering.isLE_eq_false, OrientedCmp.gt_iff_lt]

@[simp] theorem not_key_le_bottom : ¬ (key a : Position cmp) ≤ bottom := by
  intro h
  cases h

@[simp] theorem not_top_le_key : ¬ (top : Position cmp) ≤ key a := by
  intro h
  cases h

@[simp] theorem key_lt_top : (key a : Position cmp) < top :=
  lt_iff_not_ge.mpr not_top_le_key

@[simp] theorem bottom_lt_key : (bottom : Position cmp) < key a :=
  lt_iff_not_ge.mpr not_key_le_bottom

@[simp] theorem bottom_lt_top : (bottom : Position cmp) < top := by
  refine lt_iff_not_ge.mpr ?_
  intro h
  cases h

end Position

/-! ## Half-open intervals -/

namespace Intervals

variable {α : Type u} [LinearOrder α] {a b c d x : α}

open Set

theorem mem_Ico_and_notMem_Ico (had : a < d) (hcb : c < b) :
    x ∈ Ico a b ∧ x ∉ Ico c d ↔ x ∈ Ico a c ∨ x ∈ Ico d b := by
  simp only [mem_Ico, not_and_or, not_le, not_lt]
  constructor
  · rintro ⟨⟨hax, hxb⟩, hxc | hdx⟩
    · exact .inl ⟨hax, hxc⟩
    · exact .inr ⟨hdx, hxb⟩
  · rintro (⟨hax, hxc⟩ | ⟨hdx, hxb⟩)
    · exact ⟨⟨hax, hxc.trans hcb⟩, .inl hxc⟩
    · exact ⟨⟨had.le.trans hdx, hxb⟩, .inr hdx⟩

end Intervals
