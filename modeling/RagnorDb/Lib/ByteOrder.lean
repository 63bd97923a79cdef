import Mathlib.Data.List.Basic
import Mathlib.Data.UInt
import Mathlib.Order.Compare

/-!
# Fixed-width numbers as bytes

Little-endian encoding of numbers in a fixed number of bytes, and its inverse.  Read from the
highest byte on, the encodings of two numbers compare as the numbers do.
-/

namespace ByteOrder

/-- The `width` low bytes of `n`, lowest first. -/
def toLeBytes : Nat → Nat → List UInt8
  | 0, _ => []
  | width + 1, n => UInt8.ofNat n :: toLeBytes width (n / 256)

def fromLeBytes : List UInt8 → Nat
  | [] => 0
  | byte :: bytes => byte.toNat + 256 * fromLeBytes bytes

@[simp] theorem length_toLeBytes (width n : Nat) : (toLeBytes width n).length = width := by
  induction width generalizing n with
  | zero => rfl
  | succ width ih => simp [toLeBytes, ih]

theorem fromLeBytes_toLeBytes (width n : Nat) :
    fromLeBytes (toLeBytes width n) = n % 256 ^ width := by
  induction width generalizing n with
  | zero => simp [toLeBytes, fromLeBytes, Nat.mod_one]
  | succ width ih =>
    have hbyte : (UInt8.ofNat n).toNat = n % 256 := by simp
    rw [toLeBytes, fromLeBytes, ih, hbyte, Nat.pow_succ', Nat.mod_mul]

theorem toLeBytes_fromLeBytes (bytes : List UInt8) :
    toLeBytes bytes.length (fromLeBytes bytes) = bytes := by
  induction bytes with
  | nil => rfl
  | cons byte bytes ih =>
    have hlow : UInt8.ofNat (byte.toNat + 256 * fromLeBytes bytes) = byte := by
      apply UInt8.toNat_inj.mp
      have hbyte : byte.toNat < 256 := byte.toNat_lt
      rw [UInt8.toNat_ofNat']
      omega
    have hhigh : (byte.toNat + 256 * fromLeBytes bytes) / 256 = fromLeBytes bytes := by
      have hbyte : byte.toNat < 256 := byte.toNat_lt
      omega
    rw [List.length_cons, toLeBytes, fromLeBytes, hlow, hhigh, ih]

theorem fromLeBytes_lt (bytes : List UInt8) : fromLeBytes bytes < 256 ^ bytes.length := by
  induction bytes with
  | nil => simp [fromLeBytes]
  | cons byte =>
    have hbyte : byte.toNat < 256 := byte.toNat_lt
    rw [fromLeBytes, List.length_cons, Nat.pow_succ]
    omega

theorem compare_append_of_length_eq {α : Type*} [Ord α] {xs ys : List α}
    (h : xs.length = ys.length) (rest rest' : List α) :
    compare (xs ++ rest) (ys ++ rest') = (compare xs ys).then (compare rest rest') := by
  induction xs generalizing ys with
  | nil =>
    obtain rfl : ys = [] := List.length_eq_zero_iff.mp h.symm
    rfl
  | cons x xs ih =>
    cases ys with
    | nil => cases h
    | cons =>
      rw [List.cons_append, List.cons_append, List.compare_cons_cons, List.compare_cons_cons,
        ih (Nat.succ.inj h), Ordering.then_assoc]

theorem compare_div_then_mod (base m n : Nat) :
    (compare (m / base) (n / base)).then (compare (m % base) (n % base)) = compare m n := by
  have hm := Nat.div_add_mod m base
  have hn := Nat.div_add_mod n base
  rcases Nat.lt_trichotomy (m / base) (n / base) with hlt | heq | hgt
  · have hmn : m < n := Nat.lt_of_not_le fun hle => Nat.not_le.mpr hlt (Nat.div_le_div_right hle)
    rw [Nat.compare_eq_lt.mpr hlt, Nat.compare_eq_lt.mpr hmn]
    rfl
  · rw [Nat.compare_eq_eq.mpr heq, Ordering.eq_then]
    rw [heq] at hm
    rcases Nat.lt_trichotomy m n with hmn | rfl | hmn
    · rw [Nat.compare_eq_lt.mpr hmn, Nat.compare_eq_lt.mpr (by omega)]
    · simp
    · rw [Nat.compare_eq_gt.mpr hmn, Nat.compare_eq_gt.mpr (by omega)]
  · have hmn : n < m := Nat.lt_of_not_le fun hle => Nat.not_le.mpr hgt (Nat.div_le_div_right hle)
    rw [Nat.compare_eq_gt.mpr hgt, Nat.compare_eq_gt.mpr hmn]
    rfl

theorem compare_reverse_toLeBytes {width m n : Nat} (hm : m < 256 ^ width) (hn : n < 256 ^ width) :
    compare (toLeBytes width m).reverse (toLeBytes width n).reverse = compare m n := by
  induction width generalizing m n with
  | zero =>
    obtain rfl : m = 0 := by simpa using hm
    obtain rfl : n = 0 := by simpa using hn
    rfl
  | succ width ih =>
    rw [Nat.pow_succ'] at hm hn
    have hlow : compare [UInt8.ofNat m] [UInt8.ofNat n] = compare (m % 256) (n % 256) := by
      rw [List.compare_cons_cons, UInt8.compare_eq_toNat_compare_toNat]
      simp
    rw [toLeBytes, toLeBytes, List.reverse_cons, List.reverse_cons,
      compare_append_of_length_eq (by simp),
      ih (Nat.div_lt_of_lt_mul hm) (Nat.div_lt_of_lt_mul hn), hlow, compare_div_then_mod]

end ByteOrder
