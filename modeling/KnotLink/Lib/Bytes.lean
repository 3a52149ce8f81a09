import Mathlib.Algebra.Group.Int.Defs
import Mathlib.Algebra.Group.Nat.Defs
import Mathlib.Data.List.Induction
/-!
# Byte strings

Slices and big-endian numbers over `List UInt8`.
-/
namespace Lib

abbrev Bytes := List UInt8

/-- `b[i:j]`. -/
def slice {α : Type} (b : List α) (i j : Nat) : List α := (b.take j).drop i

section
variable {α : Type}

theorem length_slice {b : List α} {i j : Nat} (h : j ≤ b.length) : (slice b i j).length = j - i := by
  simp [slice, Nat.min_eq_left h]

/-- The middle one of three parts. -/
theorem slice_append_append (a b c : List α) {i j : Nat} (hi : a.length = i) (hj : i + b.length = j) :
    slice (a ++ b ++ c) i j = b := by
  subst hi hj
  rw [slice, List.take_left' (by simp), List.drop_left]

theorem take_append_slice (b : List α) {i j : Nat} (h : i ≤ j) : b.take i ++ slice b i j = b.take j := by
  have : b.take i = (b.take j).take i := by rw [List.take_take, Nat.min_eq_left h]
  rw [slice, this, List.take_append_drop]

theorem take_append_slice_append_drop (b : List α) {i j : Nat} (h : i ≤ j) :
    b.take i ++ slice b i j ++ b.drop j = b := by
  rw [take_append_slice b h, List.take_append_drop]

/-- A slice that ends inside `b` does not see what follows `b`. -/
theorem slice_append_of_le {b : List α} {i j : Nat} (h : j ≤ b.length) (c : List α) :
    slice (b ++ c) i j = slice b i j := by
  rw [slice, slice, List.take_append_of_le_length h]

end

/-! ## Big-endian numbers -/

/-- The low `k` bytes of `v`, most significant first. -/
def toBE (k v : Nat) : Bytes :=
  match k with
  | 0 => []
  | k + 1 => toBE k (v / 256) ++ [UInt8.ofNat v]

/-- The number whose big-endian digits are `b`. -/
def ofBE (b : Bytes) : Nat := b.foldl (fun n d => 256 * n + d.toNat) 0

@[simp] theorem length_toBE (k v : Nat) : (toBE k v).length = k := by
  induction k generalizing v with
  | zero => rfl
  | succ k ih => simp [toBE, ih]

theorem ofBE_concat (b : Bytes) (d : UInt8) : ofBE (b ++ [d]) = 256 * ofBE b + d.toNat := by
  simp [ofBE]

theorem ofBE_toBE {k v : Nat} (h : v < 256 ^ k) : ofBE (toBE k v) = v := by
  induction k generalizing v with
  | zero => simp [toBE, ofBE] at h ⊢; omega
  | succ k ih =>
    have hq : v / 256 < 256 ^ k := Nat.div_lt_of_lt_mul (by rw [Nat.pow_succ] at h; omega)
    rw [toBE, ofBE_concat, ih hq, UInt8.toNat_ofNat']
    omega

theorem toBE_ofBE {b : Bytes} {k : Nat} (h : b.length = k) : toBE k (ofBE b) = b := by
  induction k generalizing b with
  | zero => rw [List.length_eq_zero_iff.1 h]; rfl
  | succ k ih =>
    have hne : b ≠ [] := by rintro rfl; simp at h
    have hb := List.dropLast_concat_getLast hne
    generalize b.dropLast = a, b.getLast hne = d at hb
    subst hb
    have hd := d.toNat_lt
    rw [toBE, ofBE_concat, show (256 * ofBE a + d.toNat) / 256 = ofBE a by omega, ih (by simpa using h)]
    congr 2
    apply UInt8.toNat_inj.1
    rw [UInt8.toNat_ofNat']
    omega

/-- A cast to `8 * k` bits in front of the encoder changes nothing. -/
theorem toBE_mod (k v : Nat) : toBE k (v % 256 ^ k) = toBE k v := by
  induction k generalizing v with
  | zero => rfl
  | succ k ih =>
    have hdiv : v % 256 ^ (k + 1) / 256 = v / 256 % 256 ^ k := by
      rw [Nat.pow_succ, Nat.mul_comm, Nat.mod_mul_right_div_self]
    have hlow : UInt8.ofNat (v % 256 ^ (k + 1)) = UInt8.ofNat v := by
      apply UInt8.toNat_inj.1
      rw [UInt8.toNat_ofNat', UInt8.toNat_ofNat', Nat.pow_succ]
      exact Nat.mod_mod_of_dvd v (Nat.dvd_mul_left 256 _)
    rw [toBE, toBE, hdiv, ih, hlow]

/-- Two's complement reading of a 32-bit pattern. -/
def signed32 (n : Nat) : Int := if n < 2 ^ 31 then n else (n : Int) - 2 ^ 32

theorem ofBE_lt (b : Bytes) : ofBE b < 256 ^ b.length := by
  induction b using List.reverseRecOn with
  | nil => simp [ofBE]
  | append_singleton b d ih =>
    have hd := d.toNat_lt
    rw [ofBE_concat, List.length_append, List.length_singleton, Nat.pow_succ]
    omega

/-- A 32-bit length read as a signed number is in `1 … m` exactly when it is as an unsigned one. -/
theorem signed32_range {n m : Nat} (hn : n < 2 ^ 32) (hm : m < 2 ^ 31) :
    (signed32 n ≤ 0 ∨ (m : Int) < signed32 n) ↔ (n = 0 ∨ m < n) := by
  unfold signed32
  split <;> omega

theorem toNat_signed32 {n m : Nat} (hn : n ≤ m) (hm : m < 2 ^ 31) : (signed32 n).toNat = n := by
  unfold signed32
  split <;> omega

end Lib
