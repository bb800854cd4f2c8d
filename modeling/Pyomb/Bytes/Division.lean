import Mathlib.Algebra.CharP.Two
import Mathlib.Algebra.Polynomial.Div
import Mathlib.Data.ZMod.Basic
import Pyomb.Bytes.Register

/-! What a feedback shift register computes. Read a number as a polynomial over the field of
two whose highest coefficient is its lowest bit; a step of the register then divides by one
power of `X` more, adding the multiple of the generator that clears the coefficient shifted
out. As many steps as a number has bits beyond the register's width leave the remainder of
its polynomial by the generator's. -/

namespace Pyomb

namespace ShiftRegister

open Polynomial

def ofBit (b : Bool) : ZMod 2 := if b then 1 else 0

theorem ofBit_xor (a b : Bool) : ofBit (a ^^ b) = ofBit a + ofBit b := by
  cases a <;> cases b <;> decide

theorem ofBit_eq_one {b : Bool} : ofBit b = 1 ↔ b = true := by cases b <;> decide

/-- The low `n` bits of a number, the lowest of them the highest coefficient. -/
noncomputable def reflected (n x : ℕ) : (ZMod 2)[X] :=
  ∑ i ∈ Finset.range n, C (ofBit (x.testBit i)) * X ^ (n - 1 - i)

theorem coeff_reflected {n x i : ℕ} (hi : i < n) :
    (reflected n x).coeff (n - 1 - i) = ofBit (x.testBit i) := by
  rw [reflected, finsetSum_coeff, Finset.sum_eq_single i]
  · rw [coeff_C_mul_X_pow, if_pos rfl]
  · intro j hj hne
    have hj' := Finset.mem_range.mp hj
    rw [coeff_C_mul_X_pow, if_neg (by omega)]
  · exact fun h => absurd (Finset.mem_range.mpr hi) h

theorem degree_reflected_lt (n x : ℕ) : (reflected n x).degree < n := by
  refine (degree_sum_le _ _).trans_lt ((Finset.sup_lt_iff (WithBot.bot_lt_coe n)).mpr ?_)
  intro i hi
  have hi' := Finset.mem_range.mp hi
  refine (degree_C_mul_X_pow_le _ _).trans_lt ?_
  exact Nat.cast_lt.mpr (by omega)

theorem reflected_xor (n x y : ℕ) : reflected n (x ^^^ y) = reflected n x + reflected n y := by
  simp only [reflected, Nat.testBit_xor, ofBit_xor, map_add, add_mul, Finset.sum_add_distrib]

theorem reflected_succ (n x : ℕ) :
    reflected (n + 1) x = reflected n (x >>> 1) + C (ofBit (x.testBit 0)) * X ^ n := by
  have hshift : ∀ i, (x >>> 1).testBit i = x.testBit (i + 1) := fun i => by
    rw [Nat.testBit_shiftRight, Nat.add_comm]
  rw [reflected, Finset.sum_range_succ']
  congr 1
  refine Finset.sum_congr rfl fun i _ => ?_
  rw [hshift, Nat.add_sub_cancel, Nat.sub_sub, Nat.add_comm 1 i]

/-- More bits than a number has are a power of `X`. -/
theorem reflected_add {n x : ℕ} (hx : x < 2 ^ n) (k : ℕ) :
    reflected (n + k) x = X ^ k * reflected n x := by
  rw [reflected, Finset.sum_range_add, reflected, Finset.mul_sum]
  have hhigh : ∑ i ∈ Finset.range k, C (ofBit (x.testBit (n + i))) * X ^ (n + k - 1 - (n + i)) =
      (0 : (ZMod 2)[X]) := by
    refine Finset.sum_eq_zero fun i _ => ?_
    rw [Nat.testBit_lt_two_pow (hx.trans_le (Nat.pow_le_pow_right (by decide) (by omega)))]
    simp [ofBit]
  rw [hhigh, add_zero]
  refine Finset.sum_congr rfl fun i hi => ?_
  have hi' := Finset.mem_range.mp hi
  rw [mul_left_comm, ← pow_add]
  congr 2
  omega

/-! ### Division -/

noncomputable def divisor (w g : ℕ) : (ZMod 2)[X] := X ^ w + reflected w g

theorem divisor_monic (w g : ℕ) : (divisor w g).Monic :=
  monic_X_pow_add (degree_reflected_lt w g)

theorem degree_divisor (w g : ℕ) : (divisor w g).degree = w := by
  have hlt : (reflected w g).degree < (X ^ w : (ZMod 2)[X]).degree := by
    rw [degree_X_pow]
    exact degree_reflected_lt w g
  rw [divisor, degree_add_eq_left_of_degree_lt hlt, degree_X_pow]

/-- A step adds the multiple of the divisor that clears the coefficient shifted out. -/
theorem reflected_shift {w g : ℕ} (hg : g < 2 ^ w) (n y : ℕ) :
    reflected (w + n) (shift g y) =
      reflected (w + n + 1) y + C (ofBit (y.testBit 0)) * X ^ n * divisor w g := by
  have hgen := reflected_add hg n
  rw [reflected_succ, divisor]
  unfold shift
  split_ifs with hbit
  · have hcancel : (X : (ZMod 2)[X]) ^ (w + n) + X ^ (w + n) = 0 := CharTwo.add_self_eq_zero _
    rw [hbit, reflected_xor, hgen, ofBit, if_pos rfl, C_1]
    linear_combination -hcancel
  · rw [Bool.eq_false_iff.mpr hbit, ofBit, if_neg (by decide), C_0]
    ring

/-- A step leaves a residue of one bit less. -/
theorem shift_lt_of_succ {w g n y : ℕ} (hg : g < 2 ^ w) (hy : y < 2 ^ (w + n + 1)) :
    shift g y < 2 ^ (w + n) := by
  have hs : y >>> 1 < 2 ^ (w + n) := by rw [Nat.shiftRight_eq_div_pow]; omega
  have hg' : g < 2 ^ (w + n) := hg.trans_le (Nat.pow_le_pow_right (by decide) (by omega))
  unfold shift
  split_ifs
  · exact Nat.xor_lt_two_pow hs hg'
  · exact hs

/-- As many steps as there are bits beyond the width leave the remainder. -/
theorem reflected_iterate_shift {w g n y : ℕ} (hg : g < 2 ^ w) (hy : y < 2 ^ (w + n)) :
    reflected w ((shift g)^[n] y) = reflected (w + n) y %ₘ divisor w g := by
  induction n generalizing y with
  | zero =>
    rw [Function.iterate_zero_apply, Nat.add_zero, eq_comm, modByMonic_eq_self_iff
      (divisor_monic w g), degree_divisor]
    exact degree_reflected_lt w y
  | succ n ih =>
    have hdvd : divisor w g ∣ reflected (w + n) (shift g y) - reflected (w + n + 1) y := by
      rw [reflected_shift hg, add_sub_cancel_left]
      exact Dvd.intro_left _ rfl
    rw [Function.iterate_succ_apply, ih (shift_lt_of_succ hg hy)]
    exact modByMonic_eq_of_dvd_sub (divisor_monic w g) hdvd

end ShiftRegister

end Pyomb
