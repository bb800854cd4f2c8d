import Mathlib.Algebra.Ring.Parity
import Mathlib.Algebra.BigOperators.Intervals
import Mathlib.Data.List.GetD
import Mathlib.Data.Nat.Bitwise
import Pyomb.Bytes.Struct

/-! A feedback shift register, the machine behind a cyclic redundancy check. A step shifts
right and folds the generator in on a bit shifted out. It is linear over exclusive or, it
undoes a shift left, it loses nothing of a register of the generator's width where the
generator's top bit is set, and it keeps the parity of the bits where the generator has an
odd number of them. Feeding a message to a register is then so many steps from the message
read as one number, low byte first. -/

namespace Pyomb

namespace ShiftRegister

/-- Shift right, and fold the generator in where the bit shifted out is set. -/
def shift (g x : ℕ) : ℕ := if x.testBit 0 then (x >>> 1) ^^^ g else x >>> 1

section Shift

variable (g : ℕ)

@[simp] theorem shift_zero : shift g 0 = 0 := by simp [shift]

theorem shift_xor (x y : ℕ) : shift g (x ^^^ y) = shift g x ^^^ shift g y := by
  simp only [shift, Nat.testBit_xor, Nat.shiftRight_xor_distrib]
  cases x.testBit 0 <;> cases y.testBit 0
  · rfl
  · simp only [Bool.false_xor, if_true, Bool.false_eq_true, if_false, Nat.xor_assoc]
  · simp only [Bool.true_xor, Bool.not_false, if_true, Bool.false_eq_true, if_false,
      Nat.xor_assoc, Nat.xor_comm g]
  · simp only [Bool.xor_self, Bool.false_eq_true, if_false, if_true]
    rw [Nat.xor_assoc, Nat.xor_comm (y >>> 1) g, ← Nat.xor_assoc g, Nat.xor_self, Nat.zero_xor]

theorem iterate_shift_zero (k : ℕ) : (shift g)^[k] 0 = 0 :=
  Function.iterate_fixed (shift_zero g) k

theorem iterate_shift_xor (k x y : ℕ) :
    (shift g)^[k] (x ^^^ y) = (shift g)^[k] x ^^^ (shift g)^[k] y := by
  induction k generalizing x y with
  | zero => rfl
  | succ k ih => simp only [Function.iterate_succ_apply, shift_xor, ih]

theorem shift_shiftLeft (x : ℕ) : shift g (x <<< 1) = x := by
  have hbit : (x <<< 1).testBit 0 = false := by simp
  rw [shift, hbit, if_neg (by decide), Nat.shiftLeft_shiftRight]

/-- As many steps undo as long a shift left. -/
theorem iterate_shift_shiftLeft (k x : ℕ) : (shift g)^[k] (x <<< k) = x := by
  induction k generalizing x with
  | zero => rfl
  | succ k ih => rw [Function.iterate_succ_apply, Nat.shiftLeft_add, shift_shiftLeft, ih]

end Shift

/-! ### Nothing is lost -/

section Width

variable {g n : ℕ}

theorem shift_lt (hg : g < 2 ^ n) {x : ℕ} (hx : x < 2 ^ n) : shift g x < 2 ^ n := by
  have hs : x >>> 1 < 2 ^ n := (Nat.shiftRight_le x 1).trans_lt hx
  unfold shift
  split_ifs
  · exact Nat.xor_lt_two_pow hs hg
  · exact hs

/-- The top bit of the generator shows whether it was folded in. -/
theorem shift_ne_zero (htop : g.testBit n = true) {x : ℕ} (hx : x < 2 ^ (n + 1)) (h0 : x ≠ 0) :
    shift g x ≠ 0 := by
  intro hz
  unfold shift at hz
  split_ifs at hz with hbit
  · have hs : x >>> 1 < 2 ^ n := by rw [Nat.shiftRight_eq_div_pow]; omega
    have hgx : x >>> 1 = g := Nat.xor_eq_zero_iff.mp hz
    rw [hgx] at hs
    rw [Nat.testBit_lt_two_pow hs] at htop
    cases htop
  · apply h0
    apply Nat.eq_of_testBit_eq
    intro i
    cases i with
    | zero => simpa using hbit
    | succ i => rw [Nat.add_comm, ← Nat.testBit_shiftRight, hz]; simp

theorem iterate_shift_ne_zero (hg : g < 2 ^ (n + 1)) (htop : g.testBit n = true) {x : ℕ}
    (hx : x < 2 ^ (n + 1)) (h0 : x ≠ 0) (k : ℕ) : (shift g)^[k] x ≠ 0 := by
  induction k generalizing x with
  | zero => exact h0
  | succ k ih => exact ih (shift_lt hg hx) (shift_ne_zero htop hx h0)

end Width

/-! ### Parity -/

/-- Whether an odd number of the low bits is set. -/
def parity : ℕ → ℕ → Bool
  | 0, _ => false
  | n + 1, x => x.testBit 0 ^^ parity n (x >>> 1)

theorem parity_step (n x : ℕ) : parity (n + 1) x = (x.testBit 0 ^^ parity n (x >>> 1)) := rfl

theorem parity_xor (n x y : ℕ) : parity n (x ^^^ y) = (parity n x ^^ parity n y) := by
  induction n generalizing x y with
  | zero => rfl
  | succ n ih =>
    simp only [parity, Nat.testBit_xor, Nat.shiftRight_xor_distrib, ih, Bool.xor_assoc,
      Bool.xor_left_comm (parity n (x >>> 1))]

theorem parity_zero (n : ℕ) : parity n 0 = false := by
  induction n with
  | zero => rfl
  | succ n ih => simp [parity, ih]

/-- Bits beyond a bound on the number do not count. -/
theorem parity_succ {n x : ℕ} (hx : x < 2 ^ n) : parity (n + 1) x = parity n x := by
  induction n generalizing x with
  | zero =>
    obtain rfl : x = 0 := by omega
    rfl
  | succ n ih =>
    rw [parity_step (n + 1) x, ih (by rw [Nat.shiftRight_eq_div_pow]; omega), parity_step n x]

theorem parity_of_le {n m x : ℕ} (hnm : n ≤ m) (hx : x < 2 ^ n) : parity m x = parity n x := by
  induction m, hnm using Nat.le_induction with
  | base => rfl
  | succ m hm ih => rw [parity_succ (hx.trans_le (Nat.pow_le_pow_right (by decide) hm)), ih]

theorem parity_eq_odd (n x : ℕ) :
    parity n x = decide (Odd ((Finset.range n).filter fun i => x.testBit i = true).card) := by
  induction n generalizing x with
  | zero => rfl
  | succ n ih =>
    have hshift : ∀ i, (x >>> 1).testBit i = x.testBit (i + 1) := fun i => by
      rw [Nat.testBit_shiftRight, Nat.add_comm]
    rw [parity, ih, Finset.card_filter, Finset.card_filter, Finset.sum_range_succ']
    simp only [hshift]
    cases x.testBit 0
    · rw [Bool.false_xor, if_neg (by decide), Nat.add_zero]
    · rw [Bool.true_xor, if_pos rfl, ← decide_not]
      exact decide_eq_decide.mpr Nat.odd_add_one.symm

/-- A step keeps the parity where the generator has an odd number of bits. -/
theorem parity_shift {g n : ℕ} (hodd : parity n g = true) {x : ℕ} (hx : x < 2 ^ n) :
    parity n (shift g x) = parity n x := by
  rw [← parity_succ hx, parity]
  unfold shift
  split_ifs with hbit
  · rw [parity_xor, hodd, hbit, Bool.xor_comm]
  · rw [Bool.eq_false_iff.mpr hbit, Bool.false_xor]

theorem parity_iterate_shift {g n : ℕ} (hg : g < 2 ^ n) (hodd : parity n g = true) {x : ℕ}
    (hx : x < 2 ^ n) (k : ℕ) : parity n ((shift g)^[k] x) = parity n x := by
  induction k generalizing x with
  | zero => rfl
  | succ k ih => rw [Function.iterate_succ_apply, ih (shift_lt hg hx), parity_shift hodd hx]

/-! ### Messages -/

/-- A message as a number, its first byte lowest. -/
def value : Bytes → ℕ
  | [] => 0
  | b :: bs => b.toNat ^^^ value bs <<< 8

/-- Bit `i` of a message: first byte first, least significant bit of a byte first. -/
def bit (bs : Bytes) (i : ℕ) : Bool := (bs.getD (i / 8) 0).toNat.testBit (i % 8)

/-- Fold each byte in and take eight steps. -/
def feed (g c : ℕ) (bs : Bytes) : ℕ := bs.foldl (fun c b => (shift g)^[8] (c ^^^ b.toNat)) c

theorem testBit_byte (b : UInt8) {i : ℕ} (hi : 8 ≤ i) : b.toNat.testBit i = false :=
  Nat.testBit_lt_two_pow (b.toNat_lt.trans_le (Nat.pow_le_pow_right (by decide) hi))

theorem testBit_value (bs : Bytes) (i : ℕ) : (value bs).testBit i = bit bs i := by
  induction bs generalizing i with
  | nil => simp [value, bit]
  | cons b bs ih =>
    rw [value, Nat.testBit_xor, Nat.testBit_shiftLeft]
    rcases Nat.lt_or_ge i 8 with hi | hi
    · rw [bit, Nat.div_eq_of_lt hi, Nat.mod_eq_of_lt hi]
      simp [Nat.not_le.mpr hi]
    · obtain ⟨j, rfl⟩ := Nat.exists_eq_add_of_le' hi
      rw [testBit_byte b hi, ih, bit, bit, Nat.add_sub_cancel, Nat.add_div_right _ (by decide),
        Nat.add_mod_right]
      simp

theorem bit_of_length_le {bs : Bytes} {i : ℕ} (h : 8 * bs.length ≤ i) : bit bs i = false := by
  rw [bit, List.getD_eq_default _ _ (by omega)]
  exact Nat.zero_testBit _

theorem value_lt (bs : Bytes) : value bs < 2 ^ (8 * bs.length) := by
  refine Nat.lt_pow_two_of_testBit _ fun i hi => ?_
  rw [testBit_value, bit_of_length_le hi]

theorem value_xor {bs es : Bytes} (h : es.length = bs.length) :
    value (List.zipWith (· ^^^ ·) bs es) = value bs ^^^ value es := by
  induction bs generalizing es with
  | nil => simp [value, List.length_eq_zero_iff.mp h]
  | cons b bs ih =>
    obtain ⟨e, es, rfl⟩ := List.exists_cons_of_length_eq_add_one h
    rw [List.zipWith_cons_cons, value, value, value, ih (by simpa using h),
      Nat.shiftLeft_xor_distrib, UInt8.toNat_xor]
    simp only [Nat.xor_assoc, Nat.xor_left_comm e.toNat]

theorem value_pair (lo hi : UInt8) : value [lo, hi] = 256 * hi.toNat + lo.toNat := by
  apply Nat.eq_of_testBit_eq
  intro i
  have hsum := Nat.testBit_two_pow_mul_add hi.toNat lo.toNat_lt i
  rw [show 256 = 2 ^ 8 from rfl, hsum, value, value, value, Nat.zero_shiftLeft, Nat.xor_zero,
    Nat.testBit_xor, Nat.testBit_shiftLeft]
  split_ifs with hi8
  · simp [Nat.not_le.mpr hi8]
  · rw [testBit_byte lo (by omega)]
    simp [Nat.not_lt.mp hi8]

/-- Feeding a message is folding all of it in first and taking eight steps for each byte. -/
theorem feed_eq (g c : ℕ) (bs : Bytes) :
    feed g c bs = (shift g)^[8 * bs.length] (c ^^^ value bs) := by
  induction bs generalizing c with
  | nil => simp [feed, value]
  | cons b bs ih =>
    have hfeed : feed g c (b :: bs) = feed g ((shift g)^[8] (c ^^^ b.toNat)) bs := rfl
    have hval : (shift g)^[8] (value bs <<< 8) = value bs := iterate_shift_shiftLeft g 8 _
    rw [hfeed, ih, List.length_cons, Nat.mul_add, Nat.mul_one, Function.iterate_add_apply, value,
      ← Nat.xor_assoc, iterate_shift_xor g 8 (c ^^^ b.toNat), hval]

theorem feed_append (g c : ℕ) (bs ts : Bytes) : feed g c (bs ++ ts) = feed g (feed g c bs) ts :=
  List.foldl_append

/-- An error shows in the register as itself, whatever the message it was folded into. -/
theorem feed_xor (g c : ℕ) {bs es : Bytes} (h : es.length = bs.length) :
    feed g c (List.zipWith (· ^^^ ·) bs es) =
      feed g c bs ^^^ (shift g)^[8 * es.length] (value es) := by
  rw [feed_eq, feed_eq, value_xor h, ← Nat.xor_assoc, iterate_shift_xor, List.length_zipWith, h,
    Nat.min_self]

/-! ### Errors that show -/

/-- The set bits lie among `n` consecutive ones. -/
def Burst (n : ℕ) (es : Bytes) : Prop := ∃ k, ∀ i, bit es i = true → k ≤ i ∧ i < k + n

/-- An odd number of bits is set. -/
def OddFlips (es : Bytes) : Prop :=
  Odd ((Finset.range (8 * es.length)).filter fun i => bit es i = true).card

theorem value_ne_zero {es : Bytes} (h : ∃ b ∈ es, b ≠ 0) : value es ≠ 0 := by
  obtain ⟨b, hb, h0⟩ := h
  induction es with
  | nil => cases hb
  | cons e es ih =>
    intro hz
    have hsplit : e.toNat = value es <<< 8 := Nat.xor_eq_zero_iff.mp hz
    have hlow : e.toNat = 0 := by
      apply Nat.eq_of_testBit_eq
      intro i
      rcases Nat.lt_or_ge i 8 with hi | hi
      · simp [hsplit, Nat.testBit_shiftLeft, Nat.not_le.mpr hi]
      · rw [testBit_byte e hi, Nat.zero_testBit]
    rcases List.mem_cons.mp hb with rfl | hb
    · exact h0 (UInt8.toNat_inj.mp hlow)
    · refine ih hb ?_
      rw [hlow, eq_comm, Nat.shiftLeft_eq] at hsplit
      exact (Nat.mul_eq_zero.mp hsplit).resolve_right (by decide)

/-- A burst no longer than the register leaves it set, wherever in the message it lies. -/
theorem feed_burst {g n : ℕ} (hg : g < 2 ^ (n + 1)) (htop : g.testBit n = true) {es : Bytes}
    (h0 : ∃ b ∈ es, b ≠ 0) (hburst : Burst (n + 1) es) :
    (shift g)^[8 * es.length] (value es) ≠ 0 := by
  obtain ⟨k, hk⟩ := hburst
  have hne := value_ne_zero h0
  obtain ⟨i, hi⟩ := Nat.exists_testBit_of_ne_zero hne
  rw [testBit_value] at hi
  have hlt : k < 8 * es.length := by
    by_contra hge
    rw [bit_of_length_le (by have := (hk i hi).1; omega)] at hi
    cases hi
  have hw : value es >>> k < 2 ^ (n + 1) := by
    refine Nat.lt_pow_two_of_testBit _ fun j hj => ?_
    rw [Nat.testBit_shiftRight, testBit_value]
    by_contra hset
    have := (hk (k + j) (Bool.eq_true_of_not_eq_false hset)).2
    omega
  have hval : value es = (value es >>> k) <<< k := by
    apply Nat.eq_of_testBit_eq
    intro j
    rw [Nat.testBit_shiftLeft, Nat.testBit_shiftRight]
    rcases Nat.lt_or_ge j k with hj | hj
    · have : bit es j = false := by
        by_contra hset
        have := (hk j (Bool.eq_true_of_not_eq_false hset)).1
        omega
      simp [testBit_value, this, Nat.not_le.mpr hj]
    · simp [hj, Nat.add_sub_cancel' hj]
  have hw0 : value es >>> k ≠ 0 := fun hz => hne (by rw [hval, hz, Nat.zero_shiftLeft])
  have hsteps : 8 * es.length = (8 * es.length - k) + k := by omega
  rw [hval, hsteps, Function.iterate_add_apply, iterate_shift_shiftLeft]
  exact iterate_shift_ne_zero hg htop hw hw0 _

/-- An odd number of flipped bits leaves the register set. -/
theorem feed_odd {g n : ℕ} (hg : g < 2 ^ n) (hodd : parity n g = true) {es : Bytes}
    (hn : n ≤ 8 * es.length) (h : OddFlips es) : (shift g)^[8 * es.length] (value es) ≠ 0 := by
  have hpow : 2 ^ n ≤ 2 ^ (8 * es.length) := Nat.pow_le_pow_right (by decide) hn
  have hpar : parity (8 * es.length) (value es) = true := by
    rw [parity_eq_odd, decide_eq_true_eq]
    simp only [testBit_value]
    exact h
  intro hz
  have hkeep := parity_iterate_shift (hg.trans_le hpow) (by rw [parity_of_le hn hg, hodd])
    (value_lt es) (8 * es.length)
  rw [hz, parity_zero, hpar] at hkeep
  cases hkeep

end ShiftRegister

end Pyomb
