import Pyomb.Adu.CrcErrors
import Pyomb.Bytes.Division

/-! The checksum as polynomial division. The bits of a message, least significant first
within each byte, are the coefficients of a polynomial over the field of two from the
highest down; the checksum is the remainder of that polynomial, shifted up and with the
register's initial value ahead of it, by the generator of CRC-16/MODBUS. -/

namespace Pyomb

open Polynomial ShiftRegister

/-- The message as a polynomial of `8 * length` coefficients, the first bit the highest. -/
noncomputable def messagePolynomial (m : Bytes) : (ZMod 2)[X] :=
  ∑ i ∈ Finset.range (8 * m.length), C (ofBit (bit m i)) * X ^ (8 * m.length - 1 - i)

/-- `x^16 + x^15 + x^2 + 1`. -/
noncomputable def crcPolynomial : (ZMod 2)[X] := X ^ 16 + X ^ 15 + X ^ 2 + 1

/-- The message shifted up by the checksum's width, the initial value ahead of it. -/
noncomputable def crcDividend (m : Bytes) : (ZMod 2)[X] :=
  X ^ 16 * messagePolynomial m + X ^ (8 * m.length) * ∑ k ∈ Finset.range 16, X ^ k

theorem messagePolynomial_eq (m : Bytes) :
    messagePolynomial m = reflected (8 * m.length) (value m) := by
  simp only [messagePolynomial, reflected, testBit_value]

theorem divisor_crcGenerator : divisor 16 crcGenerator = crcPolynomial := by
  have hlow : reflected 16 crcGenerator = X ^ 15 + X ^ 2 + 1 := by
    simp [reflected, Finset.sum_range_succ, crcGenerator, ofBit, Nat.testBit]
  rw [divisor, hlow, crcPolynomial]
  ring

theorem reflected_initial : reflected 16 0xFFFF = ∑ k ∈ Finset.range 16, X ^ k := by
  rw [← Finset.sum_range_reflect, reflected]
  refine Finset.sum_congr rfl fun i hi => ?_
  have hbit : Nat.testBit 0xFFFF i = true := by
    rw [show 0xFFFF = 2 ^ 16 - 1 from rfl, Nat.testBit_two_pow_sub_one]
    exact decide_eq_true (Finset.mem_range.mp hi)
  rw [hbit, ofBit, if_pos rfl, C_1, one_mul]

theorem reflected_dividend (m : Bytes) :
    reflected (16 + 8 * m.length) (0xFFFF ^^^ value m) = crcDividend m := by
  have hmessage := reflected_add (value_lt m) 16
  have hinitial := reflected_add (n := 16) (x := 0xFFFF) (by decide) (8 * m.length)
  rw [reflected_xor, hinitial, reflected_initial, Nat.add_comm 16, hmessage, crcDividend,
    messagePolynomial_eq, add_comm]

/-- The checksum is CRC-16/MODBUS: its bits, lowest first, are the coefficients of the
remainder from the highest down. A frame is accepted where its checksum, run over the whole
of it, is zero. -/
theorem calcCrc16_eq_remainder :
    (∀ m : Bytes, calcCrc16 m < 2 ^ 16 ∧
      ∀ i < 16, ((calcCrc16 m).testBit i = true ↔
        (crcDividend m %ₘ crcPolynomial).coeff (15 - i) = 1)) ∧
    ∀ (s : Bytes) (name : String), 4 ≤ s.length →
      ((∃ crc, validateCrc s name = .ok crc) ↔ calcCrc16 s = 0) := by
  have hcalc : ∀ m, calcCrc16 m = feed crcGenerator 0xFFFF m := foldl_crcByte_eq 0xFFFF
  refine ⟨fun m => ⟨calcCrc16_lt m, fun i hi => ?_⟩, fun s name hs => ?_⟩
  · have hlt : 0xFFFF ^^^ value m < 2 ^ (16 + 8 * m.length) := by
      refine Nat.xor_lt_two_pow ?_ ?_
      · exact lt_of_lt_of_le (by decide) (Nat.pow_le_pow_right (n := 2) (by decide)
          (Nat.le_add_right 16 _))
      · exact (value_lt m).trans_le (Nat.pow_le_pow_right (by decide) (Nat.le_add_left _ 16))
    have hrem := reflected_iterate_shift (w := 16) (g := crcGenerator) (by decide) hlt
    rw [reflected_dividend, divisor_crcGenerator, ← feed_eq, ← hcalc] at hrem
    rw [← hrem, ← ofBit_eq_one, show 15 - i = 16 - 1 - i from rfl, coeff_reflected hi]
  · have hcrc : 2 + crcSize = 4 := rfl
    rw [validateCrc_iff_feed, hcalc, hcrc]
    exact and_iff_right hs

example : calcCrc16 [0x01, 0x03, 0x00, 0x00, 0x00, 0x01] = 0x0A84 := by decide +kernel

end Pyomb
