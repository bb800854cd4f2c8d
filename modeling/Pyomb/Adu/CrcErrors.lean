import Pyomb.Bytes.Register
import Pyomb.Adu.Rtu

/-! What errors the checksum of an RTU frame detects. It is a shift register whose
generator sets its top bit and has an odd number of bits, and a frame is accepted where
running its own checksum through the register too clears it. An error the register cannot
clear is therefore one no accepted frame hides. -/

namespace Pyomb

open ShiftRegister

/-- The generator of CRC-16/MODBUS, its bits reversed. -/
def crcGenerator : ℕ := 0xA001

theorem crcShift_eq : crcShift = shift crcGenerator := by
  funext crc
  simp only [crcShift, shift, crcGenerator, Nat.testBit_zero, Nat.and_one_is_mod]
  rcases Nat.mod_two_eq_zero_or_one crc with h | h <;> simp [h]

theorem foldl_crcByte_eq (crc : ℕ) (data : Bytes) :
    data.foldl crcByte crc = feed crcGenerator crc data := by
  rw [feed, ← crcShift_eq]
  rfl

/-- A frame is accepted where the register ends up clear behind its checksum. -/
theorem validateCrc_iff_feed {s : Bytes} {name : String} : (∃ crc, validateCrc s name = .ok crc) ↔
    2 + crcSize ≤ s.length ∧ feed crcGenerator 0xFFFF s = 0 := by
  simp only [validateCrc_eq_ok, exists_and_left]
  refine and_congr_right fun hlen => ?_
  obtain ⟨lo, hi, htr⟩ := List.length_eq_two.mp (trailer_length (s := s) (by omega))
  have hcalc : feed crcGenerator 0xFFFF (payload s) = calcCrc16 (payload s) :=
    (foldl_crcByte_eq _ _).symm
  have hfeed : feed crcGenerator 0xFFFF s =
      (shift crcGenerator)^[16] (calcCrc16 (payload s) ^^^ value (trailer s)) := by
    conv_lhs => rw [← payload_append_trailer s, feed_append, hcalc, feed_eq]
    rw [htr]
    rfl
  have hval : value (trailer s) = Struct.Code.leH.decode (trailer s) := by
    rw [htr, value_pair]
    rfl
  have hlt : value (trailer s) < 2 ^ 16 := by
    rw [hval]
    exact Struct.Code.decode_lt _ _
  have hclear : feed crcGenerator 0xFFFF s = 0 ↔ calcCrc16 (payload s) = value (trailer s) := by
    rw [hfeed]
    constructor
    · intro hz
      by_contra hne
      exact iterate_shift_ne_zero (n := 15) (by decide) (by decide)
        (Nat.xor_lt_two_pow (calcCrc16_lt _) hlt) (fun h => hne (Nat.xor_eq_zero_iff.mp h)) 16 hz
    · intro heq
      rw [heq, Nat.xor_self, iterate_shift_zero]
  rw [hclear, hval]
  constructor
  · rintro ⟨crc, rfl, ht⟩
    rw [ht, Struct.Code.decode_encode _ (calcCrc16_lt _)]
  · intro heq
    exact ⟨_, rfl, by rw [heq, Struct.Code.encode_decode _ (trailer_length (by omega))]⟩

/-- What the register cannot clear is rejected, whatever frame it was laid over. -/
theorem validateCrc_xor {s e : Bytes} {name name' : String} {crc : ℕ}
    (hs : validateCrc s name = .ok crc) (hlen : e.length = s.length)
    (herr : (shift crcGenerator)^[8 * e.length] (value e) ≠ 0) :
    ∃ err, validateCrc (List.zipWith (· ^^^ ·) s e) name' = .error err := by
  have hclear := (validateCrc_iff_feed.mp ⟨crc, hs⟩).2
  cases h : validateCrc (List.zipWith (· ^^^ ·) s e) name' with
  | error err => exact ⟨err, rfl⟩
  | ok crc' =>
    have hclear' := (validateCrc_iff_feed.mp ⟨crc', h⟩).2
    rw [feed_xor _ _ hlen, hclear, Nat.zero_xor] at hclear'
    exact absurd hclear' herr

theorem RtuAdu.deserialize_error {k : FrameKind} {s : Bytes}
    (h : ∃ err, validateCrc s (packetName k) = .error err) :
    ∃ err, deserialize k s = .error err := by
  obtain ⟨err, h⟩ := h
  exact ⟨err, by simp [deserialize, h, bind, Except.bind]⟩

/-- The checksum detects every burst of up to sixteen bits and every odd number of flipped
bits, in frames of every length and wherever in the frame they lie. -/
theorem validateCrc_detects {s e : Bytes} {name : String} {crc : ℕ}
    (hs : validateCrc s name = .ok crc) (hlen : e.length = s.length) (hne : ∃ b ∈ e, b ≠ 0)
    (herr : Burst 16 e ∨ OddFlips e) :
    (∀ name', ∃ err, validateCrc (List.zipWith (· ^^^ ·) s e) name' = .error err) ∧
      (∃ err, ModbusRtuPacket.deserialize (List.zipWith (· ^^^ ·) s e) = .error err) ∧
      (∃ err, ModbusRtuRequest.deserialize (List.zipWith (· ^^^ ·) s e) = .error err) ∧
      ∃ err, ModbusRtuResponse.deserialize (List.zipWith (· ^^^ ·) s e) = .error err := by
  have hshows : (shift crcGenerator)^[8 * e.length] (value e) ≠ 0 := by
    rcases herr with hburst | hodd
    · exact feed_burst (n := 15) (by decide) (by decide) hne hburst
    · have hmin : crcSize = 2 := rfl
      have := (validateCrc_eq_ok.mp hs).1
      exact feed_odd (n := 16) (by decide) (by decide) (by omega) hodd
  have hreject (name' : String) :
      ∃ err, validateCrc (List.zipWith (· ^^^ ·) s e) name' = .error err :=
    validateCrc_xor hs hlen hshows
  exact ⟨hreject, RtuAdu.deserialize_error (hreject _), RtuAdu.deserialize_error (hreject _),
    RtuAdu.deserialize_error (hreject _)⟩

/-- Sixteen bits in a row, across the payload of a frame and its checksum. -/
theorem validateCrc_detects_straddling :
    ∃ err, ModbusRtuRequest.deserialize (List.zipWith (· ^^^ ·)
      [0x11, 0x03, 0x00, 0x6B, 0x00, 0x03, 0x76, 0x87] [0, 0, 0, 0, 0, 0xF0, 0xFF, 0x0F]) =
        .error err := by
  have hs : validateCrc [0x11, 0x03, 0x00, 0x6B, 0x00, 0x03, 0x76, 0x87] "" = .ok 0x8776 := by
    decide +kernel
  have hin : ∀ i < 64, bit [0, 0, 0, 0, 0, 0xF0, 0xFF, 0x0F] i = true → 44 ≤ i ∧ i < 60 := by
    decide
  have hburst : Burst 16 [0, 0, 0, 0, 0, 0xF0, 0xFF, 0x0F] := by
    refine ⟨44, fun i hi => hin i ?_ hi⟩
    by_contra hge
    rw [bit_of_length_le (not_lt.mp hge)] at hi
    cases hi
  have hne : ∃ b ∈ ([0, 0, 0, 0, 0, 0xF0, 0xFF, 0x0F] : Bytes), b ≠ 0 := ⟨0xF0, by decide⟩
  exact (validateCrc_detects hs (by rfl) hne (.inl hburst)).2.2.1

end Pyomb
