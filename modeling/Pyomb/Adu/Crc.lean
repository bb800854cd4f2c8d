import Pyomb.Errors

/-! The CRC-16/MODBUS checksum and the check of a frame against its own. The
checksum is the last two bytes of a frame, low byte first. -/

namespace Pyomb

/-- Shift right, and fold in the reversed generator on a set least significant bit. -/
def crcShift (crc : ℕ) : ℕ :=
  if crc &&& 0x0001 ≠ 0 then (crc >>> 1) ^^^ 0xA001 else crc >>> 1

/-- XOR the byte into the checksum, then shift eight times. -/
def crcByte (crc : ℕ) (byte : UInt8) : ℕ := crcShift^[8] (crc ^^^ byte.toNat)

def calcCrc16 (data : Bytes) : ℕ := data.foldl crcByte 0xFFFF

def crcFmt : List Struct.Code := [.leH]

/-- `CRC_SIZE`. -/
def crcSize : ℕ := Struct.calcsize crcFmt

theorem crcShift_lt {crc : ℕ} (h : crc < 2 ^ 16) : crcShift crc < 2 ^ 16 := by
  have hs : crc >>> 1 < 2 ^ 16 := by rw [Nat.shiftRight_eq_div_pow]; omega
  unfold crcShift
  split_ifs
  · exact Nat.xor_lt_two_pow hs (by decide)
  · exact hs

theorem crcShift_iterate_lt {crc : ℕ} (h : crc < 2 ^ 16) (n : ℕ) : crcShift^[n] crc < 2 ^ 16 := by
  induction n generalizing crc with
  | zero => exact h
  | succ n ih => exact ih (crcShift_lt h)

theorem crcByte_lt {crc : ℕ} (h : crc < 2 ^ 16) (byte : UInt8) : crcByte crc byte < 2 ^ 16 :=
  crcShift_iterate_lt (Nat.xor_lt_two_pow h (by have := byte.toNat_lt; omega)) 8

theorem foldl_crcByte_lt {crc : ℕ} (h : crc < 2 ^ 16) (data : Bytes) :
    data.foldl crcByte crc < 2 ^ 16 := by
  induction data generalizing crc with
  | nil => exact h
  | cons b data ih => exact ih (crcByte_lt h b)

theorem calcCrc16_lt (data : Bytes) : calcCrc16 data < 2 ^ 16 := foldl_crcByte_lt (by decide) data

/-! ### The trailing checksum -/

/-- `stream[-CRC_SIZE:]`. -/
def trailer (stream : Bytes) : Bytes := stream.drop (stream.length - crcSize)

/-- `stream[:-CRC_SIZE]`. -/
def payload (stream : Bytes) : Bytes := stream.take (stream.length - crcSize)

theorem payload_append_trailer (stream : Bytes) : payload stream ++ trailer stream = stream :=
  List.take_append_drop _ stream

theorem payload_append {s t : Bytes} (h : t.length = crcSize) : payload (s ++ t) = s := by
  rw [payload, List.length_append, h, Nat.add_sub_cancel, List.take_left]

theorem trailer_append {s t : Bytes} (h : t.length = crcSize) : trailer (s ++ t) = t := by
  rw [trailer, List.length_append, h, Nat.add_sub_cancel, List.drop_left]

theorem trailer_length {s : Bytes} (h : crcSize ≤ s.length) : (trailer s).length = crcSize := by
  rw [trailer, List.length_drop]; omega

/-- `validate_crc`: the checksum the frame carries, where its payload computes to it. -/
def validateCrc (stream : Bytes) (packetName : String) : Except PacketError ℕ :=
  if stream.length < 2 + crcSize then
    .error (.say ("The " ++ packetName ++ " is " ++ toString stream.length ++
      " byte(s) long, too short to carry a slave id, a function code and a CRC"))
  else
    let received := Struct.Code.leH.decode (trailer stream)
    let expected := calcCrc16 (payload stream)
    if received ≠ expected then
      .error (.say ("The " ++ packetName ++ " carries CRC 0x" ++ hex4 received ++
        " but its payload computes to 0x" ++ hex4 expected ++ ", so the frame is corrupt"))
    else .ok received

/-- The check succeeds on four bytes or more whose trailer is the payload's checksum. -/
theorem validateCrc_eq_ok {s : Bytes} {name : String} {crc : ℕ} : validateCrc s name = .ok crc ↔
    2 + crcSize ≤ s.length ∧ crc = calcCrc16 (payload s) ∧
      trailer s = Struct.Code.leH.encode crc := by
  unfold validateCrc
  dsimp only
  split_ifs with hlen hcrc
  · simp only [false_iff]
    omega
  · simp only [false_iff]
    rintro ⟨-, rfl, ht⟩
    refine hcrc ?_
    rw [ht, Struct.Code.decode_encode _ (calcCrc16_lt _)]
  · rw [not_not] at hcrc
    have ht := Struct.Code.encode_decode .leH (trailer_length (s := s) (by omega))
    simp only [Except.ok.injEq]
    constructor
    · rintro rfl
      exact ⟨by omega, hcrc, ht.symm⟩
    · rintro ⟨-, rfl, -⟩
      exact hcrc

end Pyomb
