import Pyomb.Adu.Frame
import Pyomb.Adu.Crc

/-! The RTU frame classes: a slave id, a PDU and the checksum of the two. Serializing
recomputes the checksum and stores it on the object, so it returns the object too. -/

namespace Pyomb

/-- An RTU frame: `ModbusRtuRequest`, `ModbusRtuResponse` or `ModbusRtuPacket`. -/
structure RtuAdu (k : FrameKind) where
  slaveId : ℤ
  pdu : Pdu
  crc : ℕ := 0xFFFF
  deriving DecidableEq, Repr

abbrev ModbusRtuRequest := RtuAdu .request
abbrev ModbusRtuResponse := RtuAdu .response
abbrev ModbusRtuPacket := RtuAdu .packet

namespace RtuAdu

/-- The name a class gives its frames in the checksum's messages. -/
def packetName : FrameKind → String
  | .request => "RTU Request"
  | .response => "RTU Response"
  | .packet => "RTU Packet"

def pduText : FrameKind → String
  | .request => "RTU Request PDU: "
  | .response => "RTU Response PDU: "
  | .packet => "RTU Packet: "

variable {k : FrameKind}

/-- `serialize`: the bytes, and the object with the checksum just computed. -/
def serialize (a : RtuAdu k) : Except PacketError (Bytes × RtuAdu k) :=
  tryUnder ("Error serializing the " ++ pduText k) do
    let slaveId ← liftStruct (Struct.pack [.B] [a.slaveId])
    let pdu ← a.pdu.serialize
    let crc := calcCrc16 (slaveId ++ pdu)
    let crcBytes ← liftStruct (Struct.pack crcFmt [(crc : ℤ)])
    return (slaveId ++ pdu ++ crcBytes, { a with crc })

/-- `deserialize`. -/
def deserialize (k : FrameKind) (stream : Bytes) (verifyCrc : Bool := true) :
    Except PacketError (RtuAdu k) := do
  if verifyCrc then
    let _ ← validateCrc stream (packetName k)
  tryUnder ("Error deserializing the " ++ pduText k) do
    let slaveId ← liftStruct (Struct.unpack [.B] (stream.take 1))
    let crc ← liftStruct (Struct.unpack crcFmt (trailer stream))
    let pdu ← k.parse ((payload stream).drop 1)
    return ⟨slaveId.getD 0 0, pdu, (crc.getD 0 0).toNat⟩

end RtuAdu

def ModbusRtuRequest.deserialize (stream : Bytes) (verifyCrc : Bool := true) :
    Except PacketError ModbusRtuRequest := RtuAdu.deserialize .request stream verifyCrc

def ModbusRtuResponse.deserialize (stream : Bytes) (verifyCrc : Bool := true) :
    Except PacketError ModbusRtuResponse := RtuAdu.deserialize .response stream verifyCrc

def ModbusRtuPacket.deserialize (stream : Bytes) (verifyCrc : Bool := true) :
    Except PacketError ModbusRtuPacket := RtuAdu.deserialize .packet stream verifyCrc

namespace RtuAdu

variable {k : FrameKind}

theorem pack_crc {crc : ℕ} (h : crc < 2 ^ 16) :
    Struct.pack crcFmt [(crc : ℤ)] = .ok (Struct.Code.leH.encode crc) := by
  refine Struct.pack_eq_ok.mpr ⟨.cons ⟨by omega, ?_⟩ .nil, by simp [Struct.encodeItems, crcFmt]⟩
  simp only [Struct.Code.size]
  omega

theorem unpack_crc {crc : ℕ} (h : crc < 2 ^ 16) :
    Struct.unpack crcFmt (Struct.Code.leH.encode crc) = .ok [(crc : ℤ)] :=
  Struct.unpack_pack (pack_crc h)

theorem pack_byte (b : UInt8) : Struct.pack [.B] [(b.toNat : ℤ)] = .ok [b] := by
  have := b.toNat_lt
  refine Struct.pack_eq_ok.mpr ⟨.cons ⟨by omega, ?_⟩ .nil, ?_⟩
  · simp only [Struct.Code.size]; omega
  · simp [Struct.encodeItems, Struct.Code.encode]

theorem unpack_byte (b : UInt8) : Struct.unpack [.B] [b] = .ok [(b.toNat : ℤ)] :=
  Struct.unpack_pack (pack_byte b)

theorem serialize_eq_ok {a a' : RtuAdu k} {s : Bytes} : a.serialize = .ok (s, a') ↔
    ∃ slaveId pdu, Struct.pack [.B] [a.slaveId] = .ok slaveId ∧ a.pdu.serialize = .ok pdu ∧
      a' = { a with crc := calcCrc16 (slaveId ++ pdu) } ∧
      s = slaveId ++ pdu ++ Struct.Code.leH.encode (calcCrc16 (slaveId ++ pdu)) := by
  simp only [serialize, tryUnder_eq_ok, liftStruct_eq_ok, bind_eq_ok, pure, Except.pure,
    Except.ok.injEq, Prod.mk.injEq, pack_crc (calcCrc16_lt _)]
  constructor
  · rintro ⟨slaveId, hs, pdu, hp, _, rfl, rfl, rfl⟩; exact ⟨slaveId, pdu, hs, hp, rfl, rfl⟩
  · rintro ⟨slaveId, pdu, hs, hp, rfl, rfl⟩; exact ⟨slaveId, hs, pdu, hp, _, rfl, rfl, rfl⟩

/-- What a verified frame is: a slave id, PDU bytes the reader accepts, and the
checksum of the two. -/
theorem deserialize_eq_ok {s : Bytes} {a : RtuAdu k} : deserialize k s = .ok a ↔
    ∃ (slaveId : UInt8) (pdu : Bytes), a.slaveId = slaveId.toNat ∧ k.parse pdu = .ok a.pdu ∧
      a.crc = calcCrc16 (slaveId :: pdu) ∧
      s = slaveId :: pdu ++ Struct.Code.leH.encode (calcCrc16 (slaveId :: pdu)) := by
  simp only [deserialize, if_true, bind_eq_ok, tryUnder_eq_ok, liftStruct_eq_ok, pure, Except.pure,
    Except.ok.injEq]
  constructor
  · rintro ⟨crc, hcrc, slaveId, hs, crc', hcrc', pdu, hp, rfl⟩
    obtain ⟨hlen, rfl, ht⟩ := validateCrc_eq_ok.mp hcrc
    obtain ⟨b, rest, hb⟩ := List.exists_cons_of_length_pos (l := payload s) (by
      rw [payload, List.length_take]
      omega)
    have hcat := payload_append_trailer s
    rw [ht, hb] at hcat
    rw [ht, unpack_crc (calcCrc16_lt _), Except.ok.injEq] at hcrc'
    rw [← hcat, List.cons_append, List.take_succ_cons, List.take_zero, unpack_byte,
      Except.ok.injEq] at hs
    subst hs hcrc'
    exact ⟨b, rest, rfl, by simpa only [hb, List.drop_one, List.tail_cons] using hp,
      by simp [hb], hcat.symm⟩
  · rintro ⟨b, rest, hslave, hp, hcrc, rfl⟩
    have hl : (Struct.Code.leH.encode (calcCrc16 (b :: rest))).length = crcSize :=
      Struct.Code.encode_length _ _
    have hpay := payload_append (s := b :: rest) hl
    have htr := trailer_append (s := b :: rest) hl
    have hne := FrameKind.ne_nil_of_parse hp
    refine ⟨calcCrc16 (b :: rest), validateCrc_eq_ok.mpr ⟨?_, by rw [hpay], htr⟩, [(b.toNat : ℤ)],
      ?_, _, by rw [htr, unpack_crc (calcCrc16_lt _)], a.pdu, by rw [hpay]; exact hp, ?_⟩
    · have := List.length_pos_iff.mpr hne
      simp only [List.length_append, List.length_cons, hl]
      omega
    · rw [List.cons_append, List.take_succ_cons, List.take_zero, unpack_byte]
    · obtain ⟨slaveId, pdu, crc⟩ := a
      simp only at hslave hcrc
      simp [hslave, hcrc]

/-- A frame with a slave id of one byte serializes where its PDU does, and is read back
as the object that serializing left. -/
theorem deserialize_serialize {a : RtuAdu k} (hk : k.Readable a.pdu) (h0 : 0 ≤ a.slaveId)
    (h255 : a.slaveId ≤ 255) {pdu : Bytes} (hp : a.pdu.serialize = .ok pdu) :
    ∃ s a', a.serialize = .ok (s, a') ∧ deserialize k s = .ok a' := by
  obtain ⟨b, hb⟩ : ∃ b : UInt8, a.slaveId = b.toNat :=
    ⟨UInt8.ofNat a.slaveId.toNat, by rw [UInt8.toNat_ofNat']; omega⟩
  refine ⟨_, _, serialize_eq_ok.mpr ⟨[b], pdu, by rw [hb]; exact pack_byte b, hp, rfl, rfl⟩, ?_⟩
  exact deserialize_eq_ok.mpr ⟨b, pdu, hb, FrameKind.parse_serialize hk hp, rfl, rfl⟩

/-- A verified frame is written back as it arrived, exactly where its PDU is. -/
theorem serialize_deserialize {s : Bytes} {a : RtuAdu k} (h : deserialize k s = .ok a) :
    (∃ a', a.serialize = .ok (s, a')) ↔ ¬ k.Lies ((payload s).drop 1) := by
  obtain ⟨b, rest, hslave, hp, -, rfl⟩ := deserialize_eq_ok.mp h
  rw [payload_append (Struct.Code.encode_length _ _), List.drop_one, List.tail_cons,
    ← FrameKind.serialize_parse hp]
  simp only [serialize_eq_ok, hslave, pack_byte, Except.ok.injEq]
  constructor
  · rintro ⟨a', slaveId, pdu, rfl, hpdu, -, hs⟩
    have := (List.append_inj_left' hs (by simp)).symm
    simp only [List.cons_append, List.nil_append, List.cons.injEq, true_and] at this
    rw [← this]
    exact hpdu
  · intro hpdu
    exact ⟨_, [b], rest, rfl, hpdu, rfl, rfl⟩

end RtuAdu

end Pyomb
