import Pyomb.Adu.Tcp
import Pyomb.Adu.Rtu

/-! The whole format in both directions, from the PDU classes up to the frames. -/

namespace Pyomb

open ModbusPduParser

/-- Decoding undoes encoding: for every PDU the dispatch decodes by its own class, and
for the TCP and RTU frames built around one. -/
theorem decode_serialize :
    (∀ p s, RequestObject p → p.serialize = .ok s → parseRequest s = .ok p) ∧
    (∀ p s, ResponseObject p → p.serialize = .ok s → parseResponse s = .ok p) ∧
    (∀ (a : ModbusTcpRequest) (n : ℕ) h p, RequestObject a.pdu → a.pdu.len = .ok n →
      a.header.length = n + 1 → a.header.serialize = .ok h → a.pdu.serialize = .ok p →
      ∃ s, a.serialize = .ok s ∧ ModbusTcpRequest.deserialize s = .ok a) ∧
    (∀ (a : ModbusTcpResponse) (n : ℕ) h p, ResponseObject a.pdu → a.pdu.len = .ok n →
      a.header.length = n + 1 → a.header.serialize = .ok h → a.pdu.serialize = .ok p →
      ∃ s, a.serialize = .ok s ∧ ModbusTcpResponse.deserialize s = .ok a) ∧
    (∀ (a : ModbusRtuRequest) p, RequestObject a.pdu → 0 ≤ a.slaveId → a.slaveId ≤ 255 →
      a.pdu.serialize = .ok p →
      ∃ s a', a.serialize = .ok (s, a') ∧ ModbusRtuRequest.deserialize s = .ok a') ∧
    (∀ (a : ModbusRtuResponse) p, ResponseObject a.pdu → 0 ≤ a.slaveId → a.slaveId ≤ 255 →
      a.pdu.serialize = .ok p →
      ∃ s a', a.serialize = .ok (s, a') ∧ ModbusRtuResponse.deserialize s = .ok a') := by
  refine ⟨fun p s hp hs => parseRequest_serialize hp hs,
    fun p s hp hs => parseResponse_serialize hp hs,
    fun a n h p hk hn hlen hh hp => ?_, fun a n h p hk hn hlen hh hp => ?_,
    fun a p hk h0 h255 hp => RtuAdu.deserialize_serialize hk h0 h255 hp,
    fun a p hk h0 h255 hp => RtuAdu.deserialize_serialize hk h0 h255 hp⟩
  all_goals
    have hlen' : a.header.length = p.length + 1 := by
      rw [Pdu.len_of_serialize hp, Except.ok.injEq] at hn
      rw [hlen, hn]
    have hd := TcpAdu.deserialize_serialize (a := a) hk hh hp hlen'
    refine ⟨h ++ p, TcpAdu.serialize_eq_ok.mpr ⟨h, p, hh, hp, rfl⟩, ?_⟩
  · exact TcpAdu.request_deserialize_eq_ok.mpr hd
  · exact hd

theorem decode_serialize_fc3 :
    parseRequest [0x03, 0x00, 0x6B, 0x00, 0x03] = .ok (.modbusRequestFC3 0x6B 3) ∧
    (∃ s, (⟨⟨1, 0, 6, 0x11⟩, .modbusRequestFC3 0x6B 3⟩ : ModbusTcpRequest).serialize = .ok s ∧
      ModbusTcpRequest.deserialize s = .ok ⟨⟨1, 0, 6, 0x11⟩, .modbusRequestFC3 0x6B 3⟩) ∧
    (∃ s a', (⟨0x11, .modbusRequestFC3 0x6B 3, 0xFFFF⟩ : ModbusRtuRequest).serialize =
      .ok (s, a') ∧ ModbusRtuRequest.deserialize s = .ok a') ∧
    parseResponse [0x03, 0x02, 0xAE, 0x41] = .ok (.modbusResponseFC3 2 [0xAE41]) ∧
    (∃ s, (⟨⟨1, 0, 5, 0x11⟩, .modbusResponseFC3 2 [0xAE41]⟩ : ModbusTcpResponse).serialize =
      .ok s ∧ ModbusTcpResponse.deserialize s = .ok ⟨⟨1, 0, 5, 0x11⟩, .modbusResponseFC3 2 [0xAE41]⟩) ∧
    (∃ s a', (⟨0x11, .modbusResponseFC3 2 [0xAE41], 0xFFFF⟩ : ModbusRtuResponse).serialize =
      .ok (s, a') ∧ ModbusRtuResponse.deserialize s = .ok a') := by
  have hreq : RequestObject (.modbusRequestFC3 0x6B 3) := .inl (by decide)
  have hrsp : ResponseObject (.modbusResponseFC3 2 [0xAE41]) := .inl (by decide)
  exact ⟨decode_serialize.1 _ _ hreq rfl,
    decode_serialize.2.2.1 _ 5 _ _ hreq rfl rfl rfl rfl,
    decode_serialize.2.2.2.2.1 _ _ hreq (by decide) (by decide) rfl,
    decode_serialize.2.1 _ _ hrsp rfl,
    decode_serialize.2.2.2.1 _ 4 _ _ hrsp rfl rfl rfl rfl,
    decode_serialize.2.2.2.2.2 _ _ hrsp (by decide) (by decide) rfl⟩

/-- Encoding undoes decoding on everything accepted, unless what was accepted is a
response to a read of bits whose byte count lies about the status bytes behind it:
`serialize` sizes those by the count, and every other PDU by its payload. -/
theorem serialize_decode (s : Bytes) :
    (∀ p, parseRequest s = .ok p → p.serialize = .ok s) ∧
    (∀ p, parseResponse s = .ok p → (p.serialize = .ok s ↔ ¬ BitCountLies s)) ∧
    (∀ a, ModbusTcpRequest.deserialize s = .ok a → a.serialize = .ok s) ∧
    (∀ a, ModbusTcpPacket.deserialize s = .ok a → a.serialize = .ok s) ∧
    (∀ a, ModbusTcpResponse.deserialize s = .ok a →
      (a.serialize = .ok s ↔ ¬ BitCountLies (s.drop ModbusHeader.size))) ∧
    (∀ a, ModbusRtuRequest.deserialize s = .ok a → ∃ a', a.serialize = .ok (s, a')) ∧
    (∀ a, ModbusRtuPacket.deserialize s = .ok a → ∃ a', a.serialize = .ok (s, a')) ∧
    (∀ a, ModbusRtuResponse.deserialize s = .ok a →
      ((∃ a', a.serialize = .ok (s, a')) ↔ ¬ BitCountLies ((payload s).drop 1))) := by
  refine ⟨fun p h => serialize_parseRequest h, fun p h => serialize_parseResponse h,
    fun a h => ?_, fun a h => ?_, fun a h => TcpAdu.serialize_deserialize h,
    fun a h => ?_, fun a h => ?_, fun a h => RtuAdu.serialize_deserialize h⟩
  · exact (TcpAdu.serialize_deserialize (TcpAdu.request_deserialize_eq_ok.mp h)).mpr id
  · exact (TcpAdu.serialize_deserialize h).mpr id
  · exact (RtuAdu.serialize_deserialize h).mpr id
  · exact (RtuAdu.serialize_deserialize h).mpr id

theorem serialize_decode_truthful :
    (Pdu.modbusResponseFC1 1 [0xFF]).serialize = .ok [0x01, 0x01, 0xFF] :=
  ((serialize_decode [0x01, 0x01, 0xFF]).2.1 _ (by decide)).mpr (by decide)

/-- A response that declares five status bytes and carries one is accepted, bare and in a
TCP frame, and is not written back. -/
theorem serialize_decode_lying :
    parseResponse [0x01, 0x05, 0xFF] = .ok (.modbusResponseFC1 5 [0xFF]) ∧
    (Pdu.modbusResponseFC1 5 [0xFF]).serialize ≠ .ok [0x01, 0x05, 0xFF] ∧
    ModbusTcpResponse.deserialize [0, 1, 0, 0, 0, 4, 1, 0x01, 0x05, 0xFF] =
      .ok ⟨⟨1, 0, 4, 1⟩, .modbusResponseFC1 5 [0xFF]⟩ ∧
    TcpAdu.serialize (k := .response) ⟨⟨1, 0, 4, 1⟩, .modbusResponseFC1 5 [0xFF]⟩ ≠
      .ok [0, 1, 0, 0, 0, 4, 1, 0x01, 0x05, 0xFF] := by
  decide

end Pyomb
