import Pyomb.Pdu.Consistency
import Pyomb.Adu.Tcp
import Pyomb.Adu.Rtu

/-! What the frames report of themselves, and whether a frame that reports nothing is
sound on the wire. A frame collects the findings of the parts it holds. The length
field of the MBAP header and the size of the PDU behind it are two parts that no
finding compares, and a write's payload and its byte count are two fields that none does. -/

namespace Pyomb

def limitViolation (source : String) (field : Field) (low high value : ℤ) :
    List ModbusViolation :=
  if low ≤ value ∧ value ≤ high then []
  else [⟨source, field, PduLayout.ruleText low high, value⟩]

/-- The protocol identifier is zero; the other three fields carry no stated bound. -/
def ModbusHeader.violations (h : ModbusHeader) : List ModbusViolation :=
  limitViolation "ModbusHeader" .protId 0x0000 0x0000 h.protId

/-- A TCP frame bounds nothing itself. -/
def TcpAdu.violations {k : FrameKind} (a : TcpAdu k) : List ModbusViolation :=
  a.header.violations ++ a.pdu.violations

def RtuAdu.className : FrameKind → String
  | .request => "ModbusRtuRequest"
  | .response => "ModbusRtuResponse"
  | .packet => "ModbusRtuPacket"

def RtuAdu.violations {k : FrameKind} (a : RtuAdu k) : List ModbusViolation :=
  limitViolation (className k) .slaveId 0x00 0xF7 a.slaveId ++ a.pdu.violations

/-! ### Sound on the wire -/

/-- The MBAP length of a frame is one plus the length of the PDU behind the header. -/
def TcpAdu.LengthAgrees (s : Bytes) : Prop :=
  ∃ h, ModbusHeader.deserialize (s.take ModbusHeader.size) = .ok h ∧
    h.length = 1 + (s.drop ModbusHeader.size).length

namespace TcpAdu

variable {k : FrameKind}

def Measured (a : TcpAdu k) : Prop := ∃ n : ℕ, a.pdu.len = .ok n ∧ a.header.length = n + 1

theorem consistent_iff {a : TcpAdu k} {s : Bytes} (hk : k.Readable a.pdu) (hv : a.violations = [])
    (h : a.serialize = .ok s) :
    (a.pdu.cls.SelfConsistent (s.drop ModbusHeader.size) ∧ LengthAgrees s ∧
      ∃ b, deserialize k s = .ok b) ↔ a.pdu.Filled ∧ a.Measured := by
  obtain ⟨header, pdu, hh, hp, rfl⟩ := serialize_eq_ok.mp h
  have hl := ModbusHeader.serialize_length hh
  have hhead := ModbusHeader.deserialize_serialize hh
  rw [LengthAgrees, List.take_left' hl, List.drop_left' hl,
    Pdu.selfConsistent_iff (List.append_eq_nil_iff.mp hv).2 hp, Measured, Pdu.len_of_serialize hp]
  constructor
  · rintro ⟨hf, ⟨b, hb, hlen⟩, -⟩
    obtain rfl : a.header = b := Except.ok.inj (hhead.symm.trans hb)
    exact ⟨hf, _, rfl, by omega⟩
  · rintro ⟨hf, n, hn, hlen⟩
    obtain rfl : pdu.length = n := Except.ok.inj hn
    exact ⟨hf, ⟨_, hhead, by omega⟩, a, deserialize_serialize hk hh hp hlen⟩

end TcpAdu

theorem RtuAdu.consistent_iff {k : FrameKind} {a a' : RtuAdu k} {s : Bytes}
    (hk : k.Readable a.pdu) (hv : a.violations = []) (h : a.serialize = .ok (s, a')) :
    (a.pdu.cls.SelfConsistent ((payload s).drop 1) ∧ ∃ b, deserialize k s = .ok b) ↔
      a.pdu.Filled := by
  obtain ⟨slaveId, pdu, hs, hp, -, rfl⟩ := serialize_eq_ok.mp h
  have hl : slaveId.length = 1 := Struct.pack_length hs
  obtain ⟨b, rfl⟩ := List.length_eq_one_iff.mp hl
  have hb : deserialize k ([b] ++ pdu ++ Struct.Code.leH.encode (calcCrc16 ([b] ++ pdu))) =
      .ok ⟨b.toNat, a.pdu, calcCrc16 (b :: pdu)⟩ :=
    deserialize_eq_ok.mpr ⟨b, pdu, rfl, FrameKind.parse_serialize hk hp, rfl, rfl⟩
  rw [payload_append (Struct.Code.encode_length _ _), List.drop_left' hl,
    Pdu.selfConsistent_iff (List.append_eq_nil_iff.mp hv).2 hp]
  exact ⟨fun hf => hf.1, fun hf => ⟨hf, _, hb⟩⟩

/-! ### Findings against the wire -/

/-- A packet that reports no finding is sound on the wire exactly where it is filled and,
in a TCP frame, its header counts the PDU it holds. -/
theorem violations_sound_iff (s : Bytes) :
    (∀ p : Pdu, p.cls ∈ registry → p.violations = [] → p.serialize = .ok s →
      ((p.cls.SelfConsistent s ∧ ∃ q, p.cls.deserialize s = .ok q) ↔ p.Filled)) ∧
    (∀ a : ModbusTcpRequest, a.pdu.cls ∈ registry → a.pdu.cls.isRequest → a.violations = [] →
      a.serialize = .ok s →
      ((a.pdu.cls.SelfConsistent (s.drop ModbusHeader.size) ∧ TcpAdu.LengthAgrees s ∧
        ∃ b, ModbusTcpRequest.deserialize s = .ok b) ↔ a.pdu.Filled ∧ a.Measured)) ∧
    (∀ a : ModbusTcpResponse, a.pdu.cls ∈ registry → ¬ a.pdu.cls.isRequest → a.violations = [] →
      a.serialize = .ok s →
      ((a.pdu.cls.SelfConsistent (s.drop ModbusHeader.size) ∧ TcpAdu.LengthAgrees s ∧
        ∃ b, ModbusTcpResponse.deserialize s = .ok b) ↔ a.pdu.Filled ∧ a.Measured)) ∧
    (∀ a a' : ModbusRtuRequest, a.pdu.cls ∈ registry → a.pdu.cls.isRequest → a.violations = [] →
      a.serialize = .ok (s, a') →
      ((a.pdu.cls.SelfConsistent ((payload s).drop 1) ∧
        ∃ b, ModbusRtuRequest.deserialize s = .ok b) ↔ a.pdu.Filled)) ∧
    (∀ a a' : ModbusRtuResponse, a.pdu.cls ∈ registry → ¬ a.pdu.cls.isRequest →
      a.violations = [] → a.serialize = .ok (s, a') →
      ((a.pdu.cls.SelfConsistent ((payload s).drop 1) ∧
        ∃ b, ModbusRtuResponse.deserialize s = .ok b) ↔ a.pdu.Filled)) := by
  have hreq (p : Pdu) (hm : p.cls ∈ registry) (hr : p.cls.isRequest) :
      FrameKind.request.Readable p := .inl ⟨hm, hr⟩
  have hrsp (p : Pdu) (hm : p.cls ∈ registry) (hr : ¬ p.cls.isRequest) :
      FrameKind.response.Readable p := .inl ⟨hm, hr⟩
  refine ⟨fun p _ hv hs => ?_, fun a hm hr hv hs => ?_,
    fun a hm hr hv hs => TcpAdu.consistent_iff (hrsp _ hm hr) hv hs,
    fun a a' hm hr hv hs => RtuAdu.consistent_iff (hreq _ hm hr) hv hs,
    fun a a' hm hr hv hs => RtuAdu.consistent_iff (hrsp _ hm hr) hv hs⟩
  · rw [Pdu.selfConsistent_iff hv hs]
    exact ⟨fun h => h.1, fun h => ⟨h, p, Pdu.deserialize_serialize hs⟩⟩
  · rw [← TcpAdu.consistent_iff (hreq _ hm hr) hv hs]
    simp only [TcpAdu.request_deserialize_eq_ok]

/-- A write of eight coils that carries its one byte and the answer to a read of one
register are sound, bare and in their frames. -/
theorem violations_sound_filled :
    (∃ q, PduClass.modbusRequestFC15.deserialize [0x0F, 0, 0, 0, 8, 1, 0xCD] = .ok q) ∧
    (∃ b, ModbusTcpRequest.deserialize [0, 1, 0, 0, 0, 8, 1, 0x0F, 0, 0, 0, 8, 1, 0xCD] = .ok b) ∧
    (∃ b, ModbusTcpResponse.deserialize [0, 1, 0, 0, 0, 5, 1, 3, 2, 0xAE, 0x41] = .ok b) ∧
    (∃ b, ModbusRtuRequest.deserialize [1, 0x0F, 0, 0, 0, 8, 1, 0xCD, 0x3F, 0x00] = .ok b) ∧
    ∃ b, ModbusRtuResponse.deserialize [1, 3, 2, 0xAE, 0x41, 0x04, 0x14] = .ok b :=
  ⟨((violations_sound_iff [0x0F, 0, 0, 0, 8, 1, 0xCD]).1 (.modbusRequestFC15 0 8 1 [0xCD])
      (by decide) (by decide) (by decide)).mpr (by decide) |>.2,
    ((violations_sound_iff [0, 1, 0, 0, 0, 8, 1, 0x0F, 0, 0, 0, 8, 1, 0xCD]).2.1
      ⟨⟨1, 0, 8, 1⟩, .modbusRequestFC15 0 8 1 [0xCD]⟩ (by decide) (by decide) (by decide)
      (by decide)).mpr ⟨by decide, 7, by decide, by decide⟩ |>.2.2,
    ((violations_sound_iff [0, 1, 0, 0, 0, 5, 1, 3, 2, 0xAE, 0x41]).2.2.1
      ⟨⟨1, 0, 5, 1⟩, .modbusResponseFC3 2 [0xAE41]⟩ (by decide) (by decide) (by decide)
      (by decide)).mpr ⟨by decide, 4, by decide, by decide⟩ |>.2.2,
    ((violations_sound_iff [1, 0x0F, 0, 0, 0, 8, 1, 0xCD, 0x3F, 0x00]).2.2.2.1
      ⟨1, .modbusRequestFC15 0 8 1 [0xCD], 0xFFFF⟩ ⟨1, .modbusRequestFC15 0 8 1 [0xCD], 63⟩
      (by decide) (by decide) (by decide) (by decide +kernel)).mpr (by decide) |>.2,
    ((violations_sound_iff [1, 3, 2, 0xAE, 0x41, 0x04, 0x14]).2.2.2.2
      ⟨1, .modbusResponseFC3 2 [0xAE41], 0xFFFF⟩ ⟨1, .modbusResponseFC3 2 [0xAE41], 5124⟩
      (by decide) (by decide) (by decide) (by decide +kernel)).mpr (by decide) |>.2⟩

/-- None of these packets reports a finding. The first declares one byte of coils and
carries none, the second states a size of five bytes and has seven, and the header of
the third counts nothing. -/
theorem violations_sound_unfilled :
    ((Pdu.modbusRequestFC15 0 8 1 []).violations = [] ∧
      (Pdu.modbusRequestFC15 0 8 1 []).serialize = .ok [0x0F, 0, 0, 0, 8, 1] ∧
      ¬ PduClass.CountsPayload .modbusRequestFC15 [0x0F, 0, 0, 0, 8, 1]) ∧
    ((Pdu.modbusRequestFC8 1 [1, 2]).violations = [] ∧
      (Pdu.modbusRequestFC8 1 [1, 2]).serialize = .ok [8, 0, 1, 0, 1, 0, 2] ∧
      PduClass.expectedSize .modbusRequestFC8 [8, 0, 1, 0, 1, 0, 2] = .ok (some 5)) ∧
    ((⟨⟨1, 0, 0, 1⟩, .modbusRequestFC7⟩ : ModbusTcpRequest).violations = [] ∧
      (⟨⟨1, 0, 0, 1⟩, .modbusRequestFC7⟩ : ModbusTcpRequest).serialize =
        .ok [0, 1, 0, 0, 0, 0, 1, 7] ∧
      ∀ b, ModbusTcpRequest.deserialize [0, 1, 0, 0, 0, 0, 1, 7] ≠ .ok b) := by
  refine ⟨by decide, by decide, by decide, by decide, fun b hb => ?_⟩
  obtain ⟨e, he⟩ : ∃ e, ModbusTcpRequest.deserialize [0, 1, 0, 0, 0, 0, 1, 7] = .error e :=
    ⟨_, rfl⟩
  rw [he] at hb
  cases hb

end Pyomb
