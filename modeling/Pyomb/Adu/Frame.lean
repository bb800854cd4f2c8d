import Pyomb.Pdu.RoundTrip

/-! What the six frame classes share: the direction a frame is read in, which
decides the parser its PDU goes through, and the order in which a failure inside a
`try` block is rendered under the class's own text. -/

namespace Pyomb

/-- Requests, responses, and the direction-free packets sniffers and gateways use. -/
inductive FrameKind where
  | request | response | packet
  deriving DecidableEq, Repr

namespace FrameKind

/-- The reader of the frame's PDU. A packet's is not interpreted. -/
def parse : FrameKind → Bytes → Except PacketError Pdu
  | request => ModbusPduParser.parseRequest
  | response => ModbusPduParser.parseResponse
  | packet => PduClass.modbusPdu.deserialize

/-- The objects that the reader decodes to themselves. -/
def Readable : FrameKind → Pdu → Prop
  | request => ModbusPduParser.RequestObject
  | response => ModbusPduParser.ResponseObject
  | packet => fun p => p.cls = .modbusPdu

/-- The PDU bytes a reader accepts and the object it makes of them does not write back. -/
def Lies : FrameKind → Bytes → Prop
  | response => ModbusPduParser.BitCountLies
  | _ => fun _ => False

theorem parse_serialize {k : FrameKind} {p : Pdu} (hp : k.Readable p) {s : Bytes}
    (h : p.serialize = .ok s) : k.parse s = .ok p := by
  cases k with
  | request => exact ModbusPduParser.parseRequest_serialize hp h
  | response => exact ModbusPduParser.parseResponse_serialize hp h
  | packet =>
    have hc : p.cls = .modbusPdu := hp
    simpa only [parse, hc] using Pdu.deserialize_serialize h

theorem serialize_parse {k : FrameKind} {s : Bytes} {p : Pdu} (h : k.parse s = .ok p) :
    p.serialize = .ok s ↔ ¬ k.Lies s := by
  cases k with
  | request => simpa [Lies] using ModbusPduParser.serialize_parseRequest h
  | response => exact ModbusPduParser.serialize_parseResponse h
  | packet =>
    have hc := PduClass.cls_of_deserialize h
    obtain ⟨b, rest, rfl, -⟩ := PduClass.unpack_of_deserialize h
    simpa [Lies] using (PduClass.serialize_of_deserialize h
      (ModbusPduParser.wireFc_of_deserialize h (.inr (.inl rfl)))).mpr
      (p.serializeCount_eq (by rw [hc]; decide) (by rw [hc]; decide))

theorem ne_nil_of_parse {k : FrameKind} {s : Bytes} {p : Pdu} (h : k.parse s = .ok p) :
    s ≠ [] := by
  rintro rfl
  cases k with
  | request => simp [parse, ModbusPduParser.parseRequest] at h
  | response => simp [parse, ModbusPduParser.parseResponse] at h
  | packet =>
    have hd : PduClass.modbusPdu.deserialize [] = .ok p := h
    obtain ⟨b, rest, hs, -⟩ := PduClass.unpack_of_deserialize hd
    cases hs

end FrameKind

theorem Pdu.len_of_serialize {p : Pdu} {s : Bytes} (h : p.serialize = .ok s) :
    p.len = .ok s.length := by
  have hp := serialize_eq_ok.mp h
  obtain ⟨fmt, hf, hs⟩ := Struct.Template.pack_eq_ok.mp hp
  have hcount : p.lenCount = p.serializeCount := by cases p <;> rfl
  rw [len, hcount, hf]
  exact congrArg Except.ok (Struct.pack_length hs).symm

end Pyomb
