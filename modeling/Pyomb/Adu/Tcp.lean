import Pyomb.Adu.Frame

/-! The TCP frame classes: the MBAP header, the check of its length field against
the bytes received, and the three frames that carry it. The request alone splits its
failures by what survives them. -/

namespace Pyomb

/-- The MBAP header. -/
structure ModbusHeader where
  transId : ℤ := 0
  protId : ℤ := 0
  length : ℤ := 0
  unitId : ℤ := 0
  deriving DecidableEq, Repr

namespace ModbusHeader

def headerFmt : List Struct.Code := [.H, .H, .H, .B]

/-- `ModbusHeader.SIZE`. -/
def size : ℕ := Struct.calcsize headerFmt

def serialize (h : ModbusHeader) : Except PacketError Bytes :=
  (Struct.pack headerFmt [h.transId, h.protId, h.length, h.unitId]).mapError
    (.ofStruct "Error serializing the Modbus Header: ")

def deserialize (stream : Bytes) : Except PacketError ModbusHeader :=
  match Struct.unpack headerFmt stream with
  | .error e => .error (.ofStruct "Error deserializing the Modbus Header: " e)
  | .ok header =>
    .ok ⟨header.getD 0 0, header.getD 1 0, header.getD 2 0, header.getD 3 0⟩

theorem size_eq : size = 7 := rfl

theorem serialize_eq_ok {h : ModbusHeader} {s : Bytes} : h.serialize = .ok s ↔
    Struct.pack headerFmt [h.transId, h.protId, h.length, h.unitId] = .ok s := mapError_eq_ok

theorem deserialize_eq_ok {s : Bytes} {h : ModbusHeader} : deserialize s = .ok h ↔
    Struct.unpack headerFmt s = .ok [h.transId, h.protId, h.length, h.unitId] := by
  unfold deserialize
  cases hu : Struct.unpack headerFmt s with
  | error e => simp
  | ok vs =>
    obtain ⟨a, b, c, d, rfl⟩ : ∃ a b c d, vs = [a, b, c, d] := by
      have := Struct.unpack_length hu
      rcases vs with _ | ⟨a, _ | ⟨b, _ | ⟨c, _ | ⟨d, _ | _⟩⟩⟩⟩ <;> simp [headerFmt] at this
      exact ⟨a, b, c, d, rfl⟩
    obtain ⟨t, p, l, u⟩ := h
    simp

theorem deserialize_serialize {h : ModbusHeader} {s : Bytes} (hs : h.serialize = .ok s) :
    deserialize s = .ok h :=
  deserialize_eq_ok.mpr (Struct.unpack_pack (serialize_eq_ok.mp hs))

theorem serialize_deserialize {s : Bytes} {h : ModbusHeader} (hs : deserialize s = .ok h) :
    h.serialize = .ok s :=
  serialize_eq_ok.mpr (Struct.pack_unpack (deserialize_eq_ok.mp hs))

theorem serialize_length {h : ModbusHeader} {s : Bytes} (hs : h.serialize = .ok s) :
    s.length = size := Struct.pack_length (serialize_eq_ok.mp hs)

/-- Seven bytes always read as a header, and only seven do. -/
theorem exists_deserialize {s : Bytes} : (∃ h, deserialize s = .ok h) ↔ s.length = size := by
  refine ⟨fun ⟨h, hs⟩ => serialize_length (serialize_deserialize hs), fun hl => ?_⟩
  unfold deserialize
  rw [Struct.unpack_eq_ok.mpr ⟨hl, rfl⟩]
  exact ⟨_, rfl⟩

end ModbusHeader

/-- The big-endian length field at offset 4. -/
def mbapLength (s : Bytes) : ℕ := Struct.Code.H.decode ((s.drop 4).take 2)

/-- The length field lies inside the header. -/
theorem mbapLength_take_size (s : Bytes) :
    mbapLength (s.take ModbusHeader.size) = mbapLength s := by
  rw [mbapLength, ModbusHeader.size_eq, List.drop_take, List.take_take]
  rfl

theorem length_of_deserialize {s : Bytes} {h : ModbusHeader}
    (hd : ModbusHeader.deserialize s = .ok h) : h.length = mbapLength s := by
  obtain ⟨-, hv⟩ := Struct.unpack_eq_ok.mp (ModbusHeader.deserialize_eq_ok.mp hd)
  simp only [ModbusHeader.headerFmt, Struct.unpackItems, List.cons.injEq, List.drop_drop] at hv
  exact hv.2.2.1

/-- `validate_mbap_length`. -/
def validateMbapLength (header : ModbusHeader) (stream : Bytes) : Except PacketError Unit :=
  let expected : ℤ := ModbusHeader.size + header.length - 1
  if (stream.length : ℤ) ≠ expected then
    .error (.say ("MBAP length field declares " ++ toString header.length ++
      " byte(s) after the protocol identifier, implying an ADU of " ++ toString expected ++
      " byte(s), but " ++ toString stream.length ++ " byte(s) were received"))
  else .ok ()

theorem validateMbapLength_eq_ok {header : ModbusHeader} {stream : Bytes} {u : Unit} :
    validateMbapLength header stream = .ok u ↔
      (stream.length : ℤ) = ModbusHeader.size + header.length - 1 := by
  unfold validateMbapLength
  dsimp only
  split_ifs with h
  · simp [h]
  · simpa using h

/-- A TCP frame: `ModbusTcpRequest`, `ModbusTcpResponse` or `ModbusTcpPacket`. -/
structure TcpAdu (k : FrameKind) where
  header : ModbusHeader
  pdu : Pdu
  deriving DecidableEq, Repr

abbrev ModbusTcpRequest := TcpAdu .request
abbrev ModbusTcpResponse := TcpAdu .response
abbrev ModbusTcpPacket := TcpAdu .packet

/-- What `ModbusTcpRequest.deserialize` raises: a plain error, or a
`ModbusPduParseError` with the header and the function code that survived. -/
inductive RequestError where
  | packet (e : PacketError)
  | pduParse (e : PacketError) (header : ModbusHeader) (fc : ℕ)
  deriving DecidableEq, Repr

namespace TcpAdu

/-- The packet reuses the request's texts. -/
def pduText : FrameKind → String
  | .response => "TCP Response PDU: "
  | _ => "TCP Request PDU: "

/-- `serialize`. -/
def serialize {k : FrameKind} (a : TcpAdu k) : Except PacketError Bytes :=
  tryUnder ("Error serializing the " ++ pduText k) do
    let headerBytes ← a.header.serialize
    let pduBytes ← a.pdu.serialize
    return headerBytes ++ pduBytes

/-- The header of a frame, where its length field agrees with the bytes received. -/
def readHeader (stream : Bytes) : Except PacketError ModbusHeader := do
  let header ← ModbusHeader.deserialize (stream.take ModbusHeader.size)
  validateMbapLength header stream
  return header

/-- `deserialize` of the packet and the response, one `try` block around it all. -/
def deserialize (k : FrameKind) (stream : Bytes) : Except PacketError (TcpAdu k) :=
  tryUnder ("Error deserializing the " ++ pduText k) do
    let header ← readHeader stream
    let pdu ← k.parse (stream.drop ModbusHeader.size)
    return ⟨header, pdu⟩

end TcpAdu

/-- `ModbusTcpRequest.deserialize`. An empty PDU names no function code to report. -/
def ModbusTcpRequest.deserialize (stream : Bytes) : Except RequestError ModbusTcpRequest :=
  match tryUnder "Error deserializing the TCP Request header: " (TcpAdu.readHeader stream) with
  | .error e => .error (.packet e)
  | .ok header =>
    let pduBytes := stream.drop ModbusHeader.size
    match tryUnder "Error deserializing the TCP Request PDU: "
        (ModbusPduParser.parseRequest pduBytes) with
    | .ok pdu => .ok ⟨header, pdu⟩
    | .error e =>
      match pduBytes with
      | [] => .error (.packet e)
      | fc :: _ => .error (.pduParse e header fc.toNat)

def ModbusTcpResponse.deserialize : Bytes → Except PacketError ModbusTcpResponse :=
  TcpAdu.deserialize .response

def ModbusTcpPacket.deserialize : Bytes → Except PacketError ModbusTcpPacket :=
  TcpAdu.deserialize .packet

namespace TcpAdu

variable {k : FrameKind}

theorem serialize_eq_ok {a : TcpAdu k} {s : Bytes} : a.serialize = .ok s ↔
    ∃ h p, a.header.serialize = .ok h ∧ a.pdu.serialize = .ok p ∧ s = h ++ p := by
  simp only [serialize, tryUnder_eq_ok, bind_eq_ok, pure, Except.pure, Except.ok.injEq]
  constructor
  · rintro ⟨h, hh, p, hp, rfl⟩; exact ⟨h, p, hh, hp, rfl⟩
  · rintro ⟨h, p, hh, hp, rfl⟩; exact ⟨h, hh, p, hp, rfl⟩

theorem readHeader_eq_ok {s : Bytes} {h : ModbusHeader} : readHeader s = .ok h ↔
    ModbusHeader.deserialize (s.take ModbusHeader.size) = .ok h ∧
      (s.length : ℤ) = ModbusHeader.size + h.length - 1 := by
  simp only [readHeader, bind_eq_ok, pure, Except.pure, Except.ok.injEq]
  constructor
  · rintro ⟨h', hd, u, hv, rfl⟩; exact ⟨hd, validateMbapLength_eq_ok.mp hv⟩
  · rintro ⟨hd, hl⟩; exact ⟨h, hd, (), validateMbapLength_eq_ok.mpr hl, rfl⟩

theorem deserialize_eq_ok {s : Bytes} {a : TcpAdu k} : deserialize k s = .ok a ↔
    readHeader s = .ok a.header ∧ k.parse (s.drop ModbusHeader.size) = .ok a.pdu := by
  simp only [deserialize, tryUnder_eq_ok, bind_eq_ok, pure, Except.pure, Except.ok.injEq]
  constructor
  · rintro ⟨h, hh, p, hp, rfl⟩; exact ⟨hh, hp⟩
  · rintro ⟨hh, hp⟩; exact ⟨_, hh, _, hp, rfl⟩

/-- A request is accepted as the other two frames are; only its failures differ. -/
theorem request_deserialize_eq_ok {s : Bytes} {a : ModbusTcpRequest} :
    ModbusTcpRequest.deserialize s = .ok a ↔ deserialize .request s = .ok a := by
  rw [deserialize_eq_ok]
  unfold ModbusTcpRequest.deserialize
  cases hh : readHeader s with
  | error e => simp [tryUnder, Except.mapError]
  | ok header =>
    cases hp : ModbusPduParser.parseRequest (s.drop ModbusHeader.size) with
    | ok pdu =>
      obtain ⟨h, p⟩ := a
      simp [tryUnder, Except.mapError, FrameKind.parse, hp]
    | error e =>
      simp only [tryUnder, Except.mapError, FrameKind.parse, hp]
      cases s.drop ModbusHeader.size <;> simp

/-- A frame that serializes under a truthful length field is read back as itself. -/
theorem deserialize_serialize {a : TcpAdu k} (hk : k.Readable a.pdu) {h p : Bytes}
    (hh : a.header.serialize = .ok h) (hp : a.pdu.serialize = .ok p)
    (hlen : a.header.length = p.length + 1) : deserialize k (h ++ p) = .ok a := by
  have hl := ModbusHeader.serialize_length hh
  refine deserialize_eq_ok.mpr ⟨readHeader_eq_ok.mpr ⟨?_, ?_⟩, ?_⟩
  · rw [List.take_left' hl]; exact ModbusHeader.deserialize_serialize hh
  · rw [List.length_append, hlen, hl]; push_cast; ring
  · rw [List.drop_left' hl]; exact FrameKind.parse_serialize hk hp

/-- An accepted frame is written back as it arrived, exactly where its PDU is. -/
theorem serialize_deserialize {s : Bytes} {a : TcpAdu k} (h : deserialize k s = .ok a) :
    a.serialize = .ok s ↔ ¬ k.Lies (s.drop ModbusHeader.size) := by
  obtain ⟨hr, hp⟩ := deserialize_eq_ok.mp h
  have hh := ModbusHeader.serialize_deserialize (readHeader_eq_ok.mp hr).1
  rw [← FrameKind.serialize_parse hp, serialize_eq_ok]
  constructor
  · rintro ⟨h', p, hh', hp', hs⟩
    obtain rfl : s.take ModbusHeader.size = h' := Except.ok.inj (hh.symm.trans hh')
    have hcat : s.take ModbusHeader.size ++ s.drop ModbusHeader.size =
        s.take ModbusHeader.size ++ p := by rw [List.take_append_drop]; exact hs
    rw [List.append_cancel_left hcat]
    exact hp'
  · intro hp'
    exact ⟨_, _, hh, hp', (List.take_append_drop _ s).symm⟩

end TcpAdu

end Pyomb
