import Mathlib.Data.List.GetD
import Pyomb.Adu.Tcp

/-! How the TCP request splits its failures. Where the header is whole and its length field
agrees with the bytes received, the boundary of the frame is known, and a PDU that is no
encoding of the class its function code names fails with the header and that function code
beside it. Everything short of that fails with neither. -/

namespace Pyomb

/-- The bytes that some object of a class serializes to. -/
def PduClass.Encodes (c : PduClass) (s : Bytes) : Prop := ∃ p : Pdu, p.cls = c ∧ p.serialize = .ok s

/-- The request dispatch accepts the encodings of the class it names, and no other bytes. -/
theorem ModbusPduParser.parseRequest_iff {b : UInt8} {rest : Bytes} :
    (∃ p, parseRequest (b :: rest) = .ok p) ↔ (registryGet b.toNat).Encodes (b :: rest) := by
  constructor
  · rintro ⟨p, hp⟩
    exact ⟨p, (parseRequest_cls hp).1, serialize_parseRequest hp⟩
  · rintro ⟨p, hc, hp⟩
    have hd := Pdu.deserialize_serialize hp
    rw [hc] at hd
    exact ⟨p, hd⟩

/-- Bytes enough for a header and a function code, and as many as the length field says. -/
def Framed (s : Bytes) : Prop := 8 ≤ s.length ∧ (mbapLength s : ℤ) = s.length - 6

theorem TcpAdu.readHeader_iff {s : Bytes} {h : ModbusHeader} : readHeader s = .ok h ↔
    h.serialize = .ok (s.take 7) ∧ 7 ≤ s.length ∧ (mbapLength s : ℤ) = s.length - 6 := by
  have hfield := mbapLength_take_size s
  have hsize := ModbusHeader.size_eq
  rw [readHeader_eq_ok]
  constructor
  · rintro ⟨hd, hlen⟩
    have hl := ModbusHeader.exists_deserialize.mp ⟨h, hd⟩
    have hh := length_of_deserialize hd
    rw [List.length_take] at hl
    exact ⟨ModbusHeader.serialize_deserialize hd, by omega, by omega⟩
  · rintro ⟨hs, hl, hlen⟩
    have hd := ModbusHeader.deserialize_serialize hs
    have hh := length_of_deserialize hd
    rw [← hsize] at hd hh
    exact ⟨hd, by omega⟩

theorem drop_of_framed {s : Bytes} (h : Framed s) : ∃ rest, s.drop 7 = s.getD 7 0 :: rest := by
  obtain ⟨hl, -⟩ := h
  refine ⟨s.drop 8, ?_⟩
  rw [List.getD_eq_getElem _ _ (by omega), List.drop_eq_getElem_cons (by omega)]

namespace ModbusTcpRequest

variable {s : Bytes}

theorem deserialize_unframed (h : ¬ Framed s) : ∃ e, deserialize s = .error (.packet e) := by
  unfold deserialize
  cases hh : TcpAdu.readHeader s with
  | error e => exact ⟨_, rfl⟩
  | ok header =>
    obtain ⟨-, hl, hlen⟩ := TcpAdu.readHeader_iff.mp hh
    have hnil : s.drop ModbusHeader.size = [] := by
      refine List.drop_eq_nil_of_le ?_
      by_contra hlt
      exact h ⟨by rw [ModbusHeader.size_eq] at hlt; omega, hlen⟩
    rw [hnil]
    exact ⟨_, rfl⟩

theorem deserialize_framed (h : Framed s) :
    ∃ header, header.serialize = .ok (s.take 7) ∧
      ((∃ pdu, ModbusPduParser.parseRequest (s.drop 7) = .ok pdu ∧
        deserialize s = .ok ⟨header, pdu⟩) ∨
      ((¬ ∃ pdu, ModbusPduParser.parseRequest (s.drop 7) = .ok pdu) ∧
        ∃ e, deserialize s = .error (.pduParse e header (s.getD 7 0).toNat))) := by
  obtain ⟨rest, hrest⟩ := drop_of_framed h
  have htake : (s.take 7).length = ModbusHeader.size := by
    rw [List.length_take, ModbusHeader.size_eq]
    exact min_eq_left (by have := h.1; omega)
  obtain ⟨header, hd⟩ := ModbusHeader.exists_deserialize.mpr htake
  have hs := ModbusHeader.serialize_deserialize hd
  have hh := TcpAdu.readHeader_iff.mpr ⟨hs, by have := h.1; omega, h.2⟩
  refine ⟨header, hs, ?_⟩
  rw [hrest]
  cases hp : ModbusPduParser.parseRequest (s.getD 7 0 :: rest) with
  | ok pdu =>
    refine .inl ⟨pdu, rfl, ?_⟩
    simp only [deserialize, hh, tryUnder, Except.mapError, ModbusHeader.size_eq, hrest, hp]
  | error e =>
    refine .inr ⟨?_, ?_⟩
    · rintro ⟨pdu, hpdu⟩
      cases hpdu
    · simp only [deserialize, hh, tryUnder, Except.mapError, ModbusHeader.size_eq, hrest, hp]
      exact ⟨_, rfl⟩

theorem deserialize_cases (s : Bytes) :
    (¬ Framed s ∧ ∃ e, deserialize s = .error (.packet e)) ∨
    (Framed s ∧ ∃ header, header.serialize = .ok (s.take 7) ∧
      ((∃ pdu, (registryGet (s.getD 7 0).toNat).Encodes (s.drop 7) ∧
        ModbusPduParser.parseRequest (s.drop 7) = .ok pdu ∧ deserialize s = .ok ⟨header, pdu⟩) ∨
      (¬ (registryGet (s.getD 7 0).toNat).Encodes (s.drop 7) ∧
        ∃ e, deserialize s = .error (.pduParse e header (s.getD 7 0).toNat)))) := by
  by_cases h : Framed s
  · obtain ⟨rest, hrest⟩ := drop_of_framed h
    have hparse : (∃ p, ModbusPduParser.parseRequest (s.drop 7) = .ok p) ↔
        (registryGet (s.getD 7 0).toNat).Encodes (s.drop 7) := by
      rw [hrest]
      exact ModbusPduParser.parseRequest_iff
    obtain ⟨header, hs, ⟨pdu, hp, hok⟩ | ⟨hno, he⟩⟩ := deserialize_framed h
    · exact .inr ⟨h, header, hs, .inl ⟨pdu, hparse.mp ⟨pdu, hp⟩, hp, hok⟩⟩
    · exact .inr ⟨h, header, hs, .inr ⟨fun henc => hno (hparse.mpr henc), he⟩⟩
  · exact .inl ⟨h, deserialize_unframed h⟩

theorem header_unique {h h' : ModbusHeader} (hs : h.serialize = .ok (s.take 7))
    (hs' : h'.serialize = .ok (s.take 7)) : h = h' :=
  Except.ok.inj ((ModbusHeader.deserialize_serialize hs).symm.trans
    (ModbusHeader.deserialize_serialize hs'))

theorem deserialize_packet_iff :
    (∃ e, deserialize s = .error (.packet e)) ↔ ¬ Framed s := by
  rcases deserialize_cases s with ⟨h, he⟩ | ⟨h, header, -, ⟨pdu, -, -, hok⟩ | ⟨-, e, he⟩⟩
  · exact iff_of_true he h
  · rw [hok]
    exact iff_of_false (by simp) (not_not.mpr h)
  · rw [he]
    exact iff_of_false (by simp) (not_not.mpr h)

theorem deserialize_pduParse_iff {header : ModbusHeader} {fc : ℕ} :
    (∃ e, deserialize s = .error (.pduParse e header fc)) ↔
      Framed s ∧ ¬ (registryGet (s.getD 7 0).toNat).Encodes (s.drop 7) ∧
        header.serialize = .ok (s.take 7) ∧ fc = (s.getD 7 0).toNat := by
  rcases deserialize_cases s with ⟨h, e, he⟩ | ⟨h, header', hs, ⟨pdu, henc, -, hok⟩ |
    ⟨hno, e, he⟩⟩
  · rw [he]
    exact iff_of_false (by simp) fun hf => h hf.1
  · rw [hok]
    exact iff_of_false (by simp) fun hf => hf.2.1 henc
  · rw [he]
    constructor
    · rintro ⟨e', he'⟩
      obtain ⟨-, rfl, rfl⟩ := RequestError.pduParse.inj (Except.error.inj he')
      exact ⟨h, hno, hs, rfl⟩
    · rintro ⟨-, -, hs', rfl⟩
      exact ⟨e, by rw [header_unique hs hs']⟩

theorem deserialize_ok_iff {a : ModbusTcpRequest} :
    deserialize s = .ok a ↔ Framed s ∧ (registryGet (s.getD 7 0).toNat).Encodes (s.drop 7) ∧
      a.header.serialize = .ok (s.take 7) ∧
      ModbusPduParser.parseRequest (s.drop 7) = .ok a.pdu := by
  rcases deserialize_cases s with ⟨h, e, he⟩ | ⟨h, header, hs, ⟨pdu, henc, hp, hok⟩ |
    ⟨hno, e, he⟩⟩
  · rw [he]
    exact iff_of_false (by simp) fun hf => h hf.1
  · rw [hok]
    constructor
    · intro ha
      obtain rfl := Except.ok.inj ha
      exact ⟨h, henc, hs, hp⟩
    · rintro ⟨-, -, hs', hp'⟩
      rw [header_unique hs hs', Except.ok.inj (hp.symm.trans hp')]
  · rw [he]
    exact iff_of_false (by simp) fun hf => hno hf.2.1

/-- The split of a request's failures. `deserialize` raises a plain error exactly where the
frame is not whole; otherwise, where what is behind the header encodes nothing of the class
its function code names, an error with that header and function code; and otherwise it
returns that header and what the request dispatch reads. -/
theorem deserialize_split (s : Bytes) :
    ((∃ e, deserialize s = .error (.packet e)) ↔
      s.length < 8 ∨ (mbapLength s : ℤ) ≠ s.length - 6) ∧
    (∀ header fc, (∃ e, deserialize s = .error (.pduParse e header fc)) ↔
      ¬ (s.length < 8 ∨ (mbapLength s : ℤ) ≠ s.length - 6) ∧
        ¬ (registryGet (s.getD 7 0).toNat).Encodes (s.drop 7) ∧
        header.serialize = .ok (s.take 7) ∧ fc = (s.getD 7 0).toNat) ∧
    (∀ a, deserialize s = .ok a ↔
      ¬ (s.length < 8 ∨ (mbapLength s : ℤ) ≠ s.length - 6) ∧
        (registryGet (s.getD 7 0).toNat).Encodes (s.drop 7) ∧
        a.header.serialize = .ok (s.take 7) ∧
        ModbusPduParser.parseRequest (s.drop 7) = .ok a.pdu) := by
  have hsplit : (s.length < 8 ∨ (mbapLength s : ℤ) ≠ s.length - 6) ↔ ¬ Framed s := by
    rw [Framed, not_and_or, Nat.not_le]
  rw [hsplit, not_not]
  exact ⟨deserialize_packet_iff, fun _ _ => deserialize_pduParse_iff, fun _ => deserialize_ok_iff⟩

end ModbusTcpRequest

end Pyomb
