import Pyomb.Simulators.Client
import Pyomb.Simulators.Server
import Pyomb.Transport.Burst

/-! The length a frame declares. `len` and `serialize` are written apart in each PDU class,
and the client, the server and the sender put what the one says into the header of what the
other writes. -/

namespace Pyomb

/-- The header of a message is its own, and both measures taken by it are the message's. -/
def Measured (message : Bytes) : Prop :=
  (∃ header, ModbusHeader.deserialize (message.take headerSize) = .ok header ∧
    validateMbapLength header message = .ok ()) ∧
  ModbusFragmenter.getMessageLength message = .ok message.length

theorem measured_of_serialize {k : FrameKind} {a : TcpAdu k} {n : ℕ} {message : Bytes}
    (hn : a.pdu.len = .ok n) (hlength : a.header.length = n + 1)
    (h : a.serialize = .ok message) : Measured message := by
  obtain ⟨hb, p, hh, hp, rfl⟩ := TcpAdu.serialize_eq_ok.mp h
  obtain rfl : p.length = n := Except.ok.inj ((Pdu.len_of_serialize hp).symm.trans hn)
  have hl := ModbusHeader.serialize_length hh
  have hd := ModbusHeader.deserialize_serialize hh
  have htake : (hb ++ p).take headerSize = hb := List.take_left' hl
  have hsum : ((hb ++ p).length : ℤ) = ModbusHeader.size + a.header.length - 1 := by
    rw [List.length_append, hlength, hl]
    push_cast
    ring
  refine ⟨⟨a.header, by rw [htake, hd], validateMbapLength_eq_ok.mpr hsum⟩, ?_⟩
  rw [ModbusFragmenter.getMessageLength, htake, hd, hsum]
  rfl

/-- A PDU that serializes is as long as it says, so whatever header declares that length is
measured right, and so are the frames that the client, the server and the sender build. -/
theorem declared_length {p : Pdu} {bytes : Bytes} (hp : p.serialize = .ok bytes) :
    p.len = .ok bytes.length ∧
    ∀ n : ℕ, p.len = .ok n →
      (∀ (k : FrameKind) (header : ModbusHeader) (message : Bytes), header.length = n + 1 →
        (⟨header, p⟩ : TcpAdu k).serialize = .ok message → Measured message) ∧
      (∀ (c : ModbusClientSimulator) (unitId : ℤ) (message : Bytes),
        (⟨⟨c.takeTransId.1, 0, n + 1, unitId⟩, p⟩ : ModbusTcpRequest).serialize = .ok message →
        Measured message) ∧
      (∀ (requestHeader : ModbusHeader) (message : Bytes),
        (ModbusServerSimulator.responseTo requestHeader n p).serialize = .ok message →
        Measured message) ∧
      ∀ (header : ModbusHeader) (packet : ModbusTcpPacket) (message : Bytes),
        TcpAdu.rewriteLength ⟨header, p⟩ = .ok packet → packet.serialize = .ok message →
        Measured message := by
  refine ⟨Pdu.len_of_serialize hp, fun n hn => ⟨?_, ?_, ?_, ?_⟩⟩
  · exact fun k header message hlength h => measured_of_serialize hn hlength h
  · exact fun c unitId message h => measured_of_serialize hn rfl h
  · exact fun requestHeader message h => measured_of_serialize hn rfl h
  · intro header packet message hrewrite h
    rw [TcpAdu.rewriteLength, hn] at hrewrite
    obtain rfl := Except.ok.inj hrewrite
    exact measured_of_serialize hn rfl h

theorem declared_length_bits : Measured [0, 1, 0, 0, 0, 6, 1, 1, 3, 7, 8, 9] :=
  ((declared_length (p := .modbusResponseFC1 3 [7, 8, 9])
    (show Pdu.serialize _ = .ok [1, 3, 7, 8, 9] by decide)).2 5 (by decide)).1
    .response ⟨1, 0, 6, 1⟩ _ rfl (by decide)

end Pyomb
