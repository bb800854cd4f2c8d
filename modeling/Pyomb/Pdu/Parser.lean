import Pyomb.Pdu.Packet

/-! The PDU parser: the default registry and the two dispatches over it. A response
is registered under its function code plus `0x8000`, and a function code of `0x80` or
more names an exception response whatever the registry holds. -/

namespace Pyomb

/-- The classes the library registers on import. The error PDU is not one of them. -/
def registry : List PduClass :=
  [.modbusRequestFC1, .modbusResponseFC1, .modbusRequestFC2, .modbusResponseFC2,
    .modbusRequestFC5, .modbusResponseFC5, .modbusRequestFC15, .modbusResponseFC15,
    .modbusRequestFC7, .modbusResponseFC7, .modbusRequestFC8, .modbusResponseFC8,
    .modbusRequestFC43, .modbusResponseFC43,
    .modbusRequestFC3, .modbusResponseFC3, .modbusRequestFC4, .modbusResponseFC4,
    .modbusRequestFC6, .modbusResponseFC6, .modbusRequestFC16, .modbusResponseFC16,
    .modbusRequestFC22, .modbusResponseFC22, .modbusRequestFC23, .modbusResponseFC23]

def registryGet (pduId : ℕ) : PduClass :=
  (registry.find? fun c => c.layout.pduId = pduId).getD .modbusPdu

namespace ModbusPduParser

def parseRequest (stream : Bytes) : Except PacketError Pdu :=
  match stream with
  | [] => .error (.ofStruct "Error parsing the Modbus Request: " (.bufferSize 1 0))
  | funcCode :: _ => (registryGet funcCode.toNat).deserialize stream

/-- `parse_response`. An exception response is decoded inside the `try`, where its
error is wrapped, and a second time by the closing `deserialize`. -/
def parseResponse (stream : Bytes) : Except PacketError Pdu :=
  match stream with
  | [] => .error (.ofStruct "Error parsing the Modbus Response: " (.bufferSize 1 0))
  | funcCode :: _ =>
    if 0x80 ≤ funcCode.toNat then
      match PduClass.modbusError.deserialize stream with
      | .error e => .error (.under "Error parsing the Modbus Response: " e)
      | .ok pdu => pdu.cls.deserialize stream
    else (registryGet (funcCode.toNat + 0x8000)).deserialize stream

end ModbusPduParser

def PduClass.isRequest (c : PduClass) : Prop := c.layout.pduId < 0x8000

instance (c : PduClass) : Decidable c.isRequest := inferInstanceAs (Decidable (_ < _))

/-! ### The registry -/

/-- No two registered classes share an identifier. -/
theorem registryGet_pduId : ∀ c ∈ registry, registryGet c.layout.pduId = c := by decide

/-- A request is registered under its own function code. -/
theorem pduId_of_isRequest : ∀ c ∈ registry, c.isRequest → c.layout.pduId = c.layout.fc := by
  decide

/-- A response is registered under its function code plus `0x8000`. -/
theorem pduId_of_not_isRequest :
    ∀ c ∈ registry, ¬ c.isRequest → c.layout.pduId = c.layout.fc + 0x8000 := by decide

theorem fc_lt_of_mem_registry : ∀ c ∈ registry, c.layout.fc < 0x80 := by decide

theorem registryGet_mem {pduId : ℕ} (h : registryGet pduId ≠ .modbusPdu) :
    registryGet pduId ∈ registry ∧ (registryGet pduId).layout.pduId = pduId := by
  unfold registryGet at h ⊢
  cases hf : registry.find? fun c => c.layout.pduId = pduId with
  | none => simp [hf] at h
  | some c =>
    exact ⟨List.mem_of_find?_eq_some hf, by simpa using List.find?_some hf⟩

theorem registryGet_eq_modbusPdu {pduId : ℕ} (h : ∀ c ∈ registry, c.layout.pduId ≠ pduId) :
    registryGet pduId = .modbusPdu := by
  have hnone : (registry.find? fun c => c.layout.pduId = pduId) = none := by
    simpa [List.find?_eq_none] using h
  simp [registryGet, hnone]

theorem registryGet_request {n : ℕ} (hn : n < 0x8000) (h : registryGet n ≠ .modbusPdu) :
    (registryGet n).isRequest ∧ (registryGet n).layout.fc = n := by
  obtain ⟨hm, hid⟩ := registryGet_mem h
  have hr : (registryGet n).isRequest := by unfold PduClass.isRequest; omega
  exact ⟨hr, by rw [← pduId_of_isRequest _ hm hr, hid]⟩

theorem registryGet_response {n : ℕ} (h : registryGet (n + 0x8000) ≠ .modbusPdu) :
    ¬ (registryGet (n + 0x8000)).isRequest ∧ (registryGet (n + 0x8000)).layout.fc = n := by
  obtain ⟨hm, hid⟩ := registryGet_mem h
  have hr : ¬ (registryGet (n + 0x8000)).isRequest := by unfold PduClass.isRequest; omega
  have := pduId_of_not_isRequest _ hm hr
  exact ⟨hr, by omega⟩

end Pyomb
