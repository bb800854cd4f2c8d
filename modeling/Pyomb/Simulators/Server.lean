import Pyomb.Transport.Fragmenter

/-! The server simulator's answer to a frame: the factory that builds a response for each
request class, the frame it goes out in, and the dispatch between them. The response of a
read is sized by the quantity asked for, and its count is one byte, so what the server can
answer is what fits that byte. -/

namespace Pyomb

namespace ResponseFactory

/-- `count * (value,)`. -/
def repeated (count value : ℤ) : List ℤ := List.replicate count.toNat value

def createFc1Rsp (quantity : ℤ) (coilValue : ℤ := 0xFF) : Pdu :=
  let byteCount := (quantity + 7) / 8
  .modbusResponseFC1 byteCount (repeated byteCount coilValue)

def createFc2Rsp (quantity : ℤ) (inputValue : ℤ := 0xFF) : Pdu :=
  let byteCount := (quantity + 7) / 8
  .modbusResponseFC2 byteCount (repeated byteCount inputValue)

def createFc3Rsp (quantity : ℤ) (registerValue : ℤ := 0xFFFF) : Pdu :=
  .modbusResponseFC3 (2 * quantity) (repeated quantity registerValue)

def createFc4Rsp (quantity : ℤ) (registerValue : ℤ := 0xFFFF) : Pdu :=
  .modbusResponseFC4 (2 * quantity) (repeated quantity registerValue)

def createFc5Rsp (outputAddress outputValue : ℤ) : Pdu :=
  .modbusResponseFC5 outputAddress outputValue

def createFc6Rsp (outputAddress outputValue : ℤ) : Pdu :=
  .modbusResponseFC6 outputAddress outputValue

def createFc7Rsp (statusCode : ℤ := 0x00) : Pdu := .modbusResponseFC7 statusCode

def createFc15Rsp (startAddr quantity : ℤ) : Pdu := .modbusResponseFC15 startAddr quantity

def createFc16Rsp (startAddr quantity : ℤ) : Pdu := .modbusResponseFC16 startAddr quantity

def createFc22Rsp (refAddr andMask orMask : ℤ) : Pdu :=
  .modbusResponseFC22 refAddr andMask orMask

def createFc23Rsp (readQuantity : ℤ) (value : ℤ := 0xFFFF) : Pdu :=
  .modbusResponseFC23 (2 * readQuantity) (repeated readQuantity value)

def createFc43Rsp (meiType : ℤ) (meiData : List ℤ) : Pdu := .modbusResponseFC43 meiType meiData

/-- `OMB_EXCEPTION_SLAVE_DEVICE_FAILURE`. -/
def slaveDeviceFailure : ℤ := 0x04

def createErrRsp (requestFc : ℤ) : Pdu := .modbusError requestFc slaveDeviceFailure

end ResponseFactory

/-- What a caller can set of the server's answers. The handler may use the connection and
raise; `false` from it fails the request. -/
structure ModbusServerSimulator (ε σ : Type) where
  fail : Bool := false
  dataHandler : Option (ModbusTcpRequest → σ → Except (Exc ε) Bool × σ) := none

namespace ModbusServerSimulator

variable {ε σ : Type}

/-- `OMB_EXCEPTION_ILLEGAL_DATA_VALUE`. -/
def illegalDataValue : ℤ := 0x03

/-- The response `on_data` selects by the class of the request. -/
def selectResponse : Pdu → Pdu
  | .modbusRequestFC1 _ quantity => ResponseFactory.createFc1Rsp quantity
  | .modbusRequestFC2 _ quantity => ResponseFactory.createFc2Rsp quantity
  | .modbusRequestFC3 _ quantity => ResponseFactory.createFc3Rsp quantity
  | .modbusRequestFC4 _ quantity => ResponseFactory.createFc4Rsp quantity
  | .modbusRequestFC5 outputAddress outputValue =>
    ResponseFactory.createFc5Rsp outputAddress outputValue
  | .modbusRequestFC6 outputAddress outputValue =>
    ResponseFactory.createFc6Rsp outputAddress outputValue
  | .modbusRequestFC7 => ResponseFactory.createFc7Rsp
  | .modbusRequestFC15 startAddr quantity _ _ => ResponseFactory.createFc15Rsp startAddr quantity
  | .modbusRequestFC16 startAddr quantity _ _ => ResponseFactory.createFc16Rsp startAddr quantity
  | .modbusRequestFC22 refAddr andMask orMask =>
    ResponseFactory.createFc22Rsp refAddr andMask orMask
  | .modbusRequestFC23 _ readQuantity _ _ _ _ => ResponseFactory.createFc23Rsp readQuantity
  | .modbusRequestFC43 meiType meiData => ResponseFactory.createFc43Rsp meiType meiData
  | p => ResponseFactory.createErrRsp p.fc

/-- The frame `answer` sends: the request's identifiers under a length of its own. -/
def responseTo (requestHeader : ModbusHeader) (length : ℕ) (responsePdu : Pdu) :
    ModbusTcpResponse :=
  ⟨⟨requestHeader.transId, requestHeader.protId, length + 1, requestHeader.unitId⟩, responsePdu⟩

/-- `answer`. -/
def answer (sock : SendSocket ε σ) (requestHeader : ModbusHeader) (responsePdu : Pdu) (s : σ) :
    Except (Exc ε) Unit × σ :=
  match responsePdu.len with
  | .error e => (.error (.struct e), s)
  | .ok length =>
    match (responseTo requestHeader length responsePdu).serialize with
    | .error e => (.error (.packet e), s)
    | .ok message => ModbusTcpStream.send sock 0 false message s

/-- The call of the handler; without one every request is taken. -/
def handle (server : ModbusServerSimulator ε σ) (request : ModbusTcpRequest) (s : σ) :
    Except (Exc ε) Bool × σ :=
  match server.dataHandler with
  | none => (.ok true, s)
  | some dataHandler => dataHandler request s

/-- `except ModbusBaseError as e: raise ModbusSlaveDeviceFailureError() from e`. -/
def asDeviceFailure (e : Exc ε) : Exc ε := if e.isModbusBase then .slaveDeviceFailure else e

/-- `on_data`. -/
def onData (server : ModbusServerSimulator ε σ) (sock : SendSocket ε σ) (data : Bytes) (s : σ) :
    Except (Exc ε) Unit × σ :=
  match ModbusTcpRequest.deserialize data with
  | .error (.pduParse _ header fc) => answer sock header (.modbusError fc illegalDataValue) s
  | .error (.packet e) => (.error (.packet e), s)
  | .ok request =>
    match server.handle request s with
    | (.error e, s₁) => (.error e, s₁)
    | (.ok rsltOk, s₁) =>
      let responsePdu :=
        if server.fail || !rsltOk then ResponseFactory.createErrRsp request.pdu.fc
        else selectResponse request.pdu
      let (r, s₂) := answer sock request.header responsePdu s₁
      (r.mapError asDeviceFailure, s₂)

/-- A read whose answer does not fit its one byte count. -/
def AsksTooMuch : Pdu → Prop
  | .modbusRequestFC1 _ quantity | .modbusRequestFC2 _ quantity => 2040 < quantity
  | .modbusRequestFC3 _ quantity | .modbusRequestFC4 _ quantity => 127 < quantity
  | .modbusRequestFC23 _ readQuantity _ _ _ _ => 127 < readQuantity
  | _ => False

instance : DecidablePred AsksTooMuch := fun p => by
  unfold AsksTooMuch
  split <;> infer_instance

/-! ### Which responses serialize -/

/-- What a PDU that serializes packs. -/
theorem fits_of_serialize {p : Pdu} {s : Bytes} (h : p.serialize = .ok s) :
    ∃ fmt, p.layout.pduFormat.fill p.serializeCount = .ok fmt ∧
      List.Forall₂ Struct.Fits fmt (p.wireFc :: p.data) := by
  obtain ⟨fmt, hf, hp⟩ := Struct.Template.pack_eq_ok.mp (Pdu.serialize_eq_ok.mp h)
  exact ⟨fmt, hf, (Struct.pack_eq_ok.mp hp).1⟩

theorem exists_serialize {p : Pdu} {fmt : List Struct.Code}
    (hf : p.layout.pduFormat.fill p.serializeCount = .ok fmt)
    (h : List.Forall₂ Struct.Fits fmt (p.wireFc :: p.data)) :
    ∃ s, p.serialize = .ok s ∧ s.length = Struct.calcsize fmt :=
  ⟨_, Pdu.serialize_eq_ok.mpr (Struct.Template.pack_eq_ok.mpr ⟨fmt, hf, Struct.pack_eq_ok.mpr ⟨h, rfl⟩⟩),
    Struct.encodeItems_length h.length_eq.symm⟩

theorem forall₂_repeated {c : Struct.Code} {value : ℤ} (h : Struct.Fits c value) (n : ℕ) :
    List.Forall₂ Struct.Fits (List.replicate n c) (List.replicate n value) := by
  induction n with
  | zero => exact .nil
  | succ n ih => exact .cons h ih

theorem length_repeated {count : ℤ} (h : 0 ≤ count) (value : ℤ) :
    ((ResponseFactory.repeated count value).length : ℤ) = count := by
  rw [ResponseFactory.repeated, List.length_replicate, Int.toNat_of_nonneg h]

/-- The answer to a read: a count of bytes, and `n` times one value behind it. -/
structure ReadRsp (p : Pdu) (c : Struct.Code) (n count value : ℤ) : Prop where
  format : p.layout.pduFormat = ⟨[.B, .B], some c⟩
  fc : Struct.Fits .B p.wireFc
  data : p.data = count :: ResponseFactory.repeated n value
  items : p.serializeCount = n
  nonneg : 0 ≤ n
  count_eq : count = n * c.size
  value : Struct.Fits c value

/-- Such a response serializes where its count fits a byte. -/
theorem ReadRsp.serialize {p : Pdu} {c : Struct.Code} {n count value : ℤ}
    (h : ReadRsp p c n count value) (hle : count ≤ 255) :
    ∃ s, p.serialize = .ok s ∧ (s.length : ℤ) = 2 + count := by
  have hfill : p.layout.pduFormat.fill p.serializeCount =
      .ok ([.B, .B] ++ List.replicate n.toNat c) := by
    rw [h.format, h.items]
    exact (Struct.Template.fill_eq_ok_of_tail rfl).mpr ⟨h.nonneg, rfl⟩
  have hfits : Struct.Fits .B count := by
    have := mul_nonneg h.nonneg (Int.natCast_nonneg c.size)
    have := h.count_eq
    exact ⟨by omega, by show count < 256; omega⟩
  obtain ⟨s, hs, hlen⟩ := exists_serialize hfill
    (by rw [h.data]; exact .cons h.fc (.cons hfits (forall₂_repeated h.value _)))
  refine ⟨s, hs, ?_⟩
  rw [hlen, Struct.calcsize_append, Struct.calcsize_replicate, h.count_eq]
  push_cast
  rw [Int.toNat_of_nonneg h.nonneg]
  rfl

theorem ReadRsp.count_le {p : Pdu} {c : Struct.Code} {n count value : ℤ}
    (h : ReadRsp p c n count value) {s : Bytes} (hs : p.serialize = .ok s) : count ≤ 255 := by
  obtain ⟨fmt, hf, hfits⟩ := fits_of_serialize hs
  rw [h.format] at hf
  obtain ⟨-, rfl⟩ := (Struct.Template.fill_eq_ok_of_tail rfl).mp hf
  rw [h.data] at hfits
  cases hfits with
  | cons _ hfits =>
    cases hfits with
    | cons hcount _ => exact Int.lt_add_one_iff.mp hcount.2

/-- The scalar fields of a PDU that serializes fit the head of its format. -/
theorem fits_fields {p : Pdu} {s : Bytes} (h : p.serialize = .ok s) :
    List.Forall₂ Struct.Fits p.layout.pduFormat.head (p.wireFc :: p.fields) := by
  obtain ⟨fmt, hf, hfits⟩ := fits_of_serialize h
  have htake := List.forall₂_take p.layout.pduFormat.head.length hfits
  rw [← p.fields_length, Pdu.data, List.take_succ_cons, List.take_left, p.fields_length] at htake
  obtain ⟨more, rfl⟩ : ∃ more, fmt = p.layout.pduFormat.head ++ more := by
    cases ht : p.layout.pduFormat.tail with
    | none => exact ⟨[], by rw [(Struct.Template.fill_eq_ok_of_none ht).mp hf, List.append_nil]⟩
    | some c => exact ⟨_, ((Struct.Template.fill_eq_ok_of_tail ht).mp hf).2⟩
  rwa [List.take_left] at htake

theorem serialize_errRsp {fc : ℤ} (excCode : ℤ) (h0 : 0 ≤ fc) (h128 : fc < 0x80)
    (he : Struct.Fits .B excCode) :
    ∃ t, (Pdu.modbusError fc excCode).serialize = .ok t ∧ t.length = 2 := by
  have hfill : (Pdu.modbusError fc excCode).layout.pduFormat.fill
      (Pdu.modbusError fc excCode).serializeCount = .ok [.B, .B] := rfl
  refine exists_serialize hfill (.cons ⟨?_, ?_⟩ (.cons he .nil))
  · show 0 ≤ fc + 0x80
    omega
  · show fc + 0x80 < 256
    omega

theorem serialize_echo {p q : Pdu} {s : Bytes} (hs : p.serialize = .ok s)
    (hfmt : q.layout.pduFormat = p.layout.pduFormat) (hcount : q.serializeCount = p.serializeCount)
    (hfc : q.wireFc = p.wireFc) (hdata : q.data = p.data) : q.serialize = .ok s := by
  rw [Pdu.serialize_eq_ok, hfmt, hcount, hfc, hdata]
  exact Pdu.serialize_eq_ok.mp hs

/-- A response that repeats the first two fields of its request serializes with it. -/
theorem serialize_writeRsp {p : Pdu} {fc startAddr quantity : ℤ} {codes : List Struct.Code}
    {values : List ℤ} (hfmt : p.layout.pduFormat = ⟨[.B, .H, .H], none⟩) (hfc : p.wireFc = fc)
    (hdata : p.data = [startAddr, quantity])
    (h : List.Forall₂ Struct.Fits (.B :: .H :: .H :: codes)
      (fc :: startAddr :: quantity :: values)) :
    ∃ t, p.serialize = .ok t ∧ t.length = 5 := by
  have hfill : p.layout.pduFormat.fill p.serializeCount = .ok [.B, .H, .H] := by
    rw [hfmt]
    rfl
  refine exists_serialize hfill ?_
  rw [hfc, hdata]
  exact List.forall₂_take 3 h

theorem readRsp_fc1 {quantity : ℤ} (h : 0 ≤ quantity) :
    ReadRsp (ResponseFactory.createFc1Rsp quantity) .B ((quantity + 7) / 8) ((quantity + 7) / 8)
      0xFF :=
  ⟨rfl, by show Struct.Fits .B 1; decide, rfl, rfl, by omega, (mul_one _).symm, by decide⟩

theorem readRsp_fc2 {quantity : ℤ} (h : 0 ≤ quantity) :
    ReadRsp (ResponseFactory.createFc2Rsp quantity) .B ((quantity + 7) / 8) ((quantity + 7) / 8)
      0xFF :=
  ⟨rfl, by show Struct.Fits .B 2; decide, rfl, rfl, by omega, (mul_one _).symm, by decide⟩

theorem readRsp_fc3 {quantity : ℤ} (h : 0 ≤ quantity) :
    ReadRsp (ResponseFactory.createFc3Rsp quantity) .H quantity (2 * quantity) 0xFFFF :=
  ⟨rfl, by show Struct.Fits .B 3; decide, rfl, length_repeated h _, h, mul_comm _ _, by decide⟩

theorem readRsp_fc4 {quantity : ℤ} (h : 0 ≤ quantity) :
    ReadRsp (ResponseFactory.createFc4Rsp quantity) .H quantity (2 * quantity) 0xFFFF :=
  ⟨rfl, by show Struct.Fits .B 4; decide, rfl, length_repeated h _, h, mul_comm _ _, by decide⟩

theorem readRsp_fc23 {readQuantity : ℤ} (h : 0 ≤ readQuantity) :
    ReadRsp (ResponseFactory.createFc23Rsp readQuantity) .H readQuantity (2 * readQuantity) 0xFFFF :=
  ⟨rfl, by show Struct.Fits .B 23; decide, rfl, length_repeated h _, h, mul_comm _ _, by decide⟩

/-- What the server selects for a request that serializes itself, where its answer fits. -/
theorem serialize_selectResponse {p : Pdu} {s : Bytes} (hs : p.serialize = .ok s)
    (h0 : 0 ≤ p.fc) (h128 : p.fc < 0x80) (h : ¬ AsksTooMuch p) :
    ∃ t, (selectResponse p).serialize = .ok t ∧ t.length ≤ max 257 s.length := by
  have hfields := fits_fields hs
  have hnonneg : ∀ v ∈ p.fields, 0 ≤ v := fun v hv =>
    Struct.nonneg_of_fits hfields v (List.mem_cons_of_mem _ hv)
  have herr : ∃ t, (ResponseFactory.createErrRsp p.fc).serialize = .ok t ∧
      t.length ≤ max 257 s.length := by
    obtain ⟨t, ht, hlen⟩ := serialize_errRsp 4 h0 h128 (by decide)
    exact ⟨t, ht, by omega⟩
  have hread {q : Pdu} {c : Struct.Code} {n count value : ℤ} (hq : ReadRsp q c n count value)
      (hle : count ≤ 255) : ∃ t, q.serialize = .ok t ∧ t.length ≤ max 257 s.length := by
    obtain ⟨t, ht, hlen⟩ := hq.serialize hle
    exact ⟨t, ht, by omega⟩
  have hwrite {q : Pdu} (hq : ∃ t, q.serialize = .ok t ∧ t.length = 5) :
      ∃ t, q.serialize = .ok t ∧ t.length ≤ max 257 s.length := by
    obtain ⟨t, ht, hlen⟩ := hq
    exact ⟨t, ht, by omega⟩
  cases p with
  | modbusRequestFC1 startAddr quantity =>
    have hle : quantity ≤ 2040 := not_lt.mp h
    exact hread (readRsp_fc1 (hnonneg quantity (by simp [Pdu.fields]))) (by omega)
  | modbusRequestFC2 startAddr quantity =>
    have hle : quantity ≤ 2040 := not_lt.mp h
    exact hread (readRsp_fc2 (hnonneg quantity (by simp [Pdu.fields]))) (by omega)
  | modbusRequestFC3 startAddr quantity =>
    have hle : quantity ≤ 127 := not_lt.mp h
    exact hread (readRsp_fc3 (hnonneg quantity (by simp [Pdu.fields]))) (by omega)
  | modbusRequestFC4 startAddr quantity =>
    have hle : quantity ≤ 127 := not_lt.mp h
    exact hread (readRsp_fc4 (hnonneg quantity (by simp [Pdu.fields]))) (by omega)
  | modbusRequestFC5 outputAddress outputValue =>
    exact ⟨s, serialize_echo hs rfl rfl rfl rfl, le_max_right _ _⟩
  | modbusRequestFC6 outputAddress outputValue =>
    exact ⟨s, serialize_echo hs rfl rfl rfl rfl, le_max_right _ _⟩
  | modbusRequestFC7 => exact ⟨[7, 0], rfl, by simp⟩
  | modbusRequestFC15 startAddr quantity byteCount values =>
    exact hwrite (serialize_writeRsp (p := .modbusResponseFC15 startAddr quantity)
      rfl rfl rfl hfields)
  | modbusRequestFC16 startAddr quantity byteCount values =>
    exact hwrite (serialize_writeRsp (p := .modbusResponseFC16 startAddr quantity)
      rfl rfl rfl hfields)
  | modbusRequestFC22 refAddr andMask orMask =>
    exact ⟨s, serialize_echo hs rfl rfl rfl rfl, le_max_right _ _⟩
  | modbusRequestFC23 readStartAddr readQuantity writeStartAddr writeQuantity writeByteCount values =>
    have hle : readQuantity ≤ 127 := not_lt.mp h
    exact hread (readRsp_fc23 (hnonneg readQuantity (by simp [Pdu.fields]))) (by omega)
  | modbusRequestFC43 meiType meiData =>
    exact ⟨s, serialize_echo hs rfl rfl rfl rfl, le_max_right _ _⟩
  | _ => exact herr

theorem not_serialize_selectResponse {p : Pdu} (h : AsksTooMuch p) (t : Bytes) :
    (selectResponse p).serialize ≠ .ok t := by
  intro ht
  cases p with
  | modbusRequestFC1 startAddr quantity =>
    have hask : 2040 < quantity := h
    have hcount := (readRsp_fc1 (show 0 ≤ quantity by omega)).count_le ht
    omega
  | modbusRequestFC2 startAddr quantity =>
    have hask : 2040 < quantity := h
    have hcount := (readRsp_fc2 (show 0 ≤ quantity by omega)).count_le ht
    omega
  | modbusRequestFC3 startAddr quantity =>
    have hask : 127 < quantity := h
    have hcount := (readRsp_fc3 (show 0 ≤ quantity by omega)).count_le ht
    omega
  | modbusRequestFC4 startAddr quantity =>
    have hask : 127 < quantity := h
    have hcount := (readRsp_fc4 (show 0 ≤ quantity by omega)).count_le ht
    omega
  | modbusRequestFC23 readStartAddr readQuantity writeStartAddr writeQuantity writeByteCount values =>
    have hask : 127 < readQuantity := h
    have hcount := (readRsp_fc23 (show 0 ≤ readQuantity by omega)).count_le ht
    omega
  | _ => exact h

/-! ### The frame that goes out -/

def responseClass : PduClass → PduClass
  | .modbusRequestFC1 => .modbusResponseFC1
  | .modbusRequestFC2 => .modbusResponseFC2
  | .modbusRequestFC3 => .modbusResponseFC3
  | .modbusRequestFC4 => .modbusResponseFC4
  | .modbusRequestFC5 => .modbusResponseFC5
  | .modbusRequestFC6 => .modbusResponseFC6
  | .modbusRequestFC7 => .modbusResponseFC7
  | .modbusRequestFC15 => .modbusResponseFC15
  | .modbusRequestFC16 => .modbusResponseFC16
  | .modbusRequestFC22 => .modbusResponseFC22
  | .modbusRequestFC23 => .modbusResponseFC23
  | .modbusRequestFC43 => .modbusResponseFC43
  | _ => .modbusError

theorem responseClass_mem : ∀ c, responseClass c ≠ .modbusError → responseClass c ∈ registry := by
  intro c
  cases c <;> decide

/-- A header that serializes still does under another length of sixteen bits. -/
theorem header_relength {header : ModbusHeader} {hb : Bytes} (h : header.serialize = .ok hb)
    {n : ℤ} (h0 : 0 ≤ n) (hn : n < 0x10000) :
    ∃ hb', ({ header with length := n } : ModbusHeader).serialize = .ok hb' := by
  obtain ⟨hfits, -⟩ := Struct.pack_eq_ok.mp (ModbusHeader.serialize_eq_ok.mp h)
  obtain _ | ⟨htrans, _ | ⟨hprot, _ | ⟨-, hunit⟩⟩⟩ := hfits
  exact ⟨_, ModbusHeader.serialize_eq_ok.mpr (Struct.pack_eq_ok.mpr
    ⟨.cons htrans (.cons hprot (.cons ⟨h0, hn⟩ hunit)), rfl⟩)⟩

/-- A response that serializes to a frame of sixteen-bit length goes out whole and is read
back with the identifiers of the request. -/
theorem answer_spec {sock : SendSocket ε σ} (haccept : sock.AcceptsAll) {header : ModbusHeader}
    {hb : Bytes} (hh : header.serialize = .ok hb) {p : Pdu} {t : Bytes}
    (hp : p.serialize = .ok t) (hlen : t.length + 1 < 0x10000)
    (hr : ModbusPduParser.ResponseObject p) (s : σ) :
    ∃ s' message, answer sock header p s = (.ok (), s') ∧
      sock.accepted s' = sock.accepted s ++ message ∧
      ModbusTcpResponse.deserialize message = .ok (responseTo header t.length p) := by
  obtain ⟨hb', hh'⟩ := header_relength hh (n := t.length + 1) (by omega) (by omega)
  have hser : (responseTo header t.length p).serialize = .ok (hb' ++ t) :=
    TcpAdu.serialize_eq_ok.mpr ⟨hb', t, hh', hp, rfl⟩
  obtain ⟨s', hsend, hs'⟩ := ModbusTcpStream.send_whole haccept le_rfl (hb' ++ t) s
  refine ⟨s', hb' ++ t, ?_, hs',
    TcpAdu.deserialize_serialize (a := responseTo header t.length p) hr hh' hp rfl⟩
  unfold answer
  rw [Pdu.len_of_serialize hp]
  dsimp only
  rw [hser]
  exact hsend

/-- A response that does not serialize is not sent. -/
theorem answer_error (sock : SendSocket ε σ) (header : ModbusHeader) {p : Pdu}
    (hp : ∀ t, p.serialize ≠ .ok t) (s : σ) :
    ∃ e, answer sock header p s = (.error e, s) := by
  unfold answer
  cases p.len with
  | error e => exact ⟨_, rfl⟩
  | ok length =>
    dsimp only
    cases hser : (responseTo header length p).serialize with
    | error e => exact ⟨_, rfl⟩
    | ok message =>
      obtain ⟨_, t, -, ht, -⟩ := TcpAdu.serialize_eq_ok.mp hser
      exact absurd ht (hp t)

theorem fc_selectResponse (p : Pdu) : (selectResponse p).fc = p.fc := by
  cases p <;> rfl

theorem cls_selectResponse (p : Pdu) : (selectResponse p).cls = responseClass p.cls := by
  cases p <;> rfl

theorem not_isRequest_responseClass (c : PduClass) : ¬ (responseClass c).isRequest := by
  cases c <;> decide

theorem responseObject_selectResponse {p : Pdu} (h0 : 0 ≤ p.fc) (h128 : p.fc < 0x80) :
    ModbusPduParser.ResponseObject (selectResponse p) := by
  by_cases hp : responseClass p.cls = .modbusError
  · have heq : selectResponse p = ResponseFactory.createErrRsp p.fc := by
      cases p <;> first | rfl | (exact absurd hp (by simp [Pdu.cls, responseClass]))
    exact .inr (.inl ⟨p.fc, _, heq, h0, by omega⟩)
  · refine .inl ⟨?_, ?_⟩ <;> rw [cls_selectResponse]
    · exact responseClass_mem _ hp
    · exact not_isRequest_responseClass _

end ModbusServerSimulator

end Pyomb
