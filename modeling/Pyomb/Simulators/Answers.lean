import Pyomb.Simulators.Server

/-! What a peer gets for a frame whose header the server can echo. Every such frame is
answered, a body that does not parse with an exception, unless it asks for more than the
answer's one byte count can say; and a request within its limits gets the response of its
function code, within the limits of its own. -/

namespace Pyomb

namespace ModbusServerSimulator

open ModbusPduParser

variable {ε σ : Type}

/-- `on_data` returns, having written one frame: a response, or an exception, for the
function code, with the identifiers of the request. -/
def Answered (sock : SendSocket ε σ) (data : Bytes) (s : σ) (header : ModbusHeader) (fc : ℤ) :
    Prop :=
  ∃ s' message response, onData {} sock data s = (.ok (), s') ∧
    sock.accepted s' = sock.accepted s ++ message ∧
    ModbusTcpResponse.deserialize message = .ok response ∧
    response.header.transId = header.transId ∧ response.header.protId = header.protId ∧
    response.header.unitId = header.unitId ∧
    response.pdu.fc = fc ∧ ¬ response.pdu.cls.isRequest

/-- The header reads, and its length field agrees with the data. -/
def Readable (data : Bytes) (header : ModbusHeader) : Prop :=
  ModbusHeader.deserialize (data.take ModbusHeader.size) = .ok header ∧
    (data.length : ℤ) = ModbusHeader.size + header.length - 1

theorem fc_of_parseRequest {b : UInt8} {rest : Bytes} {p : Pdu}
    (h : parseRequest (b :: rest) = .ok p) : p.fc = b.toNat := by
  obtain ⟨b', rest', hs, hb⟩ := serialize_head (serialize_parseRequest h)
  obtain ⟨rfl, rfl⟩ := List.cons.inj hs
  have hr := (parseRequest_cls h).2
  cases p <;> first | exact hb | exact absurd hr (by simp [Pdu.cls, PduClass.isRequest]; decide)

section Readable

variable {data rest : Bytes} {header : ModbusHeader} {fc : UInt8} {sock : SendSocket ε σ} {s s' : σ}

theorem onData_unparsable (h : Readable data header) (hpdu : data.drop ModbusHeader.size = fc :: rest)
    {e : PacketError} (he : parseRequest (fc :: rest) = .error e) :
    onData {} sock data s = answer sock header (.modbusError fc.toNat illegalDataValue) s := by
  unfold onData ModbusTcpRequest.deserialize
  simp only [TcpAdu.readHeader_eq_ok.mpr h, hpdu, he, tryUnder, Except.mapError]

theorem onData_parsed (h : Readable data header) (hpdu : data.drop ModbusHeader.size = fc :: rest)
    {p : Pdu} (hp : parseRequest (fc :: rest) = .ok p) {r : Except (Exc ε) Unit}
    (ha : answer sock header (selectResponse p) s = (r, s')) :
    onData {} sock data s = (r.mapError asDeviceFailure, s') := by
  unfold onData ModbusTcpRequest.deserialize
  simp only [TcpAdu.readHeader_eq_ok.mpr h, hpdu, hp, tryUnder, Except.mapError, handle]
  simp [ha]

theorem length_of_readable (h : Readable data header)
    (hpdu : data.drop ModbusHeader.size = fc :: rest) : (fc :: rest).length + 1 < 0x10000 := by
  obtain ⟨hfits, -⟩ := Struct.pack_eq_ok.mp
    (ModbusHeader.serialize_eq_ok.mp (ModbusHeader.serialize_deserialize h.1))
  obtain _ | ⟨-, _ | ⟨-, _ | ⟨hlen, -⟩⟩⟩ := hfits
  have hlt : header.length < 0x10000 := hlen.2
  have hdata := h.2
  have := congrArg List.length hpdu
  rw [List.length_drop] at this
  rw [ModbusHeader.size_eq] at hdata this
  rw [List.length_cons] at this ⊢
  omega

/-- A frame with a header to echo is answered unless it reads as asking for too much. -/
theorem answered_iff (haccept : sock.AcceptsAll) (h : Readable data header)
    (hpdu : data.drop ModbusHeader.size = fc :: rest) (hfc : fc.toNat < 0x80) (s : σ) :
    Answered sock data s header fc.toNat ↔
      ∀ p, parseRequest (fc :: rest) = .ok p → ¬ AsksTooMuch p := by
  have hh := ModbusHeader.serialize_deserialize h.1
  have hroom := length_of_readable h hpdu
  cases hp : parseRequest (fc :: rest) with
  | error e =>
    obtain ⟨t, ht, hlen⟩ := serialize_errRsp illegalDataValue
      (show (0 : ℤ) ≤ fc.toNat by omega) (by omega) (by decide)
    obtain ⟨s', message, hans, hs', hresp⟩ := answer_spec haccept hh ht (by omega)
      (.inr (.inl ⟨_, _, rfl, by omega, by omega⟩)) s
    refine ⟨fun _ => nofun, fun _ => ⟨s', message, _, ?_, hs', hresp, rfl, rfl, rfl, rfl, ?_⟩⟩
    · rw [onData_unparsable h hpdu hp, hans]
    · show ¬ PduClass.modbusError.isRequest
      decide
  | ok p =>
    have hpfc := fc_of_parseRequest hp
    by_cases hask : AsksTooMuch p
    · obtain ⟨e, hans⟩ := answer_error sock header
        (not_serialize_selectResponse hask) s
      refine ⟨?_, fun hno => absurd hask (hno p rfl)⟩
      rintro ⟨s', message, response, hdata, -⟩
      rw [onData_parsed h hpdu hp hans] at hdata
      cases hdata
    · obtain ⟨t, ht, hlen⟩ := serialize_selectResponse (serialize_parseRequest hp)
        (by omega) (by omega) hask
      obtain ⟨s', message, hans, hs', hresp⟩ := answer_spec haccept hh ht (by omega)
        (responseObject_selectResponse (by omega) (by omega)) s
      refine ⟨fun _ q hq => by cases hq; exact hask,
        fun _ => ⟨s', message, _, ?_, hs', hresp, rfl, rfl, rfl, ?_, ?_⟩⟩
      · rw [onData_parsed h hpdu hp hans]
        rfl
      · exact (fc_selectResponse p).trans hpfc
      · show ¬ (selectResponse p).cls.isRequest
        rw [cls_selectResponse]
        exact not_isRequest_responseClass _

end Readable

/-- Without a header to echo, or a PDU behind it, `on_data` raises and writes nothing. -/
theorem onData_unreadable {data : Bytes} (h : ∀ header, Readable data header →
    data.drop ModbusHeader.size = []) (sock : SendSocket ε σ) (s : σ) :
    ∃ e, onData {} sock data s = (.error e, s) := by
  unfold onData ModbusTcpRequest.deserialize
  cases hh : TcpAdu.readHeader data with
  | error e => exact ⟨_, rfl⟩
  | ok header =>
    simp only [h header (TcpAdu.readHeader_eq_ok.mp hh), parseRequest, tryUnder, Except.mapError]
    exact ⟨_, rfl⟩

/-- Over a socket that accepts every write: a frame with a header to echo and a function
code below `0x80` is answered exactly where it does not read as asking for an answer too
long for its count; without a header to echo or a PDU, `on_data` raises and writes nothing. -/
theorem onData_answers (sock : SendSocket ε σ) (haccept : sock.AcceptsAll) (data : Bytes)
    (s : σ) :
    (∀ header fc rest, Readable data header → data.drop ModbusHeader.size = fc :: rest →
      fc.toNat < 0x80 →
      (Answered sock data s header fc.toNat ↔
        ∀ p, parseRequest (fc :: rest) = .ok p → ¬ AsksTooMuch p)) ∧
    ((∀ header, Readable data header → data.drop ModbusHeader.size = []) →
      ∃ e, onData {} sock data s = (.error e, s)) :=
  ⟨fun _ _ _ h hpdu hfc => answered_iff haccept h hpdu hfc s,
    fun h => onData_unreadable h sock s⟩

/-- A read of three registers is answered over a socket that takes everything. -/
theorem onData_answers_read : Answered (SendSocket.accepting Empty)
    [0, 1, 0, 0, 0, 6, 17, 3, 0, 107, 0, 3] [] ⟨1, 0, 6, 17⟩ 3 :=
  ((onData_answers (SendSocket.accepting Empty) (fun s d => ⟨s ++ d, rfl⟩)
    [0, 1, 0, 0, 0, 6, 17, 3, 0, 107, 0, 3] []).1 ⟨1, 0, 6, 17⟩ 3 _ ⟨rfl, rfl⟩ rfl
      (by decide)).mpr fun p hp => by
        obtain rfl := Except.ok.inj hp
        decide

/-- A read of 128 registers parses, and the peer is dropped instead of answered. -/
theorem onData_drops_read : Readable [0, 1, 0, 0, 0, 6, 17, 3, 0, 0, 0, 128] ⟨1, 0, 6, 17⟩ ∧
    ¬ Answered (SendSocket.accepting Empty) [0, 1, 0, 0, 0, 6, 17, 3, 0, 0, 0, 128] []
      ⟨1, 0, 6, 17⟩ 3 := by
  have hread : Readable [0, 1, 0, 0, 0, 6, 17, 3, 0, 0, 0, 128] ⟨1, 0, 6, 17⟩ := ⟨rfl, rfl⟩
  have haccept : (SendSocket.accepting Empty).AcceptsAll := fun s d => ⟨s ++ d, rfl⟩
  have hpdu : ([0, 1, 0, 0, 0, 6, 17, 3, 0, 0, 0, 128] : Bytes).drop ModbusHeader.size =
      3 :: [0, 0, 0, 128] := rfl
  refine ⟨hread, fun hans => ?_⟩
  have hno := (answered_iff haccept hread hpdu (by decide) []).mp hans
  exact hno (.modbusRequestFC3 0 128) rfl (by decide)

/-! ### Requests within their limits -/

def answeredClasses : List PduClass :=
  [.modbusRequestFC1, .modbusRequestFC2, .modbusRequestFC3, .modbusRequestFC4, .modbusRequestFC5,
    .modbusRequestFC6, .modbusRequestFC7, .modbusRequestFC15, .modbusRequestFC16,
    .modbusRequestFC22, .modbusRequestFC23, .modbusRequestFC43]

/-- What a response carries of its request: the status bytes or registers asked for, or the
address and what was written there. -/
def Conforms : Pdu → Pdu → Prop
  | .modbusRequestFC1 _ quantity, .modbusResponseFC1 _ outputStatus =>
    (outputStatus.length : ℤ) = ⌈(quantity : ℚ) / 8⌉
  | .modbusRequestFC2 _ quantity, .modbusResponseFC2 _ inputStatus =>
    (inputStatus.length : ℤ) = ⌈(quantity : ℚ) / 8⌉
  | .modbusRequestFC3 _ quantity, .modbusResponseFC3 _ values => (values.length : ℤ) = quantity
  | .modbusRequestFC4 _ quantity, .modbusResponseFC4 _ values => (values.length : ℤ) = quantity
  | .modbusRequestFC5 outputAddress outputValue, .modbusResponseFC5 address value =>
    address = outputAddress ∧ value = outputValue
  | .modbusRequestFC6 outputAddress outputValue, .modbusResponseFC6 address value =>
    address = outputAddress ∧ value = outputValue
  | .modbusRequestFC7, .modbusResponseFC7 _ => True
  | .modbusRequestFC15 startAddr quantity _ _, .modbusResponseFC15 address count =>
    address = startAddr ∧ count = quantity
  | .modbusRequestFC16 startAddr quantity _ _, .modbusResponseFC16 address count =>
    address = startAddr ∧ count = quantity
  | .modbusRequestFC22 refAddr andMask orMask, .modbusResponseFC22 address mask mask' =>
    address = refAddr ∧ mask = andMask ∧ mask' = orMask
  | .modbusRequestFC23 _ readQuantity _ _ _ _, .modbusResponseFC23 _ values =>
    (values.length : ℤ) = readQuantity
  | .modbusRequestFC43 _ _, .modbusResponseFC43 _ _ => True
  | _, _ => False

theorem statusBytes (quantity : ℤ) : (quantity + 7) / 8 = ⌈(quantity : ℚ) / 8⌉ := by
  have := Rat.ceil_intCast_div_natCast quantity 8
  rw [Nat.cast_ofNat] at this
  rw [this]
  omega

theorem violations_of_limit {p : Pdu} {field : Field} {low high : ℤ}
    (hl : p.layout.limits = [(field, low, high)])
    (h : low ≤ p.attr field ∧ p.attr field ≤ high) (hown : p.ownViolations = []) :
    p.violations = [] := by
  refine List.append_eq_nil_iff.mpr ⟨PduLayout.limitViolations_eq_nil.mpr fun b hb => ?_, hown⟩
  rw [hl] at hb
  obtain rfl := List.mem_singleton.mp hb
  exact h

theorem statuses_conform {quantity : ℤ} (hq : 1 ≤ quantity ∧ quantity ≤ 2000) (value : ℤ) :
    ¬ 2040 < quantity ∧
      (quantity + 7) / 8 = (ResponseFactory.repeated ((quantity + 7) / 8) value).length ∧
      ((ResponseFactory.repeated ((quantity + 7) / 8) value).length : ℤ) =
        ⌈(quantity : ℚ) / 8⌉ := by
  have hlen := length_repeated (show 0 ≤ (quantity + 7) / 8 by omega) value
  exact ⟨by omega, hlen.symm, hlen.trans (statusBytes quantity)⟩

theorem registers_conform {quantity : ℤ} (hq : 1 ≤ quantity ∧ quantity ≤ 125) (value : ℤ) :
    ¬ 127 < quantity ∧
      2 * quantity = 2 * ((ResponseFactory.repeated quantity value).length : ℤ) ∧
      ((ResponseFactory.repeated quantity value).length : ℤ) = quantity := by
  have hlen := length_repeated (show 0 ≤ quantity by omega) value
  exact ⟨by omega, congrArg (2 * ·) hlen.symm, hlen⟩

/-- A request within its limits asks for an answer that fits, and gets one within the limits
of its own. -/
theorem conforms_selectResponse {p : Pdu} (hcls : p.cls ∈ answeredClasses)
    (hv : p.violations = []) :
    ¬ AsksTooMuch p ∧ (selectResponse p).violations = [] ∧ Conforms p (selectResponse p) := by
  obtain ⟨hlimits, hown⟩ := List.append_eq_nil_iff.mp hv
  rw [PduLayout.limitViolations_eq_nil] at hlimits
  cases p with
  | modbusRequestFC1 startAddr quantity =>
    obtain ⟨hfits, hcount, hlen⟩ := statuses_conform (hlimits _ (List.mem_singleton_self _)) 0xFF
    exact ⟨hfits, PduLayout.fixedCount_eq_nil.mpr hcount, hlen⟩
  | modbusRequestFC2 startAddr quantity =>
    obtain ⟨hfits, hcount, hlen⟩ := statuses_conform (hlimits _ (List.mem_singleton_self _)) 0xFF
    exact ⟨hfits, PduLayout.fixedCount_eq_nil.mpr hcount, hlen⟩
  | modbusRequestFC3 startAddr quantity =>
    obtain ⟨hfits, hcount, hlen⟩ := registers_conform (hlimits _ (List.mem_singleton_self _)) 0xFFFF
    exact ⟨hfits, PduLayout.fixedCount_eq_nil.mpr hcount, hlen⟩
  | modbusRequestFC4 startAddr quantity =>
    obtain ⟨hfits, hcount, hlen⟩ := registers_conform (hlimits _ (List.mem_singleton_self _)) 0xFFFF
    exact ⟨hfits, PduLayout.fixedCount_eq_nil.mpr hcount, hlen⟩
  | modbusRequestFC5 outputAddress outputValue =>
    have hvalue : outputValue = 0x0000 ∨ outputValue = 0xFF00 := by
      by_contra hno
      simp [Pdu.ownViolations, hno] at hown
    exact ⟨id, if_pos hvalue, rfl, rfl⟩
  | modbusRequestFC6 outputAddress outputValue => exact ⟨id, rfl, rfl, rfl⟩
  | modbusRequestFC7 => exact ⟨id, rfl, trivial⟩
  | modbusRequestFC15 startAddr quantity byteCount values =>
    have hq : 1 ≤ quantity ∧ quantity ≤ 1968 := hlimits _ (List.mem_singleton_self _)
    exact ⟨id, violations_of_limit rfl hq rfl, rfl, rfl⟩
  | modbusRequestFC16 startAddr quantity byteCount values =>
    have hq : 1 ≤ quantity ∧ quantity ≤ 123 := hlimits _ (List.mem_singleton_self _)
    exact ⟨id, violations_of_limit rfl hq rfl, rfl, rfl⟩
  | modbusRequestFC22 refAddr andMask orMask => exact ⟨id, rfl, rfl, rfl, rfl⟩
  | modbusRequestFC23 readStartAddr readQuantity writeStartAddr writeQuantity writeByteCount values =>
    obtain ⟨hfits, hcount, hlen⟩ := registers_conform (hlimits _ List.mem_cons_self) 0xFFFF
    exact ⟨hfits, PduLayout.fixedCount_eq_nil.mpr hcount, hlen⟩
  | modbusRequestFC43 meiType meiData =>
    have hmei : 0x0E ≤ meiType ∧ meiType ≤ 0x0E := hlimits _ (List.mem_singleton_self _)
    exact ⟨id, violations_of_limit rfl hmei rfl, trivial⟩
  | _ => exact absurd hcls (by simp [Pdu.cls, answeredClasses])

theorem requestObject_of_answered {p : Pdu} (h : p.cls ∈ answeredClasses) : RequestObject p :=
  have hall : ∀ c ∈ answeredClasses, c ∈ registry ∧ c.isRequest := by decide
  .inl (hall _ h)

theorem fc_of_answered {p : Pdu} (h : p.cls ∈ answeredClasses) : 0 ≤ p.fc ∧ p.fc < 0x80 := by
  have hall : ∀ c ∈ answeredClasses, c.layout.fc < 0x80 := by decide
  have hlt := hall _ h
  have hfc : p.fc = p.cls.layout.fc := by
    cases p <;> first | rfl | exact absurd h (by simp [Pdu.cls, answeredClasses])
  omega

theorem readable_append {header : ModbusHeader} {hb body : Bytes} (hh : header.serialize = .ok hb)
    (hlen : header.length = body.length + 1) : Readable (hb ++ body) header := by
  have hsize := ModbusHeader.serialize_length hh
  refine ⟨by rw [List.take_left' hsize]; exact ModbusHeader.deserialize_serialize hh, ?_⟩
  rw [List.length_append, hsize, hlen]
  push_cast
  ring

/-- Over a socket that accepts every write: the frame of a request within its limits, under
any identifiers, gets one frame back, with the same identifiers and the response of the
request's function code, within the limits of its own. -/
theorem onData_conforms (sock : SendSocket ε σ) (haccept : sock.AcceptsAll) {p : Pdu}
    (hcls : p.cls ∈ answeredClasses) (hv : p.violations = []) {body : Bytes}
    (hp : p.serialize = .ok body) {n : ℕ} (hn : p.len = .ok n) (hroom : n + 1 ≤ 65535)
    {transId protId unitId : ℤ} (htrans : Struct.Fits .H transId) (hprot : Struct.Fits .H protId)
    (hunit : Struct.Fits .B unitId) (s : σ) :
    ∃ data, (⟨⟨transId, protId, n + 1, unitId⟩, p⟩ : ModbusTcpRequest).serialize = .ok data ∧
      ∃ s' message response, onData {} sock data s = (.ok (), s') ∧
        sock.accepted s' = sock.accepted s ++ message ∧
        ModbusTcpResponse.deserialize message = .ok response ∧
        response.header.transId = transId ∧ response.header.protId = protId ∧
        response.header.unitId = unitId ∧ response.pdu.cls = responseClass p.cls ∧
        response.pdu.violations = [] ∧ Conforms p response.pdu := by
  obtain ⟨hfit, hviol, hconf⟩ := conforms_selectResponse hcls hv
  obtain ⟨h0, h128⟩ := fc_of_answered hcls
  have hreq := requestObject_of_answered hcls
  have hlen : n = body.length := Except.ok.inj (hn.symm.trans (Pdu.len_of_serialize hp))
  obtain ⟨hb, hh⟩ : ∃ hb, (⟨transId, protId, n + 1, unitId⟩ : ModbusHeader).serialize = .ok hb :=
    ⟨_, ModbusHeader.serialize_eq_ok.mpr (Struct.pack_eq_ok.mpr ⟨.cons htrans (.cons hprot
      (.cons ⟨by show (0 : ℤ) ≤ n + 1; omega, by show (n + 1 : ℤ) < 0x10000; omega⟩
        (.cons hunit .nil))), rfl⟩)⟩
  obtain ⟨fc, rest, rfl, -⟩ := serialize_head hp
  have hread := readable_append hh (show _ = ((fc :: rest).length : ℤ) + 1 by rw [hlen])
  have hdrop : (hb ++ fc :: rest).drop ModbusHeader.size = fc :: rest :=
    List.drop_left' (ModbusHeader.serialize_length hh)
  obtain ⟨t, ht, htlen⟩ := serialize_selectResponse hp h0 h128 hfit
  obtain ⟨s', message, hans, hs', hresp⟩ := answer_spec haccept hh ht (by omega)
    (responseObject_selectResponse h0 h128) s
  refine ⟨_, TcpAdu.serialize_eq_ok.mpr ⟨_, _, hh, hp, rfl⟩, s', message, _, ?_, hs', hresp,
    rfl, rfl, rfl, cls_selectResponse p, hviol, hconf⟩
  rw [onData_parsed hread hdrop (parseRequest_serialize hreq hp) hans]
  rfl

theorem onData_conforms_write :
    ∃ data, (⟨⟨7, 0, 11, 1⟩, .modbusRequestFC16 16 2 4 [10, 258]⟩ : ModbusTcpRequest).serialize =
        .ok data ∧
      ∃ s' message response, onData {} (SendSocket.accepting Empty) data [] = (.ok (), s') ∧
        s' = message ∧ ModbusTcpResponse.deserialize message = .ok response ∧
        response.header.transId = 7 ∧ response.pdu.violations = [] ∧
        Conforms (.modbusRequestFC16 16 2 4 [10, 258]) response.pdu := by
  obtain ⟨data, hdata, s', message, response, hon, hs', hresp, htrans, -, -, -, hv, hconf⟩ :=
    onData_conforms (SendSocket.accepting Empty) (fun s d => ⟨s ++ d, rfl⟩)
      (p := .modbusRequestFC16 16 2 4 [10, 258]) (by decide) (by decide) rfl (n := 10) rfl
      (by decide) (show Struct.Fits .H 7 by decide) (show Struct.Fits .H 0 by decide)
      (show Struct.Fits .B 1 by decide) []
  exact ⟨data, hdata, s', message, response, hon, hs', hresp, htrans, hv, hconf⟩

end ModbusServerSimulator

end Pyomb
