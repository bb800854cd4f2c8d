import Pyomb.Pdu.Items
import Pyomb.Simulators.Declared

/-! What `send_request` makes of its arguments. They are refused, or they name the items of
a request; and the request goes out where its items and those of its header fit their
fields and the message can be cut up. The identifier is claimed between the two. -/

namespace Pyomb

open Struct

namespace ModbusClientSimulator

def requestCodes : List ℤ := [1, 2, 3, 4, 5, 6, 7, 15, 16, 22, 23, 43]

/-- The arguments no request is built from. -/
def Refuses (fc : ℤ) (args : SendArgs) : Prop :=
  fc ∉ requestCodes ∨ ((fc = 5 ∨ fc = 6) ∧ valueList args.values = []) ∨
    (fc = 15 ∧ (valueList args.values).length < (args.writeCount + 7) / 8)

instance (fc : ℤ) (args : SendArgs) : Decidable (Refuses fc args) :=
  inferInstanceAs (Decidable (_ ∨ _ ∨ _))

/-- What a request carries behind its function code. -/
def requestItems (fc : ℤ) (args : SendArgs) : List (Code × ℤ) :=
  let values := valueList args.values
  let byteCount := (args.writeCount + 7) / 8
  if fc ∈ [1, 2, 3, 4] then [(.H, args.readAddress), (.H, args.readCount)]
  else if fc = 5 ∨ fc = 6 then (.H, args.writeAddress) :: (values.take 1).map (Prod.mk .H)
  else if fc = 15 then
    (.H, args.writeAddress) :: (.H, args.writeCount) :: (.B, byteCount) ::
      (values.take byteCount.toNat).map (Prod.mk .B)
  else if fc = 16 then
    (.H, args.writeAddress) :: (.H, args.writeCount) :: (.B, 2 * args.writeCount) ::
      values.map (Prod.mk .H)
  else if fc = 22 then [(.H, args.writeAddress), (.H, args.andMask), (.H, args.orMask)]
  else if fc = 23 then
    (.H, args.readAddress) :: (.H, args.readCount) :: (.H, args.writeAddress) ::
      (.H, args.writeCount) :: (.B, 2 * args.writeCount) :: values.map (Prod.mk .H)
  else if fc = 43 then
    (.B, 0x0E) :: [1, 2, 3, 4, 5, 6, 7, 8, 9, 10].map (Prod.mk .B)
  else []

/-- The request of a function code holds its own arguments. -/
def Carries (args : SendArgs) : Pdu → Prop
  | .modbusRequestFC1 startAddr quantity | .modbusRequestFC2 startAddr quantity
  | .modbusRequestFC3 startAddr quantity | .modbusRequestFC4 startAddr quantity =>
    startAddr = args.readAddress ∧ quantity = args.readCount
  | .modbusRequestFC5 outputAddress _ | .modbusRequestFC6 outputAddress _ =>
    outputAddress = args.writeAddress
  | .modbusRequestFC7 => True
  | .modbusRequestFC15 startAddr quantity _ _ | .modbusRequestFC16 startAddr quantity _ _ =>
    startAddr = args.writeAddress ∧ quantity = args.writeCount
  | .modbusRequestFC22 refAddr andMask orMask =>
    refAddr = args.writeAddress ∧ andMask = args.andMask ∧ orMask = args.orMask
  | .modbusRequestFC23 readStartAddr readQuantity writeStartAddr writeQuantity _ _ =>
    readStartAddr = args.readAddress ∧ readQuantity = args.readCount ∧
      writeStartAddr = args.writeAddress ∧ writeQuantity = args.writeCount
  | .modbusRequestFC43 _ _ => True
  | _ => False

/-! ### The PDU -/

section Select

variable {ε : Type} {fc : ℤ} {args : SendArgs}

/-- What is known of a PDU that `send_request` builds. -/
structure Builds (fc : ℤ) (args : SendArgs) (p : Pdu) : Prop where
  mem : fc ∈ requestCodes
  cls : p.cls = registryGet fc.toNat
  count : p.serializeCount = p.tail.length
  items : p.items = (.B, fc) :: requestItems fc args
  carries : Carries args p

open RequestFactory in
attribute [local simp] createFc1Req createFc2Req createFc3Req createFc4Req createFc5Req
  createFc6Req createFc7Req createFc16Req createFc22Req createFc23Req createFc43Req

theorem selectPdu_plain (h : fc ∈ [1, 2, 3, 4, 7, 16, 22, 23, 43]) :
    ¬ Refuses fc args ∧ ∃ p, selectPdu (ε := ε) fc args = .ok p ∧ Builds fc args p := by
  simp only [List.mem_cons, List.not_mem_nil, or_false] at h
  rcases h with rfl | rfl | rfl | rfl | rfl | rfl | rfl | rfl | rfl
  all_goals
    exact ⟨by simp [Refuses, requestCodes], _, rfl, by decide, rfl, rfl, rfl, by simp [Carries]⟩

theorem singleValue_cases (values : Values) :
    (valueList values = [] ∧ singleValue (ε := ε) values = .error (.illegalDataValue [])) ∨
      ∃ v rest, valueList values = v :: rest ∧ singleValue (ε := ε) values = .ok v := by
  rcases values with v | _ | ⟨v, rest⟩
  · exact .inr ⟨v, [], rfl, rfl⟩
  · exact .inl ⟨rfl, rfl⟩
  · exact .inr ⟨v, rest, rfl, rfl⟩

theorem selectPdu_single (hfc : fc = 5 ∨ fc = 6) {v : ℤ} {rest : List ℤ}
    (hlist : valueList args.values = v :: rest)
    (hvalue : singleValue (ε := ε) args.values = .ok v) :
    ∃ p, selectPdu (ε := ε) fc args = .ok p ∧ Builds fc args p := by
  have hitems : requestItems fc args = [(.H, args.writeAddress), (.H, v)] := by
    rcases hfc with rfl | rfl <;> simp [requestItems, hlist]
  rcases hfc with rfl | rfl
  · refine ⟨.modbusRequestFC5 args.writeAddress v, ?_, by decide, rfl, rfl, ?_, rfl⟩
    · simp [selectPdu, hvalue, Except.map]
    · rw [hitems]
      rfl
  · refine ⟨.modbusRequestFC6 args.writeAddress v, ?_, by decide, rfl, rfl, ?_, rfl⟩
    · simp [selectPdu, hvalue, Except.map]
    · rw [hitems]
      rfl

theorem selectPdu_coils (h : (args.writeCount + 7) / 8 ≤ (valueList args.values).length) :
    ∃ p, selectPdu (ε := ε) 15 args = .ok p ∧ Builds 15 args p := by
  refine ⟨.modbusRequestFC15 args.writeAddress args.writeCount ((args.writeCount + 7) / 8)
    ((valueList args.values).take ((args.writeCount + 7) / 8).toNat), ?_, by decide, rfl, rfl, rfl,
    rfl, rfl⟩
  exact if_pos h

/-- Arguments are refused, by a Modbus error except where the coils run out of values, or
the PDU of the function code is built from them. -/
theorem selectPdu_cases (fc : ℤ) (args : SendArgs) :
    (Refuses fc args ∧ ∃ e : Exc ε, selectPdu fc args = .error e ∧
      (e.isModbusBase = true ↔
        ¬ (fc = 15 ∧ (valueList args.values).length < (args.writeCount + 7) / 8))) ∨
    (¬ Refuses fc args ∧ ∃ p, selectPdu (ε := ε) fc args = .ok p ∧ Builds fc args p) := by
  by_cases hplain : fc ∈ [1, 2, 3, 4, 7, 16, 22, 23, 43]
  · exact .inr (selectPdu_plain hplain)
  by_cases hsingle : fc = 5 ∨ fc = 6
  · have hcoils : fc ≠ 15 := by omega
    rcases singleValue_cases (ε := ε) args.values with ⟨hnil, hv⟩ | ⟨v, rest, hcons, hv⟩
    · refine .inl ⟨.inr (.inl ⟨hsingle, hnil⟩), .illegalDataValue [], ?_, ?_⟩
      · rcases hsingle with rfl | rfl <;> simp [selectPdu, hv, Except.map]
      · simp [Exc.isModbusBase, hcoils]
    · refine .inr ⟨?_, selectPdu_single hsingle hcons hv⟩
      rcases hsingle with rfl | rfl <;> simp [Refuses, requestCodes, hcons]
  by_cases hcoils : fc = 15
  · subst hcoils
    rcases lt_or_ge ((valueList args.values).length : ℤ) ((args.writeCount + 7) / 8) with
      hshort | hle
    · refine .inl ⟨.inr (.inr ⟨rfl, hshort⟩), .index, ?_, by simp [Exc.isModbusBase, hshort]⟩
      exact if_neg (not_le.mpr hshort)
    · exact .inr ⟨by simp [Refuses, requestCodes, hle], selectPdu_coils hle⟩
  · have hmem : fc ∉ requestCodes := by
      simp only [requestCodes, List.mem_cons, List.not_mem_nil, or_false] at hplain ⊢
      omega
    refine .inl ⟨.inl hmem, .illegalFunction fc, ?_, by simp [Exc.isModbusBase, hcoils]⟩
    simp only [requestCodes, List.mem_cons, List.not_mem_nil, or_false, not_or] at hmem
    simp [selectPdu, hmem]

end Select

/-! ### The message -/

def messageItems (unitId fc : ℤ) (args : SendArgs) (c : ModbusClientSimulator) :
    List (Code × ℤ) :=
  let pduItems := (.B, fc) :: requestItems fc args
  [(.H, (c.nextTransId : ℤ)), (.H, 0), (.H, calcsize (pduItems.map Prod.fst) + 1), (.B, unitId)] ++
    pduItems

def Sendable (fragSize unitId fc : ℤ) (args : SendArgs) (c : ModbusClientSimulator) : Prop :=
  0 ≤ fragSize ∧ ItemsFit (messageItems unitId fc args c)

instance (fragSize unitId fc : ℤ) (args : SendArgs) (c : ModbusClientSimulator) :
    Decidable (Sendable fragSize unitId fc args c) := inferInstanceAs (Decidable (_ ∧ _))

theorem takeTransId_ne (c : ModbusClientSimulator) : c.takeTransId.2 ≠ c := by
  intro h
  have hnext : (c.nextTransId + 1) % transIdModulo = c.nextTransId :=
    congrArg ModbusClientSimulator.nextTransId h
  simp only [transIdModulo] at hnext
  omega

section Send

variable {ε σ : Type} {sock : SendSocket ε σ} {fragSize unitId fc : ℤ} {args : SendArgs}
  {c : ModbusClientSimulator} {p : Pdu}

def requestOf (unitId : ℤ) (c : ModbusClientSimulator) (p : Pdu) : ModbusTcpRequest :=
  ⟨⟨c.nextTransId, 0, calcsize (p.items.map Prod.fst) + 1, unitId⟩, p⟩

theorem sendRequest_of_builds (hs : selectPdu (ε := ε) fc args = .ok p) (hb : Builds fc args p)
    (s : σ) :
    sendRequest sock fragSize unitId fc args c s =
      ((transmit sock fragSize (requestOf unitId c p) s).1, c.takeTransId.2,
        (transmit sock fragSize (requestOf unitId c p) s).2) := by
  unfold sendRequest
  rw [hs]
  dsimp only
  rw [Pdu.len_eq_calcsize hb.count]
  rfl

theorem serialize_requestOf (unitId : ℤ) (c : ModbusClientSimulator) (hb : Builds fc args p) :
    (∃ message, (requestOf unitId c p).serialize = .ok message) ↔
      ItemsFit (messageItems unitId fc args c) := by
  have hpdu := Pdu.serialize_iff_itemsFit hb.count
  have hheader : (∃ h, (requestOf unitId c p).header.serialize = .ok h) ↔ ItemsFit
      [(.H, (c.nextTransId : ℤ)), (.H, 0), (.H, calcsize (p.items.map Prod.fst) + 1),
        (.B, unitId)] := by
    rw [← pack_iff_itemsFit]
    exact exists_congr fun _ => ModbusHeader.serialize_eq_ok
  unfold messageItems
  rw [← hb.items, itemsFit_append, ← hheader, ← hpdu]
  simp only [TcpAdu.serialize_eq_ok]
  constructor
  · rintro ⟨-, h, s, hh, hs, -⟩
    exact ⟨⟨h, hh⟩, s, hs⟩
  · rintro ⟨⟨h, hh⟩, s, hs⟩
    exact ⟨_, h, s, hh, hs, rfl⟩

theorem transmit_of_error {request : ModbusTcpRequest} {e : PacketError}
    (h : request.serialize = .error e) (s : σ) :
    transmit sock fragSize request s = (.error (.packet e), s) := by
  unfold transmit
  rw [h]

theorem transmit_of_ok {request : ModbusTcpRequest} {message : Bytes}
    (h : request.serialize = .ok message) (s : σ) :
    transmit sock fragSize request s = ModbusTcpStream.send sock fragSize false message s := by
  unfold transmit
  rw [h]

theorem ne_nil_of_serialize {request : ModbusTcpRequest} {message : Bytes}
    (h : request.serialize = .ok message) : message ≠ [] := by
  obtain ⟨hbytes, pbytes, hh, -, rfl⟩ := TcpAdu.serialize_eq_ok.mp h
  have hl := ModbusHeader.serialize_length hh
  rw [ModbusHeader.size_eq] at hl
  exact List.append_ne_nil_of_left_ne_nil (List.ne_nil_of_length_pos (by omega)) _

/-- A request that cannot be written down or cut up touches nothing. -/
theorem transmit_refused (sock : SendSocket ε σ) (hb : Builds fc args p)
    (h : ¬ Sendable fragSize unitId fc args c) (s : σ) : ∃ e, transmit sock fragSize (requestOf unitId c p) s = (.error (.packet e), s) := by
  have hitems := serialize_requestOf unitId c hb
  cases hm : (requestOf unitId c p).serialize with
  | error e => exact ⟨e, transmit_of_error hm s⟩
  | ok message =>
    have hf : ¬ 0 ≤ fragSize := fun hf => h ⟨hf, hitems.mp ⟨message, hm⟩⟩
    rw [transmit_of_ok hm]
    exact ModbusTcpStream.send_of_neg sock (not_le.mp hf) message s

theorem given_transmit (hb : Builds fc args p) (h : Sendable fragSize unitId fc args c) (s : σ) :
    (transmit sock.recorded fragSize (requestOf unitId c p) (s, [])).2.2 ≠ [] := by
  obtain ⟨message, hm⟩ := (serialize_requestOf unitId c hb).mpr h.2
  rw [transmit_of_ok hm]
  exact ModbusTcpStream.given_send sock h.1 (ne_nil_of_serialize hm) s

/-- A call that raises before a byte is given to the socket leaves the identifiers alone
exactly where its arguments are refused or can be sent. Between the two the identifier is
claimed for a message that is then not written. -/
theorem sendRequest_refused_iff (sock : SendSocket ε σ) (fragSize unitId fc : ℤ) (args : SendArgs)
    (c : ModbusClientSimulator) (s : σ) :
    (∀ e c' s', sendRequest sock.recorded fragSize unitId fc args c (s, []) = (.error e, c', s') →
      s'.2 = [] → c' = c) ↔
    Refuses fc args ∨ Sendable fragSize unitId fc args c := by
  rcases selectPdu_cases (ε := ε) fc args with ⟨hr, e, he, -⟩ | ⟨hr, p, hp, hb⟩
  · refine ⟨fun _ => .inl hr, fun _ e' c' s' h _ => ?_⟩
    unfold sendRequest at h
    rw [he] at h
    cases h
    rfl
  rw [sendRequest_of_builds hp hb]
  constructor
  · intro h
    by_contra hno
    obtain ⟨e, ht⟩ := transmit_refused sock.recorded hb (fun hs => hno (.inr hs)) (s, [])
    rw [ht] at h
    exact takeTransId_ne c (h _ _ _ rfl rfl)
  · rintro (hrefused | hs) e c' s' h hnil
    · exact absurd hrefused hr
    · simp only [Prod.mk.injEq] at h
      obtain ⟨-, -, rfl⟩ := h
      exact (given_transmit hb hs s hnil).elim

/-- Seventy thousand registers do not fit the count field: the reply to the request before
is no longer matched, and one identifier is gone. -/
theorem sendRequest_spends_identifier :
    (∃ e, sendRequest (SendSocket.accepting Empty).recorded 0 1 3 { readCount := 70000 }
      ⟨1, some 0⟩ ([], []) = (.error e, ⟨2, some 1⟩, ([], []))) ∧
    ¬ ∀ e c' s', sendRequest (SendSocket.accepting Empty).recorded 0 1 3 { readCount := 70000 }
      ⟨1, some 0⟩ ([], []) = (.error e, c', s') → s'.2 = [] → c' = ⟨1, some 0⟩ := by
  refine ⟨⟨_, rfl⟩, fun h => ?_⟩
  have hsame := h _ _ _ rfl rfl
  exact absurd hsame (by decide)

/-! ### Sent or refused -/

theorem requestCodes_class : ∀ fc ∈ requestCodes, registryGet fc.toNat ∈ registry ∧
    (registryGet fc.toNat).isRequest ∧ ((registryGet fc.toNat).layout.fc : ℤ) = fc := by decide

theorem deserialize_requestOf (hb : Builds fc args p) {message : Bytes}
    (h : (requestOf unitId c p).serialize = .ok message) :
    Measured message ∧ ModbusTcpRequest.deserialize message = .ok (requestOf unitId c p) := by
  have hlen := Pdu.len_eq_calcsize hb.count
  obtain ⟨hclass, hrequest, -⟩ := requestCodes_class fc hb.mem
  refine ⟨measured_of_serialize hlen rfl h, TcpAdu.request_deserialize_eq_ok.mpr ?_⟩
  obtain ⟨hbytes, pbytes, hh, hp, rfl⟩ := TcpAdu.serialize_eq_ok.mp h
  have hsize := Except.ok.inj ((Pdu.len_of_serialize hp).symm.trans hlen)
  have hreadable : FrameKind.request.Readable p := .inl (by rw [hb.cls]; exact ⟨hclass, hrequest⟩)
  exact TcpAdu.deserialize_serialize hreadable hh hp (by rw [hsize]; rfl)

/-- One frame on the wire, read as the request of the function code with its arguments, or
a Modbus error and nothing there. -/
def SendsOrRefuses (sock : SendSocket ε σ) (fc : ℤ) (args : SendArgs) (s : σ) :
    Except (Exc ε) Unit × ModbusClientSimulator × σ → Prop
  | (.ok (), _, s') => ∃ message request, sock.accepted s' = sock.accepted s ++ message ∧
      Measured message ∧ ModbusTcpRequest.deserialize message = .ok request ∧
      (request.pdu.cls ∈ registry ∧ request.pdu.cls.isRequest ∧
        (request.pdu.cls.layout.fc : ℤ) = fc) ∧
      Carries args request.pdu
  | (.error e, _, s') => e.isModbusBase = true ∧ sock.accepted s' = sock.accepted s

/-- Over a socket that takes every write whole, a call sends or refuses, except that a write
of coils given fewer values than its count needs bytes raises an error of another kind. -/
theorem sendRequest_sends_or_refuses_iff (hsock : sock.AcceptsAll) (fragSize unitId fc : ℤ)
    (args : SendArgs) (c : ModbusClientSimulator) (s : σ) :
    SendsOrRefuses sock fc args s (sendRequest sock fragSize unitId fc args c s) ↔
      ¬ (fc = 15 ∧ (valueList args.values).length < (args.writeCount + 7) / 8) := by
  rcases selectPdu_cases (ε := ε) fc args with ⟨-, e, he, hbase⟩ | ⟨hr, p, hp, hb⟩
  · have hcall : sendRequest sock fragSize unitId fc args c s = (.error e, c, s) := by
      unfold sendRequest
      rw [he]
    rw [hcall, ← hbase]
    exact and_iff_left rfl
  refine iff_of_true ?_ fun h => hr (.inr (.inr h))
  by_cases hs : Sendable fragSize unitId fc args c
  · obtain ⟨message, hm⟩ := (serialize_requestOf unitId c hb).mpr hs.2
    obtain ⟨s', hsend, hacc⟩ := ModbusTcpStream.send_whole hsock hs.1 message s
    obtain ⟨hmeasured, hread⟩ := deserialize_requestOf hb hm
    have hclass := requestCodes_class fc hb.mem
    rw [← hb.cls] at hclass
    rw [sendRequest_of_builds hp hb, transmit_of_ok hm, hsend]
    exact ⟨message, _, hacc, hmeasured, hread, hclass, hb.carries⟩
  · obtain ⟨e, ht⟩ := transmit_refused sock hb hs s
    rw [sendRequest_of_builds hp hb, ht]
    exact ⟨rfl, rfl⟩

theorem sendRequest_sends_coils :
    SendsOrRefuses (SendSocket.accepting Empty) 15
      { writeCount := 9, values := .iterable [255, 1] } []
      (sendRequest (SendSocket.accepting Empty) 0 1 15
        { writeCount := 9, values := .iterable [255, 1] } {} []) :=
  (sendRequest_sends_or_refuses_iff (fun s d => ⟨s ++ d, rfl⟩) 0 1 15 _ {} []).mpr (by decide)

/-- Nine coils in the one value that is the default. -/
theorem sendRequest_runs_out :
    sendRequest (SendSocket.accepting Empty) 0 1 15 { writeCount := 9 } {} [] =
      (.error .index, {}, []) ∧
    ¬ SendsOrRefuses (SendSocket.accepting Empty) 15 { writeCount := 9 } []
      (sendRequest (SendSocket.accepting Empty) 0 1 15 { writeCount := 9 } {} []) := by
  have hcall : sendRequest (SendSocket.accepting Empty) 0 1 15 { writeCount := 9 } {} [] =
      (.error .index, {}, []) := rfl
  refine ⟨hcall, ?_⟩
  rw [hcall]
  exact fun h => nomatch h.1

end Send

end ModbusClientSimulator

end Pyomb
