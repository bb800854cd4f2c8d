import Pyomb.Transport.Stream

/-! The client simulator: building a request, claiming a transaction identifier for it
and sending it, and waiting for the response that carries the identifier. -/

namespace Pyomb

/-- The `values` argument: a single integer, or an iterable of them. -/
inductive Values where
  | single (value : ℤ)
  | iterable (values : List ℤ)
  deriving DecidableEq, Repr

structure SendArgs where
  readAddress : ℤ := 0
  readCount : ℤ := 1
  writeAddress : ℤ := 0
  writeCount : ℤ := 1
  values : Values := .iterable [0]
  andMask : ℤ := 0xFFFF
  orMask : ℤ := 0
  deriving DecidableEq, Repr

namespace RequestFactory

variable {ε : Type}

def createFc1Req (readAddress readCount : ℤ) : Pdu := .modbusRequestFC1 readAddress readCount

def createFc2Req (readAddress readCount : ℤ) : Pdu := .modbusRequestFC2 readAddress readCount

def createFc3Req (readAddress readCount : ℤ) : Pdu := .modbusRequestFC3 readAddress readCount

def createFc4Req (readAddress readCount : ℤ) : Pdu := .modbusRequestFC4 readAddress readCount

def createFc5Req (writeAddress value : ℤ) : Pdu := .modbusRequestFC5 writeAddress value

def createFc6Req (writeAddress value : ℤ) : Pdu := .modbusRequestFC6 writeAddress value

def createFc7Req : Pdu := .modbusRequestFC7

/-- One value to the byte; there is no `values[i]` past the end. -/
def createFc15Req (writeAddress writeCount : ℤ) (values : List ℤ) : Except (Exc ε) Pdu :=
  let byteCount := (writeCount + 7) / 8
  if byteCount ≤ values.length then
    .ok (.modbusRequestFC15 writeAddress writeCount byteCount (values.take byteCount.toNat))
  else .error .index

def createFc16Req (writeAddress writeCount : ℤ) (values : List ℤ) : Pdu :=
  .modbusRequestFC16 writeAddress writeCount (2 * writeCount) values

def createFc22Req (writeAddress andMask orMask : ℤ) : Pdu :=
  .modbusRequestFC22 writeAddress andMask orMask

def createFc23Req (readAddr readCount writeAddr writeCount : ℤ) (writeValues : List ℤ) : Pdu :=
  .modbusRequestFC23 readAddr readCount writeAddr writeCount (2 * writeCount) writeValues

def createFc43Req (meiType : ℤ) (meiData : List ℤ) : Pdu := .modbusRequestFC43 meiType meiData

end RequestFactory

/-- The identifier the next request will carry, and the one in flight. -/
structure ModbusClientSimulator where
  nextTransId : ℕ := 0
  pendingTransId : Option ℕ := none
  deriving DecidableEq, Repr

namespace ModbusClientSimulator

variable {ε σ : Type}

def transIdModulo : ℕ := 0x10000

def maxStaleResponses : ℕ := 8

def takeTransId (c : ModbusClientSimulator) : ℕ × ModbusClientSimulator :=
  (c.nextTransId, ⟨(c.nextTransId + 1) % transIdModulo, some c.nextTransId⟩)

def singleValue : Values → Except (Exc ε) ℤ
  | .single value => .ok value
  | .iterable [] => .error (.illegalDataValue [])
  | .iterable (value :: _) => .ok value

def valueList : Values → List ℤ
  | .single value => [value]
  | .iterable values => values

/-- The PDU `send_request` builds, or what it raises before it claims an identifier. -/
def selectPdu (fc : ℤ) (args : SendArgs) : Except (Exc ε) Pdu :=
  if fc = 1 then .ok (RequestFactory.createFc1Req args.readAddress args.readCount)
  else if fc = 2 then .ok (RequestFactory.createFc2Req args.readAddress args.readCount)
  else if fc = 3 then .ok (RequestFactory.createFc3Req args.readAddress args.readCount)
  else if fc = 4 then .ok (RequestFactory.createFc4Req args.readAddress args.readCount)
  else if fc = 5 then (singleValue args.values).map (RequestFactory.createFc5Req args.writeAddress)
  else if fc = 6 then (singleValue args.values).map (RequestFactory.createFc6Req args.writeAddress)
  else if fc = 7 then .ok RequestFactory.createFc7Req
  else if fc = 15 then
    RequestFactory.createFc15Req args.writeAddress args.writeCount (valueList args.values)
  else if fc = 16 then
    .ok (RequestFactory.createFc16Req args.writeAddress args.writeCount (valueList args.values))
  else if fc = 22 then
    .ok (RequestFactory.createFc22Req args.writeAddress args.andMask args.orMask)
  else if fc = 23 then
    .ok (RequestFactory.createFc23Req args.readAddress args.readCount args.writeAddress
      args.writeCount (valueList args.values))
  else if fc = 43 then .ok (RequestFactory.createFc43Req 0x0E [1, 2, 3, 4, 5, 6, 7, 8, 9, 10])
  else .error (.illegalFunction fc)

/-- `sender.send(request.serialize())`. -/
def transmit (sock : SendSocket ε σ) (fragSize : ℤ) (request : ModbusTcpRequest) (s : σ) :
    Except (Exc ε) Unit × σ :=
  match request.serialize with
  | .error e => (.error (.packet e), s)
  | .ok message => ModbusTcpStream.send sock fragSize false message s

/-- `send_request`, with the client it leaves. The identifier is claimed once the PDU is
built, ahead of the length, the encoding and the sending. -/
def sendRequest (sock : SendSocket ε σ) (fragSize unitId : ℤ) (fc : ℤ) (args : SendArgs)
    (c : ModbusClientSimulator) (s : σ) : Except (Exc ε) Unit × ModbusClientSimulator × σ :=
  match selectPdu fc args with
  | .error e => (.error e, c, s)
  | .ok pdu =>
    match pdu.len with
    | .error e => (.error (.struct e), c.takeTransId.2, s)
    | .ok length =>
      let request := ⟨⟨c.takeTransId.1, 0, length + 1, unitId⟩, pdu⟩
      let sent := transmit sock fragSize request s
      (sent.1, c.takeTransId.2, sent.2)

/-- The loop of `wait_response`, with the number of frames it may still read. `none` in the
place of a response is the `(None, None)` of a closed connection. -/
def waitLoop (sock : Source ε σ) : ℕ → ModbusClientSimulator → σ →
    Option (Except (Exc ε) (Option ModbusTcpResponse) × ModbusClientSimulator × σ)
  | 0, c, s =>
    some (.error (.network ("Received " ++ toString (maxStaleResponses + 1) ++
      " consecutive responses that do not answer transaction " ++
      (c.pendingTransId.map toString).getD "None") none), c, s)
  | n + 1, c, s =>
    match ModbusTcpStream.receive sock 0 s with
    | none => none
    | some (.error e, s') => some (.error e, c, s')
    | some (.ok [], s') => some (.ok none, c, s')
    | some (.ok (b :: data), s') =>
      match ModbusTcpResponse.deserialize (b :: data) with
      | .error e => some (.error (.packet e), c, s')
      | .ok response =>
        match c.pendingTransId with
        | none => some (.ok (some response), c, s')
        | some transId =>
          if response.header.transId = transId then
            some (.ok (some response), { c with pendingTransId := none }, s')
          else waitLoop sock n c s'

def waitResponse (sock : Source ε σ) (c : ModbusClientSimulator) (s : σ) :
    Option (Except (Exc ε) (Option ModbusTcpResponse) × ModbusClientSimulator × σ) :=
  waitLoop sock (maxStaleResponses + 1) c s

theorem sendRequest_client {sock : SendSocket ε σ} {fragSize unitId fc : ℤ} {args : SendArgs}
    {c c' : ModbusClientSimulator} {s s' : σ} {r : Except (Exc ε) Unit}
    (h : sendRequest sock fragSize unitId fc args c s = (r, c', s')) :
    c' = c ∨ c' = c.takeTransId.2 := by
  unfold sendRequest at h
  split at h
  · simp only [Prod.mk.injEq] at h
    exact .inl h.2.1.symm
  refine .inr ?_
  split at h <;> simp only [Prod.mk.injEq] at h <;> exact h.2.1.symm

end ModbusClientSimulator

/-! ### Frames the client accepts -/

/-- A response frame the client can read is a frame of the stream. -/
def responseFrame {data : Bytes} {response : ModbusTcpResponse}
    (h : ModbusTcpResponse.deserialize data = .ok response) : TcpFrame where
  bytes := data
  header_le := by
    obtain ⟨hd, -⟩ := TcpAdu.readHeader_eq_ok.mp (TcpAdu.deserialize_eq_ok.mp h).1
    have hl := ModbusHeader.exists_deserialize.mp ⟨_, hd⟩
    rw [List.length_take] at hl
    exact min_eq_left_iff.mp hl
  length_eq := by
    obtain ⟨hd, hlen⟩ := TcpAdu.readHeader_eq_ok.mp (TcpAdu.deserialize_eq_ok.mp h).1
    have hl := length_of_deserialize hd
    rw [mbapLength_take_size] at hl
    have := ModbusHeader.size_eq
    omega

end Pyomb
