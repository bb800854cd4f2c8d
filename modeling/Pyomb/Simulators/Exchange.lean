import Pyomb.Simulators.Answers
import Pyomb.Simulators.Correlation
import Pyomb.Simulators.Requests

/-! The two simulators at the ends of one connection. The client sends requests, whenever it
likes and without having to wait for each; the server takes the next frame off the
connection, whenever it likes, and answers it or drops the client; the client waits. Every write
is taken whole and no read raises. Requests and answers stay in the order in which they were
sent, so what is still on the connection is known in every state, and an answer that is returned
is the last thing that was on it. -/

namespace Pyomb

open ModbusClientSimulator ModbusServerSimulator

/-! ### One request -/

/-- The server's answer to a request: its identifiers, and the response it selects or the
exception of a server set to fail. -/
def Answers (request : ModbusTcpRequest) (response : ModbusTcpResponse) : Prop :=
  response.header.transId = request.header.transId ∧
    response.header.protId = request.header.protId ∧
    response.header.unitId = request.header.unitId ∧
    (response.pdu = selectResponse request.pdu ∨
      response.pdu = ResponseFactory.createErrRsp request.pdu.fc)

/-- A request as `send_request` builds them, and the message it goes out in. -/
structure Asked where
  request : ModbusTcpRequest
  message : Bytes
  cls : request.pdu.cls ∈ answeredClasses
  writes : request.serialize = .ok message
  reads : ModbusTcpRequest.deserialize message = .ok request

/-- The message is a frame of the stream. -/
def Asked.frame (q : Asked) : TcpFrame where
  bytes := q.message
  header_le := by
    obtain ⟨hb, p, hh, -, heq⟩ := TcpAdu.serialize_eq_ok.mp q.writes
    have hl := ModbusHeader.serialize_length hh
    rw [heq, List.length_append, hl]
    exact Nat.le_add_right _ _
  length_eq := by
    obtain ⟨hd, hlen⟩ := TcpAdu.readHeader_eq_ok.mp
      (TcpAdu.deserialize_eq_ok.mp (TcpAdu.request_deserialize_eq_ok.mp q.reads)).1
    have hl := length_of_deserialize hd
    rw [mbapLength_take_size] at hl
    have := ModbusHeader.size_eq
    omega

section Client

variable {ε σ : Type} {sock : SendSocket ε σ}

theorem answered_of_builds {fc : ℤ} {args : SendArgs} {p : Pdu} (h : Builds fc args p) :
    p.cls ∈ answeredClasses := by
  have hall : ∀ fc ∈ requestCodes, registryGet fc.toNat ∈ answeredClasses := by decide
  rw [h.cls]
  exact hall fc h.mem

/-- A call of `send_request` raises and writes nothing, with the identifier claimed or not, or
it writes one request under the next identifier. -/
theorem sendRequest_cases (hsock : sock.AcceptsAll) (fragSize unitId fc : ℤ) (args : SendArgs)
    (c : ModbusClientSimulator) (s : σ) :
    (∃ e c' s', sendRequest sock fragSize unitId fc args c s = (.error e, c', s') ∧
      (Refuses fc args ∨ ¬ Sendable fragSize unitId fc args c) ∧
      (c' = c ∨ c' = c.takeTransId.2) ∧ sock.accepted s' = sock.accepted s) ∨
    ∃ (q : Asked) (s' : σ), ¬ Refuses fc args ∧ Sendable fragSize unitId fc args c ∧
      selectPdu (ε := ε) fc args = .ok q.request.pdu ∧ q.request = requestOf unitId c q.request.pdu ∧
      sendRequest sock fragSize unitId fc args c s = (.ok (), c.takeTransId.2, s') ∧
      sock.accepted s' = sock.accepted s ++ q.message := by
  rcases selectPdu_cases (ε := ε) fc args with ⟨hr, e, he, -⟩ | ⟨hr, p, hp, hb⟩
  · refine .inl ⟨e, c, s, ?_, .inl hr, .inl rfl, rfl⟩
    unfold sendRequest
    rw [he]
  by_cases hs : Sendable fragSize unitId fc args c
  · obtain ⟨message, hm⟩ := (serialize_requestOf unitId c hb).mpr hs.2
    obtain ⟨s', hsend, hacc⟩ := ModbusTcpStream.send_whole hsock hs.1 message s
    obtain ⟨-, hread⟩ := deserialize_requestOf hb hm
    refine .inr ⟨⟨requestOf unitId c p, message, answered_of_builds hb, hm, hread⟩, s', hr, hs, hp,
      rfl, ?_, hacc⟩
    rw [sendRequest_of_builds hp hb, transmit_of_ok hm, hsend]
  · obtain ⟨e, ht⟩ := transmit_refused sock hb hs s
    refine .inl ⟨.packet e, c.takeTransId.2, s, ?_, .inr hs, .inr rfl, rfl⟩
    rw [sendRequest_of_builds hp hb, ht]

end Client

section Server

variable {ε σ : Type} {sock : SendSocket ε σ}

/-- A request in a frame leaves room in it for an answer up to its own length. -/
theorem Asked.room (q : Asked) {t : Bytes} (ht : q.request.pdu.serialize = .ok t) :
    t.length + 1 < 0x10000 := by
  obtain ⟨hb, t', hh, ht', hmessage⟩ := TcpAdu.serialize_eq_ok.mp q.writes
  cases ht.symm.trans ht'
  obtain ⟨fc, rest, rfl, -⟩ := ModbusPduParser.serialize_head ht
  have hread := TcpAdu.readHeader_eq_ok.mp
    (TcpAdu.deserialize_eq_ok.mp (TcpAdu.request_deserialize_eq_ok.mp q.reads)).1
  exact length_of_readable hread
    (by rw [hmessage]; exact List.drop_left' (ModbusHeader.serialize_length hh))

theorem onData_of_request (fail : Bool) {data : Bytes} {request : ModbusTcpRequest}
    (h : ModbusTcpRequest.deserialize data = .ok request) (s : σ) :
    onData { fail } sock data s =
      ((answer sock request.header (if fail then ResponseFactory.createErrRsp request.pdu.fc
          else selectResponse request.pdu) s).1.mapError asDeviceFailure,
        (answer sock request.header (if fail then ResponseFactory.createErrRsp request.pdu.fc
          else selectResponse request.pdu) s).2) := by
  unfold onData
  rw [h]
  cases fail <;> rfl

/-- The server's look at a request of the client: it writes one answer, or it raises and writes
nothing, where the request asks for more than an answer can hold. -/
theorem onData_asked (hsock : sock.AcceptsAll) (fail : Bool) (q : Asked) (s : σ) :
    (∃ s' frame response, onData { fail } sock q.message s = (.ok (), s') ∧
      sock.accepted s' = sock.accepted s ++ frame ∧
      ModbusTcpResponse.deserialize frame = .ok response ∧ Answers q.request response ∧
      (fail = true ∨ ¬ AsksTooMuch q.request.pdu) ∧
      (fail = false → response.pdu = selectResponse q.request.pdu)) ∨
    ∃ e, onData { fail } sock q.message s = (.error e, s) ∧ fail = false ∧
      AsksTooMuch q.request.pdu := by
  obtain ⟨hb, t, hh, ht, -⟩ := TcpAdu.serialize_eq_ok.mp q.writes
  obtain ⟨h0, h128⟩ := fc_of_answered q.cls
  have hroom := q.room ht
  rw [onData_of_request fail q.reads]
  cases fail with
  | true =>
    obtain ⟨t', ht', hlen⟩ := serialize_errRsp 4 h0 h128 (by decide)
    obtain ⟨s', frame, hans, hs', hresp⟩ := answer_spec hsock hh ht' (by omega)
      (.inr (.inl ⟨_, _, rfl, h0, by omega⟩)) s
    refine .inl ⟨s', frame, _, ?_, hs', hresp, ⟨rfl, rfl, rfl, .inr rfl⟩, .inl rfl, nofun⟩
    rw [if_pos rfl, ResponseFactory.createErrRsp, ResponseFactory.slaveDeviceFailure, hans]
    rfl
  | false =>
    rw [if_neg Bool.false_ne_true]
    by_cases hask : AsksTooMuch q.request.pdu
    · obtain ⟨e, hans⟩ := answer_error sock q.request.header (not_serialize_selectResponse hask) s
      refine .inr ⟨asDeviceFailure e, ?_, rfl, hask⟩
      rw [hans]
      rfl
    · obtain ⟨t', ht', hlen⟩ := serialize_selectResponse ht h0 h128 hask
      obtain ⟨s', frame, hans, hs', hresp⟩ := answer_spec hsock hh ht' (by omega)
        (responseObject_selectResponse h0 h128) s
      refine .inl ⟨s', frame, _, ?_, hs', hresp, ⟨rfl, rfl, rfl, .inl rfl⟩, .inr hask, fun _ => rfl⟩
      rw [hans]
      rfl

end Server

/-! ### The connection -/

def asking (requests : List Asked) : Bytes := (requests.map Asked.message).flatten

/-- The client, the server's flag, the bytes that are under way in each direction, and whether
the server has dropped the client; beside them how many identifiers have been claimed, the
requests that have gone out, each with the number of its identifier, and the bytes the client
has read. -/
structure Exchange where
  client : ModbusClientSimulator := {}
  fail : Bool := false
  up : Bytes := []
  down : Bytes := []
  closed : Bool := false
  claimed : ℕ := 0
  asked : List (ℕ × ModbusTcpRequest) := []
  got : Bytes := []

namespace Exchange

/-- What happens on the connection: a call of `send_request`, which returns or raises, a look
of the server at it, a call of `wait_response` with its result, or the flag set. -/
inductive Move where
  | send (fragSize unitId fc : ℤ) (args : SendArgs)
  | refuse (fragSize unitId fc : ℤ) (args : SendArgs)
  | look
  | wait (r : Except (Exc Empty) (Option ModbusTcpResponse))
  | setFail

inductive Step : Exchange → Move → Exchange → Prop
  /-- `send_request` raises. -/
  | refuse {e : Exchange} {ε σ : Type} {sock : SendSocket ε σ} {fragSize unitId fc : ℤ}
      {args : SendArgs} {err : Exc ε} {c' : ModbusClientSimulator} {s s' : σ} {message : Bytes}
      (hsock : sock.AcceptsAll)
      (h : sendRequest sock fragSize unitId fc args e.client s = (.error err, c', s'))
      (hup : sock.accepted s' = sock.accepted s ++ message) :
      Step e (.refuse fragSize unitId fc args) { e with
        client := c'
        up := e.up ++ message
        claimed := if c' = e.client then e.claimed else e.claimed + 1 }
  /-- `send_request` returns. -/
  | send {e : Exchange} {ε σ : Type} {sock : SendSocket ε σ} {fragSize unitId fc : ℤ}
      {args : SendArgs} {c' : ModbusClientSimulator} {s s' : σ} {message : Bytes} {p : Pdu}
      (hsock : sock.AcceptsAll)
      (h : sendRequest sock fragSize unitId fc args e.client s = (.ok (), c', s'))
      (hp : selectPdu (ε := ε) fc args = .ok p)
      (hup : sock.accepted s' = sock.accepted s ++ message) :
      Step e (.send fragSize unitId fc args) { e with
        client := c'
        up := e.up ++ message
        claimed := e.claimed + 1
        asked := e.asked ++ [(e.claimed, requestOf unitId e.client p)] }
  | setFail {e : Exchange} (fail : Bool) : Step e .setFail { e with fail }
  /-- The server takes a frame off the connection and answers it. -/
  | serve {e : Exchange} {σ ε τ : Type} {conn : Source Empty σ} {sock : SendSocket ε τ}
      {fragSize : ℤ} {s s' : σ} {t t' : τ} {data frame : Bytes} (hsock : sock.AcceptsAll)
      (hopen : e.closed = false) (hs : conn.unread s = e.up) (hready : e.up ≠ [])
      (hr : ModbusTcpStream.receive conn fragSize s = some (.ok data, s')) (hdata : data ≠ [])
      (h : onData { fail := e.fail } sock data t = (.ok (), t'))
      (hdown : sock.accepted t' = sock.accepted t ++ frame) :
      Step e .look { e with up := conn.unread s', down := e.down ++ frame }
  /-- It takes one, raises over it, and forgets the client. -/
  | drop {e : Exchange} {σ ε τ : Type} {conn : Source Empty σ} {sock : SendSocket ε τ}
      {fragSize : ℤ} {s s' : σ} {t t' : τ} {data frame : Bytes} {err : Exc ε}
      (hsock : sock.AcceptsAll) (hopen : e.closed = false) (hs : conn.unread s = e.up)
      (hready : e.up ≠ [])
      (hr : ModbusTcpStream.receive conn fragSize s = some (.ok data, s')) (hdata : data ≠ [])
      (h : onData { fail := e.fail } sock data t = (.error err, t'))
      (hdown : sock.accepted t' = sock.accepted t ++ frame) :
      Step e .look { e with up := conn.unread s', down := e.down ++ frame, closed := true }
  /-- It finds no frame there, and forgets the client. -/
  | lose {e : Exchange} {σ : Type} {conn : Source Empty σ} {fragSize : ℤ} {s s' : σ}
      {r : Except (Exc Empty) Bytes} (hopen : e.closed = false) (hs : conn.unread s = e.up)
      (hready : e.up ≠ []) (hr : ModbusTcpStream.receive conn fragSize s = some (r, s'))
      (hnone : ∀ data, r = .ok data → data = []) :
      Step e .look { e with up := conn.unread s', closed := true }
  /-- `wait_response`, which finds the connection closed only where it is. -/
  | wait {e : Exchange} {σ : Type} {sock : Source Empty σ}
      {r : Except (Exc Empty) (Option ModbusTcpResponse)} {c' : ModbusClientSimulator} {s s' : σ}
      (hs : sock.unread s = e.down) (h : waitResponse sock e.client s = some (r, c', s'))
      (hclosed : r = .ok none → e.closed = true) :
      Step e (.wait r) { e with
        client := c'
        down := sock.unread s'
        got := e.got ++ e.down.take (e.down.length - (sock.unread s').length) }

def Reachable (e : Exchange) : Prop :=
  Relation.ReflTransGen (fun e e' => ∃ move, Step e move e') {} e

/-- The reply is the server's answer to the request of that number. -/
def Answered (x : ℕ × Asked) (q : Reply) : Prop :=
  q.answers = x.1 ∧ Answers x.2.request q.response

/-- Where the requests that have gone out are, in the order in which they did: answered and
the answer read, answered and the answer on its way, and still to be taken by the server. It
closes the connection only over a request that asks for too much. -/
structure Transit (e : Exchange) (past flying waiting : List (ℕ × Asked))
    (replies : List Reply) : Prop where
  next : e.client.nextTransId = e.claimed % transIdModulo
  pending : ∀ transId, e.client.pendingTransId = some transId →
    0 < e.claimed ∧ transId = (e.claimed - 1) % transIdModulo
  asked : e.asked = (past ++ flying ++ waiting).map fun x => (x.1, x.2.request)
  ordered : ((past ++ flying ++ waiting).map Prod.fst).Pairwise (· < ·)
  numbered : ∀ x ∈ past ++ flying ++ waiting, x.1 < e.claimed ∧
    x.2.request.header.transId = (x.1 % transIdModulo : ℕ)
  up : e.closed = false → e.up = asking (waiting.map Prod.snd)
  got : ∃ read, e.got = wire read ∧ List.Forall₂ Answered past read
  down : e.down = wire replies
  answers : List.Forall₂ Answered flying replies
  closed : e.closed = true → ∃ x rest, waiting = x :: rest ∧ AsksTooMuch x.2.request.pdu

theorem Transit.init : Transit {} [] [] [] [] where
  next := rfl
  pending := nofun
  asked := rfl
  ordered := .nil
  numbered := by simp
  up _ := rfl
  got := ⟨[], rfl, .nil⟩
  down := rfl
  answers := .nil
  closed := nofun

/-- What waiting leaves of replies back to back is the end of them. -/
theorem waitLoop_leaves {σ : Type} (sock : Source Empty σ) (n : ℕ) {c c' : ModbusClientSimulator}
    {replies : List Reply} {s s' : σ} {r : Except (Exc Empty) (Option ModbusTcpResponse)}
    (hs : sock.unread s = wire replies) (h : waitLoop sock n c s = some (r, c', s')) :
    ∃ k, sock.unread s' = wire (replies.drop k) := by
  cases hp : c.pendingTransId with
  | some transId =>
    rcases waitLoop_replies sock hp n hs with ⟨earlier, q, later, s₁, rfl, -, -, -, hw, hs₁⟩ |
      ⟨msg, s₁, -, -, hw, hs₁⟩ | ⟨s₁, -, -, hw, hs₁⟩ <;> cases hw.symm.trans h
    · refine ⟨earlier.length + 1, ?_⟩
      rw [hs₁, List.drop_append, List.drop_of_length_le (Nat.le_succ _), Nat.add_sub_cancel_left]
      rfl
    · exact ⟨n, hs₁⟩
    · exact ⟨replies.length, by rw [hs₁, List.drop_length]; rfl⟩
  | none =>
    rcases n with _ | n
    · cases h
      exact ⟨0, hs⟩
    rcases replies with _ | ⟨q, replies⟩
    · obtain ⟨s₁, hr, hs₁⟩ := ModbusTcpStream.receive_nil sock (le_refl 0) hs
      simp only [waitLoop, hr] at h
      cases h
      exact ⟨0, hs₁⟩
    · obtain ⟨s₁, hr, hs₁⟩ := ModbusTcpStream.receive_frame sock (le_refl 0) (responseFrame q.reads)
        (show _ = (responseFrame q.reads).bytes ++ wire replies from
          hs.trans (by simp [wire, responseFrame]))
      obtain ⟨b, data, hframe⟩ := List.exists_cons_of_ne_nil (responseFrame q.reads).ne_nil
      have hreads := q.reads
      rw [show q.frame = b :: data from hframe] at hreads
      simp only [waitLoop, hr, hframe, hreads, hp] at h
      cases h
      exact ⟨1, hs₁⟩

variable {e e' : Exchange} {past flying waiting : List (ℕ × Asked)} {replies : List Reply}

theorem Transit.numbered_succ (h : Transit e past flying waiting replies) :
    ∀ x ∈ past ++ flying ++ waiting, x.1 < e.claimed + 1 ∧
      x.2.request.header.transId = (x.1 % transIdModulo : ℕ) :=
  fun x hx => ⟨(h.numbered x hx).1.trans (Nat.lt_succ_self _), (h.numbered x hx).2⟩

theorem Transit.claim (h : Transit e past flying waiting replies) :
    e.client.takeTransId.2.nextTransId = (e.claimed + 1) % transIdModulo ∧
      ∀ transId, e.client.takeTransId.2.pendingTransId = some transId →
        0 < e.claimed + 1 ∧ transId = (e.claimed + 1 - 1) % transIdModulo := by
  constructor
  · show (e.client.nextTransId + 1) % transIdModulo = _
    rw [h.next, Nat.mod_add_mod]
  · rintro transId hid
    obtain rfl := Option.some.inj hid
    exact ⟨Nat.succ_pos _, h.next⟩

theorem asking_append (qs rs : List Asked) : asking (qs ++ rs) = asking qs ++ asking rs := by
  rw [asking, List.map_append, List.flatten_append]
  rfl

theorem Transit.refuse (h : Transit e past flying waiting replies) {ε σ : Type}
    {sock : SendSocket ε σ} {fragSize unitId fc : ℤ} {args : SendArgs} {err : Exc ε}
    {c' : ModbusClientSimulator} {s s' : σ} {message : Bytes} (hsock : sock.AcceptsAll)
    (hsend : sendRequest sock fragSize unitId fc args e.client s = (.error err, c', s'))
    (hup : sock.accepted s' = sock.accepted s ++ message) :
    Transit { e with
      client := c'
      up := e.up ++ message
      claimed := if c' = e.client then e.claimed else e.claimed + 1 }
      past flying waiting replies := by
  rcases sendRequest_cases hsock fragSize unitId fc args e.client s with
    ⟨err', c₁, s₁, heq, -, hc, hacc⟩ | ⟨q, s₁, -, -, -, -, heq, -⟩ <;> cases hsend.symm.trans heq
  obtain rfl : message = [] := by
    rw [hacc] at hup
    simpa using hup
  rw [List.append_nil]
  by_cases hsame : c' = e.client
  · subst hsame
    rw [if_pos rfl]
    exact ⟨h.next, h.pending, h.asked, h.ordered, h.numbered, h.up, h.got, h.down,
      h.answers, h.closed⟩
  · obtain rfl := hc.resolve_left hsame
    rw [if_neg hsame]
    exact ⟨h.claim.1, h.claim.2, h.asked, h.ordered, h.numbered_succ, h.up, h.got, h.down,
      h.answers, h.closed⟩

theorem Transit.send (h : Transit e past flying waiting replies) {ε σ : Type}
    {sock : SendSocket ε σ} {fragSize unitId fc : ℤ} {args : SendArgs}
    {c' : ModbusClientSimulator} {s s' : σ} {message : Bytes} {p : Pdu} (hsock : sock.AcceptsAll)
    (hsend : sendRequest sock fragSize unitId fc args e.client s = (.ok (), c', s'))
    (hp : selectPdu (ε := ε) fc args = .ok p)
    (hup : sock.accepted s' = sock.accepted s ++ message) :
    ∃ q : Asked, q.request = requestOf unitId e.client p ∧ q.message = message ∧
      c' = e.client.takeTransId.2 ∧ Transit { e with
        client := c'
        up := e.up ++ message
        claimed := e.claimed + 1
        asked := e.asked ++ [(e.claimed, requestOf unitId e.client p)] }
        past flying (waiting ++ [(e.claimed, q)]) replies := by
  rcases sendRequest_cases hsock fragSize unitId fc args e.client s with
    ⟨err', c₁, s₁, heq, -⟩ | ⟨q, s₁, -, -, hp', hreq, heq, hacc⟩ <;> cases hsend.symm.trans heq
  obtain rfl : q.message = message := by
    rw [hacc] at hup
    exact List.append_cancel_left hup
  cases hp.symm.trans hp'
  have hnumbered : ∀ x ∈ past ++ flying ++ (waiting ++ [(e.claimed, q)]), x.1 < e.claimed + 1 ∧
      x.2.request.header.transId = (x.1 % transIdModulo : ℕ) := by
    rw [← List.append_assoc, List.forall_mem_append, List.forall_mem_singleton]
    refine ⟨h.numbered_succ, Nat.lt_succ_self _, ?_⟩
    rw [hreq, ← h.next]
    rfl
  have hordered : ((past ++ flying ++ (waiting ++ [(e.claimed, q)])).map Prod.fst).Pairwise
      (· < ·) := by
    rw [← List.append_assoc, List.map_append, List.pairwise_append]
    refine ⟨h.ordered, List.pairwise_singleton _ _, fun n hn m hm => ?_⟩
    obtain ⟨x, hx, rfl⟩ := List.mem_map.mp hn
    obtain rfl := List.mem_singleton.mp hm
    exact (h.numbered x hx).1
  refine ⟨q, hreq, rfl, rfl, h.claim.1, h.claim.2, ?_, hordered, hnumbered, fun hopen => ?_, h.got,
    h.down, h.answers, fun hclosed => ?_⟩
  · rw [← List.append_assoc, List.map_append, ← h.asked, ← hreq]
    rfl
  · show e.up ++ q.message = _
    rw [h.up hopen, List.map_append, asking_append]
    simp [asking]
  · obtain ⟨x, rest, rfl, hask⟩ := h.closed hclosed
    exact ⟨x, _, rfl, hask⟩

/-- What the server finds where there is something to find is the request that has waited
longest, whole. -/
theorem Transit.receive (h : Transit e past flying waiting replies) (hopen : e.closed = false)
    (hready : e.up ≠ []) {σ : Type} {conn : Source Empty σ} {s : σ} (hs : conn.unread s = e.up)
    {fragSize : ℤ} (hf : 0 ≤ fragSize) : ∃ x rest s', waiting = x :: rest ∧
      ModbusTcpStream.receive conn fragSize s = some (.ok x.2.message, s') ∧
      conn.unread s' = asking (rest.map Prod.snd) := by
  have hup := h.up hopen
  rcases waiting with _ | ⟨x, rest⟩
  · exact absurd hup hready
  obtain ⟨s', hr, hs'⟩ := ModbusTcpStream.receive_frame conn hf x.2.frame
    (show conn.unread s = x.2.frame.bytes ++ asking (rest.map Prod.snd) from hs.trans hup)
  exact ⟨x, rest, s', rfl, hr, hs'⟩

theorem Transit.received (h : Transit e past flying waiting replies) (hopen : e.closed = false)
    (hready : e.up ≠ []) {σ : Type} {conn : Source Empty σ} {s s' : σ} (hs : conn.unread s = e.up)
    {fragSize : ℤ} {r : Except (Exc Empty) Bytes}
    (hr : ModbusTcpStream.receive conn fragSize s = some (r, s')) : ∃ x rest, waiting = x :: rest ∧
      r = .ok x.2.message ∧ conn.unread s' = asking (rest.map Prod.snd) := by
  obtain ⟨size, hsize, hr'⟩ := ModbusTcpStream.exists_receive conn hr
  obtain ⟨x, rest, s₁, hwaiting, hr₁, hs₁⟩ := h.receive hopen hready hs hsize
  cases hr'.symm.trans hr₁
  exact ⟨x, rest, hwaiting, rfl, hs₁⟩

theorem Transit.serve {x : ℕ × Asked} {rest : List (ℕ × Asked)}
    (h : Transit e past flying (x :: rest) replies) (hopen : e.closed = false) {frame : Bytes}
    {response : ModbusTcpResponse}
    (hresp : ModbusTcpResponse.deserialize frame = .ok response)
    (hans : Answers x.2.request response) {up : Bytes} (hup : up = asking (rest.map Prod.snd)) :
    ∃ replies', Transit { e with up, down := e.down ++ frame } past (flying ++ [x]) rest replies' := by
  have hassoc : past ++ (flying ++ [x]) ++ rest = past ++ flying ++ x :: rest := by simp
  have hecho : response.header.transId = (x.1 % transIdModulo : ℕ) :=
    hans.1.trans (h.numbered x (by simp)).2
  refine ⟨replies ++ [⟨x.1, frame, response, hresp, hecho⟩], h.next, h.pending, ?_, ?_, ?_,
    fun _ => hup, h.got, ?_, List.rel_append h.answers (.cons ⟨rfl, hans⟩ .nil),
    fun hclosed => absurd (hopen.symm.trans hclosed) Bool.false_ne_true⟩
  · rw [hassoc]
    exact h.asked
  · rw [hassoc]
    exact h.ordered
  · rw [hassoc]
    exact h.numbered
  · show e.down ++ frame = _
    rw [h.down]
    simp [wire]

theorem wire_append (qs rs : List Reply) : wire (qs ++ rs) = wire qs ++ wire rs := by
  rw [wire, List.map_append, List.flatten_append]
  rfl

theorem Transit.wait (h : Transit e past flying waiting replies) {σ : Type} {sock : Source Empty σ}
    {r : Except (Exc Empty) (Option ModbusTcpResponse)} {c' : ModbusClientSimulator} {s s' : σ}
    (hs : sock.unread s = e.down) (hwait : waitResponse sock e.client s = some (r, c', s')) :
    ∃ k, Transit { e with
      client := c'
      down := sock.unread s'
      got := e.got ++ e.down.take (e.down.length - (sock.unread s').length) }
      (past ++ flying.take k) (flying.drop k) waiting (replies.drop k) := by
  obtain ⟨k, hleft⟩ := waitLoop_leaves sock _ (hs.trans h.down) hwait
  obtain ⟨hnext, hpend⟩ := waitLoop_client hwait
  have hassoc : past ++ flying.take k ++ flying.drop k ++ waiting = past ++ flying ++ waiting := by
    rw [List.append_assoc past, List.take_append_drop]
  have htaken : e.down.take (e.down.length - (sock.unread s').length) = wire (replies.take k) := by
    have hsplit : e.down = wire (replies.take k) ++ sock.unread s' := by
      rw [hleft, ← wire_append, List.take_append_drop, h.down]
    rw [hsplit, List.length_append, Nat.add_sub_cancel, List.take_left]
  obtain ⟨read, hgot, hanswered⟩ := h.got
  refine ⟨k, hnext.trans h.next, fun transId hid => ?_, ?_, ?_, ?_, h.up, ?_, hleft,
    List.forall₂_drop k h.answers, h.closed⟩
  · rcases hpend with hpend | hpend
    · exact h.pending transId (hpend ▸ hid)
    · rw [hpend] at hid
      cases hid
  · rw [hassoc]
    exact h.asked
  · rw [hassoc]
    exact h.ordered
  · rw [hassoc]
    exact h.numbered
  · refine ⟨read ++ replies.take k, ?_, List.rel_append hanswered (List.forall₂_take k h.answers)⟩
    show e.got ++ _ = _
    rw [htaken, hgot, wire_append]

theorem Transit.step (h : Transit e past flying waiting replies) {move : Move}
    (hs : Step e move e') :
    ∃ past' flying' waiting' replies', Transit e' past' flying' waiting' replies' := by
  cases hs with
  | refuse hsock hsend hup => exact ⟨_, _, _, _, h.refuse hsock hsend hup⟩
  | send hsock hsend hp hup =>
    obtain ⟨q, -, -, -, h'⟩ := h.send hsock hsend hp hup
    exact ⟨_, _, _, _, h'⟩
  | setFail fail =>
    exact ⟨past, flying, waiting, replies, h.next, h.pending, h.asked, h.ordered, h.numbered, h.up,
      h.got, h.down, h.answers, h.closed⟩
  | serve hsock hopen hs hready hr hdata hon hdown =>
    obtain ⟨x, rest, rfl, hdata', hs'⟩ := h.received hopen hready hs hr
    cases hdata'
    rcases onData_asked hsock e.fail x.2 _ with
      ⟨t', frame, response, hon', hacc, hresp, hans, -⟩ | ⟨err, hon', -⟩ <;> cases hon.symm.trans hon'
    obtain rfl := List.append_cancel_left (hdown.symm.trans hacc)
    obtain ⟨replies', h'⟩ := h.serve hopen hresp hans hs'
    exact ⟨_, _, _, _, h'⟩
  | drop hsock hopen hs hready hr hdata hon hdown =>
    obtain ⟨x, rest, rfl, hdata', hs'⟩ := h.received hopen hready hs hr
    cases hdata'
    rcases onData_asked hsock e.fail x.2 _ with ⟨t', frame, response, hon', -⟩ | ⟨err, hon', -, hask⟩ <;>
      cases hon.symm.trans hon'
    obtain rfl := List.self_eq_append_right.mp hdown
    rw [List.append_nil]
    exact ⟨_, _, _, _, h.next, h.pending, h.asked, h.ordered, h.numbered, nofun, h.got, h.down,
      h.answers, fun _ => ⟨x, rest, rfl, hask⟩⟩
  | lose hopen hs hready hr hnone =>
    obtain ⟨x, rest, rfl, hdata', -⟩ := h.received hopen hready hs hr
    exact absurd (hnone _ hdata') x.2.frame.ne_nil
  | wait hs hwait hclosed =>
    obtain ⟨k, h'⟩ := h.wait hs hwait
    exact ⟨_, _, _, _, h'⟩

theorem Transit.of_reachable (h : Reachable e) :
    ∃ past flying waiting replies, Transit e past flying waiting replies := by
  refine @invariant_of_run _ (fun e e' => ∃ move, Step e move e')
    (fun e => ∃ past flying waiting replies, Transit e past flying waiting replies) ?_ _ _
    ⟨[], [], [], [], .init⟩ h
  rintro e e' ⟨past, flying, waiting, replies, h⟩ ⟨move, hs⟩
  exact h.step hs

def answeredStatus : Exchange where
  client := ⟨1, some 0⟩
  down := [0, 0, 0, 0, 0, 3, 1, 7, 0]
  claimed := 1
  asked := [(0, ⟨⟨0, 0, 2, 1⟩, .modbusRequestFC7⟩)]

theorem reachable_answeredStatus : Reachable answeredStatus := by
  have haccept : (SendSocket.accepting Empty).AcceptsAll := fun s d => ⟨s ++ d, rfl⟩
  have hsent : Step {} (.send 0 1 7 {}) { answeredStatus with
      up := [0, 0, 0, 0, 0, 2, 1, 7]
      down := [] } :=
    @Step.send {} Empty Bytes (SendSocket.accepting Empty) 0 1 7 {} _ [] _ _ .modbusRequestFC7
      haccept rfl rfl rfl
  have hreceive : ModbusTcpStream.receive (Source.holding Empty) 0 [0, 0, 0, 0, 0, 2, 1, 7] =
      some (.ok [0, 0, 0, 0, 0, 2, 1, 7], []) := by
    decide +kernel
  have hlooked : Step { answeredStatus with up := [0, 0, 0, 0, 0, 2, 1, 7], down := [] } .look
      answeredStatus :=
    @Step.serve _ Bytes Empty Bytes (Source.holding Empty) (SendSocket.accepting Empty) _ _ _ [] _
      _ _ haccept rfl rfl nofun hreceive nofun rfl rfl
  exact .tail (.single ⟨_, hsent⟩) ⟨_, hlooked⟩

def statusResponse : ModbusTcpResponse := ⟨⟨0, 0, 3, 1⟩, .modbusResponseFC7 0⟩

theorem wait_answeredStatus :
    waitResponse (Source.holding Empty) ⟨1, some 0⟩ [0, 0, 0, 0, 0, 3, 1, 7, 0] =
      some (.ok (some statusResponse), ⟨1, none⟩, []) := by
  have hreceive : ModbusTcpStream.receive (Source.holding Empty) 0 [0, 0, 0, 0, 0, 3, 1, 7, 0] =
      some (.ok [0, 0, 0, 0, 0, 3, 1, 7, 0], []) := by
    decide +kernel
  unfold waitResponse waitLoop maxStaleResponses
  simp only [hreceive]
  rfl

def askedAgain : Exchange where
  client := ⟨2, some 1⟩
  up := [0, 1, 0, 0, 0, 2, 1, 7]
  claimed := 2
  asked := [(0, ⟨⟨0, 0, 2, 1⟩, .modbusRequestFC7⟩), (1, ⟨⟨1, 0, 2, 1⟩, .modbusRequestFC7⟩)]
  got := [0, 0, 0, 0, 0, 3, 1, 7, 0]

theorem reachable_askedAgain : Reachable askedAgain := by
  have haccept : (SendSocket.accepting Empty).AcceptsAll := fun s d => ⟨s ++ d, rfl⟩
  have hread : Step answeredStatus (.wait (.ok (some statusResponse))) { answeredStatus with
      client := ⟨1, none⟩
      down := []
      got := [0, 0, 0, 0, 0, 3, 1, 7, 0] } :=
    @Step.wait _ Bytes (Source.holding Empty) _ _ _ _ rfl wait_answeredStatus nofun
  have hsent : Step { answeredStatus with
      client := ⟨1, none⟩
      down := []
      got := [0, 0, 0, 0, 0, 3, 1, 7, 0] } (.send 0 1 7 {}) askedAgain :=
    @Step.send _ Empty Bytes (SendSocket.accepting Empty) 0 1 7 {} _ [] _ _ .modbusRequestFC7
      haccept rfl rfl rfl
  exact .tail (.tail reachable_answeredStatus ⟨_, hread⟩) ⟨_, hsent⟩

/-- In every run, whatever is sent, refused, answered and waited for in between: the requests
that have gone out are, in that order, those to which the client has read the answers, those
whose answers are on the way back, and those waiting at the server, where it finds them whole
and one at a time; the connection closes only over a request whose answer cannot be written. -/
theorem exchange_in_order (h : Reachable e) : ∃ past flying waiting replies,
    Transit e past flying waiting replies ∧
    (e.closed = false → e.up ≠ [] → ∀ (σ : Type) (conn : Source Empty σ) (s : σ) (fragSize : ℤ),
      0 ≤ fragSize → conn.unread s = e.up → ∃ x rest s', waiting = x :: rest ∧
        ModbusTcpStream.receive conn fragSize s = some (.ok x.2.message, s') ∧
        conn.unread s' = asking (rest.map Prod.snd)) := by
  obtain ⟨past, flying, waiting, replies, ht⟩ := Transit.of_reachable h
  exact ⟨past, flying, waiting, replies, ht,
    fun hopen hready _ _ _ _ hf hs => ht.receive hopen hready hs hf⟩

/-- One answer has been read, and the request behind it is what the server finds. -/
theorem exchange_in_order_status : ∃ past flying waiting replies,
    Transit askedAgain past flying waiting replies ∧ past ≠ [] ∧ ∃ x rest s', waiting = x :: rest ∧
      ModbusTcpStream.receive (Source.holding Empty) 0 [0, 1, 0, 0, 0, 2, 1, 7] =
        some (.ok x.2.message, s') := by
  obtain ⟨past, flying, waiting, replies, ht, hfinds⟩ := exchange_in_order reachable_askedAgain
  refine ⟨past, flying, waiting, replies, ht, ?_, ?_⟩
  · rintro rfl
    obtain ⟨read, hgot, hanswered⟩ := ht.got
    obtain rfl := List.forall₂_nil_left_iff.mp hanswered
    exact absurd hgot (by decide)
  · obtain ⟨x, rest, s', hwaiting, hr, -⟩ :=
      hfinds rfl nofun Bytes (Source.holding Empty) _ 0 le_rfl rfl
    exact ⟨x, rest, s', hwaiting, hr⟩

/-! ### What the client gets -/

/-- Within the window an answer carries the pending identifier exactly where it answers the
request that went out last. -/
theorem Transit.transId_eq_iff (h : Transit e past flying waiting replies) {transId : ℕ}
    (hp : e.client.pendingTransId = some transId) {x : ℕ × Asked} (hx : x ∈ flying)
    (hwindow : e.claimed ≤ x.1 + 65536) {q : Reply} (hq : q.answers = x.1) :
    q.transId = transId ↔ x.1 + 1 = e.claimed := by
  obtain ⟨hpos, rfl⟩ := h.pending _ hp
  have hlt := (h.numbered x (by simp [hx])).1
  have hmod : transIdModulo = 65536 := rfl
  rw [Reply.transId, hmod, hq]
  omega

theorem Transit.last (h : Transit e past flying waiting replies) {l r : List (ℕ × Asked)}
    {x : ℕ × Asked} (hsplit : past ++ flying ++ waiting = l ++ x :: r)
    (hx : x.1 + 1 = e.claimed) : r = [] := by
  have hordered := h.ordered
  have hnumbered := h.numbered
  rw [hsplit] at hordered hnumbered
  by_contra hne
  obtain ⟨y, hy⟩ := List.exists_mem_of_ne_nil r hne
  have hlt : x.1 < y.1 := by
    rw [List.map_append, List.pairwise_append, List.map_cons, List.pairwise_cons] at hordered
    exact hordered.2.1.1 y.1 (List.mem_map_of_mem hy)
  have := (hnumbered y (by simp [hy])).1
  omega

theorem Transit.split (h : Transit e past flying waiting replies) {earlier later : List Reply}
    {q : Reply} (hsplit : replies = earlier ++ q :: later) :
    ∃ l x r, flying = l ++ x :: r ∧ l.length = earlier.length ∧ r.length = later.length ∧
      q.answers = x.1 ∧ Answers x.2.request q.response := by
  have hdrop := List.forall₂_drop earlier.length h.answers
  rw [hsplit, List.drop_left] at hdrop
  have hlen := h.answers.length_eq
  rw [hsplit, List.length_append, List.length_cons] at hlen
  cases hflying : flying.drop earlier.length with
  | nil =>
    rw [hflying] at hdrop
    cases hdrop
  | cons x r =>
    rw [hflying] at hdrop
    cases hdrop with
    | cons hq hr =>
      refine ⟨flying.take earlier.length, x, r, ?_, ?_, hr.length_eq, hq⟩
      · rw [← hflying, List.take_append_drop]
      · rw [List.length_take]
        omega

theorem Transit.mem_flying (h : Transit e past flying waiting replies) {x : ℕ × Asked}
    (hx : x ∈ flying) : ∃ q ∈ replies, q.answers = x.1 := by
  obtain ⟨l, r, rfl⟩ := List.append_of_mem hx
  have hdrop := List.forall₂_drop l.length h.answers
  rw [List.drop_left] at hdrop
  cases hreplies : replies.drop l.length with
  | nil =>
    rw [hreplies] at hdrop
    cases hdrop
  | cons q later =>
    rw [hreplies] at hdrop
    cases hdrop with
    | cons hq _ => exact ⟨q, List.mem_of_mem_drop (hreplies ▸ List.mem_cons_self), hq.1⟩

/-- In every state of every run in which a request is pending and the answers in flight are to
requests of the window: `wait_response` returns an answer exactly where the last request to go
out is the pending one, the server has answered it, and no more answers are in flight than it
may read. What it returns then is the server's answer to that request, and nothing is left on
the connection in either direction. -/
theorem waitResponse_flushes (h : Reachable e) : ∃ past flying waiting replies,
    Transit e past flying waiting replies ∧
    (e.client.pendingTransId ≠ none → (∀ x ∈ flying, e.claimed ≤ x.1 + 65536) →
      ∀ (σ : Type) (sock : Source Empty σ) (s : σ), sock.unread s = e.down →
      ∃ r c' s', waitResponse sock e.client s = some (r, c', s') ∧
        ((∃ response, r = .ok (some response)) ↔ waiting = [] ∧
          flying.length ≤ maxStaleResponses + 1 ∧ ∃ x ∈ flying.getLast?, x.1 + 1 = e.claimed) ∧
        ∀ response, r = .ok (some response) → ∃ x, e.asked.getLast? = some (e.claimed - 1, x) ∧
          Answers x response ∧ waiting = [] ∧ sock.unread s' = [] ∧ c'.pendingTransId = none) := by
  obtain ⟨past, flying, waiting, replies, ht⟩ := Transit.of_reachable h
  refine ⟨past, flying, waiting, replies, ht, fun hpending hwindow σ sock s hs => ?_⟩
  obtain ⟨transId, hp⟩ := Option.ne_none_iff_exists'.mp hpending
  have hlen := ht.answers.length_eq
  have hlast {x : ℕ × Asked} (hx : x ∈ flying.getLast?) (hclaimed : x.1 + 1 = e.claimed) :
      ∃ q ∈ replies, q.transId = transId := by
    obtain ⟨q, hq, hans⟩ := ht.mem_flying (List.mem_of_getLast? hx)
    have hmem := List.mem_of_getLast? hx
    exact ⟨q, hq, (ht.transId_eq_iff hp hmem (hwindow x hmem) hans).mpr hclaimed⟩
  -- Where no answer is returned, it is left to show that there was none to return.
  have hother {r : Except (Exc Empty) (Option ModbusTcpResponse)} {c' : ModbusClientSimulator}
      {s' : σ} (hwait : waitResponse sock e.client s = some (r, c', s'))
      (hnot : ∀ response, r ≠ .ok (some response))
      (hno : ¬ (waiting = [] ∧ flying.length ≤ maxStaleResponses + 1 ∧
        ∃ x ∈ flying.getLast?, x.1 + 1 = e.claimed)) :
      ∃ r c' s', waitResponse sock e.client s = some (r, c', s') ∧
        ((∃ response, r = .ok (some response)) ↔ waiting = [] ∧
          flying.length ≤ maxStaleResponses + 1 ∧ ∃ x ∈ flying.getLast?, x.1 + 1 = e.claimed) ∧
        ∀ response, r = .ok (some response) → ∃ x, e.asked.getLast? = some (e.claimed - 1, x) ∧
          Answers x response ∧ waiting = [] ∧ sock.unread s' = [] ∧ c'.pendingTransId = none :=
    ⟨r, c', s', hwait, iff_of_false (fun ⟨response, heq⟩ => hnot response heq) hno,
      fun response heq => absurd heq (hnot response)⟩
  rcases waitLoop_replies sock hp (maxStaleResponses + 1) (hs.trans ht.down) with
    ⟨earlier, q, later, s', hsplit, hlt, hne, hq, hwait, hs'⟩ | ⟨msg, s', hle, hne, hwait, hs'⟩ |
    ⟨s', hlt, hne, hwait, hs'⟩
  · obtain ⟨l, x, r, hflying, hl, hr, hans, hanswers⟩ := ht.split hsplit
    have hclaimed := (ht.transId_eq_iff hp (by simp [hflying]) (hwindow x (by simp [hflying]))
      hans).mp hq
    have hnil := ht.last (l := past ++ l) (r := r ++ waiting) (x := x) (by simp [hflying]) hclaimed
    obtain ⟨rfl, rfl⟩ := List.append_eq_nil_iff.mp hnil
    obtain rfl := List.eq_nil_of_length_eq_zero (hr.symm.trans rfl)
    refine ⟨_, _, s', hwait, ⟨fun _ => ⟨rfl, ?_, x, by simp [hflying], hclaimed⟩,
      fun _ => ⟨_, rfl⟩⟩, fun response heq => ?_⟩
    · rw [hflying, List.length_append, hl]
      exact hlt
    · cases heq
      refine ⟨x.2.request, ?_, hanswers, rfl, hs', rfl⟩
      rw [ht.asked, hflying, List.append_nil, ← List.append_assoc, List.map_append,
        List.map_singleton, List.getLast?_concat, ← hclaimed]
      rfl
  · refine hother hwait (fun _ heq => by cases heq) ?_
    rintro ⟨-, hfew, x, hx, hclaimed⟩
    obtain ⟨q, hq, hid⟩ := hlast hx hclaimed
    rw [hlen] at hfew
    rw [List.take_of_length_le hfew] at hne
    exact absurd hid (hne q hq)
  · refine hother hwait (fun _ heq => by cases heq) ?_
    rintro ⟨-, -, x, hx, hclaimed⟩
    obtain ⟨q, hq, hid⟩ := hlast hx hclaimed
    exact absurd hid (hne q hq)

/-- The answer to the only request is read, and it is the last thing there is. -/
theorem waitResponse_flushes_status :
    waitResponse (Source.holding Empty) ⟨1, some 0⟩ [0, 0, 0, 0, 0, 3, 1, 7, 0] =
      some (.ok (some statusResponse), ⟨1, none⟩, []) ∧
    Answers ⟨⟨0, 0, 2, 1⟩, .modbusRequestFC7⟩ statusResponse ∧
    ∃ past flying replies, Transit answeredStatus past flying [] replies ∧
      ∃ x ∈ flying.getLast?, x.1 = 0 := by
  obtain ⟨past, flying, waiting, replies, ht, hwait⟩ := waitResponse_flushes reachable_answeredStatus
  have hwindow : ∀ x ∈ flying, answeredStatus.claimed ≤ x.1 + 65536 := fun x _ => by
    show 1 ≤ _
    omega
  obtain ⟨r, c', s', h, hiff, hanswers⟩ := hwait nofun hwindow Bytes (Source.holding Empty) _ rfl
  cases wait_answeredStatus.symm.trans h
  obtain ⟨request, hrequest, hans, rfl, -⟩ := hanswers _ rfl
  cases hrequest
  obtain ⟨-, -, x, hx, hclaimed⟩ := hiff.mp ⟨_, rfl⟩
  exact ⟨wait_answeredStatus, hans, past, flying, replies, ht, x, hx, Nat.succ.inj hclaimed⟩

end Exchange

end Pyomb
