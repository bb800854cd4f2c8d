import Pyomb.Simulators.Exchange

/-! Calls of `request` one after the other. Each finds nothing under way on the connection and
leaves nothing there, so however many there have been, and however often the identifiers have
come round, a call gets the server's answer to its own request or raises and sends nothing. -/

namespace Pyomb

open ModbusClientSimulator ModbusServerSimulator

namespace Exchange

/-- The arguments of a call of `request`, with the client's unit identifier. -/
structure Call where
  unitId : ℤ := 1
  fc : ℤ
  args : SendArgs := {}

/-- What a call comes to: `send_request` raises, or it sends a request under the number of its
identifier and `wait_response` ends in some way. -/
inductive Outcome where
  | raised
  | waited (number : ℕ) (request : ModbusTcpRequest)
      (r : Except (Exc Empty) (Option ModbusTcpResponse))

/-- `request`, with the server's looks at the connection between its two halves. -/
inductive Request (fragSize : ℤ) (call : Call) : Exchange → Outcome → Exchange → Prop
  | raised {e e' : Exchange} (h : Step e (.refuse fragSize call.unitId call.fc call.args) e') :
      Request fragSize call e .raised e'
  | waited {e e₁ e₂ e' : Exchange} {number : ℕ} {request : ModbusTcpRequest}
      {r : Except (Exc Empty) (Option ModbusTcpResponse)}
      (hsend : Step e (.send fragSize call.unitId call.fc call.args) e₁)
      (hasked : e₁.asked = e.asked ++ [(number, request)])
      (hlook : Relation.ReflTransGen (fun a b => Step a .look b) e₁ e₂)
      (hwait : Step e₂ (.wait r) e') : Request fragSize call e (.waited number request r) e'

inductive Session (fragSize : ℤ) : Exchange → List Call → List Outcome → Exchange → Prop
  | nil {e : Exchange} : Session fragSize e [] [] e
  | cons {e e₁ e' : Exchange} {call : Call} {calls : List Call} {o : Outcome}
      {outcomes : List Outcome} (h : Request fragSize call e o e₁)
      (hs : Session fragSize e₁ calls outcomes e') :
      Session fragSize e (call :: calls) (o :: outcomes) e'

/-- The arguments make a request, and its message can be written down. -/
def Call.Valid (fragSize : ℤ) (call : Call) : Prop :=
  ¬ Refuses call.fc call.args ∧ Sendable fragSize call.unitId call.fc call.args {}

instance (fragSize : ℤ) (call : Call) : Decidable (call.Valid fragSize) :=
  inferInstanceAs (Decidable (_ ∧ _))

/-- A read of more than one answer can hold. -/
def Call.AsksTooMuch (call : Call) : Prop :=
  ((call.fc = 1 ∨ call.fc = 2) ∧ 2040 < call.args.readCount) ∨
    ((call.fc = 3 ∨ call.fc = 4 ∨ call.fc = 23) ∧ 127 < call.args.readCount)

instance (call : Call) : Decidable call.AsksTooMuch := inferInstanceAs (Decidable (_ ∨ _))

/-- A call raises where its arguments are no request; any other gets the answer to the request
that it sent, under the identifier it was sent under, and from a server that is not set to fail
the one the server selects. -/
def Call.Settles (fragSize : ℤ) (fail : Bool) (call : Call) : Outcome → Prop
  | .raised => ¬ call.Valid fragSize
  | .waited number request r => call.Valid fragSize ∧ Builds call.fc call.args request.pdu ∧
      request.header.unitId = call.unitId ∧
      request.header.transId = (number % transIdModulo : ℕ) ∧
      ∃ response, r = .ok (some response) ∧ Answers request response ∧
        (fail = false → response.pdu = selectResponse request.pdu)

theorem Call.Settles.answered {fragSize : ℤ} {fail : Bool} {call : Call} {o : Outcome}
    (h : call.Settles fragSize fail o) (hvalid : call.Valid fragSize) :
    ∃ number request response, o = .waited number request (.ok (some response)) ∧
      Answers request response := by
  cases o with
  | raised => exact absurd hvalid h
  | waited number request r =>
    obtain ⟨-, -, -, -, response, rfl, hans, -⟩ := h
    exact ⟨number, request, response, rfl, hans⟩

theorem Call.Settles.raised {fragSize : ℤ} {fail : Bool} {call : Call} {o : Outcome}
    (h : call.Settles fragSize fail o) (hno : ¬ call.Valid fragSize) : o = .raised := by
  cases o with
  | raised => rfl
  | waited => exact absurd h.1 hno

/-- Nothing is under way, and the server has the client still. -/
structure Quiet (e : Exchange) : Prop where
  reachable : Reachable e
  up : e.up = []
  down : e.down = []
  opened : e.closed = false

variable {fragSize : ℤ} {call : Call} {e e₁ e₂ e' : Exchange}

/-- An identifier fits its field, so whether a message can be written down is a question about
the arguments. -/
theorem sendable_iff {c : ModbusClientSimulator} (hc : c.nextTransId < 65536) {unitId fc : ℤ}
    {args : SendArgs} :
    Sendable fragSize unitId fc args c ↔ Sendable fragSize unitId fc args {} := by
  have hfits : Struct.Fits .H (c.nextTransId : ℤ) := by
    rw [Struct.Fits]
    exact ⟨Int.natCast_nonneg _, by exact_mod_cast hc⟩
  have hzero : Struct.Fits .H ((0 : ℕ) : ℤ) := by decide
  have hfirst (n : ℕ) (hn : Struct.Fits .H (n : ℤ)) (rest : List (Struct.Code × ℤ)) :
      Struct.ItemsFit ((.H, (n : ℤ)) :: rest) ↔ Struct.ItemsFit rest :=
    List.forall_mem_cons.trans (and_iff_right hn)
  exact and_congr_right fun _ => (hfirst _ hfits _).trans (hfirst 0 hzero _).symm

open RequestFactory in
theorem asksTooMuch_iff {ε : Type} {p : Pdu}
    (h : selectPdu (ε := ε) call.fc call.args = .ok p) (hmem : call.fc ∈ requestCodes) :
    ModbusServerSimulator.AsksTooMuch p ↔ call.AsksTooMuch := by
  obtain ⟨unitId, fc, args⟩ := call
  simp only [requestCodes, List.mem_cons, List.not_mem_nil, or_false] at hmem
  dsimp only at h
  have hsingle {f : ℤ → Pdu} (hf : (singleValue (ε := ε) args.values).map f = .ok p) :
      ∃ v, p = f v := by
    cases hv : singleValue (ε := ε) args.values <;> rw [hv] at hf <;> cases hf
    exact ⟨_, rfl⟩
  rcases hmem with rfl | rfl | rfl | rfl | rfl | rfl | rfl | rfl | rfl | rfl | rfl | rfl
  case inr.inr.inr.inr.inl =>
    obtain ⟨v, rfl⟩ := hsingle h
    simp [Call.AsksTooMuch, ModbusServerSimulator.AsksTooMuch, createFc5Req]
  case inr.inr.inr.inr.inr.inl =>
    obtain ⟨v, rfl⟩ := hsingle h
    simp [Call.AsksTooMuch, ModbusServerSimulator.AsksTooMuch, createFc6Req]
  case inr.inr.inr.inr.inr.inr.inr.inl =>
    have hcoils : createFc15Req (ε := ε) args.writeAddress args.writeCount
      (valueList args.values) = .ok p := h
    unfold createFc15Req at hcoils
    dsimp only at hcoils
    split_ifs at hcoils
    cases hcoils
    simp [Call.AsksTooMuch, ModbusServerSimulator.AsksTooMuch]
  all_goals
    cases h
    simp [Call.AsksTooMuch, ModbusServerSimulator.AsksTooMuch, createFc1Req, createFc2Req,
      createFc3Req, createFc4Req, createFc7Req, createFc16Req, createFc22Req, createFc23Req,
      createFc43Req]

def afterSend (e : Exchange) (q : Asked) : Exchange :=
  { e with
    client := e.client.takeTransId.2
    up := q.message
    claimed := e.claimed + 1
    asked := e.asked ++ [(e.claimed, q.request)] }

def afterLook (e : Exchange) (frame : Bytes) : Exchange := { e with up := [], down := frame }

theorem Quiet.transit (h : Quiet e) : ∃ past, Transit e past [] [] [] := by
  obtain ⟨past, flying, waiting, replies, ht⟩ := Transit.of_reachable h.reachable
  have hwaiting : waiting = [] := by
    rcases waiting with _ | ⟨x, rest⟩
    · rfl
    · have hup := (ht.up h.opened).symm.trans h.up
      exact absurd (List.append_eq_nil_iff.mp hup).1 x.2.frame.ne_nil
  have hreplies : replies = [] := by
    rcases replies with _ | ⟨q, rest⟩
    · rfl
    · have hdown := ht.down.symm.trans h.down
      exact absurd (List.append_eq_nil_iff.mp hdown).1 (responseFrame q.reads).ne_nil
  subst hwaiting hreplies
  obtain rfl := List.forall₂_nil_right_iff.mp ht.answers
  exact ⟨past, ht⟩

theorem Quiet.sendable_iff (h : Quiet e) : (¬ Refuses call.fc call.args ∧
    Sendable fragSize call.unitId call.fc call.args e.client) ↔ call.Valid fragSize := by
  obtain ⟨past, ht⟩ := h.transit
  have hlt : e.client.nextTransId < 65536 := ht.next ▸ Nat.mod_lt _ (by decide)
  rw [Exchange.sendable_iff hlt]
  rfl

theorem Quiet.refuse (h : Quiet e)
    (hs : Step e (.refuse fragSize call.unitId call.fc call.args) e') :
    ¬ call.Valid fragSize ∧ Quiet e' ∧ e'.fail = e.fail := by
  have hreach : Reachable e' := .tail h.reachable ⟨_, hs⟩
  cases hs with
  | refuse hsock hsend hup =>
    rcases sendRequest_cases hsock fragSize call.unitId call.fc call.args e.client _ with
      ⟨err, c', s', heq, hno, -, hacc⟩ | ⟨q, s', -, -, -, -, heq, -⟩ <;>
        cases hsend.symm.trans heq
    have hnil := List.self_eq_append_right.mp (hacc.symm.trans hup)
    rw [← h.sendable_iff]
    refine ⟨?_, ⟨hreach, ?_, h.down, h.opened⟩, rfl⟩
    · rintro ⟨hvalid, hsendable⟩
      rcases hno with hno | hno
      · exact hno |> hvalid
      · exact hno hsendable
    · rw [h.up, hnil]
      rfl

theorem Quiet.send (h : Quiet e)
    (hs : Step e (.send fragSize call.unitId call.fc call.args) e₁) :
    call.Valid fragSize ∧ ∃ (q : Asked) (past : List (ℕ × Asked)),
      Builds call.fc call.args q.request.pdu ∧
      q.request = requestOf call.unitId e.client q.request.pdu ∧ e₁ = e.afterSend q ∧
      (ModbusServerSimulator.AsksTooMuch q.request.pdu ↔ call.AsksTooMuch) ∧
      Transit (e.afterSend q) past [] [(e.claimed, q)] [] := by
  obtain ⟨past, ht⟩ := h.transit
  cases hs with
  | @send ε _ _ _ _ _ _ _ _ _ _ p hsock hsend hp hup =>
    have hvalid : call.Valid fragSize := by
      rcases sendRequest_cases hsock fragSize call.unitId call.fc call.args e.client _ with
        ⟨err, c', s', heq, -⟩ | ⟨q, s', hvalid, hsendable, -⟩
      · cases hsend.symm.trans heq
      · exact h.sendable_iff.mp ⟨hvalid, hsendable⟩
    have hbuilds : Builds call.fc call.args p := by
      rcases selectPdu_cases (ε := ε) call.fc call.args with ⟨hno, -⟩ | ⟨-, p', hp', hb⟩
      · exact absurd hno hvalid.1
      · cases hp.symm.trans hp'
        exact hb
    obtain ⟨q, hreq, rfl, rfl, ht'⟩ := ht.send hsock hsend hp hup
    obtain rfl : q.request.pdu = p := congrArg TcpAdu.pdu hreq
    have hafter : { e with
        client := e.client.takeTransId.2
        up := e.up ++ q.message
        claimed := e.claimed + 1
        asked := e.asked ++ [(e.claimed, requestOf call.unitId e.client q.request.pdu)] } =
        e.afterSend q := by
      rw [h.up, ← hreq]
      rfl
    rw [hafter] at ht' ⊢
    exact ⟨hvalid, q, past, hbuilds, hreq, rfl, asksTooMuch_iff hp hbuilds.mem, ht'⟩

theorem look_cases {q : Asked} {past : List (ℕ × Asked)}
    (ht : Transit (e.afterSend q) past [] [(e.claimed, q)] []) (hopen : e.closed = false)
    (hq : e.fail = true ∨ ¬ ModbusServerSimulator.AsksTooMuch q.request.pdu)
    (hlook : Relation.ReflTransGen (fun a b => Step a .look b) (e.afterSend q) e₂) :
    e₂ = e.afterSend q ∨ ∃ frame response, e₂ = (e.afterSend q).afterLook frame ∧
      ModbusTcpResponse.deserialize frame = .ok response ∧ Answers q.request response ∧
      (e.fail = false → response.pdu = selectResponse q.request.pdu) := by
  induction hlook with
  | refl => exact .inl rfl
  | tail _ hs ih =>
    rcases ih with rfl | ⟨frame, response, rfl, -⟩
    · cases hs with
      | @serve _ _ _ _ _ _ _ s' _ _ _ frame hsock _ hs hready hr _ hon hdown =>
        obtain ⟨x, rest, hwaiting, hdata, hs'⟩ := ht.received hopen hready hs hr
        cases hwaiting
        cases hdata
        rcases onData_asked hsock e.fail q _ with
          ⟨t', frame', response, hon', hacc, hresp, hans, -, hpdu⟩ | ⟨err, hon', -⟩ <;>
          cases hon.symm.trans hon'
        obtain rfl := List.append_cancel_left (hdown.symm.trans hacc)
        refine .inr ⟨frame, response, ?_, hresp, hans, hpdu⟩
        rw [hs', show (e.afterSend q).down = [] from ht.down]
        rfl
      | drop hsock _ hs hready hr _ hon =>
        obtain ⟨x, rest, hwaiting, hdata, hs'⟩ := ht.received hopen hready hs hr
        cases hwaiting
        cases hdata
        rcases onData_asked hsock e.fail q _ with
          ⟨t', frame', response, hon', -⟩ | ⟨err, hon', hfail, hask⟩ <;> cases hon.symm.trans hon'
        rw [hfail] at hq
        exact absurd hask (hq.resolve_left Bool.false_ne_true)
      | lose _ hs hready hr hnone =>
        obtain ⟨x, rest, -, hdata, -⟩ := ht.received hopen hready hs hr
        exact absurd (hnone _ hdata) x.2.frame.ne_nil
    -- There is nothing left to look at.
    · cases hs with
      | serve _ _ _ hready => exact absurd rfl hready
      | drop _ _ _ hready => exact absurd rfl hready
      | lose _ _ hready => exact absurd rfl hready

theorem wait_answer {q : Asked} {past : List (ℕ × Asked)}
    (ht : Transit (e.afterSend q) past [] [(e.claimed, q)] []) {frame : Bytes}
    {response : ModbusTcpResponse} (hresp : ModbusTcpResponse.deserialize frame = .ok response)
    (hans : Answers q.request response) {σ : Type} (sock : Source Empty σ) {s : σ}
    (hs : sock.unread s = frame) : ∃ c' s',
      waitResponse sock (e.afterSend q).client s = some (.ok (some response), c', s') ∧
        sock.unread s' = [] := by
  have hecho : response.header.transId = (e.claimed % transIdModulo : ℕ) :=
    hans.1.trans (ht.numbered (e.claimed, q) (by simp)).2
  have hid := (ht.pending e.client.nextTransId rfl).2
  let reply : Reply := ⟨e.claimed, frame, response, hresp, hecho⟩
  have hreply : reply.transId = e.client.nextTransId := hid.symm
  have hwire : sock.unread s = wire [reply] := hs.trans (List.append_nil frame).symm
  rcases waitLoop_replies sock (c := (e.afterSend q).client) rfl (maxStaleResponses + 1) hwire with
    ⟨earlier, q', later, s', hsplit, -, hne, -, hwait, hs'⟩ | ⟨msg, s', hle, -⟩ |
    ⟨s', -, hne, -⟩
  · obtain ⟨rfl, rfl, rfl⟩ : earlier = [] ∧ q' = reply ∧ later = [] := by
      rcases earlier with _ | ⟨p, earlier⟩
      · obtain ⟨rfl, rfl⟩ := List.cons.inj hsplit
        exact ⟨rfl, rfl, rfl⟩
      · simp at hsplit
    exact ⟨_, s', hwait, hs'⟩
  · simp [maxStaleResponses] at hle
  · exact absurd hreply (hne reply (List.mem_singleton_self _))

theorem not_wait_of_empty {q : Asked} {past : List (ℕ × Asked)}
    (ht : Transit (e.afterSend q) past [] [(e.claimed, q)] []) (hopen : e.closed = false)
    {r : Except (Exc Empty) (Option ModbusTcpResponse)} :
    ¬ Step (e.afterSend q) (.wait r) e' := by
  intro hs
  cases hs with
  | wait hs hwait hclosed =>
    rcases waitLoop_replies _ (c := (e.afterSend q).client) rfl (maxStaleResponses + 1)
      (hs.trans ht.down) with ⟨earlier, q', later, s', hsplit, -⟩ | ⟨msg, s', hle, -⟩ |
      ⟨s', -, -, hnone, -⟩
    · simp at hsplit
    · simp at hle
    · cases hwait.symm.trans hnone
      exact absurd (hopen.symm.trans (hclosed rfl)) Bool.false_ne_true

/-- A call leaves the connection as quiet as it found it. -/
theorem Quiet.request (h : Quiet e) (hcall : e.fail = true ∨ ¬ call.AsksTooMuch) {o : Outcome}
    (hr : Request fragSize call e o e') :
    call.Settles fragSize e.fail o ∧ Quiet e' ∧ e'.fail = e.fail := by
  cases hr with
  | raised hs => exact h.refuse hs
  | waited hsend hasked hlook hwait =>
    have hreach : Reachable e' := .tail (.trans (.tail h.reachable ⟨_, hsend⟩)
      (hlook.lift id fun _ _ hs => ⟨_, hs⟩)) ⟨_, hwait⟩
    obtain ⟨hvalid, q, past, hbuilds, hreq, rfl, hask, ht⟩ := h.send hsend
    rw [← hask] at hcall
    rcases look_cases ht h.opened hcall hlook with
      rfl | ⟨frame, response, rfl, hresp, hans, hpdu⟩
    · exact absurd hwait (not_wait_of_empty ht h.opened)
    cases hwait with
    | wait hs hwait _ =>
      obtain ⟨c', s', hwait', hs'⟩ := wait_answer ht hresp hans _ hs
      cases hwait.symm.trans hwait'
      cases List.append_cancel_left hasked
      have hnumber := (ht.numbered (e.claimed, q) (by simp)).2
      exact ⟨⟨hvalid, hbuilds, hreq ▸ rfl, hnumber, response, rfl, hans, hpdu⟩,
        ⟨hreach, rfl, hs', h.opened⟩, rfl⟩

theorem Quiet.exists_request (h : Quiet e) (hcall : e.fail = true ∨ ¬ call.AsksTooMuch) :
    ∃ o e', Request fragSize call e o e' := by
  have haccept : (SendSocket.accepting Empty).AcceptsAll := fun s d => ⟨s ++ d, rfl⟩
  rcases sendRequest_cases haccept fragSize call.unitId call.fc call.args e.client [] with
    ⟨err, c', s', hsend, -, -, hacc⟩ | ⟨q, s', -, -, hp, -, hsend, hacc⟩
  · exact ⟨_, _, .raised (.refuse haccept hsend (hacc.trans (List.append_nil _).symm))⟩
  have hstep := Step.send haccept hsend hp hacc
  obtain ⟨-, q, past, -, -, heq, hask, ht⟩ := h.send hstep
  rw [heq] at hstep
  rw [← hask] at hcall
  have hready : (e.afterSend q).up ≠ [] := q.frame.ne_nil
  obtain ⟨x, rest, s₁, hwaiting, hreceive, -⟩ :=
    ht.receive h.opened hready (show (Source.holding Empty).unread _ = _ from rfl) (le_refl 0)
  cases hwaiting
  rcases onData_asked haccept e.fail q [] with
    ⟨t', frame, response, hon, hdown, hresp, hans, -⟩ | ⟨err, -, hfail, htoo⟩
  · have hlook := Step.serve haccept (show (e.afterSend q).closed = false from h.opened) rfl hready
      hreceive q.frame.ne_nil hon hdown
    have hframe : (e.afterSend q).down ++ frame = frame := by
      rw [show (e.afterSend q).down = [] from ht.down]
      rfl
    obtain ⟨c', s₂, hwait, -⟩ := wait_answer ht hresp hans (Source.holding Empty) hframe
    exact ⟨_, _, .waited hstep rfl (.single hlook) (.wait rfl hwait nofun)⟩
  · rw [hfail] at hcall
    exact absurd htoo (hcall.resolve_left Bool.false_ne_true)

theorem Quiet.session {calls : List Call} {outcomes : List Outcome} (h : Quiet e)
    (hcalls : ∀ call ∈ calls, e.fail = true ∨ ¬ call.AsksTooMuch)
    (hs : Session fragSize e calls outcomes e') :
    List.Forall₂ (fun call o => call.Settles fragSize e.fail o) calls outcomes ∧ Quiet e' ∧
      e'.fail = e.fail := by
  induction hs with
  | nil => exact ⟨.nil, h, rfl⟩
  | cons hr _ ih =>
    obtain ⟨hcall, hrest⟩ := List.forall_mem_cons.mp hcalls
    obtain ⟨hsettles, hquiet, hfail⟩ := h.request hcall hr
    rw [← hfail] at hrest
    obtain ⟨hall, hend, hfail'⟩ := ih hquiet hrest
    rw [hfail] at hall hfail'
    exact ⟨.cons hsettles hall, hend, hfail'⟩

theorem Quiet.exists_session {calls : List Call} (h : Quiet e)
    (hcalls : ∀ call ∈ calls, e.fail = true ∨ ¬ call.AsksTooMuch) :
    ∃ outcomes e', Session fragSize e calls outcomes e' := by
  induction calls generalizing e with
  | nil => exact ⟨[], e, .nil⟩
  | cons call calls ih =>
    obtain ⟨hcall, hrest⟩ := List.forall_mem_cons.mp hcalls
    obtain ⟨o, e₁, hr⟩ := (h.exists_request hcall : ∃ o e₁, Request fragSize call e o e₁)
    obtain ⟨-, hquiet, hfail⟩ := h.request hcall hr
    rw [← hfail] at hrest
    obtain ⟨outcomes, e', hs⟩ := ih hquiet hrest
    exact ⟨o :: outcomes, e', .cons hr hs⟩

/-- Any number of calls on a connection with nothing under way, none of which asks for more than
an answer can hold: each finds its end, the ones whose arguments are no request and only they
raise, every other returns the server's answer to its own request, and nothing is left under
way, however often the identifiers have come round. -/
theorem session_settles (h : Quiet e) (calls : List Call)
    (hcalls : ∀ call ∈ calls, e.fail = true ∨ ¬ call.AsksTooMuch) :
    (∃ outcomes e', Session fragSize e calls outcomes e') ∧
      ∀ outcomes e', Session fragSize e calls outcomes e' →
        List.Forall₂ (fun call o => call.Settles fragSize e.fail o) calls outcomes ∧ Quiet e' :=
  ⟨h.exists_session hcalls, fun _ _ hs =>
    let ⟨hall, hquiet, _⟩ := h.session hcalls hs
    ⟨hall, hquiet⟩⟩

/-- A read of three registers, twice, and a function code that is none, on a fresh connection:
two answers, and nothing under way. -/
theorem session_settles_read : ∃ n₁ n₂ q₁ q₂ r₁ r₂ e', Session 0 {}
      [⟨1, 3, { readCount := 3 }⟩, ⟨1, 3, { readCount := 3 }⟩, ⟨1, 9, {}⟩]
      [.waited n₁ q₁ (.ok (some r₁)), .waited n₂ q₂ (.ok (some r₂)), .raised] e' ∧
    Answers q₁ r₁ ∧ Answers q₂ r₂ ∧ Quiet e' := by
  have hquiet : Quiet {} := ⟨.refl, rfl, rfl, rfl⟩
  have hcalls : ∀ call ∈ [(⟨1, 3, { readCount := 3 }⟩ : Call), ⟨1, 3, { readCount := 3 }⟩,
      ⟨1, 9, {}⟩], false = true ∨ ¬ call.AsksTooMuch := by
    decide
  have hvalid : (⟨1, 3, { readCount := 3 }⟩ : Call).Valid 0 := by decide
  have hno : ¬ (⟨1, 9, {}⟩ : Call).Valid 0 := by decide
  obtain ⟨⟨outcomes, e', hs⟩, hall⟩ := @session_settles 0 {} hquiet _ hcalls
  obtain ⟨hsettles, hend⟩ := hall outcomes e' hs
  rcases hsettles with _ | ⟨h₁, _ | ⟨h₂, _ | ⟨h₃, _ | _⟩⟩⟩
  obtain ⟨n₁, q₁, r₁, rfl, hans₁⟩ := h₁.answered hvalid
  obtain ⟨n₂, q₂, r₂, rfl, hans₂⟩ := h₂.answered hvalid
  obtain rfl := h₃.raised hno
  exact ⟨n₁, n₂, q₁, q₂, r₁, r₂, e', hs, hans₁, hans₂, hend⟩

end Exchange

end Pyomb
