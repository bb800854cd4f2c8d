import Pyomb.Simulators.Answers
import Pyomb.Simulators.Stranding

/-! What the server writes. Beside the loop and what arrives there is now what `on_data` makes
of each frame that it is handed. On every connection that is the answers to the frames at the
start of what has arrived there, whatever happens on the others, and where no whole frame is
unread on a connection that the server has still, it is all of them. -/

namespace Pyomb

open ModbusServerSimulator

/-! ### One frame -/

/-- What `on_data` writes over a socket that takes everything, where it returns. -/
def replyTo (fail : Bool) (data : Bytes) : Option Bytes :=
  match onData { fail } (SendSocket.accepting Halt) data [] with
  | (.ok (), s) => some s
  | (.error _, _) => none

section Reply

variable {σ : Type} {sock : SendSocket Halt σ}

theorem send_whole_or_raises (hsock : sock.WholeOrRaises) (message : Bytes) (s : σ) :
    (∃ s', ModbusTcpStream.send sock 0 false message s = (.ok (), s') ∧
      sock.accepted s' = sock.accepted s ++ message) ∨
    ∃ e s', ModbusTcpStream.send sock 0 false message s = (.error e, s') ∧
      sock.accepted s' = sock.accepted s := by
  have hfragment : ModbusFragmenter.fragment message 0 = .ok [message] := rfl
  rcases hsock s message with ⟨s', hw⟩ | ⟨e, s', hw⟩
  · refine .inl ⟨s', ?_, ?_⟩
    · simp [ModbusTcpStream.send, ModbusTcpStream.sendFragments, ModbusTcpStream.setBurst,
        hfragment, Sink.each, hw, Except.mapError]
    · rw [(sock.write_ok hw).2.2, List.take_length]
  · refine .inr ⟨.network "Error sending Modbus message: " (some e), s', ?_, sock.write_error hw⟩
    simp [ModbusTcpStream.send, ModbusTcpStream.sendFragments, ModbusTcpStream.setBurst,
      hfragment, Sink.each, hw, Except.mapError, Exc.wrapOs]

theorem answer_whole_or_raises (hsock : sock.WholeOrRaises) (header : ModbusHeader) (pdu : Pdu)
    (s : σ) :
    (∃ message, answer (SendSocket.accepting Halt) header pdu [] = (.ok (), message) ∧
      ((∃ s', answer sock header pdu s = (.ok (), s') ∧
        sock.accepted s' = sock.accepted s ++ message) ∨
      ∃ e s', answer sock header pdu s = (.error e, s') ∧ sock.accepted s' = sock.accepted s)) ∨
    ∃ e, answer (SendSocket.accepting Halt) header pdu [] = (.error e, []) ∧
      answer sock header pdu s = (.error e, s) := by
  unfold answer
  split
  next e he => exact .inr ⟨_, rfl, rfl⟩
  next length hlen =>
    split
    next e he => exact .inr ⟨_, rfl, rfl⟩
    next message hm => exact .inl ⟨message, rfl, send_whole_or_raises hsock message s⟩

/-- What `on_data` does with a frame: it writes the answer to it, or it raises and writes
nothing. -/
theorem onData_reply (hsock : sock.WholeOrRaises) {fail : Bool} {data : Bytes} {s s' : σ}
    {r : Except (Exc Halt) Unit} (h : onData { fail } sock data s = (r, s')) :
    (r = .ok () ∧ ∃ message, replyTo fail data = some message ∧
      sock.accepted s' = sock.accepted s ++ message) ∨
    (∃ e, r = .error e) ∧ sock.accepted s' = sock.accepted s := by
  have hanswer (header : ModbusHeader) (pdu : Pdu)
      (g : Except (Exc Halt) Unit → Except (Exc Halt) Unit) (hok : g (.ok ()) = .ok ())
      (herr : ∀ e, ∃ e', g (.error e) = .error e')
      (hreply : ∀ message, answer (SendSocket.accepting Halt) header pdu [] = (.ok (), message) →
        replyTo fail data = some message)
      (hdata : (g (answer sock header pdu s).1, (answer sock header pdu s).2) = (r, s')) :
      (r = .ok () ∧ ∃ message, replyTo fail data = some message ∧
        sock.accepted s' = sock.accepted s ++ message) ∨
      (∃ e, r = .error e) ∧ sock.accepted s' = sock.accepted s := by
    rcases answer_whole_or_raises hsock header pdu s with
      ⟨message, haccept, ⟨s₁, hans, hacc⟩ | ⟨e, s₁, hans, hacc⟩⟩ | ⟨e, haccept, hans⟩ <;>
      rw [hans] at hdata <;> cases hdata
    · exact .inl ⟨hok, message, hreply message haccept, hacc⟩
    · exact .inr ⟨herr e, hacc⟩
    · exact .inr ⟨herr e, rfl⟩
  cases hd : ModbusTcpRequest.deserialize data with
  | error e =>
    cases e with
    | pduParse msg header fc =>
      refine hanswer header (.modbusError fc illegalDataValue) id rfl (fun e => ⟨e, rfl⟩) ?_ ?_
      · intro message hans
        simp only [replyTo, onData, hd, hans]
      · simp only [onData, hd] at h
        exact h
    | packet e =>
      simp only [onData, hd] at h
      cases h
      exact .inr ⟨⟨_, rfl⟩, rfl⟩
  | ok request =>
    refine hanswer request.header (if fail then ResponseFactory.createErrRsp request.pdu.fc
      else selectResponse request.pdu) (·.mapError asDeviceFailure) rfl
      (fun e => ⟨asDeviceFailure e, rfl⟩) ?_ ?_
    · intro message hans
      cases fail <;> simp_all [replyTo, onData, handle, Except.mapError]
    · rw [← h]
      cases fail <;> simp [onData, hd, handle]

end Reply

/-! ### A stream of frames -/

/-- The answers to the frames at the start of a stream, one for each value that the flag of
failure has had, and none behind a frame that gets none. -/
def replies : List Bool → Bytes → Bytes
  | [], _ => []
  | fail :: flags, u =>
    match TcpFrame.first u with
    | none => []
    | some f =>
      match replyTo fail f.bytes with
      | none => []
      | some message => message ++ replies flags (u.drop f.bytes.length)

theorem first_append (f : TcpFrame) (rest : Bytes) : TcpFrame.first (f.bytes ++ rest) = some f :=
  TcpFrame.first_eq_some.mpr (List.prefix_append _ _)

theorem replies_cons (fail : Bool) (flags : List Bool) (f : TcpFrame) (rest : Bytes) :
    replies (fail :: flags) (f.bytes ++ rest) = match replyTo fail f.bytes with
      | none => []
      | some message => message ++ replies flags rest := by
  rw [replies, first_append]
  dsimp only
  rw [List.drop_left]

theorem replies_of_first_none {u : Bytes} (h : TcpFrame.first u = none) (flags : List Bool) :
    replies flags u = [] := by
  cases flags with
  | nil => rfl
  | cons fail flags => rw [replies, h]

/-- Frames that have been answered one after the other, under these values of the flag, with
these bytes. -/
inductive Replied : List Bool → List TcpFrame → Bytes → Prop
  | nil : Replied [] [] []
  | snoc {flags : List Bool} {frames : List TcpFrame} {written message : Bytes} {fail : Bool}
      {f : TcpFrame} (h : Replied flags frames written)
      (hf : replyTo fail f.bytes = some message) :
      Replied (flags ++ [fail]) (frames ++ [f]) (written ++ message)

theorem Replied.length {flags : List Bool} {frames : List TcpFrame} {written : Bytes}
    (h : Replied flags frames written) : flags.length = frames.length := by
  induction h with
  | nil => rfl
  | snoc _ _ ih => rw [List.length_append, List.length_append, ih, List.length_singleton,
      List.length_singleton]

theorem Replied.replies {flags : List Bool} {frames : List TcpFrame} {written : Bytes}
    (h : Replied flags frames written) (more : List Bool) (rest : Bytes) :
    replies (flags ++ more) (sent frames ++ rest) = written ++ Pyomb.replies more rest := by
  induction h generalizing more rest with
  | nil => rfl
  | @snoc flags frames written message fail f h hf ih =>
    rw [sent_append, sent_cons, List.append_assoc, List.append_assoc, List.singleton_append, ih,
      List.append_assoc, replies_cons, hf, List.append_assoc]
    rfl

theorem replies_mono {flags more : List Bool} (hflags : flags <+: more) {u u' : Bytes}
    (hu : u <+: u') : replies flags u <+: replies more u' := by
  obtain ⟨more, rfl⟩ := hflags
  induction flags generalizing u u' with
  | nil => exact List.nil_prefix
  | cons fail flags ih =>
    cases hf : TcpFrame.first u with
    | none =>
      rw [replies_of_first_none hf]
      exact List.nil_prefix
    | some f =>
      obtain ⟨rest, rfl⟩ := TcpFrame.first_eq_some.mp hf
      obtain ⟨rest', rfl⟩ := hu
      rw [List.cons_append, List.append_assoc, replies_cons, replies_cons]
      cases replyTo fail f.bytes with
      | none => exact List.nil_prefix
      | some message => exact List.prefix_append_right_inj message |>.mpr (ih (List.prefix_append ..))

/-! ### The server and what it writes -/

/-- The loop and what arrives, with the flag of failure and its value at each call of
`on_data`, and what has been written on each connection. -/
structure Service extends Traffic where
  fail : Bool := false
  failing : ℕ → List Bool := fun _ => []
  written : ℕ → Bytes := fun _ => []

namespace Service

variable (cfg : ServerSettings) (fragSize : ℤ)

def start (now : ℚ) : Service := { Traffic.start now with }

inductive Step : Service → Service → Prop
  /-- `_serve` hands a frame to `on_data`. -/
  | serve {v : Service} {now : ℚ} {conn : ℕ} {rest : List ℕ}
      (hpc : v.pc = .serving now (conn :: rest)) {b : UInt8} {m : Bytes} {buffers : Buffers}
      (hreceive : (v.reading conn).receive cfg.tls fragSize = some (.ok (b :: m), buffers))
      {σ : Type} {sock : SendSocket Halt σ} (hsock : sock.WholeOrRaises) {s s' : σ}
      {answered : Except (Exc Halt) Unit} {message : Bytes}
      (hdata : onData { fail := v.fail } sock (b :: m) s = (answered, s'))
      (hwritten : sock.accepted s' = sock.accepted s ++ message)
      (hturn : Connections.Drops (.ok (b :: m)) answered → ¬ v.Waits cfg conn) :
      Step v { v with
        toTraffic := v.afterRead conn (.ok (b :: m)) buffers
          (v.next (v.serve cfg conn now (.ok (b :: m)) answered) (.serving now rest))
        failing := Function.update v.failing conn (v.failing conn ++ [v.fail])
        written := Function.update v.written conn (v.written conn ++ message) }
  /-- Any step that hands over none. -/
  | other {v : Service} {act : Act} {t : Traffic}
      (hstep : Traffic.Step cfg fragSize v.toTraffic act t) (hserved : t.served = v.served) :
      Step v { v with toTraffic := t }
  | setFail {v : Service} (fail : Bool) : Step v { v with fail }

def Reachable (now : ℚ) (v : Service) : Prop :=
  Relation.ReflTransGen (Step cfg fragSize) (start now) v

variable {cfg fragSize} {v v' : Service} {conn : ℕ}

/-- What has been handed over of a connection is answered, and what is unread follows it. -/
def Live (v : Service) (conn : ℕ) : Prop :=
  ∃ frames : List TcpFrame, v.served conn = frames.map TcpFrame.bytes ∧
    sent frames ++ (v.inbound conn).unread = v.arrived conn ∧
    Replied (v.failing conn) frames (v.written conn)

/-- What has been handed over is answered, but perhaps for the last frame. -/
def Ended (v : Service) (conn : ℕ) : Prop :=
  ∃ (frames last : List TcpFrame) (flags more : List Bool),
    v.served conn = (frames ++ last).map TcpFrame.bytes ∧
    sent (frames ++ last) <+: v.arrived conn ∧ v.failing conn = flags ++ more ∧
    more.length = last.length ∧ Replied flags frames (v.written conn)

theorem Live.ended (h : Live v conn) : Ended v conn := by
  obtain ⟨frames, hserved, harrived, hreplied⟩ := h
  refine ⟨frames, [], v.failing conn, [], ?_, ?_, (List.append_nil _).symm, rfl, hreplied⟩
  · rw [List.append_nil]
    exact hserved
  · rw [List.append_nil]
    exact harrived ▸ List.prefix_append _ _

/-- A connection over which `on_data` raises is dropped, or the loop is left. -/
theorem gone_of_raised (hlisted : v.toServer.Listed) {now : ℚ} {rest : List ℕ}
    (hpc : v.pc = .serving now (conn :: rest)) (b : UInt8) (m : Bytes) (e : Exc Halt) :
    Traffic.Gone (v.next (v.serve cfg conn now (.ok (b :: m)) (.error e)) (.serving now rest))
      conn := by
  have hready := hlisted.ready
  rw [hpc] at hready
  have hmem : conn ∈ v.readList := hready.2 conn List.mem_cons_self
  show Traffic.Gone (v.next ((v.touch conn now).forget cfg conn) (.serving now rest)) conn
  cases hr : (v.touch conn now).forget cfg conn with
  | error e => exact .inl ⟨e, rfl⟩
  | ok c =>
    obtain ⟨hlist, hopened, -⟩ := Server.listing_forget hr
    refine .inr ⟨hopened.symm ▸ hlisted.opened conn hmem, ?_⟩
    show conn ∉ c.readList
    rw [hlist]
    exact hlisted.nodup.not_mem_erase

/-- What every run keeps: a connection is live, or it has ended and is gone. -/
structure Inv (v : Service) : Prop where
  listed : v.toServer.Listed
  flows : ∀ conn, Live v conn ∨ Ended v conn ∧ Traffic.Gone v.toServer conn

theorem flows_serve (h : Inv v) {now : ℚ} {d : ℕ} {rest : List ℕ}
    (hpc : v.pc = .serving now (d :: rest)) {b : UInt8} {m : Bytes} {buffers : Buffers}
    (hreceive : (v.reading d).receive cfg.tls fragSize = some (.ok (b :: m), buffers))
    {σ : Type} {sock : SendSocket Halt σ} (hsock : sock.WholeOrRaises) {s s' : σ}
    {answered : Except (Exc Halt) Unit} {message : Bytes}
    (hdata : onData { fail := v.fail } sock (b :: m) s = (answered, s'))
    (hwritten : sock.accepted s' = sock.accepted s ++ message)
    (hv' : v' = { v with
      toTraffic := v.afterRead d (.ok (b :: m)) buffers
        (v.next (v.serve cfg d now (.ok (b :: m)) answered) (.serving now rest))
      failing := Function.update v.failing d (v.failing d ++ [v.fail])
      written := Function.update v.written d (v.written d ++ message) }) :
    Live v' d ∨ Ended v' d ∧ Traffic.Gone v'.toServer d := by
  obtain ⟨frames, hserved, harrived, hreplied⟩ :=
    (h.flows d).resolve_right fun hno => Traffic.not_gone h.listed hpc hno.2
  obtain ⟨f, hf, hcut⟩ := Inbound.first_of_receive (List.cons_ne_nil b m) hreceive
  have hunread : (v.inbound d).unread = f.bytes ++ buffers.unread := by
    rw [← hf, ← hcut]
    show (v.inbound d).toBuffers.unread = (v.reading d).toBuffers.unread
    rw [Traffic.reading_toBuffers]
  have hserved' : v'.served d = (frames ++ [f]).map TcpFrame.bytes := by
    subst hv'
    show (v.afterRead d _ _ _).served d = _
    rw [Traffic.served_afterRead_self, Traffic.deliver_cons, hserved, hf, List.map_append]
    rfl
  have harrived' : sent (frames ++ [f]) ++ (v'.inbound d).unread = v'.arrived d := by
    subst hv'
    show sent (frames ++ [f]) ++ ((v.afterRead d _ buffers _).inbound d).unread = v.arrived d
    rw [Traffic.inbound_afterRead_self, sent_append, sent_cons, ← harrived, hunread]
    simp [sent]
  have hfailing' : v'.failing d = v.failing d ++ [v.fail] := by
    subst hv'
    exact Function.update_self ..
  have hwritten' : v'.written d = v.written d ++ message := by
    subst hv'
    exact Function.update_self ..
  rcases onData_reply hsock hdata with ⟨-, message', hreply, hacc⟩ | ⟨⟨e, rfl⟩, hacc⟩
  · obtain rfl := List.append_cancel_left (hwritten.symm.trans hacc)
    refine .inl ⟨frames ++ [f], hserved', harrived', ?_⟩
    rw [hfailing', hwritten']
    exact hreplied.snoc (hf ▸ hreply)
  · obtain rfl := List.self_eq_append_right.mp (hacc.symm.trans hwritten)
    refine .inr ⟨⟨frames, [f], v.failing d, [v.fail], hserved', ?_, hfailing', rfl, ?_⟩, ?_⟩
    · rw [← harrived']
      exact List.prefix_append _ _
    · rw [hwritten', List.append_nil]
      exact hreplied
    · subst hv'
      exact gone_of_raised h.listed hpc b m e

theorem Ended.of_grown (h : Ended v conn) (hserved : v'.served conn = v.served conn)
    (hfailing : v'.failing conn = v.failing conn) (hwritten : v'.written conn = v.written conn)
    (harrived : v.arrived conn <+: v'.arrived conn) : Ended v' conn := by
  obtain ⟨frames, last, flags, more, hs, hpre, hflags, hlen, hreplied⟩ := h
  exact ⟨frames, last, flags, more, hserved.trans hs, hpre.trans harrived, hfailing.trans hflags, hlen,
    hwritten ▸ hreplied⟩

theorem flows_other (h : Inv v) {act : Act} {t : Traffic}
    (hstep : Traffic.Step cfg fragSize v.toTraffic act t) (hserved : t.served = v.served)
    (conn : ℕ) : Live { v with toTraffic := t } conn ∨
      Ended { v with toTraffic := t } conn ∧ Traffic.Gone t.toServer conn := by
  have hgone : Traffic.Gone v.toServer conn → Traffic.Gone t.toServer conn := fun hg => hg.step hstep
  -- A step that leaves the bytes of the connection.
  have hsame (harrived : t.arrived conn = v.arrived conn)
      (hinbound : (t.inbound conn).toBuffers = (v.inbound conn).toBuffers) :
      Live { v with toTraffic := t } conn ∨
        Ended { v with toTraffic := t } conn ∧ Traffic.Gone t.toServer conn := by
    rcases h.flows conn with ⟨frames, hs, ha, hreplied⟩ | ⟨hended, hg⟩
    · refine .inl ⟨frames, (congrFun hserved conn).trans hs, ?_, hreplied⟩
      show sent frames ++ (t.inbound conn).toBuffers.unread = t.arrived conn
      rw [hinbound, harrived]
      exact ha
    · exact .inr ⟨hended.of_grown (congrFun hserved conn) rfl rfl (harrived ▸ List.prefix_refl _),
        hgone hg⟩
  cases hstep with
  | server | select | tick => exact hsame rfl rfl
  | @serve now d rest hpc received b hreceive hreturns answered hturn =>
    by_cases heq : conn = d
    · subst heq
      have hlive := (h.flows conn).resolve_right fun hno => Traffic.not_gone h.listed hpc hno.2
      have hnone : ∀ x m, received ≠ .ok (x :: m) := by
        rintro x m rfl
        have hself := congrFun hserved conn
        rw [Traffic.served_afterRead_self, Traffic.deliver_cons] at hself
        simp at hself
      exact .inr ⟨hlive.ended.of_grown (congrFun hserved conn) rfl rfl (List.prefix_refl _),
        Traffic.gone_of_serve h.listed hpc hnone answered⟩
    · exact hsame rfl (congrArg Inbound.toBuffers (Traffic.inbound_afterRead_of_ne _ _ _ _ _ heq))
  | @arrive d halive record torn htorn =>
    by_cases heq : conn = d
    · subst heq
      rcases h.flows conn with ⟨frames, hs, ha, hreplied⟩ | ⟨hended, hg⟩
      · refine .inl ⟨frames, hs, ?_, hreplied⟩
        show sent frames ++ ((v.afterArrival conn record torn).inbound conn).toBuffers.unread =
          (v.afterArrival conn record torn).arrived conn
        rw [Traffic.toBuffers_afterArrival, Buffers.unread_arrive, Traffic.arrived_afterArrival_self,
          ← ha, List.append_assoc]
      · refine .inr ⟨hended.of_grown rfl rfl rfl ?_, hg⟩
        show v.arrived conn <+: (v.afterArrival conn record torn).arrived conn
        rw [Traffic.arrived_afterArrival_self]
        exact List.prefix_append _ _
    · exact hsame (Traffic.arrived_afterArrival_of_ne _ _ _ _ heq)
        (congrArg Inbound.toBuffers (Traffic.inbound_afterArrival_of_ne _ _ _ _ heq))
  | @tear d | @close d | @reset d =>
    refine hsame rfl ?_
    exact Connections.update_cases (P := fun i : Inbound => i.toBuffers = (v.inbound conn).toBuffers)
      (fun heq => heq ▸ rfl) fun _ => rfl

theorem flows_serve_of_ne (h : Inv v)
    (hserved : v'.served conn = v.served conn) (harrived : v'.arrived conn = v.arrived conn)
    (hinbound : v'.inbound conn = v.inbound conn) (hfailing : v'.failing conn = v.failing conn)
    (hwritten : v'.written conn = v.written conn)
    (hgone : Traffic.Gone v.toServer conn → Traffic.Gone v'.toServer conn) :
    Live v' conn ∨ Ended v' conn ∧ Traffic.Gone v'.toServer conn := by
  rcases h.flows conn with ⟨frames, hs, ha, hreplied⟩ | ⟨hended, hg⟩
  · refine .inl ⟨frames, hserved.trans hs, ?_, ?_⟩
    · rw [hinbound, harrived]
      exact ha
    · rw [hfailing, hwritten]
      exact hreplied
  · exact .inr ⟨hended.of_grown hserved hfailing hwritten (harrived ▸ List.prefix_refl _), hgone hg⟩

theorem Inv.step (h : Inv v) (hs : Step cfg fragSize v v') : Inv v' := by
  cases hs with
  | @serve now d rest hpc b m buffers hreceive σ sock hsock s s' answered message hdata hwritten
      hturn =>
    have hreturns : ∀ msg, (.ok (b :: m) : Except (Exc Halt) Bytes) ≠
        .error (.network msg (some .waits)) := by
      intro msg heq
      cases heq
    have hstep := Traffic.Step.serve hpc hreceive hreturns answered hturn
    refine ⟨hstep.listed h.listed, fun conn => ?_⟩
    by_cases heq : conn = d
    · subst heq
      exact flows_serve h hpc hreceive hsock hdata hwritten rfl
    · exact flows_serve_of_ne h (Traffic.served_afterRead_of_ne _ _ _ _ _ heq) rfl
        (Traffic.inbound_afterRead_of_ne _ _ _ _ _ heq) (Function.update_of_ne heq ..)
        (Function.update_of_ne heq ..) fun hg => hg.step hstep
  | other hstep hserved => exact ⟨hstep.listed h.listed, flows_other h hstep hserved⟩
  | setFail fail => exact ⟨h.listed, h.flows⟩

theorem Inv.of_reachable {now : ℚ} (h : Reachable cfg fragSize now v) : Inv v := by
  refine @invariant_of_run Service (Step cfg fragSize) Inv (fun _ _ h hs => h.step hs) _ _ ?_ h
  exact ⟨.start now, fun _ => .inl ⟨[], rfl, rfl, .nil⟩⟩

theorem Ended.written_start (h : Ended v conn) :
    v.written conn <+: replies (v.failing conn) (v.arrived conn) := by
  obtain ⟨frames, last, flags, more, -, ⟨rest, harrived⟩, hflags, -, hreplied⟩ := h
  rw [← harrived, hflags, sent_append, List.append_assoc, hreplied.replies]
  exact List.prefix_append _ _

theorem Ended.of_reachable {now : ℚ} (h : Reachable cfg fragSize now v) (conn : ℕ) :
    Ended v conn :=
  ((Inv.of_reachable h).flows conn).elim Live.ended And.left

theorem served_mono {t t' : Traffic} (h : Traffic.AnyStep cfg fragSize t t') (conn : ℕ) :
    t.served conn <+: t'.served conn := by
  obtain ⟨act, hstep⟩ := h
  cases hstep with
  | @serve now d rest hpc received b hreceive hreturns answered hturn =>
    by_cases heq : conn = d
    · rw [heq, Traffic.served_afterRead_self]
      unfold Traffic.deliver
      split
      · exact List.prefix_append _ _
      · exact List.prefix_refl _
    · rw [Traffic.served_afterRead_of_ne _ _ _ _ _ heq]
  | _ => exact List.prefix_refl _

theorem reachable_of_unserved {now : ℚ} {t : Traffic}
    (hrun : Relation.ReflTransGen (Traffic.AnyStep cfg fragSize) (Traffic.start now) t)
    (hnone : ∀ conn, t.served conn = []) :
    Reachable cfg fragSize now { start now with toTraffic := t } := by
  induction hrun with
  | refl => exact .refl
  | @tail t t' hrun hlast ih =>
    have hbefore : ∀ conn, t.served conn = [] := fun conn =>
      List.prefix_nil.mp (hnone conn ▸ served_mono hlast conn)
    obtain ⟨act, hstep⟩ := hlast
    refine (ih hbefore).tail (.other hstep (funext fun conn => ?_))
    exact (hnone conn).trans (hbefore conn).symm

def serving (cfg : ServerSettings) (c : Connections) (conn : ℕ) (record : Bytes) : Service :=
  { start 0 with
    toTraffic := { (Traffic.selecting c conn record).afterSelect cfg false with pc := .serving 0 [conn] } }

theorem reachable_serving {c : Connections}
    (hc : Connections.openListener.accept cfg (some ("10.0.0.7", 50000)) .done 0 = .ok c)
    (hlive : ∀ d, c.sockets d ≠ .aborted) (hactive : ∀ d ∈ c.readList, ¬ c.Inactive cfg d 0)
    (hfd : ∀ d ∈ c.readList, (c.sockets d).HasDescriptor) {conn : ℕ} {record : Bytes}
    (hready : ((Traffic.selecting c conn record).afterSelect cfg false).pc = .accepting 0 [conn])
    (hsrv : c.srv ≠ conn) : Reachable cfg fragSize 0 (serving cfg c conn record) := by
  have harrival : Relation.ReflTransGen (Traffic.AnyStep cfg fragSize) (Traffic.start 0)
      (Traffic.selecting c conn record) := Traffic.any_of_clear (Traffic.run_arrival hc hlive hactive conn _)
  have hselect : Traffic.AnyStep cfg fragSize (Traffic.selecting c conn record)
      ((Traffic.selecting c conn record).afterSelect cfg false) := ⟨.select, .select rfl hfd false⟩
  have hpass : Traffic.ClearStep cfg fragSize ((Traffic.selecting c conn record).afterSelect cfg false)
      { (Traffic.selecting c conn record).afterSelect cfg false with pc := .serving 0 [conn] } :=
    .of_server (.pass hready fun hmem => hsrv (List.mem_singleton.mp hmem)) trivial hlive
  exact reachable_of_unserved ((harrival.tail hselect).trans (Traffic.any_of_clear (.single hpass)))
    fun _ => rfl

theorem exists_served {c : Connections} {conn : ℕ} {record : Bytes} {b : Buffers}
    (h : Reachable cfg 0 0 (serving cfg c conn record))
    (hreceive : ((serving cfg c conn record).reading conn).receive cfg.tls 0 =
      some (.ok [0, 1, 0, 0, 0, 2, 1, 7], b)) :
    ∃ v, Reachable cfg 0 0 v ∧ v.written conn = [0, 1, 0, 0, 0, 3, 1, 7, 0] ∧
      v.failing conn = [false] ∧ v.arrived = (serving cfg c conn record).arrived ∧
      ∀ d, d ≠ conn → v.inbound d = (serving cfg c conn record).inbound d := by
  have hsock : (SendSocket.accepting Halt).WholeOrRaises := fun s d => .inl ⟨s ++ d, rfl⟩
  have hdata : onData { fail := false } (SendSocket.accepting Halt) [0, 1, 0, 0, 0, 2, 1, 7] [] =
      (.ok (), [0, 1, 0, 0, 0, 3, 1, 7, 0]) := rfl
  have hstep : Step cfg 0 (serving cfg c conn record) _ :=
    .serve rfl hreceive hsock hdata (List.nil_append _).symm fun hdrops => absurd rfl hdrops
  exact ⟨_, h.tail hstep, Function.update_self .., Function.update_self .., rfl,
    fun d hne => Function.update_of_ne hne ..⟩

theorem exists_afterStatus : ∃ v, Reachable {} 0 0 v ∧ v.written 1 = [0, 1, 0, 0, 0, 3, 1, 7, 0] ∧
    v.failing 1 = [false] ∧ v.arrived 1 = [0, 1, 0, 0, 0, 2, 1, 7] := by
  have hreach : Reachable {} 0 0 (serving {} Traffic.oneTaken 1 [0, 1, 0, 0, 0, 2, 1, 7]) :=
    reachable_serving rfl Traffic.oneTaken_live Traffic.oneTaken_active
      Traffic.oneTaken_hasDescriptor rfl (by decide)
  obtain ⟨v, h, hwritten, hfailing, harrived, -⟩ :=
    exists_served (b := { kernel := [[]] }) hreach (by decide +kernel)
  exact ⟨v, h, hwritten, hfailing, congrFun harrived 1⟩

/-- Over TLS the first of two requests in one record has been served, and a neighbour has sent
something else. -/
theorem exists_afterShaken : ∃ v, Reachable { tls := true } 0 0 v ∧
    v.written 2 = [0, 1, 0, 0, 0, 3, 1, 7, 0] ∧ v.failing 2 = [false] ∧
    v.arrived 2 = Traffic.twoRequests ∧ v.arrived 7 = [255] := by
  have hreach : Reachable { tls := true } 0 0
      (serving { tls := true } Traffic.oneShaken 2 Traffic.twoRequests) :=
    reachable_serving rfl Traffic.oneShaken_live Traffic.oneShaken_active
      Traffic.oneShaken_hasDescriptor rfl (by decide)
  obtain ⟨v, h, hwritten, hfailing, harrived, hothers⟩ :=
    exists_served (b := { held := [0, 2, 0, 0, 0, 2, 1, 7] }) hreach (by decide +kernel)
  have halive : (v.inbound 7).fate = .alive := by
    rw [hothers 7 (by decide)]
    rfl
  have hsends : Step { tls := true } 0 v { v with toTraffic := v.afterArrival 7 [255] false } :=
    .other (.arrive halive [255] nofun) rfl
  refine ⟨_, h.tail hsends, hwritten, hfailing, ?_, ?_⟩
  · rw [Traffic.arrived_afterArrival_of_ne _ _ _ _ (by decide), harrived]
    rfl
  · rw [Traffic.arrived_afterArrival_self, harrived]
    rfl

/-- However the steps of the server, of its clients and of its owner come: what has been written
on a connection is the start of the answers to the frames that have arrived on it, in that order,
each made under the value of the flag when it was handed over. As long as the server has the
connection it is all of them but for frames that are still unread. -/
theorem written_answers {now : ℚ} (h : Reachable cfg fragSize now v) (conn : ℕ) :
    v.written conn <+: replies (v.failing conn) (v.arrived conn) ∧
      (v.failing conn).length = (v.served conn).length ∧
      ((∀ e, v.pc ≠ .raised e) → conn ∈ v.readList →
        v.written conn = replies (v.failing conn) (v.arrived conn) ∧
          (TcpFrame.first (v.inbound conn).unread = none →
            ∀ more, replies (v.failing conn ++ more) (v.arrived conn) = v.written conn)) := by
  have hended : Ended v conn := .of_reachable h conn
  refine ⟨hended.written_start, ?_, fun hnot hconn => ?_⟩
  · obtain ⟨frames, last, flags, more, hserved, -, hflags, hlen, hreplied⟩ := hended
    rw [hserved, hflags, List.length_append, List.length_map, List.length_append, hreplied.length,
      hlen]
  · obtain ⟨frames, -, harrived, hreplied⟩ :=
      ((Inv.of_reachable h).flows conn).resolve_right fun hno => by
        rcases hno.2 with ⟨e, he⟩ | ⟨-, hout⟩
        · exact hnot e he
        · exact hout hconn
    have hall (more : List Bool) : replies (v.failing conn ++ more) (v.arrived conn) =
        v.written conn ++ replies more (v.inbound conn).unread := by
      rw [← harrived, hreplied.replies]
    refine ⟨?_, fun hfirst more => ?_⟩
    · have hnil := hall []
      rw [List.append_nil] at hnil
      rw [hnil]
      exact (List.append_nil _).symm
    · rw [hall, replies_of_first_none hfirst, List.append_nil]

/-- The request for the exception status has had its answer. -/
theorem written_answers_status : ∃ v : Service, v.written 1 = [0, 1, 0, 0, 0, 3, 1, 7, 0] ∧
    v.written 1 <+: replies (v.failing 1) (v.arrived 1) := by
  obtain ⟨v, h, hwritten, -⟩ := exists_afterStatus
  exact ⟨v, hwritten, (written_answers h 1).1⟩

/-- What a client is told depends on what it has sent, and on nothing that others do: of two
connections, of one run or of two under any settings, on which the same bytes have arrived as far
as both have, and whose frames met the same values of the flag, one has been told the start of
what the other has. -/
theorem written_isolated {cfg cfg' : ServerSettings} {fragSize fragSize' : ℤ} {now now' : ℚ}
    {v v' : Service} (h : Reachable cfg fragSize now v) (h' : Reachable cfg' fragSize' now' v')
    {conn conn' : ℕ} (harrived : v.arrived conn <+: v'.arrived conn')
    (hfailing : v.failing conn <+: v'.failing conn') :
    v.written conn <+: v'.written conn' ∨ v'.written conn' <+: v.written conn := by
  have hwritten := (Ended.of_reachable h conn).written_start.trans (replies_mono hfailing harrived)
  exact List.prefix_or_prefix_of_prefix hwritten (Ended.of_reachable h' conn').written_start

/-- A client over plaintext, and one over TLS that has sent a second request and has a neighbour:
both have been told the same. -/
theorem written_isolated_status : ∃ v v', Reachable {} 0 0 v ∧ Reachable { tls := true } 0 0 v' ∧
    v.written 1 ≠ [] ∧ v'.written 2 ≠ [] ∧ v'.arrived 7 = [255] ∧
    (v.written 1 <+: v'.written 2 ∨ v'.written 2 <+: v.written 1) := by
  obtain ⟨v, h, hwritten, hfailing, harrived⟩ := exists_afterStatus
  obtain ⟨v', h', hwritten', hfailing', harrived', hneighbour⟩ := exists_afterShaken
  refine ⟨v, v', h, h', by simp [hwritten], by simp [hwritten'], hneighbour,
    written_isolated h h' ?_ ?_⟩
  · rw [harrived, harrived']
    exact ⟨[0, 2, 0, 0, 0, 2, 1, 7], rfl⟩
  · rw [hfailing, hfailing']

end Service

end Pyomb
