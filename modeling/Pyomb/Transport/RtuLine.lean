import Pyomb.Runs
import Pyomb.Transport.RtuEcho

/-! Two RTU streams on one line, a client's and a server's, each sending and receiving when it
likes. A frame that is written goes to the other end in pieces, and where the transceiver echoes
it comes back as well. What an end has not received yet it still has in front of it, frame by
frame, and only a `send` that fails over its echo drops any of it. -/

namespace Pyomb

open Relation (ReflTransGen)

theorem goesQuiet_pieces {ε : Type} (ps : List Bytes) :
    (Source.pieces (PortError ε)).GoesQuiet ps := by
  intro t n e t' _ h
  have hread := congrArg Prod.fst h
  exact absurd hread (Source.readPieces_ne_error t n e)

namespace ModbusRtuStream

variable {ε σ : Type} {port : Source (PortError ε) σ}

/-! ### One call -/

/-- While a start of a frame is held, the loop reads the rest of it and nothing behind it. -/
theorem loop_start {f rest missing : Bytes} {p : ModbusRtuPacket} {s : ModbusRtuStream σ}
    (hq : port.GoesQuiet s.port) (hf : (readRtuFrame f s.side).packet = some p)
    (hl : (readRtuFrame f s.side).length = f.length) (hheld : f = s.buffer ++ missing)
    (hport : port.unread s.port = missing ++ rest) :
    ∃ t, loop port s = (.ok f, { s with port := t, buffer := [] }) ∧ port.unread t = rest := by
  induction hn : missing.length using Nat.strong_induction_on generalizing s missing with
  | _ n ih =>
    subst hn
    by_cases hne : missing = []
    · subst hne
      rw [List.append_nil] at hheld
      subst hheld
      refine ⟨s.port, ?_, hport⟩
      rw [loop_done port (turn_packet hf), hl, List.take_length, taken, List.drop_length]
    obtain ⟨hinc, hwanted⟩ := wanted_of_start hf hl hheld hne
    obtain ⟨c, s₁, hr, hq₁, ⟨hc, ht⟩ | ⟨-, hnil, -⟩⟩ := turn_wait hq hinc
    · obtain ⟨hs₁, hcat, hle⟩ := read_ok port hr
      obtain ⟨t, rfl⟩ : ∃ t, s₁ = { s with port := t } := ⟨_, hs₁⟩
      obtain ⟨later, rfl⟩ : c <+: missing :=
        List.prefix_of_prefix_length_le ⟨_, hcat.symm⟩ ⟨_, hport.symm⟩ (hle.trans hwanted)
      have hpos := List.length_pos_iff.mpr hc
      have hrest : port.unread t = later ++ rest := by
        rw [hport, List.append_assoc, List.append_cancel_left_eq] at hcat
        exact hcat.symm
      rw [loop_again port ht]
      refine ih later.length ?_ (s := extend { s with port := t } c) hq₁ hf hl ?_ hrest rfl
      · rw [List.length_append]
        omega
      · rw [hheld, ← List.append_assoc]
        rfl
    · rw [hport] at hnil
      exact absurd (List.append_eq_nil_iff.mp hnil).1 hne

/-- A frame that stands at the head of the port is what `receive` returns. -/
theorem receive_head {f rest : Bytes} {p : ModbusRtuPacket} {s : ModbusRtuStream σ}
    (hq : port.GoesQuiet s.port) (hf : (readRtuFrame f s.side).packet = some p)
    (hl : (readRtuFrame f s.side).length = f.length) (hb : s.buffer = [])
    (hport : port.unread s.port = f ++ rest) :
    ∃ t, receive port s = (.ok f, { s with port := t, buffer := [], noise := 0 }) ∧
      port.unread t = rest :=
  loop_start (s := { s with noise := 0 }) hq hf hl (by rw [hb, List.nil_append]) hport

theorem receive_none {s : ModbusRtuStream σ} (hq : port.GoesQuiet s.port) (hb : s.buffer = [])
    (hport : port.unread s.port = []) :
    ∃ text t, receive port s = (.error (.timeout text), { s with port := t, noise := 0 }) ∧
      port.unread t = [] := by
  have hread : readRtuFrame s.buffer s.side = ⟨none, 0, true, minRtuFrame, true⟩ := by
    rw [hb]
    simp [readRtuFrame, minRtuFrame]
  obtain ⟨c, s₁, hr, -, hnext⟩ := turn_wait (s := { s with noise := 0 }) hq (by rw [hread])
  obtain ⟨hs₁, hcat, -⟩ := read_ok port hr
  obtain ⟨t, rfl⟩ : ∃ t, s₁ = { s with port := t, noise := 0 } := ⟨_, hs₁⟩
  obtain ⟨rfl, hlast⟩ := List.append_eq_nil_iff.mp (hcat.symm.trans hport)
  rcases hnext with ⟨hc, -⟩ | ⟨-, -, r, s₂, hquiet, ht⟩
  · exact absurd rfl hc
  · rw [receiveAfterSilence, if_pos hb] at hquiet
    obtain ⟨rfl, rfl⟩ := Prod.mk.inj hquiet
    exact ⟨_, t, loop_done port ht, hlast⟩

end ModbusRtuStream

/-- The two ends of a line. -/
inductive LineEnd where
  | client
  | server
  deriving DecidableEq, Repr

namespace LineEnd

def other : LineEnd → LineEnd
  | client => server
  | server => client

def side : LineEnd → RtuSide
  | client => .response
  | server => .request

/-- The frames that an end can size. -/
def Reads (e : LineEnd) (f : Bytes) : Prop :=
  ∃ (k : FrameKind) (a a' : RtuAdu k), e.side.Carries a.pdu ∧ a.serialize = .ok (f, a')

theorem Reads.packet {e : LineEnd} {f : Bytes} (h : e.Reads f) :
    ∃ p, (readRtuFrame f e.side).packet = some p ∧
      (readRtuFrame f e.side).length = f.length := by
  obtain ⟨k, a, a', hc, hs⟩ := h
  obtain ⟨p, hj, -⟩ := readRtuFrame_serialize hc hs
  simp only [rtuFramer] at hj
  cases hp : (readRtuFrame f e.side).packet with
  | none =>
    rw [hp] at hj
    split_ifs at hj
  | some q =>
    rw [hp] at hj
    obtain ⟨-, hl⟩ := Verdict.frame.inj hj
    exact ⟨q, rfl, hl⟩

end LineEnd

/-- One end, with the frames it has sent and those it was handed. Kept for the record: its sends
over an echo that began with bytes still to be read, and its sends that raised. -/
structure Station where
  stream : ModbusRtuStream (List Bytes)
  sent : List Bytes := []
  received : List Bytes := []
  early : ℕ := 0
  failed : ℕ := 0

namespace Station

/-- The port of an end that writes a frame of which `heard` comes back. -/
def port (heard : List Bytes) : BytePort Empty (List Bytes) where
  toSource := Source.pieces (PortError Empty)
  write ps data := (.ok data.length, ps ++ heard)

def send (echo : Bool) (f : Bytes) (heard : List Bytes) (x : Station) : Station :=
  let out := ModbusRtuStream.send (port heard) echo f x.stream
  { x with
    stream := out.2
    sent := x.sent ++ [f]
    early := if echo ∧ x.stream.port.flatten ≠ [] then x.early + 1 else x.early
    failed := match out.1 with
      | .ok () => x.failed
      | .error _ => x.failed + 1 }

def carry (carried : List Bytes) (x : Station) : Station :=
  { x with stream := { x.stream with port := x.stream.port ++ carried } }

def receive (x : Station) : Station :=
  let out := ModbusRtuStream.receive (port []).toSource x.stream
  { x with
    stream := out.2
    received := match out.1 with
      | .ok f => x.received ++ [f]
      | .error _ => x.received }

/-! ### A call at one end -/

theorem send_silent (x : Station) (f : Bytes) (heard : List Bytes) :
    x.send false f heard =
      { x with
        stream := { x.stream with port := x.stream.port ++ heard }
        sent := x.sent ++ [f] } := by
  simp [send, ModbusRtuStream.send, port]

theorem readExactly_echo (s : ModbusRtuStream (List Bytes)) {f : Bytes} {heard : List Bytes}
    (hheard : heard.flatten = f) :
    ∃ t, ModbusRtuStream.readExactly (port heard).toSource f.length []
        { s with port := s.port ++ heard } =
        (.ok ((s.port.flatten ++ f).take f.length), { s with port := t }) ∧
      t.flatten = (s.port.flatten ++ f).drop f.length := by
  have hunread : (s.port ++ heard).flatten = s.port.flatten ++ f := by
    rw [List.flatten_append, hheard]
  have hq : (port heard).toSource.GoesQuiet (s.port ++ heard) := goesQuiet_pieces _
  obtain ⟨t, hread, hrest, -⟩ := ModbusRtuStream.readExactly_quiet
    (s := { s with port := s.port ++ heard }) hq f.length []
  refine ⟨t, ?_, hrest.trans (congrArg (List.drop f.length) hunread)⟩
  rw [hread, List.nil_append, ← hunread]
  rfl

/-- Where nothing is to be read, the echo is taken. -/
theorem send_clear {x : Station} {f : Bytes} {heard : List Bytes} (hheard : heard.flatten = f)
    (hnil : x.stream.port.flatten = []) :
    ∃ t, x.send true f heard =
        { x with stream := { x.stream with port := t }, sent := x.sent ++ [f] } ∧
      t.flatten = [] := by
  obtain ⟨t, hread, hrest⟩ := readExactly_echo x.stream hheard
  rw [hnil, List.nil_append, List.take_length] at hread
  rw [hnil, List.nil_append, List.drop_length] at hrest
  refine ⟨t, ?_, hrest⟩
  have hsend : ModbusRtuStream.send (port heard) true f x.stream =
      (.ok (), { x.stream with port := t }) := by
    have hwrite : (port heard).write x.stream.port f = (.ok f.length, x.stream.port ++ heard) := rfl
    simp [ModbusRtuStream.send, hwrite, hread]
  simp [send, hsend, hnil]

/-- Where something else is to be read first, the send fails and all of it is dropped. -/
theorem send_stale {x : Station} {f : Bytes} {heard : List Bytes} (hheard : heard.flatten = f)
    (hne : x.stream.port.flatten ≠ []) (hno : ¬ f <+: x.stream.port.flatten ++ f) :
    ∃ t, x.send true f heard =
        { x with
          stream := { x.stream with port := t, buffer := [] }
          sent := x.sent ++ [f]
          early := x.early + 1
          failed := x.failed + 1 } ∧
      t.flatten = [] := by
  obtain ⟨t, hread, -⟩ := readExactly_echo x.stream hheard
  have hother : (x.stream.port.flatten ++ f).take f.length ≠ f := by
    intro h
    have hprefix := List.take_prefix f.length (x.stream.port.flatten ++ f)
    rw [h] at hprefix
    exact hno hprefix
  have hq : (port heard).toSource.GoesQuiet t := goesQuiet_pieces t
  obtain ⟨t', hoff, hnil⟩ := ModbusRtuStream.readOff_quiet (s := { x.stream with port := t }) hq
  refine ⟨t', ?_, hnil⟩
  obtain ⟨e, hsend⟩ : ∃ e, ModbusRtuStream.send (port heard) true f x.stream =
      (.error e, { x.stream with port := t', buffer := [] }) := by
    unfold ModbusRtuStream.send ModbusRtuStream.drain
    have hwrite : (port heard).write x.stream.port f = (.ok f.length, x.stream.port ++ heard) := rfl
    simp only [hwrite, hread, hoff, ne_eq, hother, not_true, not_false_iff, if_true, if_false,
      reduceCtorEq]
    exact ⟨_, rfl⟩
  simp [send, hsend, hne]

theorem receive_frame {x : Station} {e : LineEnd} {f rest : Bytes} (hf : e.Reads f)
    (hside : x.stream.side = e.side) (hb : x.stream.buffer = [])
    (hport : x.stream.port.flatten = f ++ rest) :
    (ModbusRtuStream.receive (port []).toSource x.stream).1 = .ok f ∧
      ∃ t, x.receive =
          { x with
            stream := { x.stream with port := t, buffer := [], noise := 0 }
            received := x.received ++ [f] } ∧
        t.flatten = rest := by
  obtain ⟨p, hp, hl⟩ := hf.packet
  rw [← hside] at hp hl
  have hq : (port []).toSource.GoesQuiet x.stream.port := goesQuiet_pieces _
  obtain ⟨t, hr, hrest⟩ := ModbusRtuStream.receive_head hq hp hl hb hport
  exact ⟨congrArg Prod.fst hr, t, by simp only [receive, hr], hrest⟩

theorem receive_nothing {x : Station} (hb : x.stream.buffer = [])
    (hport : x.stream.port.flatten = []) :
    (∃ text, (ModbusRtuStream.receive (port []).toSource x.stream).1 = .error (.timeout text)) ∧
      ∃ t, x.receive = { x with stream := { x.stream with port := t, noise := 0 } } ∧
        t.flatten = [] := by
  have hq : (port []).toSource.GoesQuiet x.stream.port := goesQuiet_pieces _
  obtain ⟨text, t, hr, hnil⟩ := ModbusRtuStream.receive_none hq hb hport
  exact ⟨⟨text, congrArg Prod.fst hr⟩, t, by simp only [receive, hr], hnil⟩

end Station

def RtuLine : Type := LineEnd → Station

namespace RtuLine

def send (echo : LineEnd → Bool) (e : LineEnd) (f : Bytes) (heard carried : List Bytes)
    (w : RtuLine) : RtuLine :=
  fun d => if d = e then (w d).send (echo d) f heard else (w d).carry carried

def receive (e : LineEnd) (w : RtuLine) : RtuLine :=
  fun d => if d = e then (w d).receive else w d

/-- The calls on a line. Where the transceiver echoes, the frame written must not be what stands
on the line already: of an echo only the bytes are compared. -/
inductive Step (echo : LineEnd → Bool) : RtuLine → RtuLine → Prop
  | send {w : RtuLine} {e : LineEnd} {f : Bytes} {heard carried : List Bytes}
      (hf : e.other.Reads f) (hcarried : carried.flatten = f)
      (hheard : heard.flatten = if echo e then f else [])
      (hclear : echo e → f <+: (w e).stream.port.flatten ++ f → (w e).stream.port.flatten = []) :
      Step echo w (w.send echo e f heard carried)
  | receive {w : RtuLine} (e : LineEnd) : Step echo w (w.receive e)

def start : RtuLine := fun e => { stream := { port := [], side := e.side } }

def Reachable (echo : LineEnd → Bool) (w : RtuLine) : Prop := ReflTransGen (Step echo) start w

/-! ### What an end has in front of it -/

/-- The frames sent to an end: those settled, each with whether it was received, and then those
that are still to be read. -/
structure Delivers (sent : List Bytes) (e : LineEnd) (x : Station) (settled : List (Bytes × Bool))
    (flying : List Bytes) : Prop where
  sent : sent = settled.map Prod.fst ++ flying
  received : x.received = (settled.filter Prod.snd).map Prod.fst
  unread : x.stream.port.flatten = flying.flatten
  reads : ∀ f ∈ flying, e.Reads f
  side : x.stream.side = e.side
  buffer : x.stream.buffer = []
  resyncs : x.stream.resyncs = 0
  failed : x.failed = x.early
  kept : x.early = 0 → ∀ q ∈ settled, q.2 = true

namespace Delivers

variable {sent : List Bytes} {e : LineEnd} {x : Station} {settled : List (Bytes × Bool)}
  {flying : List Bytes} (h : Delivers sent e x settled flying)
include h

theorem carry {f : Bytes} {carried : List Bytes} (hf : e.Reads f) (hcarried : carried.flatten = f) :
    Delivers (sent ++ [f]) e (x.carry carried) settled (flying ++ [f]) where
  sent := by rw [h.sent, List.append_assoc]
  received := h.received
  unread := by
    change (x.stream.port ++ carried).flatten = (flying ++ [f]).flatten
    simp only [List.flatten_append, h.unread, hcarried, List.flatten_singleton]
  reads := by
    intro g hg
    rcases List.mem_append.mp hg with hg | hg
    · exact h.reads g hg
    · rw [List.mem_singleton.mp hg]
      exact hf
  side := h.side
  buffer := h.buffer
  resyncs := h.resyncs
  failed := h.failed
  kept := h.kept

theorem send {echo : Bool} {f : Bytes} {heard : List Bytes}
    (hheard : heard.flatten = if echo then f else [])
    (hclear : echo → f <+: x.stream.port.flatten ++ f → x.stream.port.flatten = []) :
    ∃ settled' flying', Delivers sent e (x.send echo f heard) settled' flying' := by
  cases echo with
  | false =>
    rw [Station.send_silent]
    have hunread : (x.stream.port ++ heard).flatten = flying.flatten := by
      rw [List.flatten_append, hheard, h.unread]
      exact List.append_nil _
    exact ⟨settled, flying, h.sent, h.received, hunread, h.reads, h.side, h.buffer, h.resyncs,
      h.failed, h.kept⟩
  | true =>
    rw [if_pos rfl] at hheard
    by_cases hnil : x.stream.port.flatten = []
    · obtain ⟨t, hsend, ht⟩ := Station.send_clear hheard hnil
      rw [hsend]
      exact ⟨settled, flying, h.sent, h.received, ht.trans (hnil.symm.trans h.unread), h.reads,
        h.side, h.buffer, h.resyncs, h.failed, h.kept⟩
    · obtain ⟨t, hsend, ht⟩ :=
        Station.send_stale hheard hnil (fun hp => hnil (hclear rfl hp))
      rw [hsend]
      refine ⟨settled ++ flying.map fun g => (g, false), [], ?_, ?_, ht, ?_, h.side, rfl,
        h.resyncs, congrArg (· + 1) h.failed, ?_⟩
      · rw [h.sent]
        simp [Function.comp_def]
      · rw [h.received, List.filter_append]
        simp
      · exact fun g hg => absurd hg List.not_mem_nil
      · exact fun hzero => absurd hzero (Nat.succ_ne_zero _)

theorem receive : ∃ settled' flying', Delivers sent e x.receive settled' flying' := by
  cases flying with
  | nil =>
    obtain ⟨-, t, hreceive, ht⟩ := Station.receive_nothing h.buffer h.unread
    rw [hreceive]
    exact ⟨settled, [], h.sent, h.received, ht, h.reads, h.side, h.buffer, h.resyncs, h.failed,
      h.kept⟩
  | cons f rest =>
    have hf := h.reads f List.mem_cons_self
    obtain ⟨-, t, hreceive, ht⟩ :=
      Station.receive_frame hf h.side h.buffer (h.unread.trans List.flatten_cons)
    rw [hreceive]
    refine ⟨settled ++ [(f, true)], rest, ?_, ?_, ht, ?_, h.side, rfl, h.resyncs, h.failed, ?_⟩
    · rw [h.sent]
      simp
    · rw [h.received]
      simp
    · exact fun g hg => h.reads g (List.mem_cons_of_mem f hg)
    · intro hzero q hq
      rcases List.mem_append.mp hq with hq | hq
      · exact h.kept hzero q hq
      · rw [List.mem_singleton.mp hq]

end Delivers

def Accounted (w : RtuLine) : Prop :=
  ∀ e, ∃ settled flying, Delivers (w e.other).sent e (w e) settled flying

theorem accounted_start : Accounted start := by
  intro e
  refine ⟨[], [], rfl, rfl, rfl, ?_, rfl, rfl, rfl, rfl, ?_⟩
  · exact fun g hg => absurd hg List.not_mem_nil
  · exact fun _ q hq => absurd hq List.not_mem_nil

theorem Accounted.step {echo : LineEnd → Bool} {w w' : RtuLine} (h : Accounted w)
    (hstep : Step echo w w') : Accounted w' := by
  intro d
  obtain ⟨settled, flying, hd⟩ := h d
  cases hstep with
  | @send e f heard carried hf hcarried hheard hclear =>
    by_cases hde : d = e
    · subst hde
      have hother : d.other ≠ d := by cases d <;> decide
      have hsent : (w.send echo d f heard carried d.other).sent = (w d.other).sent := by
        simp only [RtuLine.send, if_neg hother, Station.carry]
      have hself : w.send echo d f heard carried d = (w d).send (echo d) f heard := by
        simp only [RtuLine.send, if_true]
      rw [hsent, hself]
      exact hd.send hheard hclear
    · have hother : d.other = e := by
        revert hde
        cases d <;> cases e <;> decide
      subst hother
      have hsent : (w.send echo d.other f heard carried d.other).sent =
          (w d.other).sent ++ [f] := by
        simp only [RtuLine.send, if_true, Station.send]
      have hcarry : w.send echo d.other f heard carried d = (w d).carry carried := by
        simp only [RtuLine.send, if_neg hde]
      have hback : d.other.other = d := by cases d <;> rfl
      rw [hback] at hf
      rw [hsent, hcarry]
      exact ⟨_, _, hd.carry hf hcarried⟩
  | receive e =>
    have hsent : (w.receive e d.other).sent = (w d.other).sent := by
      simp only [RtuLine.receive]
      split_ifs <;> rfl
    rw [hsent]
    by_cases hde : d = e
    · subst hde
      have hself : w.receive d d = (w d).receive := by simp only [RtuLine.receive, if_true]
      rw [hself]
      exact hd.receive
    · have hself : w.receive e d = w d := by simp only [RtuLine.receive, if_neg hde]
      rw [hself]
      exact ⟨settled, flying, hd⟩

/-- Frames cross the line whole, once and in order, whatever is sent and received when, and
however what was written arrives: those an end was handed are those sent to it and not dropped,
and the next `receive` hands over the next frame or times out. Nothing is dropped unless a send
over an echo begins with bytes still to be read, and such a send raises. -/
theorem line_delivers {echo : LineEnd → Bool} {w : RtuLine} (hw : Reachable echo w) (e : LineEnd) :
    ∃ (settled : List (Bytes × Bool)) (flying : List Bytes),
      (w e.other).sent = settled.map Prod.fst ++ flying ∧
      (w e).received = (settled.filter Prod.snd).map Prod.fst ∧
      ((w e).early = 0 → ∀ q ∈ settled, q.2 = true) ∧
      (w e).failed = (w e).early ∧
      (w e).stream.port.flatten = flying.flatten ∧
      (w e).stream.buffer = [] ∧ (w e).stream.resyncs = 0 ∧
      (flying = [] → ∃ text, (ModbusRtuStream.receive (Station.port []).toSource
        (w e).stream).1 = .error (.timeout text)) ∧
      ∀ f rest, flying = f :: rest →
        (ModbusRtuStream.receive (Station.port []).toSource (w e).stream).1 = .ok f := by
  have hinv : Accounted w := invariant_of_run (fun s t (h : Accounted s) hstep => h.step hstep)
    accounted_start hw
  obtain ⟨settled, flying, h⟩ := hinv e
  refine ⟨settled, flying, h.sent, h.received, h.kept, h.failed, h.unread, h.buffer, h.resyncs,
    ?_, ?_⟩
  · rintro rfl
    exact (Station.receive_nothing h.buffer h.unread).1
  · rintro f rest rfl
    have hf := h.reads f List.mem_cons_self
    exact (Station.receive_frame hf h.side h.buffer (h.unread.trans List.flatten_cons)).1

/-- A poll over an echo while a late answer, come in two pieces, is still to be read. -/
theorem line_delivers_late :
    let echo : LineEnd → Bool := fun e => e = .client
    let w := (start.send echo .server [1, 3, 2, 0xAE, 0x41, 4, 0x14] []
      [[1, 3], [2, 0xAE, 0x41, 4, 0x14]]).send echo .client [7, 7, 0x42, 0x42]
      [[7, 7], [0x42, 0x42]] [[7, 7, 0x42, 0x42]]
    ∃ (settled : List (Bytes × Bool)) (flying : List Bytes),
      [[1, 3, 2, 0xAE, 0x41, 4, 0x14]] = settled.map Prod.fst ++ flying ∧
      (w .client).received = (settled.filter Prod.snd).map Prod.fst ∧
      ((w .client).early = 0 → ∀ q ∈ settled, q.2 = true) ∧
      (w .client).failed = (w .client).early ∧
      (w .client).stream.port.flatten = flying.flatten := by
  intro echo w
  have hpoll : LineEnd.server.Reads [7, 7, 0x42, 0x42] :=
    ⟨.request, ⟨7, .modbusRequestFC7, 0xFFFF⟩, ⟨7, .modbusRequestFC7, 0x4242⟩,
      ⟨by decide, by decide, .inl rfl, fun h => absurd rfl h⟩, by decide +kernel⟩
  have hanswer : LineEnd.client.Reads [1, 3, 2, 0xAE, 0x41, 4, 0x14] :=
    ⟨.response, ⟨1, .modbusResponseFC3 2 [0xAE41], 0xFFFF⟩,
      ⟨1, .modbusResponseFC3 2 [0xAE41], 5124⟩,
      .inl ⟨by decide, by decide, .inr (by decide), fun _ => rfl⟩, by decide +kernel⟩
  have hfirst : Step echo start (start.send echo .server [1, 3, 2, 0xAE, 0x41, 4, 0x14] []
      [[1, 3], [2, 0xAE, 0x41, 4, 0x14]]) :=
    .send hanswer rfl rfl fun h => absurd h (by decide)
  have hw : Reachable echo w := by
    refine (ReflTransGen.single hfirst).tail (.send hpoll rfl rfl fun _ hprefix => ?_)
    exact absurd hprefix (by decide)
  obtain ⟨settled, flying, hsent, hreceived, hkept, hfailed, hunread, -⟩ :=
    line_delivers hw .client
  exact ⟨settled, flying, hsent, hreceived, hkept, hfailed, hunread⟩

end RtuLine

end Pyomb
