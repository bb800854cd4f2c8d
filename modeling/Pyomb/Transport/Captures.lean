import Pyomb.Runs
import Pyomb.Transport.Burst

/-! Receivers that capture from one connection, one `run_once` at a time, while other threads
call `stop` and `set_frag_size` on any of them at any moment. A capture can be stopped and taken
up again, by the same receiver's successor or by another: what the receivers hold is together
what has been read off the connection. -/

namespace Pyomb

open Relation (ReflTransGen)

namespace Captures

/-- Where `run_once` stands, with the fragment size that its stream has copied and the packet
that it is about to append. -/
inductive Capturing where
  | copy
  | test (fragSize : ℤ)
  | receive (fragSize : ℤ)
  | append (fragSize : ℤ) (packet : ModbusTcpPacket)
  deriving DecidableEq

end Captures

open Captures in
/-- The connection, the receivers on it, and the receiver whose `run_once` is under way. Kept for
the record: the packets in the order in which they have been read, each with its receiver, and
whether a call has raised. -/
structure Captures (σ : Type) where
  sock : σ
  receivers : ℕ → ModbusTcpReceiver := fun _ => {}
  under : Option (ℕ × Capturing) := none
  taken : List (ℕ × ModbusTcpPacket) := []
  raised : Bool := false

namespace Captures

variable {ε σ : Type} (conn : Source ε σ)

def change (w : Captures σ) (i : ℕ) (f : ModbusTcpReceiver → ModbusTcpReceiver) : Captures σ :=
  { w with receivers := Function.update w.receivers i (f (w.receivers i)) }

@[simp] theorem change_taken (w : Captures σ) (i : ℕ)
    (f : ModbusTcpReceiver → ModbusTcpReceiver) : (w.change i f).taken = w.taken := rfl

theorem change_self (w : Captures σ) (i : ℕ) (f : ModbusTcpReceiver → ModbusTcpReceiver) :
    (w.change i f).receivers i = f (w.receivers i) := Function.update_self ..

theorem change_of_ne (w : Captures σ) {i j : ℕ} (h : j ≠ i)
    (f : ModbusTcpReceiver → ModbusTcpReceiver) :
    (w.change i f).receivers j = w.receivers j := Function.update_of_ne h ..

inductive Step : Captures σ → Captures σ → Prop
  /-- `run_once` is called, on a receiver that has not been stopped. -/
  | call {w : Captures σ} {i : ℕ} (h : w.under = none) (hstop : (w.receivers i).stop = false) :
      Step w { w with under := some (i, .copy) }
  | copy {w : Captures σ} {i : ℕ} (h : w.under = some (i, .copy)) :
      Step w { w with under := some (i, .test (w.receivers i).fragSize) }
  | test {w : Captures σ} {i : ℕ} {fragSize : ℤ} (h : w.under = some (i, .test fragSize)) :
      Step w { w with
        under := if (w.receivers i).stop then none else some (i, .receive fragSize) }
  /-- The peer has closed the connection. -/
  | closed {w : Captures σ} {i : ℕ} {fragSize : ℤ} {sock : σ}
      (h : w.under = some (i, .receive fragSize))
      (hr : ModbusTcpStream.receive conn fragSize w.sock = some (.ok [], sock)) :
      Step w { w with sock, under := none }
  | received {w : Captures σ} {i : ℕ} {fragSize : ℤ} {sock : σ} {message : Bytes}
      {packet : ModbusTcpPacket} (h : w.under = some (i, .receive fragSize))
      (hr : ModbusTcpStream.receive conn fragSize w.sock = some (.ok message, sock))
      (hne : message ≠ []) (hp : ModbusTcpPacket.deserialize message = .ok packet) :
      Step w { w with
        sock
        under := some (i, .append fragSize packet)
        taken := w.taken ++ [(i, packet)] }
  /-- `receive` raises, or `deserialize` does. -/
  | raised {w : Captures σ} {i : ℕ} {fragSize : ℤ} {sock : σ} {r : Except (Exc ε) Bytes}
      (h : w.under = some (i, .receive fragSize))
      (hr : ModbusTcpStream.receive conn fragSize w.sock = some (r, sock))
      (hraise : (∃ e, r = .error e) ∨
        ∃ message e, r = .ok message ∧ message ≠ [] ∧
          ModbusTcpPacket.deserialize message = .error e) :
      Step w { w with sock, under := none, raised := true }
  | append {w : Captures σ} {i : ℕ} {fragSize : ℤ} {packet : ModbusTcpPacket}
      (h : w.under = some (i, .append fragSize packet)) :
      Step w { w.change i fun receiver =>
          { receiver with packets := receiver.packets ++ [packet] } with
        under := some (i, .test fragSize) }
  | stop {w : Captures σ} (i : ℕ) :
      Step w (w.change i fun receiver => { receiver with stop := true })
  | setFragSize {w : Captures σ} (i : ℕ) (value : ℤ) :
      Step w (w.change i fun receiver => { receiver with fragSize := value })

def Reachable (sock : σ) (w : Captures σ) : Prop :=
  ∃ start : Captures σ, start.sock = sock ∧ start.under = none ∧ start.taken = [] ∧
    (∀ i, (start.receivers i).packets = []) ∧ ReflTransGen (Step conn) start w

/-! ### One message -/

/-- What `receive` returns it has taken off the connection, no more and no less. -/
theorem receive_ok {fragSize : ℤ} {s s' : σ} {message : Bytes}
    (h : ModbusTcpStream.receive conn fragSize s = some (.ok message, s')) :
    conn.unread s = message ++ conn.unread s' := by
  obtain ⟨size, hsize, hr⟩ := ModbusTcpStream.exists_receive conn h
  rcases ModbusTcpStream.receive_cases conn hsize s with ⟨_, _, _, _, hc, -⟩ | ⟨s₁, hc, hnil, hs₁⟩ |
    ⟨_, _, hc, -⟩ | ⟨_, _, hc, -⟩ | ⟨s₁, hc, -, -, -, hs₁⟩ <;> rw [hr] at hc <;> cases hc
  · rw [hnil, hs₁]
    rfl
  · rw [hs₁, List.take_append_drop]

/-- A packet that has been read serializes to the bytes it was read from. -/
theorem serialize_packet {message : Bytes} {packet : ModbusTcpPacket}
    (h : ModbusTcpPacket.deserialize message = .ok packet) : packet.serialize = .ok message :=
  (TcpAdu.serialize_deserialize h).mpr id

/-! ### What has been read -/

section Order

variable {conn} {sock : σ} {w w' : Captures σ}

/-- The packet that the receiver has read and not yet appended. -/
def pending (w : Captures σ) (i : ℕ) : List ModbusTcpPacket :=
  match w.under with
  | some (j, .append _ packet) => if j = i then [packet] else []
  | _ => []

def takenBy (taken : List (ℕ × ModbusTcpPacket)) (i : ℕ) : List ModbusTcpPacket :=
  (taken.filter fun x => x.1 = i).map Prod.snd

theorem takenBy_snoc (taken : List (ℕ × ModbusTcpPacket)) (i j : ℕ) (packet : ModbusTcpPacket) :
    takenBy (taken ++ [(i, packet)]) j = takenBy taken j ++ if i = j then [packet] else [] := by
  by_cases hij : i = j <;> simp [takenBy, List.filter_append, hij]

/-- As long as nothing has been raised, what has come off the connection is what the packets
serialize to; and every packet is with the receiver that read it. -/
structure InOrder (conn : Source ε σ) (sock : σ) (w : Captures σ) : Prop where
  bytes : w.raised = false → ∃ frames : List Bytes,
    conn.unread sock = frames.flatten ++ conn.unread w.sock ∧
      List.Forall₂ (fun x f => TcpAdu.serialize x.2 = .ok f) w.taken frames
  held : ∀ i, (w.receivers i).packets ++ w.pending i = takenBy w.taken i

theorem InOrder.change (h : InOrder conn sock w) (i : ℕ)
    {f : ModbusTcpReceiver → ModbusTcpReceiver} (hf : ∀ r, (f r).packets = r.packets) :
    InOrder conn sock (w.change i f) := by
  refine ⟨h.bytes, fun j => ?_⟩
  have hpackets : ((w.change i f).receivers j).packets = (w.receivers j).packets := by
    by_cases hj : j = i
    · subst hj
      rw [change_self, hf]
    · rw [change_of_ne w hj]
  rw [hpackets]
  exact h.held j

theorem InOrder.goes (h : InOrder conn sock w) {under : Option (ℕ × Capturing)}
    (hold : ∀ i, w.pending i = []) (hnew : ∀ i, { w with under }.pending i = []) :
    InOrder conn sock { w with under } := by
  refine ⟨h.bytes, fun i => ?_⟩
  have hheld := h.held i
  rw [hold i] at hheld
  rw [hnew i]
  exact hheld

theorem InOrder.step (h : InOrder conn sock w) (hstep : Step conn w w') :
    InOrder conn sock w' := by
  cases hstep with
  | call hunder hstop => exact h.goes (fun i => by simp [pending, hunder]) (fun _ => rfl)
  | copy hunder => exact h.goes (fun i => by simp [pending, hunder]) (fun _ => rfl)
  | test hunder =>
    refine h.goes (fun i => by simp [pending, hunder]) (fun i => ?_)
    simp only [pending]
    split_ifs <;> rfl
  | @closed i fragSize sock' hunder hr =>
    have hread : conn.unread w.sock = conn.unread sock' := receive_ok conn hr
    refine ⟨fun hraised => ?_, fun j => ?_⟩
    · simpa only [hread] using h.bytes hraised
    · have hheld := h.held j
      simpa [pending, hunder] using hheld
  | @received i fragSize sock' message packet hunder hr hne hp =>
    refine ⟨fun hraised => ?_, fun j => ?_⟩
    · obtain ⟨frames, hframes, htaken⟩ := h.bytes hraised
      refine ⟨frames ++ [message], ?_, ?_⟩
      · rw [hframes, receive_ok conn hr]
        simp
      · exact List.rel_append htaken (.cons (serialize_packet hp) .nil)
    · have hheld := h.held j
      simp only [pending, hunder, List.append_nil] at hheld
      rw [takenBy_snoc, ← hheld]
      rfl
  | raised hunder hr hraise =>
    refine ⟨fun hraised => (by cases hraised), fun j => ?_⟩
    have hheld := h.held j
    simpa [pending, hunder] using hheld
  | @append i fragSize packet hunder =>
    refine ⟨h.bytes, fun j => ?_⟩
    have hheld := h.held j
    simp only [pending, hunder] at hheld
    by_cases hij : i = j
    · subst hij
      simpa [pending, change_self] using hheld
    · simpa [pending, change_of_ne w (Ne.symm hij), hij] using hheld
  | stop i => exact h.change i fun _ => rfl
  | setFragSize i value => exact h.change i fun _ => rfl

/-- However many receivers have captured from the connection in turn, and whoever has stopped
them or set their fragment sizes meanwhile: what has come off it is what they have read, message
by message, with no byte lost or read twice between one and the next; and each holds what it has
read, in order, but for the packet it is about to append. -/
theorem captures_in_order (hrun : Reachable conn sock w) (hraised : w.raised = false) :
    (∃ frames : List Bytes, conn.unread sock = frames.flatten ++ conn.unread w.sock ∧
      List.Forall₂ (fun x f => TcpAdu.serialize x.2 = .ok f) w.taken frames) ∧
    ∀ i, (w.receivers i).packets ++ w.pending i = takenBy w.taken i := by
  obtain ⟨start, rfl, hunder, htaken, hpackets, hrun⟩ := hrun
  have hstart : InOrder conn start.sock start := by
    refine ⟨fun _ => ⟨[], by simp, by simp [htaken]⟩, fun i => ?_⟩
    simp [pending, takenBy, hunder, htaken, hpackets]
  have horder : InOrder conn start.sock w :=
    invariant_of_run (fun s t (h : InOrder conn start.sock s) hstep => h.step hstep) hstart hrun
  exact ⟨horder.bytes hraised, horder.held⟩

def statusPacket : ModbusTcpPacket := ⟨⟨1, 0, 2, 1⟩, .modbusPdu 7 []⟩

/-- A receiver that has been stopped between its `receive` and its `append`. -/
def stopped (sock : Bytes) : Captures Bytes where
  sock := sock
  receivers := Function.update (fun _ => {}) 0 { stop := true }
  under := some (0, .append 0 statusPacket)
  taken := [(0, statusPacket)]

theorem stopped_reachable :
    ∃ sock, Reachable (Source.holding Empty) [0, 1, 0, 0, 0, 2, 1, 7] (stopped sock) := by
  let frame : TcpFrame := ⟨[0, 1, 0, 0, 0, 2, 1, 7], by decide, by decide⟩
  have hs : (Source.holding Empty).unread frame.bytes = frame.bytes ++ [] := rfl
  have hp : ModbusTcpPacket.deserialize frame.bytes = .ok statusPacket := rfl
  obtain ⟨sock, hr, -⟩ :=
    ModbusTcpStream.receive_frame (Source.holding Empty) (show (0 : ℤ) ≤ 0 by decide) frame hs
  have hcalled := (((ReflTransGen.refl (r := Step (Source.holding Empty))
    (a := { sock := frame.bytes })).tail (.call (i := 0) rfl rfl)).tail (.copy rfl)).tail (.test rfl)
  have hread := hcalled.tail (.received rfl hr frame.ne_nil hp)
  exact ⟨sock, _, rfl, rfl, rfl, fun _ => rfl, hread.tail (.stop 0)⟩

theorem captures_in_order_stopped : ∃ w : Captures Bytes,
    (w.receivers 0).stop = true ∧ w.pending 0 = [statusPacket] ∧
      takenBy w.taken 0 = (w.receivers 0).packets ++ [statusPacket] := by
  obtain ⟨sock, hreach⟩ := stopped_reachable
  have horder := (captures_in_order hreach rfl).2 0
  exact ⟨stopped sock, rfl, rfl, horder.symm⟩

/-! ### Stopping -/

/-- The packets that a stopped receiver may still append: one, where it is past the test. -/
def allowed (w : Captures σ) (i : ℕ) : ℕ :=
  match w.under with
  | some (j, .receive _) | some (j, .append ..) => if j = i then 1 else 0
  | _ => 0

/-- From one state to a later one, for a receiver that was stopped in the first. -/
structure Since (i : ℕ) (w w' : Captures σ) : Prop where
  stopped : (w'.receivers i).stop = true
  packets : ∃ more, (w'.receivers i).packets = (w.receivers i).packets ++ more ∧
    more.length + w'.allowed i ≤ w.allowed i

theorem Since.change {i j : ℕ} {v : Captures σ} (h : Since i v w)
    {f : ModbusTcpReceiver → ModbusTcpReceiver}
    (hf : ∀ r, (f r).packets = r.packets ∧ (r.stop = true → (f r).stop = true)) :
    Since i v (w.change j f) := by
  obtain ⟨hstopped, more, hmore, hallowed⟩ := h
  by_cases hij : i = j
  · subst hij
    refine ⟨?_, more, ?_, hallowed⟩
    · rw [change_self]
      exact (hf _).2 hstopped
    · rw [change_self, (hf _).1, hmore]
  · refine ⟨?_, more, ?_, hallowed⟩ <;> rw [change_of_ne w hij] <;> assumption

theorem Since.goes {i : ℕ} {v : Captures σ} (h : Since i v w)
    (hreceivers : w'.receivers = w.receivers) (hle : w'.allowed i ≤ w.allowed i) :
    Since i v w' := by
  obtain ⟨hstopped, more, hmore, hallowed⟩ := h
  refine ⟨hreceivers ▸ hstopped, more, hreceivers ▸ hmore, ?_⟩
  omega

theorem Since.step {i : ℕ} {v : Captures σ} (h : Since i v w) (hstep : Step conn w w') :
    Since i v w' := by
  cases hstep with
  | call hunder hstop => exact h.goes rfl (by simp [allowed])
  | copy hunder => exact h.goes rfl (by simp [allowed])
  | @test j fragSize hunder =>
    refine h.goes rfl ?_
    by_cases hij : j = i
    · subst hij
      simp [allowed, h.stopped]
    · simp only [allowed]
      split_ifs <;> simp [hij]
  | closed hunder hr => exact h.goes rfl (by simp [allowed])
  | received hunder hr hne hp => exact h.goes rfl (by simp [allowed, hunder])
  | raised hunder hr hraise => exact h.goes rfl (by simp [allowed])
  | @append j fragSize packet hunder =>
    obtain ⟨hstopped, more, hmore, hallowed⟩ := h
    by_cases hij : j = i
    · subst hij
      refine ⟨by simpa [change_self] using hstopped, more ++ [packet], ?_, ?_⟩
      · simp [change_self, hmore]
      · simpa [allowed, hunder] using hallowed
    · refine ⟨by simpa [change_of_ne w (Ne.symm hij)] using hstopped, more, ?_, ?_⟩
      · simpa [change_of_ne w (Ne.symm hij)] using hmore
      · simpa [allowed, hunder, hij] using hallowed
  | stop j => exact h.change fun r => ⟨rfl, fun _ => rfl⟩
  | setFragSize j value => exact h.change fun r => ⟨rfl, id⟩

/-- From a `stop` on a receiver appends one packet at most, and none where its `run_once` is not
past the test of the event, whatever else is called. -/
theorem stop_ends_capture {i : ℕ} (hstop : (w.receivers i).stop = true)
    (hrun : ReflTransGen (Step conn) w w') :
    ∃ more, (w'.receivers i).packets = (w.receivers i).packets ++ more ∧
      more.length + w'.allowed i ≤ w.allowed i ∧ w.allowed i ≤ 1 := by
  have hstart : Since i w w := ⟨hstop, [], by simp, by simp⟩
  have hsince : Since i w w' :=
    invariant_of_run (fun s t (h : Since i w s) hstep => h.step hstep) hstart hrun
  obtain ⟨more, hmore, hallowed⟩ := hsince.packets
  refine ⟨more, hmore, hallowed, ?_⟩
  unfold allowed
  split <;> first | split_ifs <;> omega | omega

theorem stop_ends_capture_stopped :
    ∃ more, [statusPacket] = ((stopped []).receivers 0).packets ++ more ∧ more.length ≤ 1 := by
  have hstop : ((stopped []).receivers 0).stop = true := rfl
  have happend : Step (Source.holding Empty) (stopped []) _ := .append rfl
  obtain ⟨more, hmore, hle, hone⟩ := stop_ends_capture hstop (.single happend)
  exact ⟨more, hmore, by omega⟩

end Order

end Captures

end Pyomb
