import Pyomb.Transport.Stream

/-! Sending a list of packets and capturing what arrives. The sender writes into each
header how many bytes its PDU has before it serializes the packet; the receiver takes one
frame after the other off the socket until there is none. All the two share is the bytes
between them, and yet each packet sent is one packet captured. -/

namespace Pyomb

/-- `packet.header.length = len(packet.pdu) + 1`. -/
def TcpAdu.rewriteLength {k : FrameKind} (a : TcpAdu k) : Except Struct.Error (TcpAdu k) :=
  a.pdu.len.map fun n => { a with header := { a.header with length := n + 1 } }

/-! ### The sender -/

structure ModbusTcpSender where
  packets : List ModbusTcpPacket
  fragSize : ℤ := 0
  burstMode : Bool := false
  stop : Bool := false
  deriving DecidableEq

namespace ModbusTcpSender

variable {ε σ : Type} (sock : SendSocket ε σ)

/-- The loop of `run_once`. The packets come back as it leaves them, their headers
rewritten up to the one that raised. -/
def sendEach (fragSize : ℤ) (burst : Bool) :
    List ModbusTcpPacket → σ → Except (Exc ε) Unit × List ModbusTcpPacket × σ
  | [], s => (.ok (), [], s)
  | a :: packets, s =>
    match a.rewriteLength with
    | .error e => (.error (.struct e), a :: packets, s)
    | .ok a' =>
      match a'.serialize with
      | .error e => (.error (.packet e), a' :: packets, s)
      | .ok message =>
        match ModbusTcpStream.send sock fragSize burst message s with
        | (.error e, s') => (.error e, a' :: packets, s')
        | (.ok (), s') =>
          let (r, packets', s'') := sendEach fragSize burst packets s'
          (r, a' :: packets', s'')

def runOnce (sender : ModbusTcpSender) (s : σ) : Except (Exc ε) Unit × ModbusTcpSender × σ :=
  if sender.stop then (.ok (), sender, s)
  else
    let (r, packets, s') := sendEach sock sender.fragSize sender.burstMode sender.packets s
    (r, { sender with packets }, s')

/-- A packet whose header serializes under some length, and whose PDU serializes to no more
bytes than a length can count. -/
def Sendable (a : ModbusTcpPacket) : Prop :=
  (∃ (length : ℤ) (h : Bytes), { a.header with length }.serialize = .ok h) ∧
    ∃ (p : Bytes) (n : ℕ), a.pdu.serialize = .ok p ∧ a.pdu.len = .ok n ∧ n + 1 < 2 ^ 16

end ModbusTcpSender

/-! ### The receiver -/

structure ModbusTcpReceiver where
  packets : List ModbusTcpPacket := []
  fragSize : ℤ := 0
  stop : Bool := false
  deriving DecidableEq

namespace ModbusTcpReceiver

variable {ε σ : Type} (sock : Source ε σ)

/-- The loop of `run_once`, `none` where the given number of rounds was not enough or a
call of `receive` never returns. -/
def capture (fragSize : ℤ) :
    ℕ → List ModbusTcpPacket → σ → Option (Except (Exc ε) Unit × List ModbusTcpPacket × σ)
  | 0, _, _ => none
  | rounds + 1, packets, s =>
    match ModbusTcpStream.receive sock fragSize s with
    | none => none
    | some (.error e, s') => some (.error e, packets, s')
    | some (.ok message, s') =>
      if message = [] then some (.ok (), packets, s')
      else
        match ModbusTcpPacket.deserialize message with
        | .error e => some (.error (.packet e), packets, s')
        | .ok packet => capture fragSize rounds (packets ++ [packet]) s'

/-- `run_once`. A round that is followed by another has taken a frame off the socket, so
one more round than there are bytes is enough where any number is. -/
def runOnce (receiver : ModbusTcpReceiver) (s : σ) :
    Option (Except (Exc ε) (List ModbusTcpPacket) × ModbusTcpReceiver × σ) :=
  if receiver.stop then some (.ok receiver.packets, receiver, s)
  else
    (capture sock receiver.fragSize ((sock.unread s).length + 1) receiver.packets s).map
      fun (r, packets, s') => (r.map fun _ => packets, { receiver with packets }, s')

end ModbusTcpReceiver

/-! ### One packet -/

/-- Bytes that are one frame, and that a packet reads and writes back. -/
structure Captured (f : Bytes) (b : ModbusTcpPacket) : Prop where
  deserialized : ModbusTcpPacket.deserialize f = .ok b
  serialized : b.serialize = .ok f
  measured : ∃ n : ℕ, b.pdu.len = .ok n ∧ b.header.length = n + 1

theorem ModbusHeader.serialize_rewrite {h : ModbusHeader} {length : ℤ} {s : Bytes}
    (hs : { h with length }.serialize = .ok s) {n : ℕ} (hn : n + 1 < 2 ^ 16) :
    ∃ s', { h with length := (n : ℤ) + 1 }.serialize = .ok s' := by
  obtain ⟨hfits, -⟩ := Struct.pack_eq_ok.mp (serialize_eq_ok.mp hs)
  simp only [headerFmt, List.forall₂_cons] at hfits
  obtain ⟨ht, hp, -, hu, hnil⟩ := hfits
  have hl : Struct.Fits .H ((n : ℤ) + 1) := ⟨by omega, by simp only [Struct.Code.size]; omega⟩
  exact ⟨_, serialize_eq_ok.mpr (Struct.pack_eq_ok.mpr
    ⟨.cons ht (.cons hp (.cons hl (.cons hu hnil))), rfl⟩)⟩

theorem ModbusTcpSender.Sendable.frame {a : ModbusTcpPacket} (h : ModbusTcpSender.Sendable a) :
    ∃ (a' : ModbusTcpPacket) (f : TcpFrame), a.rewriteLength = .ok a' ∧
      a'.serialize = .ok f.bytes ∧ ∃ b, Captured f.bytes b := by
  obtain ⟨⟨length, h₀, hh₀⟩, p, n, hp, hlen, hn⟩ := h
  obtain ⟨hb, hh⟩ := ModbusHeader.serialize_rewrite hh₀ hn
  obtain rfl : p.length = n := Except.ok.inj ((Pdu.len_of_serialize hp).symm.trans hlen)
  have hl := ModbusHeader.serialize_length hh
  have hsize := headerSize_eq
  have hseven : ModbusHeader.size = 7 := rfl
  obtain ⟨fc, rest, hcons, -⟩ := ModbusPduParser.serialize_head hp
  obtain ⟨q, hq⟩ := PduClass.deserialize_modbusPdu (s := p) (by rw [hcons]; nofun)
  have hmbap : mbapLength (hb ++ p) = p.length + 1 := by
    have hd : (p.length : ℤ) + 1 = mbapLength hb :=
      length_of_deserialize (ModbusHeader.deserialize_serialize hh)
    rw [mbapLength_append (by omega)]
    omega
  have hdes : ModbusTcpPacket.deserialize (hb ++ p) =
      .ok ⟨{ a.header with length := (p.length : ℤ) + 1 }, q⟩ := by
    refine TcpAdu.deserialize_eq_ok.mpr ⟨TcpAdu.readHeader_eq_ok.mpr ⟨?_, ?_⟩, ?_⟩
    · rw [List.take_left' hl]
      exact ModbusHeader.deserialize_serialize hh
    · rw [List.length_append, hl]
      push_cast
      ring
    · rw [List.drop_left' hl]
      exact hq
  have hqs : q.serialize = .ok p := by
    refine (FrameKind.serialize_parse (k := .packet) hq).mpr id
  refine ⟨{ a with header := { a.header with length := (p.length : ℤ) + 1 } },
    ⟨hb ++ p, by rw [List.length_append]; omega, by rw [List.length_append, hmbap]; omega⟩,
    by rw [TcpAdu.rewriteLength, hlen]; rfl, TcpAdu.serialize_eq_ok.mpr ⟨hb, p, hh, hp, rfl⟩,
    _, hdes, (TcpAdu.serialize_deserialize hdes).mpr id, p.length, Pdu.len_of_serialize hqs, rfl⟩

/-! ### The burst -/

theorem ModbusTcpSender.sendEach_accepted {ε σ : Type} {sock : SendSocket ε σ}
    (h : sock.AcceptsAll) {fragSize : ℤ} (hf : 0 ≤ fragSize) {burst : Bool}
    (hset : burst = true → ∀ s, ∃ s', sock.setNoDelay s = (.ok (), s'))
    {packets : List ModbusTcpPacket} (hp : ∀ a ∈ packets, Sendable a) (s : σ) :
    ∃ (packets' : List ModbusTcpPacket) (frames : List TcpFrame) (s' : σ),
      sendEach sock fragSize burst packets s = (.ok (), packets', s') ∧
      List.Forall₂ (fun a a' => TcpAdu.rewriteLength a = .ok a') packets packets' ∧
      List.Forall₂ (fun a' f => TcpAdu.serialize a' = .ok (TcpFrame.bytes f)) packets' frames ∧
      (∀ f ∈ frames, ∃ b, Captured f.bytes b) ∧
      sock.accepted s' = sock.accepted s ++ (frames.map TcpFrame.bytes).flatten := by
  induction packets generalizing s with
  | nil => exact ⟨[], [], s, rfl, .nil, .nil, nofun, by simp⟩
  | cons a packets ih =>
    obtain ⟨a', f, hr, hs, hb⟩ := (hp a List.mem_cons_self).frame
    obtain ⟨s₁, hsend, hacc⟩ := ModbusTcpStream.send_accepted h hf hset f.bytes s
    obtain ⟨packets', frames, s', heach, hrs, hss, hbs, hacc'⟩ :=
      ih (fun a hm => hp a (List.mem_cons_of_mem _ hm)) s₁
    refine ⟨a' :: packets', f :: frames, s', ?_, .cons hr hrs, .cons hs hss,
      List.forall_mem_cons.mpr ⟨hb, hbs⟩, ?_⟩
    · simp [sendEach, hr, hs, hsend, heach]
    · rw [hacc', hacc, List.map_cons, List.flatten_cons, List.append_assoc]

theorem ModbusTcpReceiver.capture_frames {σ : Type} (sock : Source Empty σ) {fragSize : ℤ}
    (hf : 0 ≤ fragSize) {frames : List TcpFrame} (hb : ∀ f ∈ frames, ∃ b, Captured f.bytes b)
    {s : σ} (hs : sock.unread s = (frames.map TcpFrame.bytes).flatten) {rounds : ℕ}
    (hr : frames.length < rounds) (packets : List ModbusTcpPacket) :
    ∃ got s', capture sock fragSize rounds packets s = some (.ok (), packets ++ got, s') ∧
      List.Forall₂ (fun f b => Captured (TcpFrame.bytes f) b) frames got := by
  induction frames generalizing s rounds packets with
  | nil =>
    obtain ⟨rounds, rfl⟩ := Nat.exists_eq_succ_of_ne_zero hr.ne_bot
    obtain ⟨s', hrecv, -⟩ := ModbusTcpStream.receive_nil sock hf (s := s) (by simpa using hs)
    exact ⟨[], s', by simp [capture, hrecv], .nil⟩
  | cons f frames ih =>
    obtain ⟨rounds, rfl⟩ := Nat.exists_eq_succ_of_ne_zero hr.ne_bot
    rw [List.map_cons, List.flatten_cons] at hs
    obtain ⟨⟨b, hcap⟩, hbs⟩ := List.forall_mem_cons.mp hb
    obtain ⟨s₁, hrecv, hs₁⟩ := ModbusTcpStream.receive_frame sock hf f hs
    have hlt : frames.length < rounds := by simpa using hr
    obtain ⟨got, s', hcapture, hgot⟩ := ih hbs hs₁ hlt (packets ++ [b])
    refine ⟨b :: got, s', ?_, .cons hcap hgot⟩
    rw [capture, hrecv]
    simp only [if_neg f.ne_nil, hcap.deserialized, hcapture, List.append_assoc,
      List.singleton_append]

theorem length_le_flatten (frames : List TcpFrame) :
    frames.length ≤ (frames.map TcpFrame.bytes).flatten.length := by
  induction frames with
  | nil => exact le_rfl
  | cons f frames ih =>
    have := List.length_pos_iff.mpr f.ne_nil
    rw [List.map_cons, List.flatten_cons, List.length_append, List.length_cons]
    omega

/-- A burst is captured whole: over a socket that accepts each write in full and then
closes, whatever fragment sizes the two ends use and however the bytes between them are cut,
the receiver returns a packet for each one sent, which serializes to the frame that was
sent and whose header counts its PDU. -/
theorem burst_captured {ε σ : Type} {sock : SendSocket ε σ} (hsock : sock.AcceptsAll)
    (sender : ModbusTcpSender) (hstop : sender.stop = false) (hf : 0 ≤ sender.fragSize)
    (hset : sender.burstMode = true → ∀ s, ∃ s', sock.setNoDelay s = (.ok (), s'))
    (hp : ∀ a ∈ sender.packets, ModbusTcpSender.Sendable a) (s : σ) :
    ∃ (sender' : ModbusTcpSender) (frames : List Bytes) (s' : σ),
      sender.runOnce sock s = (.ok (), sender', s') ∧
      List.Forall₂ (fun a a' => TcpAdu.rewriteLength a = .ok a') sender.packets
        sender'.packets ∧
      List.Forall₂ (fun a f => TcpAdu.serialize a = .ok f) sender'.packets frames ∧
      sock.accepted s' = sock.accepted s ++ frames.flatten ∧
      ∀ (τ : Type) (conn : Source Empty τ) (t : τ) (fragSize : ℤ), 0 ≤ fragSize →
        conn.unread t = frames.flatten →
        ∃ (got : List ModbusTcpPacket) (receiver' : ModbusTcpReceiver) (t' : τ),
          ModbusTcpReceiver.runOnce conn { fragSize } t = some (.ok got, receiver', t') ∧
          List.Forall₂ (fun b f => TcpAdu.serialize b = .ok f ∧
            ∃ n : ℕ, b.pdu.len = .ok n ∧ b.header.length = n + 1) got frames := by
  obtain ⟨packets', frames, s', heach, hrewrite, hserialize, hcap, hacc⟩ :=
    ModbusTcpSender.sendEach_accepted hsock hf hset hp s
  refine ⟨{ sender with packets := packets' }, frames.map TcpFrame.bytes, s', ?_, hrewrite,
    List.forall₂_map_right_iff.mpr hserialize, hacc, ?_⟩
  · simp [ModbusTcpSender.runOnce, hstop, heach]
  · intro τ conn t fragSize hf' ht
    have hrounds : frames.length < (conn.unread t).length + 1 := by
      have := length_le_flatten frames
      rw [ht]
      omega
    obtain ⟨got, t', hcapture, hgot⟩ :=
      ModbusTcpReceiver.capture_frames conn hf' hcap ht hrounds []
    refine ⟨got, { packets := got, fragSize }, t', ?_, ?_⟩
    · simp [ModbusTcpReceiver.runOnce, hcapture, Except.map]
    · refine List.forall₂_map_right_iff.mpr (hgot.flip.imp fun b f hb => ?_)
      exact ⟨hb.serialized, hb.measured⟩

theorem burst_captured_two : ∃ (sender' : ModbusTcpSender) (s' : Bytes),
    ModbusTcpSender.runOnce (SendSocket.accepting Empty)
      { packets := [⟨⟨1, 0, 0, 1⟩, .modbusRequestFC7⟩, ⟨⟨2, 0, 70000, 1⟩, .modbusRequestFC3 0 2⟩]
        fragSize := 3 } [] = (.ok (), sender', s') := by
  have hsend : ∀ a ∈ [(⟨⟨1, 0, 0, 1⟩, .modbusRequestFC7⟩ : ModbusTcpPacket),
      ⟨⟨2, 0, 70000, 1⟩, .modbusRequestFC3 0 2⟩], ModbusTcpSender.Sendable a := by
    refine List.forall_mem_cons.mpr ⟨⟨⟨0, _, rfl⟩, _, 1, rfl, rfl, by decide⟩, ?_⟩
    exact List.forall_mem_singleton.mpr ⟨⟨0, _, rfl⟩, _, 5, rfl, rfl, by decide⟩
  have hsock : (SendSocket.accepting Empty).AcceptsAll := fun s d => ⟨s ++ d, rfl⟩
  obtain ⟨sender', frames, s', hrun, -⟩ :=
    burst_captured hsock ⟨_, 3, false, false⟩ rfl (by decide) nofun hsend []
  exact ⟨sender', s', hrun⟩

end Pyomb
