import Pyomb.Pdu.Consistency
import Pyomb.Transport.Rtu

/-! What the splitter makes of the bytes it is pushed. Frames whose PDU states its own size
come out of it as they went in, however their concatenation is cut. Of any bytes at all,
whatever is pushed and whenever it is reset, it accounts for each: those it cut off as
frames, those it discarded, and those it holds. -/

namespace Pyomb

/-! ### Frames on the wire -/

/-- The PDUs whose frames a side can size: those of its direction that are sized, and
toward the client the error PDUs of the function codes that fit. -/
def RtuSide.Carries : RtuSide → Pdu → Prop
  | request, p => p.cls ∈ registry ∧ p.cls.isRequest ∧ p.Sized
  | response, p => (p.cls ∈ registry ∧ ¬ p.cls.isRequest ∧ p.Sized) ∨
      ∃ fc excCode, p = .modbusError fc excCode ∧ 0 ≤ fc ∧ fc ≤ 127

theorem RtuSide.Carries.sized {side : RtuSide} {p : Pdu} (h : side.Carries p) : p.Sized := by
  cases side with
  | request => exact h.2.2
  | response =>
    rcases h with h | ⟨fc, excCode, rfl, -, -⟩
    · exact h.2.2
    · exact ⟨.inl rfl, fun hc => absurd rfl hc⟩

theorem RtuSide.Carries.pduClass {side : RtuSide} {p : Pdu} (hp : side.Carries p) {b : UInt8}
    {rest : Bytes} (h : p.serialize = .ok (b :: rest)) : rtuPduClass b.toNat side = p.cls := by
  obtain ⟨b', rest', hs, hb⟩ := ModbusPduParser.serialize_head h
  obtain ⟨rfl, rfl⟩ := List.cons.inj hs
  cases side with
  | request =>
    obtain ⟨hm, hr, -⟩ := hp
    rw [ModbusPduParser.wireFc_of_mem_registry hm, ← pduId_of_isRequest _ hm hr] at hb
    rw [rtuPduClass, ← Int.ofNat_inj.mp hb, registryGet_pduId _ hm]
  | response =>
    rcases hp with ⟨hm, hr, -⟩ | ⟨fc, excCode, rfl, h0, -⟩
    · rw [ModbusPduParser.wireFc_of_mem_registry hm] at hb
      have hfc : p.cls.layout.fc = b.toNat := Int.ofNat_inj.mp hb
      have hlow := fc_lt_of_mem_registry _ hm
      rw [rtuPduClass, if_neg (by omega), ← hfc, ← pduId_of_not_isRequest _ hm hr,
        registryGet_pduId _ hm]
    · simp only [Pdu.wireFc, errorMask] at hb
      rw [rtuPduClass, if_pos (by omega)]
      rfl

theorem ModbusRtuPacket.serialize_of_deserialize {s : Bytes} {p : ModbusRtuPacket}
    (h : ModbusRtuPacket.deserialize s = .ok p) : p.serialize = .ok (s, p) := by
  obtain ⟨a', ha⟩ := (RtuAdu.serialize_deserialize h).mpr id
  obtain ⟨b, pdu, hslave, hp, hcrc, hs⟩ := RtuAdu.deserialize_eq_ok.mp h
  obtain ⟨slaveId, pdu', hs', hp', rfl, hcat⟩ := RtuAdu.serialize_eq_ok.mp ha
  rw [hslave, RtuAdu.pack_byte, Except.ok.injEq] at hs'
  subst hs'
  have hsame : pdu = pdu' := by
    have := List.append_inj_left' (hs.symm.trans hcat) (by simp)
    simpa using this
  rw [ha, ← hsame]
  obtain ⟨slaveId, pdu, crc⟩ := p
  simp only at hcrc
  rw [hcrc]
  rfl

theorem deserialize_of_judge {side : RtuSide} {s : Bytes} {p : ModbusRtuPacket} {n : ℕ}
    (h : (rtuFramer side).judge s = .frame p n) :
    ModbusRtuPacket.deserialize (s.take n) = .ok p := by
  simp only [rtuFramer] at h
  cases hp : (readRtuFrame s side).packet with
  | none =>
    rw [hp] at h
    split_ifs at h
  | some q =>
    rw [hp] at h
    obtain ⟨rfl, rfl⟩ := Verdict.frame.inj h
    exact (readRtuFrame_packet hp).2.2.2

/-- The head of a buffer that opens with a frame is read as that frame. -/
theorem readRtuFrame_serialize {side : RtuSide} {k : FrameKind} {a a' : RtuAdu k} {s : Bytes}
    (hp : side.Carries a.pdu) (h : a.serialize = .ok (s, a')) : ∃ p : ModbusRtuPacket,
      (rtuFramer side).judge s = .frame p s.length ∧ p.serialize = .ok (s, p) := by
  obtain ⟨slaveId, pdu, hs, hpdu, -, rfl⟩ := RtuAdu.serialize_eq_ok.mp h
  obtain ⟨b, rfl⟩ := List.length_eq_one_iff.mp (Struct.pack_length hs)
  obtain ⟨fc, rest, rfl, -⟩ := ModbusPduParser.serialize_head hpdu
  have hcrc : (Struct.Code.leH.encode (calcCrc16 ([b] ++ fc :: rest))).length = crcSize :=
    Struct.Code.encode_length _ _
  set crc := Struct.Code.leH.encode (calcCrc16 ([b] ++ fc :: rest)) with hcrcdef
  have hlen : ([b] ++ fc :: rest ++ crc).length = 1 + (fc :: rest).length + crcSize := by
    simp only [List.length_append, List.length_singleton, hcrc]
  have hmin : minRtuFrame ≤ ([b] ++ fc :: rest ++ crc).length := by
    have : minRtuFrame = 1 + 1 + crcSize := rfl
    rw [hlen, List.length_cons]
    omega
  have hsize : statedSize ([b] ++ fc :: rest ++ crc) side = .ok (some (fc :: rest).length) := by
    have hown := Pdu.expectedSize_of_sized hp.sized hpdu
    rw [← hp.pduClass hpdu] at hown
    have happ := PduClass.expectedSize_append (List.cons_ne_nil fc rest) (by rw [hown]; nofun) crc
    rw [hown] at happ
    exact happ
  obtain ⟨q, hq⟩ := PduClass.deserialize_modbusPdu (List.cons_ne_nil fc rest)
  have hdes : ModbusRtuPacket.deserialize ([b] ++ fc :: rest ++ crc) =
      .ok ⟨b.toNat, q, calcCrc16 (b :: fc :: rest)⟩ :=
    RtuAdu.deserialize_eq_ok.mpr ⟨b, fc :: rest, rfl, hq, rfl, rfl⟩
  refine ⟨_, ?_, ModbusRtuPacket.serialize_of_deserialize hdes⟩
  simp only [rtuFramer, readRtuFrame_eq hmin, hsize]
  rw [if_neg (by omega), ← hlen, List.take_length, hdes]

namespace ModbusRtuSplitter

/-- Frames a side can size come out of its splitter as they went in, however they are cut. -/
theorem pushAll_serialize (side : RtuSide) {k : FrameKind} {frames : List (RtuAdu k)}
    {streams pieces : List Bytes} (hc : ∀ a ∈ frames, side.Carries a.pdu)
    (hs : List.Forall₂ (fun a s => ∃ a', RtuAdu.serialize a = .ok (s, a')) frames streams)
    (hcut : pieces.flatten = streams.flatten) :
    List.Forall₂ (fun p s => p.serialize = .ok (s, p)) (pushAll { side } pieces).1 streams ∧
      (pushAll { side } pieces).2.resyncs = 0 ∧ (pushAll { side } pieces).2.pending = 0 := by
  obtain ⟨packets, hjudge, hback⟩ : ∃ packets : List ModbusRtuPacket,
      List.Forall₂ (fun p s => (rtuFramer side).judge s = .frame p s.length) packets streams ∧
        List.Forall₂ (fun p s => p.serialize = .ok (s, p)) packets streams := by
    clear hcut
    induction hs with
    | nil => exact ⟨[], .nil, .nil⟩
    | cons ha _ ih =>
      obtain ⟨a', ha⟩ := ha
      obtain ⟨p, hj, hp⟩ := readRtuFrame_serialize (hc _ List.mem_cons_self) ha
      obtain ⟨packets, hjudge, hback⟩ := ih fun a hm => hc a (List.mem_cons_of_mem _ hm)
      exact ⟨p :: packets, .cons hj hjudge, .cons hp hback⟩
  rw [pushAll_eq_scan, hcut, (rtuFramer side).scan_flatten hjudge]
  exact ⟨hback, rfl, rfl⟩

/-- Serialized frames survive the wire, in both directions. -/
theorem frames_survive :
    (∀ (frames : List ModbusRtuRequest) (streams pieces : List Bytes),
      (∀ a ∈ frames, RtuSide.request.Carries a.pdu) →
      List.Forall₂ (fun a s => ∃ a', RtuAdu.serialize a = .ok (s, a')) frames streams →
      pieces.flatten = streams.flatten →
      List.Forall₂ (fun p s => p.serialize = .ok (s, p)) (pushAll ⟨.request, [], 0⟩ pieces).1
          streams ∧
        (pushAll ⟨.request, [], 0⟩ pieces).2.resyncs = 0 ∧
        (pushAll ⟨.request, [], 0⟩ pieces).2.pending = 0) ∧
    (∀ (frames : List ModbusRtuResponse) (streams pieces : List Bytes),
      (∀ a ∈ frames, RtuSide.response.Carries a.pdu) →
      List.Forall₂ (fun a s => ∃ a', RtuAdu.serialize a = .ok (s, a')) frames streams →
      pieces.flatten = streams.flatten →
      List.Forall₂ (fun p s => p.serialize = .ok (s, p)) (pushAll ⟨.response, [], 0⟩ pieces).1
          streams ∧
        (pushAll ⟨.response, [], 0⟩ pieces).2.resyncs = 0 ∧
        (pushAll ⟨.response, [], 0⟩ pieces).2.pending = 0) :=
  ⟨fun _ _ _ hc hs hcut => pushAll_serialize .request hc hs hcut,
    fun _ _ _ hc hs hcut => pushAll_serialize .response hc hs hcut⟩

/-- Two requests, the second cut in the middle, and an answer and an exception. -/
theorem frames_survive_cut :
    (pushAll ⟨.request, [], 0⟩ [[1, 7, 0x41, 0xE2, 1, 8, 0], [1, 0, 0, 0xB1, 0xCB]]).2.pending = 0 ∧
    (pushAll ⟨.response, [], 0⟩
      [[1, 3, 2, 0xAE, 0x41, 4], [0x14, 1, 0x83, 2, 0xC0, 0xF1]]).2.pending = 0 := by
  refine ⟨(frames_survive.1 [⟨1, .modbusRequestFC7, 0xFFFF⟩, ⟨1, .modbusRequestFC8 1 [0], 0xFFFF⟩]
      [[1, 7, 0x41, 0xE2], [1, 8, 0, 1, 0, 0, 0xB1, 0xCB]] _ ?_ ?_ (by rfl)).2.2,
    (frames_survive.2 [⟨1, .modbusResponseFC3 2 [0xAE41], 0xFFFF⟩, ⟨1, .modbusError 3 2, 0xFFFF⟩]
      [[1, 3, 2, 0xAE, 0x41, 4, 0x14], [1, 0x83, 2, 0xC0, 0xF1]] _ ?_ ?_ (by rfl)).2.2⟩
  · refine List.forall_mem_cons.mpr ⟨⟨by decide, by decide, .inl rfl, fun h => absurd rfl h⟩, ?_⟩
    exact List.forall_mem_singleton.mpr ⟨by decide, by decide, by decide, by decide, rfl⟩
  · exact .cons ⟨⟨1, .modbusRequestFC7, 57921⟩, by decide +kernel⟩
      (.cons ⟨⟨1, .modbusRequestFC8 1 [0], 52145⟩, by decide +kernel⟩ .nil)
  · refine List.forall_mem_cons.mpr
      ⟨.inl ⟨by decide, by decide, .inr (by decide), fun _ => rfl⟩, ?_⟩
    exact List.forall_mem_singleton.mpr (.inr ⟨3, 2, rfl, by decide, by decide⟩)
  · exact .cons ⟨⟨1, .modbusResponseFC3 2 [0xAE41], 5124⟩, by decide +kernel⟩
      (.cons ⟨⟨1, .modbusError 3 2, 61888⟩, by decide +kernel⟩ .nil)

/-! ### Every byte accounted for -/

def reset (s : ModbusRtuSplitter) : ModbusRtuSplitter := { s with buffer := [], resyncs := 0 }

inductive Call where
  | push (data : Bytes)
  | reset
  deriving DecidableEq, Repr

/-- A splitter, with the bytes pushed and the packets returned since the last reset. -/
structure History where
  splitter : ModbusRtuSplitter
  pushed : Bytes := []
  emitted : List ModbusRtuPacket := []
  deriving DecidableEq, Repr

namespace History

def call (t : History) : Call → History
  | .push data =>
    ⟨(t.splitter.push data).2, t.pushed ++ data, t.emitted ++ (t.splitter.push data).1⟩
  | .reset => ⟨t.splitter.reset, [], []⟩

/-- The parts a history's bytes were cut into. -/
structure Accounted (t : History) (parts : List (Part ModbusRtuPacket)) : Prop where
  pushed : t.pushed = (parts.map Part.bytes).flatten ++ t.splitter.buffer
  emitted : t.emitted = parts.filterMap Part.frame?
  runs : ∀ p run, .frame p run ∈ parts → ModbusRtuPacket.deserialize run = .ok p
  resyncs : t.splitter.resyncs = parts.countP Part.isRejected

theorem accounted_nil (side : RtuSide) : Accounted ⟨{ side }, [], []⟩ [] :=
  ⟨rfl, rfl, fun _ _ hm => absurd hm List.not_mem_nil, rfl⟩

theorem Accounted.push {t : History} {parts : List (Part ModbusRtuPacket)} (h : t.Accounted parts)
    (data : Bytes) : ∃ more, (t.call (.push data)).Accounted (parts ++ more) := by
  obtain ⟨more, hbytes, hframes, hrej, hruns⟩ :=
    (rtuFramer t.splitter.side).scan_parts (t.splitter.buffer ++ data)
  rw [call, push_eq_scan]
  set x := (rtuFramer t.splitter.side).scan (t.splitter.buffer ++ data)
  refine ⟨more, ?_, ?_, ?_, ?_⟩
  · change t.pushed ++ data = ((parts ++ more).map Part.bytes).flatten ++ x.held
    rw [h.pushed, List.append_assoc, hbytes, List.map_append, List.flatten_append,
      List.append_assoc]
  · rw [h.emitted, List.filterMap_append, hframes]
  · intro p run hmem
    rcases List.mem_append.mp hmem with hmem | hmem
    · exact h.runs p run hmem
    · obtain ⟨rest, hjudge⟩ := hruns p run hmem
      have hrun := deserialize_of_judge hjudge
      rwa [List.take_left' rfl] at hrun
  · change t.splitter.resyncs + x.rejected = _
    rw [h.resyncs, hrej, List.countP_append]

theorem Accounted.calls {t : History} {parts : List (Part ModbusRtuPacket)} (h : t.Accounted parts)
    (calls : List Call) : ∃ parts', (calls.foldl call t).Accounted parts' := by
  induction calls generalizing t parts with
  | nil => exact ⟨parts, h⟩
  | cons c calls ih =>
    cases c with
    | push data =>
      obtain ⟨more, hmore⟩ := h.push data
      exact ih hmore
    | reset => exact ih (accounted_nil t.splitter.side)

end History

/-- The splitter accounts for every byte: since the last reset, what was pushed is the runs
its packets were read from and the bytes it discarded, in order, and then what it holds. -/
theorem calls_account (side : RtuSide) (calls : List Call) :
    let t := calls.foldl History.call { splitter := { side } }
    ∃ parts : List (Part ModbusRtuPacket),
      t.pushed = (parts.map Part.bytes).flatten ++ t.splitter.buffer ∧
      t.emitted = parts.filterMap Part.frame? ∧
      (∀ p run, .frame p run ∈ parts → p.serialize = .ok (run, p) ∧
        validateCrc run (RtuAdu.packetName .packet) = .ok p.crc) ∧
      t.splitter.resyncs = parts.countP Part.isRejected ∧
      t.pushed.length = ((parts.filterMap Part.run?).map List.length).sum + t.splitter.resyncs +
        t.splitter.pending := by
  intro t
  obtain ⟨parts, h⟩ : ∃ parts, t.Accounted parts :=
    (History.accounted_nil side).calls calls
  refine ⟨parts, h.pushed, h.emitted, fun p run hmem => ?_, h.resyncs, ?_⟩
  · have hp := h.runs p run hmem
    refine ⟨ModbusRtuPacket.serialize_of_deserialize hp, ?_⟩
    obtain ⟨b, pdu, -, hpdu, hcrc, rfl⟩ := RtuAdu.deserialize_eq_ok.mp hp
    have hl : (Struct.Code.leH.encode (calcCrc16 (b :: pdu))).length = crcSize :=
      Struct.Code.encode_length _ _
    have hpos := List.length_pos_iff.mpr (FrameKind.ne_nil_of_parse hpdu)
    refine validateCrc_eq_ok.mpr ⟨?_, ?_, ?_⟩
    · rw [List.length_append, List.length_cons, hl]; omega
    · rw [payload_append hl, hcrc]
    · rw [trailer_append hl, hcrc]
  · rw [h.pushed, List.length_append, Part.length_bytes, h.resyncs, pending]

end ModbusRtuSplitter

end Pyomb
