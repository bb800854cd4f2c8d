import Mathlib.Data.List.GetD
import Pyomb.Bytes.Framing
import Pyomb.Adu.Rtu

/-! The RTU splitter. An RTU frame declares no length: the class its function code names
states the size, and the checksum at that boundary confirms or rejects it. The verdict on
the head of a buffer is stable once it is not to wait, so the splitter is a framer, and
what it finds does not depend on how the bytes arrive. -/

namespace Pyomb

/-- `MIN_RTU_FRAME`. -/
def minRtuFrame : ℕ := 1 + 1 + crcSize

inductive RtuSide where
  | request | response
  deriving DecidableEq, Repr

/-- What reading the head of a buffer as one direction produced. -/
structure RtuRead where
  packet : Option ModbusRtuPacket
  length : ℕ
  incomplete : Bool
  wanted : ℕ
  sizable : Bool
  deriving DecidableEq, Repr

/-- `_pdu_class`. -/
def rtuPduClass (funcCode : ℕ) : RtuSide → PduClass
  | .request => registryGet funcCode
  | .response => if 0x80 ≤ funcCode then .modbusError else registryGet (funcCode + 0x8000)

/-- `read_rtu_frame`. -/
def readRtuFrame (stream : Bytes) (side : RtuSide) : RtuRead :=
  if stream.length < minRtuFrame then ⟨none, 0, true, minRtuFrame - stream.length, true⟩
  else
    let start := stream.drop 1
    match (rtuPduClass (start.getD 0 0).toNat side).expectedSize start with
    | .error _ => ⟨none, 0, false, 0, false⟩
    | .ok none => ⟨none, 0, true, 1, true⟩
    | .ok (some size) =>
      let stop := 1 + size + crcSize
      if stream.length < stop then ⟨none, 0, true, stop - stream.length, true⟩
      else
        match ModbusRtuPacket.deserialize (stream.take stop) with
        | .error _ => ⟨none, 0, false, 0, true⟩
        | .ok packet => ⟨some packet, stop, false, 0, true⟩

/-! ### Verdicts -/

theorem PduLayout.expectedSize_append {l : PduLayout} {s : Bytes} (hs : s ≠ [])
    (h : l.expectedSize s ≠ .ok none) (t : Bytes) : l.expectedSize (s ++ t) = l.expectedSize s := by
  have hpos := List.length_pos_iff.mpr hs
  unfold expectedSize at h ⊢
  split at h <;> try rfl
  dsimp only at h ⊢
  split_ifs at h with hlt
  · exact absurd rfl h
  · rw [if_neg hlt, if_neg (by rw [List.length_append]; omega), List.getD_append _ _ _ _ (by omega)]

theorem PduLayout.diagnosticSizeFromPrefix_append {name : String} {s : Bytes}
    (h : diagnosticSizeFromPrefix name s ≠ .ok none) (t : Bytes) :
    diagnosticSizeFromPrefix name (s ++ t) = diagnosticSizeFromPrefix name s := by
  unfold diagnosticSizeFromPrefix at h ⊢
  dsimp only at h ⊢
  split_ifs at h with hlt
  · exact absurd rfl h
  all_goals
    rw [if_neg hlt, if_neg (by rw [List.length_append]; omega),
      List.take_append_of_le_length (by omega)]

/-- A size, or the lack of one, once stated does not change as more bytes arrive. -/
theorem PduClass.expectedSize_append {c : PduClass} {s : Bytes} (hs : s ≠ [])
    (h : c.expectedSize s ≠ .ok none) (t : Bytes) : c.expectedSize (s ++ t) = c.expectedSize s := by
  unfold expectedSize at h ⊢
  split at h
  · exact PduLayout.diagnosticSizeFromPrefix_append h t
  · exact PduLayout.diagnosticSizeFromPrefix_append h t
  · exact PduLayout.expectedSize_append hs h t

/-- The size the bytes behind the slave id state. -/
def statedSize (s : Bytes) (side : RtuSide) : Except PacketError (Option ℕ) :=
  (rtuPduClass ((s.drop 1).getD 0 0).toNat side).expectedSize (s.drop 1)

theorem readRtuFrame_eq {s : Bytes} (hmin : minRtuFrame ≤ s.length) (side : RtuSide) :
    readRtuFrame s side =
      match statedSize s side with
      | .error _ => ⟨none, 0, false, 0, false⟩
      | .ok none => ⟨none, 0, true, 1, true⟩
      | .ok (some size) =>
        if s.length < 1 + size + crcSize then
          ⟨none, 0, true, 1 + size + crcSize - s.length, true⟩
        else
          match ModbusRtuPacket.deserialize (s.take (1 + size + crcSize)) with
          | .error _ => ⟨none, 0, false, 0, true⟩
          | .ok packet => ⟨some packet, 1 + size + crcSize, false, 0, true⟩ := by
  rw [readRtuFrame, if_neg (by omega)]
  rfl

theorem statedSize_append {s : Bytes} (hmin : minRtuFrame ≤ s.length) {side : RtuSide}
    (h : statedSize s side ≠ .ok none) (t : Bytes) :
    statedSize (s ++ t) side = statedSize s side := by
  have hmin4 : minRtuFrame = 4 := rfl
  have hl : 0 < (s.drop 1).length := by rw [List.length_drop]; omega
  unfold statedSize at h ⊢
  rw [List.drop_append_of_le_length (by omega), List.getD_append _ _ _ _ hl]
  exact PduClass.expectedSize_append (List.length_pos_iff.mp hl) h t

/-- Fewer bytes than the shortest frame has are never enough for a verdict. -/
theorem minRtuFrame_le {s : Bytes} {side : RtuSide}
    (h : (readRtuFrame s side).incomplete = false) : minRtuFrame ≤ s.length := by
  by_contra hlt
  simp [readRtuFrame, Nat.lt_of_not_le hlt] at h

/-- A verdict that does not ask for more bytes is the same whatever follows. -/
theorem readRtuFrame_append {s : Bytes} {side : RtuSide}
    (h : (readRtuFrame s side).incomplete = false) (t : Bytes) :
    readRtuFrame (s ++ t) side = readRtuFrame s side := by
  have hmin := minRtuFrame_le h
  have hmin' : minRtuFrame ≤ (s ++ t).length := by rw [List.length_append]; omega
  rw [readRtuFrame_eq hmin] at h ⊢
  rw [readRtuFrame_eq hmin']
  cases hsize : statedSize s side with
  | error e => rw [statedSize_append hmin (by rw [hsize]; nofun), hsize]
  | ok size =>
    cases size with
    | none => simp [hsize] at h
    | some size =>
      rw [statedSize_append hmin (by rw [hsize]; nofun), hsize]
      simp only [hsize] at h ⊢
      split_ifs at h with hlt
      rw [if_neg hlt, if_neg (by rw [List.length_append]; omega),
        List.take_append_of_le_length (by omega)]

/-- What a packet read off the head of a buffer says of its size. -/
theorem readRtuFrame_packet {s : Bytes} {side : RtuSide} {p : ModbusRtuPacket}
    (h : (readRtuFrame s side).packet = some p) :
    (readRtuFrame s side).incomplete = false ∧ 0 < (readRtuFrame s side).length ∧
      (readRtuFrame s side).length ≤ s.length ∧
      ModbusRtuPacket.deserialize (s.take (readRtuFrame s side).length) = .ok p := by
  rcases Nat.lt_or_ge s.length minRtuFrame with hlt | hmin
  · simp [readRtuFrame, hlt] at h
  rw [readRtuFrame_eq hmin] at h ⊢
  rcases hsize : statedSize s side with e | _ | size <;> simp only [hsize, reduceCtorEq] at h
  split_ifs at h with hlt
  cases hd : ModbusRtuPacket.deserialize (s.take (1 + size + crcSize)) with
  | error e => simp [hd] at h
  | ok packet =>
    simp only [hd, Option.some.injEq] at h
    subst h
    simp only [if_neg hlt, hd]
    exact ⟨trivial, by omega, by omega, trivial⟩

/-! ### The splitter -/

structure ModbusRtuSplitter where
  side : RtuSide
  buffer : Bytes := []
  resyncs : ℕ := 0
  deriving DecidableEq, Repr

namespace ModbusRtuSplitter

def pending (s : ModbusRtuSplitter) : ℕ := s.buffer.length

/-- `_discard`. -/
def discard (s : ModbusRtuSplitter) : ModbusRtuSplitter :=
  { s with buffer := s.buffer.drop 1, resyncs := s.resyncs + 1 }

/-- `_take`. -/
def take (s : ModbusRtuSplitter) : Option ModbusRtuPacket × ModbusRtuSplitter :=
  if minRtuFrame ≤ s.buffer.length then
    let read := readRtuFrame s.buffer s.side
    match read.packet with
    | some packet => (some packet, { s with buffer := s.buffer.drop read.length })
    | none => if read.incomplete then (none, s) else take s.discard
  else (none, s)
termination_by s.buffer.length
decreasing_by
  have : minRtuFrame = 4 := rfl
  simp only [discard, List.length_drop]
  omega

theorem take_packet {s : ModbusRtuSplitter} {p : ModbusRtuPacket}
    (h : (readRtuFrame s.buffer s.side).packet = some p) : s.take =
      (some p, { s with buffer := s.buffer.drop (readRtuFrame s.buffer s.side).length }) := by
  rw [take, if_pos (minRtuFrame_le (readRtuFrame_packet h).1)]
  simp only [h]

theorem take_incomplete {s : ModbusRtuSplitter}
    (hp : (readRtuFrame s.buffer s.side).packet = none)
    (h : (readRtuFrame s.buffer s.side).incomplete = true) : s.take = (none, s) := by
  rw [take]
  simp only [hp, h, if_true, ite_self]

theorem take_discard {s : ModbusRtuSplitter}
    (hp : (readRtuFrame s.buffer s.side).packet = none)
    (h : (readRtuFrame s.buffer s.side).incomplete = false) : s.take = s.discard.take := by
  rw [take, if_pos (minRtuFrame_le h)]
  simp [hp, h]

theorem discard_length {s : ModbusRtuSplitter}
    (h : (readRtuFrame s.buffer s.side).incomplete = false) :
    s.discard.buffer.length < s.buffer.length := by
  have hmin := minRtuFrame_le h
  have : minRtuFrame = 4 := rfl
  simp only [discard, List.length_drop]
  omega

theorem take_some {s s' : ModbusRtuSplitter} {p : ModbusRtuPacket} (h : s.take = (some p, s')) :
    s'.buffer.length < s.buffer.length := by
  induction hn : s.buffer.length using Nat.strong_induction_on generalizing s with
  | _ n ih =>
    subst hn
    cases hp : (readRtuFrame s.buffer s.side).packet with
    | some packet =>
      obtain ⟨-, hpos, hle, -⟩ := readRtuFrame_packet hp
      rw [take_packet hp, Prod.mk.injEq] at h
      rw [← h.2, List.length_drop]
      omega
    | none =>
      cases hinc : (readRtuFrame s.buffer s.side).incomplete with
      | true => simp [take_incomplete hp hinc] at h
      | false =>
        rw [take_discard hp hinc] at h
        exact (ih _ (discard_length hinc) h rfl).trans (discard_length hinc)

/-- The loop of `push`. -/
def takeAll (s : ModbusRtuSplitter) : List ModbusRtuPacket × ModbusRtuSplitter :=
  match h : s.take with
  | (none, s') => ([], s')
  | (some packet, s') =>
    have := take_some h
    let (found, s'') := takeAll s'
    (packet :: found, s'')
termination_by s.buffer.length

/-- `push`. -/
def push (s : ModbusRtuSplitter) (data : Bytes) : List ModbusRtuPacket × ModbusRtuSplitter :=
  takeAll { s with buffer := s.buffer ++ data }

/-- Pushes one after the other, and all they return. -/
def pushAll (s : ModbusRtuSplitter) : List Bytes → List ModbusRtuPacket × ModbusRtuSplitter
  | [] => ([], s)
  | data :: pieces =>
    let (found, s') := s.push data
    let (found', s'') := pushAll s' pieces
    (found ++ found', s'')

theorem takeAll_none {s s' : ModbusRtuSplitter} (h : s.take = (none, s')) :
    s.takeAll = ([], s') := by
  rw [takeAll]
  split <;> simp_all

theorem takeAll_some {s s' : ModbusRtuSplitter} {p : ModbusRtuPacket}
    (h : s.take = (some p, s')) : s.takeAll = (p :: s'.takeAll.1, s'.takeAll.2) := by
  rw [takeAll]
  split <;> simp_all

theorem takeAll_discard {s : ModbusRtuSplitter}
    (hp : (readRtuFrame s.buffer s.side).packet = none)
    (h : (readRtuFrame s.buffer s.side).incomplete = false) : s.takeAll = s.discard.takeAll := by
  have htake := take_discard hp h
  rcases hd : s.discard.take with ⟨_ | p, s'⟩
  · rw [takeAll_none (htake.trans hd), takeAll_none hd]
  · rw [takeAll_some (htake.trans hd), takeAll_some hd]

end ModbusRtuSplitter

/-! ### The splitter is a framer -/

/-- The verdict `_take` acts on. -/
def rtuFramer (side : RtuSide) : Framer ModbusRtuPacket where
  judge b :=
    match (readRtuFrame b side).packet with
    | some packet => .frame packet (readRtuFrame b side).length
    | none => if (readRtuFrame b side).incomplete then .wait else .reject
  frame_size {b p n} h := by
    split at h
    · rename_i packet hp
      obtain ⟨rfl, rfl⟩ := Verdict.frame.inj h
      exact ⟨(readRtuFrame_packet hp).2.1, (readRtuFrame_packet hp).2.2.1⟩
    · split_ifs at h
  reject_ne {b} h := by
    rintro rfl
    simp [readRtuFrame, minRtuFrame] at h
  stable {b} t h := by
    have hinc : (readRtuFrame b side).incomplete = false := by
      cases hp : (readRtuFrame b side).packet with
      | some p => exact (readRtuFrame_packet hp).1
      | none => simpa [hp] using h
    rw [readRtuFrame_append hinc]

namespace ModbusRtuSplitter

def scanned (s : ModbusRtuSplitter) (x : Scan ModbusRtuPacket) : ModbusRtuSplitter :=
  { s with buffer := x.held, resyncs := s.resyncs + x.rejected }

theorem takeAll_eq_scan (s : ModbusRtuSplitter) :
    s.takeAll = (((rtuFramer s.side).scan s.buffer).frames,
      s.scanned ((rtuFramer s.side).scan s.buffer)) := by
  induction hn : s.buffer.length using Nat.strong_induction_on generalizing s with
  | _ n ih =>
    subst hn
    cases hp : (readRtuFrame s.buffer s.side).packet with
    | some packet =>
      have hj : (rtuFramer s.side).judge s.buffer =
          .frame packet (readRtuFrame s.buffer s.side).length := by simp [rtuFramer, hp]
      rw [takeAll_some (take_packet hp), ih _ (take_some (take_packet hp)) _ rfl,
        (rtuFramer s.side).scan_frame hj]
      simp [scanned]
    | none =>
      cases hinc : (readRtuFrame s.buffer s.side).incomplete with
      | true =>
        have hj : (rtuFramer s.side).judge s.buffer = .wait := by simp [rtuFramer, hp, hinc]
        rw [takeAll_none (take_incomplete hp hinc), (rtuFramer s.side).scan_wait hj]
        rfl
      | false =>
        have hj : (rtuFramer s.side).judge s.buffer = .reject := by simp [rtuFramer, hp, hinc]
        rw [takeAll_discard hp hinc, ih _ (discard_length hinc) _ rfl,
          (rtuFramer s.side).scan_reject hj]
        simp [scanned, discard, Nat.add_assoc]

theorem push_eq_scan (s : ModbusRtuSplitter) (data : Bytes) :
    s.push data = (((rtuFramer s.side).scan (s.buffer ++ data)).frames,
      s.scanned ((rtuFramer s.side).scan (s.buffer ++ data))) :=
  takeAll_eq_scan { s with buffer := s.buffer ++ data }

theorem pushAll_eq_scanPieces (s : ModbusRtuSplitter) (pieces : List Bytes) :
    s.pushAll pieces = (((rtuFramer s.side).scanPieces s.buffer pieces).frames,
      s.scanned ((rtuFramer s.side).scanPieces s.buffer pieces)) := by
  induction pieces generalizing s with
  | nil => rfl
  | cons data pieces ih =>
    rw [pushAll, push_eq_scan]
    dsimp only
    rw [ih]
    simp [Framer.scanPieces, scanned, Nat.add_assoc]

/-- What a fresh splitter makes of pieces is what it finds in all of them at once. -/
theorem pushAll_eq_scan (side : RtuSide) (pieces : List Bytes) :
    pushAll { side } pieces = (((rtuFramer side).scan pieces.flatten).frames,
      scanned { side } ((rtuFramer side).scan pieces.flatten)) := by
  have hscan := (rtuFramer side).scanPieces_flatten [] pieces
  rw [(rtuFramer side).scan_nil, Scan.start_after] at hscan
  rw [pushAll_eq_scanPieces]
  simp only [hscan, List.nil_append]

/-- However a stream is cut into pieces, a fresh splitter returns the same packets and is left
the same: it holds the same bytes and has discarded as many. -/
theorem pushAll_flatten (side : RtuSide) (pieces : List Bytes) :
    pushAll { side } pieces = push { side } pieces.flatten :=
  (pushAll_eq_scan side pieces).trans (push_eq_scan { side } pieces.flatten).symm

end ModbusRtuSplitter

end Pyomb
