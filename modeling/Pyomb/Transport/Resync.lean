import Pyomb.Transport.RtuStream

/-! How the splitter finds its way back. It never holds more than a frame of its side can
be short of whole, so noise that imitates the head of a long frame is seen through once that
many bytes have come, and what is then discarded is one byte and not the frame behind it. -/

namespace Pyomb

namespace ModbusRtuSplitter

/-! ### What is held back -/

/-- Nothing is held but what a verdict waits on. -/
theorem takeAll_pending (s : ModbusRtuSplitter) : s.takeAll.2.pending ≤ s.side.mostHeld := by
  induction hn : s.buffer.length using Nat.strong_induction_on generalizing s with
  | _ n ih =>
    subst hn
    cases hp : (readRtuFrame s.buffer s.side).packet with
    | some p =>
      rw [takeAll_some (take_packet hp)]
      exact ih _ (take_some (take_packet hp)) _ rfl
    | none =>
      cases hinc : (readRtuFrame s.buffer s.side).incomplete with
      | true =>
        rw [takeAll_none (take_incomplete hp hinc)]
        exact length_le_mostHeld hinc
      | false =>
        rw [takeAll_discard hp hinc]
        exact ih _ (discard_length hinc) _ rfl

theorem takeAll_side (s : ModbusRtuSplitter) : s.takeAll.2.side = s.side := by
  rw [takeAll_eq_scan]
  rfl

theorem push_side (s : ModbusRtuSplitter) (data : Bytes) : (s.push data).2.side = s.side :=
  takeAll_side _

theorem call_pending (t : History) (c : Call) :
    (t.call c).splitter.side = t.splitter.side ∧
      (t.call c).splitter.pending ≤ t.splitter.side.mostHeld := by
  cases c with
  | push data => exact ⟨push_side t.splitter data, takeAll_pending _⟩
  | reset => exact ⟨rfl, Nat.zero_le _⟩

theorem calls_pending {t : History} (h : t.splitter.pending ≤ t.splitter.side.mostHeld)
    (calls : List Call) :
    (calls.foldl History.call t).splitter.pending ≤ t.splitter.side.mostHeld := by
  induction calls generalizing t with
  | nil => exact h
  | cons c calls ih =>
    obtain ⟨hside, hc⟩ := call_pending t c
    rw [← hside] at hc ⊢
    exact ih hc

/-! ### What is found, and where -/

/-- The packets that pushes return, and the resyncs counted by each. -/
def pushAllTrace (s : ModbusRtuSplitter) : List Bytes → List (ModbusRtuPacket × ℕ)
  | [] => []
  | data :: pieces =>
    takeTrace { s with buffer := s.buffer ++ data } ++ pushAllTrace (s.push data).2 pieces

theorem pushAllTrace_map_fst (s : ModbusRtuSplitter) (pieces : List Bytes) :
    (s.pushAllTrace pieces).map Prod.fst = (s.pushAll pieces).1 := by
  induction pieces generalizing s with
  | nil => rfl
  | cons data pieces ih =>
    rw [pushAllTrace, List.map_append, ih, ← takeAll_eq_takeTrace]
    rfl

theorem takeTrace_discard {s : ModbusRtuSplitter}
    (hp : (readRtuFrame s.buffer s.side).packet = none)
    (h : (readRtuFrame s.buffer s.side).incomplete = false) :
    s.takeTrace = s.discard.takeTrace := by
  have htake := take_discard hp h
  rcases hd : s.discard.take with ⟨_ | p, s'⟩
  · rw [takeTrace_none (htake.trans hd), takeTrace_none hd]
  · rw [takeTrace_some (htake.trans hd), takeTrace_some hd]

/-- Bytes that come later are found in as if they had been there from the start. -/
theorem takeTrace_append (s : ModbusRtuSplitter) (t : Bytes) :
    takeTrace { s with buffer := s.buffer ++ t } =
      s.takeTrace ++ takeTrace { s.takeAll.2 with buffer := s.takeAll.2.buffer ++ t } := by
  induction hn : s.buffer.length using Nat.strong_induction_on generalizing s with
  | _ n ih =>
    subst hn
    have hverdict : (readRtuFrame s.buffer s.side).incomplete = false →
        readRtuFrame (s.buffer ++ t) s.side = readRtuFrame s.buffer s.side :=
      fun h => readRtuFrame_append h t
    cases hp : (readRtuFrame s.buffer s.side).packet with
    | some p =>
      obtain ⟨hinc, -, hle, -⟩ := readRtuFrame_packet hp
      have hp' := hverdict hinc ▸ hp
      have hdrop := ih _ (take_some (take_packet hp)) _ rfl
      rw [takeTrace_some (take_packet (s := { s with buffer := s.buffer ++ t }) hp'),
        takeTrace_some (take_packet hp), takeAll_some (take_packet hp), List.cons_append, ← hdrop,
        hverdict hinc, List.drop_append_of_le_length hle]
    | none =>
      cases hinc : (readRtuFrame s.buffer s.side).incomplete with
      | true =>
        rw [takeTrace_none (take_incomplete hp hinc), takeAll_none (take_incomplete hp hinc)]
        rfl
      | false =>
        have hp' := hverdict hinc ▸ hp
        have hinc' := hverdict hinc ▸ hinc
        have hdrop := ih _ (discard_length hinc) _ rfl
        have hpos := minRtuFrame_le hinc
        have : minRtuFrame = 4 := rfl
        rw [takeTrace_discard (s := { s with buffer := s.buffer ++ t }) hp' hinc',
          takeTrace_discard hp hinc, takeAll_discard hp hinc, ← hdrop]
        simp only [discard]
        rw [List.drop_append_of_le_length (by omega)]

theorem takeAll_append (s : ModbusRtuSplitter) (t : Bytes) :
    (takeAll { s with buffer := s.buffer ++ t }).2 = (s.takeAll.2.push t).2 := by
  rw [push_eq_scan, takeAll_side, takeAll_eq_scan, takeAll_eq_scan]
  simp only [scanned, (rtuFramer s.side).scan_append s.buffer t, Scan.after_held,
    Scan.after_rejected, Nat.add_assoc]

theorem takeTrace_pushAllTrace (s : ModbusRtuSplitter) (pieces : List Bytes) :
    s.takeTrace ++ s.takeAll.2.pushAllTrace pieces =
      takeTrace { s with buffer := s.buffer ++ pieces.flatten } := by
  induction pieces generalizing s with
  | nil => rw [List.flatten_nil, List.append_nil, pushAllTrace, List.append_nil]
  | cons data pieces ih =>
    rw [pushAllTrace, ← takeAll_append, ← List.append_assoc, ← takeTrace_append,
      List.flatten_cons, ← List.append_assoc]
    exact ih { s with buffer := s.buffer ++ data }

/-- However a stream is cut, the same packets are found after as many discarded bytes. -/
theorem pushAllTrace_flatten (side : RtuSide) (pieces : List Bytes) :
    pushAllTrace { side } pieces = takeTrace { side, buffer := pieces.flatten } := by
  have hfresh : take { side } = (none, { side }) :=
    take_incomplete (by simp [readRtuFrame, minRtuFrame]) (by simp [readRtuFrame, minRtuFrame])
  have hpieces := takeTrace_pushAllTrace { side } pieces
  rwa [takeTrace_none hfresh, takeAll_none hfresh] at hpieces

/-! ### Recovery -/

/-- Where enough bytes follow, noise is discarded byte by byte up to the frame behind it. -/
theorem takeTrace_noise {side : RtuSide} {n f t : Bytes} {p : ModbusRtuPacket}
    (hf : (readRtuFrame f side).packet = some p) (hl : (readRtuFrame f side).length = f.length)
    (ht : side.mostHeld ≤ t.length)
    (hn : ∀ i < n.length, (readRtuFrame ((n ++ f ++ t).drop i) side).packet = none) (r : ℕ) :
    ∃ rest, takeTrace ⟨side, n ++ f ++ t, r⟩ = (p, r + n.length) :: rest := by
  induction n generalizing r with
  | nil =>
    have hwhole : readRtuFrame (f ++ t) side = readRtuFrame f side :=
      readRtuFrame_append (readRtuFrame_packet hf).1 t
    have hp : (readRtuFrame (f ++ t) side).packet = some p := by rw [hwhole, hf]
    exact ⟨_, takeTrace_some (take_packet (s := ⟨side, f ++ t, r⟩) hp)⟩
  | cons b n ih =>
    have hp : (readRtuFrame (b :: n ++ f ++ t) side).packet = none := hn 0 (Nat.succ_pos _)
    have hinc : (readRtuFrame (b :: n ++ f ++ t) side).incomplete = false := by
      by_contra hwait
      have hle := length_le_mostHeld (Bool.eq_true_of_not_eq_false hwait)
      simp only [List.cons_append, List.length_cons, List.length_append] at hle
      omega
    obtain ⟨rest, hrest⟩ := ih (fun i hi => hn (i + 1) (Nat.succ_lt_succ hi)) (r + 1)
    refine ⟨rest, ?_⟩
    rw [takeTrace_discard (s := ⟨side, b :: n ++ f ++ t, r⟩) hp hinc, List.length_cons,
      Nat.add_comm n.length, ← Nat.add_assoc]
    exact hrest

/-- The splitter recovers. In any run of calls it holds back no more than a frame of its side
can be short of whole; and noise in which no packet can be read costs a fresh splitter its
bytes and no more, however the stream is cut, once enough has come behind the frame. -/
theorem bounded_resync (side : RtuSide) :
    (∀ calls : List Call,
      (calls.foldl History.call { splitter := { side } }).splitter.pending ≤
        match side with
        | .request => 267
        | .response => 259) ∧
    ∀ (n f t : Bytes) (pieces : List Bytes) (p : ModbusRtuPacket),
      (readRtuFrame f side).packet = some p → (readRtuFrame f side).length = f.length →
      267 ≤ t.length →
      (∀ i < n.length, (readRtuFrame ((n ++ f ++ t).drop i) side).packet = none) →
      pieces.flatten = n ++ f ++ t →
      p.serialize = .ok (f, p) ∧ (pushAll { side } pieces).1.head? = some p ∧
        (pushAllTrace { side } pieces).head? = some (p, n.length) := by
  refine ⟨fun calls => ?_, fun n f t pieces p hf hl ht hn hcut => ?_⟩
  · have h := calls_pending (t := { splitter := { side } }) (Nat.zero_le _) calls
    cases side <;> exact h
  · have hmost : side.mostHeld ≤ 267 := by cases side <;> decide
    obtain ⟨rest, htrace⟩ := takeTrace_noise hf hl (hmost.trans ht) hn 0
    rw [← hcut, ← pushAllTrace_flatten, Nat.zero_add] at htrace
    have hd := (readRtuFrame_packet hf).2.2.2
    rw [hl, List.take_length] at hd
    refine ⟨ModbusRtuPacket.serialize_of_deserialize hd, ?_, ?_⟩
    · rw [← pushAllTrace_map_fst, htrace]
      rfl
    · rw [htrace]
      rfl

/-- A byte of noise ahead of a frame, and zeros behind it. -/
theorem bounded_resync_byte :
    (pushAllTrace ⟨.request, [], 0⟩ [[1, 7], [7, 0x42, 0x42] ++ List.replicate 267 0]).head? =
      some (⟨7, .modbusPdu 7 [], 0x4242⟩, 1) := by
  refine ((bounded_resync .request).2 [1] [7, 7, 0x42, 0x42] (List.replicate 267 0) _ _
    (by decide +kernel) (by decide +kernel) (by rw [List.length_replicate]) ?_ ?_).2.2
  · intro i hi
    obtain rfl : i = 0 := Nat.lt_one_iff.mp hi
    decide +kernel
  · rw [List.flatten_cons, List.flatten_singleton, List.cons_append, List.singleton_append]
    rfl

end ModbusRtuSplitter

end Pyomb
