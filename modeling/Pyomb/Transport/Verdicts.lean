import Pyomb.Transport.Rtu

/-! What a verdict on the head of a buffer promises a reader. One that does not wait is
final. One that waits asks for bytes it cannot do without, so a reader who fetches what is
wanted, and judges again, comes to the verdict on the whole stream. And no verdict waits
for long: the longest frame a head can claim bounds what is held. -/

namespace Pyomb

/-- Why a verdict waits, and what it then wants: the shortest frame, the count field, or the
rest of a frame whose size is stated. -/
theorem readRtuFrame_wait {s : Bytes} {side : RtuSide}
    (h : (readRtuFrame s side).incomplete = true) :
    (s.length < minRtuFrame ∧ (readRtuFrame s side).wanted = minRtuFrame - s.length) ∨
    (minRtuFrame ≤ s.length ∧ statedSize s side = .ok none ∧ (readRtuFrame s side).wanted = 1) ∨
    ∃ size, minRtuFrame ≤ s.length ∧ statedSize s side = .ok (some size) ∧
      s.length < 1 + size + crcSize ∧
      (readRtuFrame s side).wanted = 1 + size + crcSize - s.length := by
  rcases Nat.lt_or_ge s.length minRtuFrame with hlt | hmin
  · exact .inl ⟨hlt, by rw [readRtuFrame, if_pos hlt]⟩
  rw [readRtuFrame_eq hmin] at h ⊢
  rcases hsize : statedSize s side with e | _ | size <;> simp only [hsize] at h ⊢
  · cases h
  · exact .inr (.inl ⟨hmin, trivial, trivial⟩)
  · split_ifs at h ⊢ with hlt
    · exact .inr (.inr ⟨size, hmin, rfl, hlt, rfl⟩)
    · cases hd : ModbusRtuPacket.deserialize (s.take (1 + size + crcSize)) <;> simp [hd] at h

/-- A verdict that waits is sized, and asks for at least a byte. -/
theorem readRtuFrame_incomplete {s : Bytes} {side : RtuSide}
    (h : (readRtuFrame s side).incomplete = true) :
    (readRtuFrame s side).packet = none ∧ (readRtuFrame s side).sizable = true ∧
      0 < (readRtuFrame s side).wanted := by
  rcases readRtuFrame_wait h with ⟨hlt, hw⟩ | ⟨hmin, hsize, hw⟩ | ⟨size, hmin, hsize, hlt, hw⟩
  · rw [hw, readRtuFrame, if_pos hlt]
    exact ⟨rfl, rfl, Nat.sub_pos_of_lt hlt⟩
  · rw [hw, readRtuFrame_eq hmin, hsize]
    exact ⟨rfl, rfl, Nat.one_pos⟩
  · rw [hw, readRtuFrame_eq hmin, hsize]
    simp only [if_pos hlt]
    exact ⟨trivial, trivial, Nat.sub_pos_of_lt hlt⟩

theorem readRtuFrame_unsizable {s : Bytes} {side : RtuSide} :
    (readRtuFrame s side).sizable = false ↔
      minRtuFrame ≤ s.length ∧ ∃ e, statedSize s side = .error e := by
  rcases Nat.lt_or_ge s.length minRtuFrame with hlt | hmin
  · rw [readRtuFrame, if_pos hlt]
    simp only [Bool.true_eq_false, false_iff, not_and]
    omega
  rw [readRtuFrame_eq hmin]
  rcases hsize : statedSize s side with e | _ | size
  · exact ⟨fun _ => ⟨hmin, e, rfl⟩, fun _ => rfl⟩
  · simp
  · dsimp only
    split_ifs
    · simp
    · cases ModbusRtuPacket.deserialize (s.take (1 + size + crcSize)) <;> simp

/-- With fewer bytes more than were wanted, a verdict that waits still waits. -/
theorem readRtuFrame_incomplete_append {s t : Bytes} {side : RtuSide}
    (h : (readRtuFrame s side).incomplete = true)
    (ht : t.length < (readRtuFrame s side).wanted) :
    (readRtuFrame (s ++ t) side).incomplete = true := by
  rcases readRtuFrame_wait h with ⟨hlt, hw⟩ | ⟨hmin, hsize, hw⟩ | ⟨size, hmin, hsize, hlt, hw⟩ <;>
    rw [hw] at ht
  · rw [readRtuFrame, if_pos (by rw [List.length_append]; omega)]
  · obtain rfl := List.length_eq_zero_iff.mp (Nat.lt_one_iff.mp ht)
    rwa [List.append_nil]
  · have hstated := statedSize_append hmin (by rw [hsize]; nofun) t
    rw [readRtuFrame_eq (by rw [List.length_append]; omega), hstated, hsize]
    dsimp only
    rw [if_pos (by rw [List.length_append]; omega)]

theorem wanted_le {s t : Bytes} {side : RtuSide} (h : (readRtuFrame s side).incomplete = true)
    (ht : (readRtuFrame (s ++ t) side).incomplete = false) :
    (readRtuFrame s side).wanted ≤ t.length := by
  by_contra hlt
  rw [readRtuFrame_incomplete_append h (Nat.lt_of_not_le hlt)] at ht
  cases ht

/-- Judge what is held, and fetch what the verdict wants until it does not wait or there is
nothing left to fetch. -/
def readAsWanted (side : RtuSide) (held rest : Bytes) : RtuRead :=
  if (readRtuFrame held side).incomplete = true ∧ rest ≠ [] then
    readAsWanted side (held ++ rest.take (readRtuFrame held side).wanted)
      (rest.drop (readRtuFrame held side).wanted)
  else readRtuFrame held side
termination_by rest.length
decreasing_by
  rename_i h
  have hwanted := (readRtuFrame_incomplete h.1).2.2
  have hpos := List.length_pos_iff.mpr h.2
  rw [List.length_drop]
  omega

/-- A reader who fetches as he is told comes to the verdict on all there is. -/
theorem readAsWanted_eq (side : RtuSide) (held rest : Bytes) :
    readAsWanted side held rest = readRtuFrame (held ++ rest) side := by
  fun_induction readAsWanted side held rest with
  | case1 held rest h ih => rw [ih, List.append_assoc, List.take_append_drop]
  | case2 held rest h =>
    by_cases hinc : (readRtuFrame held side).incomplete = true
    · obtain rfl : rest = [] := by_contra fun hne => h ⟨hinc, hne⟩
      rw [List.append_nil]
    · rw [readRtuFrame_append (Bool.eq_false_iff.mpr hinc)]

/-- The verdicts on a buffer as it grows. One that does not wait is the same whatever
follows; one that waits wants at least a byte, and goes on waiting on fewer than it wanted;
so whoever fetches what is wanted comes to the verdict on the whole. -/
theorem readRtuFrame_stable (side : RtuSide) (s : Bytes) :
    ((readRtuFrame s side).incomplete = false →
      ∀ t, readRtuFrame (s ++ t) side = readRtuFrame s side) ∧
    ((readRtuFrame s side).incomplete = true → 1 ≤ (readRtuFrame s side).wanted ∧
      ∀ t : Bytes, t.length < (readRtuFrame s side).wanted →
        (readRtuFrame (s ++ t) side).incomplete = true) ∧
    ∀ rest, readAsWanted side s rest = readRtuFrame (s ++ rest) side :=
  ⟨readRtuFrame_append,
    fun h => ⟨(readRtuFrame_incomplete h).2.2, fun _ ht => readRtuFrame_incomplete_append h ht⟩,
    readAsWanted_eq side s⟩

/-! ### The longest wait -/

/-- The most a head of a layout can say its PDU occupies. -/
def PduLayout.mostSize (l : PduLayout) : ℕ :=
  match l.pduFormat.tail, l.pduCount with
  | none, _ => Struct.calcsize l.pduFormat.head
  | some _, none => 0
  | some _, some _ => Struct.calcsize l.pduFormat.head + 255

theorem PduLayout.expectedSize_some {l : PduLayout} {s : Bytes} {n : ℕ}
    (h : l.expectedSize s = .ok (some n)) : n ≤ l.mostSize := by
  unfold expectedSize at h
  unfold mostSize
  cases htail : l.pduFormat.tail with
  | none =>
    rw [htail] at h
    exact (Option.some.inj (Except.ok.inj h)).ge
  | some code =>
    cases hcount : l.pduCount with
    | none =>
      rw [htail, hcount] at h
      cases h
    | some field =>
      rw [htail, hcount] at h
      dsimp only at h ⊢
      split_ifs at h
      · cases h
      · have hb := (s.getD (Struct.calcsize l.pduFormat.head - 1) 0).toNat_lt
        have hn := Option.some.inj (Except.ok.inj h)
        omega

theorem PduLayout.expectedSize_none {l : PduLayout} {s : Bytes} (h : l.expectedSize s = .ok none) :
    s.length < Struct.calcsize l.pduFormat.head := by
  unfold expectedSize at h
  split at h
  · cases h
  · cases h
  · dsimp only at h
    split_ifs at h with hlt
    · exact hlt
    · cases h

/-- A layout that states no size for one start waits for none. -/
theorem PduLayout.expectedSize_error {l : PduLayout} {s t : Bytes} {e : PacketError}
    (h : l.expectedSize t = .error e) : l.expectedSize s ≠ .ok none := by
  unfold expectedSize at h ⊢
  split at h
  · cases h
  · nofun
  · dsimp only at h
    split_ifs at h

theorem PduLayout.diagnosticSizeFromPrefix_some {name : String} {s : Bytes} {n : ℕ}
    (h : diagnosticSizeFromPrefix name s = .ok (some n)) : n = 5 := by
  unfold diagnosticSizeFromPrefix at h
  dsimp only at h
  split_ifs at h <;> cases h
  rfl

theorem PduLayout.diagnosticSizeFromPrefix_none {name : String} {s : Bytes}
    (h : diagnosticSizeFromPrefix name s = .ok none) : s.length < 3 := by
  unfold diagnosticSizeFromPrefix at h
  dsimp only at h
  split_ifs at h with hlt <;> cases h
  exact hlt

theorem PduClass.expectedSize_cases (c : PduClass) :
    (∀ s, c.expectedSize s = PduLayout.diagnosticSizeFromPrefix c.layout.name s) ∨
      ∀ s, c.expectedSize s = c.layout.expectedSize s := by
  unfold expectedSize
  split
  · exact .inl fun _ => rfl
  · exact .inl fun _ => rfl
  · exact .inr fun _ => rfl

/-- The request that reads and writes registers has ten bytes ahead of what it counts, and
no response more than two. -/
theorem PduClass.mostSize_le (c : PduClass) :
    c.layout.mostSize ≤ if c.isRequest then 265 else 257 := by
  cases c <;> decide

theorem PduClass.calcsize_head_le (c : PduClass) :
    Struct.calcsize c.layout.pduFormat.head ≤ 10 := by
  cases c <;> decide

theorem PduClass.expectedSize_le {c : PduClass} {s : Bytes} {n : ℕ}
    (h : c.expectedSize s = .ok (some n)) : n ≤ if c.isRequest then 265 else 257 := by
  rcases c.expectedSize_cases with hc | hc <;> rw [hc] at h
  · have hn := PduLayout.diagnosticSizeFromPrefix_some h
    split_ifs <;> omega
  · exact (PduLayout.expectedSize_some h).trans c.mostSize_le

theorem PduClass.expectedSize_none {c : PduClass} {s : Bytes}
    (h : c.expectedSize s = .ok none) : s.length < 10 := by
  rcases c.expectedSize_cases with hc | hc <;> rw [hc] at h
  · exact (PduLayout.diagnosticSizeFromPrefix_none h).trans (by decide)
  · exact (PduLayout.expectedSize_none h).trans_le c.calcsize_head_le

/-- Where the whole states no size, neither does as much of it as holds a sub-function. -/
theorem PduClass.expectedSize_error {c : PduClass} {s t : Bytes} {e : PacketError}
    (hs : 3 ≤ s.length) (h : c.expectedSize (s ++ t) = .error e) : c.expectedSize s = .error e := by
  have hsized : c.expectedSize s ≠ .ok none := by
    intro hnone
    rcases c.expectedSize_cases with hc | hc <;> rw [hc] at h hnone
    · have hlt := PduLayout.diagnosticSizeFromPrefix_none hnone
      omega
    · exact PduLayout.expectedSize_error h hnone
  rwa [PduClass.expectedSize_append (List.length_pos_iff.mp (by omega)) hsized] at h

/-- The shortest frame's worth of bytes tells a head that states no size. -/
theorem readRtuFrame_unsizable_of_append {s t : Bytes} {side : RtuSide}
    (hmin : minRtuFrame ≤ s.length) (h : (readRtuFrame (s ++ t) side).sizable = false) :
    (readRtuFrame s side).sizable = false := by
  have hmin4 : minRtuFrame = 4 := rfl
  obtain ⟨-, e, he⟩ := readRtuFrame_unsizable.mp h
  have hl : 3 ≤ (s.drop 1).length := by rw [List.length_drop]; omega
  unfold statedSize at he
  rw [List.drop_append_of_le_length (by omega), List.getD_append _ _ _ _ (by omega)] at he
  exact readRtuFrame_unsizable.mpr ⟨hmin, e, PduClass.expectedSize_error hl he⟩

/-- The most a splitter of a side holds back. -/
def RtuSide.mostHeld : RtuSide → ℕ
  | .request => 267
  | .response => 259

theorem rtuPduClass_response (funcCode : ℕ) :
    rtuPduClass funcCode .response = .modbusPdu ∨ ¬ (rtuPduClass funcCode .response).isRequest := by
  unfold rtuPduClass
  dsimp only
  split_ifs with h
  · exact .inr (by decide)
  · by_cases hc : registryGet (funcCode + 0x8000) = .modbusPdu
    · exact .inl hc
    · exact .inr (registryGet_response hc).1

theorem statedSize_le {s : Bytes} {side : RtuSide} {size : ℕ}
    (h : statedSize s side = .ok (some size)) : 1 + size + crcSize ≤ side.mostHeld + 1 := by
  have hcrc : crcSize = 2 := rfl
  have hle := PduClass.expectedSize_le h
  cases side with
  | request =>
    have hmost : RtuSide.request.mostHeld = 267 := rfl
    split_ifs at hle <;> omega
  | response =>
    have hmost : RtuSide.response.mostHeld = 259 := rfl
    rcases rtuPduClass_response ((s.drop 1).getD 0 0).toNat with hc | hc
    · rw [statedSize, hc] at h
      cases h
    · rw [if_neg hc] at hle
      omega

/-- No verdict waits on more bytes than the longest frame of its side is short of whole. -/
theorem length_le_mostHeld {s : Bytes} {side : RtuSide}
    (h : (readRtuFrame s side).incomplete = true) : s.length ≤ side.mostHeld := by
  have hmin4 : minRtuFrame = 4 := rfl
  have hmost : 259 ≤ side.mostHeld := by cases side <;> decide
  rcases readRtuFrame_wait h with ⟨hlt, -⟩ | ⟨-, hsize, -⟩ | ⟨size, -, hsize, hlt, -⟩
  · omega
  · have hhead := PduClass.expectedSize_none hsize
    rw [List.length_drop] at hhead
    omega
  · have hle := statedSize_le hsize
    omega

end Pyomb
