import Pyomb.Bytes.Source
import Pyomb.Transport.Fragmenter

/-! Receiving over TCP. A frame is its header and as many bytes behind it as the length
field declares, and `receive` reads one: the header, and then the PDU in reads of the
fragment size. Whatever the size and however short the reads, it takes the bytes of one
frame off the socket and no more. -/

namespace Pyomb

theorem mbapLength_take (s : Bytes) : mbapLength (s.take headerSize) = mbapLength s :=
  mbapLength_take_size s

theorem mbapLength_append {s : Bytes} (h : headerSize ≤ s.length) (t : Bytes) :
    mbapLength (s ++ t) = mbapLength s := by
  rw [← mbapLength_take (s ++ t), List.take_append_of_le_length h, mbapLength_take]

/-- A header, and as many bytes as its length field counts: the unit identifier, which
is the header's last byte, and the PDU. -/
structure TcpFrame where
  bytes : Bytes
  header_le : headerSize ≤ bytes.length
  length_eq : bytes.length = 6 + mbapLength bytes
  deriving DecidableEq

namespace TcpFrame

theorem ne_nil (f : TcpFrame) : f.bytes ≠ [] :=
  List.ne_nil_of_length_pos (by have := f.header_le; have := headerSize_eq; omega)

theorem declares (f : TcpFrame) (rest : Bytes) :
    6 + mbapLength (f.bytes ++ rest) = f.bytes.length := by
  rw [mbapLength_append f.header_le, f.length_eq]

end TcpFrame

/-- What `receive` returns is a frame: as many bytes as it declares itself. -/
def frameOf (u : Bytes) (h1 : 1 ≤ mbapLength u) (h6 : 6 + mbapLength u ≤ u.length) : TcpFrame where
  bytes := u.take (6 + mbapLength u)
  header_le := by rw [List.length_take]; have := headerSize_eq; omega
  length_eq := by
    have hle : headerSize ≤ 6 + mbapLength u := by have := headerSize_eq; omega
    have hcat := mbapLength_append (s := u.take (6 + mbapLength u))
      (by rw [List.length_take]; omega) (u.drop (6 + mbapLength u))
    rw [List.take_append_drop] at hcat
    rw [List.length_take, ← hcat, min_eq_left h6]

theorem TcpFrame.measured (f : TcpFrame) :
    (∃ h, ModbusHeader.deserialize (f.bytes.take headerSize) = .ok h ∧
      validateMbapLength h f.bytes = .ok ()) ∧
    ModbusFragmenter.getMessageLength f.bytes = .ok f.bytes.length := by
  have hl : (f.bytes.take headerSize).length = headerSize := by
    rw [List.length_take]; have := f.header_le; omega
  obtain ⟨h, hd⟩ := ModbusHeader.exists_deserialize.mpr hl
  have hlen := length_of_deserialize hd
  rw [mbapLength_take] at hlen
  have heq : (f.bytes.length : ℤ) = ModbusHeader.size + h.length - 1 := by
    have := f.length_eq
    have := ModbusHeader.size_eq
    omega
  refine ⟨⟨h, hd, validateMbapLength_eq_ok.mpr heq⟩, ?_⟩
  simp only [ModbusFragmenter.getMessageLength, hd, bind, Except.bind, pure, Except.pure,
    Except.ok.injEq]
  exact heq.symm

namespace ModbusTcpStream

section Receive

variable {ε σ : Type} (sock : Source ε σ)

/-- `_recv_exactly`. A count of zero or less reads nothing. -/
def recvExactly (count : ℤ) (s : σ) : Except ε Bytes × σ := sock.exactly count.toNat [] s

def receiveHeader (s : σ) : Except (Exc ε) Bytes × σ :=
  match recvExactly sock headerSize s with
  | (.error e, s') => (.error (.os e), s')
  | (.ok headerBytes, s') =>
    if headerBytes = [] then (.ok [], s')
    else if headerBytes.length < headerSize then
      (.error (.network ("The peer closed the connection after " ++ toString headerBytes.length ++
        " of the " ++ toString headerSize ++ " header byte(s)") none), s')
    else (.ok headerBytes, s')

def pduLength (headerBytes : Bytes) : Except PacketError ℤ := do
  let header ← ModbusHeader.deserialize headerBytes
  let pduLength := header.length - 1
  if pduLength < 0 then
    throw (.say ("The MBAP length field declares " ++ toString header.length ++
      " byte(s), too few to cover the unit identifier"))
  return pduLength

def chunkSize (fragSize : ℤ) (pending : ℕ) : ℤ :=
  if fragSize ≠ 0 then min fragSize pending else pending

/-- `_receive_pdu`, with `pending` bytes still to come of `pduLength`. `none` where the
given number of rounds was not enough. -/
def receivePdu (fragSize : ℤ) (pduLength : ℕ) :
    ℕ → ℕ → List Bytes → σ → Option (Except (Exc ε) (List Bytes) × σ)
  | _, 0, fragments, s => some (.ok fragments, s)
  | 0, _ + 1, _, _ => none
  | rounds + 1, pending + 1, fragments, s =>
    match recvExactly sock (chunkSize fragSize (pending + 1)) s with
    | (.error e, s') => some (.error (.os e), s')
    | (.ok chunk, s') =>
      if (chunk.length : ℤ) < chunkSize fragSize (pending + 1) then
        some (.error (.network ("The peer closed the connection " ++
          toString ((pduLength : ℤ) - (pending + 1) + chunk.length) ++ " byte(s) into a frame " ++
          "declaring " ++ toString pduLength ++ " byte(s) of PDU") none), s')
      else receivePdu fragSize pduLength rounds (pending + 1 - chunk.length) (fragments ++ [chunk]) s'

/-- The body of `receive`'s `try`. A round of the PDU loop that gets anywhere reads a byte
of it, so as many rounds as it has bytes are enough where any number is. -/
def receiveFrame (fragSize : ℤ) (s : σ) : Option (Except (Exc ε) Bytes × σ) :=
  match receiveHeader sock s with
  | (.error e, s₁) => some (.error e, s₁)
  | (.ok headerBytes, s₁) =>
    if headerBytes = [] then some (.ok [], s₁)
    else
      match pduLength headerBytes with
      | .error e => some (.error (.packet e), s₁)
      | .ok n =>
        (receivePdu sock fragSize n.toNat n.toNat n.toNat [] s₁).map fun
          | (.error e, s₂) => (.error e, s₂)
          | (.ok fragments, s₂) => (.ok (ModbusFragmenter.assemble (headerBytes :: fragments)), s₂)

/-- `receive`; `none` where it never returns. -/
def receive (fragSize : ℤ) (s : σ) : Option (Except (Exc ε) Bytes × σ) :=
  (receiveFrame sock fragSize s).map fun (r, s') =>
    (r.mapError (.wrapOs "Error receiving Modbus message: "), s')

theorem recvExactly_reaches {n : ℤ} {s s' : σ} {r : Except ε Bytes}
    (h : recvExactly sock n s = (r, s')) : sock.Reaches s s' := by
  have := sock.exactly_reaches n.toNat [] s
  rwa [show sock.exactly n.toNat [] s = (r, s') from h] at this

theorem receiveHeader_reaches {s s' : σ} {r : Except (Exc ε) Bytes}
    (h : receiveHeader sock s = (r, s')) : sock.Reaches s s' := by
  unfold receiveHeader at h
  split at h
  · next he =>
    cases h
    exact recvExactly_reaches sock he
  · next he =>
    split_ifs at h <;> cases h <;> exact recvExactly_reaches sock he

theorem receivePdu_reaches {fragSize : ℤ} {total rounds pending : ℕ} {fragments : List Bytes}
    {s s' : σ} {r : Except (Exc ε) (List Bytes)}
    (h : receivePdu sock fragSize total rounds pending fragments s = some (r, s')) :
    sock.Reaches s s' := by
  induction rounds generalizing pending fragments s with
  | zero =>
    cases pending with
    | zero => cases h; exact .refl
    | succ pending => cases h
  | succ rounds ih =>
    cases pending with
    | zero => cases h; exact .refl
    | succ pending =>
      rw [receivePdu] at h
      split at h
      · next he =>
        cases h
        exact recvExactly_reaches sock he
      · next he =>
        split_ifs at h
        · cases h
          exact recvExactly_reaches sock he
        · exact (recvExactly_reaches sock he).trans (ih h)

theorem receive_reaches {fragSize : ℤ} {s s' : σ} {r : Except (Exc ε) Bytes}
    (h : receive sock fragSize s = some (r, s')) : sock.Reaches s s' := by
  obtain ⟨⟨r₀, s₀⟩, hr, heq⟩ := Option.map_eq_some_iff.mp h
  obtain rfl : s₀ = s' := congrArg Prod.snd heq
  unfold receiveFrame at hr
  split at hr
  · next he =>
    cases hr
    exact receiveHeader_reaches sock he
  next he =>
  split_ifs at hr
  · cases hr
    exact receiveHeader_reaches sock he
  split at hr
  · cases hr
    exact receiveHeader_reaches sock he
  obtain ⟨⟨r₁, s₁⟩, hp, heq⟩ := Option.map_eq_some_iff.mp hr
  have hs₁ := receivePdu_reaches sock hp
  cases r₁ <;> cases heq <;> exact (receiveHeader_reaches sock he).trans hs₁

theorem receiveHeader_error {s s' : σ} {e : Exc ε} (h : receiveHeader sock s = (.error e, s')) :
    (e.wrapOs "").isModbusBase = true := by
  unfold receiveHeader at h
  split at h
  · cases h
    rfl
  · split_ifs at h <;> cases h
    rfl

theorem receivePdu_error {fragSize : ℤ} {total rounds pending : ℕ} {fragments : List Bytes}
    {s s' : σ} {e : Exc ε}
    (h : receivePdu sock fragSize total rounds pending fragments s = some (.error e, s')) :
    (e.wrapOs "").isModbusBase = true := by
  induction rounds generalizing pending fragments s with
  | zero => cases pending <;> cases h
  | succ rounds ih =>
    cases pending with
    | zero => cases h
    | succ pending =>
      rw [receivePdu] at h
      split at h
      · cases h
        rfl
      · split_ifs at h
        · cases h
          rfl
        · exact ih h

/-- Whatever `receive` raises is a Modbus error. -/
theorem receive_error {fragSize : ℤ} {s s' : σ} {e : Exc ε}
    (h : receive sock fragSize s = some (.error e, s')) : e.isModbusBase = true := by
  obtain ⟨⟨r₀, s₀⟩, hr, heq⟩ := Option.map_eq_some_iff.mp h
  rcases r₀ with e₀ | m <;> cases heq
  have hwrap : (e₀.wrapOs "").isModbusBase = true := by
    unfold receiveFrame at hr
    split at hr
    · next he =>
      cases hr
      exact receiveHeader_error sock he
    split_ifs at hr
    · cases hr
    split at hr
    · cases hr
      rfl
    obtain ⟨⟨r₁, s₁⟩, hp, heq⟩ := Option.map_eq_some_iff.mp hr
    cases r₁ <;> cases heq
    exact receivePdu_error sock hp
  cases e₀ <;> first | rfl | exact hwrap

/-- On a whole header, `_pdu_length` is the declared length less the unit identifier. -/
theorem pduLength_cases {s : Bytes} (h : s.length = headerSize) :
    (mbapLength s = 0 ∧ ∃ e, pduLength s = .error e) ∨
      (1 ≤ mbapLength s ∧ pduLength s = .ok (mbapLength s - 1 : ℤ)) := by
  obtain ⟨hd, hh⟩ := ModbusHeader.exists_deserialize.mpr h
  have hlen := length_of_deserialize hh
  unfold pduLength
  simp only [hh, bind, Except.bind, hlen]
  split_ifs with hneg
  · exact .inl ⟨by omega, _, rfl⟩
  · exact .inr ⟨by omega, rfl⟩

/-! ### One frame -/

theorem chunkSize_spec {fragSize : ℤ} (hf : 0 ≤ fragSize) (pending : ℕ) : ∃ n : ℕ,
    chunkSize fragSize (pending + 1) = n ∧ 0 < n ∧ n ≤ pending + 1 := by
  unfold chunkSize
  refine ⟨_, (Int.toNat_of_nonneg ?_).symm, ?_, ?_⟩ <;> split_ifs <;> omega

theorem recvExactly_cases (n : ℕ) (s : σ) :
    (∃ e s' k, recvExactly sock n s = (.error e, s') ∧ sock.Raises s e s' ∧ k < n ∧
      k ≤ (sock.unread s).length ∧ sock.unread s' = (sock.unread s).drop k) ∨
    (∃ s', recvExactly sock n s = (.ok (sock.unread s), s') ∧ (sock.unread s).length < n ∧
      sock.unread s' = []) ∨
    ∃ s', recvExactly sock n s = (.ok ((sock.unread s).take n), s') ∧
      n ≤ (sock.unread s).length ∧ sock.unread s' = (sock.unread s).drop n := by
  unfold recvExactly
  rw [Int.toNat_natCast]
  rcases h : sock.exactly n [] s with ⟨e | c, s'⟩
  · obtain ⟨k, hr, hk, hkl, hs'⟩ := sock.exactly_error h
    exact .inl ⟨e, s', k, rfl, hr, hk, hkl, hs'⟩
  · obtain ⟨rfl, hs'⟩ := sock.exactly_ok h
    rcases Nat.lt_or_ge (sock.unread s).length n with hlt | hge
    · exact .inr (.inl ⟨s', by rw [List.take_of_length_le hlt.le]; rfl, hlt,
        by rw [hs', List.drop_of_length_le hlt.le]⟩)
    · exact .inr (.inr ⟨s', rfl, hge, hs'⟩)

/-- With rounds enough, the PDU loop ends: it raises part way, meets the close, or holds
the bytes asked for, however they were cut. -/
theorem receivePdu_cases {fragSize : ℤ} (hf : 0 ≤ fragSize) (total : ℕ) {rounds pending : ℕ}
    (hle : pending ≤ rounds) (fragments : List Bytes) (s : σ) :
    (∃ e s' k, receivePdu sock fragSize total rounds pending fragments s =
        some (.error (.os e), s') ∧ sock.Raises s e s' ∧ k < pending ∧
        k ≤ (sock.unread s).length ∧ sock.unread s' = (sock.unread s).drop k) ∨
    (∃ msg s', receivePdu sock fragSize total rounds pending fragments s =
        some (.error (.network msg none), s') ∧ (sock.unread s).length < pending ∧
        sock.unread s' = []) ∨
    ∃ fs s', receivePdu sock fragSize total rounds pending fragments s = some (.ok fs, s') ∧
      pending ≤ (sock.unread s).length ∧
      fs.flatten = fragments.flatten ++ (sock.unread s).take pending ∧
      sock.unread s' = (sock.unread s).drop pending := by
  induction rounds generalizing pending fragments s with
  | zero =>
    obtain rfl : pending = 0 := by omega
    exact .inr (.inr ⟨fragments, s, rfl, by omega, by simp, by simp⟩)
  | succ rounds ih =>
    rcases pending with _ | pending
    · exact .inr (.inr ⟨fragments, s, rfl, by omega, by simp, by simp⟩)
    obtain ⟨n, hn, hpos, hnle⟩ := chunkSize_spec hf pending
    simp only [receivePdu, hn]
    rcases recvExactly_cases sock n s with ⟨e, s', k, he, hr, hk, hkl, hs'⟩ |
      ⟨s', he, hlt, hs'⟩ | ⟨s', he, hge, hs'⟩
    · exact .inl ⟨e, s', k, by rw [he], hr, by omega, hkl, hs'⟩
    · exact .inr (.inl ⟨_, s', by rw [he]; dsimp only; rw [if_pos (by omega)], by omega, hs'⟩)
    · have hl : ((sock.unread s).take n).length = n := by rw [List.length_take]; omega
      rw [he]
      dsimp only
      rw [if_neg (by omega), hl]
      rcases ih (show pending + 1 - n ≤ rounds by omega) (fragments ++ [(sock.unread s).take n]) s'
        with ⟨e, s₂, k, he', hr, hk, hkl, hs₂⟩ | ⟨msg, s₂, he', hlt, hs₂⟩ |
          ⟨fs, s₂, he', hge', hfs, hs₂⟩
      · rw [hs', List.length_drop] at hkl
        exact .inl ⟨e, s₂, n + k, he', hr.of_reaches (recvExactly_reaches sock he), by omega, by omega,
          by rw [hs₂, hs', List.drop_drop]⟩
      · rw [hs', List.length_drop] at hlt
        exact .inr (.inl ⟨msg, s₂, he', by omega, hs₂⟩)
      · rw [hs', List.length_drop] at hge'
        refine .inr (.inr ⟨fs, s₂, he', by omega, ?_, ?_⟩)
        · rw [hfs, hs', List.flatten_append, List.append_assoc, List.flatten_singleton,
            ← List.take_add, show n + (pending + 1 - n) = pending + 1 by omega]
        · rw [hs₂, hs', List.drop_drop, show n + (pending + 1 - n) = pending + 1 by omega]

theorem receiveHeader_cases (s : σ) :
    (∃ e s' k, receiveHeader sock s = (.error (.os e), s') ∧
      sock.Raises s e s' ∧ k < headerSize ∧ k ≤ (sock.unread s).length ∧
      sock.unread s' = (sock.unread s).drop k) ∨
    (∃ s', receiveHeader sock s = (.ok [], s') ∧ sock.unread s = [] ∧ sock.unread s' = []) ∨
    (∃ msg s', receiveHeader sock s = (.error (.network msg none), s') ∧
      0 < (sock.unread s).length ∧ (sock.unread s).length < headerSize ∧ sock.unread s' = []) ∨
    ∃ h s', receiveHeader sock s = (.ok h, s') ∧ h = (sock.unread s).take headerSize ∧ h ≠ [] ∧
      h.length = headerSize ∧ headerSize ≤ (sock.unread s).length ∧
      sock.unread s' = (sock.unread s).drop headerSize := by
  have hsize := headerSize_eq
  unfold receiveHeader
  rcases recvExactly_cases sock headerSize s with ⟨e, s', k, he, hr, hk, hkl, hs'⟩ |
    ⟨s', he, hlt, hs'⟩ | ⟨s', he, hge, hs'⟩ <;> rw [he] <;> dsimp only
  · exact .inl ⟨e, s', k, rfl, hr, hk, hkl, hs'⟩
  · by_cases hu : sock.unread s = []
    · exact .inr (.inl ⟨s', by rw [if_pos hu], hu, hs'⟩)
    · rw [if_neg hu, if_pos hlt]
      exact .inr (.inr (.inl ⟨_, s', rfl, List.length_pos_iff.mpr hu, hlt, hs'⟩))
  · have hl : ((sock.unread s).take headerSize).length = headerSize := by
      rw [List.length_take]; omega
    have hne : (sock.unread s).take headerSize ≠ [] := List.ne_nil_of_length_pos (by omega)
    rw [if_neg hne, if_neg (by omega)]
    exact .inr (.inr (.inr ⟨_, s', rfl, rfl, hne, hl, hge, hs'⟩))

/-- What a call of `receive` does, by what is still to come: an error part way, a close
before the first byte, a close inside the frame, a length that describes no frame, or one
whole frame. -/
theorem receive_cases {fragSize : ℤ} (hf : 0 ≤ fragSize) (s : σ) :
    (∃ e msg s' k, receive sock fragSize s = some (.error (.network msg (some e)), s') ∧
      sock.Raises s e s' ∧ (k < headerSize ∨ k < 6 + mbapLength (sock.unread s)) ∧
      k ≤ (sock.unread s).length ∧ sock.unread s' = (sock.unread s).drop k) ∨
    (∃ s', receive sock fragSize s = some (.ok [], s') ∧ sock.unread s = [] ∧
      sock.unread s' = []) ∨
    (∃ msg s', receive sock fragSize s = some (.error (.network msg none), s') ∧
      0 < (sock.unread s).length ∧ ((sock.unread s).length < headerSize ∨
        1 ≤ mbapLength (sock.unread s) ∧
          (sock.unread s).length < 6 + mbapLength (sock.unread s)) ∧ sock.unread s' = []) ∨
    (∃ e s', receive sock fragSize s = some (.error (.packet e), s') ∧
      headerSize ≤ (sock.unread s).length ∧ mbapLength (sock.unread s) = 0 ∧
      sock.unread s' = (sock.unread s).drop headerSize) ∨
    ∃ s', receive sock fragSize s =
        some (.ok ((sock.unread s).take (6 + mbapLength (sock.unread s))), s') ∧
      headerSize ≤ (sock.unread s).length ∧ 1 ≤ mbapLength (sock.unread s) ∧
      6 + mbapLength (sock.unread s) ≤ (sock.unread s).length ∧
      sock.unread s' = (sock.unread s).drop (6 + mbapLength (sock.unread s)) := by
  have hsize := headerSize_eq
  unfold receive receiveFrame
  rcases receiveHeader_cases sock s with ⟨e, s', k, he, hr, hk, hkl, hs'⟩ |
    ⟨s', he, hu, hs'⟩ | ⟨msg, s', he, hpos, hlt, hs'⟩ | ⟨h, s', he, hh, hne, hl, hge, hs'⟩ <;>
    rw [he] <;> dsimp only
  · exact .inl ⟨e, _, s', k, rfl, hr, .inl hk, hkl, hs'⟩
  · exact .inr (.inl ⟨s', rfl, hu, hs'⟩)
  · exact .inr (.inr (.inl ⟨msg, s', rfl, hpos, .inl hlt, hs'⟩))
  have hmbap : mbapLength h = mbapLength (sock.unread s) := hh ▸ mbapLength_take _
  rw [if_neg hne]
  rcases pduLength_cases hl with ⟨h0, e, hp⟩ | ⟨h1, hp⟩ <;> rw [hp] <;> dsimp only
  · exact .inr (.inr (.inr (.inl ⟨e, s', rfl, hge, by omega, hs'⟩)))
  obtain ⟨n, hn⟩ : ∃ n : ℕ, (mbapLength h : ℤ) - 1 = n := ⟨mbapLength h - 1, by omega⟩
  rw [hn, Int.toNat_natCast]
  rcases receivePdu_cases sock hf n (le_refl n) [] s' with
    ⟨e, s₂, k, he', hr, hk, hkl, hs₂⟩ | ⟨msg, s₂, he', hlt, hs₂⟩ |
    ⟨fs, s₂, he', hge', hfs, hs₂⟩ <;> rw [he']
  · rw [hs', List.length_drop] at hkl
    refine .inl ⟨e, _, s₂, headerSize + k, rfl, hr.of_reaches (receiveHeader_reaches sock he),
      .inr (by omega), by omega, ?_⟩
    rw [hs₂, hs', List.drop_drop]
  · rw [hs', List.length_drop] at hlt
    exact .inr (.inr (.inl ⟨msg, s₂, rfl, by omega, .inr ⟨by omega, by omega⟩, hs₂⟩))
  · rw [hs', List.length_drop] at hge'
    have hsum : headerSize + n = 6 + mbapLength (sock.unread s) := by omega
    have hmsg : ModbusFragmenter.assemble (h :: fs) =
        (sock.unread s).take (6 + mbapLength (sock.unread s)) := by
      rw [ModbusFragmenter.assemble, List.flatten_cons, hfs, hs', hh, ← hsum, List.take_add]
      rfl
    refine .inr (.inr (.inr (.inr ⟨s₂, ?_, hge, by omega, by omega, ?_⟩)))
    · rw [← hmsg]; rfl
    · rw [hs₂, hs', List.drop_drop, hsum]

/-- A negative fragment size reads nothing of the PDU, round after round. -/
theorem receivePdu_of_neg {fragSize : ℤ} (hf : fragSize < 0) (total : ℕ) {rounds pending : ℕ}
    (hpos : 0 < pending) (fragments : List Bytes) (s : σ) :
    receivePdu sock fragSize total rounds pending fragments s = none := by
  obtain ⟨pending, rfl⟩ := Nat.exists_eq_succ_of_ne_zero hpos.ne'
  have hchunk : chunkSize fragSize (pending + 1) = fragSize := by
    unfold chunkSize
    split_ifs <;> omega
  have hread : recvExactly sock fragSize s = (.ok [], s) := by
    rw [recvExactly, Int.toNat_of_nonpos hf.le, Source.exactly_zero]
  induction rounds generalizing fragments with
  | zero => rfl
  | succ rounds ih =>
    simp only [receivePdu, hchunk, hread, List.length_nil, Nat.sub_zero]
    rw [if_neg (by omega)]
    exact ih _

/-- So what a call returns, it returns under some size that is not negative. -/
theorem exists_receive {fragSize : ℤ} {s : σ} {x : Except (Exc ε) Bytes × σ}
    (h : receive sock fragSize s = some x) :
    ∃ size, 0 ≤ size ∧ receive sock size s = some x := by
  by_cases hf : 0 ≤ fragSize
  · exact ⟨fragSize, hf, h⟩
  refine ⟨0, le_rfl, ?_⟩
  obtain ⟨y, hy, rfl⟩ := Option.map_eq_some_iff.mp h
  refine Option.map_eq_some_iff.mpr ⟨y, ?_, rfl⟩
  unfold receiveFrame at hy ⊢
  split at hy
  · exact hy
  split_ifs at hy ⊢
  · exact hy
  split at hy
  · exact hy
  next n hn =>
    obtain ⟨z, hz, rfl⟩ := Option.map_eq_some_iff.mp hy
    rcases n.toNat.eq_zero_or_pos with hzero | hpos
    · refine Option.map_eq_some_iff.mpr ⟨z, ?_, rfl⟩
      rw [hzero] at hz ⊢
      simpa only [receivePdu] using hz
    · rw [receivePdu_of_neg sock (not_le.mp hf) _ hpos] at hz
      cases hz

section Endless

variable (hend : ∀ s n s', 0 < n → sock.read s n ≠ (.ok [], s'))
include hend

theorem receiveHeader_of_endless {s s' : σ} {r : Except (Exc ε) Bytes}
    (h : receiveHeader sock s = (r, s')) :
    (∃ e, r = .error (.os e)) ∨ ∃ headerBytes, r = .ok headerBytes ∧ headerBytes ≠ [] := by
  have hsize := headerSize_eq
  unfold receiveHeader at h
  split at h
  next e s₁ he =>
    cases h
    exact .inl ⟨e, rfl⟩
  next headerBytes s₁ he =>
    have hfull : headerBytes.length = 0 + headerSize := sock.exactly_full hend he
    have hne : headerBytes ≠ [] := List.ne_nil_of_length_pos (by omega)
    rw [if_neg hne, if_neg (by omega)] at h
    cases h
    exact .inr ⟨headerBytes, rfl, hne⟩

theorem receivePdu_of_endless {fragSize : ℤ} (hf : 0 ≤ fragSize) (total : ℕ) {rounds pending : ℕ}
    (fragments : List Bytes) {s s' : σ} {e : Exc ε}
    (h : receivePdu sock fragSize total rounds pending fragments s = some (.error e, s')) :
    ∃ e₀, e = .os e₀ := by
  induction rounds generalizing pending fragments s with
  | zero => cases pending <;> cases h
  | succ rounds ih =>
    cases pending with
    | zero => cases h
    | succ pending =>
      obtain ⟨n, hn, -, -⟩ := chunkSize_spec hf pending
      simp only [receivePdu, hn] at h
      split at h
      next e₀ s₁ he =>
        cases h
        exact ⟨e₀, rfl⟩
      next chunk s₁ he =>
        have hfull : chunk.length = 0 + n := sock.exactly_full hend he
        rw [if_neg (by omega)] at h
        exact ih _ h

/-- Where the end never comes, no call finds the stream closed, before a frame or inside one. -/
theorem receive_of_endless {fragSize : ℤ} (hf : 0 ≤ fragSize) {s s' : σ}
    {r : Except (Exc ε) Bytes} (h : receive sock fragSize s = some (r, s')) :
    r ≠ .ok [] ∧ ∀ msg, r ≠ .error (.network msg none) := by
  obtain ⟨⟨r₀, s₀⟩, hr, heq⟩ := Option.map_eq_some_iff.mp h
  obtain ⟨rfl, rfl⟩ := Prod.mk.inj heq
  have hos (e : ε) : ((Except.error (Exc.os e) : Except (Exc ε) Bytes).mapError
      (Exc.wrapOs "Error receiving Modbus message: ") ≠ .ok []) ∧ ∀ msg : String,
      (Except.error (Exc.os e) : Except (Exc ε) Bytes).mapError
        (Exc.wrapOs "Error receiving Modbus message: ") ≠ .error (.network msg none) := by
    simp [Except.mapError, Exc.wrapOs]
  unfold receiveFrame at hr
  split at hr
  next e s₁ he =>
    cases hr
    rcases receiveHeader_of_endless sock hend he with ⟨e₀, heq⟩ | ⟨_, heq, -⟩
    · cases heq
      exact hos e₀
    · cases heq
  next headerBytes s₁ he =>
    rcases receiveHeader_of_endless sock hend he with ⟨e₀, heq⟩ | ⟨_, heq, hne⟩
    · cases heq
    cases heq
    rw [if_neg hne] at hr
    split at hr
    · cases hr
      exact ⟨nofun, nofun⟩
    · obtain ⟨⟨r₁, s₂⟩, hp, heq⟩ := Option.map_eq_some_iff.mp hr
      rcases r₁ with e | fragments
      · obtain ⟨e₀, rfl⟩ := receivePdu_of_endless sock hend hf _ _ hp
        cases heq
        exact hos e₀
      · cases heq
        refine ⟨fun hnil => ?_, nofun⟩
        have hflat := Except.ok.inj hnil
        rw [ModbusFragmenter.assemble, List.flatten_cons, List.append_eq_nil_iff] at hflat
        exact hne hflat.1

end Endless

def receiveTimes (fragSize : ℤ) : ℕ → σ → Option (List (Except (Exc ε) Bytes) × σ)
  | 0, s => some ([], s)
  | n + 1, s =>
    match receive sock fragSize s with
    | none => none
    | some (r, s') => (receiveTimes fragSize n s').map fun (rs, s'') => (r :: rs, s'')

end Receive

section Frames

variable {ε σ : Type} (sock : Source ε σ) {fragSize : ℤ}

/-- Where the peer's next bytes are a frame, `receive` raises inside it or returns it and
leaves the rest. -/
theorem receive_frame_cases (hf : 0 ≤ fragSize) (f : TcpFrame) {rest : Bytes} {s : σ}
    (h : sock.unread s = f.bytes ++ rest) :
    (∃ e msg s' k, receive sock fragSize s = some (.error (.network msg (some e)), s') ∧
      sock.Raises s e s' ∧ k < f.bytes.length ∧
      sock.unread s' = (sock.unread s).drop k) ∨
    ∃ s', receive sock fragSize s = some (.ok f.bytes, s') ∧ sock.unread s' = rest := by
  have hsize := headerSize_eq
  have hmbap := f.declares rest
  have hle := f.header_le
  have hlen : (sock.unread s).length = f.bytes.length + rest.length := by
    rw [h, List.length_append]
  rcases receive_cases sock hf s with ⟨e, msg, s', k, hr, hread, hk, -, hs'⟩ |
    ⟨s', hr, hu, hs'⟩ | ⟨msg, s', hr, hpos, hshort, hs'⟩ | ⟨e, s', hr, hge, h0, hs'⟩ |
    ⟨s', hr, hge, h1, h6, hs'⟩
  · rw [h] at hk
    exact .inl ⟨e, msg, s', k, hr, hread, by omega, hs'⟩
  · rw [h] at hu
    exact absurd (List.append_eq_nil_iff.mp hu).1 f.ne_nil
  · rw [h] at hshort
    rw [List.length_append] at hshort
    omega
  · rw [h] at h0
    omega
  · rw [h, hmbap, List.take_left] at hr
    rw [h, hmbap, List.drop_left] at hs'
    exact .inr ⟨s', hr, hs'⟩

/-- Where nothing is to come, `receive` raises or returns nothing. -/
theorem receive_nil_cases (hf : 0 ≤ fragSize) {s : σ} (h : sock.unread s = []) :
    (∃ e msg s', receive sock fragSize s = some (.error (.network msg (some e)), s') ∧
      sock.Raises s e s' ∧ sock.unread s' = []) ∨
    ∃ s', receive sock fragSize s = some (.ok [], s') ∧ sock.unread s' = [] := by
  have hsize := headerSize_eq
  have hlen : (sock.unread s).length = 0 := by rw [h]; rfl
  rcases receive_cases sock hf s with ⟨e, msg, s', k, hr, hread, -, -, hs'⟩ |
    ⟨s', hr, -, hs'⟩ | ⟨msg, s', -, hpos, -⟩ | ⟨e, s', -, hge, -⟩ | ⟨s', -, hge, -⟩
  · exact .inl ⟨e, msg, s', hr, hread, by rw [hs', h, List.drop_nil]⟩
  · exact .inr ⟨s', hr, hs'⟩
  all_goals omega

end Frames

section Reliable

variable {σ : Type} (sock : Source Empty σ) {fragSize : ℤ}

theorem receive_frame (hf : 0 ≤ fragSize) (f : TcpFrame) {rest : Bytes} {s : σ}
    (h : sock.unread s = f.bytes ++ rest) :
    ∃ s', receive sock fragSize s = some (.ok f.bytes, s') ∧ sock.unread s' = rest :=
  (receive_frame_cases sock hf f h).resolve_left fun ⟨e, _⟩ => e.elim

theorem receive_nil (hf : 0 ≤ fragSize) {s : σ} (h : sock.unread s = []) :
    ∃ s', receive sock fragSize s = some (.ok [], s') ∧ sock.unread s' = [] :=
  (receive_nil_cases sock hf h).resolve_left fun ⟨e, _⟩ => e.elim

/-- Repeated calls cut a concatenation of frames back into those frames, in order. -/
theorem receiveTimes_frames (hf : 0 ≤ fragSize) (frames : List TcpFrame) {rest : Bytes} {s : σ}
    (h : sock.unread s = (frames.map TcpFrame.bytes).flatten ++ rest) :
    ∃ s', receiveTimes sock fragSize frames.length s =
        some (frames.map fun f => .ok f.bytes, s') ∧ sock.unread s' = rest := by
  induction frames generalizing s with
  | nil => exact ⟨s, rfl, by simpa using h⟩
  | cons f frames ih =>
    rw [List.map_cons, List.flatten_cons, List.append_assoc] at h
    obtain ⟨s₁, hr, hs₁⟩ := receive_frame sock hf f h
    obtain ⟨s', hrs, hs'⟩ := ih hs₁
    exact ⟨s', by simp [receiveTimes, hr, hrs], hs'⟩

/-- `receive` over a socket that does not raise, for every fragment size and every way the
reads cut the bytes up: a frame and not a byte more, empty where the peer closed first, a
network error where it closed inside the frame, a packet error where the length is zero. -/
theorem receive_spec (hf : 0 ≤ fragSize) (s : σ) :
    (∃ r s', receive sock fragSize s = some (r, s') ∧
      (∀ m, m ≠ [] → (r = .ok m ↔ 1 ≤ mbapLength (sock.unread s) ∧
        6 + mbapLength (sock.unread s) ≤ (sock.unread s).length ∧
        m = (sock.unread s).take (6 + mbapLength (sock.unread s)))) ∧
      (∀ m, m ≠ [] → r = .ok m → sock.unread s = m ++ sock.unread s' ∧
        (∃ h, ModbusHeader.deserialize (m.take headerSize) = .ok h ∧
          validateMbapLength h m = .ok ()) ∧
        ModbusFragmenter.getMessageLength m = .ok m.length) ∧
      (r = .ok [] ↔ sock.unread s = []) ∧
      ((∃ msg cause, r = .error (.network msg cause)) ↔ 0 < (sock.unread s).length ∧
        ((sock.unread s).length < headerSize ∨ 1 ≤ mbapLength (sock.unread s) ∧
          (sock.unread s).length < 6 + mbapLength (sock.unread s))) ∧
      ((∃ e, r = .error (.packet e)) ↔
        headerSize ≤ (sock.unread s).length ∧ mbapLength (sock.unread s) = 0)) ∧
    ∀ (frames : List TcpFrame) (rest : Bytes),
      sock.unread s = (frames.map TcpFrame.bytes).flatten ++ rest →
      ∃ s', receiveTimes sock fragSize frames.length s =
        some (frames.map fun f => .ok f.bytes, s') ∧ sock.unread s' = rest := by
  refine ⟨?_, fun frames rest h => receiveTimes_frames sock hf frames h⟩
  have hsize := headerSize_eq
  rcases receive_cases sock hf s with ⟨e, -⟩ | ⟨s', hr, hu, hs'⟩ |
    ⟨msg, s', hr, hpos, hshort, hs'⟩ | ⟨e, s', hr, hge, h0, hs'⟩ | ⟨s', hr, hge, h1, h6, hs'⟩
  · exact e.elim
  · exact ⟨_, s', hr, fun m hm => by simp [hu, hm.symm], fun m hm h => by simp_all,
      by simp [hu], by simp [hu], by simp [hu, hsize]⟩
  · have hne : sock.unread s ≠ [] := List.length_pos_iff.mp hpos
    refine ⟨_, s', hr, fun m hm => ?_, fun m hm => nofun, by simp [hne], ?_, ?_⟩
    · simp only [reduceCtorEq, false_iff]; omega
    · exact ⟨fun _ => ⟨hpos, hshort⟩, fun _ => ⟨msg, none, rfl⟩⟩
    · simp only [Except.error.injEq, reduceCtorEq, exists_false, false_iff]; omega
  · have hne : sock.unread s ≠ [] := List.length_pos_iff.mp (by omega)
    refine ⟨_, s', hr, fun m hm => ?_, fun m hm => nofun, by simp [hne], ?_, ?_⟩
    · simp only [reduceCtorEq, false_iff]; omega
    · simp only [Except.error.injEq, reduceCtorEq, exists_false, false_iff]; omega
    · exact ⟨fun _ => ⟨hge, h0⟩, fun _ => ⟨e, rfl⟩⟩
  · have hne : sock.unread s ≠ [] := List.length_pos_iff.mp (by omega)
    refine ⟨_, s', hr, fun m hm => ?_, fun m hm h => ?_, ?_, ?_, ?_⟩
    · rw [Except.ok.injEq]
      exact ⟨fun h => ⟨h1, h6, h.symm⟩, fun h => h.2.2.symm⟩
    · obtain rfl := Except.ok.inj h
      exact ⟨by rw [hs', List.take_append_drop], (frameOf _ h1 h6).measured⟩
    · rw [Except.ok.injEq]
      exact ⟨fun h => absurd h (frameOf _ h1 h6).ne_nil, fun h => absurd h hne⟩
    · simp only [reduceCtorEq, exists_false, false_iff]; omega
    · simp only [reduceCtorEq, exists_false, false_iff]; omega

end Reliable

/-- A frame of eight bytes in segments of one, three and five, the last with a byte more. -/
theorem receive_spec_short_reads :
    ∃ s', receiveTimes (Source.arriving Empty) 3 1
        [.segment [0], .segment [1, 0, 0], .segment [0, 2, 1, 7, 9]] =
      some ([.ok [0, 1, 0, 0, 0, 2, 1, 7]], s') ∧ (Source.arriving Empty).unread s' = [9] :=
  (receive_spec (Source.arriving Empty) (show (0 : ℤ) ≤ 3 by decide) _).2
    [⟨[0, 1, 0, 0, 0, 2, 1, 7], by decide, by decide⟩] [9] rfl

end ModbusTcpStream

end Pyomb
