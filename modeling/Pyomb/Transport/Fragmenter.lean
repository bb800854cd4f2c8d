import Pyomb.Bytes.Sink
import Pyomb.Transport.Exceptions

/-! The fragmenter, and sending a message through it. A message goes out as its header
and then its PDU in pieces of the fragment size, or whole where that is zero. -/

namespace Pyomb

def headerSize : ℕ := ModbusHeader.size

theorem headerSize_eq : headerSize = 7 := rfl

namespace ModbusFragmenter

def getMessageLength (message : Bytes) : Except PacketError ℤ := do
  let header ← ModbusHeader.deserialize (message.take headerSize)
  return headerSize + header.length - 1

/-- The loop of `fragment`: cut off a piece while anything is left. -/
def pieces (fragSize : ℕ) (pdu : Bytes) : List Bytes :=
  if pdu ≠ [] ∧ 0 < fragSize then
    pdu.take fragSize :: pieces fragSize (pdu.drop fragSize)
  else []
termination_by pdu.length
decreasing_by
  rename_i h
  have := List.length_pos_iff.mpr h.1
  simp only [List.length_drop]
  omega

def fragment (message : Bytes) (fragSize : ℤ := 7) : Except PacketError (List Bytes) :=
  if fragSize < 0 then .error (.say "The allowed fragment size is greater or equal to 0.")
  else if fragSize = 0 then .ok [message]
  else .ok (message.take headerSize :: pieces fragSize.toNat (message.drop headerSize))

def assemble (fragments : List Bytes) : Bytes := fragments.flatten

theorem nothing_left {fragSize : ℕ} (hf : 0 < fragSize) {pdu : Bytes}
    (h : ¬ (pdu ≠ [] ∧ 0 < fragSize)) : pdu = [] := by
  by_contra hne
  exact h ⟨hne, hf⟩

theorem flatten_pieces {fragSize : ℕ} (hf : 0 < fragSize) (pdu : Bytes) :
    (pieces fragSize pdu).flatten = pdu := by
  fun_induction pieces fragSize pdu with
  | case1 pdu h ih => rw [List.flatten_cons, ih, List.take_append_drop]
  | case2 pdu h => rw [List.flatten_nil, nothing_left hf h]

/-- A piece is not empty, and no longer than asked for. -/
theorem pieces_sized (fragSize : ℕ) (pdu : Bytes) :
    ∀ d ∈ pieces fragSize pdu, d ≠ [] ∧ d.length ≤ fragSize := by
  fun_induction pieces fragSize pdu with
  | case1 pdu h ih =>
    intro d hd
    rcases List.mem_cons.mp hd with rfl | hd
    · refine ⟨?_, List.length_take_le fragSize pdu⟩
      rw [ne_eq, List.take_eq_nil_iff, not_or]
      exact ⟨h.2.ne', h.1⟩
    · exact ih d hd
  | case2 pdu h =>
    intro d hd
    exact absurd hd List.not_mem_nil

/-- Only the last piece can be shorter: a piece cut short leaves nothing behind it. -/
theorem pieces_dropLast (fragSize : ℕ) (pdu : Bytes) :
    ∀ d ∈ (pieces fragSize pdu).dropLast, d.length = fragSize := by
  fun_induction pieces fragSize pdu with
  | case1 pdu h ih =>
    intro d hd
    by_cases hrest : pieces fragSize (pdu.drop fragSize) = []
    · rw [hrest] at hd
      exact absurd hd List.not_mem_nil
    have hle : fragSize ≤ pdu.length := by
      by_contra hlt
      rw [List.drop_of_length_le (by omega), pieces] at hrest
      exact hrest (if_neg fun h => h.1 rfl)
    rw [List.dropLast_cons_of_ne_nil hrest] at hd
    rcases List.mem_cons.mp hd with rfl | hd
    · rw [List.length_take, min_eq_left hle]
    · exact ih d hd
  | case2 pdu h =>
    intro d hd
    exact absurd hd List.not_mem_nil

/-- As many pieces as the size goes into the length, a last short one counted. -/
theorem length_pieces {fragSize : ℕ} (hf : 0 < fragSize) (pdu : Bytes) :
    ((pieces fragSize pdu).length : ℤ) = ⌈(pdu.length : ℚ) / fragSize⌉ := by
  have hf' : (0 : ℚ) < fragSize := Nat.cast_pos.mpr hf
  fun_induction pieces fragSize pdu with
  | case1 pdu h ih =>
    have hpos := List.length_pos_iff.mpr h.1
    rw [List.length_cons, Nat.cast_succ, ih, ← Int.ceil_add_one]
    rcases Nat.lt_or_ge pdu.length fragSize with hlt | hge
    · have hone : ⌈(pdu.length : ℚ) / fragSize⌉ = 1 := by
        rw [Int.ceil_eq_iff, Int.cast_one, sub_self, div_le_one hf']
        exact ⟨div_pos (Nat.cast_pos.mpr hpos) hf', Nat.cast_le.mpr hlt.le⟩
      rw [hone, List.length_drop, Nat.sub_eq_zero_of_le hlt.le, Nat.cast_zero, zero_div, zero_add,
        Int.ceil_one]
    · rw [List.length_drop, Nat.cast_sub hge, sub_div, div_self hf'.ne', sub_add_cancel]
  | case2 pdu h => simp [nothing_left hf h]

/-- Fragmenting splits the message and loses nothing of it. -/
theorem assemble_fragment {message : Bytes} {fragSize : ℤ} {fragments : List Bytes}
    (h : fragment message fragSize = .ok fragments) : assemble fragments = message := by
  unfold fragment at h
  split_ifs at h with hneg hzero
  · cases h
    simp [assemble]
  · cases h
    rw [assemble, List.flatten_cons, flatten_pieces (by omega), List.take_append_drop]

/-- A message that is not empty opens with a fragment that is not. -/
theorem fragment_of_nonneg {message : Bytes} (hne : message ≠ []) {fragSize : ℤ}
    (hf : 0 ≤ fragSize) : ∃ d ds, fragment message fragSize = .ok (d :: ds) ∧ d ≠ [] := by
  have hsize : headerSize ≠ 0 := nofun
  unfold fragment
  rw [if_neg (not_lt.mpr hf)]
  split_ifs
  · exact ⟨message, [], rfl, hne⟩
  · exact ⟨_, _, rfl, by simp [List.take_eq_nil_iff, hne, hsize]⟩

theorem fragment_of_pos {size : ℕ} (hpos : 0 < size) (message : Bytes) :
    fragment message size =
      .ok (message.take headerSize :: pieces size (message.drop headerSize)) := by
  unfold fragment
  rw [if_neg (by omega), if_neg (by omega), Int.toNat_natCast]

/-- Fragmenting loses nothing, and cuts to size: a size of zero leaves the message whole, a
positive one takes the header off and then as many bytes at a time, and a negative one is
refused. -/
theorem fragment_spec (message : Bytes) (fragSize : ℤ) :
    (0 ≤ fragSize → ∃ fragments, fragment message fragSize = .ok fragments ∧
      assemble fragments = message ∧ (fragSize = 0 → fragments.length = 1) ∧
      (0 < fragSize → ∃ header later, fragments = header :: later ∧
        header = message.take (min 7 message.length) ∧
        (∀ d ∈ later, d ≠ [] ∧ (d.length : ℤ) ≤ fragSize) ∧
        (∀ d ∈ later.dropLast, (d.length : ℤ) = fragSize) ∧
        (fragments.length : ℤ) =
          1 + ⌈((max 0 ((message.length : ℤ) - 7) : ℤ) : ℚ) / fragSize⌉)) ∧
    (fragSize < 0 → ∃ e, fragment message fragSize = .error e) := by
  refine ⟨fun hf => ?_, fun hf => ⟨_, if_pos hf⟩⟩
  obtain ⟨size, rfl⟩ := Int.eq_ofNat_of_zero_le hf
  rcases size.eq_zero_or_pos with rfl | hpos
  · have hwhole : fragment message (0 : ℕ) = .ok [message] := rfl
    exact ⟨_, hwhole, assemble_fragment hwhole, fun _ => rfl, fun h => absurd h (lt_irrefl 0)⟩
  have hfrag := fragment_of_pos hpos message
  have hdrop : ((message.drop headerSize).length : ℤ) = max 0 ((message.length : ℤ) - 7) := by
    rw [List.length_drop, headerSize_eq]
    omega
  refine ⟨_, hfrag, assemble_fragment hfrag, fun h => by omega, fun _ =>
    ⟨_, _, rfl, ?_, fun d hd => ?_, fun d hd => ?_, ?_⟩⟩
  · rw [← headerSize_eq, ← List.take_take, List.take_length]
  · obtain ⟨hne, hle⟩ := pieces_sized size _ d hd
    exact ⟨hne, Int.ofNat_le.mpr hle⟩
  · exact congrArg Nat.cast (pieces_dropLast size _ d hd)
  · rw [List.length_cons, Nat.cast_succ, length_pieces hpos, add_comm, ← hdrop,
      Int.cast_natCast, Int.cast_natCast]

end ModbusFragmenter

/-- The writing end of a TCP socket: a sink whose options can be set, which writes nothing. -/
structure SendSocket (ε σ : Type) extends Sink ε σ where
  setNoDelay : σ → Except ε Unit × σ
  setNoDelay_accepted {s} : accepted (setNoDelay s).2 = accepted s

def SendSocket.AcceptsAll {ε σ : Type} (sock : SendSocket ε σ) : Prop :=
  ∀ s d, ∃ s', sock.write s d = (.ok d.length, s')

def SendSocket.WholeOrRaises {ε σ : Type} (sock : SendSocket ε σ) : Prop :=
  ∀ s d, (∃ s', sock.write s d = (.ok d.length, s')) ∨ ∃ e s', sock.write s d = (.error e, s')

/-- The socket, beside the bytes its writes were given. -/
def SendSocket.recorded {ε σ : Type} (sock : SendSocket ε σ) : SendSocket ε (σ × Bytes) where
  toSink := sock.toSink.recorded
  setNoDelay s := ((sock.setNoDelay s.1).1, (sock.setNoDelay s.1).2, s.2)
  setNoDelay_accepted := sock.setNoDelay_accepted

def SendSocket.accepting (ε : Type) : SendSocket ε Bytes where
  toSink := Sink.accepting ε
  setNoDelay s := (.ok (), s)
  setNoDelay_accepted := rfl

namespace ModbusTcpStream

variable {ε σ : Type} (sock : SendSocket ε σ)

def setBurst (burst : Bool) (s : σ) : Except ε Unit × σ :=
  if burst then sock.setNoDelay s else (.ok (), s)

/-- The body of `send`'s `try`: set the option, fragment, and write the fragments one by
one. The counts the writes return are not looked at. -/
def sendFragments (fragSize : ℤ) (burst : Bool) (message : Bytes) (s : σ) :
    Except (Exc ε) Unit × σ :=
  match setBurst sock burst s with
  | (.error e, s₁) => (.error (.os e), s₁)
  | (.ok (), s₁) =>
    match ModbusFragmenter.fragment message fragSize with
    | .error e => (.error (.packet e), s₁)
    | .ok fragments =>
      match sock.each fragments s₁ with
      | (.error e, s₂) => (.error (.os e), s₂)
      | (.ok (), s₂) => (.ok (), s₂)

def send (fragSize : ℤ) (burst : Bool) (message : Bytes) (s : σ) : Except (Exc ε) Unit × σ :=
  let (r, s') := sendFragments sock fragSize burst message s
  (r.mapError (.wrapOs "Error sending Modbus message: "), s')

theorem setBurst_accepted (burst : Bool) (s : σ) :
    sock.accepted (setBurst sock burst s).2 = sock.accepted s := by
  unfold setBurst
  split_ifs
  · exact sock.setNoDelay_accepted
  · rfl

theorem send_cases (fragSize : ℤ) (burst : Bool) (message : Bytes) (s : σ) :
    (∃ e s₁, setBurst sock burst s = (.error e, s₁) ∧ send sock fragSize burst message s =
      (.error (.network "Error sending Modbus message: " (some e)), s₁)) ∨
    (∃ e s₁, setBurst sock burst s = (.ok (), s₁) ∧
      ModbusFragmenter.fragment message fragSize = .error e ∧
      send sock fragSize burst message s = (.error (.packet e), s₁)) ∨
    ∃ s₁ fragments, setBurst sock burst s = (.ok (), s₁) ∧
      ModbusFragmenter.fragment message fragSize = .ok fragments ∧
      ((∃ e s₂, sock.each fragments s₁ = (.error e, s₂) ∧ send sock fragSize burst message s =
        (.error (.network "Error sending Modbus message: " (some e)), s₂)) ∨
      ∃ s₂, sock.each fragments s₁ = (.ok (), s₂) ∧
        send sock fragSize burst message s = (.ok (), s₂)) := by
  unfold send sendFragments
  rcases setBurst sock burst s with ⟨e | ⟨⟩, s₁⟩
  · exact .inl ⟨e, s₁, rfl, rfl⟩
  rcases ModbusFragmenter.fragment message fragSize with e | fragments
  · exact .inr (.inl ⟨e, s₁, rfl, rfl, rfl⟩)
  refine .inr (.inr ⟨s₁, fragments, rfl, rfl, ?_⟩)
  dsimp only
  rcases sock.each fragments s₁ with ⟨e | ⟨⟩, s₂⟩
  · exact .inl ⟨e, s₂, rfl, rfl⟩
  · exact .inr ⟨s₂, rfl, rfl⟩

/-- A negative fragment size is refused ahead of any write. -/
theorem send_of_neg {fragSize : ℤ} (hf : fragSize < 0) (message : Bytes) (s : σ) :
    ∃ e, send sock fragSize false message s = (.error (.packet e), s) := by
  have hfrag : ∃ e, ModbusFragmenter.fragment message fragSize = .error e := ⟨_, if_pos hf⟩
  obtain ⟨e, he⟩ := hfrag
  refine ⟨e, ?_⟩
  unfold send sendFragments
  rw [he]
  rfl

/-- Any other size gives the socket bytes of a message there is. -/
theorem given_send {fragSize : ℤ} (hf : 0 ≤ fragSize) {message : Bytes} (hne : message ≠ [])
    (s : σ) : (send sock.recorded fragSize false message (s, [])).2.2 ≠ [] := by
  obtain ⟨d, ds, hfrag, hd⟩ := ModbusFragmenter.fragment_of_nonneg hne hf
  have hgiven : d <+: (sock.recorded.each (d :: ds) (s, [])).2.2 :=
    sock.given_each_cons d ds (s, [])
  have hset : setBurst sock.recorded false (s, []) = (.ok (), s, []) := rfl
  intro hnil
  rcases send_cases sock.recorded fragSize false message (s, []) with ⟨e, s₁, h, -⟩ |
    ⟨e, s₁, -, h, -⟩ | ⟨s₁, fragments, h, h', hw⟩
  · rw [hset] at h
    cases h
  · rw [hfrag] at h
    cases h
  rw [hset] at h
  rw [hfrag] at h'
  cases h
  cases h'
  rcases hw with ⟨e, s₂, heach, hsend⟩ | ⟨s₂, heach, hsend⟩
  all_goals
    rw [hsend] at hnil
    rw [heach, hnil] at hgiven
    exact hd (List.prefix_nil.mp hgiven)

theorem send_accepted {sock : SendSocket ε σ} (h : sock.AcceptsAll) {fragSize : ℤ}
    (hf : 0 ≤ fragSize) {burst : Bool}
    (hset : burst = true → ∀ s, ∃ s', sock.setNoDelay s = (.ok (), s')) (message : Bytes) (s : σ) :
    ∃ s', send sock fragSize burst message s = (.ok (), s') ∧
      sock.accepted s' = sock.accepted s ++ message := by
  have hburst : ∃ s₁, setBurst sock burst s = (.ok (), s₁) := by
    cases burst with
    | false => exact ⟨s, rfl⟩
    | true => exact hset rfl s
  obtain ⟨s₁, hs₁⟩ := hburst
  have hacc := setBurst_accepted sock burst s
  rw [hs₁] at hacc
  obtain ⟨fragments, hfrag⟩ : ∃ fragments, ModbusFragmenter.fragment message fragSize =
      .ok fragments := by
    unfold ModbusFragmenter.fragment
    rw [if_neg (by omega)]
    split_ifs <;> exact ⟨_, rfl⟩
  obtain ⟨s₂, heach, hacc₂⟩ := sock.each_of_accepts h fragments s₁
  refine ⟨s₂, ?_, ?_⟩
  · simp [send, sendFragments, hs₁, hfrag, heach, Except.mapError]
  · rw [hacc₂, hacc, show fragments.flatten = message from
      ModbusFragmenter.assemble_fragment hfrag]

theorem send_whole {sock : SendSocket ε σ} (h : sock.AcceptsAll) {fragSize : ℤ}
    (hf : 0 ≤ fragSize) (message : Bytes) (s : σ) :
    ∃ s', send sock fragSize false message s = (.ok (), s') ∧
      sock.accepted s' = sock.accepted s ++ message :=
  send_accepted h hf (fun hburst => absurd hburst Bool.false_ne_true) message s

/-- What the socket does with the calls `send` makes: it refuses the option, raises at a
fragment, or accepts every fragment whole. A refused fragment size makes no write. -/
def TakesFragments (fragSize : ℤ) (burst : Bool) (message : Bytes) (s : σ) : Prop :=
  ∀ s₁ fragments, setBurst sock burst s = (.ok (), s₁) →
    ModbusFragmenter.fragment message fragSize = .ok fragments →
    sock.Raises fragments s₁ ∨ sock.Whole fragments s₁

/-- A call of `send` loses nothing, and raises only Modbus errors, exactly where the
socket raises at one of the fragments or accepts them all whole. -/
theorem send_lossless_iff (fragSize : ℤ) (burst : Bool) (message : Bytes) (s : σ) :
    ((∀ s', send sock fragSize burst message s = (.ok (), s') →
        sock.accepted s' = sock.accepted s ++ message) ∧
      ∀ e s', send sock fragSize burst message s = (.error e, s') → e.isModbusBase = true) ↔
    TakesFragments sock fragSize burst message s := by
  have hacc := setBurst_accepted sock burst s
  unfold TakesFragments
  rcases send_cases sock fragSize burst message s with ⟨e, s₁, hset, hsend⟩ |
    ⟨e, s₁, hset, hfrag, hsend⟩ | ⟨s₁, fragments, hset, hfrag, hw⟩
  · simp [hset, hsend, Exc.isModbusBase]
  · simp [hset, hfrag, hsend, Exc.isModbusBase]
  have hraise := sock.each_eq_error fragments s₁
  rcases hw with ⟨e, s₂, hw, hsend⟩ | ⟨s₂, hw, hsend⟩
  · have : sock.Raises fragments s₁ := hraise.mp ⟨e, by rw [hw]⟩
    simp [hset, hfrag, hsend, this, Exc.isModbusBase]
  · have : ¬ sock.Raises fragments s₁ := by simp [← hraise, hw]
    have hwhole := sock.each_delivers_iff hw
    have hmsg : fragments.flatten = message := ModbusFragmenter.assemble_fragment hfrag
    rw [hset] at hacc
    rw [hacc, hmsg] at hwhole
    simp [hset, hfrag, hsend, this, hwhole]

/-- A socket that takes one byte a write, and an option that cannot fail. -/
def oneByteSocket : SendSocket Empty Bytes where
  toSink := Sink.atMost Empty 0
  setNoDelay s := (.ok (), s)
  setNoDelay_accepted := rfl

/-- A short write of an unfragmented message returns normally and drops the rest of it. -/
theorem send_loses : send oneByteSocket 0 false [0, 1, 0, 0, 0, 2, 1, 7] [] = (.ok (), [0]) ∧
    ¬ ∀ s', send oneByteSocket 0 false [0, 1, 0, 0, 0, 2, 1, 7] [] = (.ok (), s') →
      s' = [] ++ [0, 1, 0, 0, 0, 2, 1, 7] := by
  refine ⟨rfl, fun h => ?_⟩
  have := h [0] rfl
  simp at this

end ModbusTcpStream

end Pyomb
