import Pyomb.Transport.RtuStream

/-! What one `receive` of the RTU stream does with a burst: bytes that a port hands over as
it likes and then silence. It returns the first frame the burst holds, whatever of the burst
had come when each byte ahead of it was judged; where the head states no size, the first the
longest frame's worth of the burst holds. And of a frame that comes alone it never asks for
a byte past the end. -/

namespace Pyomb

/-- A port that from here on raises nothing but its timeout, and that only once it has no
bytes left. -/
def Source.GoesQuiet {ε σ : Type} (port : Source (PortError ε) σ) (s : σ) : Prop :=
  ∀ t n e t', port.Reaches s t → port.read t n = (.error e, t') → e = .timeout ∧ port.unread t = []

theorem Source.GoesQuiet.read {ε σ : Type} {port : Source (PortError ε) σ} {s : σ}
    (hq : port.GoesQuiet s) (n : ℕ) : port.GoesQuiet (port.read s n).2 :=
  fun t m e t' hreach => hq t m e t' (hreach.head ⟨n, rfl⟩)

theorem Source.GoesQuiet.logged {ε σ : Type} {port : Source (PortError ε) σ} {s : σ}
    (hq : port.GoesQuiet s) (log : List Source.Asked) : port.logged.GoesQuiet (s, log) := by
  intro t n e t' hreach
  have hreach' : port.Reaches s t.1 := by
    induction hreach with
    | refl => exact .refl
    | tail _ hstep ih =>
      obtain ⟨m, rfl⟩ := hstep
      exact ih.tail ⟨m, rfl⟩
  exact fun h => hq t.1 n e _ hreach' (Prod.ext (Prod.mk.inj h).1 rfl)

theorem Source.goesQuiet_arriving {ε : Type} {as : List (Source.Arrival (PortError ε))}
    (h : Source.Arrival.RaisesWhere (fun _ => False) as) :
    (Source.arriving (PortError ε)).GoesQuiet as := by
  intro t n e t' hreach
  have ht : Source.Arrival.RaisesWhere (fun _ => False) t := by
    induction hreach with
    | refl => exact h
    | tail _ hstep ih =>
      obtain ⟨m, rfl⟩ := hstep
      exact ih.read m
  exact fun hr => (ht.raised hr).elim

/-- The least offset at which a packet is read. -/
def FirstFrame (side : RtuSide) (burst : Bytes) (i : ℕ) : Prop :=
  (∃ p, (readRtuFrame (burst.drop i) side).packet = some p) ∧
    ∀ j < i, (readRtuFrame (burst.drop j) side).packet = none

theorem readRtuFrame_packet_none {s : Bytes} {side : RtuSide} (h : s.length < minRtuFrame) :
    (readRtuFrame s side).packet = none := by
  rw [readRtuFrame, if_pos h]

theorem FirstFrame.zero {side : RtuSide} {burst : Bytes} {p : ModbusRtuPacket}
    (h : (readRtuFrame burst side).packet = some p) : FirstFrame side burst 0 :=
  ⟨⟨p, h⟩, fun _ hj => absurd hj (Nat.not_lt_zero _)⟩

/-- Where no packet is read at the offsets passed over, the first is in what is left. -/
theorem FirstFrame.of_drop {side : RtuSide} {burst : Bytes} {k i : ℕ}
    (hp : ∀ j < k, (readRtuFrame (burst.drop j) side).packet = none)
    (h : FirstFrame side (burst.drop k) i) : FirstFrame side burst (k + i) := by
  obtain ⟨⟨p, hpacket⟩, hleast⟩ := h
  rw [List.drop_drop] at hpacket
  refine ⟨⟨p, hpacket⟩, fun j hj => ?_⟩
  rcases Nat.lt_or_ge j k with hlt | hge
  · exact hp j hlt
  · obtain ⟨d, rfl⟩ := Nat.exists_eq_add_of_le hge
    have hnone := hleast d (Nat.add_lt_add_iff_left.mp hj)
    rwa [List.drop_drop] at hnone

theorem ModbusRtuPacket.deserialize_iff {s : Bytes} :
    (∃ p, ModbusRtuPacket.deserialize s = .ok p) ↔
      ∃ crc, validateCrc s (RtuAdu.packetName .packet) = .ok crc := by
  constructor
  · rintro ⟨p, hp⟩
    unfold ModbusRtuPacket.deserialize RtuAdu.deserialize at hp
    obtain ⟨crc, hcrc, -⟩ := bind_eq_ok.mp hp
    exact ⟨crc, hcrc⟩
  · rintro ⟨crc, hcrc⟩
    obtain ⟨hlen, rfl, htrailer⟩ := validateCrc_eq_ok.mp hcrc
    have hcat := payload_append_trailer s
    have hpay : 2 ≤ (payload s).length := by rw [payload, List.length_take]; omega
    obtain ⟨b, rest, hb⟩ := List.exists_cons_of_length_pos (Nat.lt_of_lt_of_le Nat.zero_lt_two hpay)
    rw [hb, List.length_cons] at hpay
    obtain ⟨q, hq⟩ := PduClass.deserialize_modbusPdu
      (List.length_pos_iff.mp (Nat.le_of_succ_le_succ hpay))
    rw [htrailer, hb] at hcat
    exact ⟨⟨b.toNat, q, _⟩, RtuAdu.deserialize_eq_ok.mpr ⟨b, rest, rfl, hq, rfl, hcat.symm⟩⟩

namespace ModbusRtuStream

variable {ε σ : Type}

/-! ### A line gone quiet -/

theorem scanHeld_some {s s' : ModbusRtuStream σ} {frame : Bytes}
    (h : scanHeld s = (some frame, s')) : ∃ i, FirstFrame s.side s.buffer i ∧
      frame = (s.buffer.drop i).take (readRtuFrame (s.buffer.drop i) s.side).length ∧
      s'.buffer = (s.buffer.drop i).drop (readRtuFrame (s.buffer.drop i) s.side).length ∧
      s'.resyncs = s.resyncs + i ∧ s'.port = s.port := by
  revert h
  fun_induction scanHeld s with
  | case1 s hle frame p hp =>
    intro h
    obtain ⟨hframe, rfl⟩ := Prod.mk.inj h
    exact ⟨0, .zero hp, (Option.some.inj hframe).symm, rfl, rfl, rfl⟩
  | case2 s hle frame hp ih =>
    intro h
    obtain ⟨i, hfirst, hframe, hbuf, hres, hport⟩ := ih h
    have hpass : ∀ j < 1, (readRtuFrame (s.buffer.drop j) s.side).packet = none := by
      intro j hj
      rw [Nat.lt_one_iff.mp hj]
      exact hp
    simp only [discard, List.drop_drop] at hframe hbuf hres
    refine ⟨1 + i, .of_drop hpass hfirst, hframe, ?_, ?_, hport⟩
    · rw [hbuf, List.drop_drop]
    · rw [hres, Nat.add_assoc]
  | case3 s hlt =>
    intro h
    cases h

theorem scanHeld_none {s s' : ModbusRtuStream σ} (h : scanHeld s = (none, s')) (i : ℕ) :
    (readRtuFrame (s.buffer.drop i) s.side).packet = none := by
  revert h
  fun_induction scanHeld s generalizing i with
  | case1 s hle frame p hp =>
    intro h
    cases h
  | case2 s hle frame hp ih =>
    intro h
    cases i with
    | zero => exact hp
    | succ i =>
      have hnone := ih i h
      simp only [discard, List.drop_drop, Nat.add_comm 1 i] at hnone
      exact hnone
  | case3 s hlt =>
    intro _
    apply readRtuFrame_packet_none
    rw [List.length_drop]
    omega

/-! ### A turn over a port that goes quiet -/

section Quiet

variable {port : Source (PortError ε) σ}

theorem read_quiet {s : ModbusRtuStream σ} (hq : port.GoesQuiet s.port) {size : ℕ}
    (hsize : 0 < size) : ∃ c s', read port size s = (.ok c, s') ∧ port.GoesQuiet s'.port ∧
      (c = [] → port.unread s.port = []) := by
  have hq' := hq.read size
  rcases hr : port.read s.port size with ⟨e | c, p⟩ <;> rw [hr] at hq'
  · obtain ⟨rfl, hnil⟩ := hq _ _ _ _ .refl hr
    exact ⟨[], { s with port := p }, by simp only [read, hr], hq', fun _ => hnil⟩
  · refine ⟨c, { s with port := p }, by simp only [read, hr], hq', ?_⟩
    rintro rfl
    exact port.read_nil hsize hr

theorem not_error_of_quiet {s s' : ModbusRtuStream σ} (hq : port.GoesQuiet s.port) {size : ℕ}
    (hsize : 0 < size) {e : Exc ε} : read port size s ≠ (.error e, s') := by
  obtain ⟨c, s₁, hr, -⟩ := read_quiet hq hsize
  rw [hr]
  intro h
  cases (Prod.mk.inj h).1

theorem quiet_of_read {s s' : ModbusRtuStream σ} (hq : port.GoesQuiet s.port) {size : ℕ}
    (hsize : 0 < size) {c : Bytes} (h : read port size s = (.ok c, s')) :
    port.GoesQuiet s'.port ∧ (c = [] → port.unread s.port = [] ∧ port.unread s'.port = []) := by
  obtain ⟨d, s₁, hr, hq', hnil⟩ := read_quiet hq hsize
  obtain ⟨hc, rfl⟩ := Prod.mk.inj (h.symm.trans hr)
  obtain rfl := Except.ok.inj hc
  refine ⟨hq', fun hempty => ⟨hnil hempty, ?_⟩⟩
  have hcat := (read_ok port h).2.1
  rw [hnil hempty, hempty, List.nil_append] at hcat
  exact hcat.symm

/-- A turn that waits reads, and gives the line up once the port has nothing left. -/
theorem turn_wait {s : ModbusRtuStream σ} (hq : port.GoesQuiet s.port)
    (h : (readRtuFrame s.buffer s.side).incomplete = true) :
    ∃ c s', read port (readRtuFrame s.buffer s.side).wanted s = (.ok c, s') ∧
      port.GoesQuiet s'.port ∧ ((c ≠ [] ∧ turn port s = .again (s'.extend c)) ∨
        (c = [] ∧ port.unread s.port = [] ∧ ∃ r s'', receiveAfterSilence s' = (r, s'') ∧
          turn port s = .done r s'')) := by
  obtain ⟨hp, hs, hwanted⟩ := readRtuFrame_incomplete h
  obtain ⟨c, s', hr, hq', hnil⟩ := read_quiet hq hwanted
  refine ⟨c, s', hr, hq', ?_⟩
  rcases turn_cases port s with ⟨p, hp', -⟩ | ⟨hs', -⟩ | ⟨-, hinc, -⟩ | ⟨-, -, r, s₁, hr', ht⟩
  · rw [hp] at hp'
    cases hp'
  · rw [hs] at hs'
    cases hs'
  · rw [h] at hinc
    cases hinc
  · obtain ⟨rfl, rfl⟩ := Prod.mk.inj (hr.symm.trans hr')
    rcases ht with ⟨e, he, -⟩ | ⟨hc, r', s'', hquiet, ht⟩ | ⟨d, hd, hc, ht⟩
    · cases he
    · obtain rfl := Except.ok.inj hc
      exact .inr ⟨rfl, hnil rfl, r', s'', hquiet, ht⟩
    · obtain rfl := Except.ok.inj hc
      exact .inl ⟨hd, ht⟩

/-! ### Reads are exact -/

/-- The reads asked for no byte beyond those that `past` bytes are still behind. -/
def Within (past : ℕ) (asked : List Source.Asked) : Prop :=
  ∀ a ∈ asked, a.size + past ≤ a.left

theorem Within.snoc {past : ℕ} {asked : List Source.Asked} (h : Within past asked)
    {a : Source.Asked} (ha : a.size + past ≤ a.left) : Within past (asked ++ [a]) := by
  intro b hb
  rcases List.mem_append.mp hb with hb | hb
  · exact h b hb
  · rw [List.mem_singleton.mp hb]
    exact ha

theorem read_logged {size : ℕ} {s s' : ModbusRtuStream (σ × List Source.Asked)}
    {r : Except (Exc ε) Bytes} (h : read port.logged size s = (r, s')) :
    s'.port.2 = s.port.2 ++ [⟨size, (port.unread s.port.1).length⟩] := by
  unfold read at h
  split at h <;> rename_i hr <;> obtain ⟨-, rfl⟩ := Prod.mk.inj h <;>
    exact congrArg Prod.snd (Prod.mk.inj hr).2.symm

/-- A start of a frame waits, for no more than the rest of it. -/
theorem wanted_of_start {side : RtuSide} {f held missing : Bytes} {p : ModbusRtuPacket}
    (hf : (readRtuFrame f side).packet = some p) (hl : (readRtuFrame f side).length = f.length)
    (hheld : f = held ++ missing) (hne : missing ≠ []) :
    (readRtuFrame held side).incomplete = true ∧
      (readRtuFrame held side).wanted ≤ missing.length := by
  have hpos := List.length_pos_iff.mpr hne
  have hfinal := (readRtuFrame_packet hf).1
  have hinc : (readRtuFrame held side).incomplete = true := by
    by_contra hinc
    have hverdict := readRtuFrame_append (Bool.eq_false_iff.mpr hinc) missing
    rw [← hheld] at hverdict
    rw [hverdict] at hf hl
    have hle := (readRtuFrame_packet hf).2.2.1
    rw [hl, hheld, List.length_append] at hle
    omega
  exact ⟨hinc, wanted_le hinc (hheld ▸ hfinal)⟩

/-- While a start of a frame is held, the rest of the frame is what is asked for. -/
theorem loop_exact {f rest : Bytes} {p : ModbusRtuPacket}
    {s : ModbusRtuStream (σ × List Source.Asked)} (hq : port.logged.GoesQuiet s.port)
    (hf : (readRtuFrame f s.side).packet = some p)
    (hl : (readRtuFrame f s.side).length = f.length) {missing : Bytes}
    (hheld : f = s.buffer ++ missing) (hport : port.unread s.port.1 = missing ++ rest)
    (hlog : Within rest.length s.port.2) :
    ∃ s', loop port.logged s = (.ok f, s') ∧ s'.buffer = [] ∧
      port.unread s'.port.1 = rest ∧ Within rest.length s'.port.2 := by
  induction hn : missing.length using Nat.strong_induction_on generalizing s missing with
  | _ n ih =>
    subst hn
    by_cases hne : missing = []
    · subst hne
      rw [List.append_nil] at hheld
      subst hheld
      have ht : turn port.logged s = .done (.ok s.buffer) (s.taken s.buffer.length) := by
        simp only [turn, hf, hl, List.take_length]
      exact ⟨_, loop_done _ ht, List.drop_length, hport, hlog⟩
    · obtain ⟨hinc, hwanted⟩ := wanted_of_start hf hl hheld hne
      obtain ⟨c, s₁, hr, hq₁, ⟨hc, ht⟩ | ⟨-, hnil, -⟩⟩ := turn_wait hq hinc
      · obtain ⟨hs₁, hcat, hle⟩ := read_ok _ hr
        have hbuf : s₁.buffer = s.buffer := by rw [hs₁]
        have hside : s₁.side = s.side := by rw [hs₁]
        have hlogged := read_logged hr
        change port.unread s.port.1 = c ++ port.unread s₁.port.1 at hcat
        obtain ⟨later, rfl⟩ : c <+: missing :=
          List.prefix_of_prefix_length_le ⟨_, hcat.symm⟩ ⟨_, hport.symm⟩ (hle.trans hwanted)
        have hcpos := List.length_pos_iff.mpr hc
        have hrest : port.unread s₁.port.1 = later ++ rest := by
          rw [hport, List.append_assoc, List.append_cancel_left_eq] at hcat
          exact hcat.symm
        have hheld' : f = (s₁.extend c).buffer ++ later := by
          change f = s₁.buffer ++ c ++ later
          rw [hbuf, List.append_assoc, hheld]
        have hlog' : Within rest.length s₁.port.2 := by
          rw [hlogged]
          refine hlog.snoc ?_
          change (readRtuFrame s.buffer s.side).wanted + rest.length ≤
            (port.unread s.port.1).length
          rw [hport, List.length_append]
          omega
        rw [loop_again _ ht]
        exact ih later.length (by rw [List.length_append]; omega) (s := s₁.extend c) hq₁
          (hside ▸ hf) (hside ▸ hl) hheld' hrest hlog' rfl
      · change port.unread s.port.1 = [] at hnil
        rw [hport] at hnil
        exact absurd (List.append_eq_nil_iff.mp hnil).1 hne

/-- Reads are exact: a frame that stands at the head of the port is returned with as many
bytes taken as it has, and no read asks for more than what is missing of it. -/
theorem receive_exact {side : RtuSide} {f rest : Bytes} {p : ModbusRtuPacket}
    (hf : (readRtuFrame f side).packet = some p) (hl : (readRtuFrame f side).length = f.length)
    {s : ModbusRtuStream σ} (hs : s.side = side) (hb : s.buffer = [])
    (hq : port.GoesQuiet s.port) (hport : port.unread s.port = f ++ rest) :
    ∃ s', receive port.logged ⟨(s.port, []), s.side, s.buffer, s.resyncs, s.noise⟩ = (.ok f, s') ∧
      s'.buffer = [] ∧ port.unread s'.port.1 = rest ∧
      ∀ a ∈ s'.port.2, a.size + rest.length ≤ a.left := by
  subst hs
  have hheld : f = s.buffer ++ f := by rw [hb, List.nil_append]
  exact loop_exact (s := ⟨(s.port, []), s.side, s.buffer, s.resyncs, 0⟩) (hq.logged []) hf hl
    hheld hport fun a ha => absurd ha List.not_mem_nil

/-- A poll of the exception status that comes in three reads, with a byte behind it. -/
theorem receive_exact_poll : ∃ s', receive (Source.arriving (PortError Empty)).logged
    ⟨([.segment [7], .segment [7, 0x42], .segment [0x42, 1]], []), .request, [], 0, 0⟩ =
      (.ok [7, 7, 0x42, 0x42], s') ∧
    s'.buffer = [] ∧ (Source.arriving (PortError Empty)).unread s'.port.1 = [1] ∧
    ∀ a ∈ s'.port.2, a.size + 1 ≤ a.left := by
  have hq : (Source.arriving (PortError Empty)).GoesQuiet
      [.segment [7], .segment [7, 0x42], .segment [0x42, 1]] := Source.goesQuiet_arriving trivial
  have hf : (readRtuFrame [7, 7, 0x42, 0x42] .request).packet =
      some ⟨7, .modbusPdu 7 [], 0x4242⟩ := by decide +kernel
  have hl : (readRtuFrame [7, 7, 0x42, 0x42] .request).length = 4 := by decide +kernel
  exact receive_exact hf hl (s := ⟨_, .request, [], 0, 0⟩) rfl rfl hq rfl

/-! ### A burst -/

/-- What hands over the first frame of `window`, at whose start nothing had been discarded,
and leaves what is behind it held or still to come; where there is none, nothing is held. -/
def HandsOver (port : Source (PortError ε) σ) (side : RtuSide) (window rest : Bytes)
    (out : Except (Exc ε) Bytes × ModbusRtuStream σ) : Prop :=
  (∃ i, FirstFrame side window i ∧
    out.1 = .ok ((window.drop i).take (readRtuFrame (window.drop i) side).length) ∧
    out.2.resyncs = i ∧
    out.2.buffer ++ port.unread out.2.port =
      (window.drop i).drop (readRtuFrame (window.drop i) side).length ++ rest) ∨
  ((∀ i, (readRtuFrame (window.drop i) side).packet = none) ∧ (∃ e, out.1 = .error (.packet e)) ∧
    out.2.buffer = [])

/-- A scan of what is held, where what was discarded before held no packet. -/
theorem receiveAfterSilence_handsOver {s : ModbusRtuStream σ} {window : Bytes}
    (hb : s.buffer = window.drop s.resyncs) (hne : s.buffer ≠ [])
    (hpass : ∀ j < s.resyncs, (readRtuFrame (window.drop j) s.side).packet = none) :
    HandsOver port s.side window (port.unread s.port) (receiveAfterSilence s) := by
  unfold receiveAfterSilence
  rw [if_neg hne]
  rcases hscan : scanHeld s with ⟨_ | frame, s'⟩ <;> dsimp only
  · refine .inr ⟨fun i => ?_, ⟨_, rfl⟩, rfl⟩
    rcases Nat.lt_or_ge i s.resyncs with hlt | hge
    · exact hpass i hlt
    · obtain ⟨d, rfl⟩ := Nat.exists_eq_add_of_le hge
      have hnone := scanHeld_none hscan d
      rwa [hb, List.drop_drop] at hnone
  · obtain ⟨i, hfirst, hframe, hbuf, hres, hport⟩ := scanHeld_some hscan
    rw [hb] at hfirst
    simp only [hb, List.drop_drop] at hframe hbuf
    refine .inl ⟨s.resyncs + i, .of_drop hpass hfirst, congrArg Except.ok hframe, hres, ?_⟩
    rw [hbuf, hport, List.drop_drop, Nat.add_assoc]

theorem turn_packet {s : ModbusRtuStream σ} {p : ModbusRtuPacket}
    (h : (readRtuFrame s.buffer s.side).packet = some p) : turn port s =
      .done (.ok (s.buffer.take (readRtuFrame s.buffer s.side).length))
        (s.taken (readRtuFrame s.buffer s.side).length) := by
  simp only [turn, h]

theorem turn_reject {s : ModbusRtuStream σ} (hp : (readRtuFrame s.buffer s.side).packet = none)
    (hinc : (readRtuFrame s.buffer s.side).incomplete = false) (hs : ¬ s.Unsizable) :
    turn port s = .again s.discard := by
  have hsil : ¬ ((readRtuFrame s.buffer s.side).sizable = false ∧ s.noise = 0) := hs
  simp only [turn, hp, if_neg hsil, hinc, if_true]

theorem turn_silence {s : ModbusRtuStream σ} (h : s.Unsizable) :
    turn port s = .done (receiveBySilence port s).1 (receiveBySilence port s).2 := by
  obtain ⟨hmin, e, he⟩ := readRtuFrame_unsizable.mp h.1
  have hp : (readRtuFrame s.buffer s.side).packet = none := by rw [readRtuFrame_eq hmin, he]
  have hsil : (readRtuFrame s.buffer s.side).sizable = false ∧ s.noise = 0 := h
  simp only [turn, hp, if_pos hsil]

/-- The loop on its way through a burst whose head is sized: what is held and what is still
to come are the burst behind the bytes discarded, and no packet was read at those. -/
structure Searching (port : Source (PortError ε) σ) (burst : Bytes) (s : ModbusRtuStream σ) :
    Prop where
  quiet : port.GoesQuiet s.port
  left : s.buffer ++ port.unread s.port = burst.drop s.resyncs
  sized : (readRtuFrame burst s.side).sizable = true
  noise : s.noise = s.resyncs
  held : s.resyncs = 0 ∨ s.buffer ≠ []
  pass : ∀ j < s.resyncs, (readRtuFrame (burst.drop j) s.side).packet = none

namespace Searching

variable {burst : Bytes} {s : ModbusRtuStream σ} (h : Searching port burst s)
include h

theorem verdict (hinc : (readRtuFrame s.buffer s.side).incomplete = false) :
    readRtuFrame (burst.drop s.resyncs) s.side = readRtuFrame s.buffer s.side := by
  rw [← h.left, readRtuFrame_append hinc]

theorem not_unsizable (hinc : (readRtuFrame s.buffer s.side).incomplete = false) :
    ¬ s.Unsizable := by
  rintro ⟨hs, h0⟩
  have hnoise := h.noise
  rw [h0] at hnoise
  rw [← h.verdict hinc, ← hnoise, List.drop_zero, h.sized] at hs
  cases hs

theorem handsOver_packet {p : ModbusRtuPacket}
    (hp : (readRtuFrame s.buffer s.side).packet = some p) :
    HandsOver port s.side burst [] (loop port s) := by
  obtain ⟨hinc, -, hle, -⟩ := readRtuFrame_packet hp
  rw [loop_done port (turn_packet hp)]
  refine .inl ⟨s.resyncs, ⟨⟨p, by rw [h.verdict hinc, hp]⟩, h.pass⟩, ?_, rfl, ?_⟩
  · rw [h.verdict hinc, ← h.left, List.take_append_of_le_length hle]
  · rw [h.verdict hinc, ← h.left, List.drop_append_of_le_length hle, List.append_nil]
    rfl

theorem discard (hp : (readRtuFrame s.buffer s.side).packet = none)
    (hinc : (readRtuFrame s.buffer s.side).incomplete = false) :
    Searching port burst s.discard := by
  have hmin := minRtuFrame_le hinc
  have hmin4 : minRtuFrame = 4 := rfl
  refine ⟨h.quiet, ?_, h.sized, congrArg (· + 1) h.noise, ?_, ?_⟩
  · change s.buffer.drop 1 ++ port.unread s.port = burst.drop (s.resyncs + 1)
    rw [← List.drop_drop, ← h.left, List.drop_append_of_le_length (by omega)]
  · refine .inr (List.length_pos_iff.mp ?_)
    simp only [ModbusRtuStream.discard, List.length_drop]
    omega
  · intro j hj
    rcases Nat.lt_succ_iff_lt_or_eq.mp hj with hlt | rfl
    · exact h.pass j hlt
    · change (readRtuFrame (burst.drop s.resyncs) s.side).packet = none
      rw [h.verdict hinc, hp]

theorem extend {p : σ} {c : Bytes} (hq : port.GoesQuiet p)
    (hcat : port.unread s.port = c ++ port.unread p) (hc : c ≠ []) :
    Searching port burst (ModbusRtuStream.extend { s with port := p } c) := by
  refine ⟨hq, ?_, h.sized, h.noise, .inr (List.append_ne_nil_of_right_ne_nil _ hc), h.pass⟩
  change s.buffer ++ c ++ port.unread p = burst.drop s.resyncs
  rw [List.append_assoc, ← hcat, h.left]

/-- Once nothing is to come, the scan of what is held settles it. -/
theorem handsOver_silence (hne : burst ≠ []) {p : σ} (hnil : port.unread s.port = [])
    (hlast : port.unread p = []) :
    HandsOver port s.side burst [] (receiveAfterSilence { s with port := p }) := by
  have hleft := h.left
  rw [hnil, List.append_nil] at hleft
  have hbuf : s.buffer ≠ [] := by
    rcases h.held with h0 | hbuf
    · rw [hleft, h0, List.drop_zero]
      exact hne
    · exact hbuf
  have hscan : HandsOver port s.side burst (port.unread p)
      (receiveAfterSilence { s with port := p }) :=
    receiveAfterSilence_handsOver
      (show ({ s with port := p } : ModbusRtuStream σ).buffer = _ from hleft) hbuf h.pass
  rwa [hlast] at hscan

end Searching

/-- The loop finds the first frame of a burst whose head is sized, though each byte it
discards is judged before all that follows has come. -/
theorem loop_handsOver {s : ModbusRtuStream σ} {burst : Bytes} (h : Searching port burst s)
    (hne : burst ≠ []) : HandsOver port s.side burst [] (loop port s) := by
  induction hn : 2 * (port.unread s.port).length + s.buffer.length using Nat.strong_induction_on
    generalizing s with
  | _ n ih =>
    subst hn
    cases hp : (readRtuFrame s.buffer s.side).packet with
    | some p => exact h.handsOver_packet hp
    | none =>
      cases hinc : (readRtuFrame s.buffer s.side).incomplete with
      | false =>
        have ht : turn port s = .again s.discard := turn_reject hp hinc (h.not_unsizable hinc)
        rw [loop_again port ht]
        exact ih _ (turn_again port ht) (s := s.discard) (h.discard hp hinc) rfl
      | true =>
        obtain ⟨c, s₁, hr, hq₁, hnext⟩ := turn_wait h.quiet hinc
        obtain ⟨hs₁, hcat, -⟩ := read_ok _ hr
        obtain ⟨p, rfl⟩ : ∃ p, s₁ = { s with port := p } := ⟨_, hs₁⟩
        rcases hnext with ⟨hc, ht⟩ | ⟨rfl, hnil, r, s₂, hquiet, ht⟩
        · rw [loop_again port ht]
          exact ih _ (turn_again port ht) (s := ModbusRtuStream.extend { s with port := p } c)
            (h.extend hq₁ hcat hc) rfl
        · have hlast : port.unread p = [] := by rw [← hnil, hcat, List.nil_append]
          rw [loop_done port ht, ← hquiet]
          exact h.handsOver_silence hne hnil hlast

/-- Reading to silence fills the buffer up to the longest frame's worth of the burst. -/
theorem readToSilence_quiet {s : ModbusRtuStream σ} (hq : port.GoesQuiet s.port)
    (hle : s.buffer.length ≤ maxRtuFrame) :
    ∃ s', readToSilence port s = (.ok (), s') ∧ s'.side = s.side ∧ s'.resyncs = s.resyncs ∧
      s'.buffer = (s.buffer ++ port.unread s.port).take maxRtuFrame ∧
      port.unread s'.port = (s.buffer ++ port.unread s.port).drop maxRtuFrame := by
  fun_induction readToSilence port s with
  | case1 s hlt e s' hr => exact absurd hr (not_error_of_quiet hq (Nat.sub_pos_of_lt hlt))
  | case2 s hlt s' hr =>
    obtain ⟨hunread, hlast⟩ := (quiet_of_read hq (Nat.sub_pos_of_lt hlt) hr).2 rfl
    obtain ⟨hs', -, -⟩ := read_ok port hr
    rw [hunread, List.append_nil, List.take_of_length_le hle, List.drop_of_length_le hle]
    exact ⟨s', rfl, by rw [hs'], by rw [hs'], by rw [hs'], hlast⟩
  | case3 s hlt b c s' hr hbuf ih =>
    have hq' := (quiet_of_read hq (Nat.sub_pos_of_lt hlt) hr).1
    obtain ⟨hs', hcat, hlen⟩ := read_ok port hr
    have hheld : (s'.extend (b :: c)).buffer = s.buffer ++ b :: c := congrArg (· ++ b :: c) hbuf
    have htotal : (s'.extend (b :: c)).buffer ++ port.unread s'.port =
        s.buffer ++ port.unread s.port := by
      rw [hheld, hcat, List.append_assoc]
    obtain ⟨t, ht, hside, hres, htake, hdrop⟩ := ih hq' (by
      rw [hheld, List.length_append]
      omega)
    refine ⟨t, ht, hside.trans (by rw [hs']; rfl), hres.trans (by rw [hs']; rfl), ?_, ?_⟩
    · rw [← htotal]
      exact htake
    · rw [← htotal]
      exact hdrop
  | case4 s hge =>
    have hlen : s.buffer.length = maxRtuFrame := by omega
    exact ⟨s, rfl, rfl, rfl, (List.take_left' hlen).symm, (List.drop_left' hlen).symm⟩

/-- What a burst read by silence comes to: its window if the checksum accepts the whole of
it, and otherwise the first frame in the window. -/
def Adjudicated (port : Source (PortError ε) σ) (side : RtuSide) (window rest : Bytes)
    (out : Except (Exc ε) Bytes × ModbusRtuStream σ) : Prop :=
  match validateCrc window (RtuAdu.packetName .packet) with
  | .ok _ => out.1 = .ok window ∧ out.2.buffer ++ port.unread out.2.port = rest
  | .error _ => HandsOver port side window rest out

theorem receiveBySilence_adjudicated {s : ModbusRtuStream σ} (hq : port.GoesQuiet s.port)
    (hle : s.buffer.length ≤ maxRtuFrame) (hne : s.buffer ≠ []) (hres : s.resyncs = 0) :
    Adjudicated port s.side ((s.buffer ++ port.unread s.port).take maxRtuFrame)
      ((s.buffer ++ port.unread s.port).drop maxRtuFrame) (receiveBySilence port s) := by
  obtain ⟨s', hread, hside, hres', htake, hdrop⟩ := readToSilence_quiet hq hle
  rw [← htake, ← hdrop, receiveBySilence, hread]
  dsimp only
  rw [hres] at hres'
  have hne' : s'.buffer ≠ [] := by
    rw [htake, ne_eq, List.take_eq_nil_iff, List.append_eq_nil_iff]
    exact fun h => h.elim (by decide) fun h => hne h.1
  have hiff := ModbusRtuPacket.deserialize_iff (s := s'.buffer)
  unfold Adjudicated
  cases hd : ModbusRtuPacket.deserialize s'.buffer with
  | ok p =>
    obtain ⟨crc, hcrc⟩ := hiff.mp ⟨p, hd⟩
    rw [hcrc]
    refine ⟨congrArg Except.ok List.take_length, ?_⟩
    simp only [taken, List.drop_length, List.nil_append]
  | error e =>
    cases hcrc : validateCrc s'.buffer (RtuAdu.packetName .packet) with
    | ok crc =>
      obtain ⟨p, hp⟩ := hiff.mpr ⟨crc, hcrc⟩
      rw [hd] at hp
      cases hp
    | error e' =>
      rw [← hside]
      exact receiveAfterSilence_handsOver (by rw [hres', List.drop_zero]) hne' (by
        rw [hres']
        exact fun j hj => absurd hj (Nat.not_lt_zero j))

/-- A head that states no size is known as one from its first four bytes, and no more are
held when the burst is read by silence. -/
theorem loop_adjudicated {s : ModbusRtuStream σ} (hq : port.GoesQuiet s.port)
    (hsil : (readRtuFrame (s.buffer ++ port.unread s.port) s.side).sizable = false)
    (hle : s.buffer.length ≤ minRtuFrame) (hnoise : s.noise = 0) (hres : s.resyncs = 0) :
    Adjudicated port s.side ((s.buffer ++ port.unread s.port).take maxRtuFrame)
      ((s.buffer ++ port.unread s.port).drop maxRtuFrame) (loop port s) := by
  induction hn : 2 * (port.unread s.port).length + s.buffer.length using Nat.strong_induction_on
    generalizing s with
  | _ n ih =>
    subst hn
    have hmax : minRtuFrame ≤ maxRtuFrame := by decide
    rcases Nat.lt_or_ge s.buffer.length minRtuFrame with hlt | hge
    · have hread : readRtuFrame s.buffer s.side =
          ⟨none, 0, true, minRtuFrame - s.buffer.length, true⟩ := by rw [readRtuFrame, if_pos hlt]
      obtain ⟨c, s₁, hr, hq₁, hnext⟩ := turn_wait hq (by rw [hread])
      obtain ⟨hs₁, hcat, hlen⟩ := read_ok _ hr
      obtain ⟨p, rfl⟩ : ∃ p, s₁ = { s with port := p } := ⟨_, hs₁⟩
      dsimp only at hcat hq₁
      rw [hread] at hlen
      have hshort : c.length ≤ minRtuFrame - s.buffer.length := hlen
      rcases hnext with ⟨hc, ht⟩ | ⟨-, hnil, -⟩
      · have htotal : s.buffer ++ port.unread s.port = s.buffer ++ c ++ port.unread p := by
          rw [hcat, List.append_assoc]
        rw [htotal] at hsil ⊢
        rw [loop_again port ht]
        refine ih _ (turn_again port ht) (s := extend { s with port := p } c) hq₁ hsil ?_ hnoise
          hres rfl
        change (s.buffer ++ c).length ≤ minRtuFrame
        rw [List.length_append]
        omega
      · rw [hnil, List.append_nil] at hsil
        exact absurd (readRtuFrame_unsizable.mp hsil).1 (Nat.not_le.mpr hlt)
    · have hs : s.Unsizable := ⟨readRtuFrame_unsizable_of_append hge hsil, hnoise⟩
      have hne : s.buffer ≠ [] := List.length_pos_iff.mp (Nat.lt_of_lt_of_le (by decide) hge)
      rw [loop_done port (turn_silence hs)]
      exact receiveBySilence_adjudicated hq (hle.trans hmax) hne hres

/-- What one `receive` of a fresh stream does with all that its port hands over before it
goes quiet. -/
theorem receive_burst (side : RtuSide) {s : σ} (hq : port.GoesQuiet s) :
    let burst := port.unread s
    let out := receive port { port := s, side }
    (burst = [] → ∃ text, out.1 = .error (.timeout text)) ∧
    (minRtuFrame ≤ burst.length → (readRtuFrame burst side).sizable = false →
      Adjudicated port side (burst.take maxRtuFrame) (burst.drop maxRtuFrame) out) ∧
    (burst ≠ [] → ¬ (minRtuFrame ≤ burst.length ∧ (readRtuFrame burst side).sizable = false) →
      HandsOver port side burst [] out) := by
  intro burst out
  refine ⟨fun hnil => ?_, fun _ hsil => ?_, fun hne hsized => ?_⟩
  · have hread : readRtuFrame [] side = ⟨none, 0, true, minRtuFrame, true⟩ := by
      simp [readRtuFrame, minRtuFrame]
    obtain ⟨c, s₁, hr, -, hnext⟩ := turn_wait (s := { port := s, side }) hq (by rw [hread])
    obtain ⟨hs₁, hcat, -⟩ := read_ok _ hr
    rcases hnext with ⟨hc, -⟩ | ⟨rfl, -, r, s₂, hquiet, ht⟩
    · have hempty : c = [] := (List.append_eq_nil_iff.mp (hcat.symm.trans hnil)).1
      exact absurd hempty hc
    · have hout : out = (r, s₂) := loop_done port ht
      rw [receiveAfterSilence, hs₁, if_pos rfl] at hquiet
      rw [hout, ← hquiet]
      exact ⟨_, rfl⟩
  · exact loop_adjudicated (s := { port := s, side }) hq hsil (Nat.zero_le _) rfl rfl
  · have hsz : (readRtuFrame burst side).sizable = true := by
      by_contra h
      have h' := Bool.eq_false_iff.mpr h
      exact hsized ⟨(readRtuFrame_unsizable.mp h').1, h'⟩
    exact loop_handsOver (s := { port := s, side })
      ⟨hq, rfl, hsz, rfl, .inl rfl, fun j hj => absurd hj (Nat.not_lt_zero j)⟩ hne

/-- A byte of noise ahead of a poll, which comes in two reads. -/
theorem receive_burst_noise : HandsOver (Source.arriving (PortError Empty)) .request
    [1, 7, 7, 0x42, 0x42] [] (receive (Source.arriving (PortError Empty))
      { port := [.segment [1, 7], .segment [7, 0x42, 0x42]], side := .request }) := by
  have hq : (Source.arriving (PortError Empty)).GoesQuiet
      [.segment [1, 7], .segment [7, 0x42, 0x42]] := Source.goesQuiet_arriving trivial
  exact (receive_burst .request hq).2.2 (List.cons_ne_nil _ _) (by decide +kernel)

end Quiet

end ModbusRtuStream

end Pyomb
