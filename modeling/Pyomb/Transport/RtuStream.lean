import Mathlib.Logic.Relation
import Pyomb.Bytes.Source
import Pyomb.Transport.Exceptions
import Pyomb.Transport.RtuWire
import Pyomb.Transport.Verdicts

/-! The RTU stream, which pulls from a port what the splitter is pushed. A turn of
`receive` judges what is held and then hands over a frame, discards a byte, reads no more
than the verdict asks for, or gives the line up for quiet. The splitter has the whole
stream in its buffer where the stream has a start of it, and since a verdict that does not
wait is stable, the two take the same turns until the port has nothing left. -/

namespace Pyomb

/-- `MAX_RTU_FRAME`. -/
def maxRtuFrame : ℕ := 256

/-- What a port's `read` raises: `TimeoutError`, or another `OSError`. -/
inductive PortError (ε : Type) where
  | timeout
  | os (e : ε)
  deriving DecidableEq, Repr

structure ModbusRtuStream (σ : Type) where
  port : σ
  side : RtuSide
  buffer : Bytes := []
  resyncs : ℕ := 0
  noise : ℕ := 0
  deriving DecidableEq, Repr

namespace ModbusRtuStream

variable {ε σ : Type}

/-- `_discard`. -/
def discard (s : ModbusRtuStream σ) : ModbusRtuStream σ :=
  { s with buffer := s.buffer.drop 1, resyncs := s.resyncs + 1, noise := s.noise + 1 }

/-- `_take`, what is left of the stream. -/
def taken (s : ModbusRtuStream σ) (length : ℕ) : ModbusRtuStream σ :=
  { s with buffer := s.buffer.drop length }

def extend (s : ModbusRtuStream σ) (chunk : Bytes) : ModbusRtuStream σ :=
  { s with buffer := s.buffer ++ chunk }

section Receive

variable (port : Source (PortError ε) σ)

/-- `_read`. -/
def read (size : ℕ) (s : ModbusRtuStream σ) : Except (Exc ε) Bytes × ModbusRtuStream σ :=
  match port.read s.port size with
  | (.ok chunk, p) => (.ok chunk, { s with port := p })
  | (.error .timeout, p) => (.ok [], { s with port := p })
  | (.error (.os e), p) =>
    (.error (.network "Error reading from the port: " (some e)), { s with port := p })

def total (s : ModbusRtuStream σ) : ℕ := s.buffer.length + (port.unread s.port).length

/-- A read moves the port alone, and what it returns has left the port. -/
theorem read_ok {size : ℕ} {s s' : ModbusRtuStream σ} {chunk : Bytes}
    (h : read port size s = (.ok chunk, s')) :
    s' = { s with port := s'.port } ∧ port.unread s.port = chunk ++ port.unread s'.port ∧
      chunk.length ≤ size := by
  unfold read at h
  rcases hr : port.read s.port size with ⟨_ | _, p⟩
  · rename_i e
    cases e with
    | timeout =>
      rw [hr] at h
      obtain ⟨hc, rfl⟩ := Prod.mk.inj h
      obtain rfl := Except.ok.inj hc
      exact ⟨rfl, (port.read_error hr).symm, Nat.zero_le _⟩
    | os e => simp [hr] at h
  · rw [hr] at h
    obtain ⟨hc, rfl⟩ := Prod.mk.inj h
    obtain rfl := Except.ok.inj hc
    exact ⟨rfl, port.read_ok hr⟩

theorem total_extend {size : ℕ} {s s' : ModbusRtuStream σ} {chunk : Bytes}
    (h : read port size s = (.ok chunk, s')) : total port (s'.extend chunk) = total port s := by
  obtain ⟨hs, hcat, -⟩ := read_ok port h
  have hbuf : s'.buffer = s.buffer := by rw [hs]
  simp only [total, extend, hbuf, hcat, List.length_append]
  omega

/-- The loop of `_receive_by_silence`. -/
def readToSilence (s : ModbusRtuStream σ) : Except (Exc ε) Unit × ModbusRtuStream σ :=
  if s.buffer.length < maxRtuFrame then
    match h : read port (maxRtuFrame - s.buffer.length) s with
    | (.error e, s') => (.error e, s')
    | (.ok [], s') => (.ok (), s')
    | (.ok (b :: c), s') =>
      have hbuf : s'.buffer = s.buffer := by rw [(read_ok port h).1]
      readToSilence (s'.extend (b :: c))
  else (.ok (), s)
termination_by maxRtuFrame - s.buffer.length
decreasing_by
  simp only [extend, hbuf, List.length_append, List.length_cons]
  omega

/-- The loop of `_receive_after_silence`. -/
def scanHeld (s : ModbusRtuStream σ) : Option Bytes × ModbusRtuStream σ :=
  if minRtuFrame ≤ s.buffer.length then
    let read := readRtuFrame s.buffer s.side
    match read.packet with
    | some _ => (some (s.buffer.take read.length), s.taken read.length)
    | none => scanHeld s.discard
  else (none, s)
termination_by s.buffer.length
decreasing_by
  have : minRtuFrame = 4 := rfl
  simp only [discard, List.length_drop]
  omega

/-- `_receive_after_silence`. -/
def receiveAfterSilence (s : ModbusRtuStream σ) : Except (Exc ε) Bytes × ModbusRtuStream σ :=
  if s.buffer = [] then
    (.error (.timeout "Nothing arrived before the port's timeout elapsed"), s)
  else
    match scanHeld s with
    | (some frame, s') => (.ok frame, s')
    | (none, s') =>
      (.error (.packet (.say ("The line went quiet with " ++ toString s.buffer.length ++
        " byte(s) that framed to nothing, " ++ toString (s.buffer.length - s'.buffer.length) ++
        " discarded"))), { s' with buffer := [] })

/-- `_receive_by_silence`. -/
def receiveBySilence (s : ModbusRtuStream σ) : Except (Exc ε) Bytes × ModbusRtuStream σ :=
  match readToSilence port s with
  | (.error e, s') => (.error e, s')
  | (.ok (), s') =>
    match ModbusRtuPacket.deserialize s'.buffer with
    | .error _ => receiveAfterSilence s'
    | .ok _ => (.ok (s'.buffer.take s'.buffer.length), s'.taken s'.buffer.length)

inductive Turn (ε σ : Type) where
  | done (r : Except (Exc ε) Bytes) (s : ModbusRtuStream σ)
  | again (s : ModbusRtuStream σ)
  deriving DecidableEq

def turn (s : ModbusRtuStream σ) : Turn ε σ :=
  let frame := readRtuFrame s.buffer s.side
  match frame.packet with
  | some _ => .done (.ok (s.buffer.take frame.length)) (s.taken frame.length)
  | none =>
    if frame.sizable = false ∧ s.noise = 0 then
      let (r, s') := receiveBySilence port s
      .done r s'
    else if frame.incomplete = false then .again s.discard
    else
      match read port frame.wanted s with
      | (.error e, s') => .done (.error e) s'
      | (.ok [], s') =>
        let (r, s'') := receiveAfterSilence s'
        .done r s''
      | (.ok (b :: c), s') => .again (s'.extend (b :: c))

/-- What a turn can do: hand over a frame, give the line up for quiet before anything was
discarded, discard a byte, or read and go by what came. -/
theorem turn_cases (s : ModbusRtuStream σ) :
    (∃ p, (readRtuFrame s.buffer s.side).packet = some p ∧ turn port s =
      .done (.ok (s.buffer.take (readRtuFrame s.buffer s.side).length))
        (s.taken (readRtuFrame s.buffer s.side).length)) ∨
    ((readRtuFrame s.buffer s.side).sizable = false ∧ s.noise = 0 ∧
      ∃ r s', receiveBySilence port s = (r, s') ∧ turn port s = .done r s') ∨
    ((readRtuFrame s.buffer s.side).packet = none ∧
      (readRtuFrame s.buffer s.side).incomplete = false ∧ turn port s = .again s.discard) ∨
    (readRtuFrame s.buffer s.side).packet = none ∧
      (readRtuFrame s.buffer s.side).incomplete = true ∧
      ∃ r s', read port (readRtuFrame s.buffer s.side).wanted s = (r, s') ∧
        ((∃ e, r = .error e ∧ turn port s = .done (.error e) s') ∨
          (r = .ok [] ∧
            ∃ r' s'', receiveAfterSilence s' = (r', s'') ∧ turn port s = .done r' s'') ∨
          ∃ c, c ≠ [] ∧ r = .ok c ∧ turn port s = .again (s'.extend c)) := by
  cases hp : (readRtuFrame s.buffer s.side).packet with
  | some p => exact .inl ⟨p, rfl, by simp only [turn, hp]⟩
  | none =>
    by_cases hsil : (readRtuFrame s.buffer s.side).sizable = false ∧ s.noise = 0
    · rcases hquiet : receiveBySilence port s with ⟨r, s'⟩
      exact .inr (.inl ⟨hsil.1, hsil.2, r, s', rfl, by simp only [turn, hp, if_pos hsil, hquiet]⟩)
    cases hinc : (readRtuFrame s.buffer s.side).incomplete with
    | false => exact .inr (.inr (.inl ⟨rfl, rfl, by simp only [turn, hp, if_neg hsil, hinc, if_true]⟩))
    | true =>
      refine .inr (.inr (.inr ⟨rfl, rfl, ?_⟩))
      rcases hr : read port (readRtuFrame s.buffer s.side).wanted s with ⟨e | _ | ⟨b, c⟩, s'⟩
      · exact ⟨_, _, rfl, .inl ⟨e, rfl, by simp [turn, hp, if_neg hsil, hinc, hr]⟩⟩
      · rcases hquiet : (receiveAfterSilence s' : Except (Exc ε) Bytes × _) with ⟨r', s''⟩
        exact ⟨_, _, rfl, .inr (.inl ⟨rfl, r', s'', hquiet,
          by simp [turn, hp, if_neg hsil, hinc, hr, hquiet]⟩)⟩
      · exact ⟨_, _, rfl, .inr (.inr ⟨b :: c, List.cons_ne_nil b c, rfl,
          by simp [turn, hp, if_neg hsil, hinc, hr]⟩)⟩

theorem turn_again {s s' : ModbusRtuStream σ} (h : turn port s = .again s') :
    2 * (port.unread s'.port).length + s'.buffer.length <
      2 * (port.unread s.port).length + s.buffer.length := by
  rcases turn_cases port s with ⟨p, -, ht⟩ | ⟨-, -, _, _, -, ht⟩ | ⟨-, hinc, ht⟩ |
    ⟨-, -, r, s₁, hr, ⟨e, -, ht⟩ | ⟨-, _, _, -, ht⟩ | ⟨c, hc, rfl, ht⟩⟩ <;> rw [ht] at h
  · cases h
  · cases h
  · obtain rfl := Turn.again.inj h
    have hmin := minRtuFrame_le hinc
    have : minRtuFrame = 4 := rfl
    simp only [discard, List.length_drop]
    omega
  · cases h
  · cases h
  · obtain rfl := Turn.again.inj h
    obtain ⟨hs, hcat, -⟩ := read_ok port hr
    have hbuf : s₁.buffer = s.buffer := by rw [hs]
    have hport : (s₁.extend c).port = s₁.port := rfl
    have hpos := List.length_pos_iff.mpr hc
    rw [hport, hcat]
    simp only [extend, hbuf, List.length_append]
    omega

/-- The loop of `receive`. -/
def loop (s : ModbusRtuStream σ) : Except (Exc ε) Bytes × ModbusRtuStream σ :=
  match h : turn port s with
  | .done r s' => (r, s')
  | .again s' =>
    have := turn_again port h
    loop s'
termination_by 2 * (port.unread s.port).length + s.buffer.length

/-- `receive`. -/
def receive (s : ModbusRtuStream σ) : Except (Exc ε) Bytes × ModbusRtuStream σ :=
  loop port { s with noise := 0 }

theorem loop_done {s s' : ModbusRtuStream σ} {r : Except (Exc ε) Bytes}
    (h : turn port s = .done r s') : loop port s = (r, s') := by
  rw [loop]
  split <;> simp_all

theorem loop_again {s s' : ModbusRtuStream σ} (h : turn port s = .again s') :
    loop port s = loop port s' := by
  rw [loop]
  split <;> simp_all

/-! ### A frame received is bytes gone -/

theorem total_taken {s : ModbusRtuStream σ} {n : ℕ} (hn : 0 < n) (hle : n ≤ s.buffer.length) :
    total port (s.taken n) < total port s := by
  simp only [total, taken, List.length_drop]
  omega

theorem total_discard (s : ModbusRtuStream σ) : total port s.discard ≤ total port s := by
  simp only [total, discard, List.length_drop]
  omega

theorem total_read {size : ℕ} {s s' : ModbusRtuStream σ} {r : Except (Exc ε) Bytes}
    (h : read port size s = (r, s')) : total port s' ≤ total port s := by
  unfold read at h
  rcases hr : port.read s.port size with ⟨e | chunk, p⟩
  · have hport := congrArg List.length (port.read_error hr)
    cases e <;> rw [hr] at h <;> obtain ⟨-, rfl⟩ := Prod.mk.inj h <;> simp only [total] <;> omega
  · have hport := congrArg List.length (port.read_ok hr).1
    rw [List.length_append] at hport
    rw [hr] at h
    obtain ⟨-, rfl⟩ := Prod.mk.inj h
    simp only [total]
    omega

theorem total_readToSilence (s : ModbusRtuStream σ) :
    total port (readToSilence port s).2 ≤ total port s := by
  fun_induction readToSilence port s with
  | case1 s hlt e s' hr => exact total_read port hr
  | case2 s hlt s' hr => exact total_read port hr
  | case3 s hlt b c s' hr hbuf ih => exact ih.trans (total_extend port hr).le
  | case4 s hlt => exact le_rfl

theorem total_scanHeld {s s' : ModbusRtuStream σ} {frame : Bytes}
    (h : scanHeld s = (some frame, s')) : total port s' < total port s := by
  revert h
  fun_induction scanHeld s with
  | case1 s hle frame p hp =>
    intro h
    obtain ⟨-, rfl⟩ := Prod.mk.inj h
    obtain ⟨-, hpos, hlen, -⟩ := readRtuFrame_packet hp
    exact total_taken port hpos hlen
  | case2 s hle frame hp ih => exact fun h => (ih h).trans_le (total_discard port s)
  | case3 s hlt => nofun

theorem total_afterSilence {s s' : ModbusRtuStream σ} {frame : Bytes}
    (h : (receiveAfterSilence s : Except (Exc ε) Bytes × _) = (.ok frame, s')) :
    total port s' < total port s := by
  unfold receiveAfterSilence at h
  split_ifs at h with hnil
  · cases (Prod.mk.inj h).1
  rcases hscan : scanHeld s with ⟨_ | found, s₁⟩ <;> rw [hscan] at h
  · cases (Prod.mk.inj h).1
  · obtain ⟨-, rfl⟩ := Prod.mk.inj h
    exact total_scanHeld port hscan

theorem total_bySilence {s s' : ModbusRtuStream σ} {frame : Bytes}
    (h : receiveBySilence port s = (.ok frame, s')) : total port s' < total port s := by
  have hread := total_readToSilence port s
  unfold receiveBySilence at h
  rcases hr : readToSilence port s with ⟨e | u, s₁⟩ <;> rw [hr] at h hread
  · simp at h
  · dsimp only at h
    cases hd : ModbusRtuPacket.deserialize s₁.buffer with
    | error e =>
      rw [hd] at h
      exact (total_afterSilence port h).trans_le hread
    | ok p =>
      rw [hd] at h
      obtain ⟨-, rfl⟩ := Prod.mk.inj h
      have hne : s₁.buffer ≠ [] := by
        rintro hnil
        obtain ⟨b, pdu, -, -, -, hs⟩ := RtuAdu.deserialize_eq_ok.mp hd
        rw [hnil] at hs
        cases hs
      exact (total_taken port (List.length_pos_iff.mpr hne) le_rfl).trans_le hread

/-- A turn that ends in a frame has taken it, and no other makes bytes. -/
theorem total_turn {s s' : ModbusRtuStream σ} :
    (∀ frame, turn port s = .done (.ok frame) s' → total port s' < total port s) ∧
      (turn port s = .again s' → total port s' ≤ total port s) := by
  rcases turn_cases port s with ⟨p, hp, ht⟩ | ⟨-, -, _, _, hsil, ht⟩ | ⟨-, -, ht⟩ |
    ⟨-, -, r, s₁, hr, ⟨e, -, ht⟩ | ⟨-, _, _, hsil, ht⟩ | ⟨c, hc, rfl, ht⟩⟩ <;> rw [ht] <;>
    refine ⟨fun frame h => ?_, fun h => ?_⟩ <;> cases h
  · obtain ⟨-, hpos, hlen, -⟩ := readRtuFrame_packet hp
    exact total_taken port hpos hlen
  · exact total_bySilence port hsil
  · exact total_discard port s
  · exact (total_afterSilence port hsil).trans_le (total_read port hr)
  · exact (total_extend port hr).le

theorem total_receive {s s' : ModbusRtuStream σ} {frame : Bytes}
    (h : receive port s = (.ok frame, s')) : total port s' < total port s := by
  have hloop : ∀ t : ModbusRtuStream σ, loop port t = (.ok frame, s') →
      total port s' < total port t := by
    intro t
    fun_induction loop port t with
    | case1 t r s₁ hturn =>
      intro h
      obtain ⟨rfl, rfl⟩ := Prod.mk.inj h
      exact (total_turn port).1 _ hturn
    | case2 t t' hturn _ ih => exact fun h => (ih h).trans_le ((total_turn port).2 hturn)
  exact hloop { s with noise := 0 } h

/-- Receive until it raises: what was returned, and the resyncs counted by then. -/
def receiveAll (s : ModbusRtuStream σ) : List (Bytes × ℕ) :=
  match h : receive port s with
  | (.ok frame, s') =>
    have := total_receive port h
    (frame, s'.resyncs) :: receiveAll s'
  | (.error _, _) => []
termination_by total port s

theorem receiveAll_ok {s s' : ModbusRtuStream σ} {frame : Bytes}
    (h : receive port s = (.ok frame, s')) :
    receiveAll port s = (frame, s'.resyncs) :: receiveAll port s' := by
  rw [receiveAll]
  split <;> simp_all

end Receive

end ModbusRtuStream

/-! ### The splitter, packet by packet -/

namespace ModbusRtuSplitter

/-- The packets a splitter returns, and the resyncs it had counted by each. -/
def takeTrace (s : ModbusRtuSplitter) : List (ModbusRtuPacket × ℕ) :=
  match h : s.take with
  | (none, _) => []
  | (some packet, s') =>
    have := take_some h
    (packet, s'.resyncs) :: takeTrace s'
termination_by s.buffer.length

theorem takeTrace_none {s s' : ModbusRtuSplitter} (h : s.take = (none, s')) :
    s.takeTrace = [] := by
  rw [takeTrace]
  split <;> simp_all

theorem takeTrace_some {s s' : ModbusRtuSplitter} {p : ModbusRtuPacket}
    (h : s.take = (some p, s')) : s.takeTrace = (p, s'.resyncs) :: s'.takeTrace := by
  rw [takeTrace]
  split <;> simp_all

theorem takeAll_eq_takeTrace (s : ModbusRtuSplitter) :
    s.takeAll.1 = s.takeTrace.map Prod.fst := by
  induction hn : s.buffer.length using Nat.strong_induction_on generalizing s with
  | _ n ih =>
    subst hn
    rcases h : s.take with ⟨_ | p, s'⟩
    · rw [takeAll_none h, takeTrace_none h]
      rfl
    · rw [takeAll_some h, takeTrace_some h, List.map_cons, ih _ (take_some h) _ rfl]

end ModbusRtuSplitter

namespace ModbusRtuStream

variable {ε σ : Type} (port : Source (PortError ε) σ)

/-! ### The two in step -/

/-- The head of what is held states no size, and nothing was discarded yet. -/
def Unsizable (s : ModbusRtuStream σ) : Prop :=
  (readRtuFrame s.buffer s.side).sizable = false ∧ s.noise = 0

/-- Turns of one `receive`, one after the other. -/
def Turns : ModbusRtuStream σ → ModbusRtuStream σ → Prop :=
  Relation.ReflTransGen fun s t => turn port s = .again t

/-- A `receive` that reads by silence. -/
def BySilence (s : ModbusRtuStream σ) : Prop :=
  ∃ t, Turns port { s with noise := 0 } t ∧ t.Unsizable

/-- Receives that returned, one after the other. -/
def Receives : ModbusRtuStream σ → ModbusRtuStream σ → Prop :=
  Relation.ReflTransGen fun s t => ∃ frame, receive port s = (.ok frame, t)

/-- The splitter holds what the stream holds and what its port has still to hand over. -/
structure Matches (q : ModbusRtuSplitter) (s : ModbusRtuStream σ) : Prop where
  side : q.side = s.side
  buffer : q.buffer = s.buffer ++ port.unread s.port
  resyncs : q.resyncs = s.resyncs

variable {port}

theorem Matches.verdict {q : ModbusRtuSplitter} {s : ModbusRtuStream σ} (hm : Matches port q s)
    (h : (readRtuFrame s.buffer s.side).incomplete = false) :
    readRtuFrame q.buffer q.side = readRtuFrame s.buffer s.side := by
  rw [hm.buffer, hm.side, readRtuFrame_append h]

theorem Matches.discard {q : ModbusRtuSplitter} {s : ModbusRtuStream σ} (hm : Matches port q s)
    (h : (readRtuFrame s.buffer s.side).incomplete = false) :
    Matches port q.discard s.discard := by
  have hmin := minRtuFrame_le h
  have : minRtuFrame = 4 := rfl
  refine ⟨hm.side, ?_, congrArg (· + 1) hm.resyncs⟩
  change q.buffer.drop 1 = s.buffer.drop 1 ++ port.unread s.port
  rw [hm.buffer, List.drop_append_of_le_length (by omega)]

theorem Matches.extend {q : ModbusRtuSplitter} {s s' : ModbusRtuStream σ} {size : ℕ} {c : Bytes}
    (hm : Matches port q s) (hr : read port size s = (.ok c, s')) :
    Matches port q (s'.extend c) := by
  obtain ⟨hs, hcat, -⟩ := read_ok port hr
  rw [hs]
  refine ⟨hm.side, ?_, hm.resyncs⟩
  change q.buffer = s.buffer ++ c ++ port.unread s'.port
  rw [hm.buffer, hcat, List.append_assoc]

/-- Until the splitter finds no more, the stream returns what the splitter takes next. -/
theorem Matches.loop (hport : ∀ s n, ∃ c s', port.read s n = (.ok c, s'))
    {q : ModbusRtuSplitter} {s : ModbusRtuStream σ} (hm : Matches port q s)
    (hsil : ∀ t, Turns port s t → ¬ t.Unsizable) :
    (∃ q', q.take = (none, q')) ∨ ∃ p q' frame s', q.take = (some p, q') ∧
      loop port s = (.ok frame, s') ∧ p.serialize = .ok (frame, p) ∧ Matches port q' s' := by
  induction hn : 2 * (port.unread s.port).length + s.buffer.length using Nat.strong_induction_on
    generalizing q s with
  | _ n ih =>
    subst hn
    have hagain {s₁ : ModbusRtuStream σ} {q₁ : ModbusRtuSplitter} (ht : turn port s = .again s₁)
        (hm₁ : Matches port q₁ s₁) := ih _ (turn_again port ht) hm₁
          (fun t hreach => hsil t (hreach.head ht)) rfl
    rcases turn_cases port s with ⟨p, hp, ht⟩ | ⟨hs, hnoise, -⟩ | ⟨hp, hinc, ht⟩ |
      ⟨hp, hinc, r, s₁, hr, hread⟩
    · obtain ⟨hinc, -, hle, hd⟩ := readRtuFrame_packet hp
      have hverdict := hm.verdict hinc
      refine .inr ⟨p, _, _, _, ModbusRtuSplitter.take_packet (hverdict ▸ hp), loop_done port ht,
        ModbusRtuPacket.serialize_of_deserialize hd, hm.side, ?_, hm.resyncs⟩
      change q.buffer.drop _ = s.buffer.drop _ ++ port.unread s.port
      rw [hverdict, hm.buffer, List.drop_append_of_le_length hle]
    · exact absurd ⟨hs, hnoise⟩ (hsil s .refl)
    · have hverdict := hm.verdict hinc
      rw [ModbusRtuSplitter.take_discard (hverdict ▸ hp) (hverdict ▸ hinc), loop_again port ht]
      exact hagain ht (hm.discard hinc)
    · obtain ⟨-, -, hwanted⟩ := readRtuFrame_incomplete hinc
      obtain ⟨c, p, hc⟩ := hport s.port (readRtuFrame s.buffer s.side).wanted
      have hread' : read port (readRtuFrame s.buffer s.side).wanted s =
          (.ok c, { s with port := p }) := by simp only [read, hc]
      obtain ⟨rfl, rfl⟩ := Prod.mk.inj (hread'.symm.trans hr)
      rcases hread with ⟨e, he, -⟩ | ⟨hnil, -⟩ | ⟨d, -, hd, ht⟩
      · cases he
      · obtain rfl := Except.ok.inj hnil
        have hbuf := hm.buffer
        rw [port.read_nil hwanted hc, List.append_nil] at hbuf
        refine .inl ⟨q, ModbusRtuSplitter.take_incomplete ?_ ?_⟩
        · rw [hbuf, hm.side]; exact hp
        · rw [hbuf, hm.side]; exact hinc
      · rw [loop_again port ht]
        exact hagain ht (hm.extend (Except.ok.inj hd ▸ hread'))

/-- What the splitter finds, the stream returns first, in order and with as many bytes
discarded by then. -/
theorem Matches.receiveAll (hport : ∀ s n, ∃ c s', port.read s n = (.ok c, s'))
    {q : ModbusRtuSplitter} {s : ModbusRtuStream σ} (hm : Matches port q s)
    (hsil : ∀ t, Receives port s t → ¬ BySilence port t) :
    ∃ front back, receiveAll port s = front ++ back ∧
      List.Forall₂ (fun (x : ModbusRtuPacket × ℕ) (y : Bytes × ℕ) =>
        x.1.serialize = .ok (y.1, x.1) ∧ y.2 = x.2) q.takeTrace front := by
  induction hn : q.buffer.length using Nat.strong_induction_on generalizing q s with
  | _ n ih =>
    subst hn
    have hm₀ : Matches port q { s with noise := 0 } := ⟨hm.side, hm.buffer, hm.resyncs⟩
    rcases hm₀.loop hport (fun t ht hu => hsil s .refl ⟨t, ht, hu⟩) with
      ⟨q', hq⟩ | ⟨p, q', frame, s', hq, hr, hp, hm'⟩
    · rw [ModbusRtuSplitter.takeTrace_none hq]
      exact ⟨[], _, rfl, .nil⟩
    · obtain ⟨front, back, hcat, htrace⟩ := ih _ (ModbusRtuSplitter.take_some hq) hm'
        (fun t ht => hsil t (ht.head ⟨frame, hr⟩)) rfl
      rw [ModbusRtuSplitter.takeTrace_some hq, receiveAll_ok port hr, hcat]
      exact ⟨(frame, s'.resyncs) :: front, back, rfl, .cons ⟨hp, hm'.resyncs.symm⟩ htrace⟩

/-- The stream and the splitter frame alike: over a port that answers every read, and where
no receive reads by silence, the packets of one push of all that the port hands over are
the first frames the stream returns, with as many bytes discarded by each. -/
theorem receiveAll_extends_push (side : RtuSide) (s : σ)
    (hport : ∀ s n, ∃ c s', port.read s n = (.ok c, s'))
    (hsil : ∀ t, Receives port { port := s, side } t → ¬ BySilence port t) :
    (ModbusRtuSplitter.push { side } (port.unread s)).1 =
        (ModbusRtuSplitter.takeTrace { side, buffer := port.unread s }).map Prod.fst ∧
      ∃ front back, receiveAll port { port := s, side } = front ++ back ∧
        List.Forall₂ (fun (x : ModbusRtuPacket × ℕ) (y : Bytes × ℕ) =>
          x.1.serialize = .ok (y.1, x.1) ∧ y.2 = x.2)
          (ModbusRtuSplitter.takeTrace { side, buffer := port.unread s }) front := by
  refine ⟨?_, Matches.receiveAll hport ⟨rfl, rfl, rfl⟩ hsil⟩
  exact ModbusRtuSplitter.takeAll_eq_takeTrace { side, buffer := port.unread s }

theorem Turns.of_again {s s' t : ModbusRtuStream σ} (h : Turns port s t)
    (ht : turn port s = .again s') : t = s ∨ Turns port s' t := by
  rcases Relation.ReflTransGen.cases_head h with rfl | ⟨s₁, ht₁, h⟩
  · exact .inl rfl
  · exact .inr (Turn.again.inj (ht.symm.trans ht₁) ▸ h)

theorem Turns.of_done {s s' t : ModbusRtuStream σ} {r : Except (Exc ε) Bytes}
    (h : Turns port s t) (ht : turn port s = .done r s') : t = s := by
  rcases Relation.ReflTransGen.cases_head h with rfl | ⟨s₁, ht₁, h⟩
  · rfl
  · cases ht.symm.trans ht₁

/-- A byte of noise ahead of a frame costs the stream and the splitter one byte each. -/
theorem receiveAll_extends_push_noise :
    ∃ front back, receiveAll (Source.holding (PortError Empty))
        { port := [1, 7, 7, 0x42, 0x42], side := .request } = front ++ back ∧
      List.Forall₂ (fun (x : ModbusRtuPacket × ℕ) (y : Bytes × ℕ) =>
        x.1.serialize = .ok (y.1, x.1) ∧ y.2 = x.2)
        (ModbusRtuSplitter.takeTrace
          { side := .request, buffer := [1, 7, 7, 0x42, 0x42] }) front := by
  let port := Source.holding (PortError Empty)
  have h₀ : turn port ⟨[1, 7, 7, 0x42, 0x42], .request, [], 0, 0⟩ =
      .again ⟨[0x42], .request, [1, 7, 7, 0x42], 0, 0⟩ := by decide +kernel
  have h₁ : turn port ⟨[0x42], .request, [1, 7, 7, 0x42], 0, 0⟩ =
      .again ⟨[0x42], .request, [7, 7, 0x42], 1, 1⟩ := by decide +kernel
  have h₂ : turn port ⟨[0x42], .request, [7, 7, 0x42], 1, 1⟩ =
      .again ⟨[], .request, [7, 7, 0x42, 0x42], 1, 1⟩ := by decide +kernel
  have h₃ : turn port ⟨[], .request, [7, 7, 0x42, 0x42], 1, 1⟩ =
      .done (.ok [7, 7, 0x42, 0x42]) ⟨[], .request, [], 1, 1⟩ := by decide +kernel
  have h₄ : ∃ e, turn port ⟨[], .request, [], 1, 0⟩ = .done (.error e) ⟨[], .request, [], 1, 0⟩ :=
    ⟨_, rfl⟩
  obtain ⟨e, h₄⟩ := h₄
  have hfirst : receive port ⟨[1, 7, 7, 0x42, 0x42], .request, [], 0, 0⟩ =
      (.ok [7, 7, 0x42, 0x42], ⟨[], .request, [], 1, 1⟩) := by
    rw [receive, loop_again port h₀, loop_again port h₁, loop_again port h₂, loop_done port h₃]
  have hlast : receive port ⟨[], .request, [], 1, 1⟩ = (.error e, ⟨[], .request, [], 1, 0⟩) :=
    loop_done port h₄
  refine (receiveAll_extends_push .request [1, 7, 7, 0x42, 0x42]
    (fun s n => ⟨_, _, rfl⟩) ?_).2
  rintro t ht ⟨u, hu, hs, -⟩
  rcases Relation.ReflTransGen.cases_head ht with rfl | ⟨t₁, ⟨frame, ht₁⟩, ht⟩
  · rcases hu.of_again h₀ with rfl | hu
    · revert hs; decide +kernel
    rcases hu.of_again h₁ with rfl | hu
    · revert hs; decide +kernel
    rcases hu.of_again h₂ with rfl | hu
    · revert hs; decide +kernel
    obtain rfl := hu.of_done h₃
    revert hs; decide +kernel
  · obtain rfl := (Prod.mk.inj (hfirst.symm.trans ht₁)).2
    rcases Relation.ReflTransGen.cases_head ht with rfl | ⟨t₂, ⟨frame', ht₂⟩, -⟩
    · obtain rfl := hu.of_done h₄
      revert hs; decide +kernel
    · cases (Prod.mk.inj (hlast.symm.trans ht₂)).1

end ModbusRtuStream

end Pyomb
