import Pyomb.Locks
import Pyomb.Transport.Burst

/-! One sender driven by several threads. The lock covers the settings and the send loop, so
however the threads interleave between two writes of a fragment, the calls do what they do
one after the other, and the frames on the wire are whole. The stop event is read ahead of
the lock: a call that has read it sends its burst, however late it gets the lock. -/

namespace Pyomb

/-- What the lock of a sender covers, the settings of its stream and its socket included. -/
structure Covered (σ : Type) where
  packets : List ModbusTcpPacket
  fragSize : ℤ := 0
  burstMode : Bool := false
  streamFragSize : ℤ := fragSize
  streamBurst : Bool := burstMode
  sock : σ
  deriving DecidableEq

/-- The calls that take the lock, `run_once` past its look at the stop event. -/
inductive SenderCall where
  | setFragSize (value : ℤ)
  | setBurstMode (value : Bool)
  | runOnce
  deriving DecidableEq, Repr

/-- Where a call stands: about to assign a setting or to copy the settings to the stream,
ahead of a packet, or ahead of a fragment, with the packets taken and left and the fragments
left. -/
inductive SenderPlace where
  | setFragSize (value : ℤ)
  | setBurstMode (value : Bool)
  | copy
  | packet (taken left : List ModbusTcpPacket)
  | fragment (taken left : List ModbusTcpPacket) (fragments : List Bytes)
  deriving DecidableEq

namespace SenderCall

variable {T ε σ : Type} (sock : SendSocket ε σ)

def perform : SenderCall → Covered σ → Except (Exc ε) Unit × Covered σ
  | .setFragSize value, s => (.ok (), { s with fragSize := value })
  | .setBurstMode value, s => (.ok (), { s with burstMode := value })
  | .runOnce, s =>
    let sender : ModbusTcpSender := { packets := s.packets, fragSize := s.fragSize, burstMode := s.burstMode }
    let (r, sender', k) := sender.runOnce sock s.sock
    (r, { s with
      packets := sender'.packets, streamFragSize := s.fragSize, streamBurst := s.burstMode, sock := k })

def replay : List SenderCall → Covered σ → List (Except (Exc ε) Unit) × Covered σ
  | [], s => ([], s)
  | c :: calls, s =>
    let (r, s₁) := c.perform sock s
    let (rs, s₂) := replay calls s₁
    (r :: rs, s₂)

def enter : SenderCall → SenderPlace
  | .setFragSize value => .setFragSize value
  | .setBurstMode value => .setBurstMode value
  | .runOnce => .copy

end SenderCall

namespace SenderPlace

variable {ε σ : Type} (sock : SendSocket ε σ)

/-- A packet of the loop up to the fragments it is cut into. -/
def begin (taken : List ModbusTcpPacket) (a : ModbusTcpPacket) (left : List ModbusTcpPacket)
    (s : Covered σ) : (SenderPlace ⊕ Except (Exc ε) Unit) × Covered σ :=
  match a.rewriteLength with
  | .error e => (.inr (.error (.struct e)), s)
  | .ok a' =>
    let s' := { s with packets := taken ++ a' :: left }
    match a'.serialize with
    | .error e => (.inr (.error (.packet e)), s')
    | .ok message =>
      match ModbusTcpStream.setBurst sock s.streamBurst s.sock with
      | (.error e, k) =>
        (.inr (.error (.network "Error sending Modbus message: " (some e))), { s' with sock := k })
      | (.ok (), k) =>
        match ModbusFragmenter.fragment message s.streamFragSize with
        | .error e => (.inr (.error (.packet e)), { s' with sock := k })
        | .ok fragments => (.inl (.fragment (taken ++ [a']) left fragments), { s' with sock := k })

/-- What a call does between two points at which another thread may run. -/
def step : SenderPlace → Covered σ → (SenderPlace ⊕ Except (Exc ε) Unit) × Covered σ
  | .setFragSize value, s => (.inr (.ok ()), { s with fragSize := value })
  | .setBurstMode value, s => (.inr (.ok ()), { s with burstMode := value })
  | .copy, s => (.inl (.packet [] s.packets),
      { s with streamFragSize := s.fragSize, streamBurst := s.burstMode })
  | .packet _ [], s => (.inr (.ok ()), s)
  | .packet taken (a :: left), s => begin sock taken a left s
  | .fragment taken left [], s => (.inl (.packet taken left), s)
  | .fragment taken left (d :: ds), s =>
    match sock.write s.sock d with
    | (.error e, k) =>
      (.inr (.error (.network "Error sending Modbus message: " (some e))), { s with sock := k })
    | (.ok _, k) => (.inl (.fragment taken left ds), { s with sock := k })

end SenderPlace

namespace SharedSender

variable {T ε σ : Type} (sock : SendSocket ε σ)

def bodies : Guarded (Covered σ) SenderCall SenderPlace (Except (Exc ε) Unit) where
  enter := SenderCall.enter
  step := SenderPlace.step sock

/-! ### The steps of a body add up to the call -/

theorem returns_fragments {taken left : List ModbusTcpPacket} (ds : List Bytes) {s : Covered σ}
    {r : Except (Exc ε) Unit} {s' : Covered σ}
    (hok : ∀ k, sock.each ds s.sock = (.ok (), k) →
      (bodies sock).Returns (.packet taken left) { s with sock := k } r s')
    (herror : ∀ e k, sock.each ds s.sock = (.error e, k) →
      r = .error (.network "Error sending Modbus message: " (some e)) ∧ s' = { s with sock := k }) :
    (bodies sock).Returns (.fragment taken left ds) s r s' := by
  induction ds generalizing s with
  | nil => exact .more rfl (hok s.sock rfl)
  | cons d ds ih =>
    rcases hw : sock.write s.sock d with ⟨e | n, k⟩
    · obtain ⟨rfl, rfl⟩ := herror e k (by simp [Sink.each, hw])
      exact .done (by simp [bodies, SenderPlace.step, hw])
    · have heach : sock.each (d :: ds) s.sock = sock.each ds k := by simp [Sink.each, hw]
      rw [heach] at hok herror
      exact .more (by simp only [bodies, SenderPlace.step, hw]) (ih (s := { s with sock := k }) hok herror)

theorem returns_packets (taken left : List ModbusTcpPacket) (s : Covered σ)
    (hp : s.packets = taken ++ left) {r : Except (Exc ε) Unit} {packets : List ModbusTcpPacket} {k : σ}
    (h : ModbusTcpSender.sendEach sock s.streamFragSize s.streamBurst left s.sock = (r, packets, k)) :
    (bodies sock).Returns (.packet taken left) s r
      { s with packets := taken ++ packets, sock := k } := by
  induction left generalizing taken s packets with
  | nil =>
    cases h
    rw [← hp]
    exact .done rfl
  | cons a left ih =>
    have hbegin : (bodies sock).step (.packet taken (a :: left)) s =
      SenderPlace.begin sock taken a left s := rfl
    unfold SenderPlace.begin at hbegin
    rw [ModbusTcpSender.sendEach] at h
    rcases hr : a.rewriteLength with e | a' <;> rw [hr] at h hbegin <;> dsimp only at h hbegin
    · cases h
      rw [← hp]
      exact .done hbegin
    rcases hs : a'.serialize with e | message <;> rw [hs] at h hbegin <;> dsimp only at h hbegin
    · cases h
      exact .done hbegin
    rcases ModbusTcpStream.send_cases sock s.streamFragSize s.streamBurst message s.sock with
      ⟨e, k₁, hset, hsend⟩ | ⟨e, k₁, hset, hfrag, hsend⟩ | ⟨k₁, fragments, hset, hfrag, hw⟩ <;>
      rw [hset] at hbegin <;> dsimp only at hbegin
    · rw [hsend] at h
      cases h
      exact .done hbegin
    · rw [hsend] at h
      cases h
      rw [hfrag] at hbegin
      exact .done hbegin
    rw [hfrag] at hbegin
    refine .more hbegin (returns_fragments sock fragments ?_ ?_)
    · intro k₂ heach
      rcases hw with ⟨e, k₃, heach', -⟩ | ⟨k₃, heach', hsend⟩ <;> cases heach.symm.trans heach'
      rw [hsend] at h
      dsimp only at h
      rcases hrest : ModbusTcpSender.sendEach sock s.streamFragSize s.streamBurst left k₂ with
        ⟨r', packets', k'⟩
      rw [hrest] at h
      cases h
      have := ih (taken ++ [a']) { s with packets := taken ++ a' :: left, sock := k₂ } (by simp) hrest
      simpa using this
    · intro e k₂ heach
      rcases hw with ⟨e', k₃, heach', hsend⟩ | ⟨k₃, heach', -⟩ <;> cases heach.symm.trans heach'
      rw [hsend] at h
      cases h
      exact ⟨rfl, rfl⟩

/-- Under the lock a call does what it does on its own, and ends. -/
theorem returns_iff (c : SenderCall) (s s' : Covered σ) (r : Except (Exc ε) Unit) :
    (bodies sock).Returns (c.enter) s r s' ↔ c.perform sock s = (r, s') := by
  have hperform : (bodies sock).Returns c.enter s (c.perform sock s).1 (c.perform sock s).2 := by
    cases c with
    | setFragSize value => exact .done rfl
    | setBurstMode value => exact .done rfl
    | runOnce =>
      refine .more rfl ?_
      have := returns_packets sock [] s.packets
        { s with streamFragSize := s.fragSize, streamBurst := s.burstMode } rfl rfl
      simpa [SenderCall.perform, ModbusTcpSender.runOnce] using this
  constructor
  · intro h
    obtain ⟨hr, hs⟩ := h.unique hperform
    rw [hr, hs]
  · intro h
    rw [h] at hperform
    exact hperform

theorem replay_snoc (sock : SendSocket ε σ) (calls : List SenderCall) (c : SenderCall)
    (s : Covered σ) : SenderCall.replay sock (calls ++ [c]) s =
      ((SenderCall.replay sock calls s).1 ++ [(c.perform sock (SenderCall.replay sock calls s).2).1],
        (c.perform sock (SenderCall.replay sock calls s).2).2) := by
  induction calls generalizing s with
  | nil => rfl
  | cons d calls ih =>
    simp only [List.cons_append, SenderCall.replay, ih]

theorem replay_of_performs {s s' : Covered σ}
    {calls : List (T × SenderCall × Except (Exc ε) Unit)}
    (h : (bodies sock).Performs s calls s') :
    SenderCall.replay sock (calls.map fun x => x.2.1) s = (calls.map fun x => x.2.2, s') := by
  induction h with
  | nil => rfl
  | @snoc calls s₁ t c r s₂ hp hr ih =>
    rw [List.map_append, List.map_append, List.map_singleton, List.map_singleton, replay_snoc, ih]
    dsimp only
    rw [(returns_iff sock c s₁ s₂ r).mp hr]

/-! ### Every interleaving -/

structure World (T ε σ : Type) extends
    Threads T (Covered σ) SenderCall SenderPlace (Except (Exc ε) Unit) where
  stop : Bool := false

variable [DecidableEq T]

inductive Step : World T ε σ → World T ε σ → Prop
  /-- A call up to the lock: `run_once` has found the stop event unset. -/
  | call {w : World T ε σ} (t : T) (c : SenderCall) (h : w.Idle t)
      (hstop : c = .runOnce → w.stop = false) : Step w { w with toThreads := w.call t c }
  /-- `run_once` finds the stop event set, and returns. -/
  | stopped {w : World T ε σ} (t : T) (h : w.Idle t) (hstop : w.stop = true) : Step w w
  | inside {w : World T ε σ} {ts : Threads T (Covered σ) SenderCall SenderPlace (Except (Exc ε) Unit)}
      (h : Threads.Inside (bodies sock) w.toThreads ts) : Step w { w with toThreads := ts }
  | stop {w : World T ε σ} : Step w { w with stop := true }

def Reachable (s : Covered σ) (w : World T ε σ) : Prop :=
  ∃ stop, Relation.ReflTransGen (Step sock) { shared := s, stop } w

variable {sock}

theorem Reachable.tail {s : Covered σ} {w w' : World T ε σ} (h : Reachable sock s w)
    (hs : Step sock w w') : Reachable sock s w' := by
  obtain ⟨stop, hrun⟩ := h
  exact ⟨stop, hrun.tail hs⟩

def statusSender : Covered Bytes where
  packets := [⟨⟨1, 0, 0, 1⟩, .modbusRequestFC7⟩]
  fragSize := 1
  sock := []

/-- One thread has written the header of its frame. -/
def midFrame : World Bool Empty Bytes where
  shared := {
    packets := [⟨⟨1, 0, 2, 1⟩, .modbusRequestFC7⟩]
    fragSize := 1
    sock := [0, 1, 0, 0, 0, 2, 1] }
  holder := some (false, .runOnce, .fragment [⟨⟨1, 0, 2, 1⟩, .modbusRequestFC7⟩] [] [[7]])

theorem reachable_midFrame : Reachable (SendSocket.accepting Empty) statusSender midFrame := by
  have hwaiting : Function.update (Function.update (fun _ => none) false (some SenderCall.runOnce))
      false none = fun _ => none := by
    rw [Function.update_idem, Function.update_eq_self]
  have hmid : midFrame = { midFrame with
      waiting := Function.update (Function.update (fun _ => none) false (some SenderCall.runOnce))
        false none } := by
    rw [hwaiting]
    rfl
  have hstart : Reachable (SendSocket.accepting Empty) statusSender
    ({ shared := statusSender } : World Bool Empty Bytes) := ⟨false, .refl⟩
  have hcalled := hstart.tail (.call false .runOnce ⟨rfl, nofun⟩ fun _ => rfl)
  have hacquired := hcalled.tail (.inside (.acquire (t := false) (c := .runOnce) rfl rfl))
  have hcopied := hacquired.tail (.inside (.move rfl rfl))
  have hbegin : SenderPlace.step (SendSocket.accepting Empty)
      (.packet [] statusSender.packets) statusSender = (.inl (.fragment
        [⟨⟨1, 0, 2, 1⟩, .modbusRequestFC7⟩] [] [[0, 1, 0, 0, 0, 2, 1], [7]]),
        { statusSender with packets := [⟨⟨1, 0, 2, 1⟩, .modbusRequestFC7⟩] }) := by
    decide +kernel
  have hcut := hcopied.tail (.inside (.move rfl hbegin))
  rw [hmid]
  exact hcut.tail (.inside (.move rfl rfl))

/-- A rule for what the lock owns: it holds in every world of every run. -/
theorem owned_of_reachable {s : Covered σ} {w : World T ε σ} (h : Reachable sock s w)
    {Inv : List (T × SenderCall × Except (Exc ε) Unit) → Covered σ → Prop}
    {Mid : List (T × SenderCall × Except (Exc ε) Unit) → SenderCall → SenderPlace → Covered σ → Prop}
    (hstart : Inv [] s) (henter : ∀ l c s, Inv l s → Mid l c c.enter s)
    (hmove : ∀ l c p s p' s', Mid l c p s → SenderPlace.step sock p s = (.inl p', s') →
      Mid l c p' s')
    (hend : ∀ l t c p s r s', Mid l c p s → SenderPlace.step sock p s = (.inr r, s') →
      Inv (l ++ [(t, c, r)]) s') : w.Owned Inv Mid := by
  obtain ⟨stop, hrun⟩ := h
  refine @invariant_of_run _ (Step sock) (fun w => w.Owned Inv Mid) ?_ _ _
    ⟨fun _ => hstart, fun t c p heq => by cases heq⟩ hrun
  intro w w' hw hstep
  cases hstep with
  | call t c => exact hw.call t c
  | stopped => exact hw
  | inside hin => exact hw.inside (g := bodies sock) henter hmove hend hin
  | stop => exact hw

theorem serial_of_reachable {s : Covered σ} {w : World T ε σ} (h : Reachable sock s w) :
    Threads.Serial (bodies sock) s w.toThreads := by
  obtain ⟨stop, hrun⟩ := h
  refine @invariant_of_run _ (Step sock) (fun w => Threads.Serial (bodies sock) s w.toThreads) ?_
    _ _ ⟨fun _ => .nil, fun t c p heq => by cases heq⟩ hrun
  intro w w' hw hstep
  cases hstep with
  | call t c => exact hw.call t c
  | stopped => exact hw
  | inside hin => exact Threads.Serial.inside hw hin
  | stop => exact hw

/-- However the threads interleave: the calls that have returned left the packets, the settings
and the socket as they do one after the other, in the order in which they held the lock, and
returned what they return there; and a call that holds the lock has got to where its own steps
lead behind them, and goes on to do what it does on its own. -/
theorem calls_linearize {s : Covered σ} {w : World T ε σ} (h : Reachable sock s w) :
    ∃ s', SenderCall.replay sock (w.returned.map fun x => x.2.1) s =
        (w.returned.map fun x => x.2.2, s') ∧
      (w.holder = none → w.shared = s') ∧
      ∀ t c p, w.holder = some (t, c, p) → (bodies sock).Reaches c.enter s' p w.shared ∧
        (bodies sock).Returns p w.shared (c.perform sock s').1 (c.perform sock s').2 := by
  obtain ⟨hfree, hheld⟩ := serial_of_reachable h
  cases hholder : w.holder with
  | none =>
    exact ⟨w.shared, replay_of_performs sock (hfree hholder), fun _ => rfl, nofun⟩
  | some call =>
    obtain ⟨t, c, p⟩ := call
    obtain ⟨s₁, hp, hr⟩ := hheld t c p hholder
    refine ⟨s₁, replay_of_performs sock hp, nofun, fun t' c' p' heq => ?_⟩
    cases heq
    exact ⟨hr, ((returns_iff sock c s₁ _ _).mpr rfl).of_reached hr⟩

/-- The call has written the header of its frame, and the rest goes out as it would have without
the other thread. -/
theorem calls_linearize_midFrame :
    (bodies (SendSocket.accepting Empty)).Reaches .copy statusSender
      (.fragment [⟨⟨1, 0, 2, 1⟩, .modbusRequestFC7⟩] [] [[7]]) midFrame.shared ∧
    (bodies (SendSocket.accepting Empty)).Returns
      (.fragment [⟨⟨1, 0, 2, 1⟩, .modbusRequestFC7⟩] [] [[7]]) midFrame.shared
      (SenderCall.runOnce.perform (SendSocket.accepting Empty) statusSender).1
      (SenderCall.runOnce.perform (SendSocket.accepting Empty) statusSender).2 := by
  obtain ⟨s', hreplay, -, hheld⟩ := calls_linearize reachable_midFrame
  cases hreplay
  exact hheld false .runOnce _ rfl

/-! ### What is on the wire -/

/-- The frame a packet goes out in, which its header may have to be rewritten for. -/
def GoesOut (a : ModbusTcpPacket) (f : TcpFrame) : Prop :=
  (∃ a', a.rewriteLength = .ok a' ∧ a'.serialize = .ok f.bytes) ∧ ∃ b, Captured f.bytes b

/-- The packet it is rewritten to goes out in the same frame. -/
theorem GoesOut.rewrite {a a' : ModbusTcpPacket} {f : TcpFrame} (h : GoesOut a f)
    (hr : a.rewriteLength = .ok a') : a'.serialize = .ok f.bytes ∧ GoesOut a' f := by
  obtain ⟨⟨a₁, hr₁, hs⟩, hcap⟩ := h
  cases hr.symm.trans hr₁
  refine ⟨hs, ⟨a', ?_, hs⟩, hcap⟩
  rw [TcpAdu.rewriteLength] at hr ⊢
  rcases hlen : a.pdu.len with e | n <;> rw [hlen] at hr
  · cases hr
  · cases hr
    dsimp only
    rw [hlen]
    rfl

def burst (frames : List TcpFrame) : Bytes := (frames.map TcpFrame.bytes).flatten

def runs (calls : List (T × SenderCall × Except (Exc ε) Unit)) : ℕ :=
  (Threads.doneBy .runOnce calls).length

/-- The calls have returned, none of them by an exception. -/
def Fine (calls : List (T × SenderCall × Except (Exc ε) Unit)) : Prop :=
  ∀ x ∈ calls, x.2.2 = .ok ()

/-- The packets as they go out, and the bytes of whole bursts behind those there were. -/
structure Sent (sock : SendSocket ε σ) (before : Bytes) (frames : List TcpFrame) (n : ℕ)
    (part : Bytes) (s : Covered σ) : Prop where
  packets : List.Forall₂ GoesOut s.packets frames
  accepted : sock.accepted s.sock = before ++ (List.replicate n (burst frames)).flatten ++ part

/-- What a call has put on the wire behind the bursts of the calls before it. -/
def Under (sock : SendSocket ε σ) (before : Bytes) (frames : List TcpFrame) (n : ℕ)
    (c : SenderCall) : SenderPlace → Covered σ → Prop
  | .setFragSize _, s | .setBurstMode _, s => c ≠ .runOnce ∧ Sent sock before frames n [] s
  | .copy, s => c = .runOnce ∧ Sent sock before frames n [] s
  | .packet taken left, s => c = .runOnce ∧ s.packets = taken ++ left ∧
    Sent sock before frames n (burst (frames.take taken.length)) s
  | .fragment taken left ds, s => c = .runOnce ∧ s.packets = taken ++ left ∧
    ∃ part, part ++ ds.flatten = burst (frames.take taken.length) ∧
      Sent sock before frames n part s

/-- A packet that gets to its fragments. -/
theorem begin_eq_inl {taken left : List ModbusTcpPacket} {a : ModbusTcpPacket} {s s' : Covered σ}
    {p : SenderPlace} (h : SenderPlace.begin sock taken a left s = (.inl p, s')) :
    ∃ a' message k fragments, a.rewriteLength = .ok a' ∧ a'.serialize = .ok message ∧
      ModbusTcpStream.setBurst sock s.streamBurst s.sock = (.ok (), k) ∧
      ModbusFragmenter.fragment message s.streamFragSize = .ok fragments ∧
      p = .fragment (taken ++ [a']) left fragments ∧
      s' = { s with packets := taken ++ a' :: left, sock := k } := by
  unfold SenderPlace.begin at h
  split at h
  · cases h
  next a' hr =>
    dsimp only at h
    split at h
    · cases h
    next message hs =>
      split at h
      · cases h
      next k hset =>
        split at h
        · cases h
        next fragments hfrag =>
          cases h
          exact ⟨a', message, k, fragments, hr, hs, hset, hfrag, rfl, rfl⟩

theorem begin_ne_ok {taken left : List ModbusTcpPacket} {a : ModbusTcpPacket} {s s' : Covered σ} :
    SenderPlace.begin sock taken a left s ≠ (.inr (.ok ()), s') := by
  intro h
  unfold SenderPlace.begin at h
  split at h
  · cases h
  dsimp only at h
  split at h
  · cases h
  split at h
  · cases h
  split at h <;> cases h

theorem burst_append (fs gs : List TcpFrame) : burst (fs ++ gs) = burst fs ++ burst gs := by
  rw [burst, List.map_append, List.flatten_append]
  rfl

theorem forall₂_split {α β : Type} {R : α → β → Prop} {as bs : List α} {cs : List β}
    (h : List.Forall₂ R (as ++ bs) cs) :
    ∃ cs₁ cs₂, cs = cs₁ ++ cs₂ ∧ List.Forall₂ R as cs₁ ∧ List.Forall₂ R bs cs₂ := by
  refine ⟨cs.take as.length, cs.drop as.length, (List.take_append_drop _ _).symm, ?_, ?_⟩
  · have := List.forall₂_take as.length h
    rwa [List.take_left] at this
  · have := List.forall₂_drop as.length h
    rwa [List.drop_left] at this

theorem Under.step (hsock : sock.WholeOrRaises) {before : Bytes} {frames : List TcpFrame} {n : ℕ}
    {c : SenderCall} {p p' : SenderPlace} {s s' : Covered σ} (h : Under sock before frames n c p s)
    (hs : SenderPlace.step sock p s = (.inl p', s')) : Under sock before frames n c p' s' := by
  cases p with
  | setFragSize value | setBurstMode value => cases hs
  | copy =>
    cases hs
    obtain ⟨hc, hsent⟩ := h
    exact ⟨hc, rfl, ⟨hsent.packets, hsent.accepted⟩⟩
  | packet taken left =>
    obtain ⟨hc, hp, hsent⟩ := h
    rcases left with _ | ⟨a, left⟩
    · cases hs
    obtain ⟨a', message, k, fragments, hr, hmsg, hset, hfrag, rfl, rfl⟩ := begin_eq_inl hs
    have hpackets := hsent.packets
    rw [hp] at hpackets
    obtain ⟨fs, gs, rfl, htaken, hleft⟩ := forall₂_split hpackets
    rcases hleft with _ | ⟨ha, hleft⟩
    next f gs =>
    obtain ⟨hser, hout⟩ := ha.rewrite hr
    cases hmsg.symm.trans hser
    have hlen : taken.length = fs.length := htaken.length_eq
    have hacc := ModbusTcpStream.setBurst_accepted sock s.streamBurst s.sock
    rw [hset] at hacc
    have hburst := hsent.accepted
    rw [hlen, List.take_left] at hburst
    refine ⟨hc, by simp, burst fs, ?_, List.rel_append htaken (.cons hout hleft), hacc.trans hburst⟩
    have htake : (fs ++ f :: gs).take (taken ++ [a']).length = fs ++ [f] := by
      rw [List.length_append, hlen, List.append_cons]
      exact List.take_left' (by simp)
    rw [htake, burst_append]
    have hflat : fragments.flatten = f.bytes := ModbusFragmenter.assemble_fragment hfrag
    simp [hflat, burst]
  | fragment taken left ds =>
    obtain ⟨hc, hp, part, hpart, hsent⟩ := h
    rcases ds with _ | ⟨d, ds⟩
    · cases hs
      rw [List.flatten_nil, List.append_nil] at hpart
      exact ⟨hc, hp, hpart ▸ hsent⟩
    rcases hsock s.sock d with ⟨k, hw⟩ | ⟨e, k, hw⟩ <;> simp only [SenderPlace.step, hw] at hs <;>
      cases hs
    refine ⟨hc, hp, part ++ d, by simpa using hpart, hsent.packets, ?_⟩
    rw [(sock.write_ok hw).2.2, List.take_length, hsent.accepted, List.append_assoc]

theorem Under.done {before : Bytes} {frames : List TcpFrame} {n : ℕ}
    {c : SenderCall} {p : SenderPlace} {s s' : Covered σ} (h : Under sock before frames n c p s)
    (hs : SenderPlace.step sock p s = (.inr (.ok ()), s')) :
    Sent sock before frames (if c = .runOnce then n + 1 else n) [] s' := by
  cases p with
  | setFragSize value | setBurstMode value =>
    cases hs
    obtain ⟨hc, hsent⟩ := h
    rw [if_neg hc]
    exact ⟨hsent.packets, hsent.accepted⟩
  | copy => cases hs
  | packet taken left =>
    obtain ⟨hc, hp, hsent⟩ := h
    rcases left with _ | ⟨a, left⟩
    · cases hs
      have hlen : taken.length = frames.length := by
        rw [← hsent.packets.length_eq, hp, List.append_nil]
      refine ⟨hsent.packets, ?_⟩
      rw [hsent.accepted, if_pos hc, hlen, List.take_length, List.replicate_succ',
        List.flatten_append]
      simp
    · exact absurd hs begin_ne_ok
  | fragment taken left ds =>
    rcases ds with _ | ⟨d, ds⟩
    · cases hs
    · simp only [SenderPlace.step] at hs
      split at hs <;> cases hs

theorem captured_of_goesOut {packets : List ModbusTcpPacket} {frames : List TcpFrame}
    (h : List.Forall₂ GoesOut packets frames) : ∀ f ∈ frames, ∃ b, Captured f.bytes b := by
  induction h with
  | nil => exact nofun
  | cons hout _ ih => exact List.forall_mem_cons.mpr ⟨hout.2, ih⟩

theorem exists_frames {packets : List ModbusTcpPacket}
    (h : ∀ a ∈ packets, ModbusTcpSender.Sendable a) :
    ∃ frames, List.Forall₂ GoesOut packets frames := by
  induction packets with
  | nil => exact ⟨[], .nil⟩
  | cons a packets ih =>
    obtain ⟨ha, hs⟩ := List.forall_mem_cons.mp h
    obtain ⟨frames, hframes⟩ := ih hs
    obtain ⟨a', f, hr, hser, hcap⟩ := ha.frame
    exact ⟨f :: frames, .cons ⟨⟨a', hr, hser⟩, hcap⟩ hframes⟩

/-- Over a socket that accepts a write whole or raises, with packets that can be sent: as long
as no call has raised, what is on the wire is one whole burst for each call of `run_once` that
has returned, whatever sizes and modes were set around it, and then the start of one for a call
that holds the lock. A receiver at the other end captures as many packets as were sent. -/
theorem bursts_whole (hsock : sock.WholeOrRaises) {s : Covered σ}
    (hsend : ∀ a ∈ s.packets, ModbusTcpSender.Sendable a) {w : World T ε σ}
    (h : Reachable sock s w) (hfine : Fine w.returned) :
    ∃ frames part, List.Forall₂ GoesOut s.packets frames ∧ part <+: burst frames ∧
      (w.holder = none → part = []) ∧
      sock.accepted w.shared.sock = sock.accepted s.sock ++
        (List.replicate (runs w.returned) (burst frames)).flatten ++ part ∧
      ∀ (τ : Type) (conn : Source Empty τ) (t : τ) (fragSize : ℤ), 0 ≤ fragSize →
        conn.unread t = (List.replicate (runs w.returned) (burst frames)).flatten →
        ∃ got receiver' t', ModbusTcpReceiver.runOnce conn { fragSize } t =
            some (.ok got, receiver', t') ∧
          List.Forall₂ (fun b f => TcpAdu.serialize b = .ok (TcpFrame.bytes f)) got
            (List.replicate (runs w.returned) frames).flatten := by
  obtain ⟨frames, hframes⟩ := exists_frames hsend
  have howned : w.Owned
      (fun l s₁ => Fine l → Sent sock (sock.accepted s.sock) frames (runs l) [] s₁)
      (fun l c p s₁ => Fine l → Under sock (sock.accepted s.sock) frames (runs l) c p s₁) := by
    refine owned_of_reachable h ?_ ?_ ?_ ?_
    · exact fun _ => ⟨hframes, by simp [runs, Threads.doneBy]⟩
    · intro l c s₁ hinv hl
      cases c with
      | setFragSize value => exact ⟨SenderCall.noConfusion, hinv hl⟩
      | setBurstMode value => exact ⟨SenderCall.noConfusion, hinv hl⟩
      | runOnce => exact ⟨rfl, hinv hl⟩
    · exact fun l c p s₁ p' s₂ hmid hstep hl => (hmid hl).step hsock hstep
    · intro l t c p s₁ r s₂ hmid hstep hl
      obtain ⟨hfst, hlast⟩ := List.forall_mem_append.mp hl
      obtain rfl : r = .ok () := hlast _ (List.mem_singleton_self _)
      have hdone := (hmid hfst).done hstep
      rw [runs, Threads.doneBy_snoc]
      by_cases hc : c = .runOnce <;> simpa [runs, hc] using hdone
  obtain ⟨hfree, hheld⟩ := howned
  have hpart : ∃ part, part <+: burst frames ∧ (w.holder = none → part = []) ∧
      Sent sock (sock.accepted s.sock) frames (runs w.returned) part w.shared := by
    cases hholder : w.holder with
    | none => exact ⟨[], List.nil_prefix, fun _ => rfl, hfree hholder hfine⟩
    | some call =>
      obtain ⟨t, c, p⟩ := call
      have hunder := hheld t c p hholder hfine
      have hno {part : Bytes} (heq : some (t, c, p) = none) : part = [] :=
        absurd heq (Option.some_ne_none _)
      have htake (k : ℕ) : burst (frames.take k) <+: burst frames :=
        ⟨burst (frames.drop k), by rw [← burst_append, List.take_append_drop]⟩
      cases p with
      | setFragSize value => exact ⟨[], List.nil_prefix, hno, hunder.2⟩
      | setBurstMode value => exact ⟨[], List.nil_prefix, hno, hunder.2⟩
      | copy => exact ⟨[], List.nil_prefix, hno, hunder.2⟩
      | packet taken left => exact ⟨_, htake _, hno, hunder.2.2⟩
      | fragment taken left ds =>
        obtain ⟨-, -, part, hpart, hsent⟩ := hunder
        exact ⟨part, (List.prefix_append part ds.flatten).trans (hpart ▸ htake _), hno, hsent⟩
  obtain ⟨part, hprefix, hnone, hsent⟩ := hpart
  refine ⟨frames, part, hframes, hprefix, hnone, hsent.accepted, fun τ conn t fragSize hf ht => ?_⟩
  have hflat : (List.replicate (runs w.returned) (burst frames)).flatten =
      (((List.replicate (runs w.returned) frames).flatten).map TcpFrame.bytes).flatten := by
    induction runs w.returned with
    | zero => rfl
    | succ n ih => rw [List.replicate_succ, List.flatten_cons, ih, List.replicate_succ,
        List.flatten_cons, List.map_append, List.flatten_append, burst]
  rw [hflat] at ht
  have hcap : ∀ f ∈ (List.replicate (runs w.returned) frames).flatten, ∃ b, Captured f.bytes b := by
    intro f hf
    obtain ⟨fs, hfs, hmem⟩ := List.mem_flatten.mp hf
    obtain rfl := (List.mem_replicate.mp hfs).2
    exact captured_of_goesOut hframes f hmem
  have hle := length_le_flatten (List.replicate (runs w.returned) frames).flatten
  have hrounds : (List.replicate (runs w.returned) frames).flatten.length <
      (conn.unread t).length + 1 := by
    rw [ht]
    omega
  obtain ⟨got, t', hcapture, hgot⟩ := ModbusTcpReceiver.capture_frames conn hf hcap ht hrounds []
  refine ⟨got, { packets := got, fragSize }, t', ?_, hgot.flip.imp fun b f hb => hb.serialized⟩
  simp [ModbusTcpReceiver.runOnce, hcapture, Except.map]

theorem bursts_whole_midFrame : ∃ frames part, part <+: burst frames ∧
    midFrame.shared.sock = (List.replicate 0 (burst frames)).flatten ++ part := by
  have hsend : ∀ a ∈ statusSender.packets, ModbusTcpSender.Sendable a :=
    List.forall_mem_singleton.mpr ⟨⟨0, _, rfl⟩, _, 1, rfl, rfl, by decide⟩
  obtain ⟨frames, part, -, hprefix, -, hacc, -⟩ :=
    bursts_whole (fun s d => .inl ⟨s ++ d, rfl⟩) hsend reachable_midFrame nofun
  exact ⟨frames, part, hprefix, hacc⟩

/-! ### How the calls end -/

theorem queued_of_reachable {s : Covered σ} {w : World T ε σ} (h : Reachable sock s w) :
    w.toThreads.Queued := by
  obtain ⟨stop, hrun⟩ := h
  refine @invariant_of_run _ (Step sock) (fun w => w.toThreads.Queued) ?_ _ _ ⟨?_, ?_⟩ hrun
  · intro w w' hw hstep
    cases hstep with
    | call t c hidle => exact hw.call hidle c
    | stopped => exact hw
    | inside hin => exact hw.inside hin
    | stop => exact hw
  · intro x hx
    cases hx
  · simp

/-- The lock never jams: from every world of every run, whatever the packets and however the
socket fails, the threads can only do finitely much without a new call, and once they can do
nothing every call that was under way has returned. -/
theorem calls_end {s : Covered σ} {w : World T ε σ} (h : Reachable sock s w) :
    (¬ ∃ f : ℕ → Threads T (Covered σ) SenderCall SenderPlace (Except (Exc ε) Unit),
      f 0 = w.toThreads ∧ ∀ n, Threads.Inside (bodies sock) (f n) (f (n + 1))) ∧
    ∀ w', Relation.ReflTransGen (Threads.Inside (bodies sock)) w.toThreads w' →
      (∀ w'', ¬ Threads.Inside (bodies sock) w' w'') →
      ∀ t c, w.toThreads.Under t c → ∃ r, (t, c, r) ∈ w'.returned := by
  refine Threads.ends (fun c s => ⟨_, _, (returns_iff sock c s _ _).mpr rfl⟩)
    (queued_of_reachable h) fun t c p hheld => ?_
  obtain ⟨s₁, -, hr⟩ := (serial_of_reachable h).2 t c p hheld
  exact ⟨_, _, ((returns_iff sock c s₁ _ _).mpr rfl).of_reached hr⟩

theorem calls_end_midFrame :
    (¬ ∃ f : ℕ → Threads Bool (Covered Bytes) SenderCall SenderPlace (Except (Exc Empty) Unit),
      f 0 = midFrame.toThreads ∧
        ∀ n, Threads.Inside (bodies (SendSocket.accepting Empty)) (f n) (f (n + 1))) ∧
    ∀ w', Relation.ReflTransGen (Threads.Inside (bodies (SendSocket.accepting Empty)))
        midFrame.toThreads w' →
      (∀ w'', ¬ Threads.Inside (bodies (SendSocket.accepting Empty)) w' w'') →
      ∃ r, (false, .runOnce, r) ∈ w'.returned := by
  obtain ⟨hfinite, hreturns⟩ := calls_end reachable_midFrame
  exact ⟨hfinite, fun w' hrun hstuck => hreturns w' hrun hstuck false .runOnce (.inr ⟨_, rfl⟩)⟩

/-- A call that is not of `run_once` assigns a setting. -/
theorem place_of_reachable {s : Covered σ} {w : World T ε σ} (h : Reachable sock s w) {t : T}
    {c : SenderCall} {p : SenderPlace} (hheld : w.holder = some (t, c, p)) (hc : c ≠ .runOnce) :
    (∃ value, p = .setFragSize value) ∨ ∃ value, p = .setBurstMode value := by
  have howned : w.Owned (fun _ _ => True) (fun _ c p _ => c ≠ .runOnce →
      (∃ value, p = .setFragSize value) ∨ ∃ value, p = .setBurstMode value) := by
    refine owned_of_reachable h trivial ?_ ?_ fun _ _ _ _ _ _ _ _ _ => trivial
    · intro l c s _ hc
      cases c with
      | setFragSize value => exact .inl ⟨value, rfl⟩
      | setBurstMode value => exact .inr ⟨value, rfl⟩
      | runOnce => exact absurd rfl hc
    · intro l c p s p' s' hmid hstep hc
      rcases hmid hc with ⟨value, rfl⟩ | ⟨value, rfl⟩ <;> cases hstep
  exact howned.2 t c p hheld hc

/-- What has happened since the stop event was set. -/
structure After (sock : SendSocket ε σ) (s : Covered σ) (w w' : World T ε σ) : Prop where
  reachable : Reachable sock s w'
  stop : w'.stop = true
  since : Threads.Since .runOnce w.toThreads w'.toThreads
  still : (∀ t, ¬ w.toThreads.Under t .runOnce) →
    w'.shared.sock = w.shared.sock ∧ w'.shared.packets = w.shared.packets

theorem still_of_inside {s : Covered σ} {w : World T ε σ} (h : Reachable sock s w)
    (hno : ∀ t, ¬ w.toThreads.Under t .runOnce)
    {ts : Threads T (Covered σ) SenderCall SenderPlace (Except (Exc ε) Unit)}
    (hs : Threads.Inside (bodies sock) w.toThreads ts) :
    ts.shared.sock = w.shared.sock ∧ ts.shared.packets = w.shared.packets := by
  have hplace {t : T} {c : SenderCall} {p : SenderPlace} (hheld : w.holder = some (t, c, p)) :=
    place_of_reachable h hheld fun heq => hno t (.inr ⟨p, heq ▸ hheld⟩)
  cases hs with
  | acquire => exact ⟨rfl, rfl⟩
  | move hheld hstep => rcases hplace hheld with ⟨value, rfl⟩ | ⟨value, rfl⟩ <;> cases hstep
  | release hheld hstep =>
    rcases hplace hheld with ⟨value, rfl⟩ | ⟨value, rfl⟩ <;> cases hstep <;> exact ⟨rfl, rfl⟩

theorem After.step {s : Covered σ} {w w' w'' : World T ε σ} (h : After sock s w w')
    (hs : Step sock w' w'') : After sock s w w'' := by
  have hreach := h.reachable.tail hs
  cases hs with
  | @call t c hidle hstop =>
    have hc : c ≠ .runOnce := fun heq => Bool.false_ne_true ((hstop heq).symm.trans h.stop)
    exact ⟨hreach, h.stop, h.since.call t hc, h.still⟩
  | stopped => exact h
  | stop => exact ⟨hreach, rfl, h.since, h.still⟩
  | inside hin =>
    refine ⟨hreach, h.stop, h.since.inside (queued_of_reachable h.reachable) hin, fun hno => ?_⟩
    obtain ⟨hsock, hpackets⟩ := still_of_inside h.reachable
      (fun t ht => hno t (h.since.under t ht)) hin
    exact ⟨hsock.trans (h.still hno).1, hpackets.trans (h.still hno).2⟩

/-- From the stop event on: a thread that has read the event unset finishes the one call of
`run_once` it is in, no other call of it gets past the event, and where no thread is in such a
call nothing is written again. -/
theorem stop_ends_sending {s : Covered σ} {w w' : World T ε σ} (h : Reachable sock s w)
    (hstop : w.stop = true) (hrun : Relation.ReflTransGen (Step sock) w w') :
    (∃ later, w'.returned = w.returned ++ later ∧ (Threads.doneBy .runOnce later).Nodup ∧
      ∀ t ∈ Threads.doneBy .runOnce later, w.toThreads.Under t .runOnce) ∧
    ((∀ t, ¬ w.toThreads.Under t .runOnce) →
      w'.shared.sock = w.shared.sock ∧ w'.shared.packets = w.shared.packets) := by
  have hafter : After sock s w w' := by
    refine @invariant_of_run _ (Step sock) (After sock s w) (fun _ _ => After.step) _ _ ?_ hrun
    exact ⟨h, hstop, .refl _ _, fun _ => ⟨rfl, rfl⟩⟩
  obtain ⟨later, hlater, hnodup, hdone⟩ := hafter.since.returned
  exact ⟨⟨later, hlater, hnodup, fun t ht => (hdone t ht).1⟩, hafter.still⟩

/-- The stop event is set while a frame is being written: the frame is finished, and the other
thread's call sends nothing. -/
theorem stop_ends_sending_midFrame : ∃ w : World Bool Empty Bytes,
    Relation.ReflTransGen (Step (SendSocket.accepting Empty)) { midFrame with stop := true } w ∧
      w.holder = none ∧ w.shared.sock = [0, 1, 0, 0, 0, 2, 1, 7] ∧
      Threads.doneBy .runOnce w.returned = [false] ∧
      ∀ t ∈ Threads.doneBy .runOnce w.returned, midFrame.toThreads.Under t .runOnce := by
  let sock := SendSocket.accepting Empty
  have hother : Step sock { midFrame with stop := true } { midFrame with stop := true } :=
    .stopped true ⟨rfl, fun x hx => by cases hx; nofun⟩ rfl
  have hwritten := (Relation.ReflTransGen.single hother).tail (.inside (.move rfl rfl))
  have hcut := hwritten.tail (.inside (.move rfl rfl))
  have hrun := hcut.tail (.inside (.release rfl rfl))
  obtain ⟨⟨later, hlater, -, hdone⟩, -⟩ := stop_ends_sending (reachable_midFrame.tail .stop) rfl hrun
  cases hlater
  exact ⟨_, hrun, rfl, rfl, rfl, hdone⟩

end SharedSender

end Pyomb
