import Pyomb.Runs
import Pyomb.Simulators.Client

/-! The client and a peer that answers any request it has received, at any later time, in
any order, any number of times or never. Requests are counted as they claim their
identifiers, so a request is a number and its identifier that number modulo `2 ^ 16`. The
counter, the pending identifier and the replies in flight stay related in every run, and
a reply within the last `65535` requests then matches the pending identifier only if it
answers the pending request. -/

namespace Pyomb

open ModbusClientSimulator

/-- A readable response frame, and the number of the request whose identifier it echoes. -/
structure Reply where
  answers : ℕ
  frame : Bytes
  response : ModbusTcpResponse
  reads : ModbusTcpResponse.deserialize frame = .ok response
  echoes : response.header.transId = (answers % transIdModulo : ℕ)

def wire (replies : List Reply) : Bytes := (replies.map Reply.frame).flatten

/-- The client, how many identifiers it has claimed, the requests the peer has received,
the replies still in flight, and whether the peer has closed behind them. -/
structure World where
  client : ModbusClientSimulator := {}
  claimed : ℕ := 0
  received : List ℕ := []
  inFlight : List Reply := []
  closed : Bool := false

namespace World

inductive Step : World → World → Prop
  /-- `send_request` raises before it claims an identifier. -/
  | refuse {w : World} {ε σ : Type} {sock : SendSocket ε σ} {fragSize unitId fc : ℤ}
      {args : SendArgs} {r : Except (Exc ε) Unit} {s s' : σ}
      (h : sendRequest sock fragSize unitId fc args w.client s = (r, w.client, s')) : Step w w
  /-- `send_request` claims an identifier; the peer receives the request, or does not. -/
  | request {w : World} {ε σ : Type} {sock : SendSocket ε σ} {fragSize unitId fc : ℤ}
      {args : SendArgs} {r : Except (Exc ε) Unit} {c' : ModbusClientSimulator} {s s' : σ}
      (h : sendRequest sock fragSize unitId fc args w.client s = (r, c', s'))
      (hc : c' ≠ w.client) (delivered : Bool) :
      Step w { w with
        client := c'
        claimed := w.claimed + 1
        received := if delivered then w.claimed :: w.received else w.received }
  /-- The peer answers a request it has received. -/
  | reply {w : World} (q : Reply) (hq : q.answers ∈ w.received) (hopen : w.closed = false) :
      Step w { w with inFlight := w.inFlight ++ [q] }
  | close {w : World} : Step w { w with closed := true }
  /-- `wait_response`, which reads the close only where there is one. -/
  | wait {w : World} {σ : Type} {sock : Source Empty σ}
      {r : Except (Exc Empty) (Option ModbusTcpResponse)} {c' : ModbusClientSimulator} {s s' : σ}
      (n : ℕ) (hs : sock.unread s = wire w.inFlight)
      (h : waitResponse sock w.client s = some (r, c', s'))
      (hleft : sock.unread s' = wire (w.inFlight.drop n))
      (hclosed : r = .ok none → w.closed = true) :
      Step w { w with client := c', inFlight := w.inFlight.drop n }

def Reachable (w : World) : Prop := Relation.ReflTransGen Step {} w

structure Inv (w : World) : Prop where
  next : w.client.nextTransId = w.claimed % transIdModulo
  pending : ∀ transId, w.client.pendingTransId = some transId →
    0 < w.claimed ∧ transId = (w.claimed - 1) % transIdModulo
  received : ∀ n ∈ w.received, n < w.claimed
  inFlight : ∀ q ∈ w.inFlight, q.answers < w.claimed

end World

/-! ### What waiting does to the client -/

theorem waitLoop_client {ε σ : Type} {sock : Source ε σ} {n : ℕ} {c c' : ModbusClientSimulator}
    {s s' : σ} {r : Except (Exc ε) (Option ModbusTcpResponse)}
    (h : waitLoop sock n c s = some (r, c', s')) :
    c'.nextTransId = c.nextTransId ∧
      (c'.pendingTransId = c.pendingTransId ∨ c'.pendingTransId = none) := by
  induction n generalizing s with
  | zero =>
    cases h
    exact ⟨rfl, .inl rfl⟩
  | succ n ih =>
    have hkeep {r' : Except (Exc ε) (Option ModbusTcpResponse)} {s₁ : σ}
        (heq : some (r', c, s₁) = some (r, c', s')) :
        c'.nextTransId = c.nextTransId ∧
          (c'.pendingTransId = c.pendingTransId ∨ c'.pendingTransId = none) := by
      cases heq
      exact ⟨rfl, .inl rfl⟩
    rw [waitLoop] at h
    split at h
    · cases h
    · exact hkeep h
    · exact hkeep h
    split at h
    · exact hkeep h
    split at h
    · exact hkeep h
    split_ifs at h
    · cases h
      exact ⟨rfl, .inr rfl⟩
    · exact ih h

def Reply.transId (q : Reply) : ℕ := q.answers % transIdModulo

/-- Waiting for an identifier over replies back to back: the first that carries it, or as
many as may be read without it, or all of them and then the close. -/
theorem waitLoop_replies {σ : Type} (sock : Source Empty σ) {c : ModbusClientSimulator}
    {transId : ℕ} (hp : c.pendingTransId = some transId) (n : ℕ) {replies : List Reply} {s : σ}
    (hs : sock.unread s = wire replies) :
    (∃ earlier q later s', replies = earlier ++ q :: later ∧ earlier.length < n ∧
      (∀ p ∈ earlier, p.transId ≠ transId) ∧ q.transId = transId ∧
      waitLoop sock n c s = some (.ok (some q.response), { c with pendingTransId := none }, s') ∧
      sock.unread s' = wire later) ∨
    (∃ msg s', n ≤ replies.length ∧ (∀ p ∈ replies.take n, p.transId ≠ transId) ∧
      waitLoop sock n c s = some (.error (.network msg none), c, s') ∧
      sock.unread s' = wire (replies.drop n)) ∨
    ∃ s', replies.length < n ∧ (∀ p ∈ replies, p.transId ≠ transId) ∧
      waitLoop sock n c s = some (.ok none, c, s') ∧ sock.unread s' = [] := by
  induction n generalizing replies s with
  | zero => exact .inr (.inl ⟨_, s, by omega, by simp, rfl, by simpa using hs⟩)
  | succ n ih =>
    rcases replies with _ | ⟨q, replies⟩
    · obtain ⟨s', hr, hs'⟩ := ModbusTcpStream.receive_nil sock (le_refl 0) hs
      exact .inr (.inr ⟨s', by simp, by simp, by simp only [waitLoop, hr], hs'⟩)
    obtain ⟨s', hr, hs'⟩ := ModbusTcpStream.receive_frame sock (le_refl 0) (responseFrame q.reads)
      (show _ = (responseFrame q.reads).bytes ++ wire replies from
        hs.trans (by simp [wire, responseFrame]))
    obtain ⟨b, data, hframe⟩ := List.exists_cons_of_ne_nil (responseFrame q.reads).ne_nil
    have hreads := q.reads
    rw [show q.frame = b :: data from hframe] at hreads
    have hloop : waitLoop sock (n + 1) c s =
        if q.transId = transId then
          some (.ok (some q.response), { c with pendingTransId := none }, s')
        else waitLoop sock n c s' := by
      have hecho : q.response.header.transId = (transId : ℤ) ↔ q.transId = transId := by
        rw [q.echoes, Nat.cast_inj]; rfl
      simp only [waitLoop, hr, hframe, hreads, hp, hecho]
    by_cases hq : q.transId = transId
    · rw [if_pos hq] at hloop
      exact .inl ⟨[], q, replies, s', rfl, by simp, by simp, hq, hloop, hs'⟩
    rw [if_neg hq] at hloop
    rw [hloop]
    rcases ih hs' with ⟨earlier, p, later, s₂, hsplit, hlt, hne, hp', hw, hs₂⟩ |
      ⟨msg, s₂, hle, hne, hw, hs₂⟩ | ⟨s₂, hlt, hne, hw, hs₂⟩
    · exact .inl ⟨q :: earlier, p, later, s₂, by rw [hsplit]; rfl, by simpa using hlt,
        by simpa [hq] using hne, hp', hw, hs₂⟩
    · exact .inr (.inl ⟨msg, s₂, by simpa using hle, by simpa [hq] using hne, hw, hs₂⟩)
    · exact .inr (.inr ⟨s₂, by simpa using hlt, by simpa [hq] using hne, hw, hs₂⟩)

/-! ### Every run -/

namespace World

theorem Inv.init : Inv {} where
  next := rfl
  pending := nofun
  received _ h := absurd h List.not_mem_nil
  inFlight _ h := absurd h List.not_mem_nil

theorem Inv.step {w w' : World} (h : Inv w) (hs : Step w w') : Inv w' := by
  cases hs with
  | refuse => exact h
  | request hsend hc delivered =>
    obtain rfl := (sendRequest_client hsend).resolve_left hc
    refine ⟨?_, ?_, ?_, fun q hq => (h.inFlight q hq).trans (Nat.lt_succ_self _)⟩
    · show (w.client.nextTransId + 1) % transIdModulo = (w.claimed + 1) % transIdModulo
      rw [h.next, Nat.mod_add_mod]
    · rintro transId htrans
      obtain rfl := Option.some.inj htrans
      exact ⟨Nat.succ_pos _, by rw [h.next, Nat.add_sub_cancel]⟩
    · intro n hn
      cases delivered with
      | false => exact (h.received n hn).trans (Nat.lt_succ_self _)
      | true =>
        rcases List.mem_cons.mp hn with rfl | hn
        · exact Nat.lt_succ_self _
        · exact (h.received n hn).trans (Nat.lt_succ_self _)
  | reply q hq hopen =>
    refine ⟨h.next, h.pending, h.received, fun p hp => ?_⟩
    rcases List.mem_append.mp hp with hp | hp
    · exact h.inFlight p hp
    · obtain rfl := List.mem_singleton.mp hp
      exact h.received _ hq
  | close => exact ⟨h.next, h.pending, h.received, h.inFlight⟩
  | wait n hs hwait hleft hclosed =>
    obtain ⟨hnext, hpend⟩ := waitLoop_client hwait
    refine ⟨hnext.trans h.next, fun transId htrans => ?_, h.received,
      fun q hq => h.inFlight q (List.mem_of_mem_drop hq)⟩
    rcases hpend with hpend | hpend
    · exact h.pending transId (hpend ▸ htrans)
    · rw [hpend] at htrans
      cases htrans

theorem Inv.of_reachable {w : World} (h : Reachable w) : Inv w :=
  @invariant_of_run World Step Inv (fun _ _ => Inv.step) _ _ Inv.init h

/-- Within the window, a reply carries the pending identifier exactly where it answers the
last request. -/
theorem Inv.transId_eq_iff {w : World} (h : Inv w) {transId : ℕ}
    (hp : w.client.pendingTransId = some transId) {q : Reply} (hq : q ∈ w.inFlight)
    (hwindow : w.claimed ≤ q.answers + 1 + 65535) :
    q.transId = transId ↔ q.answers + 1 = w.claimed := by
  obtain ⟨hpos, rfl⟩ := h.pending _ hp
  have hlt := h.inFlight q hq
  have hmod : transIdModulo = 65536 := rfl
  rw [Reply.transId, hmod]
  omega

/-- In every run, where a request is pending and every frame in flight answers one of the
last `65535` requests before it or the request itself, `wait_response` returns only an
answer to the last request, discards only answers to others, and reads at most
`MAX_STALE_RESPONSES + 1` frames: the first answer among those, an error after all of
them, or nothing where the close comes first. -/
theorem waitResponse_correlates {w : World} (hw : Reachable w)
    (hp : w.client.pendingTransId ≠ none)
    (hwindow : ∀ q ∈ w.inFlight, w.claimed ≤ q.answers + 1 + 65535)
    {σ : Type} (sock : Source Empty σ) {s : σ} (hs : sock.unread s = wire w.inFlight) :
    ∃ r c' s', waitResponse sock w.client s = some (r, c', s') ∧
      ((∃ earlier q later, w.inFlight = earlier ++ q :: later ∧
          earlier.length < maxStaleResponses + 1 ∧ (∀ p ∈ earlier, p.answers + 1 < w.claimed) ∧
          q.answers + 1 = w.claimed ∧ r = .ok (some q.response) ∧ sock.unread s' = wire later) ∨
        (∃ msg, maxStaleResponses + 1 ≤ w.inFlight.length ∧
          (∀ p ∈ w.inFlight.take (maxStaleResponses + 1), p.answers + 1 < w.claimed) ∧
          r = .error (.network msg none) ∧
          sock.unread s' = wire (w.inFlight.drop (maxStaleResponses + 1))) ∨
        (w.inFlight.length < maxStaleResponses + 1 ∧
          (∀ p ∈ w.inFlight, p.answers + 1 < w.claimed) ∧ r = .ok none ∧ sock.unread s' = [])) ∧
      ((∃ response, r = .ok (some response)) ↔
        ∃ q ∈ w.inFlight.take (maxStaleResponses + 1), q.answers + 1 = w.claimed) := by
  have hinv := Inv.of_reachable hw
  obtain ⟨transId, hid⟩ := Option.ne_none_iff_exists'.mp hp
  have hiff := fun q hq => hinv.transId_eq_iff hid hq (hwindow q hq)
  have hlt : ∀ q ∈ w.inFlight, q.transId ≠ transId → q.answers + 1 < w.claimed :=
    fun q hq hne => lt_of_le_of_ne (hinv.inFlight q hq) fun he => hne ((hiff q hq).mpr he)
  rcases waitLoop_replies sock hid (maxStaleResponses + 1) hs with
    ⟨earlier, q, later, s', hsplit, hlen, hne, hq, hwait, hs'⟩ | ⟨msg, s', hlen, hne, hwait, hs'⟩ |
    ⟨s', hlen, hne, hwait, hs'⟩
  · have hmem : q ∈ w.inFlight := by simp [hsplit]
    have hans := (hiff q hmem).mp hq
    refine ⟨_, _, s', hwait, .inl ⟨earlier, q, later, hsplit, hlen, fun p hp => ?_, hans, rfl, hs'⟩,
      fun _ => ⟨q, ?_, hans⟩, fun _ => ⟨_, rfl⟩⟩
    · exact hlt p (by simp [hsplit, hp]) (hne p hp)
    · rw [hsplit, List.take_append, List.mem_append]
      obtain ⟨k, hk⟩ : ∃ k, maxStaleResponses + 1 - earlier.length = k + 1 :=
        ⟨maxStaleResponses - earlier.length, by omega⟩
      simp [hk]
  · have hold : ∀ p ∈ w.inFlight.take (maxStaleResponses + 1), p.answers + 1 < w.claimed :=
      fun p hp => hlt p (List.mem_of_mem_take hp) (hne p hp)
    refine ⟨_, _, s', hwait, .inr (.inl ⟨msg, hlen, hold, rfl, hs'⟩), by simp, ?_⟩
    rintro ⟨q, hq, hans⟩
    exact absurd hans (hold q hq).ne
  · have hold : ∀ p ∈ w.inFlight, p.answers + 1 < w.claimed := fun p hp => hlt p hp (hne p hp)
    refine ⟨_, _, s', hwait, .inr (.inr ⟨hlen, hold, rfl, hs'⟩), by simp, ?_⟩
    rintro ⟨q, hq, hans⟩
    exact absurd hans (hold q (List.mem_of_mem_take hq)).ne

/-- The answers to the first two requests, an exception status of zero each. -/
def firstReply : Reply where
  answers := 0
  frame := [0, 0, 0, 0, 0, 3, 1, 7, 0]
  response := ⟨⟨0, 0, 3, 1⟩, .modbusResponseFC7 0⟩
  reads := rfl
  echoes := rfl

def secondReply : Reply where
  answers := 1
  frame := [0, 1, 0, 0, 0, 3, 1, 7, 0]
  response := ⟨⟨1, 0, 3, 1⟩, .modbusResponseFC7 0⟩
  reads := rfl
  echoes := rfl

/-- Both on their way, the first one twice. -/
def staleAhead : World where
  client := ⟨2, some 1⟩
  claimed := 2
  received := [1, 0]
  inFlight := [firstReply, firstReply, secondReply]

theorem reachable_staleAhead : Reachable staleAhead := by
  have hfirst : Step {} ⟨⟨1, some 0⟩, 1, [0], [], false⟩ := .request (w := {})
    (rfl : sendRequest (.accepting Empty) 0 1 7 {} {} [] =
      (.ok (), ⟨1, some 0⟩, [0, 0, 0, 0, 0, 2, 1, 7])) (by decide) true
  have hsecond : Step ⟨⟨1, some 0⟩, 1, [0], [], false⟩ ⟨⟨2, some 1⟩, 2, [1, 0], [], false⟩ :=
    .request (w := ⟨⟨1, some 0⟩, 1, [0], [], false⟩)
      (rfl : sendRequest (.accepting Empty) 0 1 7 {} ⟨1, some 0⟩ [] =
        (.ok (), ⟨2, some 1⟩, [0, 1, 0, 0, 0, 2, 1, 7])) (by decide) true
  have hsent : Reachable ⟨⟨2, some 1⟩, 2, [1, 0], [], false⟩ := .tail (.single hfirst) hsecond
  exact .tail (.tail (.tail hsent (.reply firstReply (by decide) rfl))
    (.reply firstReply (by decide) rfl)) (.reply secondReply (by decide) rfl)

def staleSegments : List (Source.Arrival Empty) :=
  [.segment [0, 0, 0], .segment [0, 0, 3, 1, 7, 0, 0, 0, 0, 0], .segment [0, 3, 1, 7, 0, 0, 1],
    .segment [0, 0, 0, 3, 1, 7, 0]]

/-- The client reads past the first two frames. -/
theorem waitResponse_correlates_status : ∃ c' s',
    waitResponse (Source.arriving Empty) ⟨2, some 1⟩ staleSegments =
      some (.ok (some secondReply.response), c', s') := by
  obtain ⟨r, c', s', hwait, h, -⟩ := waitResponse_correlates reachable_staleAhead nofun
    (fun q _ => by show 2 ≤ _; omega) (Source.arriving Empty) (s := staleSegments) rfl
  rcases h with ⟨earlier, q, later, hsplit, -, -, hlast, rfl, -⟩ | ⟨msg, hlen, -⟩ | ⟨-, hold, -⟩
  · have hq : q ∈ [firstReply, firstReply, secondReply] := by
      rw [show [firstReply, firstReply, secondReply] = earlier ++ q :: later from hsplit]
      simp
    simp only [List.mem_cons, List.not_mem_nil, or_false] at hq
    rcases hq with rfl | rfl | rfl
    · exact absurd hlast (by decide)
    · exact absurd hlast (by decide)
    · exact ⟨c', s', hwait⟩
  · exact absurd hlen (by decide)
  · exact absurd (hold secondReply (by simp [staleAhead])) (lt_irrefl 2)

end World

end Pyomb
