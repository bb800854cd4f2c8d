import Pyomb.Simulators.Client

/-! Replies to requests the client has given up on. `wait_response` decodes a frame before
it compares its identifier with the pending one, so two streams that differ only inside
frames it is about to drop are told apart by whether those frames are responses at all. -/

namespace Pyomb

open ModbusClientSimulator

def TcpFrame.transId (f : TcpFrame) : ℕ := Struct.Code.H.decode (f.bytes.take 2)

theorem TcpFrame.transId_of_header {f g : TcpFrame}
    (h : f.bytes.take headerSize = g.bytes.take headerSize) : f.transId = g.transId := by
  have htake := congrArg (List.take 2) h
  rw [List.take_take, List.take_take] at htake
  exact congrArg Struct.Code.H.decode htake

theorem transId_of_deserialize {f : TcpFrame} {response : ModbusTcpResponse}
    (h : ModbusTcpResponse.deserialize f.bytes = .ok response) :
    response.header.transId = f.transId := by
  obtain ⟨hd, -⟩ := TcpAdu.readHeader_eq_ok.mp (TcpAdu.deserialize_eq_ok.mp h).1
  obtain ⟨-, hv⟩ := Struct.unpack_eq_ok.mp (ModbusHeader.deserialize_eq_ok.mp hd)
  simp only [ModbusHeader.headerFmt, Struct.unpackItems, List.cons.injEq] at hv
  rw [hv.1, List.take_take]
  rfl

/-- What comes over a connection: a frame, or an error the socket raises between two. -/
inductive Item (ε : Type) where
  | frame (f : TcpFrame)
  | raise (e : ε)
  deriving DecidableEq

namespace Item

variable {ε : Type} {transId n : ℕ}

def events : List (Item ε) → List (UInt8 ⊕ ε)
  | [] => []
  | frame f :: is => f.bytes.map .inl ++ events is
  | raise e :: is => .inr e :: events is

/-- One header, and one PDU where the identifier is the pending one; or one error. -/
def Alike (transId : ℕ) : Item ε → Item ε → Prop
  | frame f, frame g => f.bytes.take headerSize = g.bytes.take headerSize ∧
      (f.transId = transId → f.bytes = g.bytes)
  | raise e, raise e' => e = e'
  | _, _ => False

/-- The first of the frames to be dropped that is not a response: how many more frames could
have been read behind it, and why it is refused. -/
def firstRefusal (transId : ℕ) : ℕ → List (Item ε) → Option (ℕ × PacketError)
  | n + 1, frame f :: is =>
    if f.transId = transId then none
    else
      match ModbusTcpResponse.deserialize f.bytes with
      | .error e => some (n, e)
      | .ok _ => firstRefusal transId n is
  | _, _ => none

theorem events_append (is js : List (Item ε)) : events (is ++ js) = events is ++ events js := by
  induction is with
  | nil => rfl
  | cons i is ih => cases i <;> simp [events, ih]

theorem events_eq_nil {is : List (Item ε)} : events is = [] ↔ is = [] := by
  rcases is with _ | ⟨f | e, is⟩ <;> simp [events, TcpFrame.ne_nil]

/-- The stream with every frame in a segment of its own. -/
def arrivals (is : List (Item ε)) : List (Source.Arrival ε) :=
  is.map fun
    | frame f => .segment f.bytes
    | raise e => .raise e

theorem events_arrivals (is : List (Item ε)) : Source.Arrival.events (arrivals is) = events is := by
  induction is with
  | nil => rfl
  | cons i is ih => cases i <;> exact congrArg _ ih

/-- No two places in a stream have the same still to come. -/
theorem eq_of_events {is js ks : List (Item ε)} (hjs : js <:+ is) (hks : ks <:+ is)
    (h : events js = events ks) : js = ks := by
  rcases List.suffix_or_suffix_of_suffix hjs hks with ⟨t, rfl⟩ | ⟨t, rfl⟩
  · rw [events_append, List.self_eq_append_left, events_eq_nil] at h
    rw [h, List.nil_append]
  · rw [events_append, List.append_left_eq_self, events_eq_nil] at h
    rw [h, List.nil_append]

end Item

namespace ModbusClientSimulator

variable {ε : Type}

/-- The loop of `wait_response` over what comes, with what it leaves to come. -/
def waitItems : ℕ → ModbusClientSimulator → List (Item ε) →
    Except (Exc ε) (Option ModbusTcpResponse) × ModbusClientSimulator × List (Item ε)
  | 0, c, is =>
    (.error (.network ("Received " ++ toString (maxStaleResponses + 1) ++
      " consecutive responses that do not answer transaction " ++
      (c.pendingTransId.map toString).getD "None") none), c, is)
  | _ + 1, c, [] => (.ok none, c, [])
  | _ + 1, c, .raise e :: is =>
    (.error (.network "Error receiving Modbus message: " (some e)), c, is)
  | n + 1, c, .frame f :: is =>
    match ModbusTcpResponse.deserialize f.bytes with
    | .error e => (.error (.packet e), c, is)
    | .ok response =>
      match c.pendingTransId with
      | none => (.ok (some response), c, is)
      | some transId =>
        if response.header.transId = transId then
          (.ok (some response), { c with pendingTransId := none }, is)
        else waitItems n c is

end ModbusClientSimulator

/-! ### From bytes to frames -/

namespace ModbusTcpStream

open Source

variable {ε : Type} {as : List (Arrival ε)} {rest : List (UInt8 ⊕ ε)}

/-- Unfragmented, the PDU is one exact read. -/
theorem receivePdu_whole {σ : Type} {sock : Source ε σ} (total : ℕ) {n : ℕ} {s s' : σ}
    {chunk : Bytes} (h : sock.exactly n [] s = (.ok chunk, s')) (hl : chunk.length = n) :
    ∃ fragments, receivePdu sock 0 total n n [] s = some (.ok fragments, s') ∧
      fragments.flatten = chunk := by
  rcases n with _ | n
  · rw [exactly_zero] at h
    cases h
    exact ⟨[], rfl, rfl⟩
  · have hchunk : chunkSize 0 (n + 1) = (n + 1 : ℕ) := rfl
    refine ⟨[chunk], ?_, by simp⟩
    simp only [receivePdu, hchunk, recvExactly, Int.toNat_natCast, h]
    rw [if_neg (by omega), hl, Nat.sub_self]
    cases n <;> rfl

theorem receive_frame_events {f : TcpFrame} (h : Arrival.events as = f.bytes.map .inl ++ rest) :
    ∃ as', receive (.arriving ε) 0 as = some (.ok f.bytes, as') ∧ Arrival.events as' = rest := by
  have hlen := f.length_eq
  have hle := f.header_le
  have hsize := headerSize_eq
  have hl : (f.bytes.take headerSize).length = headerSize := by rw [List.length_take]; omega
  have hne : f.bytes.take headerSize ≠ [] := List.ne_nil_of_length_pos (by omega)
  rw [← List.take_append_drop headerSize f.bytes, List.map_append, List.append_assoc] at h
  obtain ⟨as₁, hheader, has₁⟩ := Arrival.exactly_events h []
  obtain ⟨as₂, hpdu, has₂⟩ := Arrival.exactly_events has₁ []
  rw [hl, List.nil_append] at hheader
  rw [List.nil_append] at hpdu
  obtain ⟨fragments, hfragments, hflat⟩ :=
    receivePdu_whole (f.bytes.drop headerSize).length hpdu rfl
  have hlength : pduLength (f.bytes.take headerSize) = .ok ((mbapLength f.bytes : ℤ) - 1) := by
    have hcases := pduLength_cases hl
    rw [mbapLength_take] at hcases
    exact (hcases.resolve_left fun h0 => by omega).2
  have hcount : ((mbapLength f.bytes : ℤ) - 1).toNat = (f.bytes.drop headerSize).length := by
    rw [List.length_drop]
    omega
  have hframe : ModbusFragmenter.assemble (f.bytes.take headerSize :: fragments) = f.bytes := by
    rw [ModbusFragmenter.assemble, List.flatten_cons, hflat, List.take_append_drop]
  refine ⟨as₂, ?_, has₂⟩
  unfold receive receiveFrame receiveHeader recvExactly
  rw [Int.toNat_natCast, hheader]
  dsimp only
  rw [if_neg hne, if_neg (by omega)]
  dsimp only
  rw [if_neg hne, hlength]
  dsimp only
  rw [hcount, hfragments, Option.map_some, Option.map_some]
  dsimp only
  rw [hframe]
  rfl

theorem receive_raise_events {e : ε} (h : Arrival.events as = .inr e :: rest) :
    ∃ as', receive (.arriving ε) 0 as =
      some (.error (.network "Error receiving Modbus message: " (some e)), as') ∧
      Arrival.events as' = rest := by
  obtain ⟨as', hread, has'⟩ := Arrival.exactly_raise h (show 0 < headerSize by decide) []
  refine ⟨as', ?_, has'⟩
  unfold receive receiveFrame receiveHeader recvExactly
  rw [Int.toNat_natCast, hread]
  rfl

theorem receive_end_events (h : Arrival.events as = []) :
    ∃ as', receive (.arriving ε) 0 as = some (.ok [], as') ∧ Arrival.events as' = [] := by
  obtain ⟨as', hread, has'⟩ := Arrival.exactly_end h (show 0 < headerSize by decide) []
  refine ⟨as', ?_, has'⟩
  unfold receive receiveFrame receiveHeader recvExactly
  rw [Int.toNat_natCast, hread]
  rfl

end ModbusTcpStream

namespace ModbusClientSimulator

open Source

variable {ε : Type} {transId n : ℕ} {c : ModbusClientSimulator} {is js : List (Item ε)}
  {as bs : List (Arrival ε)}

/-- The loop does not see how the bytes are cut. -/
theorem waitLoop_events (h : Arrival.events as = Item.events is) :
    ∃ as', waitLoop (.arriving ε) n c as =
        some ((waitItems n c is).1, (waitItems n c is).2.1, as') ∧
      Arrival.events as' = Item.events (waitItems n c is).2.2 := by
  induction n generalizing is as with
  | zero => exact ⟨as, rfl, h⟩
  | succ n ih =>
    rw [waitLoop]
    rcases is with _ | ⟨f | e, is⟩
    · obtain ⟨as', hr, has'⟩ := ModbusTcpStream.receive_end_events h
      exact ⟨as', by rw [hr]; rfl, has'⟩
    · obtain ⟨as', hr, has'⟩ := ModbusTcpStream.receive_frame_events h
      obtain ⟨b, data, hdata⟩ := List.exists_cons_of_ne_nil f.ne_nil
      rw [hr, waitItems, hdata]
      dsimp only
      cases ModbusTcpResponse.deserialize (b :: data) with
      | error e => exact ⟨as', rfl, has'⟩
      | ok response =>
        dsimp only
        cases c.pendingTransId with
        | none => exact ⟨as', rfl, has'⟩
        | some transId =>
          dsimp only
          split_ifs
          · exact ⟨as', rfl, has'⟩
          · exact ih has'
    · obtain ⟨as', hr, has'⟩ := ModbusTcpStream.receive_raise_events h
      exact ⟨as', by rw [hr]; rfl, has'⟩

theorem waitItems_suffix (n : ℕ) (c : ModbusClientSimulator) (is : List (Item ε)) :
    (waitItems n c is).2.2 <:+ is := by
  induction n generalizing is with
  | zero => exact List.suffix_rfl
  | succ n ih =>
    rcases is with _ | ⟨f | e, is⟩
    · exact List.suffix_rfl
    · rw [waitItems]
      split
      · exact List.suffix_cons _ _
      split
      · exact List.suffix_cons _ _
      split_ifs
      · exact List.suffix_cons _ _
      · exact (ih is).trans (List.suffix_cons _ _)
    · exact List.suffix_cons _ _

/-! ### Two streams -/

theorem waitItems_packet {e : PacketError} (h : (waitItems n c is).1 = .error (.packet e)) :
    (waitItems n c is).2.2.length < is.length := by
  rcases n with _ | n
  · cases h
  rcases is with _ | ⟨f | e, is⟩
  · cases h
  · rw [waitItems] at h ⊢
    split at h
    · exact Nat.lt_succ_self _
    split at h
    · cases h
    split_ifs at h ⊢
    have := (waitItems_suffix n c is).length_le
    exact Nat.lt_succ_of_le this
  · cases h

theorem Item.firstRefusal_lt {m : ℕ} {e : PacketError}
    (h : Item.firstRefusal transId n is = some (m, e)) : m < n := by
  induction n generalizing is with
  | zero => cases h
  | succ n ih =>
    rcases is with _ | ⟨f | e, is⟩
    · cases h
    · rw [Item.firstRefusal] at h
      split_ifs at h
      split at h
      · cases h
        exact Nat.lt_succ_self m
      · exact (ih h).trans (Nat.lt_succ_self n)
    · cases h

/-- The two waits end alike and leave as much. -/
def EndAlike (n : ℕ) (c : ModbusClientSimulator) (is js : List (Item ε)) : Prop :=
  (waitItems n c is).1 = (waitItems n c js).1 ∧ (waitItems n c is).2.1 = (waitItems n c js).2.1 ∧
    (waitItems n c is).2.2.length = (waitItems n c js).2.2.length

theorem waitItems_refused {f : TcpFrame} {e : PacketError}
    (h : ModbusTcpResponse.deserialize f.bytes = .error e) :
    waitItems (n + 1) c (.frame f :: is) = (.error (.packet e), c, is) := by
  rw [waitItems, h]

theorem waitItems_dropped (hc : c.pendingTransId = some transId) {f : TcpFrame}
    (hf : f.transId ≠ transId) {response : ModbusTcpResponse}
    (h : ModbusTcpResponse.deserialize f.bytes = .ok response) :
    waitItems (n + 1) c (.frame f :: is) = waitItems n c is := by
  have hne : response.header.transId ≠ transId := by
    rw [transId_of_deserialize h]
    exact fun heq => hf (Int.ofNat_inj.mp heq)
  rw [waitItems, h, hc]
  exact if_neg hne

theorem waitItems_answered (hc : c.pendingTransId = some transId) {f : TcpFrame}
    (hf : f.transId = transId) {response : ModbusTcpResponse}
    (h : ModbusTcpResponse.deserialize f.bytes = .ok response) :
    waitItems (n + 1) c (.frame f :: is) =
      (.ok (some response), { c with pendingTransId := none }, is) := by
  have heq : response.header.transId = transId := by rw [transId_of_deserialize h, hf]
  rw [waitItems, h, hc]
  exact if_pos heq

theorem EndAlike.symm (h : EndAlike n c is js) : EndAlike n c js is :=
  ⟨h.1.symm, h.2.1.symm, h.2.2.symm⟩

theorem not_endAlike_of_refused (hc : c.pendingTransId = some transId) {f g : TcpFrame}
    (hf : f.transId ≠ transId) (hg : g.transId ≠ transId) (hlen : is.length = js.length)
    {e : PacketError} (hrefused : ModbusTcpResponse.deserialize f.bytes = .error e)
    {response : ModbusTcpResponse} (hread : ModbusTcpResponse.deserialize g.bytes = .ok response) :
    ¬ EndAlike (n + 1) c (.frame f :: is) (.frame g :: js) ∧
      Item.firstRefusal transId (n + 1) (.frame f :: is) ≠
        Item.firstRefusal transId (n + 1) (.frame g :: js) := by
  constructor
  · rintro ⟨hr, -, hleft⟩
    rw [waitItems_refused hrefused, waitItems_dropped hc hg hread] at hr hleft
    have := waitItems_packet hr.symm
    dsimp only at hleft
    omega
  · rw [Item.firstRefusal, Item.firstRefusal, if_neg hf, if_neg hg, hrefused, hread]
    exact fun heq => lt_irrefl n (Item.firstRefusal_lt heq.symm)

/-- At a frame to be dropped in both, the refusals decide, or what comes behind it. -/
theorem endAlike_stale_iff (hc : c.pendingTransId = some transId) {f g : TcpFrame}
    (hf : f.transId ≠ transId) (hg : g.transId ≠ transId) (hlen : is.length = js.length)
    (hrest : EndAlike n c is js ↔
      Item.firstRefusal transId n is = Item.firstRefusal transId n js) :
    EndAlike (n + 1) c (.frame f :: is) (.frame g :: js) ↔
      Item.firstRefusal transId (n + 1) (.frame f :: is) =
        Item.firstRefusal transId (n + 1) (.frame g :: js) := by
  cases hrf : ModbusTcpResponse.deserialize f.bytes with
  | error e =>
    cases hrg : ModbusTcpResponse.deserialize g.bytes with
    | error e' =>
      unfold EndAlike
      rw [waitItems_refused hrf, waitItems_refused hrg, Item.firstRefusal, Item.firstRefusal,
        if_neg hf, if_neg hg, hrf, hrg]
      simp [hlen]
    | ok response =>
      obtain ⟨hends, hrefusals⟩ := not_endAlike_of_refused (n := n) hc hf hg hlen hrf hrg
      exact iff_of_false hends hrefusals
  | ok response =>
    cases hrg : ModbusTcpResponse.deserialize g.bytes with
    | error e =>
      obtain ⟨hends, hrefusals⟩ := not_endAlike_of_refused (n := n) hc hg hf hlen.symm hrg hrf
      exact iff_of_false (fun h => hends h.symm) hrefusals.symm
    | ok response' =>
      unfold EndAlike
      rw [waitItems_dropped hc hf hrf, waitItems_dropped hc hg hrg, Item.firstRefusal,
        Item.firstRefusal, if_neg hf, if_neg hg, hrf, hrg]
      exact hrest

theorem endAlike_own (hc : c.pendingTransId = some transId) {f g : TcpFrame}
    (hf : f.transId = transId) (hg : g.transId = transId) (hbytes : f.bytes = g.bytes)
    (hlen : is.length = js.length) :
    EndAlike (n + 1) c (.frame f :: is) (.frame g :: js) := by
  unfold EndAlike
  cases hr : ModbusTcpResponse.deserialize f.bytes with
  | error e =>
    rw [waitItems_refused hr, waitItems_refused (hbytes ▸ hr)]
    exact ⟨rfl, rfl, hlen⟩
  | ok response =>
    rw [waitItems_answered hc hf hr, waitItems_answered hc hg (hbytes ▸ hr)]
    exact ⟨rfl, rfl, hlen⟩

theorem endAlike_iff (hc : c.pendingTransId = some transId)
    (h : List.Forall₂ (Item.Alike transId) is js) :
    EndAlike n c is js ↔ Item.firstRefusal transId n is = Item.firstRefusal transId n js := by
  induction n generalizing is js with
  | zero => exact iff_of_true ⟨rfl, rfl, h.length_eq⟩ rfl
  | succ n ih =>
    cases h with
    | nil => exact iff_of_true ⟨rfl, rfl, rfl⟩ rfl
    | @cons i j is js hij h =>
      have hlen := h.length_eq
      rcases i with f | e <;> rcases j with g | e'
      · obtain ⟨hheader, hpdu⟩ := hij
        have htrans := TcpFrame.transId_of_header hheader
        by_cases hf : f.transId = transId
        · have hg : g.transId = transId := htrans ▸ hf
          refine iff_of_true (endAlike_own hc hf hg (hpdu hf) hlen) ?_
          rw [Item.firstRefusal, Item.firstRefusal, if_pos hf, if_pos hg]
        · exact endAlike_stale_iff hc hf (htrans ▸ hf) hlen (ih h)
      · exact hij.elim
      · exact hij.elim
      · obtain rfl : e = e' := hij
        exact iff_of_true ⟨rfl, rfl, hlen⟩ rfl

/-- Two streams that differ only inside frames whose identifier is not the pending one are
waited on alike, and left at the same place, exactly where the first of those frames that is
refused, if any, is at the same place in both and refused with the same error. -/
theorem waitResponse_stale_iff (hc : c.pendingTransId = some transId)
    (h : List.Forall₂ (Item.Alike transId) is js) (has : Arrival.events as = Item.events is)
    (hbs : Arrival.events bs = Item.events js) :
    (∃ r c' as' bs' k, waitResponse (.arriving ε) c as = some (r, c', as') ∧
      waitResponse (.arriving ε) c bs = some (r, c', bs') ∧
      Arrival.events as' = Item.events (is.drop k) ∧
      Arrival.events bs' = Item.events (js.drop k)) ↔
    Item.firstRefusal transId (maxStaleResponses + 1) is =
      Item.firstRefusal transId (maxStaleResponses + 1) js := by
  obtain ⟨as₁, ha, has₁⟩ := waitLoop_events (n := maxStaleResponses + 1) (c := c) has
  obtain ⟨bs₁, hb, hbs₁⟩ := waitLoop_events (n := maxStaleResponses + 1) (c := c) hbs
  have hsa := waitItems_suffix (maxStaleResponses + 1) c is
  have hsb := waitItems_suffix (maxStaleResponses + 1) c js
  rw [← endAlike_iff hc h]
  constructor
  · rintro ⟨r, c', as', bs', k, hra, hrb, hka, hkb⟩
    rw [waitResponse, ha, Option.some.injEq, Prod.mk.injEq, Prod.mk.injEq] at hra
    rw [waitResponse, hb, Option.some.injEq, Prod.mk.injEq, Prod.mk.injEq] at hrb
    obtain ⟨hra, hca, rfl⟩ := hra
    obtain ⟨hrb, hcb, rfl⟩ := hrb
    refine ⟨hra.trans hrb.symm, hca.trans hcb.symm, ?_⟩
    rw [Item.eq_of_events hsa (List.drop_suffix k is) (has₁.symm.trans hka),
      Item.eq_of_events hsb (List.drop_suffix k js) (hbs₁.symm.trans hkb),
      List.length_drop, List.length_drop, h.length_eq]
  · rintro ⟨hr, hclient, hleft⟩
    refine ⟨_, _, as₁, bs₁, is.length - (waitItems (maxStaleResponses + 1) c is).2.2.length, ha,
      ?_, ?_, ?_⟩
    · rw [hr, hclient]
      exact hb
    · rw [← List.suffix_iff_eq_drop.mp hsa]
      exact has₁
    · rw [hleft, h.length_eq, ← List.suffix_iff_eq_drop.mp hsb]
      exact hbs₁

/-- A reply to the transaction before the pending one, of a PDU of two bytes, and the reply
that is waited for. -/
def lateThenOwn (fc status : UInt8) : List (Item Empty) :=
  [.frame ⟨[0, 0, 0, 0, 0, 3, 1, fc, status], Nat.le_add_right 7 2, rfl⟩,
    .frame ⟨[0, 1, 0, 0, 0, 3, 1, 7, 109], Nat.le_add_right 7 2, rfl⟩]

theorem lateThenOwn_alike (fc status fc' status' : UInt8) :
    List.Forall₂ (Item.Alike 1) (lateThenOwn fc status) (lateThenOwn fc' status') :=
  .cons ⟨rfl, fun h => absurd h (show 0 ≠ 1 by decide)⟩ (.cons ⟨rfl, fun _ => rfl⟩ .nil)

/-- Two statuses, neither of them the one that is waited for. -/
theorem waitResponse_stale_statuses : ∃ r c' as' bs' k,
    waitResponse (.arriving Empty) ⟨2, some 1⟩ (Item.arrivals (lateThenOwn 7 0)) =
      some (r, c', as') ∧
    waitResponse (.arriving Empty) ⟨2, some 1⟩ (Item.arrivals (lateThenOwn 7 1)) =
      some (r, c', bs') ∧
    Arrival.events as' = Item.events ((lateThenOwn 7 0).drop k) ∧
    Arrival.events bs' = Item.events ((lateThenOwn 7 1).drop k) :=
  (waitResponse_stale_iff rfl (lateThenOwn_alike 7 0 7 1) (Item.events_arrivals _)
    (Item.events_arrivals _)).mpr (by decide)

/-- A status, and a write of a coil that is three bytes short: the second ends the wait. -/
theorem waitResponse_stale_refused :
    List.Forall₂ (Item.Alike 1) (lateThenOwn 7 0) (lateThenOwn 5 0) ∧
    ¬ ∃ r c' as' bs' k,
      waitResponse (.arriving Empty) ⟨2, some 1⟩ (Item.arrivals (lateThenOwn 7 0)) =
        some (r, c', as') ∧
      waitResponse (.arriving Empty) ⟨2, some 1⟩ (Item.arrivals (lateThenOwn 5 0)) =
        some (r, c', bs') ∧
      Arrival.events as' = Item.events ((lateThenOwn 7 0).drop k) ∧
      Arrival.events bs' = Item.events ((lateThenOwn 5 0).drop k) := by
  refine ⟨lateThenOwn_alike 7 0 5 0, ?_⟩
  rintro ⟨r, c', as', bs', k, hread, hrefused, -⟩
  have hown : (waitResponse (.arriving Empty) ⟨2, some 1⟩
      (Item.arrivals (lateThenOwn 7 0))).map (fun w => w.2.1) = some ⟨2, none⟩ := by
    decide +kernel
  have hpending : (waitResponse (.arriving Empty) ⟨2, some 1⟩
      (Item.arrivals (lateThenOwn 5 0))).map (fun w => w.2.1) = some ⟨2, some 1⟩ := by
    decide +kernel
  rw [hread] at hown
  rw [hrefused] at hpending
  cases hown.symm.trans hpending

end ModbusClientSimulator

end Pyomb
