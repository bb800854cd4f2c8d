import Pyomb.Simulators.Timeouts

/-! What has arrived on a connection, and where it is kept. The kernel has segments, or the
records of a TLS session; a read over TLS takes a whole record out of it and keeps what it
does not hand over inside the TLS object. `select` looks at the kernel's buffer and nowhere
else. So a frame can be read at once and not be reported, once a record holds the ends of two
frames; and a connection can be reported of which no frame can be read yet. -/

namespace Pyomb

/-- What has become of a connection, as a read finds it: `aborted` is closed at this end. -/
inductive Fate where
  | alive | closed | reset | aborted
  deriving DecidableEq, Repr

/-- Why a read does not return: it waits for the peer, or it raises. -/
inductive Halt where
  | waits | raises
  deriving DecidableEq, Repr

def Fate.atEnd : Fate → Except Halt Bytes
  | .alive => .error .waits
  | .closed => .ok []
  | .reset | .aborted => .error .raises

theorem Fate.alive_of_waits {fate : Fate} (h : fate.atEnd = .error .waits) : fate = .alive := by
  cases fate <;> first | rfl | cases h

/-- What has arrived and is unread: inside the TLS object, and in the kernel. -/
structure Buffers where
  held : Bytes := []
  kernel : List Bytes := []
  deriving DecidableEq, Repr

namespace Buffers

def unread (b : Buffers) : Bytes := b.held ++ b.kernel.flatten

def pull : List Bytes → Option (Bytes × List Bytes)
  | [] => none
  | [] :: rs => pull rs
  | (x :: r) :: rs => some (x :: r, rs)

/-- `recv`, on a socket that blocks. -/
def read (tls : Bool) (fate : Fate) (b : Buffers) (n : ℕ) : Except Halt Bytes × Buffers :=
  if n = 0 then (.ok [], b)
  else if fate = .aborted then (.error .raises, b)
  else if b.held ≠ [] then (.ok (b.held.take n), { b with held := b.held.drop n })
  else if tls then
    match pull b.kernel with
    | some (r, rs) => (.ok (r.take n), ⟨r.drop n, rs⟩)
    | none => (fate.atEnd, {})
  else if b.kernel.flatten ≠ [] then
    (.ok (b.kernel.flatten.take n), ⟨[], [b.kernel.flatten.drop n]⟩)
  else (fate.atEnd, b)

theorem pull_eq_none {rs : List Bytes} (h : pull rs = none) : rs.flatten = [] := by
  induction rs using pull.induct with
  | case1 => rfl
  | case2 rs ih => exact ih h
  | case3 x r rs => cases h

theorem pull_eq_some {rs rs' : List Bytes} {r : Bytes} (h : pull rs = some (r, rs')) :
    r ≠ [] ∧ ∃ k, rs = List.replicate k [] ++ r :: rs' := by
  induction rs using pull.induct with
  | case1 => cases h
  | case2 rs ih =>
    obtain ⟨hne, k, rfl⟩ := ih h
    exact ⟨hne, k + 1, rfl⟩
  | case3 x r rs =>
    cases h
    exact ⟨List.cons_ne_nil _ _, 0, rfl⟩

theorem read_cases {tls : Bool} {fate : Fate} {b b' : Buffers} {n : ℕ} {r : Except Halt Bytes}
    (h : read tls fate b n = (r, b')) :
    (r = .ok [] ∧ n = 0 ∧ b' = b) ∨
    (r = .error .raises ∧ fate = .aborted ∧ b' = b) ∨
    (r = fate.atEnd ∧ b.unread = [] ∧ (b' = b ∨ tls = true ∧ b' = {})) ∨
    (0 < n ∧ b.held ≠ [] ∧ r = .ok (b.held.take n) ∧ b' = { b with held := b.held.drop n }) ∨
    (0 < n ∧ b.held = [] ∧ tls = true ∧ ∃ c k rs, c ≠ [] ∧
      b.kernel = List.replicate k [] ++ c :: rs ∧ r = .ok (c.take n) ∧ b' = ⟨c.drop n, rs⟩) ∨
    (0 < n ∧ b.held = [] ∧ tls = false ∧ b.kernel.flatten ≠ [] ∧
      r = .ok (b.kernel.flatten.take n) ∧ b' = ⟨[], [b.kernel.flatten.drop n]⟩) := by
  unfold read at h
  by_cases hn : n = 0
  · rw [if_pos hn] at h
    cases h
    exact .inl ⟨rfl, hn, rfl⟩
  rw [if_neg hn] at h
  have hpos := Nat.pos_of_ne_zero hn
  by_cases hfate : fate = .aborted
  · rw [if_pos hfate] at h
    cases h
    exact .inr (.inl ⟨rfl, hfate, rfl⟩)
  rw [if_neg hfate] at h
  by_cases hheld : b.held = []
  · rw [if_neg (not_not_intro hheld)] at h
    cases tls with
    | true =>
      rw [if_pos rfl] at h
      split at h
      next c rs hpull =>
        obtain ⟨hne, k, hk⟩ := pull_eq_some hpull
        cases h
        exact .inr (.inr (.inr (.inr (.inl ⟨hpos, hheld, rfl, c, k, rs, hne, hk, rfl, rfl⟩))))
      next hpull =>
        cases h
        exact .inr (.inr (.inl ⟨rfl, by simp [unread, hheld, pull_eq_none hpull], .inr ⟨rfl, rfl⟩⟩))
    | false =>
      rw [if_neg Bool.false_ne_true] at h
      split_ifs at h with hflat
      · cases h
        exact .inr (.inr (.inr (.inr (.inr ⟨hpos, hheld, rfl, hflat, rfl, rfl⟩))))
      · cases h
        exact .inr (.inr (.inl ⟨rfl, by simp [unread, hheld, not_not.mp hflat], .inl rfl⟩))
  · rw [if_pos hheld] at h
    cases h
    exact .inr (.inr (.inr (.inl ⟨hpos, hheld, rfl, rfl⟩)))

theorem unread_arrive (b : Buffers) (record : Bytes) :
    ({ b with kernel := b.kernel ++ [record] } : Buffers).unread = b.unread ++ record := by
  simp [unread]

theorem unread_record {c : Bytes} {k : ℕ} {rs : List Bytes} :
    (List.replicate k [] ++ c :: rs).flatten = c ++ rs.flatten := by
  simp

theorem read_ok {tls : Bool} {fate : Fate} {b b' : Buffers} {n : ℕ} {c : Bytes}
    (h : read tls fate b n = (.ok c, b')) : b.unread = c ++ b'.unread ∧ c.length ≤ n := by
  rcases read_cases h with ⟨hr, hn, rfl⟩ | ⟨hr, -⟩ | ⟨hr, hu, hb⟩ | ⟨-, -, hr, rfl⟩ |
    ⟨-, hheld, -, d, k, rs, -, hk, hr, rfl⟩ | ⟨-, hheld, -, -, hr, rfl⟩
  · cases hr
    exact ⟨rfl, Nat.zero_le _⟩
  · cases hr
  · have hc : c = [] := by
      cases fate <;> cases hr
      rfl
    have hu' : b'.unread = [] := by
      rcases hb with rfl | ⟨-, rfl⟩
      · exact hu
      · rfl
    rw [hc, hu, hu']
    exact ⟨rfl, Nat.zero_le _⟩
  all_goals
    cases hr
    refine ⟨?_, List.length_take_le _ _⟩
  · rw [unread, unread, ← List.append_assoc, List.take_append_drop]
  · rw [unread, unread, hheld, hk, unread_record, List.nil_append, ← List.append_assoc,
      List.take_append_drop]
  · rw [unread, unread, hheld, List.flatten_singleton, List.nil_append, List.nil_append,
      List.take_append_drop]

theorem read_nil {tls : Bool} {fate : Fate} {b b' : Buffers} {n : ℕ} (hpos : 0 < n)
    (h : read tls fate b n = (.ok [], b')) : b.unread = [] := by
  rcases read_cases h with ⟨-, hn, -⟩ | ⟨hr, -⟩ | ⟨-, hu, -⟩ | ⟨-, hne, hr, -⟩ |
    ⟨-, -, -, d, k, rs, hne, -, hr, -⟩ | ⟨-, -, -, hne, hr, -⟩
  · omega
  · cases hr
  · exact hu
  all_goals
    have hnil := List.take_eq_nil_iff.mp (Except.ok.inj hr).symm
    exact absurd (hnil.resolve_left hpos.ne') hne

theorem read_error {tls : Bool} {fate : Fate} {b b' : Buffers} {n : ℕ} {e : Halt}
    (h : read tls fate b n = (.error e, b')) : b'.unread = b.unread := by
  rcases read_cases h with ⟨hr, -⟩ | ⟨-, -, rfl⟩ | ⟨-, hu, hb⟩ | ⟨-, -, hr, -⟩ |
    ⟨-, -, -, d, k, rs, -, -, hr, -⟩ | ⟨-, -, -, -, hr, -⟩
  · cases hr
  · rfl
  · rcases hb with rfl | ⟨-, rfl⟩
    · rfl
    · rw [hu]
      rfl
  all_goals cases hr

/-- The blocking socket of a connection. Where a read waits it is here said to raise. -/
def source (tls : Bool) (fate : Fate) : Source Halt Buffers where
  unread := unread
  read := read tls fate
  read_ok := read_ok
  read_nil := read_nil
  read_error := read_error

/-- A socket raises at the end of what has arrived, unless it is closed at this end. -/
theorem unread_of_raises {tls : Bool} {fate : Fate} {b b' : Buffers} {e : Halt}
    (h : (source tls fate).Raises b e b') :
    fate = .aborted ∧ e = .raises ∨ fate.atEnd = .error e ∧ b'.unread = [] := by
  obtain ⟨b₁, n, -, hread⟩ := h
  have hu := (source tls fate).read_error hread
  rcases read_cases hread with ⟨hr, -⟩ | ⟨hr, hfate, -⟩ | ⟨hr, hnil, -⟩ | ⟨-, -, hr, -⟩ |
    ⟨-, -, -, d, k, rs, -, -, hr, -⟩ | ⟨-, -, -, -, hr, -⟩
  · cases hr
  · exact .inl ⟨hfate, Except.error.inj hr⟩
  · exact .inr ⟨hr.symm, hu.trans hnil⟩
  all_goals cases hr

end Buffers

/-! ### Frames among the bytes -/

def TcpFrame.first (u : Bytes) : Option TcpFrame :=
  if h : 1 ≤ mbapLength u ∧ 6 + mbapLength u ≤ u.length then some (frameOf u h.1 h.2) else none

theorem TcpFrame.first_eq_some {u : Bytes} {f : TcpFrame} :
    TcpFrame.first u = some f ↔ f.bytes <+: u := by
  have hsize := headerSize_eq
  constructor
  · intro h
    unfold TcpFrame.first at h
    split_ifs at h
    obtain rfl := Option.some.inj h
    exact List.take_prefix _ _
  · rintro ⟨rest, rfl⟩
    have hlen := f.declares rest
    have hle := f.header_le
    have hwhole : 1 ≤ mbapLength (f.bytes ++ rest) ∧
        6 + mbapLength (f.bytes ++ rest) ≤ (f.bytes ++ rest).length := by
      rw [List.length_append]
      omega
    rw [TcpFrame.first, dif_pos hwhole, Option.some.injEq]
    refine (TcpFrame.mk.injEq ..).mpr ?_
    rw [hlen, List.take_left]

theorem sent_append (fs gs : List TcpFrame) : sent (fs ++ gs) = sent fs ++ sent gs := by
  simp [sent]

/-- No two frames of a stream end in the record that comes next. -/
def OneEnd (before record : Bytes) : Prop :=
  ∀ (frames : List TcpFrame) (f : TcpFrame), before.length < (sent frames).length →
    ¬ sent (frames ++ [f]) <+: before ++ record

/-- Each of the records that come next has the end of one frame at most. -/
def OneEnds : Bytes → List Bytes → Prop
  | _, [] => True
  | before, r :: rs => OneEnd before r ∧ OneEnds (before ++ r) rs

theorem OneEnds.append {before r : Bytes} {rs : List Bytes} (h : OneEnds before rs)
    (hr : OneEnd (before ++ rs.flatten) r) : OneEnds before (rs ++ [r]) := by
  induction rs generalizing before with
  | nil => exact ⟨by simpa using hr, trivial⟩
  | cons c rs ih =>
    refine ⟨h.1, ih h.2 ?_⟩
    rwa [List.flatten_cons, ← List.append_assoc] at hr

theorem OneEnds.of_record {before c : Bytes} {k : ℕ} {rs : List Bytes}
    (h : OneEnds before (List.replicate k [] ++ c :: rs)) :
    OneEnd before c ∧ OneEnds (before ++ c) rs := by
  induction k with
  | zero => exact h
  | succ k ih =>
    refine ih ?_
    have htail := h.2
    rwa [List.append_nil] at htail

/-- How a connection's bytes lie behind those taken: over plaintext nothing is held back, and
over TLS what is held is the rest of a record that some were taken of, and the records have
one end each. -/
structure Straight (tls : Bool) (taken : Bytes) (b : Buffers) : Prop where
  held : b.held = [] ∨ tls = true ∧ ∃ before record, taken ++ b.held = before ++ record ∧
    before.length < taken.length ∧ OneEnd before record
  kernel : tls = true → OneEnds (taken ++ b.held) b.kernel

namespace Straight

variable {tls : Bool} {fate : Fate} {taken : Bytes} {b b' : Buffers}

theorem read (h : Straight tls taken b) {n : ℕ} {r : Except Halt Bytes}
    (hr : Buffers.read tls fate b n = (r, b')) :
    ∃ c, b.unread = c ++ b'.unread ∧ Straight tls (taken ++ c) b' := by
  have hsame : ∃ c, b.unread = c ++ b.unread ∧ Straight tls (taken ++ c) b :=
    ⟨[], rfl, by rwa [List.append_nil]⟩
  rcases Buffers.read_cases hr with ⟨-, -, rfl⟩ | ⟨-, -, rfl⟩ | ⟨-, hu, rfl | ⟨htls, rfl⟩⟩ |
    ⟨hpos, hne, -, rfl⟩ | ⟨hpos, hheld, rfl, c, k, rs, hne, hk, -, rfl⟩ |
    ⟨hpos, hheld, rfl, hne, -, rfl⟩
  · exact hsame
  · exact hsame
  · exact hsame
  · exact ⟨[], hu, ⟨.inl rfl, fun _ => trivial⟩⟩
  · have hcat : taken ++ b.held.take n ++ b.held.drop n = taken ++ b.held := by
      rw [List.append_assoc, List.take_append_drop]
    refine ⟨b.held.take n, ?_, ?_, ?_⟩
    · rw [Buffers.unread, Buffers.unread, ← List.append_assoc, List.take_append_drop]
    · obtain ⟨htls, before, record, heq, hlt, hone⟩ := h.held.resolve_left hne
      refine .inr ⟨htls, before, record, hcat.trans heq, ?_, hone⟩
      rw [List.length_append]
      omega
    · intro htls
      rw [hcat]
      exact h.kernel htls
  · have hone := h.kernel rfl
    rw [hheld, List.append_nil, hk] at hone
    obtain ⟨hone, hrest⟩ := hone.of_record
    have hcat : taken ++ c.take n ++ c.drop n = taken ++ c := by
      rw [List.append_assoc, List.take_append_drop]
    refine ⟨c.take n, ?_, .inr ⟨rfl, taken, c, hcat, ?_, hone⟩, fun _ => ?_⟩
    · rw [Buffers.unread, Buffers.unread, hheld, hk, Buffers.unread_record, List.nil_append,
        ← List.append_assoc, List.take_append_drop]
    · have htake : 0 < (c.take n).length := by
        have := List.length_pos_iff.mpr hne
        rw [List.length_take]
        omega
      rw [List.length_append]
      omega
    · rw [hcat]
      exact hrest
  · refine ⟨b.kernel.flatten.take n, ?_, .inl rfl, nofun⟩
    rw [Buffers.unread, Buffers.unread, hheld, List.flatten_singleton, List.nil_append,
      List.nil_append, List.take_append_drop]

theorem reaches (h : Straight tls taken b) (hr : (Buffers.source tls fate).Reaches b b') :
    ∃ c, b.unread = c ++ b'.unread ∧ Straight tls (taken ++ c) b' := by
  induction hr with
  | refl => exact ⟨[], rfl, by rwa [List.append_nil]⟩
  | tail _ hstep ih =>
    obtain ⟨c, hc, hs⟩ := ih
    obtain ⟨n, rfl⟩ := hstep
    obtain ⟨d, hd, hs'⟩ := hs.read (n := n) (r := _) Prod.mk.eta.symm
    refine ⟨c ++ d, ?_, ?_⟩
    · rw [hc, List.append_assoc]
      exact congrArg (c ++ ·) hd
    · rwa [← List.append_assoc]

/-- Behind whole frames, no whole frame is held back: where one can be read without waiting,
the kernel has something to report. -/
theorem not_held {frames : List TcpFrame} {f : TcpFrame} (h : Straight tls (sent frames) b)
    (hf : f.bytes <+: b.unread) : if tls then b.kernel ≠ [] else b.kernel.flatten ≠ [] := by
  have hheld : ¬ f.bytes <+: b.held := by
    intro hin
    rcases h.held with hnil | ⟨-, before, record, heq, hlt, hone⟩
    · rw [hnil, List.prefix_nil] at hin
      exact f.ne_nil hin
    · refine hone frames f hlt ?_
      rw [sent_append, ← heq, sent_cons]
      simpa [sent] using hin
  have hflat : b.kernel.flatten ≠ [] := by
    intro hnil
    rw [Buffers.unread, hnil, List.append_nil] at hf
    exact hheld hf
  split_ifs
  · rintro hnil
    rw [hnil] at hflat
    exact hflat rfl
  · exact hflat

end Straight

/-! ### One connection -/

/-- What has arrived on a connection, with what may be in the kernel of a record that has not
arrived in full. -/
structure Inbound extends Buffers where
  torn : Bool := false
  fate : Fate := .alive
  deriving DecidableEq, Repr

namespace Inbound

/-- What `select` goes by. -/
def Readable (tls : Bool) (i : Inbound) : Prop :=
  i.fate ≠ .alive ∨ if tls then i.kernel ≠ [] ∨ i.torn = true else i.kernel.flatten ≠ []

instance (tls : Bool) (i : Inbound) : Decidable (i.Readable tls) := by
  unfold Readable
  infer_instance

/-- A call of `receive`, on what has arrived. -/
def receive (tls : Bool) (fragSize : ℤ) (i : Inbound) :
    Option (Except (Exc Halt) Bytes × Buffers) :=
  ModbusTcpStream.receive (Buffers.source tls i.fate) fragSize i.toBuffers

/-- It waits for the peer, before the first byte or part way. -/
def Waits (tls : Bool) (fragSize : ℤ) (i : Inbound) : Prop :=
  ∃ msg b, i.receive tls fragSize = some (.error (.network msg (some .waits)), b)

/-- As many bytes have arrived as the first frame declares, or the connection has ended. -/
def Whole (i : Inbound) : Prop :=
  i.fate ≠ .alive ∨ headerSize ≤ i.unread.length ∧ 6 + mbapLength i.unread ≤ i.unread.length

variable {tls : Bool} {fragSize : ℤ} {i : Inbound} {b : Buffers}

theorem not_waits_of_whole (h : i.Whole) : ¬ i.Waits tls fragSize := by
  rintro ⟨msg, b, hr⟩
  obtain ⟨size, hf, hr⟩ := ModbusTcpStream.exists_receive _ hr
  rcases ModbusTcpStream.receive_cases (Buffers.source tls i.fate) hf i.toBuffers with
    ⟨e, msg', b', k, hr', hraise, hk, hle, hu⟩ | ⟨b', hr', -⟩ | ⟨msg', b', hr', -⟩ |
    ⟨e, b', hr', -⟩ | ⟨b', hr', -⟩
  · rw [hr] at hr'
    cases hr'
    rcases Buffers.unread_of_raises hraise with ⟨-, he⟩ | ⟨hend, hnil⟩
    · cases he
    have hall : k = i.unread.length := by
      have hdrop := congrArg List.length (hu.symm.trans hnil)
      rw [List.length_drop] at hdrop
      change k ≤ i.unread.length at hle
      change i.unread.length - k = 0 at hdrop
      omega
    change k < headerSize ∨ k < 6 + mbapLength i.unread at hk
    rcases h with hfate | hwhole
    · exact hfate (Fate.alive_of_waits hend)
    · omega
  all_goals
    rw [hr] at hr'
    cases hr'

theorem waits_iff (hf : 0 ≤ fragSize) : i.Waits tls fragSize ↔ ¬ i.Whole := by
  refine ⟨fun h hw => not_waits_of_whole hw h, fun hpart => ?_⟩
  obtain ⟨halive, hshort⟩ : i.fate = .alive ∧
      ¬ (headerSize ≤ i.unread.length ∧ 6 + mbapLength i.unread ≤ i.unread.length) := by
    simpa [Whole] using hpart
  have hend : ∀ s n s', 0 < n → (Buffers.source tls i.fate).read s n ≠ (.ok [], s') := by
    intro s n s' hn hread
    rw [halive] at hread
    rcases Buffers.read_cases hread with ⟨-, h0, -⟩ | ⟨-, habort, -⟩ | ⟨hr, -⟩ | ⟨-, hne, hr, -⟩ |
      ⟨-, -, -, d, k, rs, hne, -, hr, -⟩ | ⟨-, -, -, hne, hr, -⟩
    · omega
    · cases habort
    · cases hr
    all_goals
      have hnil := List.take_eq_nil_iff.mp (Except.ok.inj hr).symm
      exact absurd (hnil.resolve_left hn.ne') hne
  rcases ModbusTcpStream.receive_cases (Buffers.source tls i.fate) hf i.toBuffers with
    ⟨e, msg, b', k, hr, hraise, -⟩ | ⟨b', hr, -⟩ | ⟨msg, b', hr, -⟩ |
    ⟨e, b', hr, hge, h0, -⟩ | ⟨b', hr, hge, h1, h6, -⟩
  · rcases Buffers.unread_of_raises hraise with ⟨habort, -⟩ | ⟨he, -⟩
    · rw [halive] at habort
      cases habort
    · rw [halive] at he
      cases he
      exact ⟨msg, b', hr⟩
  · exact absurd rfl (ModbusTcpStream.receive_of_endless _ hend hf hr).1
  · exact absurd rfl ((ModbusTcpStream.receive_of_endless _ hend hf hr).2 msg)
  · change headerSize ≤ i.unread.length at hge
    change mbapLength i.unread = 0 at h0
    have := headerSize_eq
    omega
  · change headerSize ≤ i.unread.length at hge
    change 6 + mbapLength i.unread ≤ i.unread.length at h6
    omega

theorem whole_of_prefix {i' : Inbound} (h : i.Whole) (hfate : i'.fate = .alive → i.fate = .alive)
    (hu : i.unread <+: i'.unread) : i'.Whole := by
  rcases h with hend | ⟨hhead, hlen⟩
  · exact .inl fun halive => hend (hfate halive)
  · obtain ⟨rest, hrest⟩ := hu
    refine .inr ?_
    rw [← hrest, mbapLength_append hhead, List.length_append]
    omega

theorem first_of_receive {m : Bytes} (hm : m ≠ [])
    (h : i.receive tls fragSize = some (.ok m, b)) :
    ∃ f : TcpFrame, m = f.bytes ∧ i.unread = m ++ b.unread := by
  obtain ⟨size, hf, hr⟩ := ModbusTcpStream.exists_receive _ h
  rcases ModbusTcpStream.receive_cases (Buffers.source tls i.fate) hf i.toBuffers with
    ⟨e, msg, b', k, hr', -⟩ | ⟨b', hr', -⟩ | ⟨msg, b', hr', -⟩ | ⟨e, b', hr', -⟩ |
    ⟨b', hr', hge, h1, h6, hu⟩
  · rw [hr] at hr'
    cases hr'
  · rw [hr] at hr'
    cases hr'
    exact absurd rfl hm
  · rw [hr] at hr'
    cases hr'
  · rw [hr] at hr'
    cases hr'
  · rw [hr] at hr'
    cases hr'
    refine ⟨frameOf _ h1 h6, rfl, ?_⟩
    change i.unread = _ ++ (Buffers.source tls i.fate).unread b
    rw [hu]
    exact (List.take_append_drop _ _).symm

theorem receive_of_first {f : TcpFrame} (hf : f.bytes <+: i.unread) (hfate : i.fate ≠ .aborted)
    {r : Except (Exc Halt) Bytes} (h : i.receive tls fragSize = some (r, b)) : r = .ok f.bytes := by
  obtain ⟨size, hsize, hr⟩ := ModbusTcpStream.exists_receive _ h
  obtain ⟨rest, hrest⟩ := hf
  rcases ModbusTcpStream.receive_frame_cases (Buffers.source tls i.fate) hsize f
    (s := i.toBuffers) hrest.symm with ⟨e, msg, b', k, hr', hraise, hk, hu⟩ | ⟨b', hr', -⟩
  · rcases Buffers.unread_of_raises hraise with ⟨habort, -⟩ | ⟨-, hnil⟩
    · exact absurd habort hfate
    · have hdrop := congrArg List.length (hu.symm.trans hnil)
      change (i.unread.drop k).length = 0 at hdrop
      rw [← hrest, List.length_drop, List.length_append] at hdrop
      omega
  · rw [hr] at hr'
    cases hr'
    rfl

theorem straight_of_receive {taken : Bytes} (hs : Straight tls taken i.toBuffers)
    {r : Except (Exc Halt) Bytes} (h : i.receive tls fragSize = some (r, b)) :
    ∃ c, i.unread = c ++ b.unread ∧ Straight tls (taken ++ c) b :=
  hs.reaches (ModbusTcpStream.receive_reaches _ h)

end Inbound

end Pyomb
