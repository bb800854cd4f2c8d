import Mathlib.Logic.Relation
import Pyomb.Bytes.Struct

/-! A source of bytes read a few at a time. What is still to come is a list, and a
read hands over a start of it, no more than was asked for; it hands over nothing only
once the list is empty, and where it raises it takes nothing. `exactly` repeats the
read until a count is met, and its result no longer depends on how the reads cut the
bytes up. A source whose error type is empty never raises. -/

namespace Pyomb

structure Source (ε σ : Type) where
  unread : σ → Bytes
  read : σ → ℕ → Except ε Bytes × σ
  read_ok {s n c s'} : read s n = (.ok c, s') → unread s = c ++ unread s' ∧ c.length ≤ n
  read_nil {s n s'} : 0 < n → read s n = (.ok [], s') → unread s = []
  read_error {s n e s'} : read s n = (.error e, s') → unread s' = unread s

namespace Source

variable {ε σ : Type} (src : Source ε σ)

def Reaches : σ → σ → Prop := Relation.ReflTransGen fun s t => ∃ n, (src.read s n).2 = t

def Raises (s : σ) (e : ε) (t : σ) : Prop :=
  ∃ s₁ n, src.Reaches s s₁ ∧ src.read s₁ n = (.error e, t)

variable {src} in
theorem Raises.of_reaches {s t u : σ} {e : ε} (h : src.Raises t e u) (hs : src.Reaches s t) :
    src.Raises s e u :=
  let ⟨s₁, n, hreach, hr⟩ := h
  ⟨s₁, n, hs.trans hreach, hr⟩

variable {src} in
theorem Raises.reaches {s t : σ} {e : ε} (h : src.Raises s e t) : src.Reaches s t :=
  let ⟨_, n, hreach, hr⟩ := h
  hreach.tail ⟨n, by rw [hr]⟩

/-- Read until `pending` more bytes are held behind `got`, the source is at its end, or
it raises; in the last case what was held is gone. -/
def exactly (pending : ℕ) (got : Bytes) (s : σ) : Except ε Bytes × σ :=
  if 0 < pending then
    match src.read s pending with
    | (.error e, s') => (.error e, s')
    | (.ok [], s') => (.ok got, s')
    | (.ok (b :: c), s') => exactly (pending - (b :: c).length) (got ++ b :: c) s'
  else (.ok got, s)
termination_by pending
decreasing_by simp only [List.length_cons]; omega

@[simp] theorem exactly_zero (got : Bytes) (s : σ) : src.exactly 0 got s = (.ok got, s) := by
  unfold exactly
  simp

/-- One read: at the end of the source, an error, or a step towards the count. -/
theorem exactly_cases {n : ℕ} (hn : 0 < n) (got : Bytes) (s : σ) :
    (∃ e s', src.read s n = (.error e, s') ∧ src.exactly n got s = (.error e, s')) ∨
    (∃ s', src.Reaches s s' ∧ src.unread s = [] ∧ src.unread s' = [] ∧
      src.exactly n got s = (.ok got, s')) ∨
    ∃ c s', src.Reaches s s' ∧ c ≠ [] ∧ c.length ≤ n ∧ src.unread s = c ++ src.unread s' ∧
      src.exactly n got s = src.exactly (n - c.length) (got ++ c) s' := by
  have hreach {r s'} (h : src.read s n = (r, s')) : src.Reaches s s' := .single ⟨n, by rw [h]⟩
  rw [exactly, if_pos hn]
  rcases hr : src.read s n with ⟨_ | _ | ⟨b, c⟩, s'⟩
  · exact .inl ⟨_, s', rfl, rfl⟩
  · have hnil := src.read_nil hn hr
    have hcat := (src.read_ok hr).1
    rw [hnil, List.nil_append] at hcat
    exact .inr (.inl ⟨s', hreach hr, hnil, hcat.symm, rfl⟩)
  · obtain ⟨hcat, hle⟩ := src.read_ok hr
    exact .inr (.inr ⟨b :: c, s', hreach hr, List.cons_ne_nil _ _, hle, hcat, rfl⟩)

theorem exactly_reaches (n : ℕ) (got : Bytes) (s : σ) : src.Reaches s (src.exactly n got s).2 := by
  induction n using Nat.strong_induction_on generalizing got s with
  | _ n ih =>
    rcases n.eq_zero_or_pos with rfl | hn
    · rw [exactly_zero]
      exact .refl
    rcases src.exactly_cases hn got s with ⟨e, s₁, hr, he⟩ | ⟨s₁, hs, -, -, he⟩ |
      ⟨d, s₁, hs, hd, hle, -, he⟩
    · rw [he]
      exact .single ⟨n, by rw [hr]⟩
    · rw [he]
      exact hs
    · have hpos := List.length_pos_iff.mpr hd
      rw [he]
      exact hs.trans (ih _ (by omega) _ _)

theorem exactly_ok {n : ℕ} {got c : Bytes} {s s' : σ} (h : src.exactly n got s = (.ok c, s')) :
    c = got ++ (src.unread s).take n ∧ src.unread s' = (src.unread s).drop n := by
  induction n using Nat.strong_induction_on generalizing got s with
  | _ n ih =>
    rcases n.eq_zero_or_pos with rfl | hn
    · simp only [exactly_zero, Prod.mk.injEq, Except.ok.injEq] at h
      obtain ⟨rfl, rfl⟩ := h
      simp
    rcases src.exactly_cases hn got s with ⟨e, s₁, -, he⟩ | ⟨s₁, -, hs, hs₁, he⟩ |
      ⟨d, s₁, -, hd, hle, hcat, he⟩
    · simp [he] at h
    · rw [he, Prod.mk.injEq, Except.ok.injEq] at h
      obtain ⟨rfl, rfl⟩ := h
      simp [hs, hs₁]
    · have hpos := List.length_pos_iff.mpr hd
      obtain ⟨rfl, hs'⟩ := ih _ (by omega) (he ▸ h)
      rw [hcat, hs']
      refine ⟨?_, ?_⟩
      · rw [List.take_append, List.take_of_length_le hle, List.append_assoc]
      · rw [List.drop_append, List.drop_of_length_le hle, List.nil_append]

theorem exactly_error {n : ℕ} {got : Bytes} {e : ε} {s s' : σ}
    (h : src.exactly n got s = (.error e, s')) :
    ∃ k, src.Raises s e s' ∧ k < n ∧ k ≤ (src.unread s).length ∧
      src.unread s' = (src.unread s).drop k := by
  induction n using Nat.strong_induction_on generalizing got s with
  | _ n ih =>
    rcases n.eq_zero_or_pos with rfl | hn
    · simp at h
    rcases src.exactly_cases hn got s with ⟨e', s₁, hr, he⟩ | ⟨s₁, -, hs, hs₁, he⟩ |
      ⟨d, s₁, hreach, hd, hle, hcat, he⟩
    · rw [he, Prod.mk.injEq, Except.error.injEq] at h
      obtain ⟨rfl, rfl⟩ := h
      exact ⟨0, ⟨s, n, .refl, hr⟩, hn, by omega, by simpa using src.read_error hr⟩
    · simp [he] at h
    · have hpos := List.length_pos_iff.mpr hd
      obtain ⟨k, ⟨s₂, m, hreach', hr⟩, hk, hkl, hs'⟩ := ih _ (by omega) (he ▸ h)
      refine ⟨d.length + k, ⟨s₂, m, hreach.trans hreach', hr⟩, by omega, ?_, ?_⟩
      · rw [hcat, List.length_append]; omega
      · rw [hs', hcat, List.drop_length_add_append]

theorem exactly_full (hend : ∀ s n s', 0 < n → src.read s n ≠ (.ok [], s')) {n : ℕ} {got c : Bytes}
    {s s' : σ} (h : src.exactly n got s = (.ok c, s')) : c.length = got.length + n := by
  induction n using Nat.strong_induction_on generalizing got s with
  | _ n ih =>
    rcases n.eq_zero_or_pos with rfl | hn
    · rw [exactly_zero] at h
      cases h
      rfl
    rw [exactly, if_pos hn] at h
    rcases hr : src.read s n with ⟨e | _ | ⟨b, d⟩, s₁⟩ <;> rw [hr] at h <;> dsimp only at h
    · cases h
    · exact absurd hr (hend s n s₁ hn)
    · have hle := (src.read_ok hr).2
      rw [ih _ (by simp only [List.length_cons]; omega) h, List.length_append]
      omega

/-- A source that hands over as much as it is asked for, until nothing is left. -/
def holding (ε : Type) : Source ε Bytes where
  unread s := s
  read s n := (.ok (s.take n), s.drop n)
  read_ok {s n c s'} h := by
    obtain ⟨hc, rfl⟩ := Prod.mk.inj h
    obtain rfl := Except.ok.inj hc
    exact ⟨(List.take_append_drop n s).symm, List.length_take_le n s⟩
  read_nil {s n s'} hn h := by
    have hc := Except.ok.inj (Prod.mk.inj h).1
    exact (List.take_eq_nil_iff.mp hc).resolve_left hn.ne'
  read_error {s n e s'} h := nomatch h

def readPieces : List Bytes → ℕ → Except ε Bytes × List Bytes
  | [], _ => (.ok [], [])
  | [] :: ps, n => readPieces ps n
  | (b :: p) :: ps, n => (.ok ((b :: p).take n), (b :: p).drop n :: ps)

/-- Pieces that have come, with nothing behind them. It never raises. -/
def pieces (ε : Type) : Source ε (List Bytes) where
  unread := List.flatten
  read := readPieces
  read_ok {ps n c ps'} h := by
    induction ps, n using readPieces.induct with
    | case1 n =>
      obtain ⟨hc, rfl⟩ := Prod.mk.inj h
      obtain rfl := Except.ok.inj hc
      exact ⟨rfl, Nat.zero_le n⟩
    | case2 ps n ih => exact ih h
    | case3 b p ps n =>
      obtain ⟨hc, rfl⟩ := Prod.mk.inj h
      obtain rfl := Except.ok.inj hc
      refine ⟨?_, List.length_take_le n (b :: p)⟩
      rw [List.flatten_cons, List.flatten_cons, ← List.append_assoc, List.take_append_drop]
  read_nil {ps n ps'} hn h := by
    induction ps, n using readPieces.induct with
    | case1 n => rfl
    | case2 ps n ih => exact ih hn h
    | case3 b p ps n =>
      have hnil := List.take_eq_nil_iff.mp (Except.ok.inj (Prod.mk.inj h).1)
      exact absurd hnil (by simp; omega)
  read_error {ps n e ps'} h := by
    induction ps, n using readPieces.induct with
    | case1 n => cases (Prod.mk.inj h).1
    | case2 ps n ih => exact ih h
    | case3 b p ps n => cases (Prod.mk.inj h).1

theorem readPieces_ne_error (ps : List Bytes) (n : ℕ) (e : ε) : (readPieces ps n).1 ≠ .error e := by
  induction ps, n using readPieces.induct with
  | case1 n => simp [readPieces]
  | case2 ps n ih => simpa only [readPieces] using ih
  | case3 b p ps n => simp [readPieces]

/-! ### A source that keeps what it was asked -/

/-- A read: the count it asked for, and how many bytes were still to come. -/
structure Asked where
  size : ℕ
  left : ℕ
  deriving DecidableEq, Repr

def logged : Source ε (σ × List Asked) where
  unread s := src.unread s.1
  read s n := ((src.read s.1 n).1, (src.read s.1 n).2, s.2 ++ [⟨n, (src.unread s.1).length⟩])
  read_ok h := by
    obtain ⟨hc, rfl⟩ := Prod.mk.inj h
    exact src.read_ok (Prod.ext hc rfl)
  read_nil hn h := src.read_nil hn (Prod.ext (Prod.mk.inj h).1 rfl)
  read_error h := by
    obtain ⟨hc, rfl⟩ := Prod.mk.inj h
    exact src.read_error (Prod.ext hc rfl)

/-! ### A source of segments -/

/-- What arrives at a source: a segment, or an error between two of them. -/
inductive Arrival (ε : Type) where
  | segment (c : Bytes)
  | raise (e : ε)
  deriving DecidableEq, Repr

namespace Arrival

variable {ε : Type}

def unread : List (Arrival ε) → Bytes
  | [] => []
  | segment c :: as => c ++ unread as
  | raise _ :: as => unread as

/-- A read takes no more than is left of the segment it is at. -/
def read : List (Arrival ε) → ℕ → Except ε Bytes × List (Arrival ε)
  | [], _ => (.ok [], [])
  | raise e :: as, _ => (.error e, as)
  | segment [] :: as, n => read as n
  | segment (b :: c) :: as, n => (.ok ((b :: c).take n), segment ((b :: c).drop n) :: as)

/-- What is still to come behind each error meets a predicate. -/
def RaisesWhere (P : Bytes → Prop) : List (Arrival ε) → Prop
  | [] => True
  | segment _ :: as => RaisesWhere P as
  | raise _ :: as => P (unread as) ∧ RaisesWhere P as

theorem RaisesWhere.read {P : Bytes → Prop} {as : List (Arrival ε)} (h : RaisesWhere P as)
    (n : ℕ) : RaisesWhere P (read as n).2 := by
  induction as, n using Arrival.read.induct with
  | case1 n => exact h
  | case2 n e as => exact h.2
  | case3 n as ih => exact ih h
  | case4 n b c as => exact h

theorem RaisesWhere.raised {P : Bytes → Prop} {as as' : List (Arrival ε)} {n : ℕ} {e : ε}
    (h : RaisesWhere P as) (hr : Arrival.read as n = (.error e, as')) : P (unread as') := by
  induction as, n using Arrival.read.induct with
  | case1 n => simp [Arrival.read] at hr
  | case2 n e as =>
    simp only [Arrival.read, Prod.mk.injEq, Except.error.injEq] at hr
    exact hr.2 ▸ h.1
  | case3 n as ih => exact ih h hr
  | case4 n b c as => simp [Arrival.read] at hr

end Arrival

/-- Reads that follow the arrivals. Every way to cut a stream up is one of these. -/
def arriving (ε : Type) : Source ε (List (Arrival ε)) where
  unread := Arrival.unread
  read := Arrival.read
  read_ok {as n c as'} h := by
    induction as, n using Arrival.read.induct with
    | case1 n => simp only [Arrival.read, Prod.mk.injEq, Except.ok.injEq] at h; simp [← h.1, ← h.2]
    | case2 n e as => simp [Arrival.read] at h
    | case3 n as ih => exact ih h
    | case4 n b d as =>
      simp only [Arrival.read, Prod.mk.injEq, Except.ok.injEq] at h
      obtain ⟨rfl, rfl⟩ := h
      rw [Arrival.unread, Arrival.unread, ← List.append_assoc, List.take_append_drop]
      exact ⟨rfl, List.length_take_le _ _⟩
  read_nil {as n as'} hn h := by
    induction as, n using Arrival.read.induct with
    | case1 n => rfl
    | case2 n e as => simp [Arrival.read] at h
    | case3 n as ih => exact ih hn h
    | case4 n b d as =>
      simp only [Arrival.read, Prod.mk.injEq, Except.ok.injEq, List.take_eq_nil_iff] at h
      exact absurd h.1 (by simp; omega)
  read_error {as n e as'} h := by
    induction as, n using Arrival.read.induct with
    | case1 n => simp [Arrival.read] at h
    | case2 n e as =>
      simp only [Arrival.read, Prod.mk.injEq, Except.error.injEq] at h
      rw [← h.2, Arrival.unread]
    | case3 n as ih => exact ih h
    | case4 n b d as => simp [Arrival.read] at h

/-! ### The stream apart from its segments -/

namespace Arrival

variable {ε : Type}

/-- The bytes and the errors in the order they come, wherever the segments are cut. -/
def events : List (Arrival ε) → List (UInt8 ⊕ ε)
  | [] => []
  | segment c :: as => c.map .inl ++ events as
  | raise e :: as => .inr e :: events as

theorem read_events (as : List (Arrival ε)) {n : ℕ} (hn : 0 < n) :
    (∃ as', read as n = (.ok [], as') ∧ events as = [] ∧ events as' = []) ∨
    (∃ e as', read as n = (.error e, as') ∧ events as = .inr e :: events as') ∨
    ∃ b c as', read as n = (.ok (b :: c), as') ∧ (b :: c).length ≤ n ∧
      events as = (b :: c).map .inl ++ events as' := by
  induction as, n using Arrival.read.induct with
  | case1 n => exact .inl ⟨[], rfl, rfl, rfl⟩
  | case2 e as n => exact .inr (.inl ⟨e, as, rfl, rfl⟩)
  | case3 as n ih => exact ih hn
  | case4 b c as n =>
    obtain ⟨n, rfl⟩ := Nat.exists_eq_add_one_of_ne_zero hn.ne'
    refine .inr (.inr ⟨b, c.take n, _, rfl, ?_, ?_⟩)
    · rw [List.length_cons, List.length_take]
      omega
    · rw [events, events, ← List.append_assoc, ← List.map_append, List.cons_append,
        List.drop_succ_cons, List.take_append_drop]

theorem eq_append_of_events {g d : Bytes} {rest rest' : List (UInt8 ⊕ ε)}
    (h : g.map .inl ++ rest = d.map .inl ++ rest') (hle : d.length ≤ g.length) :
    ∃ g', g = d ++ g' ∧ rest' = g'.map .inl ++ rest := by
  induction d generalizing g with
  | nil => exact ⟨g, rfl, h.symm⟩
  | cons b d ih =>
    rcases g with _ | ⟨b', g⟩
    · cases hle
    simp only [List.map_cons, List.cons_append, List.cons.injEq, Sum.inl.injEq] at h
    obtain ⟨rfl, h⟩ := h
    obtain ⟨g', rfl, hrest⟩ := ih h (Nat.le_of_succ_le_succ hle)
    exact ⟨g', rfl, hrest⟩

theorem exactly_events {as : List (Arrival ε)} {g : Bytes} {rest : List (UInt8 ⊕ ε)}
    (h : events as = g.map .inl ++ rest) (got : Bytes) :
    ∃ as', (arriving ε).exactly g.length got as = (.ok (got ++ g), as') ∧ events as' = rest := by
  induction hn : g.length using Nat.strong_induction_on generalizing g as got with
  | _ n ih =>
    subst hn
    rcases g.length.eq_zero_or_pos with hnil | hpos
    · obtain rfl := List.length_eq_zero_iff.mp hnil
      exact ⟨as, by rw [hnil, exactly_zero, List.append_nil], h⟩
    obtain ⟨b₀, g₀, hcons⟩ := List.exists_cons_of_length_pos hpos
    rw [exactly, if_pos hpos]
    rcases read_events as hpos with ⟨as', -, hnil, -⟩ | ⟨e, as', -, he⟩ | ⟨b, c, as', hr, hle, hc⟩
    · rw [h, hcons] at hnil
      cases hnil
    · rw [h, hcons] at he
      cases he
    obtain ⟨g', rfl, hrest⟩ := eq_append_of_events (h.symm.trans hc) hle
    obtain ⟨as₂, hread, has₂⟩ := ih g'.length (by simp) hrest (got ++ b :: c) rfl
    refine ⟨as₂, ?_, has₂⟩
    rw [show (arriving ε).read as (b :: c ++ g').length = (.ok (b :: c), as') from hr]
    dsimp only
    rw [List.length_append, Nat.add_sub_cancel_left, hread, List.append_assoc]

theorem exactly_raise {as : List (Arrival ε)} {e : ε} {rest : List (UInt8 ⊕ ε)}
    (h : events as = .inr e :: rest) {n : ℕ} (hn : 0 < n) (got : Bytes) :
    ∃ as', (arriving ε).exactly n got as = (.error e, as') ∧ events as' = rest := by
  rw [exactly, if_pos hn]
  rcases read_events as hn with ⟨as', -, hnil, -⟩ | ⟨e', as', hr, he⟩ | ⟨b, c, as', -, -, hc⟩
  · rw [h] at hnil
    cases hnil
  · rw [h] at he
    cases he
    exact ⟨as', by rw [show (arriving ε).read as n = _ from hr], rfl⟩
  · rw [h] at hc
    cases hc

theorem exactly_end {as : List (Arrival ε)} (h : events as = []) {n : ℕ} (hn : 0 < n)
    (got : Bytes) : ∃ as', (arriving ε).exactly n got as = (.ok got, as') ∧ events as' = [] := by
  rw [exactly, if_pos hn]
  rcases read_events as hn with ⟨as', hr, -, hnil⟩ | ⟨e, as', -, he⟩ | ⟨b, c, as', -, -, hc⟩
  · exact ⟨as', by rw [show (arriving ε).read as n = _ from hr], hnil⟩
  · rw [h] at he
    cases he
  · rw [h] at hc
    cases hc

end Arrival

end Source

end Pyomb
