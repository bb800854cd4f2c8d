import Pyomb.Bytes.Struct

/-! A sink of bytes written a few at a time. A write accepts a start of what it is
given, at least one byte of something, and says how many; where it raises it accepts
nothing. Writing a list of pieces without looking at the counts delivers them exactly
where every piece is accepted whole. -/

namespace Pyomb

structure Sink (ε σ : Type) where
  accepted : σ → Bytes
  write : σ → Bytes → Except ε ℕ × σ
  write_ok {s d n s'} : write s d = (.ok n, s') →
    n ≤ d.length ∧ (d ≠ [] → 0 < n) ∧ accepted s' = accepted s ++ d.take n
  write_error {s d e s'} : write s d = (.error e, s') → accepted s' = accepted s

namespace Sink

variable {ε σ : Type} (sink : Sink ε σ)

/-- Write the pieces one by one, whatever each write accepted of its own. -/
def each : List Bytes → σ → Except ε Unit × σ
  | [], s => (.ok (), s)
  | d :: ds, s =>
    match sink.write s d with
    | (.error e, s') => (.error e, s')
    | (.ok _, s') => each ds s'

def Raises : List Bytes → σ → Prop
  | [], _ => False
  | d :: ds, s =>
    match sink.write s d with
    | (.error _, _) => True
    | (.ok _, s') => Raises ds s'

def Whole : List Bytes → σ → Prop
  | [], _ => True
  | d :: ds, s =>
    match sink.write s d with
    | (.error _, _) => False
    | (.ok n, s') => n = d.length ∧ Whole ds s'

theorem each_eq_error (ds : List Bytes) (s : σ) :
    (∃ e, (sink.each ds s).1 = .error e) ↔ sink.Raises ds s := by
  induction ds generalizing s with
  | nil => simp [each, Raises]
  | cons d ds ih =>
    rcases hw : sink.write s d with ⟨e | n, s'⟩
    · simp [each, Raises, hw]
    · simpa only [each, Raises, hw] using ih s'

/-- Without an error, as many bytes are accepted as were given where every piece went
whole, and fewer otherwise. -/
theorem accepted_each {ds : List Bytes} {s s' : σ} (h : sink.each ds s = (.ok (), s')) :
    (sink.Whole ds s → sink.accepted s' = sink.accepted s ++ ds.flatten) ∧
      (¬ sink.Whole ds s →
        (sink.accepted s').length < (sink.accepted s).length + ds.flatten.length) := by
  induction ds generalizing s with
  | nil =>
    simp only [each, Prod.mk.injEq, true_and] at h
    simp [Whole, h]
  | cons d ds ih =>
    rcases hw : sink.write s d with ⟨e | n, s₁⟩
    · simp [each, hw] at h
    obtain ⟨hn, -, hacc⟩ := sink.write_ok hw
    rw [each, hw] at h
    obtain ⟨hwhole, hshort⟩ := ih h
    simp only [Whole, hw, List.flatten_cons, List.length_append]
    constructor
    · rintro ⟨rfl, hds⟩
      rw [hwhole hds, hacc, List.take_length, List.append_assoc]
    · intro hno
      have hlen : (sink.accepted s₁).length = (sink.accepted s).length + n := by
        rw [hacc, List.length_append, List.length_take, min_eq_left hn]
      by_cases hds : sink.Whole ds s₁
      · have hlt : n < d.length := lt_of_le_of_ne hn fun he => hno ⟨he, hds⟩
        rw [hwhole hds, List.length_append]
        omega
      · have := hshort hds
        omega

/-- Writing the pieces delivers them all exactly where each is accepted whole. -/
theorem each_delivers_iff {ds : List Bytes} {s s' : σ} (h : sink.each ds s = (.ok (), s')) :
    sink.accepted s' = sink.accepted s ++ ds.flatten ↔ sink.Whole ds s := by
  obtain ⟨hwhole, hshort⟩ := sink.accepted_each h
  refine ⟨fun heq => ?_, hwhole⟩
  by_contra hno
  have hlt := hshort hno
  rw [heq, List.length_append] at hlt
  exact lt_irrefl _ hlt

theorem each_of_accepts (h : ∀ s d, ∃ s', sink.write s d = (.ok d.length, s')) (ds : List Bytes)
    (s : σ) : ∃ s', sink.each ds s = (.ok (), s') ∧
      sink.accepted s' = sink.accepted s ++ ds.flatten := by
  induction ds generalizing s with
  | nil => exact ⟨s, rfl, by simp⟩
  | cons d ds ih =>
    obtain ⟨s₁, hw⟩ := h s d
    obtain ⟨s', heach, hacc⟩ := ih s₁
    refine ⟨s', by rw [each, hw]; exact heach, ?_⟩
    rw [hacc, (sink.write_ok hw).2.2, List.take_length, List.flatten_cons, List.append_assoc]

/-! ### A sink that keeps what it was given -/

/-- The sink, beside the bytes its writes were given. -/
def recorded : Sink ε (σ × Bytes) where
  accepted s := sink.accepted s.1
  write s d := ((sink.write s.1 d).1, (sink.write s.1 d).2, s.2 ++ d)
  write_ok h := by
    obtain ⟨hn, rfl⟩ := Prod.mk.inj h
    exact sink.write_ok (Prod.ext hn rfl)
  write_error h := by
    obtain ⟨he, rfl⟩ := Prod.mk.inj h
    exact sink.write_error (Prod.ext he rfl)

theorem given_each (ds : List Bytes) (s : σ × Bytes) : s.2 <+: (sink.recorded.each ds s).2.2 := by
  induction ds generalizing s with
  | nil => exact List.prefix_refl _
  | cons d ds ih =>
    have hd : s.2 <+: (sink.recorded.write s d).2.2 := List.prefix_append _ _
    rw [each]
    rcases hw : sink.recorded.write s d with ⟨e | n, s₁⟩ <;> rw [hw] at hd
    · exact hd
    · exact hd.trans (ih s₁)

theorem given_each_cons (d : Bytes) (ds : List Bytes) (s : σ × Bytes) :
    s.2 ++ d <+: (sink.recorded.each (d :: ds) s).2.2 := by
  have hd : (sink.recorded.write s d).2.2 = s.2 ++ d := rfl
  rw [each, ← hd]
  rcases sink.recorded.write s d with ⟨e | n, s₁⟩
  · exact List.prefix_refl _
  · exact sink.given_each ds s₁

/-! ### A sink that accepts everything -/

def accepting (ε : Type) : Sink ε Bytes where
  accepted s := s
  write s d := (.ok d.length, s ++ d)
  write_ok := by
    intro s d n s' h
    simp only [Prod.mk.injEq, Except.ok.injEq] at h
    obtain ⟨rfl, rfl⟩ := h
    simp [List.length_pos_iff]
  write_error := by
    intro s d e s' h
    simp at h

def atMost (ε : Type) (k : ℕ) : Sink ε Bytes where
  accepted s := s
  write s d := (.ok (min d.length (k + 1)), s ++ d.take (k + 1))
  write_ok := by
    intro s d n s' h
    simp only [Prod.mk.injEq, Except.ok.injEq] at h
    obtain ⟨rfl, rfl⟩ := h
    refine ⟨by omega, fun hd => ?_, ?_⟩
    · have := List.length_pos_iff.mpr hd; omega
    · rcases le_total d.length (k + 1) with hle | hle
      · rw [min_eq_left hle, List.take_of_length_le hle, List.take_length]
      · rw [min_eq_right hle]
  write_error := by
    intro s d e s' h
    simp at h

end Sink

end Pyomb
