import Pyomb.Transport.Stream

/-! How long a `receive` over TCP takes. The PDU loop counts down by what its exact reads
return, and such a read returns nothing where it is asked for less than nothing. So a size
the fragmenter takes ends the loop within as many rounds as the PDU has bytes, and a size
it refuses ends no loop that was entered. -/

namespace Pyomb.ModbusTcpStream

section Rounds

variable {ε σ : Type} (sock : Source ε σ)

/-- `receive`, given up where that many rounds of the PDU loop were not enough. -/
def receiveWithin (rounds : ℕ) (fragSize : ℤ) (s : σ) : Option (Except (Exc ε) Bytes × σ) :=
  let frame : Option (Except (Exc ε) Bytes × σ) :=
    match receiveHeader sock s with
    | (.error e, s₁) => some (.error e, s₁)
    | (.ok headerBytes, s₁) =>
      if headerBytes = [] then some (.ok [], s₁)
      else
        match pduLength headerBytes with
        | .error e => some (.error (.packet e), s₁)
        | .ok n =>
          (receivePdu sock fragSize n.toNat rounds n.toNat [] s₁).map fun
            | (.error e, s₂) => (.error e, s₂)
            | (.ok fragments, s₂) =>
              (.ok (ModbusFragmenter.assemble (headerBytes :: fragments)), s₂)
  frame.map fun (r, s') => (r.mapError (.wrapOs "Error receiving Modbus message: "), s')

theorem receivePdu_mono {fragSize : ℤ} {total rounds more pending : ℕ} (hle : rounds ≤ more)
    {fragments : List Bytes} {s : σ} {x : Except (Exc ε) (List Bytes) × σ}
    (h : receivePdu sock fragSize total rounds pending fragments s = some x) :
    receivePdu sock fragSize total more pending fragments s = some x := by
  induction rounds generalizing more pending fragments s with
  | zero =>
    cases pending with
    | zero => simpa only [receivePdu] using h
    | succ pending => cases h
  | succ rounds ih =>
    obtain ⟨more, rfl⟩ : ∃ m, more = m + 1 := ⟨more - 1, by omega⟩
    cases pending with
    | zero => simpa only [receivePdu] using h
    | succ pending =>
      rw [receivePdu] at h ⊢
      split at h
      · exact h
      · split_ifs at h ⊢
        · exact h
        · exact ih (Nat.le_of_succ_le_succ hle) h

theorem exists_receivePdu {fragSize : ℤ} (hf : 0 ≤ fragSize) (total pending : ℕ)
    (fragments : List Bytes) (s : σ) :
    ∃ x, receivePdu sock fragSize total pending pending fragments s = some x := by
  rcases receivePdu_cases sock hf total (le_refl pending) fragments s with
    ⟨_, _, _, h, -⟩ | ⟨_, _, h, -⟩ | ⟨_, _, h, -⟩ <;> exact ⟨_, h⟩

/-- A loop that returns needs no more rounds than that, whatever the size. -/
theorem receivePdu_enough {fragSize : ℤ} {total rounds pending : ℕ} {fragments : List Bytes}
    {s : σ} {x : Except (Exc ε) (List Bytes) × σ}
    (h : receivePdu sock fragSize total rounds pending fragments s = some x) :
    receivePdu sock fragSize total pending pending fragments s = some x := by
  by_cases hf : 0 ≤ fragSize
  · obtain ⟨y, hy⟩ := exists_receivePdu sock hf total pending fragments s
    have hmax := receivePdu_mono sock (Nat.le_max_left rounds pending) h
    rw [receivePdu_mono sock (Nat.le_max_right rounds pending) hy] at hmax
    rw [hy, hmax]
  · rcases pending.eq_zero_or_pos with rfl | hpos
    · simpa only [receivePdu] using h
    · rw [receivePdu_of_neg sock (not_le.mp hf) total hpos] at h
      cases h

theorem receiveWithin_cases (s : σ) :
    (∃ x, (∀ fragSize, receive sock fragSize s = some x ∧
        ∀ rounds, receiveWithin sock rounds fragSize s = some x) ∧
      ((∃ e s', sock.Raises s e s') ∨ (sock.unread s).length < headerSize ∨
        mbapLength (sock.unread s) = 0)) ∨
    ∃ n, (headerSize ≤ (sock.unread s).length ∧ mbapLength (sock.unread s) = n + 1) ∧
      ∃ f s₁, ∀ fragSize,
        receive sock fragSize s = (receivePdu sock fragSize n n n [] s₁).map f ∧
        ∀ rounds, receiveWithin sock rounds fragSize s =
          (receivePdu sock fragSize n rounds n [] s₁).map f := by
  have hsize := headerSize_eq
  unfold receive receiveFrame receiveWithin
  rcases receiveHeader_cases sock s with ⟨e, s', k, he, hr, -⟩ | ⟨s', he, hu, -⟩ |
    ⟨msg, s', he, -, hlt, -⟩ | ⟨h, s', he, hh, hne, hl, hge, -⟩ <;> rw [he] <;> dsimp only
  · exact .inl ⟨_, fun _ => ⟨rfl, fun _ => rfl⟩, .inl ⟨e, s', hr⟩⟩
  · refine .inl ⟨_, fun _ => ⟨rfl, fun _ => rfl⟩, .inr (.inl ?_)⟩
    rw [hu, List.length_nil]
    omega
  · exact .inl ⟨_, fun _ => ⟨rfl, fun _ => rfl⟩, .inr (.inl hlt)⟩
  have hmbap : mbapLength h = mbapLength (sock.unread s) := hh ▸ mbapLength_take _
  simp only [if_neg hne]
  rcases pduLength_cases hl with ⟨h0, e, hp⟩ | ⟨h1, hp⟩ <;> rw [hp] <;> dsimp only
  · exact .inl ⟨_, fun _ => ⟨rfl, fun _ => rfl⟩, .inr (.inr (hmbap ▸ h0))⟩
  obtain ⟨n, hn⟩ : ∃ n : ℕ, mbapLength h = n + 1 := ⟨mbapLength h - 1, by omega⟩
  rw [hn, Nat.cast_succ, add_sub_cancel_right, Int.toNat_natCast]
  simp only [Option.map_map]
  exact .inr ⟨n, ⟨hge, hmbap ▸ hn⟩, _, s', fun _ => ⟨rfl, fun _ => rfl⟩⟩

/-- The rounds `receive` is given are enough where any number is. -/
theorem receive_eq_some {fragSize : ℤ} {s : σ} {x : Except (Exc ε) Bytes × σ} :
    receive sock fragSize s = some x ↔ ∃ rounds, receiveWithin sock rounds fragSize s = some x := by
  rcases receiveWithin_cases sock s with ⟨y, hy, -⟩ | ⟨n, -, f, s₁, hloop⟩
  · rw [(hy fragSize).1]
    simp only [(hy fragSize).2, exists_const]
  · rw [(hloop fragSize).1]
    simp only [(hloop fragSize).2, Option.map_eq_some_iff]
    refine ⟨fun ⟨r, hr, hx⟩ => ⟨n, r, hr, hx⟩, fun ⟨rounds, r, hr, hx⟩ => ?_⟩
    exact ⟨r, receivePdu_enough sock hr, hx⟩

theorem exists_receiveWithin {fragSize : ℤ} (hf : 0 ≤ fragSize) (s : σ) :
    ∃ rounds x, receiveWithin sock rounds fragSize s = some x := by
  rcases receiveWithin_cases sock s with ⟨x, hx, -⟩ | ⟨n, -, f, s₁, hloop⟩
  · exact ⟨0, x, (hx fragSize).2 0⟩
  · obtain ⟨y, hy⟩ := exists_receivePdu sock hf n n [] s₁
    exact ⟨n, f y, by rw [(hloop fragSize).2, hy, Option.map_some]⟩

theorem receiveWithin_of_neg {fragSize : ℤ} (hf : fragSize < 0) {s : σ}
    (hraise : ∀ e s', ¬ sock.Raises s e s') (hge : headerSize ≤ (sock.unread s).length)
    (hmbap : 2 ≤ mbapLength (sock.unread s)) (rounds : ℕ) :
    receiveWithin sock rounds fragSize s = none := by
  rcases receiveWithin_cases sock s with ⟨_, -, ⟨e, s', hr⟩ | hlt | h0⟩ |
    ⟨n, ⟨-, hn⟩, f, s₁, hloop⟩
  · exact absurd hr (hraise e s')
  · omega
  · omega
  · rw [(hloop fragSize).2, receivePdu_of_neg sock hf n (by omega), Option.map_none]

end Rounds

section Reliable

variable {σ : Type} (sock : Source Empty σ)

/-- Over a socket that hands bytes over until it reports the close, a call returns or raises
within some number of rounds exactly where the size is not negative, or no whole header
comes that declares a PDU. -/
theorem receiveWithin_returns_iff (fragSize : ℤ) (s : σ) :
    (∃ rounds x, receiveWithin sock rounds fragSize s = some x) ↔
      0 ≤ fragSize ∨ (sock.unread s).length < headerSize ∨ mbapLength (sock.unread s) ≤ 1 := by
  constructor
  · rintro ⟨rounds, x, h⟩
    by_contra hno
    simp only [not_or, not_le, not_lt] at hno
    obtain ⟨hf, hge, hmbap⟩ := hno
    rw [receiveWithin_of_neg sock hf (fun e => e.elim) hge hmbap] at h
    cases h
  · rintro (hf | hnone)
    · exact exists_receiveWithin sock hf s
    rcases receiveWithin_cases sock s with ⟨x, hx, -⟩ | ⟨n, ⟨hge, hn⟩, f, s₁, hloop⟩
    · exact ⟨0, x, (hx fragSize).2 0⟩
    · obtain rfl : n = 0 := by omega
      exact ⟨0, f (.ok [], s₁), by rw [(hloop fragSize).2, receivePdu, Option.map_some]⟩

/-- The fragmenter refuses a size of minus one, and a frame with one byte of PDU keeps
`receive` at it for good. -/
theorem receiveWithin_never_returns :
    (∃ e, ModbusFragmenter.fragment [0, 1, 0, 0, 0, 2, 1, 7] (-1) = .error e) ∧
      ¬ ∃ rounds x, receiveWithin (Source.holding Empty) rounds (-1) [0, 1, 0, 0, 0, 2, 1, 7] =
        some x := by
  refine ⟨⟨_, rfl⟩, fun ⟨rounds, x, h⟩ => ?_⟩
  rw [receiveWithin_of_neg (Source.holding Empty) (by decide) (fun e => e.elim) (by decide)
    (by decide)] at h
  cases h

end Reliable

end Pyomb.ModbusTcpStream
