import Mathlib.Tactic

/-! Fixed-width unsigned fields laid end to end, as Python's `struct` packs and
unpacks them. A format is a list of field codes. Packing checks the item count and
then each item's range; unpacking checks the buffer size. On the values and buffers
they accept the two are inverse to each other. A template is a format whose last
code is repeated as often as the caller says, which is how a format string with a
replacement field in it is filled. -/

namespace Pyomb

abbrev Bytes := List UInt8

namespace Struct

/-- `B` is one unsigned byte, `H` two bytes high first, `leH` two bytes low first. -/
inductive Code where
  | B | H | leH
  deriving DecidableEq, Repr

/-- What `struct.error` reports. -/
inductive Error where
  | badFormat
  | itemCount (expected got : ℕ)
  | itemRange (code : Code) (value : ℤ)
  | bufferSize (expected got : ℕ)
  deriving DecidableEq, Repr

def Code.size : Code → ℕ
  | .B => 1
  | .H => 2
  | .leH => 2

def calcsize (fmt : List Code) : ℕ := (fmt.map Code.size).sum

/-- The bytes of a value; only its residue modulo `256 ^ size` is kept. -/
def Code.encode : Code → ℕ → Bytes
  | .B, v => [UInt8.ofNat v]
  | .H, v => [UInt8.ofNat (v / 256), UInt8.ofNat v]
  | .leH, v => [UInt8.ofNat v, UInt8.ofNat (v / 256)]

/-- The value of exactly `size` bytes. -/
def Code.decode : Code → Bytes → ℕ
  | .B, [b] => b.toNat
  | .H, [hi, lo] => 256 * hi.toNat + lo.toNat
  | .leH, [lo, hi] => 256 * hi.toNat + lo.toNat
  | _, _ => 0

/-- The range check a field makes of its item. -/
def Fits (c : Code) (v : ℤ) : Prop := 0 ≤ v ∧ v < 256 ^ c.size

instance (c : Code) (v : ℤ) : Decidable (Fits c v) := inferInstanceAs (Decidable (_ ∧ _))

def packItems : List Code → List ℤ → Except Error Bytes
  | c :: fmt, v :: vs =>
    if Fits c v then (packItems fmt vs).map (c.encode v.toNat ++ ·)
    else .error (.itemRange c v)
  | _, _ => .ok []

def pack (fmt : List Code) (vs : List ℤ) : Except Error Bytes :=
  if vs.length = fmt.length then packItems fmt vs
  else .error (.itemCount fmt.length vs.length)

def unpackItems : List Code → Bytes → List ℤ
  | [], _ => []
  | c :: fmt, s => (c.decode (s.take c.size) : ℤ) :: unpackItems fmt (s.drop c.size)

def unpack (fmt : List Code) (s : Bytes) : Except Error (List ℤ) :=
  if s.length = calcsize fmt then .ok (unpackItems fmt s)
  else .error (.bufferSize (calcsize fmt) s.length)

/-! ### One field -/

@[simp] theorem calcsize_nil : calcsize [] = 0 := rfl

@[simp] theorem calcsize_cons (c : Code) (fmt : List Code) :
    calcsize (c :: fmt) = c.size + calcsize fmt := rfl

@[simp] theorem calcsize_append (f g : List Code) :
    calcsize (f ++ g) = calcsize f + calcsize g := by simp [calcsize]

@[simp] theorem calcsize_replicate (n : ℕ) (c : Code) :
    calcsize (List.replicate n c) = n * c.size := by simp [calcsize]

@[simp] theorem Code.encode_length (c : Code) (v : ℕ) : (c.encode v).length = c.size := by
  cases c <;> rfl

theorem Code.decode_encode (c : Code) {v : ℕ} (h : v < 256 ^ c.size) :
    c.decode (c.encode v) = v := by
  cases c <;> simp [Code.size] at h <;> simp [Code.encode, Code.decode] <;> omega

theorem Code.decode_lt (c : Code) (s : Bytes) : c.decode s < 256 ^ c.size := by
  cases c
  · rcases s with _ | ⟨b, _ | ⟨_, _⟩⟩ <;> simp [Code.decode, Code.size]
    exact b.toNat_lt
  all_goals
    rcases s with _ | ⟨a, _ | ⟨b, _ | ⟨_, _⟩⟩⟩ <;> simp only [Code.decode, Code.size] <;>
      [omega; omega; skip; omega]
    have := a.toNat_lt
    have := b.toNat_lt
    omega

theorem Code.encode_decode (c : Code) {s : Bytes} (h : s.length = c.size) :
    c.encode (c.decode s) = s := by
  cases c
  · obtain ⟨b, rfl⟩ := List.length_eq_one_iff.mp h
    simp [Code.encode, Code.decode]
  all_goals
    obtain ⟨a, b, rfl⟩ := List.length_eq_two.mp h
    have ha := a.toNat_lt
    have hb := b.toNat_lt
    simp only [Code.encode, Code.decode, List.cons.injEq, and_true]
    constructor <;> apply UInt8.toNat_inj.mp <;> rw [UInt8.toNat_ofNat'] <;> omega

theorem fits_decode (c : Code) (s : Bytes) : Fits c (c.decode s) :=
  ⟨by omega, by exact_mod_cast c.decode_lt s⟩

theorem Fits.toNat_lt {c : Code} {v : ℤ} (h : Fits c v) : v.toNat < 256 ^ c.size := by
  have := h.2
  zify
  rw [Int.toNat_of_nonneg h.1]
  exact this

/-! ### Whole records -/

theorem nonneg_of_fits {fmt : List Code} {vs : List ℤ} (h : List.Forall₂ Fits fmt vs) :
    ∀ v ∈ vs, 0 ≤ v := by
  induction h with
  | nil => exact fun v hv => absurd hv List.not_mem_nil
  | cons hv _ ih => exact List.forall_mem_cons.mpr ⟨hv.1, ih⟩

/-- The bytes of items already known to fit. -/
def encodeItems (fmt : List Code) (vs : List ℤ) : Bytes :=
  (List.zipWith (fun c v => Code.encode c v.toNat) fmt vs).flatten

theorem packItems_eq_ok {fmt : List Code} {vs : List ℤ} {s : Bytes} (hl : vs.length = fmt.length) :
    packItems fmt vs = .ok s ↔ List.Forall₂ Fits fmt vs ∧ s = encodeItems fmt vs := by
  induction fmt generalizing vs s with
  | nil =>
    obtain rfl := List.length_eq_zero_iff.mp hl
    simp [packItems, encodeItems, eq_comm]
  | cons c fmt ih =>
    obtain ⟨v, vs, rfl⟩ := List.exists_cons_of_length_eq_add_one hl
    have hl' : vs.length = fmt.length := by simpa using hl
    by_cases hv : Fits c v
    · cases h : packItems fmt vs with
      | error e =>
        have hno : ¬ List.Forall₂ Fits fmt vs := fun hf => by
          simp [(ih hl').mpr ⟨hf, rfl⟩] at h
        simp [packItems, hv, h, Except.map, hno]
      | ok t =>
        obtain ⟨hf, rfl⟩ := (ih hl').mp h
        simp [packItems, hv, h, Except.map, hf, encodeItems, eq_comm]
    · simp [packItems, hv]

theorem pack_eq_ok {fmt : List Code} {vs : List ℤ} {s : Bytes} :
    pack fmt vs = .ok s ↔ List.Forall₂ Fits fmt vs ∧ s = encodeItems fmt vs := by
  by_cases hl : vs.length = fmt.length
  · rw [pack, if_pos hl, packItems_eq_ok hl]
  · have hno : ¬ List.Forall₂ Fits fmt vs := fun hf => hl hf.length_eq.symm
    simp [pack, hl, hno]

theorem unpack_eq_ok {fmt : List Code} {s : Bytes} {vs : List ℤ} :
    unpack fmt s = .ok vs ↔ s.length = calcsize fmt ∧ vs = unpackItems fmt s := by
  unfold unpack
  split_ifs with h <;> simp [h, eq_comm]

theorem encodeItems_length {fmt : List Code} {vs : List ℤ} (hl : vs.length = fmt.length) :
    (encodeItems fmt vs).length = calcsize fmt := by
  induction fmt generalizing vs with
  | nil => simp [encodeItems]
  | cons c fmt ih =>
    obtain ⟨v, vs, rfl⟩ := List.exists_cons_of_length_eq_add_one hl
    have := ih (show vs.length = fmt.length by simpa using hl)
    simp only [encodeItems] at this
    simp [encodeItems, this]

theorem encodeItems_append {f g : List Code} {vs ws : List ℤ} (hl : vs.length = f.length) :
    encodeItems (f ++ g) (vs ++ ws) = encodeItems f vs ++ encodeItems g ws := by
  rw [encodeItems, List.zipWith_append hl.symm, List.flatten_append]
  rfl

theorem unpackItems_length (fmt : List Code) (s : Bytes) :
    (unpackItems fmt s).length = fmt.length := by
  induction fmt generalizing s with
  | nil => rfl
  | cons c fmt ih => simp [unpackItems, ih]

theorem unpackItems_encodeItems {fmt : List Code} {vs : List ℤ} (h : List.Forall₂ Fits fmt vs) :
    unpackItems fmt (encodeItems fmt vs) = vs := by
  induction h with
  | nil => rfl
  | @cons c v fmt vs hv _ ih =>
    have hcat : encodeItems (c :: fmt) (v :: vs) = c.encode v.toNat ++ encodeItems fmt vs := by
      simp [encodeItems]
    rw [hcat, unpackItems, List.take_left' (c.encode_length _), List.drop_left' (c.encode_length _),
      c.decode_encode hv.toNat_lt, ih, Int.toNat_of_nonneg hv.1]

theorem fits_unpackItems (fmt : List Code) (s : Bytes) :
    List.Forall₂ Fits fmt (unpackItems fmt s) := by
  induction fmt generalizing s with
  | nil => exact .nil
  | cons c fmt ih => exact .cons (fits_decode c _) (ih _)

theorem encodeItems_unpackItems {fmt : List Code} {s : Bytes} (h : s.length = calcsize fmt) :
    encodeItems fmt (unpackItems fmt s) = s := by
  induction fmt generalizing s with
  | nil => simpa [encodeItems, eq_comm] using h
  | cons c fmt ih =>
    rw [calcsize_cons] at h
    have htake : (s.take c.size).length = c.size := by rw [List.length_take]; omega
    have hdrop : (s.drop c.size).length = calcsize fmt := by rw [List.length_drop]; omega
    have := ih hdrop
    simp only [encodeItems] at this
    simp [encodeItems, unpackItems, this, c.encode_decode htake]

/-- Unpacking undoes packing. -/
theorem unpack_pack {fmt : List Code} {vs : List ℤ} {s : Bytes} (h : pack fmt vs = .ok s) :
    unpack fmt s = .ok vs := by
  obtain ⟨hf, rfl⟩ := pack_eq_ok.mp h
  exact unpack_eq_ok.mpr ⟨encodeItems_length hf.length_eq.symm, (unpackItems_encodeItems hf).symm⟩

/-- Packing undoes unpacking. -/
theorem pack_unpack {fmt : List Code} {s : Bytes} {vs : List ℤ} (h : unpack fmt s = .ok vs) :
    pack fmt vs = .ok s := by
  obtain ⟨hl, rfl⟩ := unpack_eq_ok.mp h
  exact pack_eq_ok.mpr ⟨fits_unpackItems fmt s, (encodeItems_unpackItems hl).symm⟩

theorem pack_length {fmt : List Code} {vs : List ℤ} {s : Bytes} (h : pack fmt vs = .ok s) :
    s.length = calcsize fmt := by
  obtain ⟨hf, rfl⟩ := pack_eq_ok.mp h
  exact encodeItems_length hf.length_eq.symm

/-- A format that opens with one byte reads the first byte of the buffer. -/
theorem unpack_head {fmt : List Code} {s : Bytes} {v : ℤ} {vs : List ℤ}
    (h : unpack (.B :: fmt) s = .ok (v :: vs)) : ∃ b rest, s = b :: rest ∧ v = b.toNat := by
  obtain ⟨hl, hv⟩ := unpack_eq_ok.mp h
  rcases s with _ | ⟨b, rest⟩
  · simp [Code.size] at hl; omega
  · exact ⟨b, rest, rfl, by simpa [unpackItems, Code.size, Code.decode] using (List.cons.inj hv).1⟩

theorem unpack_length {fmt : List Code} {s : Bytes} {vs : List ℤ} (h : unpack fmt s = .ok vs) :
    vs.length = fmt.length := by
  rw [(unpack_eq_ok.mp h).2, unpackItems_length]

/-! ### Templates -/

/-- A format string whose last code may be preceded by a replacement field for
its repeat count. -/
structure Template where
  head : List Code
  tail : Option Code
  deriving DecidableEq, Repr

/-- Fill the repeat count. A template without a replacement field ignores the
count, and a negative count leaves a sign no format string may hold. -/
def Template.fill (t : Template) (n : ℤ) : Except Error (List Code) :=
  match t.tail with
  | none => .ok t.head
  | some c => if n < 0 then .error .badFormat else .ok (t.head ++ List.replicate n.toNat c)

theorem Template.fill_eq_ok_of_tail {t : Template} {c : Code} (h : t.tail = some c) {n : ℤ}
    {fmt : List Code} :
    t.fill n = .ok fmt ↔ 0 ≤ n ∧ fmt = t.head ++ List.replicate n.toNat c := by
  unfold Template.fill
  rw [h]
  dsimp only
  split_ifs with hn
  · simp [show ¬ 0 ≤ n by omega]
  · simp [show 0 ≤ n by omega, eq_comm]

theorem Template.fill_eq_ok_of_none {t : Template} (h : t.tail = none) {n : ℤ} {fmt : List Code} :
    t.fill n = .ok fmt ↔ fmt = t.head := by
  unfold Template.fill
  rw [h]
  simp [eq_comm]

/-- `struct.pack(template.format(n), *vs)`. -/
def Template.pack (t : Template) (n : ℤ) (vs : List ℤ) : Except Error Bytes :=
  (t.fill n).bind (Struct.pack · vs)

/-- `struct.unpack(template.format(n), s)`. -/
def Template.unpack (t : Template) (n : ℤ) (s : Bytes) : Except Error (List ℤ) :=
  (t.fill n).bind (Struct.unpack · s)

theorem Template.pack_eq_ok {t : Template} {n : ℤ} {vs : List ℤ} {s : Bytes} :
    t.pack n vs = .ok s ↔ ∃ fmt, t.fill n = .ok fmt ∧ Struct.pack fmt vs = .ok s := by
  cases h : t.fill n <;> simp [Template.pack, h, Except.bind]

theorem Template.unpack_eq_ok {t : Template} {n : ℤ} {s : Bytes} {vs : List ℤ} :
    t.unpack n s = .ok vs ↔ ∃ fmt, t.fill n = .ok fmt ∧ Struct.unpack fmt s = .ok vs := by
  cases h : t.fill n <;> simp [Template.unpack, h, Except.bind]

theorem Template.unpack_pack {t : Template} {n : ℤ} {vs : List ℤ} {s : Bytes}
    (h : t.pack n vs = .ok s) : t.unpack n s = .ok vs := by
  obtain ⟨fmt, hf, hp⟩ := pack_eq_ok.mp h
  exact unpack_eq_ok.mpr ⟨fmt, hf, Struct.unpack_pack hp⟩

theorem Template.pack_unpack {t : Template} {n : ℤ} {vs : List ℤ} {s : Bytes}
    (h : t.unpack n s = .ok vs) : t.pack n vs = .ok s := by
  obtain ⟨fmt, hf, hu⟩ := unpack_eq_ok.mp h
  exact pack_eq_ok.mpr ⟨fmt, hf, Struct.pack_unpack hu⟩

/-- A repeated template fixes its count by the items it packs, and its size by the count. -/
theorem Template.pack_tail {t : Template} {c : Code} (ht : t.tail = some c) {n : ℤ} {vs : List ℤ}
    {s : Bytes} (h : t.pack n vs = .ok s) :
    0 ≤ n ∧ (vs.length : ℤ) = t.head.length + n ∧
      (s.length : ℤ) = calcsize t.head + n * c.size := by
  obtain ⟨fmt, hf, hp⟩ := pack_eq_ok.mp h
  obtain ⟨hn, rfl⟩ := (fill_eq_ok_of_tail ht).mp hf
  have hl := (Struct.pack_eq_ok.mp hp).1.length_eq
  have hs := pack_length hp
  simp only [List.length_append, List.length_replicate, calcsize_append, calcsize_replicate]
    at hl hs
  refine ⟨hn, by omega, ?_⟩
  rw [hs]
  push_cast
  rw [Int.toNat_of_nonneg hn]

theorem Template.pack_head {t : Template} (ht : t.tail = none) {n : ℤ} {vs : List ℤ} {s : Bytes}
    (h : t.pack n vs = .ok s) : vs.length = t.head.length ∧ s.length = calcsize t.head := by
  obtain ⟨fmt, hf, hp⟩ := pack_eq_ok.mp h
  obtain rfl := (fill_eq_ok_of_none ht).mp hf
  exact ⟨(Struct.pack_eq_ok.mp hp).1.length_eq.symm, pack_length hp⟩

end Struct

end Pyomb
