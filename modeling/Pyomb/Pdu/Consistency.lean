import Mathlib.Data.List.GetD
import Pyomb.Pdu.RoundTrip

/-! What a PDU says of its own size, and what of that its findings check. A class sizes
its payload by a count field, by the sub-function in front of it, or not at all. The
count and the payload are set apart from each other, so a PDU can serialize and still
say something of its size that is not so. -/

namespace Pyomb

open Struct

def PduLayout.itemSize (l : PduLayout) : ℕ := (l.pduFormat.tail.map Code.size).getD 0

def PduLayout.headSize (l : PduLayout) : ℕ := calcsize l.pduFormat.head

namespace Pdu

def payloadSize (p : Pdu) : ℕ := p.tail.length * p.layout.itemSize

/-- The count field, which is the last of the named ones. -/
def count (p : Pdu) : ℤ := p.fields.getLastD 0

/-- The count field, where the class has one, is the size of the payload. -/
def CountTruthful (p : Pdu) : Prop := p.layout.pduCount ≠ none → p.count = p.payloadSize

def headBytes (p : Pdu) : Bytes := encodeItems p.layout.pduFormat.head (p.wireFc :: p.fields)

/-! ### The two halves of a serialized PDU -/

theorem tail_of_format {p : Pdu} (h : p.layout.pduFormat.tail = none) : p.tail = [] := by
  cases p <;> first | rfl | cases h

theorem head_of_count {p : Pdu} (h : p.layout.pduCount ≠ none) :
    ∃ fmt vs, p.layout.pduFormat.head = fmt ++ [.B] ∧ p.wireFc :: p.fields = vs ++ [p.count] ∧
      vs.length = fmt.length ∧ p.layout.pduFormat.tail ≠ none := by
  refine ⟨p.layout.pduFormat.head.dropLast, (p.wireFc :: p.fields).dropLast, ?_⟩
  cases p <;> first | exact absurd rfl h | exact ⟨rfl, rfl, rfl, nofun⟩

theorem serialize_halves {p : Pdu} {s : Bytes} (h : p.serialize = .ok s) :
    ∃ payload, s = p.headBytes ++ payload ∧ p.headBytes.length = p.layout.headSize ∧
      payload.length = p.payloadSize ∧
      List.Forall₂ Fits p.layout.pduFormat.head (p.wireFc :: p.fields) := by
  have hlen : (p.wireFc :: p.fields).length = p.layout.pduFormat.head.length := p.fields_length
  obtain ⟨fmt, hf, hp⟩ := Template.pack_eq_ok.mp (serialize_eq_ok.mp h)
  obtain ⟨hfits, rfl⟩ := pack_eq_ok.mp hp
  cases ht : p.layout.pduFormat.tail with
  | none =>
    obtain rfl := (Template.fill_eq_ok_of_none ht).mp hf
    rw [data, tail_of_format ht, List.append_nil] at hfits ⊢
    exact ⟨[], by rw [List.append_nil]; rfl, encodeItems_length hlen,
      by simp [payloadSize, tail_of_format ht], hfits⟩
  | some k =>
    obtain ⟨-, rfl⟩ := (Template.fill_eq_ok_of_tail ht).mp hf
    have hn : p.serializeCount.toNat = p.tail.length := by rw [count_of_serialize h]; rfl
    rw [data, ← List.cons_append, hn] at hfits ⊢
    refine ⟨_, encodeItems_append hlen, encodeItems_length hlen, ?_, ?_⟩
    · rw [encodeItems_length (by simp)]
      simp [payloadSize, PduLayout.itemSize, ht]
    · have htake := List.forall₂_take p.layout.pduFormat.head.length hfits
      rwa [List.take_left' rfl, List.take_left' hlen] at htake

theorem serialize_length {p : Pdu} {s : Bytes} (h : p.serialize = .ok s) :
    s.length = p.layout.headSize + p.payloadSize := by
  obtain ⟨payload, rfl, hhead, hpay, -⟩ := serialize_halves h
  rw [List.length_append, hhead, hpay]

theorem serialize_count {p : Pdu} {s : Bytes} (h : p.serialize = .ok s)
    (hc : p.layout.pduCount ≠ none) : ((s.getD (p.layout.headSize - 1) 0).toNat : ℤ) = p.count := by
  obtain ⟨payload, rfl, hhead, -, hfits⟩ := serialize_halves h
  obtain ⟨fmt, vs, hfmt, hvs, hl, -⟩ := head_of_count hc
  have hsplit : p.headBytes = encodeItems fmt vs ++ [UInt8.ofNat p.count.toNat] := by
    rw [headBytes, hfmt, hvs, encodeItems_append hl]
    rfl
  have hcount : Fits .B p.count := by
    have hdrop := List.forall₂_drop fmt.length hfits
    rw [hfmt, hvs, List.drop_left' rfl, List.drop_left' hl] at hdrop
    cases hdrop with
    | cons hv _ => exact hv
  have hpos : (encodeItems fmt vs).length = p.layout.headSize - 1 := by
    rw [← hhead, hsplit, List.length_append, List.length_singleton, Nat.add_sub_cancel]
  obtain ⟨h0, h256⟩ := hcount
  simp only [Code.size] at h256
  rw [hsplit, List.append_assoc, List.getD_append_right _ _ _ _ hpos.le, hpos, Nat.sub_self,
    List.singleton_append, List.getD_cons_zero, UInt8.toNat_ofNat']
  omega

end Pdu

/-! ### The size read from a prefix -/

theorem PduClass.expectedSize_eq_layout {c : PduClass} (h1 : c ≠ .modbusRequestFC8)
    (h2 : c ≠ .modbusResponseFC8) (s : Bytes) : c.expectedSize s = c.layout.expectedSize s := by
  cases c <;> first | rfl | exact absurd rfl h1 | exact absurd rfl h2

/-- The layout fixes the size, or has a field that counts the payload. -/
def PduLayout.StatesSize (l : PduLayout) : Prop := l.pduFormat.tail = none ∨ l.pduCount ≠ none

instance (l : PduLayout) : Decidable l.StatesSize := inferInstanceAs (Decidable (_ ∨ _))

theorem PduLayout.expectedSize_unstated {l : PduLayout} (hl : ¬ l.StatesSize) (s : Bytes)
    (n : Option ℕ) : l.expectedSize s ≠ .ok n := by
  obtain ⟨ht, hc⟩ := not_or.mp hl
  obtain ⟨k, hk⟩ := Option.ne_none_iff_exists'.mp ht
  unfold expectedSize
  rw [hk, not_not.mp hc]
  nofun

namespace Pdu

/-- Where the layout states a size, the one read off a serialized PDU is its own exactly
where the count, if there is one, is truthful. -/
theorem expectedSize_stated {p : Pdu} {s : Bytes} (h : p.serialize = .ok s)
    (hl : p.layout.StatesSize) :
    ∃ n, p.layout.expectedSize s = .ok (some n) ∧ (n = s.length ↔ p.CountTruthful) := by
  have hlen := serialize_length h
  unfold PduLayout.expectedSize CountTruthful
  cases ht : p.layout.pduFormat.tail with
  | none =>
    have hnone : p.layout.pduCount = none := by
      by_contra hc
      obtain ⟨-, -, -, -, -, htail⟩ := head_of_count hc
      exact htail ht
    have hpay : p.payloadSize = 0 := by simp [payloadSize, tail_of_format ht]
    exact ⟨_, rfl, by simp [hnone, hlen, hpay, PduLayout.headSize]⟩
  | some k =>
    obtain ⟨field, hc⟩ := Option.ne_none_iff_exists'.mp (hl.resolve_left (by rw [ht]; nofun))
    have hcount := serialize_count h (by rw [hc]; nofun)
    have hge : ¬ s.length < calcsize p.layout.pduFormat.head := by
      rw [hlen, PduLayout.headSize]; omega
    simp only [hc, if_neg hge, PduLayout.headSize] at hcount hlen ⊢
    refine ⟨_, rfl, ?_⟩
    simp only [ne_eq, reduceCtorEq, not_false_eq_true, true_imp_iff]
    omega

/-- The sub-function of a serialized diagnostics PDU decides its size: one listed states
five bytes, except that an echo states none. -/
theorem diagnosticSize_serialize {p : Pdu} {s : Bytes} (h : p.serialize = .ok s) {subFunc : ℤ}
    (hfmt : p.layout.pduFormat = ⟨[.B, .H], some .H⟩) (hf : p.fields = [subFunc])
    (hmem : subFunc ∈ PduLayout.diagnosticSubFunctions) {name : String} {n : ℕ} :
    PduLayout.diagnosticSizeFromPrefix name s = .ok (some n) ↔
      subFunc ≠ 0 ∧ n = PduLayout.diagnosticSize := by
  obtain ⟨payload, rfl, hhead, -, hfits⟩ := serialize_halves h
  rw [hfmt, hf] at hfits
  obtain ⟨-, hfits⟩ := List.forall₂_cons.mp hfits
  obtain ⟨hsub, -⟩ := List.forall₂_cons.mp hfits
  have hbytes : p.headBytes = Code.B.encode p.wireFc.toNat ++ Code.H.encode subFunc.toNat := by
    rw [headBytes, hfmt, hf]
    rfl
  have hlen : (p.headBytes).length = calcsize [.B, .H] := by
    rw [hhead, PduLayout.headSize, hfmt]
  have hdecode : Code.H.decode (((p.headBytes ++ payload).take (calcsize [.B, .H])).drop 1) =
      subFunc.toNat := by
    have hb : (Code.B.encode p.wireFc.toNat).length = 1 := Code.encode_length _ _
    rw [List.take_left' hlen, hbytes, List.drop_left' hb, Code.decode_encode _ hsub.toNat_lt]
  have hge : ¬ (p.headBytes ++ payload).length < calcsize [.B, .H] := by
    rw [List.length_append, hlen]; omega
  have hnat : (subFunc.toNat : ℤ) = subFunc := Int.toNat_of_nonneg hsub.1
  unfold PduLayout.diagnosticSizeFromPrefix
  dsimp only
  rw [if_neg hge, hdecode, hnat, if_pos hmem]
  split_ifs with hecho
  · have : subFunc = 0 := by rw [← hnat, hecho]; rfl
    simp [this]
  · have : subFunc ≠ 0 := fun h0 => hecho (by rw [h0]; rfl)
    simp [this, eq_comm]

end Pdu

/-- The PDUs whose layout states a size and whose count is truthful, and the diagnostics
PDUs other than an echo that carry the one word they are sized for. -/
def Pdu.Sized : Pdu → Prop
  | modbusRequestFC8 subFunc subfuncData | modbusResponseFC8 subFunc subfuncData =>
    subFunc ∈ PduLayout.diagnosticSubFunctions ∧ subFunc ≠ 0 ∧ subfuncData.length = 1
  | p => p.layout.StatesSize ∧ p.CountTruthful

theorem Pdu.expectedSize_of_sized {p : Pdu} {s : Bytes} (hp : p.Sized) (h : p.serialize = .ok s) :
    p.cls.expectedSize s = .ok (some s.length) := by
  have hlen := serialize_length h
  have hecho {subFunc : ℤ} {name : String} (hfmt : p.layout.pduFormat = ⟨[.B, .H], some .H⟩)
      (hf : p.fields = [subFunc]) (hmem : subFunc ∈ PduLayout.diagnosticSubFunctions)
      (hne : subFunc ≠ 0) (hone : p.tail.length = 1) :
      PduLayout.diagnosticSizeFromPrefix name s = .ok (some s.length) := by
    refine (diagnosticSize_serialize h hfmt hf hmem).mpr ⟨hne, ?_⟩
    rw [hlen, PduLayout.headSize, payloadSize, PduLayout.itemSize, hfmt, hone]
    rfl
  have hstated (h1 : p.cls ≠ .modbusRequestFC8) (h2 : p.cls ≠ .modbusResponseFC8)
      (hp : p.layout.StatesSize ∧ p.CountTruthful) :
      p.cls.expectedSize s = .ok (some s.length) := by
    obtain ⟨n, hn, hiff⟩ := expectedSize_stated h hp.1
    rw [PduClass.expectedSize_eq_layout h1 h2, ← hiff.mpr hp.2]
    exact hn
  cases p <;> first
    | exact hecho rfl rfl hp.1 hp.2.1 hp.2.2
    | exact hstated nofun nofun hp

/-! ### What the findings leave open -/

/-- The byte-count field in front of a payload is the number of bytes behind it. -/
def PduClass.CountsPayload (c : PduClass) (s : Bytes) : Prop :=
  c.layout.pduCount ≠ none →
    (s.getD (c.layout.headSize - 1) 0).toNat = (s.drop c.layout.headSize).length

instance (c : PduClass) (s : Bytes) : Decidable (c.CountsPayload s) :=
  inferInstanceAs (Decidable (_ → _))

/-- The bytes of a PDU agree with what they say of their own size. -/
structure PduClass.SelfConsistent (c : PduClass) (s : Bytes) : Prop where
  count : c.CountsPayload s
  size : ∀ n, c.expectedSize s = .ok (some n) → n = s.length

namespace Pdu

/-- What no finding reports: that the payload of a write is as long as its byte count
says, and that a diagnostics PDU other than an echo carries one word. -/
def Filled : Pdu → Prop
  | modbusRequestFC15 _ _ byteCount values => byteCount = values.length
  | modbusRequestFC16 _ _ byteCount values => byteCount = 2 * values.length
  | modbusRequestFC23 _ _ _ _ writeByteCount writeValues =>
    writeByteCount = 2 * writeValues.length
  | modbusRequestFC8 subFunc subfuncData | modbusResponseFC8 subFunc subfuncData =>
    subFunc = 0 ∨ subfuncData.length = 1
  | _ => True

instance : DecidablePred Filled := fun p => by
  apply p.casesOn (motive := fun p => Decidable p.Filled) <;> intros <;> unfold Filled <;>
    infer_instance

theorem countsPayload_iff {p : Pdu} {s : Bytes} (h : p.serialize = .ok s) :
    p.cls.CountsPayload s ↔ p.CountTruthful := by
  have hlen := serialize_length h
  refine imp_congr_right fun hc => ?_
  have hcount := serialize_count h hc
  rw [layout] at hcount hlen
  rw [List.length_drop]
  omega

end Pdu

section Layouts

open PduLayout in
attribute [local simp] modbusRequestFC1 modbusResponseFC1 modbusRequestFC2 modbusResponseFC2
  modbusRequestFC3 modbusResponseFC3 modbusRequestFC4 modbusResponseFC4 modbusRequestFC5
  modbusResponseFC5 modbusRequestFC6 modbusResponseFC6 modbusRequestFC7 modbusResponseFC7
  modbusRequestFC8 modbusResponseFC8 modbusRequestFC15 modbusResponseFC15 modbusRequestFC16
  modbusResponseFC16 modbusRequestFC22 modbusResponseFC22 modbusRequestFC23 modbusResponseFC23
  modbusRequestFC43 modbusResponseFC43 modbusError modbusPdu PduClass.layout

/-- Findings absent, the count is truthful in every class but the three writes, where
being filled is what it takes. -/
theorem Pdu.countTruthful_iff {p : Pdu} (hv : p.violations = [])
    (h1 : p.cls ≠ .modbusRequestFC8) (h2 : p.cls ≠ .modbusResponseFC8) :
    p.CountTruthful ↔ p.Filled := by
  have hown := (List.append_eq_nil_iff.mp hv).2
  cases p <;> simp only [ownViolations, PduLayout.fixedCount_eq_nil] at hown <;> first
    | exact absurd rfl h1
    | exact absurd rfl h2
    | simp [CountTruthful, Filled, count, payloadSize, tail, fields, layout, cls,
        PduLayout.itemSize, Code.size, hown, mul_comm]

end Layouts

/-- A PDU without findings agrees with what it says of itself exactly where it is filled. -/
theorem Pdu.selfConsistent_iff {p : Pdu} {s : Bytes} (hv : p.violations = [])
    (h : p.serialize = .ok s) : p.cls.SelfConsistent s ↔ p.Filled := by
  by_cases hdiag : p.cls = .modbusRequestFC8 ∨ p.cls = .modbusResponseFC8
  · obtain ⟨subFunc, subfuncData, hfields, htail, hown, hfilled⟩ : ∃ subFunc subfuncData,
        p.fields = [subFunc] ∧ p.tail = subfuncData ∧
          (p.ownViolations = [] → subFunc ∈ PduLayout.diagnosticSubFunctions) ∧
          (p.Filled ↔ subFunc = 0 ∨ subfuncData.length = 1) := by
      rcases hdiag with hc | hc <;> cases p <;> simp only [cls, reduceCtorEq] at hc <;>
        exact ⟨_, _, rfl, rfl, fun hn => by simpa [ownViolations] using hn, Iff.rfl⟩
    have hfmt : p.layout.pduFormat = ⟨[.B, .H], some .H⟩ := by
      rcases hdiag with hc | hc <;> rw [layout, hc] <;> rfl
    have hsize : p.cls.expectedSize s = PduLayout.diagnosticSizeFromPrefix p.layout.name s := by
      rcases hdiag with hc | hc <;> rw [layout, hc] <;> rfl
    have hcount : p.cls.CountsPayload s := by
      rcases hdiag with hc | hc <;> rw [hc] <;> exact fun hn => absurd rfl hn
    have hmem := hown (List.append_eq_nil_iff.mp hv).2
    have hlen : s.length = 3 + 2 * subfuncData.length := by
      rw [serialize_length h, payloadSize, PduLayout.headSize, PduLayout.itemSize, hfmt, htail]
      exact congrArg (3 + ·) (mul_comm _ _)
    have hfive : PduLayout.diagnosticSize = 5 := rfl
    rw [hfilled]
    constructor
    · intro hs
      by_contra hno
      have := hs.size _ (hsize ▸ (diagnosticSize_serialize h hfmt hfields hmem).mpr
        ⟨fun h0 => hno (.inl h0), rfl⟩)
      omega
    · refine fun hor => ⟨hcount, fun n hn => ?_⟩
      obtain ⟨hne, rfl⟩ := (diagnosticSize_serialize h hfmt hfields hmem).mp (hsize ▸ hn)
      have := hor.resolve_left hne
      omega
  · have h1 : p.cls ≠ .modbusRequestFC8 := fun hc => hdiag (.inl hc)
    have h2 : p.cls ≠ .modbusResponseFC8 := fun hc => hdiag (.inr hc)
    rw [← countTruthful_iff hv h1 h2]
    refine ⟨fun hs => (countsPayload_iff h).mp hs.count, fun ht =>
      ⟨(countsPayload_iff h).mpr ht, fun n hn => ?_⟩⟩
    rw [PduClass.expectedSize_eq_layout h1 h2] at hn
    by_cases hl : p.layout.StatesSize
    · obtain ⟨m, hm, hiff⟩ := expectedSize_stated h hl
      obtain rfl : m = n := Option.some.inj (Except.ok.inj (hm.symm.trans hn))
      exact hiff.mpr ht
    · exact absurd hn (PduLayout.expectedSize_unstated hl s _)

end Pyomb
