import Pyomb.Pdu.Parser

/-! Encoding and decoding are inverse, for every class at once. The layouts enter
through a few facts checked class by class: `build` inverts the payload, the payload
has the shape of the format, and the count read off a stream's length is the count
the format was filled with. Everything else is the pack and unpack of a template. -/

namespace Pyomb

open Struct

/-- The first item on the wire: the function code, masked in the error PDU. -/
def Pdu.wireFc : Pdu → ℤ
  | .modbusError fc _ => fc + errorMask
  | p => p.fc

/-! ### Facts of the layouts -/

section Layouts

open PduLayout in
attribute [local simp] modbusRequestFC1 modbusResponseFC1 modbusRequestFC2 modbusResponseFC2
  modbusRequestFC3 modbusResponseFC3 modbusRequestFC4 modbusResponseFC4 modbusRequestFC5
  modbusResponseFC5 modbusRequestFC6 modbusResponseFC6 modbusRequestFC7 modbusResponseFC7
  modbusRequestFC8 modbusResponseFC8 modbusRequestFC15 modbusResponseFC15 modbusRequestFC16
  modbusResponseFC16 modbusRequestFC22 modbusResponseFC22 modbusRequestFC23 modbusResponseFC23
  modbusRequestFC43 modbusResponseFC43 modbusError modbusPdu PduClass.layout

theorem PduClass.itemCount_calcsize (c : PduClass) {k : Code}
    (hk : c.layout.pduFormat.tail = some k) (n : ℤ) :
    c.layout.itemCount (calcsize c.layout.pduFormat.head + n * k.size) = n := by
  cases c <;> simp at hk <;> subst hk <;> simp [Code.size]

theorem PduClass.format_head (c : PduClass) : ∃ fmt, c.layout.pduFormat.head = .B :: fmt := by
  cases c <;> simp

theorem Pdu.fields_length (p : Pdu) : p.fields.length + 1 = p.layout.pduFormat.head.length := by
  cases p <;> simp [layout, cls, fields]

end Layouts

theorem Pdu.build_data (p : Pdu) : p.cls.build (p.wireFc :: p.data) = p := by
  cases p with
  | modbusError fc excCode => exact congrArg (modbusError · excCode) (add_sub_cancel_right fc _)
  | _ => rfl

/-- The payload of what `build` makes is the tuple read item by item as far as the format's
head goes, and the rest of it where the format has a tail. -/
theorem PduClass.data_build_eq (c : PduClass) (fc : ℤ) (vs : List ℤ) :
    (c.build (fc :: vs)).data =
      (List.range (c.layout.pduFormat.head.length - 1)).map (fun i => vs.getD i 0) ++
        if c.layout.pduFormat.tail.isSome then vs.drop (c.layout.pduFormat.head.length - 1)
        else [] := by
  cases c <;> rfl

theorem map_getD_append_drop {vs : List ℤ} {k : ℕ} (h : k ≤ vs.length) :
    (List.range k).map (fun i => vs.getD i 0) ++ vs.drop k = vs := by
  have htake : (List.range k).map (fun i => vs.getD i 0) = vs.take k := by
    apply List.ext_getElem
    · simp [h]
    · intro i hi hi'
      rw [List.length_take] at hi'
      simp [List.getElem?_eq_getElem (show i < vs.length by omega)]
  rw [htake, List.take_append_drop]

theorem PduClass.data_build (c : PduClass) (fc : ℤ) {vs : List ℤ}
    (hnone : c.layout.pduFormat.tail = none → vs.length + 1 = c.layout.pduFormat.head.length)
    (hsome : c.layout.pduFormat.head.length ≤ vs.length + 1) :
    (c.build (fc :: vs)).data = vs := by
  have hvs := map_getD_append_drop (show c.layout.pduFormat.head.length - 1 ≤ vs.length by omega)
  rw [data_build_eq]
  cases htail : c.layout.pduFormat.tail with
  | none =>
    have hlen := hnone htail
    rwa [List.drop_eq_nil_of_le (by omega)] at hvs
  | some k => exact hvs

theorem PduClass.build_cls (c : PduClass) (pdu : List ℤ) : (c.build pdu).cls = c := by
  cases c <;> rfl

/-- `build` puts the class's own function code in place of the one it is given, except
in the two classes that take it as an argument. -/
theorem PduClass.wireFc_build (c : PduClass) (fc : ℤ) (vs : List ℤ) :
    (c.build (fc :: vs)).wireFc =
      if c = .modbusError ∨ c = .modbusPdu then fc else c.layout.fc := by
  cases c with
  | modbusError => exact sub_add_cancel fc errorMask
  | _ => rfl

/-- Only the two bit responses serialize under a count other than their tail's length. -/
theorem Pdu.serializeCount_eq (p : Pdu) (h1 : p.cls ≠ .modbusResponseFC1)
    (h2 : p.cls ≠ .modbusResponseFC2) : p.serializeCount = p.tail.length := by
  cases p <;> first | rfl | exact absurd rfl h1 | exact absurd rfl h2

/-! ### One class -/

theorem Pdu.serialize_eq_ok {p : Pdu} {s : Bytes} : p.serialize = .ok s ↔
    p.layout.pduFormat.pack p.serializeCount (p.wireFc :: p.data) = .ok s := by
  cases p <;> simp only [serialize, packUnder, mapError_eq_ok] <;> rfl

theorem PduClass.deserialize_eq_ok {c : PduClass} {s : Bytes} {p : Pdu} :
    c.deserialize s = .ok p ↔
      ∃ pdu, c.layout.pduFormat.unpack (c.layout.itemCount s.length) s = .ok pdu ∧
        p = c.build pdu := by
  unfold deserialize
  cases c.layout.pduFormat.unpack (c.layout.itemCount s.length) s <;> simp [eq_comm]

theorem Pdu.count_of_serialize {p : Pdu} {s : Bytes} (h : p.serialize = .ok s) :
    p.serializeCount = p.tail.length := by
  by_cases ht : p.layout.pduFormat.tail = none
  · exact p.serializeCount_eq (fun hc => by rw [layout, hc] at ht; cases ht)
      (fun hc => by rw [layout, hc] at ht; cases ht)
  · obtain ⟨k, hk⟩ := Option.ne_none_iff_exists'.mp ht
    have hl := (Template.pack_tail hk (serialize_eq_ok.mp h)).2.1
    have hf := p.fields_length
    simp only [data, List.length_cons, List.length_append] at hl
    omega

theorem Template.unpack_itemCount {c : PduClass} {n : ℤ} {vs : List ℤ} {s : Bytes}
    (h : c.layout.pduFormat.pack n vs = .ok s) :
    c.layout.pduFormat.unpack (c.layout.itemCount s.length) s = .ok vs := by
  cases ht : c.layout.pduFormat.tail with
  | none =>
    obtain ⟨fmt, hf, hp⟩ := Template.pack_eq_ok.mp h
    exact Template.unpack_eq_ok.mpr ⟨fmt, (Template.fill_eq_ok_of_none ht).mpr
      ((Template.fill_eq_ok_of_none ht).mp hf), Struct.unpack_pack hp⟩
  | some k =>
    rw [(Template.pack_tail ht h).2.2, c.itemCount_calcsize ht]
    exact Template.unpack_pack h

theorem Pdu.deserialize_serialize {p : Pdu} {s : Bytes} (h : p.serialize = .ok s) :
    p.cls.deserialize s = .ok p :=
  PduClass.deserialize_eq_ok.mpr
    ⟨_, Template.unpack_itemCount (serialize_eq_ok.mp h), p.build_data.symm⟩

/-- What a class decodes: the unpacked tuple opens with the stream's first byte and
goes on with the payload of the object. -/
theorem PduClass.unpack_of_deserialize {c : PduClass} {s : Bytes} {p : Pdu}
    (h : c.deserialize s = .ok p) : ∃ b rest, s = b :: rest ∧
      c.layout.pduFormat.unpack (c.layout.itemCount s.length) s = .ok ((b.toNat : ℤ) :: p.data) ∧
      p = c.build ((b.toNat : ℤ) :: p.data) := by
  obtain ⟨pdu, hu, rfl⟩ := deserialize_eq_ok.mp h
  obtain ⟨cs, hcs⟩ := c.format_head
  have hp := Template.pack_unpack hu
  have hshape : (c.layout.pduFormat.tail = none → pdu.length = c.layout.pduFormat.head.length) ∧
      c.layout.pduFormat.head.length ≤ pdu.length := by
    cases ht : c.layout.pduFormat.tail with
    | none => have := (Template.pack_head ht hp).1; exact ⟨fun _ => this, this.ge⟩
    | some k => have := Template.pack_tail ht hp; exact ⟨nofun, by omega⟩
  rcases pdu with _ | ⟨v, vs⟩
  · have := hshape.2
    simp [hcs] at this
  · have hd := c.data_build v hshape.1 hshape.2
    obtain ⟨fmt, hf, hu'⟩ := Template.unpack_eq_ok.mp hu
    obtain ⟨fmt', rfl⟩ : ∃ fmt', fmt = .B :: fmt' := by
      cases ht : c.layout.pduFormat.tail with
      | none => exact ⟨cs, by rw [(Template.fill_eq_ok_of_none ht).mp hf, hcs]⟩
      | some k =>
        exact ⟨_, by rw [((Template.fill_eq_ok_of_tail ht).mp hf).2, hcs, List.cons_append]⟩
    obtain ⟨b, rest, rfl, rfl⟩ := unpack_head hu'
    exact ⟨b, rest, rfl, by rw [hd]; exact hu, by rw [hd]⟩

theorem PduClass.cls_of_deserialize {c : PduClass} {s : Bytes} {p : Pdu}
    (h : c.deserialize s = .ok p) : p.cls = c := by
  obtain ⟨pdu, -, rfl⟩ := deserialize_eq_ok.mp h
  exact c.build_cls pdu

/-- Encoding undoes decoding where the stream opened with the object's function code
and the object's count is the length of its tail, and only there. -/
theorem PduClass.serialize_of_deserialize {c : PduClass} {b : UInt8} {rest : Bytes} {p : Pdu}
    (h : c.deserialize (b :: rest) = .ok p) (hfc : p.wireFc = b.toNat) :
    p.serialize = .ok (b :: rest) ↔ p.serializeCount = p.tail.length := by
  refine ⟨Pdu.count_of_serialize, fun hcount => ?_⟩
  have hc := cls_of_deserialize h
  obtain ⟨b', rest', hs, hu, -⟩ := unpack_of_deserialize h
  obtain ⟨rfl, rfl⟩ := List.cons.inj hs
  rw [Pdu.serialize_eq_ok, hfc, Pdu.layout, hc]
  have hp := Template.pack_unpack hu
  cases ht : c.layout.pduFormat.tail with
  | none =>
    obtain ⟨fmt, hf, hp'⟩ := Template.pack_eq_ok.mp hp
    exact Template.pack_eq_ok.mpr ⟨fmt, (Template.fill_eq_ok_of_none ht).mpr
      ((Template.fill_eq_ok_of_none ht).mp hf), hp'⟩
  | some k =>
    have hl := (Template.pack_tail ht hp).2.1
    have hf := p.fields_length
    rw [Pdu.layout, hc] at hf
    rw [Pdu.data, List.length_cons (a := (b.toNat : ℤ)), List.length_append] at hl
    have : p.serializeCount = c.layout.itemCount (b :: rest).length := by omega
    rw [this]
    exact hp

theorem PduClass.deserialize_modbusPdu {s : Bytes} (hs : s ≠ []) :
    ∃ p, PduClass.modbusPdu.deserialize s = .ok p := by
  have hpos := List.length_pos_iff.mpr hs
  have hfill : (PduClass.layout .modbusPdu).pduFormat.fill (s.length - 1) =
      .ok (.B :: List.replicate (s.length - 1) .B) :=
    (Template.fill_eq_ok_of_tail rfl).mpr ⟨by omega, by
      rw [show ((s.length : ℤ) - 1).toNat = s.length - 1 by omega]; rfl⟩
  have hunpack : Struct.unpack (.B :: List.replicate (s.length - 1) .B) s =
      .ok (unpackItems (.B :: List.replicate (s.length - 1) .B) s) := by
    refine unpack_eq_ok.mpr ⟨?_, rfl⟩
    rw [calcsize_cons, calcsize_replicate]
    simp only [Code.size]
    omega
  exact ⟨_, PduClass.deserialize_eq_ok.mpr
    ⟨_, Template.unpack_eq_ok.mpr ⟨_, hfill, hunpack⟩, rfl⟩⟩

/-! ### The parser -/

namespace ModbusPduParser

/-- The objects the request dispatch decodes by their own class: those of a registered
request class, and generic PDUs whose function code the registry does not hold. -/
def RequestObject (p : Pdu) : Prop :=
  (p.cls ∈ registry ∧ p.cls.isRequest) ∨
    ∃ fc data, p = .modbusPdu fc data ∧ 0 ≤ fc ∧ fc ≤ 255 ∧
      ∀ c ∈ registry, (c.layout.pduId : ℤ) ≠ fc

/-- The objects the response dispatch decodes by their own class: those of a registered
response class, error PDUs, and generic PDUs below `0x80` the registry does not hold. -/
def ResponseObject (p : Pdu) : Prop :=
  (p.cls ∈ registry ∧ ¬ p.cls.isRequest) ∨
    (∃ fc excCode, p = .modbusError fc excCode ∧ 0 ≤ fc ∧ fc ≤ 127) ∨
    ∃ fc data, p = .modbusPdu fc data ∧ fc < 0x80 ∧
      ∀ c ∈ registry, (c.layout.pduId : ℤ) ≠ fc + 0x8000

theorem serialize_head {p : Pdu} {s : Bytes} (h : p.serialize = .ok s) :
    ∃ b rest, s = b :: rest ∧ p.wireFc = b.toNat := by
  obtain ⟨b, rest, rfl, hu, -⟩ := PduClass.unpack_of_deserialize (Pdu.deserialize_serialize h)
  have : Except.ok _ = Except.ok _ := hu.symm.trans (Template.unpack_itemCount (Pdu.serialize_eq_ok.mp h))
  exact ⟨b, rest, rfl, (List.cons.inj (Except.ok.inj this)).1.symm⟩

theorem wireFc_of_mem_registry {p : Pdu} (h : p.cls ∈ registry) : p.wireFc = p.cls.layout.fc := by
  cases p <;> first | rfl | (exact absurd h (by simp [Pdu.cls, registry]))

theorem parseRequest_serialize {p : Pdu} (hp : RequestObject p) {s : Bytes}
    (h : p.serialize = .ok s) : parseRequest s = .ok p := by
  obtain ⟨b, rest, rfl, hb⟩ := serialize_head h
  suffices registryGet b.toNat = p.cls by
    rw [parseRequest, this]
    exact Pdu.deserialize_serialize h
  rcases hp with ⟨hm, hr⟩ | ⟨fc, data, rfl, -, -, hreg⟩
  · rw [wireFc_of_mem_registry hm, ← pduId_of_isRequest _ hm hr] at hb
    rw [← Int.ofNat_inj.mp hb, registryGet_pduId _ hm]
  · refine registryGet_eq_modbusPdu fun c hc he => hreg c hc ?_
    rw [he, ← hb]
    rfl

theorem parseResponse_serialize {p : Pdu} (hp : ResponseObject p) {s : Bytes}
    (h : p.serialize = .ok s) : parseResponse s = .ok p := by
  obtain ⟨b, rest, rfl, hb⟩ := serialize_head h
  have hd := Pdu.deserialize_serialize h
  have hlow (hlt : b.toNat < 0x80) (hget : registryGet (b.toNat + 0x8000) = p.cls) :
      parseResponse (b :: rest) = .ok p := by
    rw [parseResponse, if_neg (by omega), hget]
    exact hd
  rcases hp with ⟨hm, hr⟩ | ⟨fc, excCode, rfl, h0, h127⟩ | ⟨fc, data, rfl, hlt, hreg⟩
  · rw [wireFc_of_mem_registry hm] at hb
    have hfc := Int.ofNat_inj.mp hb
    refine hlow (hfc ▸ fc_lt_of_mem_registry _ hm) ?_
    rw [← hfc, ← pduId_of_not_isRequest _ hm hr, registryGet_pduId _ hm]
  · simp only [Pdu.wireFc, errorMask] at hb
    simp only [Pdu.cls] at hd
    simp only [parseResponse, if_pos (show 0x80 ≤ b.toNat by omega), hd, Pdu.cls]
  · simp only [Pdu.wireFc, Pdu.fc] at hb
    refine hlow (by omega) (registryGet_eq_modbusPdu fun c hc he => hreg c hc ?_)
    rw [he, hb]
    rfl

/-- The bit responses whose count field lies about the status bytes behind it. -/
def BitCountLies : Bytes → Prop
  | fc :: byteCount :: outputStatus =>
    (fc = 1 ∨ fc = 2) ∧ byteCount.toNat ≠ outputStatus.length
  | _ => False

instance : DecidablePred BitCountLies := fun s => by
  unfold BitCountLies
  split <;> infer_instance

theorem wireFc_of_deserialize {c : PduClass} {b : UInt8} {rest : Bytes} {p : Pdu}
    (h : c.deserialize (b :: rest) = .ok p)
    (hc : c = .modbusError ∨ c = .modbusPdu ∨ c.layout.fc = b.toNat) : p.wireFc = b.toNat := by
  obtain ⟨b', rest', hs, -, hp⟩ := PduClass.unpack_of_deserialize h
  obtain ⟨rfl, rfl⟩ := List.cons.inj hs
  rw [hp, PduClass.wireFc_build]
  rcases hc with rfl | rfl | hfc
  · simp
  · simp
  · rw [hfc]
    split_ifs <;> rfl

theorem parseRequest_cls {b : UInt8} {rest : Bytes} {p : Pdu}
    (h : parseRequest (b :: rest) = .ok p) : p.cls = registryGet b.toNat ∧ p.cls.isRequest := by
  have hc : p.cls = registryGet b.toNat := PduClass.cls_of_deserialize h
  refine ⟨hc, ?_⟩
  rw [hc]
  by_cases hg : registryGet b.toNat = .modbusPdu
  · rw [hg]; decide
  · exact (registryGet_request (by have := b.toNat_lt; omega) hg).1

/-- Whatever the request dispatch accepts encodes to the bytes it was read from. -/
theorem serialize_parseRequest {s : Bytes} {p : Pdu} (h : parseRequest s = .ok p) :
    p.serialize = .ok s := by
  rcases s with _ | ⟨b, rest⟩
  · simp [parseRequest] at h
  have hr := (parseRequest_cls h).2
  refine (PduClass.serialize_of_deserialize h (wireFc_of_deserialize h ?_)).mpr
    (p.serializeCount_eq (fun hc => ?_) (fun hc => ?_))
  · by_cases hg : registryGet b.toNat = .modbusPdu
    · exact .inr (.inl hg)
    · exact .inr (.inr (registryGet_request (by have := b.toNat_lt; omega) hg).2)
  all_goals
    rw [hc] at hr
    exact absurd hr (by decide)

theorem bitCountLies_iff {c : PduClass} (hc : c = .modbusResponseFC1 ∨ c = .modbusResponseFC2)
    {b : UInt8} (hb : b = 1 ∨ b = 2) {rest : Bytes} {p : Pdu}
    (h : c.deserialize (b :: rest) = .ok p) :
    BitCountLies (b :: rest) ↔ p.serializeCount ≠ p.tail.length := by
  have hcls := PduClass.cls_of_deserialize h
  obtain ⟨b', rest', hs, hu, -⟩ := PduClass.unpack_of_deserialize h
  obtain ⟨rfl, rfl⟩ := List.cons.inj hs
  have hfmt : c.layout.pduFormat = ⟨[.B, .B], some .B⟩ := by rcases hc with rfl | rfl <;> rfl
  obtain ⟨byteCount, outputStatus, hdata, hcount, htail⟩ : ∃ byteCount outputStatus,
      p.data = byteCount :: outputStatus ∧ p.serializeCount = byteCount ∧ p.tail = outputStatus := by
    rcases hc with rfl | rfl <;> cases p <;> simp only [Pdu.cls, reduceCtorEq] at hcls <;>
      exact ⟨_, _, rfl, rfl, rfl⟩
  rw [hfmt, hdata] at hu
  obtain ⟨fmt, hf, hu'⟩ := Template.unpack_eq_ok.mp hu
  obtain ⟨hn, rfl⟩ := (Template.fill_eq_ok_of_tail rfl).mp hf
  have hl := (Template.pack_tail rfl (Template.pack_unpack hu)).2
  obtain ⟨hlen, hitems⟩ := Struct.unpack_eq_ok.mp hu'
  rcases rest with _ | ⟨n, status⟩
  · simp [Code.size] at hlen
  · have hbc : byteCount = n.toNat := by
      simpa [unpackItems, Code.size, Code.decode] using (List.cons.inj (List.cons.inj hitems).2).1
    have hstatus : outputStatus.length = status.length := by
      obtain ⟨hl1, hl2⟩ := hl
      simp [Code.size] at hl1 hl2
      omega
    rw [hcount, htail, hbc, hstatus]
    simp only [BitCountLies, hb, true_and]
    omega

/-- Whatever the response dispatch accepts encodes to the bytes it was read from,
unless it is a bit response whose count field lies. -/
theorem serialize_parseResponse {s : Bytes} {p : Pdu} (h : parseResponse s = .ok p) :
    p.serialize = .ok s ↔ ¬ BitCountLies s := by
  rcases s with _ | ⟨b, rest⟩
  · simp [parseResponse] at h
  by_cases hb : 0x80 ≤ b.toNat
  · have hlies : ¬ BitCountLies (b :: rest) := by
      have : ¬ (b = 1 ∨ b = 2) := by rintro (rfl | rfl) <;> simp at hb
      rcases rest with _ | ⟨n, status⟩ <;> simp [BitCountLies, this]
    have hd : PduClass.modbusError.deserialize (b :: rest) = .ok p := by
      rw [parseResponse, if_pos hb] at h
      cases hd : PduClass.modbusError.deserialize (b :: rest) with
      | error e => simp [hd] at h
      | ok q =>
        rw [hd] at h
        have hq := PduClass.cls_of_deserialize hd
        simp only [hq, hd] at h
        exact h
    have hcls := PduClass.cls_of_deserialize hd
    simp only [hlies, not_false_eq_true, iff_true]
    exact (PduClass.serialize_of_deserialize hd (wireFc_of_deserialize hd (.inl rfl))).mpr
      (p.serializeCount_eq (by rw [hcls]; decide) (by rw [hcls]; decide))
  · have hd : (registryGet (b.toNat + 0x8000)).deserialize (b :: rest) = .ok p := by
      rwa [parseResponse, if_neg hb] at h
    have hfc : registryGet (b.toNat + 0x8000) = .modbusPdu ∨
        (registryGet (b.toNat + 0x8000)).layout.fc = b.toNat := by
      by_cases hg : registryGet (b.toNat + 0x8000) = .modbusPdu
      · exact .inl hg
      · exact .inr (registryGet_response hg).2
    rw [PduClass.serialize_of_deserialize hd (wireFc_of_deserialize hd (.inr hfc))]
    have hcls := PduClass.cls_of_deserialize hd
    by_cases hbit : p.cls = .modbusResponseFC1 ∨ p.cls = .modbusResponseFC2
    · have hb' : b = 1 ∨ b = 2 := by
        rw [hcls] at hbit
        have hn : b.toNat = 1 ∨ b.toNat = 2 := by
          rcases hbit with hbit | hbit <;> rw [hbit] at hfc
          · exact .inl (hfc.resolve_left (by decide)).symm
          · exact .inr (hfc.resolve_left (by decide)).symm
        exact hn.imp (fun h => UInt8.toNat_inj.mp h) (fun h => UInt8.toNat_inj.mp h)
      rw [bitCountLies_iff (hcls ▸ hbit) hb' hd, not_not]
    · have hlies : ¬ BitCountLies (b :: rest) := by
        have : ¬ (b = 1 ∨ b = 2) := by
          rintro (rfl | rfl)
          · exact hbit (.inl (hcls.trans (by decide)))
          · exact hbit (.inr (hcls.trans (by decide)))
        rcases rest with _ | ⟨n, status⟩ <;> simp [BitCountLies, this]
      simp only [hlies, not_false_eq_true, iff_true]
      exact p.serializeCount_eq (fun h => hbit (.inl h)) (fun h => hbit (.inr h))

end ModbusPduParser

end Pyomb
