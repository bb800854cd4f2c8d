import Pyomb.Pdu.RoundTrip

/-! The items of a PDU: what its format asks it to write, each with the code of its field.
Packing fails only where some item does not fit its field, once the count the format is
filled with is the number of items behind the named ones. -/

namespace Pyomb

open Struct

/-- Every item fits its field. -/
def Struct.ItemsFit (items : List (Code × ℤ)) : Prop := ∀ i ∈ items, Fits i.1 i.2

instance (items : List (Code × ℤ)) : Decidable (ItemsFit items) :=
  inferInstanceAs (Decidable (∀ i ∈ items, _))

theorem Struct.pack_iff_itemsFit {items : List (Code × ℤ)} :
    (∃ s, pack (items.map Prod.fst) (items.map Prod.snd) = .ok s) ↔ ItemsFit items := by
  simp only [pack_eq_ok, exists_and_left, exists_eq, and_true]
  rw [List.forall₂_map_left_iff, List.forall₂_map_right_iff, List.forall₂_same]
  rfl

theorem Struct.itemsFit_append {items items' : List (Code × ℤ)} :
    ItemsFit (items ++ items') ↔ ItemsFit items ∧ ItemsFit items' := List.forall_mem_append

namespace Pdu

/-- The function code and the named fields, and then the tail item by item. -/
def items (p : Pdu) : List (Code × ℤ) :=
  p.layout.pduFormat.head.zip (p.wireFc :: p.fields) ++
    p.layout.pduFormat.tail.elim [] fun code => p.tail.map (Prod.mk code)

theorem items_snd (p : Pdu) : p.items.map Prod.snd = p.wireFc :: p.data := by
  have hlen : p.layout.pduFormat.head.length = (p.wireFc :: p.fields).length :=
    p.fields_length.symm
  have htail : (p.layout.pduFormat.tail.elim [] fun code => p.tail.map (Prod.mk code)).map
      Prod.snd = p.tail := by
    cases p <;> first | rfl | exact (List.map_map ..).trans (List.map_id _)
  rw [items, List.map_append, List.map_snd_zip hlen.ge, htail]
  rfl

/-- The codes of the items are the format filled for the tail. -/
theorem fill_items (p : Pdu) :
    p.layout.pduFormat.fill p.tail.length = .ok (p.items.map Prod.fst) := by
  have hlen : p.layout.pduFormat.head.length = (p.wireFc :: p.fields).length :=
    p.fields_length.symm
  rw [items, List.map_append, List.map_fst_zip hlen.le]
  cases htail : p.layout.pduFormat.tail with
  | none => exact (Template.fill_eq_ok_of_none htail).mpr (List.append_nil _)
  | some code =>
    refine (Template.fill_eq_ok_of_tail htail).mpr ⟨by omega, ?_⟩
    rw [Int.toNat_natCast, Option.elim_some, List.map_map]
    exact congrArg _ List.map_const'

variable {p : Pdu} (hcount : p.serializeCount = p.tail.length)
include hcount

theorem serialize_iff_itemsFit : (∃ s, p.serialize = .ok s) ↔ ItemsFit p.items := by
  rw [← pack_iff_itemsFit, items_snd]
  simp only [serialize_eq_ok, Template.pack_eq_ok, hcount, fill_items]
  simp

theorem len_eq_calcsize : p.len = .ok (calcsize (p.items.map Prod.fst)) := by
  have hlen : p.lenCount = p.serializeCount := by cases p <;> rfl
  rw [len, hlen, hcount, fill_items]
  rfl

end Pdu

end Pyomb
