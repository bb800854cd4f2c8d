import Pyomb.Errors

/-! What the PDU classes share: the finding a broken constraint is reported as, and
the attributes a class declares for the machinery of its base class to read. A
class is its layout: the format string, the identifier it is registered under, the
bounds, the named fields in wire order, and the few numbers its own methods write
out. -/

namespace Pyomb

inductive Field where
  | startAddr | quantity | byteCount | outputStatus | inputStatus | outputAddress | outputValue
  | values | refAddr | andMask | orMask | readStartAddr | readQuantity | writeStartAddr
  | writeQuantity | writeByteCount | writeValues | status | subFunc | subfuncData | meiType
  | meiData | excCode | protId | slaveId
  deriving DecidableEq, Repr

structure ModbusViolation where
  source : String
  field : Field
  rule : String
  value : ℤ
  deriving DecidableEq, Repr

/-- The attributes of a PDU class. `fc` is the function code its constructor passes
on and `label` the name its own messages use; the two classes that take a function
code as an argument have neither. `itemCount` is the count `deserialize` derives from
the stream length where the format repeats its last code. -/
structure PduLayout where
  name : String
  label : String := ""
  pduFormat : Struct.Template
  pduId : ℕ
  fc : ℕ := 0
  limits : List (Field × ℤ × ℤ) := []
  pduFields : Option (List Field)
  pduTail : Option Field := none
  pduCount : Option Field := none
  itemCount : ℤ → ℤ := fun _ => 0

namespace PduLayout

/-- `ModbusPdu.expected_size`: the size of a PDU from the bytes that start it, `none`
where they stop before the count. The count is the last byte of the head. -/
def expectedSize (l : PduLayout) (start : Bytes) : Except PacketError (Option ℕ) :=
  match l.pduFormat.tail, l.pduCount with
  | none, _ => .ok (some (Struct.calcsize l.pduFormat.head))
  | some _, none =>
    .error (.say (l.name ++ " carries no count field, so its size cannot be read from a prefix"))
  | some _, some _ =>
    let head := Struct.calcsize l.pduFormat.head
    if start.length < head then .ok none
    else .ok (some (head + (start.getD (head - 1) 0).toNat))

/-- The rule text of a bound; a field fixed at one value reads as that value. -/
def ruleText (low high : ℤ) : String :=
  if low = high then "0x" ++ hex4 low.toNat
  else "0x" ++ hex4 low.toNat ++ " to 0x" ++ hex4 high.toNat

/-- The part of `ModbusPacketAbc.violations` that reads `LIMITS`. -/
def limitViolations (l : PduLayout) (attr : Field → ℤ) : List ModbusViolation :=
  l.limits.filterMap fun (field, low, high) =>
    if low ≤ attr field ∧ attr field ≤ high then none
    else some ⟨l.name, field, ruleText low high, attr field⟩

/-- `ModbusPacketAbc._fixed_count`. -/
def fixedCount (l : PduLayout) (field : Field) (value expected : ℤ) (rule : String) :
    List ModbusViolation :=
  if value = expected then []
  else [⟨l.name, field, rule ++ ", which is " ++ toString expected, value⟩]

theorem limitViolations_eq_nil {l : PduLayout} {attr : Field → ℤ} :
    l.limitViolations attr = [] ↔
      ∀ b ∈ l.limits, b.2.1 ≤ attr b.1 ∧ attr b.1 ≤ b.2.2 := by
  simp [limitViolations, List.filterMap_eq_nil_iff]

@[simp] theorem fixedCount_eq_nil {l : PduLayout} {field : Field} {value expected : ℤ}
    {rule : String} : l.fixedCount field value expected rule = [] ↔ value = expected := by
  unfold fixedCount
  split_ifs with h <;> simp [h]

end PduLayout

end Pyomb
