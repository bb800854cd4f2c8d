import Pyomb.Pdu.Bits
import Pyomb.Pdu.Registers
import Pyomb.Pdu.Diagnostics
import Pyomb.Pdu.Encapsulated

/-! The PDU objects and their methods. A constructor of `Pdu` is a Python class
applied to its constructor's arguments, so two objects are equal exactly when their
classes and attributes are. `serialize` and `deserialize` are one definition over
the layout for the function-code classes; the error PDU and the generic PDU keep
their own. -/

namespace Pyomb

open Struct

inductive PduClass where
  | modbusRequestFC1 | modbusResponseFC1 | modbusRequestFC2 | modbusResponseFC2
  | modbusRequestFC3 | modbusResponseFC3 | modbusRequestFC4 | modbusResponseFC4
  | modbusRequestFC5 | modbusResponseFC5 | modbusRequestFC6 | modbusResponseFC6
  | modbusRequestFC7 | modbusResponseFC7 | modbusRequestFC8 | modbusResponseFC8
  | modbusRequestFC15 | modbusResponseFC15 | modbusRequestFC16 | modbusResponseFC16
  | modbusRequestFC22 | modbusResponseFC22 | modbusRequestFC23 | modbusResponseFC23
  | modbusRequestFC43 | modbusResponseFC43
  | modbusError | modbusPdu
  deriving DecidableEq, Repr

inductive Pdu where
  | modbusRequestFC1 (startAddr quantity : ℤ)
  | modbusResponseFC1 (byteCount : ℤ) (outputStatus : List ℤ)
  | modbusRequestFC2 (startAddr quantity : ℤ)
  | modbusResponseFC2 (byteCount : ℤ) (inputStatus : List ℤ)
  | modbusRequestFC3 (startAddr quantity : ℤ)
  | modbusResponseFC3 (byteCount : ℤ) (values : List ℤ)
  | modbusRequestFC4 (startAddr quantity : ℤ)
  | modbusResponseFC4 (byteCount : ℤ) (values : List ℤ)
  | modbusRequestFC5 (outputAddress outputValue : ℤ)
  | modbusResponseFC5 (outputAddress outputValue : ℤ)
  | modbusRequestFC6 (outputAddress outputValue : ℤ)
  | modbusResponseFC6 (outputAddress outputValue : ℤ)
  | modbusRequestFC7
  | modbusResponseFC7 (status : ℤ)
  | modbusRequestFC8 (subFunc : ℤ) (subfuncData : List ℤ)
  | modbusResponseFC8 (subFunc : ℤ) (subfuncData : List ℤ)
  | modbusRequestFC15 (startAddr quantity byteCount : ℤ) (values : List ℤ)
  | modbusResponseFC15 (startAddr quantity : ℤ)
  | modbusRequestFC16 (startAddr quantity byteCount : ℤ) (values : List ℤ)
  | modbusResponseFC16 (startAddr quantity : ℤ)
  | modbusRequestFC22 (refAddr andMask orMask : ℤ)
  | modbusResponseFC22 (refAddr andMask orMask : ℤ)
  | modbusRequestFC23 (readStartAddr readQuantity writeStartAddr writeQuantity writeByteCount : ℤ)
      (writeValues : List ℤ)
  | modbusResponseFC23 (byteCount : ℤ) (values : List ℤ)
  | modbusRequestFC43 (meiType : ℤ) (meiData : List ℤ)
  | modbusResponseFC43 (meiType : ℤ) (meiData : List ℤ)
  | modbusError (fc excCode : ℤ)
  | modbusPdu (fc : ℤ) (data : List ℤ)
  deriving DecidableEq, Repr

namespace PduLayout

def modbusError : PduLayout where
  name := "ModbusError"
  pduFormat := ⟨[.B, .B], none⟩
  pduId := 0x8000
  pduFields := some [.excCode]

/-- The base class, which models no function code. -/
def modbusPdu : PduLayout where
  name := "ModbusPdu"
  pduFormat := ⟨[.B], some .B⟩
  pduId := 0x0000
  pduFields := none
  itemCount n := n - 1

end PduLayout

def errorMask : ℤ := 0x80

namespace PduClass

def layout : PduClass → PduLayout
  | modbusRequestFC1 => .modbusRequestFC1
  | modbusResponseFC1 => .modbusResponseFC1
  | modbusRequestFC2 => .modbusRequestFC2
  | modbusResponseFC2 => .modbusResponseFC2
  | modbusRequestFC3 => .modbusRequestFC3
  | modbusResponseFC3 => .modbusResponseFC3
  | modbusRequestFC4 => .modbusRequestFC4
  | modbusResponseFC4 => .modbusResponseFC4
  | modbusRequestFC5 => .modbusRequestFC5
  | modbusResponseFC5 => .modbusResponseFC5
  | modbusRequestFC6 => .modbusRequestFC6
  | modbusResponseFC6 => .modbusResponseFC6
  | modbusRequestFC7 => .modbusRequestFC7
  | modbusResponseFC7 => .modbusResponseFC7
  | modbusRequestFC8 => .modbusRequestFC8
  | modbusResponseFC8 => .modbusResponseFC8
  | modbusRequestFC15 => .modbusRequestFC15
  | modbusResponseFC15 => .modbusResponseFC15
  | modbusRequestFC16 => .modbusRequestFC16
  | modbusResponseFC16 => .modbusResponseFC16
  | modbusRequestFC22 => .modbusRequestFC22
  | modbusResponseFC22 => .modbusResponseFC22
  | modbusRequestFC23 => .modbusRequestFC23
  | modbusResponseFC23 => .modbusResponseFC23
  | modbusRequestFC43 => .modbusRequestFC43
  | modbusResponseFC43 => .modbusResponseFC43
  | modbusError => .modbusError
  | modbusPdu => .modbusPdu

/-- `expected_size`: the diagnostics classes override it. -/
def expectedSize (c : PduClass) (start : Bytes) : Except PacketError (Option ℕ) :=
  match c with
  | modbusRequestFC8 | modbusResponseFC8 =>
    PduLayout.diagnosticSizeFromPrefix c.layout.name start
  | _ => c.layout.expectedSize start

/-- What `deserialize` makes of the unpacked tuple. The function code in front is
dropped, since the constructor passes its own. -/
def build (c : PduClass) (pdu : List ℤ) : Pdu :=
  match c with
  | modbusRequestFC1 => .modbusRequestFC1 (pdu.getD 1 0) (pdu.getD 2 0)
  | modbusResponseFC1 => .modbusResponseFC1 (pdu.getD 1 0) (pdu.drop 2)
  | modbusRequestFC2 => .modbusRequestFC2 (pdu.getD 1 0) (pdu.getD 2 0)
  | modbusResponseFC2 => .modbusResponseFC2 (pdu.getD 1 0) (pdu.drop 2)
  | modbusRequestFC3 => .modbusRequestFC3 (pdu.getD 1 0) (pdu.getD 2 0)
  | modbusResponseFC3 => .modbusResponseFC3 (pdu.getD 1 0) (pdu.drop 2)
  | modbusRequestFC4 => .modbusRequestFC4 (pdu.getD 1 0) (pdu.getD 2 0)
  | modbusResponseFC4 => .modbusResponseFC4 (pdu.getD 1 0) (pdu.drop 2)
  | modbusRequestFC5 => .modbusRequestFC5 (pdu.getD 1 0) (pdu.getD 2 0)
  | modbusResponseFC5 => .modbusResponseFC5 (pdu.getD 1 0) (pdu.getD 2 0)
  | modbusRequestFC6 => .modbusRequestFC6 (pdu.getD 1 0) (pdu.getD 2 0)
  | modbusResponseFC6 => .modbusResponseFC6 (pdu.getD 1 0) (pdu.getD 2 0)
  | modbusRequestFC7 => .modbusRequestFC7
  | modbusResponseFC7 => .modbusResponseFC7 (pdu.getD 1 0)
  | modbusRequestFC8 => .modbusRequestFC8 (pdu.getD 1 0) (pdu.drop 2)
  | modbusResponseFC8 => .modbusResponseFC8 (pdu.getD 1 0) (pdu.drop 2)
  | modbusRequestFC15 =>
    .modbusRequestFC15 (pdu.getD 1 0) (pdu.getD 2 0) (pdu.getD 3 0) (pdu.drop 4)
  | modbusResponseFC15 => .modbusResponseFC15 (pdu.getD 1 0) (pdu.getD 2 0)
  | modbusRequestFC16 =>
    .modbusRequestFC16 (pdu.getD 1 0) (pdu.getD 2 0) (pdu.getD 3 0) (pdu.drop 4)
  | modbusResponseFC16 => .modbusResponseFC16 (pdu.getD 1 0) (pdu.getD 2 0)
  | modbusRequestFC22 => .modbusRequestFC22 (pdu.getD 1 0) (pdu.getD 2 0) (pdu.getD 3 0)
  | modbusResponseFC22 => .modbusResponseFC22 (pdu.getD 1 0) (pdu.getD 2 0) (pdu.getD 3 0)
  | modbusRequestFC23 =>
    .modbusRequestFC23 (pdu.getD 1 0) (pdu.getD 2 0) (pdu.getD 3 0) (pdu.getD 4 0) (pdu.getD 5 0)
      (pdu.drop 6)
  | modbusResponseFC23 => .modbusResponseFC23 (pdu.getD 1 0) (pdu.drop 2)
  | modbusRequestFC43 => .modbusRequestFC43 (pdu.getD 1 0) (pdu.drop 2)
  | modbusResponseFC43 => .modbusResponseFC43 (pdu.getD 1 0) (pdu.drop 2)
  | modbusError => .modbusError (pdu.getD 0 0 - errorMask) (pdu.getD 1 0)
  | modbusPdu => .modbusPdu (pdu.getD 0 0) (pdu.drop 1)

def deserializeText (c : PduClass) : String :=
  match c with
  | modbusError => "Error deserializing the Modbus Error PDU: "
  | modbusPdu => "Error deserializing the Modbus PDU: "
  | c => "Error deserializing the " ++ c.layout.label ++ " PDU: "

/-- `deserialize`: fill the format for the stream's length, unpack, build. -/
def deserialize (c : PduClass) (stream : Bytes) : Except PacketError Pdu :=
  match c.layout.pduFormat.unpack (c.layout.itemCount stream.length) stream with
  | .error e => .error (.ofStruct c.deserializeText e)
  | .ok pdu => .ok (c.build pdu)

end PduClass

namespace Pdu

def cls : Pdu → PduClass
  | modbusRequestFC1 .. => .modbusRequestFC1
  | modbusResponseFC1 .. => .modbusResponseFC1
  | modbusRequestFC2 .. => .modbusRequestFC2
  | modbusResponseFC2 .. => .modbusResponseFC2
  | modbusRequestFC3 .. => .modbusRequestFC3
  | modbusResponseFC3 .. => .modbusResponseFC3
  | modbusRequestFC4 .. => .modbusRequestFC4
  | modbusResponseFC4 .. => .modbusResponseFC4
  | modbusRequestFC5 .. => .modbusRequestFC5
  | modbusResponseFC5 .. => .modbusResponseFC5
  | modbusRequestFC6 .. => .modbusRequestFC6
  | modbusResponseFC6 .. => .modbusResponseFC6
  | modbusRequestFC7 .. => .modbusRequestFC7
  | modbusResponseFC7 .. => .modbusResponseFC7
  | modbusRequestFC8 .. => .modbusRequestFC8
  | modbusResponseFC8 .. => .modbusResponseFC8
  | modbusRequestFC15 .. => .modbusRequestFC15
  | modbusResponseFC15 .. => .modbusResponseFC15
  | modbusRequestFC16 .. => .modbusRequestFC16
  | modbusResponseFC16 .. => .modbusResponseFC16
  | modbusRequestFC22 .. => .modbusRequestFC22
  | modbusResponseFC22 .. => .modbusResponseFC22
  | modbusRequestFC23 .. => .modbusRequestFC23
  | modbusResponseFC23 .. => .modbusResponseFC23
  | modbusRequestFC43 .. => .modbusRequestFC43
  | modbusResponseFC43 .. => .modbusResponseFC43
  | modbusError .. => .modbusError
  | modbusPdu .. => .modbusPdu

def layout (p : Pdu) : PduLayout := p.cls.layout

def fc : Pdu → ℤ
  | modbusError fc _ => fc
  | modbusPdu fc _ => fc
  | p => p.layout.fc

/-- The values of `PDU_FIELDS`, in wire order. -/
def fields : Pdu → List ℤ
  | modbusRequestFC1 startAddr quantity | modbusRequestFC2 startAddr quantity
  | modbusRequestFC3 startAddr quantity | modbusRequestFC4 startAddr quantity
  | modbusResponseFC15 startAddr quantity | modbusResponseFC16 startAddr quantity =>
    [startAddr, quantity]
  | modbusResponseFC1 byteCount _ | modbusResponseFC2 byteCount _ | modbusResponseFC3 byteCount _
  | modbusResponseFC4 byteCount _ | modbusResponseFC23 byteCount _ => [byteCount]
  | modbusRequestFC5 outputAddress outputValue | modbusResponseFC5 outputAddress outputValue
  | modbusRequestFC6 outputAddress outputValue | modbusResponseFC6 outputAddress outputValue =>
    [outputAddress, outputValue]
  | modbusRequestFC7 => []
  | modbusResponseFC7 status => [status]
  | modbusRequestFC8 subFunc _ | modbusResponseFC8 subFunc _ => [subFunc]
  | modbusRequestFC15 startAddr quantity byteCount _
  | modbusRequestFC16 startAddr quantity byteCount _ => [startAddr, quantity, byteCount]
  | modbusRequestFC22 refAddr andMask orMask | modbusResponseFC22 refAddr andMask orMask =>
    [refAddr, andMask, orMask]
  | modbusRequestFC23 readStartAddr readQuantity writeStartAddr writeQuantity writeByteCount _ =>
    [readStartAddr, readQuantity, writeStartAddr, writeQuantity, writeByteCount]
  | modbusRequestFC43 meiType _ | modbusResponseFC43 meiType _ => [meiType]
  | modbusError _ excCode => [excCode]
  | modbusPdu _ _ => []

/-- The values of the `PDU_TAIL` attribute; for the generic PDU, its stored payload. -/
def tail : Pdu → List ℤ
  | modbusResponseFC1 _ outputStatus => outputStatus
  | modbusResponseFC2 _ inputStatus => inputStatus
  | modbusResponseFC3 _ values | modbusResponseFC4 _ values | modbusResponseFC23 _ values => values
  | modbusRequestFC8 _ subfuncData | modbusResponseFC8 _ subfuncData => subfuncData
  | modbusRequestFC15 _ _ _ values | modbusRequestFC16 _ _ _ values => values
  | modbusRequestFC23 _ _ _ _ _ writeValues => writeValues
  | modbusRequestFC43 _ meiData | modbusResponseFC43 _ meiData => meiData
  | modbusPdu _ data => data
  | _ => []

def data (p : Pdu) : List ℤ := p.fields ++ p.tail

/-- The count `serialize` fills the format with: the bit responses take their byte
count field, every other class the length of its tail. -/
def serializeCount : Pdu → ℤ
  | modbusResponseFC1 byteCount _ | modbusResponseFC2 byteCount _ => byteCount
  | p => p.tail.length

def packUnder (p : Pdu) (n : ℤ) : Except PacketError Bytes :=
  (p.layout.pduFormat.pack n (p.fc :: p.data)).mapError
    (.ofStruct "Error serializing the Modbus PDU: ")

def serialize (p : Pdu) : Except PacketError Bytes :=
  match p with
  | modbusError fc excCode =>
    (Struct.pack [.B, .B] [fc + errorMask, excCode]).mapError
      (.ofStruct "Error serializing the Modbus Error PDU: ")
  | modbusPdu .. => p.packUnder p.serializeCount
  | _ => (p.packUnder p.serializeCount).mapError
      (.under ("Error serializing the " ++ p.layout.label ++ " PDU: "))

/-- The count `__len__` fills the format with, written apart from the one above. -/
def lenCount : Pdu → ℤ
  | modbusResponseFC1 byteCount _ | modbusResponseFC2 byteCount _ => byteCount
  | p => p.tail.length

/-- `__len__`: `struct.calcsize` of the filled format, which raises where a bit
response carries a negative byte count. -/
def len (p : Pdu) : Except Struct.Error ℕ :=
  (p.layout.pduFormat.fill p.lenCount).map calcsize

def attr (p : Pdu) (field : Field) : ℤ :=
  (((p.layout.pduFields.getD []).zip p.fields).lookup field).getD 0

/-- The findings a class adds to those of its `LIMITS`. -/
def ownViolations (p : Pdu) : List ModbusViolation :=
  match p with
  | modbusResponseFC1 byteCount outputStatus =>
    p.layout.fixedCount .byteCount byteCount outputStatus.length "the number of status bytes"
  | modbusResponseFC2 byteCount inputStatus =>
    p.layout.fixedCount .byteCount byteCount inputStatus.length "the number of status bytes"
  | modbusResponseFC3 byteCount values | modbusResponseFC4 byteCount values =>
    p.layout.fixedCount .byteCount byteCount (2 * values.length) "twice the registers returned"
  | modbusResponseFC23 byteCount values =>
    p.layout.fixedCount .byteCount byteCount (2 * values.length) "twice the registers read"
  | modbusRequestFC5 _ outputValue | modbusResponseFC5 _ outputValue =>
    if outputValue = 0x0000 ∨ outputValue = 0xFF00 then []
    else [⟨p.layout.name, .outputValue, "0x0000 or 0xFF00", outputValue⟩]
  | modbusRequestFC8 subFunc _ | modbusResponseFC8 subFunc _ =>
    if subFunc ∈ PduLayout.diagnosticSubFunctions then []
    else [⟨p.layout.name, .subFunc, PduLayout.diagnosticSubFunctionRule, subFunc⟩]
  | modbusRequestFC15 _ quantity byteCount _ =>
    p.layout.fixedCount .byteCount byteCount (-(-quantity / 8))
      "the quantity rounded up to whole bytes"
  | modbusRequestFC16 _ quantity byteCount _ =>
    p.layout.fixedCount .byteCount byteCount (2 * quantity) "twice the quantity of registers"
  | modbusRequestFC23 _ _ _ writeQuantity writeByteCount _ =>
    p.layout.fixedCount .writeByteCount writeByteCount (2 * writeQuantity)
      "twice the quantity of registers written"
  | _ => []

def violations (p : Pdu) : List ModbusViolation :=
  p.layout.limitViolations p.attr ++ p.ownViolations

end Pdu

end Pyomb
