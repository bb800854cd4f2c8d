import Pyomb.Pdu.Common

/-! The diagnostics layouts: the exception status poll and the loopback its
sub-function drives. The sub-function discriminates rather than counts, so these two
classes size a prefix by the table of sub-functions and not by a count field. -/

namespace Pyomb.PduLayout

def modbusRequestFC7 : PduLayout where
  name := "ModbusRequestFC7"
  label := "FC7 Request"
  pduFormat := ⟨[.B], none⟩
  pduId := 0x0007
  fc := 0x07
  pduFields := some []

def modbusResponseFC7 : PduLayout where
  name := "ModbusResponseFC7"
  label := "FC7 Response"
  pduFormat := ⟨[.B, .B], none⟩
  pduId := 0x8007
  fc := 0x07
  pduFields := some [.status]

def modbusRequestFC8 : PduLayout where
  name := "ModbusRequestFC8"
  label := "FC8 Request"
  pduFormat := ⟨[.B, .H], some .H⟩
  pduId := 0x0008
  fc := 0x08
  pduFields := some [.subFunc]
  pduTail := some .subfuncData
  itemCount n := (n - 3) / 2

def modbusResponseFC8 : PduLayout where
  name := "ModbusResponseFC8"
  label := "FC8 Response"
  pduFormat := ⟨[.B, .H], some .H⟩
  pduId := 0x8008
  fc := 0x08
  pduFields := some [.subFunc]
  pduTail := some .subfuncData
  itemCount n := (n - 3) / 2

/-! ### Sub-functions -/

/-- The sub-function codes section 6.8.1 of the specification lists. -/
def diagnosticSubFunctions : List ℤ :=
  [0x00, 0x01, 0x02, 0x03, 0x04, 0x0A, 0x0B, 0x0C, 0x0D, 0x0E, 0x0F, 0x10, 0x11, 0x12, 0x14]

def diagnosticSubFunctionRule : String := "0x0000 to 0x0004, 0x000A to 0x0012, or 0x0014"

/-- Return Query Data, whose data field has no stated width. -/
def diagnosticEchoSubFunction : ℕ := 0x0000

def diagnosticSize : ℕ := Struct.calcsize [.B, .H, .H]

/-- `_diagnostic_size_from_prefix`. -/
def diagnosticSizeFromPrefix (name : String) (start : Bytes) :
    Except PacketError (Option ℕ) :=
  let head := Struct.calcsize [.B, .H]
  if start.length < head then .ok none
  else
    let subFunc := Struct.Code.H.decode ((start.take head).drop 1)
    let refuse (reason : String) : Except PacketError (Option ℕ) :=
      .error (.say (name ++ " " ++ reason ++ ", so its size cannot be read from a prefix"))
    if subFunc = diagnosticEchoSubFunction then refuse "echoes the query data back"
    else if (subFunc : ℤ) ∈ diagnosticSubFunctions then .ok (some diagnosticSize)
    else refuse ("carries sub-function 0x" ++ hex4 subFunc ++ ", which is reserved")

end Pyomb.PduLayout
