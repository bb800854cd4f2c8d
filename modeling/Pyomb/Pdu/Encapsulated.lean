import Pyomb.Pdu.Common

/-! The encapsulated interface layouts: device identification, MEI type 14. -/

namespace Pyomb.PduLayout

/-- Read Device Identification is MEI type 14. -/
def modbusRequestFC43 : PduLayout where
  name := "ModbusRequestFC43"
  label := "FC43 Request"
  pduFormat := ⟨[.B, .B], some .B⟩
  pduId := 0x002B
  fc := 0x2B
  limits := [(.meiType, 0x0E, 0x0E)]
  pduFields := some [.meiType]
  pduTail := some .meiData
  itemCount n := n - 2

/-- Read Device Identification is MEI type 14. -/
def modbusResponseFC43 : PduLayout where
  name := "ModbusResponseFC43"
  label := "FC43 Response"
  pduFormat := ⟨[.B, .B], some .B⟩
  pduId := 0x802B
  fc := 0x2B
  limits := [(.meiType, 0x0E, 0x0E)]
  pduFields := some [.meiType]
  pduTail := some .meiData
  itemCount n := n - 2

end Pyomb.PduLayout
