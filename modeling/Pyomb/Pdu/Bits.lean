import Pyomb.Pdu.Common

/-! The bit-access layouts: reading coils and discrete inputs, writing one coil and
several. -/

namespace Pyomb.PduLayout

/-- Read Coils: 1 to 2000 coils. -/
def modbusRequestFC1 : PduLayout where
  name := "ModbusRequestFC1"
  label := "FC1 Request"
  pduFormat := ⟨[.B, .H, .H], none⟩
  pduId := 0x0001
  fc := 0x01
  limits := [(.quantity, 0x0001, 0x07D0)]
  pduFields := some [.startAddr, .quantity]

def modbusResponseFC1 : PduLayout where
  name := "ModbusResponseFC1"
  label := "FC1 Response"
  pduFormat := ⟨[.B, .B], some .B⟩
  pduId := 0x8001
  fc := 0x01
  pduFields := some [.byteCount]
  pduTail := some .outputStatus
  pduCount := some .byteCount
  itemCount n := n - 2

/-- Read Discrete Inputs: 1 to 2000 inputs. -/
def modbusRequestFC2 : PduLayout where
  name := "ModbusRequestFC2"
  label := "FC2 Request"
  pduFormat := ⟨[.B, .H, .H], none⟩
  pduId := 0x0002
  fc := 0x02
  limits := [(.quantity, 0x0001, 0x07D0)]
  pduFields := some [.startAddr, .quantity]

def modbusResponseFC2 : PduLayout where
  name := "ModbusResponseFC2"
  label := "FC2 Response"
  pduFormat := ⟨[.B, .B], some .B⟩
  pduId := 0x8002
  fc := 0x02
  pduFields := some [.byteCount]
  pduTail := some .inputStatus
  pduCount := some .byteCount
  itemCount n := n - 2

def modbusRequestFC5 : PduLayout where
  name := "ModbusRequestFC5"
  label := "FC5 Request"
  pduFormat := ⟨[.B, .H, .H], none⟩
  pduId := 0x0005
  fc := 0x05
  pduFields := some [.outputAddress, .outputValue]

def modbusResponseFC5 : PduLayout where
  name := "ModbusResponseFC5"
  label := "FC5 Response"
  pduFormat := ⟨[.B, .H, .H], none⟩
  pduId := 0x8005
  fc := 0x05
  pduFields := some [.outputAddress, .outputValue]

/-- Write Multiple Coils: 1 to 1968 coils. -/
def modbusRequestFC15 : PduLayout where
  name := "ModbusRequestFC15"
  label := "FC15 Request"
  pduFormat := ⟨[.B, .H, .H, .B], some .B⟩
  pduId := 0x000F
  fc := 0x0F
  limits := [(.quantity, 0x0001, 0x07B0)]
  pduFields := some [.startAddr, .quantity, .byteCount]
  pduTail := some .values
  pduCount := some .byteCount
  itemCount n := n - 6

def modbusResponseFC15 : PduLayout where
  name := "ModbusResponseFC15"
  label := "FC15 Response"
  pduFormat := ⟨[.B, .H, .H], none⟩
  pduId := 0x800F
  fc := 0x0F
  limits := [(.quantity, 0x0001, 0x07B0)]
  pduFields := some [.startAddr, .quantity]

end Pyomb.PduLayout
