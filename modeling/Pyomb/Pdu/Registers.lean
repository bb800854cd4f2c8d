import Pyomb.Pdu.Common

/-! The register-access layouts: reading holding and input registers, writing one
register and several, masking one, and reading and writing in one request. -/

namespace Pyomb.PduLayout

/-- Read Holding Registers: 1 to 125 registers. -/
def modbusRequestFC3 : PduLayout where
  name := "ModbusRequestFC3"
  label := "FC3 Request"
  pduFormat := ⟨[.B, .H, .H], none⟩
  pduId := 0x0003
  fc := 0x03
  limits := [(.quantity, 0x0001, 0x007D)]
  pduFields := some [.startAddr, .quantity]

def modbusResponseFC3 : PduLayout where
  name := "ModbusResponseFC3"
  label := "FC3 Response"
  pduFormat := ⟨[.B, .B], some .H⟩
  pduId := 0x8003
  fc := 0x03
  pduFields := some [.byteCount]
  pduTail := some .values
  pduCount := some .byteCount
  itemCount n := (n - 2) / 2

/-- Read Input Registers: 1 to 125 registers. -/
def modbusRequestFC4 : PduLayout where
  name := "ModbusRequestFC4"
  label := "FC4 Request"
  pduFormat := ⟨[.B, .H, .H], none⟩
  pduId := 0x0004
  fc := 0x04
  limits := [(.quantity, 0x0001, 0x007D)]
  pduFields := some [.startAddr, .quantity]

def modbusResponseFC4 : PduLayout where
  name := "ModbusResponseFC4"
  label := "FC4 Response"
  pduFormat := ⟨[.B, .B], some .H⟩
  pduId := 0x8004
  fc := 0x04
  pduFields := some [.byteCount]
  pduTail := some .values
  pduCount := some .byteCount
  itemCount n := (n - 2) / 2

def modbusRequestFC6 : PduLayout where
  name := "ModbusRequestFC6"
  label := "FC6 Request"
  pduFormat := ⟨[.B, .H, .H], none⟩
  pduId := 0x0006
  fc := 0x06
  pduFields := some [.outputAddress, .outputValue]

def modbusResponseFC6 : PduLayout where
  name := "ModbusResponseFC6"
  label := "FC6 Response"
  pduFormat := ⟨[.B, .H, .H], none⟩
  pduId := 0x8006
  fc := 0x06
  pduFields := some [.outputAddress, .outputValue]

/-- Write Multiple Registers: 1 to 123 registers. -/
def modbusRequestFC16 : PduLayout where
  name := "ModbusRequestFC16"
  label := "FC16 Request"
  pduFormat := ⟨[.B, .H, .H, .B], some .H⟩
  pduId := 0x0010
  fc := 0x10
  limits := [(.quantity, 0x0001, 0x007B)]
  pduFields := some [.startAddr, .quantity, .byteCount]
  pduTail := some .values
  pduCount := some .byteCount
  itemCount n := (n - 6) / 2

def modbusResponseFC16 : PduLayout where
  name := "ModbusResponseFC16"
  label := "FC16 Response"
  pduFormat := ⟨[.B, .H, .H], none⟩
  pduId := 0x8010
  fc := 0x10
  limits := [(.quantity, 0x0001, 0x007B)]
  pduFields := some [.startAddr, .quantity]

def modbusRequestFC22 : PduLayout where
  name := "ModbusRequestFC22"
  label := "FC22 Request"
  pduFormat := ⟨[.B, .H, .H, .H], none⟩
  pduId := 0x0016
  fc := 0x16
  pduFields := some [.refAddr, .andMask, .orMask]

def modbusResponseFC22 : PduLayout where
  name := "ModbusResponseFC22"
  label := "FC22 Response"
  pduFormat := ⟨[.B, .H, .H, .H], none⟩
  pduId := 0x8016
  fc := 0x16
  pduFields := some [.refAddr, .andMask, .orMask]

/-- Read/Write Multiple Registers: 1 to 125 read, 1 to 121 written. -/
def modbusRequestFC23 : PduLayout where
  name := "ModbusRequestFC23"
  label := "FC23 Request"
  pduFormat := ⟨[.B, .H, .H, .H, .H, .B], some .H⟩
  pduId := 0x0017
  fc := 0x17
  limits := [(.readQuantity, 0x0001, 0x007D), (.writeQuantity, 0x0001, 0x0079)]
  pduFields := some [.readStartAddr, .readQuantity, .writeStartAddr, .writeQuantity,
    .writeByteCount]
  pduTail := some .writeValues
  pduCount := some .writeByteCount
  itemCount n := (n - 10) / 2

def modbusResponseFC23 : PduLayout where
  name := "ModbusResponseFC23"
  label := "FC23 Response"
  pduFormat := ⟨[.B, .B], some .H⟩
  pduId := 0x8017
  fc := 0x17
  pduFields := some [.byteCount]
  pduTail := some .values
  pduCount := some .byteCount
  itemCount n := (n - 2) / 2

end Pyomb.PduLayout
