import Pyomb.Adu.Tcp

/-! The exceptions that cross the transport and the simulators: the tree under
`ModbusBaseError`, and the few of Python's own that can travel beside it. -/

namespace Pyomb

/-- `ε` is what a socket raises. `network` renders the `OSError` it wraps, where there is
one, at the end of its message, and `timeout` is the one network error with a class of
its own. -/
inductive Exc (ε : Type) where
  | os (e : ε)
  | struct (e : Struct.Error)
  | index
  | other (name : String)
  | packet (e : PacketError)
  | pduParse (e : PacketError) (header : ModbusHeader) (fc : ℕ)
  | network (message : String) (cause : Option ε)
  | timeout (message : String)
  | illegalFunction (fc : ℤ)
  | illegalDataValue (values : List ℤ)
  | slaveDeviceFailure
  deriving DecidableEq, Repr

namespace Exc

variable {ε : Type}

/-- `isinstance(e, ModbusBaseError)`. -/
def isModbusBase : Exc ε → Bool
  | os _ | struct _ | index | other _ => false
  | _ => true

/-- `except ModbusBaseError: raise` and then
`except OSError as e: raise ModbusNetworkError(f"{text}{e}")`. -/
def wrapOs (text : String) : Exc ε → Exc ε
  | os e => network text (some e)
  | e => e

end Exc

end Pyomb
