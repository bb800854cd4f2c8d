import Pyomb.Bytes.Struct

/-! The exceptions the library raises. A message built as `f"...: {e}"` keeps its
literal text and holds the `struct.error` it renders beside it, so re-raising under
a longer message only lengthens the text. -/

namespace Pyomb

/-- `ModbusPacketError`: the text, and the `struct.error` rendered at its end. -/
structure PacketError where
  message : String
  cause : Option Struct.Error
  deriving DecidableEq, Repr

namespace PacketError

/-- `raise ModbusPacketError(message)`. -/
def say (message : String) : PacketError := ⟨message, none⟩

/-- `except struct.error as e: raise ModbusPacketError(f"{text}{e}")`. -/
def ofStruct (text : String) (e : Struct.Error) : PacketError := ⟨text, some e⟩

/-- `except ModbusPacketError as e: raise ModbusPacketError(f"{text}{e}")`. -/
def under (text : String) (e : PacketError) : PacketError := ⟨text ++ e.message, e.cause⟩

end PacketError

def hex4 (n : ℕ) : String :=
  let digits := (Nat.toDigits 16 n).map Char.toUpper
  String.ofList (List.replicate (4 - digits.length) '0' ++ digits)

/-! ### Blocks that raise -/

section Except

variable {ε ε' α β : Type}

theorem mapError_eq_ok {x : Except ε α} {f : ε → ε'} {a : α} :
    x.mapError f = .ok a ↔ x = .ok a := by
  cases x <;> simp [Except.mapError]

theorem bind_eq_ok {x : Except ε α} {f : α → Except ε β} {b : β} :
    (x >>= f) = .ok b ↔ ∃ a, x = .ok a ∧ f a = .ok b := by
  cases x <;> simp [bind, Except.bind]

end Except

/-- A `try` block whose `except` re-raises under `text`. -/
def tryUnder {α : Type} (text : String) (x : Except PacketError α) : Except PacketError α :=
  x.mapError (.under text)

/-- A call of the `struct` module inside such a block. -/
def liftStruct {α : Type} (x : Except Struct.Error α) : Except PacketError α :=
  x.mapError (.ofStruct "")

@[simp] theorem tryUnder_eq_ok {α : Type} {text : String} {x : Except PacketError α} {a : α} :
    tryUnder text x = .ok a ↔ x = .ok a := mapError_eq_ok

@[simp] theorem liftStruct_eq_ok {α : Type} {x : Except Struct.Error α} {a : α} :
    liftStruct x = .ok a ↔ x = .ok a := mapError_eq_ok

end Pyomb
