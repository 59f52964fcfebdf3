import PoolQuote.Text.Base58

/-!
Public keys: thirty-two bytes, written in base 58.
-/

set_option autoImplicit false

namespace PoolQuote

structure Key where
  bytes : Vector UInt8 32
  deriving DecidableEq

namespace Key

def zero : Key :=
  ⟨Vector.replicate 32 0⟩

def text (key : Key) : String :=
  String.ofList (Base58.encode key.bytes.toList)

def ofBytes? (bytes : List UInt8) : Option Key :=
  if h : bytes.length = 32 then some ⟨bytes.toArray, by simpa using h⟩ else none

-- No text of thirty-two bytes is longer.
def maxTextLength : Nat := 44

def ofText? (text : String) : Option Key :=
  if text.length ≤ maxTextLength then (Base58.decode text.toList).bind ofBytes? else none

end Key

end PoolQuote
