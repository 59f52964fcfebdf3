import PoolQuote.Text.Decimal

/-!
Bytes in base 58. A leading zero byte is written as `1`; the other bytes are written as the digits
of the number that they spell.
-/

set_option autoImplicit false

namespace PoolQuote.Base58

def alphabet : List Char :=
  "123456789ABCDEFGHJKLMNPQRSTUVWXYZabcdefghijkmnopqrstuvwxyz".toList

def digitChar (d : Nat) : Char :=
  alphabet.getD d '1'

def digit? (c : Char) : Option Nat :=
  alphabet.idxOf? c

def encode (bytes : List UInt8) : List Char :=
  (bytes.takeWhile (· = 0)).map (fun _ => '1') ++
    (Radix.digits 58 (Radix.value 256 (bytes.map UInt8.toNat))).map digitChar

def decode (text : List Char) : Option (List UInt8) := do
  let ds ← text.mapM digit?
  return (ds.takeWhile (· = 0)).map (fun _ => 0) ++
    (Radix.digits 256 (Radix.value 58 ds)).map UInt8.ofNat

end PoolQuote.Base58
