/-!
Bytes in hexadecimal notation, two digits each, the more significant first.
-/

set_option autoImplicit false

namespace PoolQuote.Hex

def digitChar (d : Nat) : Char :=
  if d < 10 then Char.ofNat ('0'.toNat + d) else Char.ofNat ('a'.toNat + (d - 10))

def digit? (c : Char) : Option Nat :=
  if '0' ≤ c ∧ c ≤ '9' then some (c.toNat - '0'.toNat)
  else if 'a' ≤ c ∧ c ≤ 'f' then some (c.toNat - 'a'.toNat + 10)
  else if 'A' ≤ c ∧ c ≤ 'F' then some (c.toNat - 'A'.toNat + 10)
  else none

def encode (bytes : List UInt8) : List Char :=
  bytes.flatMap fun b => [digitChar (b.toNat / 16), digitChar (b.toNat % 16)]

def decode : List Char → Option (List UInt8)
  | [] => some []
  | high :: low :: rest => do
      let h ← digit? high
      let l ← digit? low
      return UInt8.ofNat (16 * h + l) :: (← decode rest)
  | _ => none

end PoolQuote.Hex
