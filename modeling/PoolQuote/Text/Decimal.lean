/-!
Whole numbers as digits in a base, most significant first, where zero has no digits, and in decimal
notation, without leading zeros or a plus sign.
-/

set_option autoImplicit false

namespace PoolQuote

namespace Radix

def digits (base n : Nat) : List Nat :=
  if _h : 2 ≤ base ∧ n ≠ 0 then digits base (n / base) ++ [n % base] else []
termination_by n
decreasing_by exact Nat.div_lt_self (by omega) (by omega)

def value (base : Nat) (ds : List Nat) : Nat :=
  ds.foldl (fun n d => n * base + d) 0

end Radix

namespace Decimal

def digitChar (d : Nat) : Char :=
  Char.ofNat ('0'.toNat + d)

def digit? (c : Char) : Option Nat :=
  if '0' ≤ c ∧ c ≤ '9' then some (c.toNat - '0'.toNat) else none

def isDigit (c : Char) : Bool :=
  (digit? c).isSome

def ofNat (n : Nat) : List Char :=
  if n = 0 then ['0'] else (Radix.digits 10 n).map digitChar

def ofInt (i : Int) : List Char :=
  if i < 0 then '-' :: ofNat i.natAbs else ofNat i.natAbs

def toNat? (text : List Char) : Option Nat :=
  if text.isEmpty then none else (text.mapM digit?).map (Radix.value 10)

end Decimal

end PoolQuote
