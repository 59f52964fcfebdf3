import PoolQuote.Bytes
import PoolQuote.SqrtPrice

/-!
Positive numbers in the binary format with 53 significant bits, for showing prices. Every result is
the nearest such number, and of two equally near the one with an even significand.
-/

set_option autoImplicit false

namespace PoolQuote

-- The number `significand * 2 ^ exponent`, with `2 ^ 52 ≤ significand < 2 ^ 53`.
structure Binary64 where
  significand : Nat
  exponent : Int
  deriving DecidableEq

namespace Binary64

def nearestEven (n k : Nat) : Nat :=
  let unit := Nat.pow 2 k
  let q := n / unit
  let r := n % unit
  if 2 * r < unit ∨ (2 * r = unit ∧ q % 2 = 0) then q else q + 1

def round (n : Nat) (e : Int) : Binary64 :=
  if n.log2 ≤ 52 then
    let k := 52 - n.log2
    ⟨n * Nat.pow 2 k, e - k⟩
  else
    let k := n.log2 - 52
    let q := nearestEven n k
    if q = Nat.pow 2 53 then ⟨Nat.pow 2 52, e + k + 1⟩ else ⟨q, e + k⟩

def square (x : Binary64) : Binary64 :=
  round (x.significand * x.significand) (2 * x.exponent)

def bits (x : Binary64) : BitVec 64 :=
  BitVec.ofNat 64 ((x.exponent + 1075).toNat * Nat.pow 2 52 + (x.significand - Nat.pow 2 52))

def bytes (x : Binary64) : List UInt8 :=
  (Bytes.ofNat 8 x.bits.toNat).reverse

end Binary64

def SqrtPrice.approximatePrice (p : SqrtPrice) : Binary64 :=
  (Binary64.round p.value (-64)).square

end PoolQuote
