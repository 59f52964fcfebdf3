import PoolQuote.Error

/-!
Square-root prices: the square root of the price of `a` in `b`, in units of `2 ^ -64`, within the
bounds that a pool can reach.
-/

set_option autoImplicit false

namespace PoolQuote

namespace SqrtPrice

def minValue : Nat := 4295048016

def maxValue : Nat := 79226673515401279992447579055

def unit : Nat := Nat.pow 2 64

end SqrtPrice

structure SqrtPrice where
  value : Nat
  min_le : SqrtPrice.minValue ≤ value
  le_max : value ≤ SqrtPrice.maxValue
  deriving DecidableEq

namespace SqrtPrice

def min : SqrtPrice :=
  ⟨minValue, by decide, by decide⟩

def max : SqrtPrice :=
  ⟨maxValue, by decide, by decide⟩

def ofNat (n : Nat) : Except QuoteError SqrtPrice :=
  if h : minValue ≤ n ∧ n ≤ maxValue then .ok ⟨n, h.1, h.2⟩ else .error .sqrtPriceOutOfBounds

end SqrtPrice

end PoolQuote
