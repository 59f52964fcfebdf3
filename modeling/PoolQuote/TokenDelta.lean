import PoolQuote.Arithmetic
import PoolQuote.Direction
import PoolQuote.SqrtPrice

/-!
How much of each token lies between two square-root prices at constant liquidity `L`:
`L * (u - l) * 2 ^ 64 / (u * l)` of `a` and `L * (u - l) / 2 ^ 64` of `b`, for the lower price `l`
and the upper price `u`.
-/

set_option autoImplicit false

namespace PoolQuote

inductive TokenDelta
  | fits (amount : Nat)
  | tooLarge (cause : QuoteError)
  deriving DecidableEq

namespace TokenDelta

def IsAtMost : TokenDelta → Nat → Prop
  | fits amount, n => amount ≤ n
  | tooLarge _, _ => False

instance : (d : TokenDelta) → (n : Nat) → Decidable (d.IsAtMost n)
  | fits _, _ => inferInstanceAs (Decidable (_ ≤ _))
  | tooLarge _, _ => inferInstanceAs (Decidable False)

def isTooLarge : TokenDelta → Bool
  | fits _ => false
  | tooLarge _ => true

def saturated : TokenDelta → Nat
  | fits amount => amount
  | tooLarge _ => wordMax 64

def toExcept : TokenDelta → Except QuoteError Nat
  | fits amount => .ok amount
  | tooLarge cause => .error cause

/-- The amount of `a` between the prices `p` and `q`, which come in either order. -/
def betweenA (rounding : Rounding) (p q liquidity : Nat) : Except QuoteError TokenDelta :=
  let lower := min p q
  let upper := max p q
  let numerator := liquidity * (upper - lower) * SqrtPrice.unit
  let denominator := upper * lower
  if ¬FitsBits 256 numerator then .error .multiplicationOverflow
  else if denominator = 0 then .error .divideByZero
  else
    let amount := rounding.div numerator denominator
    .ok (if FitsBits 64 amount then fits amount else tooLarge .tokenMaxExceeded)

def betweenB (rounding : Rounding) (p q liquidity : Nat) : TokenDelta :=
  match mulShift rounding liquidity (max p q - min p q) with
  | .ok amount => fits amount
  | .error cause => tooLarge cause

def between (token : Token) (rounding : Rounding) (p q liquidity : Nat) :
    Except QuoteError TokenDelta :=
  match token with
  | .a => betweenA rounding p q liquidity
  | .b => .ok (betweenB rounding p q liquidity)

def exact (token : Token) (rounding : Rounding) (p q liquidity : Nat) :
    Except QuoteError Nat := do
  let delta ← between token rounding p q liquidity
  delta.toExcept

end TokenDelta

end PoolQuote
