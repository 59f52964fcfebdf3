import PoolQuote.Arithmetic
import PoolQuote.Direction
import PoolQuote.SqrtPrice

/-!
The square-root price that a pool reaches when an amount of one token is paid in or out at constant
liquidity. A price solved from `a` is rounded up and one solved from `b` down, both of which favour
the pool.
-/

set_option autoImplicit false

namespace PoolQuote

namespace NextPrice

def checked (price : Nat) : Except QuoteError Nat :=
  if price < SqrtPrice.minValue then .error .tokenMinSubceeded
  else if SqrtPrice.maxValue < price then .error .tokenMaxExceeded
  else .ok price

-- Solves `L * p / (L ± amount * p)`: plus when `a` is paid in, minus when it is paid out.
def fromA (side : Side) (price liquidity amount : Nat) : Except QuoteError Nat :=
  if amount = 0 then .ok price
  else
    let product := price * amount
    let numerator := liquidity * price * SqrtPrice.unit
    let shifted := liquidity * SqrtPrice.unit
    if ¬FitsBits 256 numerator then .error .multiplicationOverflow
    else if side = .output ∧ shifted ≤ product then .error .divideByZero
    else
      let denominator := match side with
        | .input => shifted + product
        | .output => shifted - product
      if denominator = 0 then .error .divideByZero
      else
        let next := Rounding.up.div numerator denominator
        if FitsBits 128 next then checked next else .error .numberDownCast

-- Solves `p ± amount / L`: plus when `b` is paid in, minus when it is paid out.
def fromB (side : Side) (price liquidity amount : Nat) : Except QuoteError Nat :=
  match side with
  | .input => do
      let delta ← divide .down (amount * SqrtPrice.unit) liquidity
      if FitsBits 128 (price + delta) then checked (price + delta) else .error .tokenMaxExceeded
  | .output => do
      let delta ← divide .up (amount * SqrtPrice.unit) liquidity
      if delta ≤ price then checked (price - delta) else .error .tokenMinSubceeded

def solve (token : Token) (side : Side) (price liquidity amount : Nat) : Except QuoteError Nat :=
  match token with
  | .a => fromA side price liquidity amount
  | .b => fromB side price liquidity amount

end NextPrice

end PoolQuote
