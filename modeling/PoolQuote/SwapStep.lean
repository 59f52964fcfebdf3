import PoolQuote.NextPrice
import PoolQuote.TokenDelta

/-!
One step of a swap: the price moves from where it stands toward a target at constant liquidity, and
stops short when the amount runs out. The specified token is the one the amount is for; a fee is
charged on the token paid in.
-/

set_option autoImplicit false

namespace PoolQuote

-- A step's amounts, fee and price. The amount paid in excludes the fee.
structure SwapStep where
  amountIn : Nat
  amountOut : Nat
  nextPrice : Nat
  fee : Nat
  deriving DecidableEq

namespace SwapStep

def feeUnit : Nat := 1000000

def narrow (n : Nat) : Except QuoteError Nat :=
  if FitsBits 64 n then .ok n else .error .numberDownCast

def available (side : Side) (remaining feeRate : Nat) : Except QuoteError Nat :=
  match side with
  | .input => do narrow (← mulDiv .down remaining (feeUnit - feeRate) feeUnit)
  | .output => .ok remaining

def proportionalFee (amountIn feeRate : Nat) : Except QuoteError Nat := do
  narrow (← mulDiv .up amountIn feeRate (feeUnit - feeRate))

def rounding : Side → Rounding
  | .input => .up
  | .output => .down

def compute (direction : Direction) (side : Side)
    (remaining feeRate liquidity current target : Nat) : Except QuoteError SwapStep := do
  let specified := direction.token side
  let whole ← TokenDelta.between specified (rounding side) current target liquidity
  let amount ← available side remaining feeRate
  let next ←
    if whole.IsAtMost amount then pure target
    else NextPrice.solve specified side current liquidity amount
  let computed ←
    TokenDelta.exact specified.other (rounding side.other) current next liquidity
  let fixed ←
    if next = target ∧ !whole.isTooLarge then pure whole.saturated
    else TokenDelta.exact specified (rounding side) current next liquidity
  match side with
  | .input =>
      let fee ←
        if next = target then proportionalFee fixed feeRate
        else if fixed ≤ remaining then pure (remaining - fixed)
        else throw .amountRemainingOverflow
      return ⟨fixed, computed, next, fee⟩
  | .output =>
      let fee ← proportionalFee computed feeRate
      return ⟨computed, min fixed remaining, next, fee⟩

end SwapStep

end PoolQuote
