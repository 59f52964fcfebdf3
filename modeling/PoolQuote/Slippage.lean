import PoolQuote.Percentage
import PoolQuote.Rounding
import PoolQuote.Word

/-!
Amounts widened by a tolerance `s`: raised to `x * (1 + s)` or lowered to `x / (1 + s)`.
-/

set_option autoImplicit false

namespace PoolQuote

/-- The amount moved by the tolerance. A raised amount stops at the largest one of 64 bits; it is
given up when its product with the tolerance leaves 128 bits. -/
def Percentage.widen (tolerance : Percentage) (direction : Rounding) (amount : BitVec 64) :
    Outcome (BitVec 64) := do
  tolerance.validate
  let x := amount.toNat
  let n := tolerance.numerator.toNat
  let d := tolerance.denominator.toNat
  match direction with
  | .up =>
      let product ← orAbort (FitsBits 128 (x * (d + n))) (x * (d + n))
      return BitVec.ofNat 64 (min (product / d) (wordMax 64))
  | .down => return BitVec.ofNat 64 (x * d / (d + n))

end PoolQuote
