import PoolQuote.Error
import PoolQuote.Rounding
import PoolQuote.Word

/-!
Products and quotients whose results must fit a machine word. Each operation is the exact one on
natural numbers, and each has an error of its own for a result that the word cannot hold.
-/

set_option autoImplicit false

namespace PoolQuote

def multiply (a b : Nat) : Except QuoteError Nat :=
  if FitsBits 128 (a * b) then .ok (a * b) else .error .multiplicationOverflow

-- The quotient `a * b / d`, if 128 bits hold it; the product may be wider.
def mulDiv (rounding : Rounding) (a b d : Nat) : Except QuoteError Nat :=
  if d = 0 then .error .divideByZero
  else
    let quotient := rounding.div (a * b) d
    if FitsBits 128 quotient then .ok quotient else .error .mulDivOverflow

def mulShift (rounding : Rounding) (a b : Nat) : Except QuoteError Nat :=
  if FitsBits 128 (a * b) then
    let quotient := rounding.div (a * b) (wordCount 64)
    if FitsBits 64 quotient then .ok quotient else .error .multiplicationOverflow
  else .error .mulShiftOverflow

def divide (rounding : Rounding) (n d : Nat) : Except QuoteError Nat :=
  if d = 0 then .error .divideByZero else .ok (rounding.div n d)

end PoolQuote
