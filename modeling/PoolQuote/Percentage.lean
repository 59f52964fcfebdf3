import PoolQuote.Error

/-!
Fractions of an amount: slippage tolerances and developer fees.
-/

set_option autoImplicit false

namespace PoolQuote

structure Percentage where
  numerator : BitVec 64
  denominator : BitVec 64
  deriving DecidableEq

namespace Percentage

def validate (p : Percentage) : Except QuoteError Unit :=
  if p.denominator = 0 then
    .error (.invalidPercentage p.numerator.toNat p.denominator.toNat)
  else .ok ()

def ofFraction (n d : BitVec 64) : Except QuoteError Percentage := do
  let p : Percentage := ⟨n, d⟩
  p.validate
  return p

def ofBasisPoints (points : BitVec 64) : Percentage :=
  ⟨points, 10000⟩

def isZero (p : Percentage) : Bool :=
  p.numerator == 0

def IsBelowOne (p : Percentage) : Prop :=
  p.denominator ≠ 0 ∧ p.numerator.toNat < p.denominator.toNat

instance (p : Percentage) : Decidable p.IsBelowOne :=
  inferInstanceAs (Decidable (_ ∧ _))

def text (p : Percentage) : String :=
  s!"{p.numerator.toNat}/{p.denominator.toNat}"

end Percentage

end PoolQuote
