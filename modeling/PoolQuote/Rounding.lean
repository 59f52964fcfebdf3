/-!
Directed division of natural numbers.
-/

set_option autoImplicit false

namespace PoolQuote

inductive Rounding
  | down
  | up
  deriving DecidableEq, Repr

namespace Rounding

def isUp : Rounding → Bool
  | down => false
  | up => true

def upIf (b : Bool) : Rounding :=
  if b then up else down

def flip : Rounding → Rounding
  | down => up
  | up => down

def div : Rounding → Nat → Nat → Nat
  | down, n, d => n / d
  | up, n, d => if n % d = 0 then n / d else n / d + 1

end Rounding

end PoolQuote
