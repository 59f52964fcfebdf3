/-!
The machine words of ledger records. An unsigned word of `w` bits is a `BitVec w`, read with
`toNat`; a signed word is a `Signed w`, read with `toInt`.
-/

set_option autoImplicit false

namespace PoolQuote

def wordCount (w : Nat) : Nat :=
  Nat.pow 2 w

structure Signed (w : Nat) where
  bits : BitVec w
  deriving DecidableEq, Inhabited

namespace Signed

variable {w : Nat}

def toInt (x : Signed w) : Int :=
  x.bits.toInt

def ofInt (w : Nat) (i : Int) : Signed w :=
  ⟨BitVec.ofInt w i⟩

def least (w : Nat) : Int :=
  -wordCount (w - 1)

def greatest (w : Nat) : Int :=
  wordCount (w - 1) - 1

def Holds (w : Nat) (i : Int) : Prop :=
  least w ≤ i ∧ i ≤ greatest w

instance (w : Nat) (i : Int) : Decidable (Holds w i) :=
  inferInstanceAs (Decidable (_ ∧ _))

def ofInt? (w : Nat) (i : Int) : Option (Signed w) :=
  if Holds w i then some (ofInt w i) else none

instance : Zero (Signed w) := ⟨⟨0⟩⟩

end Signed

def FitsBits (w n : Nat) : Prop :=
  n < wordCount w

instance (w n : Nat) : Decidable (FitsBits w n) :=
  inferInstanceAs (Decidable (n < wordCount w))

def unsignedOfInt? (w : Nat) (i : Int) : Option (BitVec w) :=
  if 0 ≤ i ∧ i < wordCount w then some (BitVec.ofInt w i) else none

def wordMax (w : Nat) : Nat :=
  wordCount w - 1

end PoolQuote
