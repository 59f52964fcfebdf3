import PoolQuote.Bytes

/-!
Which thirty-two bytes encode a point of the twisted Edwards curve `-x² + y² = 1 + d x² y²` over the
field of `2 ^ 255 - 19` elements. The bytes hold `y`, least significant first, below a sign bit.
-/

set_option autoImplicit false

namespace PoolQuote.Edwards25519

def fieldSize : Nat := Nat.pow 2 255 - 19

def d : Nat :=
  37095705934669439343138083508754565189542113879843219016388785533085940283555

def power : Nat → Nat → Nat → Nat
  | 0, _, _ => 1
  | n + 1, b, e =>
      let rest := power n (b * b % fieldSize) (e / 2)
      if e % 2 = 1 then b * rest % fieldSize else rest

def isSquare (x : Nat) : Bool :=
  x % fieldSize = 0 ∨ power 255 (x % fieldSize) ((fieldSize - 1) / 2) = 1

/-- Whether some `x` lies on the curve with the encoded `y`: whether `(y² - 1) / (d y² + 1)` is a
square. -/
def encodesPoint (bytes : List UInt8) : Bool :=
  let y := Bytes.toNat bytes % Nat.pow 2 255
  let u := y * y + (fieldSize - 1)
  let v := d * (y * y) + 1
  isSquare (u * v)

end PoolQuote.Edwards25519
