import PoolQuote.SqrtPrice

/-!
Ticks and square-root prices. Tick `t` stands for the price `1.0001 ^ t`. Its square-root price is
a product of tabulated powers, one for each binary digit of `|t|`, cut to a whole number after each
factor. The opposite conversion finds the greatest tick whose price is not above a given one, from
the base-2 logarithm of that price.
-/

set_option autoImplicit false

namespace PoolQuote

namespace TickIndex

def minimum : Int := -443636

def maximum : Int := 443636

def InBounds (t : Int) : Prop :=
  minimum ≤ t ∧ t ≤ maximum

instance (t : Int) : Decidable (InBounds t) :=
  inferInstanceAs (Decidable (_ ∧ _))

def clamp (t : Int) : Int :=
  max minimum (min t maximum)

-- Entry `k` is the whole part of `2 ^ 96 * 1.0001 ^ (2 ^ k / 2)`, and among the falling powers that
-- of `2 ^ 64 / 1.0001 ^ (2 ^ k / 2)`.
def risingPowers : List Nat :=
  [79232123823359799118286999567, 79236085330515764027303304731, 79244008939048815603706035061,
    79259858533276714757314932305, 79291567232598584799939703904, 79355022692464371645785046466,
    79482085999252804386437311141, 79736823300114093921829183326, 80248749790819932309965073892,
    81282483887344747381513967011, 83390072131320151908154831281, 87770609709833776024991924138,
    97234110755111693312479820773, 119332217159966728226237229890,
    179736315981702064433883588727, 407748233172238350107850275304,
    2098478828474011932436660412517, 55581415166113811149459800483533,
    38992368544603139932233054999993551]

def fallingPowers : List Nat :=
  [18445821805675392311, 18444899583751176498, 18443055278223354162, 18439367220385604838,
    18431993317065449817, 18417254355718160513, 18387811781193591352, 18329067761203520168,
    18212142134806087854, 17980523815641551639, 17526086738831147013, 16651378430235024244,
    15030750278693429944, 12247334978882834399, 8131365268884726200, 3584323654723342297,
    696457651847595233, 26294789957452057, 37481735321082]

def powerProduct (scale : Nat) : List Nat → Nat → Nat → Nat
  | [], _, r => r
  | power :: powers, n, r =>
      powerProduct scale powers (n / 2) (if n % 2 = 1 then r * power / Nat.pow 2 scale else r)

def rawPrice (t : Int) : Nat :=
  if 0 ≤ t then powerProduct 96 risingPowers t.toNat (Nat.pow 2 96) / Nat.pow 2 32
  else powerProduct 64 fallingPowers (-t).toNat SqrtPrice.unit

def sqrtPrice (t : Int) : Except QuoteError Nat :=
  if InBounds t then .ok (rawPrice t) else .error (.invalidTickIndex t)

-- The first `n` binary digits of the base-2 logarithm of `r / 2 ^ 63`, for a whole number `r` of 64
-- bits. A square has twice the logarithm, so that squaring shows the next digit.
def logDigits : Nat → Nat → Nat
  | 0, _ => 0
  | n + 1, r =>
      let digit := r * r / Nat.pow 2 127
      digit * Nat.pow 2 n + logDigits n (r * r / Nat.pow 2 (63 + digit))

def leading (p : Nat) : Nat :=
  if 64 ≤ p.log2 then p / Nat.pow 2 (p.log2 - 63) else p * Nat.pow 2 (63 - p.log2)

def binaryLog (p : Nat) : Int :=
  (p.log2 - 64) * Nat.pow 2 32 + logDigits 14 (leading p) * Nat.pow 2 18

def ticksPerDoubling : Int := 59543866431248

def lowerMargin : Int := 184467440737095516

def upperMargin : Int := 15793534762490258745

/-- The greatest tick whose square-root price is at most `p`. The logarithm leaves one or two. -/
def ofRawPrice (p : Nat) : Int :=
  let ticks := binaryLog p * ticksPerDoubling
  let low := (ticks - lowerMargin) / Nat.pow 2 64
  let high := (ticks + upperMargin) / Nat.pow 2 64
  if low = high then low else if rawPrice high ≤ p then high else low

end TickIndex

namespace SqrtPrice

def ofTick (t : Int) : Except QuoteError SqrtPrice := do
  ofNat (← TickIndex.sqrtPrice t)

def tick (p : SqrtPrice) : Int :=
  TickIndex.ofRawPrice p.value

end SqrtPrice

def TickIndex.ofSqrtPrice (p : Nat) : Except QuoteError Int := do
  let price ← SqrtPrice.ofNat p
  return price.tick

end PoolQuote
