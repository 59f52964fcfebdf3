import PoolQuote.Proofs.Conversion
import PoolQuote.Proofs.TickLogarithm
import PoolQuote.Proofs.WordArithmetic

/-!
The conversions between ticks and square-root prices on machine words. The products of tabulated powers and the digits
of the logarithm stay on their words for every tick and every price within the bounds.
-/

set_option autoImplicit false

namespace PoolQuote

namespace Words

open TickIndex (risingPowers fallingPowers ticksPerDoubling lowerMargin upperMargin)

def scaled (w scale r power : Nat) : Outcome Nat := do
  let product ← mul w r power
  let whole ← shiftRight w product scale
  orAbort (FitsBits 128 whole) whole

def powerProduct (w scale : Nat) : List Nat → Nat → Nat → Outcome Nat
  | [], _, r => return r
  | power :: powers, n, r => do
      let r ← if n % 2 = 1 then scaled w scale r power else pure r
      powerProduct w scale powers (n / 2) r

def rawPrice (t : Int) : Outcome Nat := do
  if 0 ≤ t then
    let product ← powerProduct 256 96 risingPowers t.toNat (Nat.pow 2 96)
    shiftRight 128 product 32
  else
    let distance ← signed 32 (-t)
    powerProduct 128 64 fallingPowers distance.toNat SqrtPrice.unit

def ofTickIndex (t : Int) : Outcome SqrtPrice := do
  if ¬TickIndex.InBounds t then throw (.error (.invalidTickIndex t))
  let price ← rawPrice t
  SqrtPrice.ofNat price

def leadingZeros (w n : Nat) : Nat :=
  if n = 0 then w else w - (n.log2 + 1)

def signedShiftLeft (w : Nat) (i : Int) (k : Nat) : Outcome Int :=
  orAbort (k < w) ((i * Nat.pow 2 k).bmod (wordCount w))

def signedShiftRight (w : Nat) (i : Int) (k : Nat) : Outcome Int :=
  orAbort (k < w) (i / Nat.pow 2 k)

def leading (p top : Nat) : Outcome Nat := do
  if 64 ≤ top then
    let distance ← sub top 63
    shiftRight 128 p distance
  else
    let distance ← sub 63 top
    shiftLeft 128 p distance

def nextDigit (r : Nat) : Outcome (Nat × Nat) := do
  let square ← mul 128 r r
  let digit ← shiftRight 128 square 127
  let distance ← add 128 63 digit
  let next ← shiftRight 128 square distance
  return (digit, next)

def logDigits : Nat → Nat → Int → Int → Outcome Int
  | 0, _, _, sum => return sum
  | n + 1, r, place, sum => do
      let (digit, next) ← nextDigit r
      let share ← signed 128 (place * digit)
      let sum ← signed 128 (sum + share)
      let place ← signedShiftRight 128 place 1
      logDigits n next place sum

def binaryLog (p : Nat) : Outcome Int := do
  let length ← sub 128 (leadingZeros 128 p)
  let top ← sub length 1
  let octave ← signed 128 (top - 64)
  let whole ← signedShiftLeft 128 octave 32
  let r ← leading p top
  let digits ← logDigits 14 r (Nat.pow 2 63) 0
  let fraction ← signedShiftRight 128 digits 32
  signed 128 (whole + fraction)

def candidate (ticks : Int) : Outcome Int := do
  let ticks ← signed 128 ticks
  let t ← signedShiftRight 128 ticks 64
  signed 32 t

def ofRawPrice (p : Nat) : Outcome Int := do
  let log ← binaryLog p
  let ticks ← signed 128 (log * ticksPerDoubling)
  let low ← candidate (ticks - lowerMargin)
  let high ← candidate (ticks + upperMargin)
  if low = high then return low
  else
    let price ← rawPrice high
    return if price ≤ p then high else low

section Powers

theorem scaled_exact {w scale r power : Nat} (near : scale < w) (product : FitsBits w (r * power))
    (fits : FitsBits 128 (r * power / Nat.pow 2 scale)) : scaled w scale r power = .ok (r * power / Nat.pow 2 scale) := by
  rw [scaled, mul, or_abort_bind product, shiftRight, or_abort_bind near, orAbort, if_pos fits]

-- Factors of at least one only enlarge a product, so that its end bounds all that it goes through.
theorem rising_le {powers : List Nat} (large : ∀ power ∈ powers, Nat.pow 2 96 ≤ power) (n r : Nat) :
    r ≤ TickIndex.powerProduct 96 powers n r := by
  induction powers generalizing n r with
  | nil => exact le_refl r
  | cons power powers ih =>
      have rest := ih fun other member => large other (List.mem_cons_of_mem power member)
      rw [TickIndex.powerProduct]
      split
      · have grown : r ≤ r * power / Nat.pow 2 96 :=
          (Nat.le_div_iff_mul_le (by decide)).mpr (Nat.mul_le_mul_left r (large power List.mem_cons_self))
        exact le_trans grown (rest _ _)
      · exact rest _ _

theorem rising_refines {powers : List Nat} (large : ∀ power ∈ powers, Nat.pow 2 96 ≤ power)
    (words : ∀ power ∈ powers, FitsBits 128 power) (n r : Nat)
    (fits : FitsBits 128 (TickIndex.powerProduct 96 powers n r)) :
    powerProduct 256 96 powers n r = .ok (TickIndex.powerProduct 96 powers n r) := by
  induction powers generalizing n r with
  | nil => rfl
  | cons power powers ih =>
      have start : FitsBits 128 r := fits.of_le (rising_le large n r)
      have tail : ∀ other ∈ powers, Nat.pow 2 96 ≤ other := fun other member =>
        large other (List.mem_cons_of_mem power member)
      rw [TickIndex.powerProduct] at fits ⊢
      have rest := ih tail (fun other member => words other (List.mem_cons_of_mem power member)) _ _ fits
      rw [powerProduct]
      by_cases odd : n % 2 = 1
      · rw [if_pos odd] at fits rest ⊢
        rw [if_pos odd, scaled_exact (by decide) (start.mul (words power List.mem_cons_self))
          (fits.of_le (rising_le tail _ _)), ok_bind]
        exact rest
      · rw [if_neg odd] at rest ⊢
        rw [if_neg odd]
        exact rest

theorem falling_refines {powers : List Nat} (words : ∀ power ∈ powers, FitsBits 64 power) (n r : Nat)
    (start : r ≤ wordCount 64) :
    powerProduct 128 64 powers n r = .ok (TickIndex.powerProduct 64 powers n r) := by
  induction powers generalizing n r with
  | nil => rfl
  | cons power powers ih =>
      have rest := fun s => ih (fun other member => words other (List.mem_cons_of_mem power member)) (n / 2) s
      rw [TickIndex.powerProduct, powerProduct]
      by_cases odd : n % 2 = 1
      · have small : power < wordCount 64 := words power List.mem_cons_self
        have below : r * power < wordCount 64 * wordCount 64 :=
          lt_of_le_of_lt (Nat.mul_le_mul_right power start) (Nat.mul_lt_mul_of_pos_left small (by decide))
        have product : FitsBits 128 (r * power) := lt_of_lt_of_eq below (Nat.pow_add 2 64 64).symm
        have cut : r * power / Nat.pow 2 64 ≤ wordCount 64 := (Nat.div_lt_of_lt_mul below).le
        rw [if_pos odd, if_pos odd, scaled_exact (by decide) product (lt_of_le_of_lt cut (by decide)), ok_bind]
        exact rest _ cut
      · rw [if_neg odd, if_neg odd]
        exact rest _ start

theorem rising_powers_large : ∀ power ∈ risingPowers, Nat.pow 2 96 ≤ power := by
  decide +kernel

theorem rising_powers_fit : ∀ power ∈ risingPowers, FitsBits 128 power := by
  decide +kernel

theorem falling_powers_fit : ∀ power ∈ fallingPowers, FitsBits 64 power := by
  decide +kernel

theorem raw_price_refines {t : Int} (inside : TickIndex.InBounds t) : rawPrice t = .ok (TickIndex.rawPrice t) := by
  have most := (TickIndex.raw_price_bounds t inside).2
  unfold rawPrice
  rw [TickIndex.rawPrice] at most ⊢
  by_cases rises : 0 ≤ t
  · rw [if_pos rises] at most ⊢
    rw [if_pos rises]
    have fits : FitsBits 128 (TickIndex.powerProduct 96 risingPowers t.toNat (Nat.pow 2 96)) :=
      lt_of_lt_of_le ((Nat.div_lt_iff_lt_mul (by decide)).mp (Nat.lt_succ_of_le most)) (by decide +kernel)
    rw [rising_refines rising_powers_large rising_powers_fit _ _ fits, ok_bind, shiftRight, orAbort, if_pos (by decide)]
  · have holds : Signed.Holds 32 (-t) := by
      simp only [TickIndex.InBounds, TickIndex.minimum, TickIndex.maximum, Signed.holds_iff] at *
      omega
    rw [if_neg rises, if_neg rises, signed_exact holds, ok_bind]
    exact falling_refines falling_powers_fit _ _ (le_refl _)

-- No product of the powers of a tick leaves its word.
theorem of_tick_index_refines (t : Int) : ofTickIndex t = liftM (SqrtPrice.ofTick t) := by
  unfold ofTickIndex SqrtPrice.ofTick
  by_cases inside : TickIndex.InBounds t
  · rw [if_neg (not_not.mpr inside), TickIndex.sqrt_price_inside inside, raw_price_refines inside]
    rfl
  · rw [if_pos inside, TickIndex.sqrt_price_outside inside]
    rfl

end Powers

section Digits

variable {p : Nat} (positive : p ≠ 0) (fits : FitsBits 128 p)

include positive fits

theorem log_two_lt : p.log2 < 128 :=
  (Nat.log2_lt positive).mpr fits

theorem top_exact : sub 128 (leadingZeros 128 p) = .ok (p.log2 + 1) := by
  have short := log_two_lt positive fits
  have zeros : 128 - (p.log2 + 1) ≤ 128 := Nat.sub_le _ _
  have length : 128 - (128 - (p.log2 + 1)) = p.log2 + 1 := Nat.sub_sub_self short
  rw [leadingZeros, if_neg positive, sub, orAbort, if_pos zeros, length]

theorem leading_refines : leading p p.log2 = .ok (TickIndex.leading p) := by
  have short := log_two_lt positive fits
  have below := (TickIndex.leading_bounds p positive).2
  unfold leading
  unfold TickIndex.leading at *
  by_cases high : 64 ≤ p.log2
  · rw [if_pos high, if_pos high, sub, or_abort_bind (by omega), shiftRight, orAbort, if_pos (by omega)]
  · rw [if_neg high] at below ⊢
    rw [if_neg high, sub, or_abort_bind (by omega), shiftLeft, orAbort, if_pos (by omega),
      Nat.mod_eq_of_lt (lt_trans below (by decide))]

end Digits

theorem next_digit_exact {r : Nat} (upper : r < 2 ^ 64) :
    nextDigit r = .ok (r * r / 2 ^ 127, r * r / 2 ^ (63 + r * r / 2 ^ 127)) := by
  have square : r * r < 2 ^ 64 * 2 ^ 64 := Nat.mul_lt_mul'' upper upper
  have fits : FitsBits 128 (r * r) := lt_of_lt_of_eq square (Nat.pow_add 2 64 64).symm
  have digit : r * r / Nat.pow 2 127 ≤ 1 := by
    simp only [Nat.pow_eq]
    omega
  have distance : FitsBits 128 (63 + r * r / Nat.pow 2 127) := lt_of_le_of_lt (Nat.add_le_add_left digit 63) (by decide)
  have near : 63 + r * r / Nat.pow 2 127 < 128 := by omega
  rw [nextDigit, mul, or_abort_bind fits, shiftRight, or_abort_bind (by decide), add, or_abort_bind distance, shiftRight,
    or_abort_bind near]
  rfl

-- With `n` digits to come the next place is `2 ^ n` units, and the sum leaves room for all of them.
theorem log_digits_refines (n r : Nat) (unit sum : Int) (lower : 2 ^ 63 ≤ r) (upper : r < 2 ^ 64) (positive : 0 < unit)
    (nonneg : 0 ≤ sum) (room : sum + 2 ^ n * (2 * unit) ≤ 2 ^ 100) :
    logDigits n r (2 ^ n * unit) sum = .ok (sum + TickIndex.logDigits n r * (2 * unit)) := by
  induction n generalizing r sum with
  | zero =>
      have none : (TickIndex.logDigits 0 r : Int) * (2 * unit) = 0 := Int.zero_mul _
      rw [none, add_zero]
      rfl
  | succ n ih =>
      obtain ⟨first, last⟩ := TickIndex.square_leading r lower upper
      have square : r * r < 2 ^ 64 * 2 ^ 64 := Nat.mul_lt_mul'' upper upper
      have binary : r * r / 2 ^ 127 = 0 ∨ r * r / 2 ^ 127 = 1 := by omega
      have digits : TickIndex.logDigits (n + 1) r =
          r * r / 2 ^ 127 * 2 ^ n + TickIndex.logDigits n (r * r / 2 ^ (63 + r * r / 2 ^ 127)) := rfl
      have place : (2 : Int) ^ (n + 1) * unit = 2 ^ n * unit * 2 := by ring
      have double : (2 : Int) ^ (n + 1) * (2 * unit) = 4 * (2 ^ n * unit) := by ring
      have small : (0 : Int) < 2 ^ n * unit := by positivity
      rw [double] at room
      rw [digits, logDigits, next_digit_exact upper, ok_bind]
      generalize r * r / 2 ^ 127 = digit at *
      generalize r * r / 2 ^ (63 + digit) = next at *
      have rest := ih next (sum + 2 ^ (n + 1) * unit * digit) first last
      rw [place] at rest ⊢
      rw [show (2 : Int) ^ n * (2 * unit) = 2 ^ n * unit * 2 by ring] at rest
      have spread : 0 ≤ 2 ^ n * unit * 2 * digit ∧ 2 ^ n * unit * 2 * digit ≤ 2 ^ n * unit * 2 := by
        rcases binary with rfl | rfl
        · omega
        · omega
      have share : Signed.Holds 128 (2 ^ n * unit * 2 * digit) := by
        rw [Signed.holds_iff]
        omega
      have total : Signed.Holds 128 (sum + 2 ^ n * unit * 2 * digit) := by
        rw [Signed.holds_iff]
        omega
      have half : signedShiftRight 128 (2 ^ n * unit * 2) 1 = .ok (2 ^ n * unit) := by
        rw [signedShiftRight, orAbort, if_pos (by decide)]
        exact congrArg Except.ok (Int.mul_ediv_cancel _ (by decide))
      dsimp only
      rw [signed_exact share, ok_bind, signed_exact total, ok_bind, half, ok_bind, rest (by omega) (by omega)]
      refine congrArg Except.ok ?_
      push_cast
      ring

theorem signed_shift_left_exact {i : Int} {k : Nat} (near : k < 128) (holds : Signed.Holds 128 (i * Nat.pow 2 k)) :
    signedShiftLeft 128 i k = .ok (i * Nat.pow 2 k) := by
  rw [Signed.holds_iff] at holds
  rw [signedShiftLeft, orAbort, if_pos near]
  generalize i * Nat.pow 2 k = shifted at *
  have count : ((wordCount 128 : Nat) : Int) = 2 ^ 128 := rfl
  exact congrArg Except.ok (Int.bmod_eq_of_le (by omega) (by omega))

theorem binary_log_near {p : Nat} (positive : p ≠ 0) (fits : FitsBits 128 p) :
    -2 ^ 39 ≤ TickIndex.binaryLog p ∧ TickIndex.binaryLog p ≤ 2 ^ 39 := by
  have short := log_two_lt positive fits
  obtain ⟨lower, upper⟩ := TickIndex.leading_bounds p positive
  have few := TickIndex.log_digits_lt 14 (TickIndex.leading p) lower upper
  rw [TickIndex.binaryLog, Nat.pow_eq, Nat.pow_eq]
  omega

theorem binary_log_refines {p : Nat} (positive : p ≠ 0) (fits : FitsBits 128 p) :
    binaryLog p = .ok (TickIndex.binaryLog p) := by
  have short := log_two_lt positive fits
  have near := binary_log_near positive fits
  obtain ⟨lower, upper⟩ := TickIndex.leading_bounds p positive
  have digits := log_digits_refines 14 (TickIndex.leading p) (2 ^ 49) 0 lower upper (by decide) (le_refl _) (by decide)
  have octave : Signed.Holds 128 ((p.log2 : Int) - 64) := by
    rw [Signed.holds_iff]
    omega
  have whole : Signed.Holds 128 (((p.log2 : Int) - 64) * Nat.pow 2 32) := by
    rw [Signed.holds_iff, Nat.pow_eq]
    omega
  have fraction : signedShiftRight 128 (0 + TickIndex.logDigits 14 (TickIndex.leading p) * (2 * 2 ^ 49)) 32 =
      .ok (TickIndex.logDigits 14 (TickIndex.leading p) * Nat.pow 2 18 : Nat) := by
    rw [signedShiftRight, orAbort, if_pos (by decide)]
    refine congrArg Except.ok ?_
    rw [Nat.pow_eq, Nat.pow_eq]
    omega
  have log : Signed.Holds 128 (TickIndex.binaryLog p) := by
    rw [Signed.holds_iff]
    omega
  rw [binaryLog, top_exact positive fits, ok_bind, sub, or_abort_bind (Nat.le_add_left _ _), Nat.add_sub_cancel,
    signed_exact octave, ok_bind, signed_shift_left_exact (by decide) whole, ok_bind, leading_refines positive fits,
    ok_bind]
  change logDigits 14 _ (2 ^ 14 * 2 ^ 49) 0 >>= _ = _
  rw [digits, ok_bind, fraction, ok_bind]
  exact signed_exact log

theorem candidate_exact (ticks : Int) (lower : -2 ^ 90 ≤ ticks) (upper : ticks ≤ 2 ^ 90) :
    candidate ticks = .ok (ticks / 2 ^ 64) := by
  have wide : Signed.Holds 128 ticks := by
    rw [Signed.holds_iff]
    omega
  have narrow : Signed.Holds 32 (ticks / 2 ^ 64) := by
    rw [Signed.holds_iff]
    omega
  rw [candidate, signed_exact wide, ok_bind, signedShiftRight, or_abort_bind (by decide)]
  exact signed_exact narrow

-- No digit of a logarithm and neither of its candidates leaves its word.
theorem of_raw_price_refines (price : SqrtPrice) : ofRawPrice price.value = .ok (TickIndex.ofRawPrice price.value) := by
  obtain ⟨p, least, most⟩ := price
  have positive : p ≠ 0 := (lt_of_lt_of_le (by decide) least).ne'
  have fits : FitsBits 128 p := lt_of_le_of_lt most (by decide)
  have near := binary_log_near positive fits
  have inside := TickIndex.candidate_in_bounds least most
  have ticks : Signed.Holds 128 (TickIndex.binaryLog p * ticksPerDoubling) := by
    rw [Signed.holds_iff, ticksPerDoubling]
    omega
  have low := candidate_exact (TickIndex.binaryLog p * ticksPerDoubling - lowerMargin)
    (by rw [ticksPerDoubling, lowerMargin]; omega) (by rw [ticksPerDoubling, lowerMargin]; omega)
  have high := candidate_exact (TickIndex.binaryLog p * ticksPerDoubling + upperMargin)
    (by rw [ticksPerDoubling, upperMargin]; omega) (by rw [ticksPerDoubling, upperMargin]; omega)
  rw [ofRawPrice, binary_log_refines positive fits, ok_bind, signed_exact ticks, ok_bind, low, ok_bind, high, ok_bind,
    raw_price_refines inside, ok_bind]
  unfold TickIndex.ofRawPrice
  simp only [Nat.pow_eq, Nat.cast_pow, Nat.cast_ofNat]
  split
  · rfl
  · rfl

end Words

end PoolQuote
