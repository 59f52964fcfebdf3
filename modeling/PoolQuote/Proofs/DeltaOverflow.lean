import PoolQuote.Proofs.Consistency
import PoolQuote.Proofs.TokenAmount

/-!
When an amount between two prices is a value. Of `b` it always is, and it is marked as too large exactly where 64
bits do not hold it. Of `a` the same holds as long as the numerator stays within its word; past that the computation
fails, although the amount is too large there as well and could be marked so.
-/

set_option autoImplicit false

namespace PoolQuote

namespace TokenDelta

def numeratorA (p q liquidity : Nat) : Nat :=
  liquidity * (max p q - min p q) * SqrtPrice.unit

-- Where there is no amount between two prices, not even one that is too large.
def IsWide (token : Token) (p q liquidity : Nat) : Prop :=
  token = .a ∧ ¬FitsBits 256 (numeratorA p q liquidity)

theorem between_wide {token : Token} {p q liquidity : Nat} (rounding : Rounding) (wide : IsWide token p q liquidity) :
    between token rounding p q liquidity = .error .multiplicationOverflow := by
  obtain ⟨rfl, wide⟩ := wide
  exact if_pos wide

theorem between_narrow {token : Token} {p q liquidity : Nat} (rounding : Rounding) (divisor : 0 < max p q * min p q)
    (narrow : ¬IsWide token p q liquidity) : ∃ delta, between token rounding p q liquidity = .ok delta := by
  cases token with
  | a =>
      have within : FitsBits 256 (numeratorA p q liquidity) := not_not.mp fun wide => narrow ⟨rfl, wide⟩
      exact ⟨_, (if_neg (not_not.mpr within)).trans (if_neg (Nat.ne_of_gt divisor))⟩
  | b => exact ⟨_, rfl⟩

theorem product_pos (p q : SqrtPrice) : 0 < max p.value q.value * min p.value q.value :=
  Nat.mul_pos (lt_max_of_lt_left p.value_pos) (lt_min p.value_pos q.value_pos)

theorem product_le (p q : SqrtPrice) : max p.value q.value * min p.value q.value ≤ wordCount 192 := by
  have upper : max p.value q.value ≤ SqrtPrice.maxValue := max_le p.le_max q.le_max
  have lower : min p.value q.value ≤ SqrtPrice.maxValue := le_trans (min_le_left _ _) p.le_max
  exact le_trans (Nat.mul_le_mul upper lower) (by decide)

-- Two prices have a product of at most 192 bits, so that a numerator beyond 256 gives an amount beyond 64.
theorem wide_is_large {token : Token} {p q : SqrtPrice} {liquidity : Nat} (rounding : Rounding)
    (wide : IsWide token p.value q.value liquidity) :
    ¬FitsBits 64 (rounding.round (token.amount p.value q.value liquidity)) := by
  obtain ⟨rfl, wide⟩ := wide
  have whole : wordCount 64 ≤ numeratorA p.value q.value liquidity / (max p.value q.value * min p.value q.value) := by
    rw [Nat.le_div_iff_mul_le (product_pos p q)]
    calc wordCount 64 * (max p.value q.value * min p.value q.value)
        ≤ wordCount 64 * wordCount 192 := Nat.mul_le_mul_left _ (product_le p q)
      _ = wordCount 256 := (Nat.pow_add 2 64 192).symm
      _ ≤ numeratorA p.value q.value liquidity := not_lt.mp wide
  rw [← div_eq_round_a rounding liquidity (product_pos p q)]
  exact not_lt.mpr (le_trans whole (rounding.floor_le_div _ _))

theorem fits_of_describes {delta : TokenDelta} {rounded : Nat} (describes : delta.Describes rounded)
    (small : FitsBits 64 rounded) : delta = fits rounded := by
  cases delta with
  | fits amount => rw [describes.1]
  | tooLarge cause => exact absurd small describes

theorem too_large_of_describes {delta : TokenDelta} {rounded : Nat} (describes : delta.Describes rounded)
    (large : ¬FitsBits 64 rounded) : ∃ cause, delta = tooLarge cause := by
  cases delta with
  | fits amount => exact absurd describes.2 large
  | tooLarge cause => exact ⟨cause, rfl⟩

end TokenDelta

/-- An oversized amount is a value, except of `a` where its numerator is too wide. -/
theorem delta_is_value_unless_wide (token : Token) (rounding : Rounding) (p q : SqrtPrice) (liquidity : BitVec 128) :
    let delta := TokenDelta.between token rounding p.value q.value liquidity.toNat
    let rounded := rounding.round (token.amount p.value q.value liquidity.toNat)
    let wide := TokenDelta.IsWide token p.value q.value liquidity.toNat
    (delta = .ok (.fits rounded) ↔ FitsBits 64 rounded) ∧
      ((∃ cause, delta = .ok (.tooLarge cause)) ↔ ¬FitsBits 64 rounded ∧ ¬wide) ∧
      ∀ cause, delta = .error cause ↔ wide ∧ cause = .multiplicationOverflow := by
  intro delta rounded wide
  by_cases beyond : wide
  · have failed : delta = .error .multiplicationOverflow := TokenDelta.between_wide rounding beyond
    have large : ¬FitsBits 64 rounded := TokenDelta.wide_is_large rounding beyond
    rw [failed]
    simp [large, beyond, eq_comm]
  · obtain ⟨value, read⟩ := TokenDelta.between_narrow rounding (TokenDelta.product_pos p q) beyond
    have describes : value.Describes rounded := TokenDelta.between_describes read
    change delta = .ok value at read
    rw [read]
    by_cases small : FitsBits 64 rounded
    · obtain rfl := TokenDelta.fits_of_describes describes small
      simp [small, beyond]
    · obtain ⟨cause, rfl⟩ := TokenDelta.too_large_of_describes describes small
      simp [small, beyond]

/-- At the ends of the price range and the greatest liquidity `b` is marked as too large, where `a` fails. -/
theorem wide_delta_fails :
    TokenDelta.between .a .down SqrtPrice.minValue SqrtPrice.maxValue (wordMax 128) = .error .multiplicationOverflow ∧
      TokenDelta.between .b .down SqrtPrice.minValue SqrtPrice.maxValue (wordMax 128) =
        .ok (.tooLarge .mulShiftOverflow) ∧
      wordMax 64 < ⌊Token.a.amount SqrtPrice.minValue SqrtPrice.maxValue (wordMax 128)⌋₊ := by
  have wide : TokenDelta.IsWide .a SqrtPrice.min.value SqrtPrice.max.value (wordMax 128) := ⟨rfl, by decide +kernel⟩
  have large := not_lt.mp (TokenDelta.wide_is_large .down wide)
  exact ⟨TokenDelta.between_wide .down wide, by decide +kernel, large⟩

end PoolQuote
