import PoolQuote.Proofs.DeltaOverflow
import PoolQuote.Proofs.Overdraw
import PoolQuote.Proofs.SolvedPrice
import PoolQuote.Proofs.StepRounding
import PoolQuote.Proofs.WordArithmetic

/-!
How a step fails whose target lies before it. Every failure below a step is there for its own reason: a divisor of
zero, an amount that the liquidity does not hold, a price out of bounds, a word that is too narrow. The way to the
target excludes all of them but the last.
-/

set_option autoImplicit false

namespace PoolQuote

-- The failures of a product or an amount that is too large for its word.
def QuoteError.IsOverflow (cause : QuoteError) : Prop :=
  cause ∈ [.multiplicationOverflow, .mulShiftOverflow, .tokenMaxExceeded]

theorem mul_shift_error {rounding : Rounding} {a b : Nat} {cause : QuoteError}
    (fails : mulShift rounding a b = .error cause) : cause.IsOverflow := by
  unfold mulShift at fails
  split at fails
  · dsimp only at fails
    split at fails
    · cases fails
    · cases fails
      exact List.mem_cons_self
  · cases fails
    exact List.mem_cons_of_mem _ List.mem_cons_self

namespace TokenDelta

theorem between_error {token : Token} {rounding : Rounding} {p q : SqrtPrice} {liquidity : Nat} {cause : QuoteError}
    (fails : between token rounding p.value q.value liquidity = .error cause) : cause = .multiplicationOverflow := by
  by_cases wide : IsWide token p.value q.value liquidity
  · rw [between_wide rounding wide] at fails
    exact (Except.error.inj fails).symm
  · obtain ⟨delta, read⟩ := between_narrow rounding (product_pos p q) wide
    rw [read] at fails
    cases fails

theorem too_large_error {token : Token} {rounding : Rounding} {p q liquidity : Nat} {cause : QuoteError}
    (read : between token rounding p q liquidity = .ok (.tooLarge cause)) : cause.IsOverflow := by
  cases token with
  | a =>
      obtain ⟨_, read⟩ := else_ok read
      obtain ⟨_, read⟩ := else_ok read
      have large := Except.ok.inj read
      split at large
      · cases large
      · cases large
        exact List.mem_cons_of_mem _ (List.mem_cons_of_mem _ List.mem_cons_self)
  | b =>
      have large : betweenB rounding p q liquidity = .tooLarge cause := Except.ok.inj read
      unfold betweenB at large
      cases product : mulShift rounding liquidity (max p q - min p q) with
      | ok amount => rw [product] at large; cases large
      | error other =>
          rw [product] at large
          cases large
          exact mul_shift_error product

theorem exact_error {token : Token} {rounding : Rounding} {p q : SqrtPrice} {liquidity : Nat} {cause : QuoteError}
    (fails : exact token rounding p.value q.value liquidity = .error cause) : cause.IsOverflow := by
  rcases bind_error fails with failed | ⟨delta, read, fails⟩
  · rw [between_error failed]
    exact List.mem_cons_self
  · cases delta with
    | fits amount => cases fails
    | tooLarge other =>
        cases fails
        exact too_large_error read

end TokenDelta

namespace SwapStep

theorem narrow_of_fits {n : Nat} (fits : FitsBits 64 n) : narrow n = .ok n :=
  if_pos fits

theorem mul_div_of_fits {rounding : Rounding} {a b d : Nat} (divisor : d ≠ 0)
    (fits : FitsBits 128 (rounding.div (a * b) d)) : mulDiv rounding a b d = .ok (rounding.div (a * b) d) := by
  rw [mulDiv, if_neg divisor]
  exact if_pos fits

theorem available_input_total {remaining : Nat} (feeRate : Nat) (small : FitsBits 64 remaining) :
    available .input remaining feeRate = .ok (net feeRate remaining) := by
  have fits : FitsBits 64 (net feeRate remaining) := small.of_le (net_le feeRate remaining)
  exact bind_of_ok (mul_div_of_fits (by decide) (fits.mono (by decide))) (narrow_of_fits fits)

theorem fee_on_le (rate : BitVec 16) (amount : Nat) : feeOn rate.toNat amount ≤ amount := by
  have narrow := rate.isLt
  have share : rate.toNat ≤ feeUnit - rate.toNat := by
    simp only [feeUnit]
    omega
  have unit : 0 < feeUnit - rate.toNat := by
    simp only [feeUnit]
    omega
  exact (Rounding.up_div_le_iff _ _ _ unit).mpr (Nat.mul_le_mul_left amount share)

theorem proportional_fee_total {amount : Nat} (rate : BitVec 16) (small : FitsBits 64 amount) :
    proportionalFee amount rate.toNat = .ok (feeOn rate.toNat amount) := by
  have fits : FitsBits 64 (feeOn rate.toNat amount) := small.of_le (fee_on_le rate amount)
  have divisor : feeUnit - rate.toNat ≠ 0 := Nat.sub_ne_zero_of_lt (fee_rate_lt rate)
  exact bind_of_ok (mul_div_of_fits divisor (fits.mono (by decide))) (narrow_of_fits fits)

theorem available_total (side : Side) {remaining : Nat} (feeRate : Nat) (small : FitsBits 64 remaining) :
    ∃ amount, available side remaining feeRate = .ok amount ∧ amount ≤ wordMax 64 := by
  have within : remaining ≤ wordMax 64 := Nat.le_pred_of_lt small
  cases side with
  | input => exact ⟨_, available_input_total feeRate small, le_trans (net_le feeRate remaining) within⟩
  | output => exact ⟨remaining, rfl, within⟩

section Price

variable {d : Direction} {side : Side} {p target : SqrtPrice} {liquidity amount : Nat} {whole : TokenDelta}
  (leads : d.Leads p.value target.value) (small : amount ≤ wordMax 64)
  (between : TokenDelta.between (d.token side) (rounding side) p.value target.value liquidity = .ok whole)

include leads small between

theorem price_error {cause : QuoteError}
    (failed : (if whole.IsAtMost amount then pure target.value
      else NextPrice.solve (d.token side) side p.value liquidity amount) = Except.error cause) :
    cause = .multiplicationOverflow := by
  have describes := TokenDelta.between_describes between
  by_cases covered : whole.IsAtMost amount
  · rw [if_pos covered] at failed
    cases failed
  · rw [if_neg covered] at failed
    have liquid := liquid_of_uncovered describes covered
    have exceeds := not_le.mp fun within => covered ((TokenDelta.is_at_most_iff describes small).mpr within)
    have solved : (∃ next, NextPrice.solve (d.token side) side p.value liquidity amount = .ok next) ∨
        NextPrice.solve (d.token side) side p.value liquidity amount = .error .multiplicationOverflow := by
      cases side with
      | input => exact NextPrice.solve_input_within amount liquid leads (Nat.lt_ceil.mp exceeds)
      | output =>
          refine NextPrice.solve_output_within amount liquid leads ?_
          exact (Nat.le_floor_iff (Token.amount_nonneg _ _ _ _)).mp (le_of_lt exceeds)
    rcases solved with ⟨next, ok⟩ | overflow
    · rw [ok] at failed
      cases failed
    · rw [overflow] at failed
      exact (Except.error.inj failed).symm

theorem price_inside {next : Nat}
    (reached : (if whole.IsAtMost amount then pure target.value
      else NextPrice.solve (d.token side) side p.value liquidity amount) = Except.ok next) :
    ∃ q : SqrtPrice, q.value = next := by
  have fits := TokenDelta.is_at_most_iff (TokenDelta.between_describes between) small
  have way : d.Leads p.value next ∧ d.Leads next target.value := by
    cases side with
    | input =>
        obtain ⟨forward, short, _⟩ := input_price_ok p.value_pos target.value_pos leads fits reached
        exact ⟨forward, short⟩
    | output =>
        obtain ⟨forward, short, _⟩ := output_price_ok p.value_pos target.value_pos leads fits reached
        exact ⟨forward, short⟩
  obtain ⟨least, most⟩ := SqrtPrice.bounds_between way.1 way.2
  exact ⟨⟨next, least, most⟩, rfl⟩

end Price

theorem compute_error {d : Direction} {side : Side} {remaining liquidity : Nat} {rate : BitVec 16} {p target : SqrtPrice}
    {cause : QuoteError} (leads : d.Leads p.value target.value) (small : FitsBits 64 remaining)
    (fails : compute d side remaining rate.toNat liquidity p.value target.value = .error cause) : cause.IsOverflow := by
  have overdraws : compute d side remaining rate.toNat liquidity p.value target.value ≠ .error .amountRemainingOverflow :=
    compute_ne_overdraw d side remaining rate.toNat liquidity p.value_pos
  rw [fails] at overdraws
  rcases bind_error fails with failed | ⟨whole, between, fails⟩
  · rw [TokenDelta.between_error failed]
    exact List.mem_cons_self
  obtain ⟨amount, available, within⟩ := available_total side rate.toNat small
  rw [available, ok_bind] at fails
  rcases bind_ite_error fails with failed | ⟨next, reached, fails⟩
  · rw [price_error leads within between failed]
    exact List.mem_cons_self
  obtain ⟨q, rfl⟩ := price_inside leads within between reached
  rcases bind_error fails with failed | ⟨computed, exact, fails⟩
  · exact TokenDelta.exact_error failed
  rcases bind_ite_error fails with failed | ⟨fixed, reused, fails⟩
  · split at failed
    · cases failed
    · exact TokenDelta.exact_error failed
  -- What is left are the two fees, of which one fits its word and the other is a rest of what remains.
  cases side with
  | input =>
      dsimp only at fails
      split at fails
      · rw [proportional_fee_total rate (fixed_fits between reused)] at fails
        cases fails
      · split at fails
        · cases fails
        · cases fails
          exact absurd rfl overdraws
  | output =>
      rw [proportional_fee_total rate (TokenDelta.exact_fits exact)] at fails
      cases fails

end SwapStep

/-- The step may also be one without liquidity, amount or way to go. -/
theorem step_fails_only_by_overflow (d : Direction) (side : Side) (remaining : BitVec 64) (feeRate : BitVec 16)
    (liquidity : BitVec 128) (current target : SqrtPrice) (cause : QuoteError)
    (leads : d.Leads current.value target.value)
    (fails : SwapStep.compute d side remaining.toNat feeRate.toNat liquidity.toNat current.value target.value =
      .error cause) :
    cause ∈ [.multiplicationOverflow, .mulShiftOverflow, .tokenMaxExceeded] ∧
      cause ∉ [.divideByZero, .tokenMinSubceeded, .amountRemainingOverflow, .numberDownCast, .mulDivOverflow] := by
  have overflow : cause.IsOverflow := SwapStep.compute_error leads remaining.isLt fails
  refine ⟨overflow, ?_⟩
  simp only [QuoteError.IsOverflow, List.mem_cons, List.not_mem_nil, or_false] at overflow
  rcases overflow with rfl | rfl | rfl <;> decide

theorem step_fails_only_by_overflow_sample :
    SwapStep.compute .aToB .output 18446744073709551615 3000 36893488147419103232 Sample.unitPrice.value
        SqrtPrice.min.value = .error .tokenMaxExceeded ∧
      QuoteError.tokenMaxExceeded ∉
        [.divideByZero, .tokenMinSubceeded, .amountRemainingOverflow, .numberDownCast, .mulDivOverflow] := by
  have fails : SwapStep.compute .aToB .output 18446744073709551615 3000 36893488147419103232 Sample.unitPrice.value
      SqrtPrice.min.value = .error .tokenMaxExceeded := by
    decide +kernel
  have leads : Direction.aToB.Leads Sample.unitPrice.value SqrtPrice.min.value := by decide
  have law := step_fails_only_by_overflow .aToB .output 18446744073709551615 3000 36893488147419103232 Sample.unitPrice
    .min .tokenMaxExceeded leads fails
  exact ⟨fails, law.2⟩

end PoolQuote
