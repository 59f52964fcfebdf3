import PoolQuote.Proofs.Consistency
import PoolQuote.Proofs.SwapLeg

/-!
A step toward a target that lies before it never passes the target and is rounded for the pool: what is paid in
is the ceiling of the exact amount, what is paid out the floor of it. A step that stops short has used up what
was left of the amount.
-/

set_option autoImplicit false

namespace PoolQuote

namespace SwapStep

variable {d : Direction} {remaining feeRate liquidity p target : Nat} {step : SwapStep}

theorem IsOutputStep.short_covers (made : step.IsOutputStep d remaining feeRate liquidity p target)
    (short : step.nextPrice ≠ target) : remaining ≤ d.won p step.nextPrice liquidity := by
  rcases made.nearest with ⟨_, arrived⟩ | ⟨_, nearest⟩
  · exact absurd arrived short
  · exact (nearest step.nextPrice made.forward made.short).mp (d.leads_refl _)

theorem IsOutputStep.short_used (made : step.IsOutputStep d remaining feeRate liquidity p target)
    (short : step.nextPrice ≠ target) : step.used .output = remaining := by
  rw [used, made.amountOut]
  exact min_eq_right (made.short_covers short)

end SwapStep

/-- Both roundings of a step are against the trade. -/
theorem step_rounds_for_pool (d : Direction) (side : Side) (remaining : BitVec 64) (feeRate : BitVec 16)
    (liquidity : BitVec 128) (current target : SqrtPrice) (step : SwapStep)
    (leads : d.Leads current.value target.value)
    (ok : SwapStep.compute d side remaining.toNat feeRate.toNat liquidity.toNat current.value target.value =
      .ok step) :
    d.Leads current.value step.nextPrice ∧ d.Leads step.nextPrice target.value ∧
      step.amountIn = ⌈d.inputToken.amount current.value step.nextPrice liquidity.toNat⌉₊ ∧
      step.amountOut = (match side with
        | .input => ⌊d.inputToken.other.amount current.value step.nextPrice liquidity.toNat⌋₊
        | .output => min ⌊d.inputToken.other.amount current.value step.nextPrice liquidity.toNat⌋₊
            remaining.toNat) ∧
      (step.nextPrice ≠ target.value → (match side with
        | .input => step.amountIn + step.fee
        | .output => step.amountOut) = remaining.toNat) := by
  have start := current.value_pos
  have finish := target.value_pos
  have small : remaining.toNat ≤ wordMax 64 := Nat.le_pred_of_lt remaining.isLt
  cases side with
  | input =>
      have made := SwapStep.compute_input start finish leads small ok
      exact ⟨made.forward, made.short, made.amountIn, made.amountOut, made.fee_rest⟩
  | output =>
      have made := SwapStep.compute_output start finish leads small ok
      exact ⟨made.forward, made.short, made.amountIn, made.amountOut, made.short_used⟩

def Sample.unitPrice : SqrtPrice :=
  ⟨18446744073709551616, by decide, by decide⟩

theorem step_rounds_for_pool_sample : ∃ step,
    SwapStep.compute .bToA .output 1000 3000 1000000007 Sample.unitPrice.value SqrtPrice.max.value = .ok step ∧
      step.nextPrice ≠ SqrtPrice.max.value ∧ Direction.bToA.Leads Sample.unitPrice.value step.nextPrice ∧
      step.amountIn = ⌈Token.b.amount Sample.unitPrice.value step.nextPrice 1000000007⌉₊ ∧
      step.amountOut = 1000 := by
  have run : (SwapStep.compute .bToA .output 1000 3000 1000000007 Sample.unitPrice.value
      SqrtPrice.max.value).toOption.map (fun step => decide (step.nextPrice = SqrtPrice.max.value)) = some false := by
    decide +kernel
  obtain ⟨step, ok, away⟩ := exists_ok run
  have short := of_decide_eq_false away
  have leads : Direction.bToA.Leads Sample.unitPrice.value SqrtPrice.max.value := by decide
  obtain ⟨forward, _, paid, _, used⟩ :=
    step_rounds_for_pool .bToA .output 1000 3000 1000000007 Sample.unitPrice .max step leads ok
  exact ⟨step, ok, short, forward, paid, used short⟩

end PoolQuote
