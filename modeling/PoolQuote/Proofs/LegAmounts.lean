import PoolQuote.Proofs.SwapPath

/-!
The amounts of one leg, by the side that the swap is for: what a leg takes from the amount that is
left, what it adds to the other one and how far it goes.
-/

set_option autoImplicit false

namespace PoolQuote

namespace Course

variable {c : Course}

theorem rate_lt (c : Course) : c.rate < SwapStep.feeUnit :=
  SwapStep.fee_rate_lt c.feeRate

-- What a leg would win on the whole way to its target.
def most (c : Course) (leg : SwapLeg) : Nat :=
  c.direction.won leg.before.price.value (c.target leg.stop.index) leg.before.liquidity

namespace IsMove

variable {leg : SwapLeg} (move : c.IsMove leg)

section Input

variable (input : c.side = .input)

include move input

theorem input_farthest {q : Nat} (there : c.direction.Leads leg.before.price.value q)
    (short : c.direction.Leads q (c.target leg.stop.index)) : c.direction.Leads q leg.after.price.value ↔
      SwapStep.cost c.rate (c.direction.due leg.before.price.value q leg.before.liquidity) ≤ leg.before.remaining := by
  rw [SwapStep.cost_le_iff c.rate_lt, move.reached]
  exact (move.input input).farthest q there short

theorem input_covered : SwapStep.cost c.rate
    (c.direction.due leg.before.price.value leg.after.price.value leg.before.liquidity) ≤ leg.before.remaining := by
  obtain ⟨forward, short⟩ := move.forward_short
  exact (move.input_farthest input forward short).mp (c.direction.leads_refl _)

theorem input_short (missed : leg.after.price.value ≠ c.target leg.stop.index) : leg.before.remaining <
    SwapStep.cost c.rate (c.direction.due leg.before.price.value (c.target leg.stop.index) leg.before.liquidity) := by
  obtain ⟨forward, short⟩ := move.forward_short
  by_contra covered
  have beyond := (move.input_farthest input (Direction.leads_trans forward short) (c.direction.leads_refl _)).mpr
    (not_lt.mp covered)
  exact missed (Direction.leads_antisymm short beyond)

theorem input_counted : leg.step.used c.side.other =
    c.direction.won leg.before.price.value leg.after.price.value leg.before.liquidity := by
  rw [input, move.reached]
  exact (move.input input).amountOut

theorem input_paid : leg.after.remaining + c.direction.due leg.before.price.value leg.after.price.value
    leg.before.liquidity ≤ leg.before.remaining := by
  have total := move.remaining
  rw [input, SwapStep.used, (move.input input).amountIn, ← move.reached] at total
  omega

theorem input_whole (reached : leg.after.price.value = c.target leg.stop.index) : leg.before.remaining =
    leg.after.remaining + SwapStep.cost c.rate
      (c.direction.due leg.before.price.value leg.after.price.value leg.before.liquidity) := by
  have fee := (move.input input).fee_whole (by rw [← move.reached, reached])
  have total := move.remaining
  rw [input] at total
  rw [total, SwapStep.used, fee, (move.input input).amountIn, move.reached]
  rfl

theorem input_spent (missed : leg.after.price.value ≠ c.target leg.stop.index) : leg.after.remaining = 0 := by
  have fee := (move.input input).fee_rest (by rw [← move.reached]; exact missed)
  have total := move.remaining
  rw [input, SwapStep.used, fee] at total
  omega

-- What is taken from the amount covers the way with its fee, whether the leg ends its swap or not.
theorem input_cost_le : SwapStep.cost c.rate
    (c.direction.due leg.before.price.value leg.after.price.value leg.before.liquidity) ≤ leg.step.used c.side := by
  have covered := move.input_covered input
  have total := move.remaining
  by_cases reached : leg.after.price.value = c.target leg.stop.index
  · have whole := move.input_whole input reached
    omega
  · have spent := move.input_spent input reached
    omega

end Input

section Output

variable (output : c.side = .output)

include move output

theorem output_nearest :
    (c.most leg ≤ leg.before.remaining ∧ leg.after.price.value = c.target leg.stop.index) ∨
    (leg.before.remaining < c.most leg ∧
      ∀ q, c.direction.Leads leg.before.price.value q → c.direction.Leads q (c.target leg.stop.index) →
        (c.direction.Leads leg.after.price.value q ↔
          leg.before.remaining ≤ c.direction.won leg.before.price.value q leg.before.liquidity)) := by
  rw [move.reached]
  exact (move.output output).nearest

theorem output_counted : leg.step.used c.side.other = SwapStep.cost c.rate
    (c.direction.due leg.before.price.value leg.after.price.value leg.before.liquidity) := by
  rw [output, move.reached]
  change leg.step.amountIn + leg.step.fee = _
  rw [(move.output output).fee, (move.output output).amountIn]
  rfl

theorem output_remaining : leg.before.remaining = leg.after.remaining +
    min (c.direction.won leg.before.price.value leg.after.price.value leg.before.liquidity) leg.before.remaining := by
  have total := move.remaining
  rw [output] at total
  rw [move.reached, ← (move.output output).amountOut]
  exact total

theorem output_spent (less : leg.before.remaining < c.most leg) : leg.before.remaining ≤
    c.direction.won leg.before.price.value leg.after.price.value leg.before.liquidity ∧ leg.after.remaining = 0 := by
  obtain ⟨forward, short⟩ := move.forward_short
  have enough : leg.before.remaining ≤
      c.direction.won leg.before.price.value leg.after.price.value leg.before.liquidity := by
    rcases move.output_nearest output with ⟨within, _⟩ | ⟨_, nearest⟩
    · omega
    · exact (nearest _ forward short).mp (c.direction.leads_refl _)
  have total := move.output_remaining output
  rw [min_eq_right enough] at total
  exact ⟨enough, by omega⟩

theorem output_leads (less : leg.before.remaining < c.most leg) {q : Nat}
    (forward : c.direction.Leads leg.before.price.value q) (short : c.direction.Leads q (c.target leg.stop.index))
    (enough : leg.before.remaining ≤ c.direction.won leg.before.price.value q leg.before.liquidity) :
    c.direction.Leads leg.after.price.value q := by
  rcases move.output_nearest output with ⟨within, _⟩ | ⟨_, nearest⟩
  · omega
  · exact (nearest q forward short).mpr enough

theorem output_whole (within : c.most leg ≤ leg.before.remaining) :
    leg.after.price.value = c.target leg.stop.index ∧ leg.before.remaining = leg.after.remaining + c.most leg := by
  have reached : leg.after.price.value = c.target leg.stop.index := by
    rcases move.output_nearest output with ⟨_, reached⟩ | ⟨less, _⟩
    · exact reached
    · omega
  have total := move.output_remaining output
  rw [reached, ← most, min_eq_left within] at total
  exact ⟨reached, total⟩

end Output

end IsMove

end Course

end PoolQuote
