import PoolQuote.Proofs.Consistency
import PoolQuote.Proofs.NextPrice
import PoolQuote.Proofs.Outcome

/-!
The price that an amount is solved for is the best one: the farthest that an input pays for, and the nearest whose
output covers the amount. Between a price and a target that the amount does not take it past, such a price can always
be solved for, unless the numerator of its quotient leaves its word.
-/

set_option autoImplicit false

namespace PoolQuote

namespace Direction

def IsNearest (d : Direction) (prices : Set Nat) (p : Nat) : Prop :=
  p ∈ prices ∧ ∀ q ∈ prices, d.Leads p q

def IsFarthest (d : Direction) (prices : Set Nat) (p : Nat) : Prop :=
  p ∈ prices ∧ ∀ q ∈ prices, d.Leads q p

end Direction

theorem SqrtPrice.bounds_between {d : Direction} {p q : SqrtPrice} {n : Nat} (there : d.Leads p.value n)
    (further : d.Leads n q.value) : minValue ≤ n ∧ n ≤ maxValue := by
  cases d with
  | aToB => exact ⟨le_trans q.min_le further, le_trans there p.le_max⟩
  | bToA => exact ⟨le_trans p.min_le there, le_trans further q.le_max⟩

namespace NextPrice

theorem checked_inside {p : Nat} (bounds : SqrtPrice.minValue ≤ p ∧ p ≤ SqrtPrice.maxValue) : checked p = .ok p := by
  rw [checked, if_neg (not_lt.mpr bounds.1), if_neg (not_lt.mpr bounds.2)]

theorem price_fits {p : Nat} (bounds : SqrtPrice.minValue ≤ p ∧ p ≤ SqrtPrice.maxValue) : FitsBits 128 p :=
  lt_of_le_of_lt bounds.2 (by decide)

theorem from_a_inside {side : Side} {price liquidity amount : Nat} (liquid : 0 < liquidity)
    (covered : IsCovered .a side price liquidity amount)
    (bounds : SqrtPrice.minValue ≤ formula .a side price liquidity amount ∧
      formula .a side price liquidity amount ≤ SqrtPrice.maxValue) :
    fromA side price liquidity amount = .ok (formula .a side price liquidity amount) ∨
      fromA side price liquidity amount = .error .multiplicationOverflow := by
  have held : 0 < liquidity * SqrtPrice.unit := Nat.mul_pos liquid unit_pos
  unfold fromA
  by_cases zero : amount = 0
  · refine .inl ?_
    rw [if_pos zero, zero]
    cases side with
    | input => rw [formula, Nat.mul_zero, Nat.add_zero, quotient_of_zero liquid]
    | output => rw [formula, Nat.mul_zero, Nat.sub_zero, quotient_of_zero liquid]
  · rw [if_neg zero]
    dsimp only
    by_cases wide : FitsBits 256 (liquidity * price * SqrtPrice.unit)
    · refine .inl ?_
      rw [if_neg (not_not.mpr wide)]
      cases side with
      | input =>
          have divisor : liquidity * SqrtPrice.unit + price * amount ≠ 0 := by omega
          rw [if_neg (fun drained => by cases drained.1)]
          dsimp only
          rw [if_neg divisor]
          exact (if_pos (price_fits bounds)).trans (checked_inside bounds)
      | output =>
          have less : price * amount < liquidity * SqrtPrice.unit := covered
          have divisor : liquidity * SqrtPrice.unit - price * amount ≠ 0 := by omega
          rw [if_neg (fun drained => absurd drained.2 (not_le.mpr less))]
          dsimp only
          rw [if_neg divisor]
          exact (if_pos (price_fits bounds)).trans (checked_inside bounds)
    · exact .inr (if_pos wide)

theorem from_b_inside {side : Side} {price liquidity amount : Nat} (liquid : 0 < liquidity)
    (covered : IsCovered .b side price liquidity amount)
    (bounds : SqrtPrice.minValue ≤ formula .b side price liquidity amount ∧
      formula .b side price liquidity amount ≤ SqrtPrice.maxValue) :
    fromB side price liquidity amount = .ok (formula .b side price liquidity amount) := by
  unfold fromB divide
  cases side with
  | input =>
      dsimp only
      rw [if_neg (Nat.ne_of_gt liquid), ok_bind]
      exact (if_pos (price_fits bounds)).trans (checked_inside bounds)
  | output =>
      have enough : Rounding.up.div (amount * SqrtPrice.unit) liquidity ≤ price := covered
      dsimp only
      rw [if_neg (Nat.ne_of_gt liquid), ok_bind, if_pos enough]
      exact checked_inside bounds

-- No output that a target covers drains the liquidity of its token.
theorem covered_of_won {token : Token} {price target liquidity amount : Nat} (first : 0 < price) (last : 0 < target)
    (liquid : 0 < liquidity) (leads : (Direction.ofToken token .output).Leads price target)
    (enough : (amount : ℚ) ≤ token.amount price target liquidity) :
    IsCovered token .output price liquidity amount := by
  cases token with
  | a =>
      have above : price ≤ target := leads
      have product := (Token.le_amount_a_iff first above).mp enough
      have rest := Nat.mul_lt_mul_of_pos_left (Nat.sub_lt last first) (Nat.mul_pos liquid unit_pos)
      change price * amount < liquidity * SqrtPrice.unit
      refine Nat.lt_of_mul_lt_mul_right (a := target) ?_
      nlinarith
  | b =>
      have below : target ≤ price := leads
      rw [Token.amount_comm, Token.le_amount_b_iff below, Nat.mul_comm liquidity] at enough
      exact le_trans ((Rounding.up_div_le_iff _ _ _ liquid).mpr enough) (Nat.sub_le _ _)

section Target

variable {d : Direction} {price target : SqrtPrice} {liquidity : Nat} (amount : Nat) (liquid : 0 < liquidity)
  (leads : d.Leads price.value target.value)

include liquid

theorem solve_of_bounds {side : Side} (covered : IsCovered (d.token side) side price.value liquidity amount)
    (there : d.Leads price.value (formula (d.token side) side price.value liquidity amount))
    (further : d.Leads (formula (d.token side) side price.value liquidity amount) target.value) :
    (∃ next, solve (d.token side) side price.value liquidity amount = .ok next) ∨
      solve (d.token side) side price.value liquidity amount = .error .multiplicationOverflow := by
  have bounds := SqrtPrice.bounds_between there further
  generalize d.token side = token at *
  cases token with
  | a => exact (from_a_inside liquid covered bounds).imp_left fun ok => ⟨_, ok⟩
  | b => exact .inl ⟨_, from_b_inside liquid covered bounds⟩

include leads

theorem solve_input_within (short : (amount : ℚ) < (d.token .input).amount price.value target.value liquidity) :
    (∃ next, solve (d.token .input) .input price.value liquidity amount = .ok next) ∨
      solve (d.token .input) .input price.value liquidity amount = .error .multiplicationOverflow := by
  have aligned := d.of_token_token .input
  have onward : (Direction.ofToken (d.token .input) .input).Leads price.value target.value := aligned.symm ▸ leads
  have there : (Direction.ofToken (d.token .input) .input).Leads price.value _ :=
    leads_formula_input amount price.value_pos liquid
  have farthest := formula_input amount liquid target.value_pos onward
  rw [aligned] at there farthest
  have beyond : ¬ d.Leads target.value (formula (d.token .input) .input price.value liquidity amount) :=
    fun back => absurd (farthest.mpr back) (not_le.mpr short)
  refine solve_of_bounds amount liquid ?_ there ((d.leads_total _ _).resolve_right beyond)
  cases d <;> trivial

theorem solve_output_within (enough : (amount : ℚ) ≤ (d.token .output).amount price.value target.value liquidity) :
    (∃ next, solve (d.token .output) .output price.value liquidity amount = .ok next) ∨
      solve (d.token .output) .output price.value liquidity amount = .error .multiplicationOverflow := by
  have aligned := d.of_token_token .output
  have covered := covered_of_won price.value_pos target.value_pos liquid (aligned.symm ▸ leads) enough
  have there := leads_formula_output covered price.value_pos liquid
  have nearest := formula_output covered price.value_pos liquid target.value_pos
  rw [aligned] at there nearest
  exact solve_of_bounds amount liquid covered there ((nearest leads).mp enough)

end Target

end NextPrice

/-- The price is compared with all positive ones, not only with those in the range of prices. -/
theorem solved_price_is_best (d : Direction) (side : Side) (price : SqrtPrice) (liquidity : BitVec 128)
    (amount : BitVec 64) (next : Nat) (liquid : 0 < liquidity.toNat)
    (ok : NextPrice.solve (d.token side) side price.value liquidity.toNat amount.toNat = .ok next) :
    match side with
    | .input => d.IsFarthest {q | 0 < q ∧ d.Leads price.value q ∧
        ⌈(d.token .input).amount price.value q liquidity.toNat⌉₊ ≤ amount.toNat} next
    | .output => d.IsNearest {q | 0 < q ∧ d.Leads price.value q ∧
        amount.toNat ≤ ⌊(d.token .output).amount price.value q liquidity.toNat⌋₊} next := by
  cases side with
  | input =>
      obtain ⟨some, forward, farthest⟩ := NextPrice.solve_input price.value_pos liquid ok
      rw [d.of_token_token .input] at forward farthest
      refine ⟨⟨some, forward, Nat.ceil_le.mpr ((farthest next some forward).mpr (d.leads_refl _))⟩, ?_⟩
      rintro q ⟨positive, leads, paid⟩
      exact (farthest q positive leads).mp (Nat.ceil_le.mp paid)
  | output =>
      obtain ⟨some, forward, nearest⟩ := NextPrice.solve_output price.value_pos liquid ok
      rw [d.of_token_token .output] at forward nearest
      refine ⟨⟨some, forward, Nat.le_floor ((nearest next some forward).mpr (d.leads_refl _))⟩, ?_⟩
      rintro q ⟨positive, leads, won⟩
      refine (nearest q positive leads).mp ?_
      exact (Nat.le_floor_iff (Token.amount_nonneg _ _ _ _)).mp won

theorem solved_price_is_best_sample :
    NextPrice.solve .a .output SqrtPrice.unit 1000000000000000000000 12345 = .ok 18446744073709551844 ∧
      Direction.bToA.IsNearest {q | 0 < q ∧ SqrtPrice.unit ≤ q ∧
        12345 ≤ ⌊Token.a.amount SqrtPrice.unit q 1000000000000000000000⌋₊} 18446744073709551844 := by
  have ok : NextPrice.solve .a .output SqrtPrice.unit 1000000000000000000000 12345 = .ok 18446744073709551844 := by
    decide +kernel
  exact ⟨ok, solved_price_is_best .bToA .output ⟨SqrtPrice.unit, by decide, by decide⟩ 1000000000000000000000 12345
    18446744073709551844 (by decide) ok⟩

end PoolQuote
