import PoolQuote.Proofs.LegAmounts

/-!
The exchange rate of a swap lies between the pool's prices at its start and at its end. At the starting
price a trade is paid no more than what it pays in is worth. At the ending price it pays in no more than
what it is paid is worth, but for the units that rounding takes, one of each token and leg.
-/

set_option autoImplicit false

namespace PoolQuote

namespace Token

-- What one unit of a token is worth at a square-root price, in units of `2 ^ -128` of `b`.
def worth : Token → Nat → Nat
  | a, p => p ^ 2
  | b, _ => 2 ^ 128

-- What lies between two prices is exchanged at their geometric mean.
theorem amount_a_mul (p q liquidity : Nat) (first : 0 < p) (last : 0 < q) :
    a.amount p q liquidity * (p * q) = b.amount p q liquidity * 2 ^ 128 := by
  have product : ((max p q * min p q : Nat) : ℚ) = p * q := by
    rw [max_mul_min]
    exact Nat.cast_mul p q
  have nonzero : (p * q : ℚ) ≠ 0 := by positivity
  simp only [amount, product]
  field_simp

end Token

namespace Direction

section Worth

variable {d : Direction} {p q r : Nat} (liquidity : Nat) (first : 0 < p) (last : 0 < r)

include first last

theorem gained_worth_le (there : d.Leads p q) (further : d.Leads q r) :
    d.gained q r liquidity * (d.token .output).worth p ≤ d.paid q r liquidity * (d.token .input).worth p := by
  have middle := positive_of_leads first last there further
  have mean := Token.amount_a_mul q r liquidity middle last
  have nonneg := Token.amount_nonneg .a q r liquidity
  cases d with
  | aToB =>
      have less : (q * r : ℚ) ≤ p ^ 2 := by
        rw [sq]
        exact_mod_cast Nat.mul_le_mul there (le_trans further there)
      calc Token.b.amount q r liquidity * (2 ^ 128 : Nat)
          = Token.a.amount q r liquidity * (q * r) := by rw [mean]; norm_num
        _ ≤ Token.a.amount q r liquidity * (p ^ 2 : Nat) := by
            rw [Nat.cast_pow]
            exact mul_le_mul_of_nonneg_left less nonneg
  | bToA =>
      have less : (p ^ 2 : ℚ) ≤ q * r := by
        rw [sq]
        exact_mod_cast Nat.mul_le_mul there (le_trans there further)
      calc Token.a.amount q r liquidity * (p ^ 2 : Nat)
          ≤ Token.a.amount q r liquidity * (q * r) := by
            rw [Nat.cast_pow]
            exact mul_le_mul_of_nonneg_left less nonneg
        _ = Token.b.amount q r liquidity * (2 ^ 128 : Nat) := by rw [mean]; norm_num

theorem paid_worth_le (there : d.Leads p q) (further : d.Leads q r) :
    d.paid p q liquidity * (d.token .input).worth r ≤ d.gained p q liquidity * (d.token .output).worth r := by
  have back := gained_worth_le (d := d.opposite) liquidity last first (leads_opposite.mpr further)
    (leads_opposite.mpr there)
  rw [gained, paid, Token.amount_comm, Token.amount_comm _ q p] at back
  cases d <;> exact back

theorem won_worth_le (there : d.Leads p q) (further : d.Leads q r) :
    d.won q r liquidity * (d.token .output).worth p ≤ d.due q r liquidity * (d.token .input).worth p := by
  have exact := gained_worth_le liquidity first last there further
  have floor := Nat.floor_le (d.gained_nonneg q r liquidity)
  have ceil := Nat.le_ceil (d.paid q r liquidity)
  have rounded : (d.won q r liquidity * (d.token .output).worth p : ℚ) ≤
      d.due q r liquidity * (d.token .input).worth p :=
    le_trans (mul_le_mul_of_nonneg_right floor (Nat.cast_nonneg _))
      (le_trans exact (mul_le_mul_of_nonneg_right ceil (Nat.cast_nonneg _)))
  exact_mod_cast rounded

theorem due_worth_le (there : d.Leads p q) (further : d.Leads q r) :
    d.due p q liquidity * (d.token .input).worth r ≤
      (d.won p q liquidity + 1) * (d.token .output).worth r + (d.token .input).worth r := by
  have exact := paid_worth_le liquidity first last there further
  have floor := le_of_lt (Nat.lt_floor_add_one (d.gained p q liquidity))
  have ceil := le_of_lt (Nat.ceil_lt_add_one (d.paid_nonneg p q liquidity))
  have rounded : (d.due p q liquidity * (d.token .input).worth r : ℚ) ≤
      (d.won p q liquidity + 1) * (d.token .output).worth r + (d.token .input).worth r :=
    calc (d.due p q liquidity * (d.token .input).worth r : ℚ)
        ≤ (d.paid p q liquidity + 1) * (d.token .input).worth r := mul_le_mul_of_nonneg_right ceil (Nat.cast_nonneg _)
      _ = d.paid p q liquidity * (d.token .input).worth r + (d.token .input).worth r := by ring
      _ ≤ d.gained p q liquidity * (d.token .output).worth r + (d.token .input).worth r := add_le_add_left exact _
      _ ≤ (d.won p q liquidity + 1) * (d.token .output).worth r + (d.token .input).worth r :=
          add_le_add_left (mul_le_mul_of_nonneg_right floor (Nat.cast_nonneg _)) _
  exact_mod_cast rounded

end Worth

end Direction

namespace SwapLeg

def swapped (legs : List SwapLeg) : Nat :=
  (legs.map fun leg => leg.step.amountIn).sum

theorem swapped_cons (leg : SwapLeg) (legs : List SwapLeg) :
    swapped (leg :: legs) = leg.step.amountIn + swapped legs :=
  rfl

theorem total_input_eq (legs : List SwapLeg) : total legs .input = swapped legs + fees legs := by
  induction legs with
  | nil => rfl
  | cons leg legs ih =>
      rw [total_cons, swapped_cons, fees_cons, ih, SwapStep.used]
      omega

end SwapLeg

namespace Course

variable {c : Course}

namespace IsMove

variable {leg : SwapLeg} (move : c.IsMove leg)

include move

theorem amount_in_eq : leg.step.amountIn =
    c.direction.due leg.before.price.value leg.after.price.value leg.before.liquidity := by
  rw [move.reached]
  cases side : c.side with
  | input => exact (move.input side).amountIn
  | output => exact (move.output side).amountIn

theorem amount_out_le : leg.step.amountOut ≤
    c.direction.won leg.before.price.value leg.after.price.value leg.before.liquidity := by
  rw [move.reached]
  cases side : c.side with
  | input => exact le_of_eq (move.input side).amountOut
  | output =>
      rw [(move.output side).amountOut]
      exact min_le_left _ _

end IsMove

namespace Path

variable {state last : SwapState} {legs : List SwapLeg} (path : c.Path state legs last)

include path

theorem won_worth_le {s : Nat} (positive : 0 < s) (there : c.direction.Leads s state.price.value) :
    SwapLeg.total legs .output * (c.direction.token .output).worth s ≤
      SwapLeg.swapped legs * (c.direction.token .input).worth s := by
  induction path with
  | rest state => simp [SwapLeg.total, SwapLeg.swapped]
  | move leg legs last step _ ih =>
      have forward := step.forward_short.1
      have rest := ih (Direction.leads_trans there forward)
      have fair := Direction.won_worth_le leg.before.liquidity positive leg.after.price.value_pos there forward
      have won : leg.step.amountOut * (c.direction.token .output).worth s ≤ _ := Nat.mul_le_mul_right _ step.amount_out_le
      rw [← step.amount_in_eq] at fair
      rw [SwapLeg.total_cons, SwapLeg.swapped_cons, Nat.add_mul, Nat.add_mul]
      exact Nat.add_le_add (le_trans won fair) rest

theorem due_worth_le (input : c.side = .input) {e : Nat} (positive : 0 < e)
    (further : c.direction.Leads last.price.value e) :
    SwapLeg.swapped legs * (c.direction.token .input).worth e ≤
      (SwapLeg.total legs .output + legs.length) * (c.direction.token .output).worth e +
        legs.length * (c.direction.token .input).worth e := by
  induction path with
  | rest state => simp [SwapLeg.total, SwapLeg.swapped]
  | move leg legs last step rest ih =>
      have others := ih further
      have fair := Direction.due_worth_le leg.before.liquidity leg.before.price.value_pos positive step.forward_short.1
        (Direction.leads_trans rest.price_leads further)
      have won := step.input_counted input
      rw [input] at won
      change leg.step.used .output = _ at won
      rw [← step.amount_in_eq, ← won] at fair
      rw [SwapLeg.total_cons, SwapLeg.swapped_cons, List.length_cons]
      linarith

end Path

end Course

/-- No trade is better than at its first price, and an input is worse than at its last price by at most a unit of
either token a leg. What is paid in counts without its fee. -/
theorem exchange_rate_between_prices (pool : Pool) (slots : List Slot) (spacing : BitVec 16) (window : Window)
    (order : SwapOrder) (journal : Journal) (result : SwapResult)
    (accepted : Window.ofSlots slots spacing order.direction = .ok window) (consistent : pool.IsConsistent)
    (limited : order.direction.Leads pool.sqrtPrice.toNat order.limit.value)
    (ok : (swap pool window order journal).1 = .ok result) :
    let paid := (result.amountOf (order.direction.token .input)).toNat - result.totalFee.toNat
    let won := (result.amountOf (order.direction.token .output)).toNat
    let s := pool.sqrtPrice.toNat
    let e := result.nextSqrtPrice.toNat
    let n := (swapLegs pool window order).length
    result.totalFee.toNat ≤ (result.amountOf (order.direction.token .input)).toNat ∧
      (match order.direction with
        | .aToB => won * 2 ^ 128 ≤ paid * s ^ 2
        | .bToA => won * s ^ 2 ≤ paid * 2 ^ 128) ∧
      (order.side = .input → match order.direction with
        | .aToB => paid * e ^ 2 ≤ (won + n) * 2 ^ 128 + n * e ^ 2
        | .bToA => paid * 2 ^ 128 ≤ (won + n) * e ^ 2 + n * 2 ^ 128) := by
  obtain ⟨amount, limit, side, direction, time⟩ := order
  obtain ⟨rfl, sound⟩ := Window.of_slots_ok accepted
  obtain ⟨start, last, starts, _, path, _, accounts⟩ := swap_course sound rfl consistent limited ok
  have total := SwapLeg.total_input_eq (swapLegs pool ⟨slots, spacing, direction⟩ ⟨amount, limit, side, direction, time⟩)
  rw [← accounts.amount, ← accounts.fee] at total
  have best := path.won_worth_le start.price.value_pos (Direction.leads_refl _ _)
  rw [starts.price, ← accounts.amount] at best
  refine ⟨by omega, ?_, fun input => ?_⟩
  · rw [total, Nat.add_sub_cancel]
    cases direction <;> exact best
  · have worst := path.due_worth_le input last.price.value_pos (Direction.leads_refl _ _)
    rw [← accounts.price, ← accounts.amount] at worst
    rw [total, Nat.add_sub_cancel]
    cases direction <;> exact worst

theorem exchange_rate_between_prices_sample : ∃ result,
    (swap Sample.pool (Sample.window .aToB) (Sample.order .aToB .input 1000000) .blank).1 = .ok result ∧
      (result.amountA, result.amountB, result.totalFee) = (1000000, 996005, 3001) ∧
      result.amountB.toNat * 2 ^ 128 ≤
        (result.amountA.toNat - result.totalFee.toNat) * Sample.pool.sqrtPrice.toNat ^ 2 ∧
      (result.amountA.toNat - result.totalFee.toNat) * result.nextSqrtPrice.toNat ^ 2 ≤
        (result.amountB.toNat + 3) * 2 ^ 128 + 3 * result.nextSqrtPrice.toNat ^ 2 := by
  have run : (swap Sample.pool (Sample.window .aToB) (Sample.order .aToB .input 1000000) .blank).1.toOption.map
      (fun result => (result.amountA, result.amountB, result.totalFee)) = some (1000000, 996005, 3001) := by
    decide +kernel
  have turns : (swapLegs Sample.pool (Sample.window .aToB) (Sample.order .aToB .input 1000000)).length = 3 := by
    decide +kernel
  obtain ⟨result, ok, viewed⟩ := exists_result run
  obtain ⟨_, best, worst⟩ := exchange_rate_between_prices Sample.pool (Sample.slots .aToB) 1 (Sample.window .aToB)
    (Sample.order .aToB .input 1000000) .blank result (Sample.accepted .aToB) Sample.consistent (by decide) ok
  rw [turns] at worst
  exact ⟨result, ok, viewed, best, worst rfl⟩

end PoolQuote
