import PoolQuote.NextPrice
import PoolQuote.Proofs.TokenAmount

/-!
A solved price is the best one for its rounding. Of the prices that an input amount pays for, it is
the farthest; of the prices whose output covers an amount, it is the nearest.
-/

set_option autoImplicit false

namespace PoolQuote

namespace Token

theorem amount_a_le_iff {l u liquidity n : Nat} (positive : 0 < l) (ordered : l ≤ u) :
    a.amount l u liquidity ≤ n ↔ liquidity * (u - l) * SqrtPrice.unit ≤ n * (u * l) := by
  have scale : (0 : ℚ) < (u * l : Nat) := Nat.cast_pos.mpr (Nat.mul_pos (by omega) positive)
  simp only [amount, min_eq_left ordered, max_eq_right ordered]
  rw [div_le_iff₀ scale, ← TokenDelta.unit_cast]
  exact_mod_cast Iff.rfl

theorem le_amount_a_iff {l u liquidity n : Nat} (positive : 0 < l) (ordered : l ≤ u) :
    (n : ℚ) ≤ a.amount l u liquidity ↔ n * (u * l) ≤ liquidity * (u - l) * SqrtPrice.unit := by
  have scale : (0 : ℚ) < (u * l : Nat) := Nat.cast_pos.mpr (Nat.mul_pos (by omega) positive)
  simp only [amount, min_eq_left ordered, max_eq_right ordered]
  rw [le_div_iff₀ scale, ← TokenDelta.unit_cast]
  exact_mod_cast Iff.rfl

theorem amount_b_le_iff {l u liquidity n : Nat} (ordered : l ≤ u) :
    b.amount l u liquidity ≤ n ↔ liquidity * (u - l) ≤ n * SqrtPrice.unit := by
  simp only [amount, min_eq_left ordered, max_eq_right ordered]
  rw [div_le_iff₀ (by positivity), ← TokenDelta.unit_cast]
  exact_mod_cast Iff.rfl

theorem le_amount_b_iff {l u liquidity n : Nat} (ordered : l ≤ u) :
    (n : ℚ) ≤ b.amount l u liquidity ↔ n * SqrtPrice.unit ≤ liquidity * (u - l) := by
  simp only [amount, min_eq_left ordered, max_eq_right ordered]
  rw [le_div_iff₀ (by positivity), ← TokenDelta.unit_cast]
  exact_mod_cast Iff.rfl

end Token

namespace NextPrice

theorem unit_pos : 0 < SqrtPrice.unit := by
  decide

theorem checked_ok {price next : Nat} (ok : checked price = .ok next) : next = price ∧ 0 < next := by
  unfold checked at ok
  split at ok
  · cases ok
  · split at ok
    · cases ok
    · rename_i enough _
      have same : price = next := Except.ok.inj ok
      simp only [SqrtPrice.minValue] at enough
      omega

-- An amount of zero leaves the price as it is, which is what the quotient says too.
theorem quotient_of_zero {price liquidity : Nat} (liquid : 0 < liquidity) :
    Rounding.up.div (liquidity * price * SqrtPrice.unit) (liquidity * SqrtPrice.unit) = price := by
  rw [show liquidity * price * SqrtPrice.unit = price * (liquidity * SqrtPrice.unit) by ring, Rounding.div,
    if_pos (Nat.mul_mod_left _ _), Nat.mul_div_cancel _ (Nat.mul_pos liquid unit_pos)]

theorem from_a_input_ok {price liquidity amount next : Nat} (positive : 0 < price) (liquid : 0 < liquidity)
    (ok : fromA .input price liquidity amount = .ok next) :
    0 < next ∧ next = Rounding.up.div (liquidity * price * SqrtPrice.unit)
      (liquidity * SqrtPrice.unit + price * amount) := by
  by_cases zero : amount = 0
  · have same : price = next := by simpa [fromA, zero] using ok
    subst same
    rw [zero, Nat.mul_zero, Nat.add_zero, quotient_of_zero liquid]
    exact ⟨positive, rfl⟩
  · simp only [fromA, zero, if_false, reduceCtorEq, false_and] at ok
    split at ok
    · cases ok
    · split at ok
      · cases ok
      · split at ok
        · exact (checked_ok ok).symm
        · cases ok

theorem from_a_output_ok {price liquidity amount next : Nat} (positive : 0 < price) (liquid : 0 < liquidity)
    (ok : fromA .output price liquidity amount = .ok next) :
    0 < next ∧ price * amount < liquidity * SqrtPrice.unit ∧
      next = Rounding.up.div (liquidity * price * SqrtPrice.unit)
        (liquidity * SqrtPrice.unit - price * amount) := by
  by_cases zero : amount = 0
  · have same : price = next := by simpa [fromA, zero] using ok
    subst same
    rw [zero, Nat.mul_zero, Nat.sub_zero, quotient_of_zero liquid]
    exact ⟨positive, Nat.mul_pos liquid unit_pos, rfl⟩
  · simp only [fromA, zero, if_false, true_and] at ok
    split at ok
    · cases ok
    · split at ok
      · cases ok
      · rename_i covered
        split at ok
        · cases ok
        · split at ok
          · obtain ⟨same, enough⟩ := checked_ok ok
            exact ⟨enough, not_le.mp covered, same⟩
          · cases ok

theorem from_b_input_ok {price liquidity amount next : Nat}
    (ok : fromB .input price liquidity amount = .ok next) :
    0 < next ∧ next = price + amount * SqrtPrice.unit / liquidity := by
  by_cases dry : liquidity = 0
  · simp [fromB, divide, dry, bind, Except.bind] at ok
  · simp only [fromB, divide, dry, if_false, bind, Except.bind, Rounding.div] at ok
    split at ok
    · exact (checked_ok ok).symm
    · cases ok

theorem from_b_output_ok {price liquidity amount next : Nat}
    (ok : fromB .output price liquidity amount = .ok next) :
    0 < next ∧ Rounding.up.div (amount * SqrtPrice.unit) liquidity ≤ price ∧
      next = price - Rounding.up.div (amount * SqrtPrice.unit) liquidity := by
  by_cases dry : liquidity = 0
  · simp [fromB, divide, dry, bind, Except.bind] at ok
  · simp only [fromB, divide, dry, if_false, bind, Except.bind] at ok
    split at ok
    · rename_i enough
      obtain ⟨same, some⟩ := checked_ok ok
      exact ⟨some, enough, same⟩
    · cases ok

def formula : Token → Side → Nat → Nat → Nat → Nat
  | .a, .input, price, liquidity, amount =>
      Rounding.up.div (liquidity * price * SqrtPrice.unit) (liquidity * SqrtPrice.unit + price * amount)
  | .a, .output, price, liquidity, amount =>
      Rounding.up.div (liquidity * price * SqrtPrice.unit) (liquidity * SqrtPrice.unit - price * amount)
  | .b, .input, price, liquidity, amount => price + amount * SqrtPrice.unit / liquidity
  | .b, .output, price, liquidity, amount => price - Rounding.up.div (amount * SqrtPrice.unit) liquidity

def IsCovered : Token → Side → Nat → Nat → Nat → Prop
  | .a, .output, price, liquidity, amount => price * amount < liquidity * SqrtPrice.unit
  | .b, .output, price, liquidity, amount => Rounding.up.div (amount * SqrtPrice.unit) liquidity ≤ price
  | _, .input, _, _, _ => True

theorem solve_ok {token : Token} {side : Side} {price liquidity amount next : Nat} (positive : 0 < price)
    (liquid : 0 < liquidity) (ok : solve token side price liquidity amount = .ok next) :
    0 < next ∧ IsCovered token side price liquidity amount ∧ next = formula token side price liquidity amount := by
  cases token with
  | a =>
      cases side with
      | input =>
          obtain ⟨some, same⟩ := from_a_input_ok positive liquid ok
          exact ⟨some, trivial, same⟩
      | output => exact from_a_output_ok positive liquid ok
  | b =>
      cases side with
      | input =>
          obtain ⟨some, same⟩ := from_b_input_ok ok
          exact ⟨some, trivial, same⟩
      | output => exact from_b_output_ok ok

theorem formula_input {token : Token} {price liquidity : Nat} (amount : Nat) (liquid : 0 < liquidity) {q : Nat}
    (some : 0 < q) (leads : (Direction.ofToken token .input).Leads price q) :
    token.amount price q liquidity ≤ amount ↔
      (Direction.ofToken token .input).Leads q (formula token .input price liquidity amount) := by
  cases token with
  | a =>
      have below : q ≤ price := leads
      obtain ⟨k, rfl⟩ := Nat.exists_eq_add_of_le below
      have denominator : 0 < liquidity * SqrtPrice.unit + (q + k) * amount := by
        have := Nat.mul_pos liquid unit_pos
        omega
      change _ ↔ Rounding.up.div _ _ ≤ q
      rw [Token.amount_comm, Token.amount_a_le_iff some below, Rounding.up_div_le_iff _ _ _ denominator,
        Nat.add_sub_cancel_left]
      constructor <;> intro le <;> nlinarith
  | b =>
      have above : price ≤ q := leads
      change _ ↔ q ≤ price + amount * SqrtPrice.unit / liquidity
      rw [Token.amount_b_le_iff above, Nat.mul_comm liquidity, ← Nat.le_div_iff_mul_le liquid]
      omega

theorem leads_formula_input {token : Token} {price liquidity : Nat} (amount : Nat) (positive : 0 < price)
    (liquid : 0 < liquidity) :
    (Direction.ofToken token .input).Leads price (formula token .input price liquidity amount) := by
  refine (formula_input amount liquid positive (Direction.leads_refl _ _)).mp ?_
  rw [Token.amount_self]
  exact Nat.cast_nonneg _

section Output

variable {token : Token} {price liquidity amount : Nat} (covered : IsCovered token .output price liquidity amount)

include covered

theorem leads_formula_output (positive : 0 < price) (liquid : 0 < liquidity) :
    (Direction.ofToken token .output).Leads price (formula token .output price liquidity amount) := by
  cases token with
  | a =>
      have less : price * amount < liquidity * SqrtPrice.unit := covered
      change price ≤ Rounding.up.div _ _
      by_contra short
      have bound := (Rounding.up_div_le_iff (liquidity * price * SqrtPrice.unit)
        (liquidity * SqrtPrice.unit - price * amount) (price - 1) (by omega)).mp (by omega)
      have wider := Nat.mul_le_mul_left (price - 1) (Nat.sub_le (liquidity * SqrtPrice.unit) (price * amount))
      have step := Nat.mul_lt_mul_of_pos_right (Nat.sub_lt positive Nat.one_pos) (Nat.mul_pos liquid unit_pos)
      rw [show liquidity * price * SqrtPrice.unit = price * (liquidity * SqrtPrice.unit) by ring] at bound
      omega
  | b => exact Nat.sub_le _ _

theorem formula_output (positive : 0 < price) (liquid : 0 < liquidity) {q : Nat} (some : 0 < q)
    (leads : (Direction.ofToken token .output).Leads price q) : (amount : ℚ) ≤ token.amount price q liquidity ↔
      (Direction.ofToken token .output).Leads (formula token .output price liquidity amount) q := by
  cases token with
  | a =>
      have less : price * amount < liquidity * SqrtPrice.unit := covered
      obtain ⟨rest, split⟩ := Nat.exists_eq_add_of_lt less
      have denominator : liquidity * SqrtPrice.unit - price * amount = rest + 1 := by omega
      have above : price ≤ q := leads
      obtain ⟨k, rfl⟩ := Nat.exists_eq_add_of_le above
      change _ ↔ Rounding.up.div _ _ ≤ price + k
      rw [Token.le_amount_a_iff positive above, Rounding.up_div_le_iff _ _ _ (by omega), denominator,
        Nat.add_sub_cancel_left]
      constructor <;> intro le <;> nlinarith
  | b =>
      have enough : Rounding.up.div (amount * SqrtPrice.unit) liquidity ≤ price := covered
      have below : q ≤ price := leads
      change _ ↔ q ≤ price - Rounding.up.div (amount * SqrtPrice.unit) liquidity
      rw [Token.amount_comm, Token.le_amount_b_iff below, Nat.mul_comm liquidity,
        ← Rounding.up_div_le_iff _ _ _ liquid]
      omega

end Output

-- The farthest price that an input amount pays for.
theorem solve_input {token : Token} {price liquidity amount next : Nat} (positive : 0 < price)
    (liquid : 0 < liquidity) (ok : solve token .input price liquidity amount = .ok next) :
    0 < next ∧ (Direction.ofToken token .input).Leads price next ∧
      ∀ q, 0 < q → (Direction.ofToken token .input).Leads price q →
      (token.amount price q liquidity ≤ amount ↔ (Direction.ofToken token .input).Leads q next) := by
  obtain ⟨enough, _, rfl⟩ := solve_ok positive liquid ok
  exact ⟨enough, leads_formula_input amount positive liquid,
    fun q some leads => formula_input amount liquid some leads⟩

-- The nearest price whose output covers an amount.
theorem solve_output {token : Token} {price liquidity amount next : Nat} (positive : 0 < price)
    (liquid : 0 < liquidity) (ok : solve token .output price liquidity amount = .ok next) :
    0 < next ∧ (Direction.ofToken token .output).Leads price next ∧
      ∀ q, 0 < q → (Direction.ofToken token .output).Leads price q →
      ((amount : ℚ) ≤ token.amount price q liquidity ↔ (Direction.ofToken token .output).Leads next q) := by
  obtain ⟨enough, covered, rfl⟩ := solve_ok positive liquid ok
  exact ⟨enough, leads_formula_output covered positive liquid,
    fun q some leads => formula_output covered positive liquid some leads⟩

end NextPrice

end PoolQuote
