import PoolQuote.TokenDelta
import PoolQuote.Proofs.Direction
import Mathlib

/-!
The exact amount of a token between two prices, as a rational number, and the rounded amounts as its
floor and its ceiling. An exact amount is additive along the price axis, so the rounded ones differ
from a sum only by what rounding adds or drops.
-/

set_option autoImplicit false

namespace PoolQuote

namespace Rounding

def round : Rounding → ℚ → Nat
  | down, x => ⌊x⌋₊
  | up, x => ⌈x⌉₊

theorem up_div_le_iff (n d k : Nat) (positive : 0 < d) : up.div n d ≤ k ↔ n ≤ k * d := by
  have whole := Nat.div_add_mod n d
  rw [div]
  split
  · rename_i exact
    rw [exact, add_zero, mul_comm] at whole
    rw [← Nat.mul_le_mul_right_iff positive, whole]
  · rename_i inexact
    have different : n ≠ k * d := fun same => inexact (by rw [same, Nat.mul_mod_left])
    rw [Nat.succ_le_iff, Nat.div_lt_iff_lt_mul positive]
    omega

theorem div_eq_round (rounding : Rounding) (n d : Nat) (positive : 0 < d) :
    rounding.div n d = rounding.round ((n : ℚ) / d) := by
  cases rounding with
  | down => exact (Nat.floor_div_eq_div n d).symm
  | up =>
      refine eq_of_forall_ge_iff fun k => ?_
      have scale : (0 : ℚ) < d := Nat.cast_pos.mpr positive
      rw [up_div_le_iff n d k positive, round, Nat.ceil_le, div_le_iff₀ scale]
      exact_mod_cast Iff.rfl

theorem round_zero (rounding : Rounding) : rounding.round 0 = 0 := by
  cases rounding <;> simp [round]

theorem floor_le_div (rounding : Rounding) (n d : Nat) : n / d ≤ rounding.div n d := by
  cases rounding with
  | down => exact le_refl _
  | up =>
      rw [div]
      split <;> omega

end Rounding

namespace Token

-- The exact amount: `L * (u - l) * 2 ^ 64 / (u * l)` of `a` and `L * (u - l) / 2 ^ 64` of `b`, for the lower price
-- `l` and the upper price `u`.
def amount (token : Token) (p q liquidity : Nat) : ℚ :=
  let lower := min p q
  let upper := max p q
  match token with
  | a => liquidity * (upper - lower : Nat) * 2 ^ 64 / (upper * lower : Nat)
  | b => liquidity * (upper - lower : Nat) / 2 ^ 64

def height : Token → Nat → ℚ
  | a, p => -(2 ^ 64 / p)
  | b, p => p / 2 ^ 64

theorem height_lt (token : Token) {p q : Nat} (positive : 0 < p) (less : p < q) :
    token.height p < token.height q := by
  have lower : (0 : ℚ) < p := Nat.cast_pos.mpr positive
  have ordered : (p : ℚ) < q := Nat.cast_lt.mpr less
  cases token with
  | a => exact neg_lt_neg (div_lt_div_of_pos_left (by positivity) lower ordered)
  | b => exact div_lt_div_of_pos_right ordered (by positivity)

theorem amount_comm (token : Token) (p q liquidity : Nat) :
    token.amount p q liquidity = token.amount q p liquidity := by
  simp only [amount, max_comm, min_comm]

theorem amount_of_le (token : Token) {p q : Nat} (liquidity : Nat) (positive : 0 < p) (ordered : p ≤ q) :
    token.amount p q liquidity = liquidity * (token.height q - token.height p) := by
  have lower : (p : ℚ) ≠ 0 := Nat.cast_ne_zero.mpr (by omega)
  have upper : (q : ℚ) ≠ 0 := Nat.cast_ne_zero.mpr (by omega)
  cases token with
  | a =>
      simp only [amount, height, min_eq_left ordered, max_eq_right ordered]
      push_cast [ordered]
      field_simp
      ring
  | b =>
      simp only [amount, height, min_eq_left ordered, max_eq_right ordered]
      push_cast [ordered]
      ring

theorem amount_nonneg (token : Token) (p q liquidity : Nat) : 0 ≤ token.amount p q liquidity := by
  cases token <;> simp only [amount] <;> positivity

theorem amount_self (token : Token) (p liquidity : Nat) : token.amount p p liquidity = 0 := by
  cases token <;> simp [amount]

theorem amount_no_liquidity (token : Token) (p q : Nat) : token.amount p q 0 = 0 := by
  cases token <;> simp [amount]

theorem amount_pos (token : Token) {p q liquidity : Nat} (first : 0 < p) (second : 0 < q)
    (different : p ≠ q) (liquid : 0 < liquidity) : 0 < token.amount p q liquidity := by
  have factor : (0 : ℚ) < liquidity := Nat.cast_pos.mpr liquid
  rcases Nat.lt_or_gt_of_ne different with less | greater
  · rw [amount_of_le token liquidity first (le_of_lt less)]
    exact mul_pos factor (sub_pos.mpr (height_lt token first less))
  · rw [amount_comm, amount_of_le token liquidity second (le_of_lt greater)]
    exact mul_pos factor (sub_pos.mpr (height_lt token second greater))

theorem amount_add {d : Direction} (token : Token) {p q r : Nat} (liquidity : Nat)
    (first : 0 < p) (last : 0 < r) (there : d.Leads p q) (further : d.Leads q r) :
    token.amount p r liquidity = token.amount p q liquidity + token.amount q r liquidity := by
  cases d with
  | aToB =>
      have rp : r ≤ p := le_trans further there
      rw [amount_comm token p r, amount_comm token p q, amount_comm token q r,
        amount_of_le token liquidity last rp, amount_of_le token liquidity last further,
        amount_of_le token liquidity (lt_of_lt_of_le last further) there]
      ring
  | bToA =>
      have pr : p ≤ r := le_trans there further
      rw [amount_of_le token liquidity first pr, amount_of_le token liquidity first there,
        amount_of_le token liquidity (lt_of_lt_of_le first there) further]
      ring

theorem amount_le_of_leads {d : Direction} (token : Token) {p q r : Nat} (liquidity : Nat)
    (first : 0 < p) (last : 0 < r) (there : d.Leads p q) (further : d.Leads q r) :
    token.amount p q liquidity ≤ token.amount p r liquidity := by
  rw [amount_add token liquidity first last there further]
  exact le_add_of_nonneg_right (token.amount_nonneg q r liquidity)

end Token

namespace TokenDelta

-- What `between` says of the exact amount, whichever of its checks the amount meets.
def Describes (delta : TokenDelta) (rounded : Nat) : Prop :=
  match delta with
  | fits amount => amount = rounded ∧ FitsBits 64 rounded
  | tooLarge _ => ¬FitsBits 64 rounded

theorem unit_cast : ((SqrtPrice.unit : Nat) : ℚ) = 2 ^ 64 := by
  norm_num [SqrtPrice.unit, Nat.pow_eq]

theorem div_eq_round_a (rounding : Rounding) {p q : Nat} (liquidity : Nat) (divisor : 0 < max p q * min p q) :
    rounding.div (liquidity * (max p q - min p q) * SqrtPrice.unit) (max p q * min p q) =
      rounding.round (Token.a.amount p q liquidity) := by
  rw [rounding.div_eq_round _ _ divisor, Nat.cast_mul _ SqrtPrice.unit, unit_cast, Nat.cast_mul liquidity]
  rfl

theorem div_eq_round_b (rounding : Rounding) (p q liquidity : Nat) :
    rounding.div (liquidity * (max p q - min p q)) (wordCount 64) = rounding.round (Token.b.amount p q liquidity) := by
  rw [rounding.div_eq_round _ _ (by decide), show wordCount 64 = SqrtPrice.unit from rfl, unit_cast, Nat.cast_mul]
  rfl

theorem between_a_describes {rounding : Rounding} {p q liquidity : Nat} {delta : TokenDelta}
    (ok : betweenA rounding p q liquidity = .ok delta) :
    delta.Describes (rounding.round (Token.a.amount p q liquidity)) := by
  simp only [betweenA] at ok
  split at ok
  · cases ok
  · split at ok
    · cases ok
    · rename_i nonzero
      rw [div_eq_round_a rounding liquidity (Nat.pos_of_ne_zero nonzero)] at ok
      cases ok
      split
      · rename_i fits
        exact ⟨rfl, fits⟩
      · rename_i large
        exact large

theorem between_b_describes (rounding : Rounding) (p q liquidity : Nat) :
    (betweenB rounding p q liquidity).Describes (rounding.round (Token.b.amount p q liquidity)) := by
  have quotient := div_eq_round_b rounding p q liquidity
  by_cases small : FitsBits 128 (liquidity * (max p q - min p q))
  · by_cases fits : FitsBits 64 (rounding.round (Token.b.amount p q liquidity))
    · simp [betweenB, mulShift, small, quotient, fits, Describes]
    · simp [betweenB, mulShift, small, quotient, fits, Describes]
  · have least : wordCount 64 ≤ liquidity * (max p q - min p q) / wordCount 64 := by
      rw [Nat.le_div_iff_mul_le (by decide)]
      exact not_lt.mp small
    have whole := le_trans least (rounding.floor_le_div _ _)
    rw [quotient] at whole
    rw [betweenB, mulShift, if_neg small]
    exact not_lt.mpr whole

theorem between_describes {token : Token} {rounding : Rounding} {p q liquidity : Nat} {delta : TokenDelta}
    (ok : between token rounding p q liquidity = .ok delta) :
    delta.Describes (rounding.round (token.amount p q liquidity)) := by
  cases token with
  | a => exact between_a_describes ok
  | b =>
      cases ok
      exact between_b_describes rounding p q liquidity

theorem exact_eq_round {token : Token} {rounding : Rounding} {p q liquidity n : Nat}
    (ok : exact token rounding p q liquidity = .ok n) : n = rounding.round (token.amount p q liquidity) := by
  cases read : between token rounding p q liquidity with
  | error cause => rw [exact, read] at ok; cases ok
  | ok delta =>
      have describes := between_describes read
      rw [exact, read] at ok
      cases delta with
      | fits amount =>
          have same : amount = n := Except.ok.inj ok
          rw [← same]
          exact describes.1
      | tooLarge cause => cases ok

theorem is_at_most_iff {delta : TokenDelta} {rounded n : Nat} (describes : delta.Describes rounded)
    (small : n ≤ wordMax 64) : delta.IsAtMost n ↔ rounded ≤ n := by
  cases delta with
  | fits amount =>
      obtain ⟨rfl, _⟩ := describes
      exact Iff.rfl
  | tooLarge cause =>
      have large : wordCount 64 ≤ rounded := not_lt.mp describes
      have width : 0 < wordCount 64 := by decide
      simp only [wordMax] at small
      simp only [IsAtMost, false_iff]
      omega

end TokenDelta

end PoolQuote
