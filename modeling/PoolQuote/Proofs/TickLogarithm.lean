import PoolQuote.Proofs.TickPrice
import Mathlib.Analysis.Complex.ExponentialBounds

/-!
The tick of a price by way of its logarithm. Neighbouring ticks have square-root prices whose logarithms lie one step
apart, up to a small error. The cut logarithm of a price lies below its real one by at most one digit. The two candidates
that the margins leave around it then always hold the greatest tick whose price is at most the given one.
-/

set_option autoImplicit false

namespace PoolQuote.TickIndex

section Logarithm

theorem log_le_of_le_mul {x y slack : ℝ} (positive : 0 < x) (nonneg : 0 ≤ slack) (bound : x ≤ (1 + slack) * y) :
    Real.log x ≤ Real.log y + slack := by
  have wider : 0 < 1 + slack := by linarith
  have above : 0 < y := pos_of_mul_pos_right (lt_of_lt_of_le positive bound) wider.le
  have growth := Real.log_le_sub_one_of_pos wider
  calc Real.log x ≤ Real.log ((1 + slack) * y) := Real.log_le_log positive bound
    _ = Real.log (1 + slack) + Real.log y := Real.log_mul wider.ne' above.ne'
    _ ≤ Real.log y + slack := by linarith

theorem log_cut (a k : Nat) (large : 2 ^ 63 ≤ a / 2 ^ k) :
    Real.log (a / 2 ^ k : Nat) ≤ Real.log a - k * Real.log 2 ∧
      Real.log a - k * Real.log 2 ≤ Real.log (a / 2 ^ k : Nat) + 1 / 2 ^ 63 := by
  have cut : (2 : ℝ) ^ 63 ≤ (a / 2 ^ k : Nat) := by exact_mod_cast large
  have positive : (0 : ℝ) < (a / 2 ^ k : Nat) := lt_of_lt_of_le (by positivity) cut
  have nonzero : (a : ℝ) ≠ 0 := by
    intro zero
    rw [Nat.cast_eq_zero.mp zero, Nat.zero_div] at large
    norm_num at large
  have power : Real.log a - k * Real.log 2 = Real.log (a / 2 ^ k) := by
    rw [Real.log_div nonzero (by positivity), Real.log_pow]
  have below : ((a / 2 ^ k : Nat) : ℝ) ≤ a / 2 ^ k := by
    have := Nat.cast_div_le (α := ℝ) (m := a) (n := 2 ^ k)
    simpa using this
  have above : (a : ℝ) / 2 ^ k < (a / 2 ^ k : Nat) + 1 := by
    have := Nat.lt_floor_add_one ((a : ℝ) / (2 ^ k : Nat))
    rw [Nat.floor_div_eq_div] at this
    simpa using this
  rw [power]
  refine ⟨Real.log_le_log positive below, log_le_of_le_mul (lt_of_lt_of_le positive below) (by positivity) ?_⟩
  have place : 1 ≤ 1 / 2 ^ 63 * ((a / 2 ^ k : Nat) : ℝ) := by
    rw [one_div, inv_mul_eq_div, one_le_div (by positivity)]
    exact cut
  linarith

-- Squaring a number of 64 bits gives the next digit and a number of 64 bits again.
theorem square_leading (r : Nat) (lower : 2 ^ 63 ≤ r) (upper : r < 2 ^ 64) :
    2 ^ 63 ≤ r * r / 2 ^ (63 + r * r / 2 ^ 127) ∧ r * r / 2 ^ (63 + r * r / 2 ^ 127) < 2 ^ 64 := by
  have least : 2 ^ 63 * 2 ^ 63 ≤ r * r := Nat.mul_le_mul lower lower
  have most : r * r < 2 ^ 64 * 2 ^ 64 := Nat.mul_lt_mul'' upper upper
  generalize r * r = square at least most
  have digit : square / 2 ^ 127 = 0 ∨ square / 2 ^ 127 = 1 := by omega
  rcases digit with zero | one
  · rw [zero]
    omega
  · rw [one]
    omega

theorem log_digits_lt (n r : Nat) (lower : 2 ^ 63 ≤ r) (upper : r < 2 ^ 64) : logDigits n r < 2 ^ n := by
  induction n generalizing r with
  | zero => exact Nat.one_pos
  | succ n ih =>
      obtain ⟨first, last⟩ := square_leading r lower upper
      have rest := ih _ first last
      have square : r * r < 2 ^ 64 * 2 ^ 64 := Nat.mul_lt_mul'' upper upper
      have digit : r * r / 2 ^ 127 ≤ 1 := by omega
      have share := Nat.mul_le_mul_right (2 ^ n) digit
      have double : 2 ^ (n + 1) = 2 ^ n + 2 ^ n := by ring
      change r * r / 2 ^ 127 * 2 ^ n + logDigits n (r * r / 2 ^ (63 + r * r / 2 ^ 127)) < _
      rw [double]
      omega

theorem log_digits (n r : Nat) (lower : 2 ^ 63 ≤ r) (upper : r < 2 ^ 64) :
    logDigits n r * Real.log 2 ≤ 2 ^ n * (Real.log r - 63 * Real.log 2) ∧
      2 ^ n * (Real.log r - 63 * Real.log 2) ≤ (logDigits n r + 1) * Real.log 2 + 2 ^ n / 2 ^ 62 := by
  induction n generalizing r with
  | zero =>
      have least : (2 : ℝ) ^ 63 ≤ r := by exact_mod_cast lower
      have most : (r : ℝ) ≤ 2 ^ 64 := by exact_mod_cast upper.le
      have below := Real.log_le_log (by positivity) least
      have above := Real.log_le_log (lt_of_lt_of_le (by positivity) least) most
      rw [Real.log_pow] at below above
      norm_num [logDigits] at *
      constructor <;> linarith
  | succ n ih =>
      obtain ⟨first, last⟩ := square_leading r lower upper
      obtain ⟨below, above⟩ := ih _ first last
      obtain ⟨cutBelow, cutAbove⟩ := log_cut (r * r) (63 + r * r / 2 ^ 127) first
      have nonzero : (r : ℝ) ≠ 0 := by
        have : 0 < r := by omega
        exact_mod_cast this.ne'
      have digits : logDigits (n + 1) r =
          r * r / 2 ^ 127 * 2 ^ n + logDigits n (r * r / 2 ^ (63 + r * r / 2 ^ 127)) := rfl
      rw [Nat.cast_mul, Real.log_mul nonzero nonzero, Nat.cast_add] at cutBelow cutAbove
      rw [digits]
      generalize r * r / 2 ^ (63 + r * r / 2 ^ 127) = next at *
      generalize r * r / 2 ^ 127 = digit at *
      have power : (0 : ℝ) < 2 ^ n := by positivity
      have scaledBelow := mul_le_mul_of_nonneg_left cutBelow power.le
      have scaledAbove := mul_le_mul_of_nonneg_left cutAbove power.le
      push_cast at *
      rw [pow_succ' (2 : ℝ) n]
      constructor
      · linarith
      · linarith

theorem leading_bounds (p : Nat) (positive : p ≠ 0) : 2 ^ 63 ≤ leading p ∧ leading p < 2 ^ 64 := by
  have lower : 2 ^ p.log2 ≤ p := Nat.log2_self_le positive
  have upper : p < 2 ^ (p.log2 + 1) := Nat.lt_log2_self
  unfold leading
  simp only [Nat.pow_eq]
  generalize p.log2 = top at *
  split
  · rename_i high
    obtain ⟨k, rfl⟩ : ∃ k, top = 63 + k := ⟨top - 63, by omega⟩
    rw [Nat.add_sub_cancel_left]
    rw [pow_add] at lower
    rw [show 63 + k + 1 = 64 + k by omega, pow_add] at upper
    exact ⟨(Nat.le_div_iff_mul_le (by positivity)).mpr lower, Nat.div_lt_of_lt_mul (by rwa [Nat.mul_comm])⟩
  · rename_i low
    have whole : 2 ^ top * 2 ^ (63 - top) = 2 ^ 63 := by rw [← pow_add, Nat.add_sub_cancel' (by omega)]
    have room : 0 < 2 ^ (63 - top) := by positivity
    constructor
    · calc 2 ^ 63 = 2 ^ top * 2 ^ (63 - top) := whole.symm
        _ ≤ p * 2 ^ (63 - top) := Nat.mul_le_mul_right _ lower
    · calc p * 2 ^ (63 - top) < 2 ^ (top + 1) * 2 ^ (63 - top) := Nat.mul_lt_mul_of_pos_right upper room
        _ = 2 ^ 63 * 2 := by rw [pow_succ, Nat.mul_right_comm, whole]

theorem log_leading (p : Nat) (positive : p ≠ 0) :
    Real.log (leading p) - 63 * Real.log 2 ≤ Real.log p - p.log2 * Real.log 2 ∧
      Real.log p - p.log2 * Real.log 2 ≤ Real.log (leading p) - 63 * Real.log 2 + 1 / 2 ^ 63 := by
  obtain ⟨large, _⟩ := leading_bounds p positive
  unfold leading at *
  simp only [Nat.pow_eq] at *
  generalize p.log2 = top at *
  split
  · rename_i high
    rw [if_pos high] at large
    obtain ⟨below, above⟩ := log_cut p (top - 63) large
    rw [Nat.cast_sub (by omega)] at below above
    push_cast at *
    constructor <;> linarith
  · rename_i low
    have nonzero : (p : ℝ) ≠ 0 := by exact_mod_cast positive
    rw [Nat.cast_mul, Nat.cast_pow, Nat.cast_ofNat, Real.log_mul nonzero (by positivity), Real.log_pow,
      Nat.cast_sub (by omega)]
    push_cast
    constructor
    · linarith
    · have : (0 : ℝ) ≤ 1 / 2 ^ 63 := by positivity
      linarith

-- The cut logarithm has 14 digits after the point, and it is at most one of these below the real one.
theorem binary_log_bounds (p : Nat) (positive : p ≠ 0) : ∃ k : Int, binaryLog p = k * 2 ^ 18 ∧
    k * Real.log 2 ≤ 2 ^ 14 * (Real.log p - 64 * Real.log 2) ∧
      2 ^ 14 * (Real.log p - 64 * Real.log 2) ≤ (k + 1) * Real.log 2 + 1 / 2 ^ 47 := by
  obtain ⟨lower, upper⟩ := leading_bounds p positive
  obtain ⟨digitsBelow, digitsAbove⟩ := log_digits 14 (leading p) lower upper
  obtain ⟨leadBelow, leadAbove⟩ := log_leading p positive
  refine ⟨(p.log2 - 64) * 2 ^ 14 + logDigits 14 (leading p), ?_, ?_, ?_⟩
  · simp only [binaryLog, Nat.pow_eq]
    push_cast
    ring
  · push_cast
    linarith
  · push_cast
    linarith

end Logarithm

section Powers

-- Two positive numbers whose ratio differs from one by at most about `slack`.
def Near (slack x y : ℚ) : Prop :=
  0 < x ∧ 0 < y ∧ x ≤ (1 + slack) * y ∧ y ≤ (1 + slack) * x

instance (slack x y : ℚ) : Decidable (Near slack x y) :=
  inferInstanceAs (Decidable (_ ∧ _))

def Squares (slack : ℚ) : List ℚ → Prop
  | [] => True
  | f :: fs => (∀ g ∈ fs.head?, Near slack (f * f) g) ∧ Squares slack fs

instance decidableSquares (slack : ℚ) : (fs : List ℚ) → Decidable (Squares slack fs)
  | [] => inferInstanceAs (Decidable True)
  | f :: fs =>
      have := decidableSquares slack fs
      inferInstanceAs (Decidable ((∀ g ∈ fs.head?, Near slack (f * f) g) ∧ Squares slack fs))

theorem Near.log {slack x y : ℚ} (near : Near slack x y) (nonneg : 0 ≤ slack) :
    |Real.log x - Real.log y| ≤ slack := by
  obtain ⟨first, second, above, below⟩ := near
  have small : (0 : ℝ) ≤ slack := by exact_mod_cast nonneg
  have atMost : Real.log x ≤ Real.log y + slack :=
    log_le_of_le_mul (by exact_mod_cast first) small (by exact_mod_cast above)
  have atLeast : Real.log y ≤ Real.log x + slack :=
    log_le_of_le_mul (by exact_mod_cast second) small (by exact_mod_cast below)
  rw [abs_le]
  constructor <;> linarith

theorem exact_product_pos (fs : List ℚ) (positive : ∀ f ∈ fs, 0 < f) (n : Nat) : 0 < exactProduct fs n := by
  induction fs generalizing n with
  | nil => exact one_pos
  | cons f fs ih =>
      have rest := ih (fun g member => positive g (List.mem_cons_of_mem f member)) (n / 2)
      rw [exactProduct]
      split
      · exact mul_pos (positive f List.mem_cons_self) rest
      · rwa [one_mul]

-- The errors of the factors double from one to the next, as the factors' own logarithms do.
theorem log_exact_product (slack : ℚ) (nonneg : 0 ≤ slack) (fs : List ℚ) (positive : ∀ f ∈ fs, 0 < f)
    (squares : Squares slack fs) (step error : ℝ) (first : ∀ f ∈ fs.head?, |Real.log f - step| ≤ error) (n : Nat)
    (fits : n < 2 ^ fs.length) (small : 0 ≤ error) :
    |Real.log (exactProduct fs n) - n * step| ≤ (2 ^ fs.length - 1) * (error + slack) := by
  induction fs generalizing step error n with
  | nil =>
      have zero : n = 0 := by simpa using fits
      subst zero
      simp [exactProduct]
  | cons f fs ih =>
      have tail : ∀ g ∈ fs, 0 < g := fun g member => positive g (List.mem_cons_of_mem f member)
      have head := first f rfl
      have spread : (0 : ℝ) ≤ slack := by exact_mod_cast nonneg
      have next : ∀ g ∈ fs.head?, |Real.log g - 2 * step| ≤ 2 * error + slack := by
        intro g member
        have near := (squares.1 g member).log nonneg
        have nonzero : (f : ℝ) ≠ 0 := by exact_mod_cast (positive f List.mem_cons_self).ne'
        rw [Rat.cast_mul, Real.log_mul nonzero nonzero] at near
        rw [abs_le] at *
        constructor <;> linarith
      have rest := ih tail squares.2 (2 * step) (2 * error + slack) next (n / 2)
        (by rw [List.length_cons, pow_succ] at fits; omega) (by linarith)
      have product : (exactProduct fs (n / 2) : ℝ) ≠ 0 := by
        exact_mod_cast (exact_product_pos fs tail (n / 2)).ne'
      rw [exactProduct, List.length_cons, pow_succ]
      rcases Nat.mod_two_eq_zero_or_one n with even | odd
      · have half : (n : ℝ) = 2 * (n / 2 : Nat) := by exact_mod_cast (by omega : n = 2 * (n / 2))
        rw [if_neg (by omega), one_mul, half]
        rw [abs_le] at *
        constructor <;> linarith
      · have half : (n : ℝ) = 2 * (n / 2 : Nat) + 1 := by exact_mod_cast (by omega : n = 2 * (n / 2) + 1)
        have nonzero : (f : ℝ) ≠ 0 := by exact_mod_cast (positive f List.mem_cons_self).ne'
        rw [if_pos odd, Rat.cast_mul, Real.log_mul nonzero product, half]
        rw [abs_le] at *
        constructor <;> linarith

end Powers

section Ladder

noncomputable def tickStep : ℝ :=
  Real.log (10001 / 10000) / 2

def powerSlack : ℚ := 1 / 2 ^ 44

theorem log_powers (scale : Nat) (powers : List Nat) (base : ℚ) (length : powers.length = 19)
    (positive : ∀ f ∈ factors scale powers, 0 < f) (squares : Squares powerSlack (factors scale powers))
    (root : ∀ f ∈ (factors scale powers).head?, Near powerSlack (f * f) base) (n : Nat) (fits : n < 2 ^ 19) :
    |Real.log (exactProduct (factors scale powers) n) - n * (Real.log base / 2)| ≤ 1 / 2 ^ 24 := by
  have nonneg : 0 ≤ powerSlack := by norm_num [powerSlack]
  have same : (factors scale powers).length = 19 := by rw [factors, List.length_map, length]
  have slack : ((powerSlack : ℚ) : ℝ) = 1 / 2 ^ 44 := by norm_num [powerSlack]
  have first : ∀ f ∈ (factors scale powers).head?, |Real.log f - Real.log base / 2| ≤ (powerSlack : ℚ) := by
    intro f member
    have near := (root f member).log nonneg
    have nonzero : (f : ℝ) ≠ 0 := by exact_mod_cast (positive f (List.mem_of_head? member)).ne'
    rw [Rat.cast_mul, Real.log_mul nonzero nonzero, abs_le] at near
    rw [slack, abs_le] at *
    constructor <;> linarith
  have bound := log_exact_product powerSlack nonneg _ positive squares _ _ first n (by rwa [same])
    (by exact_mod_cast nonneg)
  rw [same, slack] at bound
  refine le_trans bound ?_
  norm_num

theorem log_rising (n : Nat) (fits : n < 2 ^ 19) :
    |Real.log (exactProduct (factors 96 risingPowers) n) - n * tickStep| ≤ 1 / 2 ^ 24 := by
  have bound := log_powers 96 risingPowers (10001 / 10000) rfl (by decide +kernel) (by decide +kernel)
    (by decide +kernel) n fits
  have base : ((10001 / 10000 : ℚ) : ℝ) = 10001 / 10000 := by norm_num
  rwa [base] at bound

theorem log_falling (n : Nat) (fits : n < 2 ^ 19) :
    |Real.log (exactProduct (factors 64 fallingPowers) n) + n * tickStep| ≤ 1 / 2 ^ 24 := by
  have bound := log_powers 64 fallingPowers (10000 / 10001) rfl (by decide +kernel) (by decide +kernel)
    (by decide +kernel) n fits
  have base : ((10000 / 10001 : ℚ) : ℝ) = (10001 / 10000)⁻¹ := by norm_num
  rw [base, Real.log_inv] at bound
  rw [tickStep]
  rw [abs_le] at *
  constructor <;> linarith

-- What a tick's price would be without the cuts, in units of one.
structure IsExact (t : Int) (price : ℚ) : Prop where
  positive : 0 < price
  log : |Real.log price - t * tickStep| ≤ 1 / 2 ^ 24
  above : rawPrice t ≤ 2 ^ 64 * price
  close : 2 ^ 64 * price ≤ (1 + 1 / 2 ^ 27) * rawPrice t

theorem exists_exact_rising (t : Int) (rising : 0 ≤ t) (upper : t ≤ maximum) : ∃ price, IsExact t price := by
  have near := log_rising t.toNat (by simp only [maximum] at upper; omega)
  have below := power_product_le 96 risingPowers t.toNat (Nat.pow 2 96)
  have above := power_product_ge 96 risingPowers t.toNat (Nat.pow 2 96)
  have bound := rising_product_bound
  have length : ((risingPowers.length : Nat) : ℚ) = 19 := by norm_num [risingPowers]
  have unit : ((Nat.pow 2 96 : Nat) : ℚ) = 2 ^ 96 := by norm_num [Nat.pow_eq]
  have least := (raw_price_le_iff 0 t (by decide) ⟨le_trans (by decide) rising, upper⟩).mpr rising
  have origin : rawPrice 0 = 2 ^ 64 := by decide +kernel
  have value : rawPrice t = powerProduct 96 risingPowers t.toNat (Nat.pow 2 96) / Nat.pow 2 32 := by
    rw [rawPrice, if_pos rising]
  have time : ((t.toNat : Nat) : ℝ) = t := by exact_mod_cast Int.toNat_of_nonneg rising
  rw [unit, length] at above
  rw [unit] at below
  rw [time] at near
  rw [origin] at least
  generalize powerProduct 96 risingPowers t.toNat (Nat.pow 2 96) = product at *
  have cut : (rawPrice t : ℚ) * 2 ^ 32 ≤ product := by
    rw [value]
    exact_mod_cast Nat.div_mul_le_self product (2 ^ 32)
  have rest : (product : ℚ) ≤ rawPrice t * 2 ^ 32 + 2 ^ 32 := by
    rw [value]
    exact_mod_cast (Nat.lt_div_mul_add (a := product) (by norm_num : 0 < 2 ^ 32)).le
  have whole : (2 : ℚ) ^ 64 ≤ rawPrice t := by exact_mod_cast least
  refine ⟨_, exact_product_pos _ (by decide +kernel) t.toNat, near, ?_, ?_⟩
  · linarith
  · linarith

theorem exists_exact_falling (t : Int) (falling : t ≤ 0) (lower : minimum ≤ t) : ∃ price, IsExact t price := by
  have near := log_falling (-t).toNat (by simp only [minimum] at lower; omega)
  have below := power_product_le 64 fallingPowers (-t).toNat SqrtPrice.unit
  have above := power_product_ge 64 fallingPowers (-t).toNat SqrtPrice.unit
  have bound := falling_product_bound
  have length : ((fallingPowers.length : Nat) : ℚ) = 19 := by norm_num [fallingPowers]
  have unit : ((SqrtPrice.unit : Nat) : ℚ) = 2 ^ 64 := by norm_num [SqrtPrice.unit, Nat.pow_eq]
  have least := (raw_price_bounds t ⟨lower, le_trans falling (by decide)⟩).1
  have time : (((-t).toNat : Nat) : ℝ) = -t := by exact_mod_cast Int.toNat_of_nonneg (Int.neg_nonneg_of_nonpos falling)
  rw [← raw_price_falling t falling, unit] at below above
  rw [length] at above
  rw [time, neg_mul, ← sub_eq_add_neg] at near
  have enough : (2 : ℚ) ^ 32 ≤ rawPrice t := by
    exact_mod_cast le_trans (by decide : 2 ^ 32 ≤ SqrtPrice.minValue) least
  refine ⟨_, exact_product_pos _ (by decide +kernel) (-t).toNat, near, below, ?_⟩
  linarith

theorem exists_exact (t : Int) (inside : InBounds t) : ∃ price, IsExact t price := by
  rcases le_total 0 t with rising | falling
  · exact exists_exact_rising t rising inside.2
  · exact exists_exact_falling t falling inside.1

theorem log_raw_price (t : Int) (inside : InBounds t) :
    |Real.log (rawPrice t) - 64 * Real.log 2 - t * tickStep| ≤ 1 / 2 ^ 23 := by
  obtain ⟨price, positive, near, above, close⟩ := exists_exact t inside
  have real : (0 : ℝ) < price := by exact_mod_cast positive
  have least : 0 < rawPrice t := lt_of_lt_of_le (by decide) (raw_price_bounds t inside).1
  have atMost : (rawPrice t : ℝ) ≤ 2 ^ 64 * price := by exact_mod_cast above
  have atLeast : (2 : ℝ) ^ 64 * price ≤ (1 + 1 / 2 ^ 27) * rawPrice t := by
    have := (Rat.cast_le (K := ℝ)).mpr close
    push_cast at this
    exact this
  have logMost := Real.log_le_log (by exact_mod_cast least) atMost
  have logLeast := log_le_of_le_mul (by positivity) (by positivity) atLeast
  rw [Real.log_mul (by positivity) real.ne', Real.log_pow] at logMost logLeast
  rw [abs_le] at *
  push_cast at *
  constructor <;> linarith

end Ladder

section Candidates

theorem tick_step_bounds : 49997500166 / 10 ^ 15 ≤ tickStep ∧ tickStep ≤ 49997500167 / 10 ^ 15 := by
  have series := Real.abs_log_sub_add_sum_range_le (x := -1 / 10000) (by norm_num [abs_of_neg]) 3
  have ratio : (1 : ℝ) - -1 / 10000 = 10001 / 10000 := by norm_num
  rw [ratio, abs_le] at series
  norm_num [Finset.sum_range_succ, abs_of_neg] at series
  unfold tickStep
  constructor <;> linarith

theorem doubling_near : |ticksPerDoubling * tickStep - 2 ^ 32 * Real.log 2| ≤ 4 := by
  obtain ⟨least, most⟩ := tick_step_bounds
  have below := Real.log_two_gt_d9
  have above := Real.log_two_lt_d9
  norm_num [ticksPerDoubling, abs_le]
  constructor <;> linarith

theorem ticks_near (p : Nat) (positive : p ≠ 0) (range : |Real.log p - 64 * Real.log 2| ≤ 32) :
    (binaryLog p * ticksPerDoubling : Int) * tickStep ≤ 2 ^ 64 * (Real.log p - 64 * Real.log 2) + 2 ^ 40 ∧
      2 ^ 64 * (Real.log p - 64 * Real.log 2) ≤
        (binaryLog p * ticksPerDoubling : Int) * tickStep + 2 ^ 50 * Real.log 2 + 2 ^ 41 := by
  obtain ⟨k, value, below, above⟩ := binary_log_bounds p positive
  have two := Real.log_two_gt_d9
  have doubling := doubling_near
  have few : |(k : ℝ)| ≤ 2 ^ 20 := by
    rw [abs_le] at *
    constructor <;> nlinarith
  have spread : |(k : ℝ) * (ticksPerDoubling * tickStep - 2 ^ 32 * Real.log 2)| ≤ 2 ^ 20 * 4 := by
    rw [abs_mul]
    exact mul_le_mul few doubling (abs_nonneg _) (by positivity)
  rw [value, abs_le] at *
  push_cast
  constructor <;> linarith

theorem log_near_tick {p : Nat} {t : Int} (most : p ≤ SqrtPrice.maxValue)
    (greatest : IsGreatest {u | InBounds u ∧ rawPrice u ≤ p} t) :
    t * tickStep - 1 / 2 ^ 23 ≤ Real.log p - 64 * Real.log 2 ∧
      Real.log p - 64 * Real.log 2 ≤ (t + 1) * tickStep + 1 / 2 ^ 23 := by
  obtain ⟨⟨inside, below⟩, last⟩ := greatest
  have near := abs_le.mp (log_raw_price t inside)
  have least : 0 < rawPrice t := lt_of_lt_of_le (by decide) (raw_price_bounds t inside).1
  have atLeast := Real.log_le_log (x := rawPrice t) (y := p) (by exact_mod_cast least) (by exact_mod_cast below)
  have wide := tick_step_bounds.1
  constructor
  · linarith
  · by_cases final : t = maximum
    · subst final
      have atMost := Real.log_le_log (x := p) (y := rawPrice maximum) (by exact_mod_cast lt_of_lt_of_le least below)
        (by rw [raw_price_maximum]; exact_mod_cast most)
      linarith
    · have next : InBounds (t + 1) := ⟨le_trans inside.1 (by omega), by have := inside.2; omega⟩
      have beyond : p ≤ rawPrice (t + 1) := by
        by_contra reached
        have := last ⟨next, (not_le.mp reached).le⟩
        omega
      have atMost := Real.log_le_log (x := p) (y := rawPrice (t + 1)) (by exact_mod_cast lt_of_lt_of_le least below)
        (by exact_mod_cast beyond)
      have far := abs_le.mp (log_raw_price (t + 1) next)
      push_cast at far
      linarith

theorem log_range {p : Nat} {t : Int} (most : p ≤ SqrtPrice.maxValue)
    (greatest : IsGreatest {u | InBounds u ∧ rawPrice u ≤ p} t) : |Real.log p - 64 * Real.log 2| ≤ 32 := by
  obtain ⟨after, before⟩ := log_near_tick most greatest
  have lower : (-443636 : ℝ) ≤ t := by exact_mod_cast greatest.1.1.1
  have upper : (t : ℝ) ≤ 443636 := by exact_mod_cast greatest.1.1.2
  obtain ⟨stepLeast, stepMost⟩ := tick_step_bounds
  rw [abs_le]
  constructor <;> nlinarith

theorem price_ne_zero {p : Nat} (enough : SqrtPrice.minValue ≤ p) : p ≠ 0 :=
  (lt_of_lt_of_le (by decide) enough).ne'

theorem candidates_hold {p : Nat} {t : Int} (enough : SqrtPrice.minValue ≤ p) (most : p ≤ SqrtPrice.maxValue)
    (greatest : IsGreatest {u | InBounds u ∧ rawPrice u ≤ p} t) :
    (binaryLog p * ticksPerDoubling - lowerMargin) / 2 ^ 64 ≤ t ∧
      t ≤ (binaryLog p * ticksPerDoubling + upperMargin) / 2 ^ 64 := by
  obtain ⟨after, before⟩ := log_near_tick most greatest
  obtain ⟨stepLeast, stepMost⟩ := tick_step_bounds
  obtain ⟨ticksBelow, ticksAbove⟩ := ticks_near p (price_ne_zero enough) (log_range most greatest)
  have two := Real.log_two_lt_d9
  generalize binaryLog p * ticksPerDoubling = ticks at *
  have nonneg : 0 ≤ tickStep := le_trans (by norm_num) stepLeast
  constructor
  · by_contra above
    have whole : (t + 1) * 2 ^ 64 + lowerMargin ≤ ticks :=
      le_sub_iff_add_le.mp ((Int.le_ediv_iff_mul_le (by norm_num)).mp (not_le.mp above))
    have scaled := mul_le_mul_of_nonneg_right ((Int.cast_le (R := ℝ)).mpr whole) nonneg
    norm_num [lowerMargin] at scaled
    linarith
  · by_contra below
    have whole : ticks + upperMargin ≤ t * 2 ^ 64 := ((Int.ediv_lt_iff_lt_mul (by norm_num)).mp (not_le.mp below)).le
    have scaled := mul_le_mul_of_nonneg_right ((Int.cast_le (R := ℝ)).mpr whole) nonneg
    norm_num [upperMargin] at scaled
    linarith

theorem exists_greatest (p : Nat) (enough : SqrtPrice.minValue ≤ p) :
    ∃ t, IsGreatest {u | InBounds u ∧ rawPrice u ≤ p} t := by
  obtain ⟨t, member, greatest⟩ := Int.exists_greatest_of_bdd (P := fun u => InBounds u ∧ rawPrice u ≤ p)
    ⟨maximum, fun u member => member.1.2⟩ ⟨minimum, by decide, by rw [raw_price_minimum]; exact enough⟩
  exact ⟨t, member, greatest⟩

-- The margin leaves the upper candidate of the highest price below the next whole tick.
theorem candidate_in_bounds {p : Nat} (enough : SqrtPrice.minValue ≤ p) (most : p ≤ SqrtPrice.maxValue) :
    InBounds ((binaryLog p * ticksPerDoubling + upperMargin) / 2 ^ 64) := by
  obtain ⟨t, greatest⟩ := exists_greatest p enough
  refine ⟨le_trans greatest.1.1.1 (candidates_hold enough most greatest).2, ?_⟩
  have positive : (0 : ℝ) < p := by exact_mod_cast Nat.pos_of_ne_zero (price_ne_zero enough)
  have last := abs_le.mp (log_raw_price maximum (by decide))
  have highest := Real.log_le_log positive (y := rawPrice maximum) (by rw [raw_price_maximum]; exact_mod_cast most)
  obtain ⟨stepLeast, stepMost⟩ := tick_step_bounds
  obtain ⟨ticksBelow, _⟩ := ticks_near p (price_ne_zero enough) (log_range most greatest)
  generalize binaryLog p * ticksPerDoubling = ticks at *
  by_contra above
  have whole : (maximum + 1) * 2 ^ 64 ≤ ticks + upperMargin :=
    (Int.le_ediv_iff_mul_le (by norm_num)).mp (not_le.mp above)
  have scaled := mul_le_mul_of_nonneg_right ((Int.cast_le (R := ℝ)).mpr whole) (le_trans (by norm_num) stepLeast)
  norm_num [upperMargin, maximum] at scaled last highest
  linarith

theorem raw_price_beyond : SqrtPrice.maxValue < rawPrice (maximum + 1) := by
  decide +kernel

theorem of_raw_price_greatest (p : Nat) (enough : SqrtPrice.minValue ≤ p) (most : p ≤ SqrtPrice.maxValue) :
    IsGreatest {u | InBounds u ∧ rawPrice u ≤ p} (ofRawPrice p) := by
  obtain ⟨t, greatest⟩ := exists_greatest p enough
  obtain ⟨lower, upper⟩ := candidates_hold enough most greatest
  suffices same : ofRawPrice p = t by
    rw [same]
    exact greatest
  unfold ofRawPrice
  simp only [Nat.pow_eq, Nat.cast_pow, Nat.cast_ofNat]
  generalize binaryLog p * ticksPerDoubling = ticks at *
  have near : (ticks + upperMargin) / 2 ^ 64 ≤ (ticks - lowerMargin) / 2 ^ 64 + 1 := by
    simp only [lowerMargin, upperMargin]
    omega
  generalize (ticks - lowerMargin) / 2 ^ 64 = low at *
  generalize (ticks + upperMargin) / 2 ^ 64 = high at *
  obtain ⟨⟨inside, below⟩, last⟩ := greatest
  by_cases one : low = high
  · rw [if_pos one]
    omega
  · rw [if_neg one]
    by_cases reached : rawPrice high ≤ p
    · rw [if_pos reached]
      by_contra different
      have next : high = t + 1 := by omega
      by_cases final : t = maximum
      · rw [next, final] at reached
        exact absurd (le_trans reached most) (not_le.mpr raw_price_beyond)
      · have bounded : InBounds high := by
          have := inside.1
          have := inside.2
          constructor <;> omega
        have := last ⟨bounded, reached⟩
        omega
    · rw [if_neg reached]
      have different : t ≠ high := by
        rintro rfl
        exact reached below
      omega

end Candidates

end PoolQuote.TickIndex
