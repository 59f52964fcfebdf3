import PoolQuote.TickPrice
import Mathlib

/-!
Tick prices rise strictly with the tick, and the tick of a price is the greatest one whose price is
not above it. A tick price is a product of tabulated powers, cut after each factor, so the proof
compares it with the exact product: the cuts lose less than one step from a tick to the next gains.
-/

set_option autoImplicit false

namespace PoolQuote.TickIndex

def exactProduct : List ℚ → Nat → ℚ
  | [], _ => 1
  | factor :: factors, n => (if n % 2 = 1 then factor else 1) * exactProduct factors (n / 2)

def productBound : List ℚ → ℚ
  | [] => 1
  | factor :: factors => max 1 factor * productBound factors

def factors (scale : Nat) (powers : List Nat) : List ℚ :=
  powers.map fun (power : Nat) => (power : ℚ) / 2 ^ scale

theorem exact_product_nonneg (fs : List ℚ) (nonneg : ∀ f ∈ fs, 0 ≤ f) (n : Nat) : 0 ≤ exactProduct fs n := by
  induction fs generalizing n with
  | nil => exact zero_le_one
  | cons f fs ih =>
      have rest := ih (fun g member => nonneg g (by simp [member])) (n / 2)
      have head := nonneg f (by simp)
      rw [exactProduct]
      split
      · exact mul_nonneg head rest
      · simpa using rest

theorem product_bound_one_le (fs : List ℚ) : 1 ≤ productBound fs := by
  induction fs with
  | nil => exact le_refl 1
  | cons f fs ih => exact one_le_mul_of_one_le_of_one_le (le_max_left 1 f) ih

theorem exact_product_le_bound (fs : List ℚ) (nonneg : ∀ f ∈ fs, 0 ≤ f) (n : Nat) :
    exactProduct fs n ≤ productBound fs := by
  induction fs generalizing n with
  | nil => exact le_refl 1
  | cons f fs ih =>
      have tail : ∀ g ∈ fs, 0 ≤ g := fun g member => nonneg g (by simp [member])
      have rest := ih tail (n / 2)
      have positive := exact_product_nonneg fs tail (n / 2)
      rw [exactProduct, productBound]
      split
      · exact mul_le_mul (le_max_right 1 f) rest positive (le_trans zero_le_one (le_max_left 1 f))
      · exact mul_le_mul (le_max_left 1 f) rest positive (le_trans zero_le_one (le_max_left 1 f))

theorem factors_cons (scale power : Nat) (powers : List Nat) :
    factors scale (power :: powers) = (power : ℚ) / 2 ^ scale :: factors scale powers := rfl

theorem factors_nonneg (scale : Nat) (powers : List Nat) : ∀ f ∈ factors scale powers, 0 ≤ f := by
  intro f member
  obtain ⟨power, _, rfl⟩ := List.mem_map.mp member
  positivity

theorem cut_bounds (scale r power : Nat) :
    ((r * power / Nat.pow 2 scale : Nat) : ℚ) ≤ r * (power / 2 ^ scale) ∧
      (r : ℚ) * (power / 2 ^ scale) < (r * power / Nat.pow 2 scale : Nat) + 1 := by
  have exact : (r : ℚ) * (power / 2 ^ scale) = ((r * power : Nat) : ℚ) / (Nat.pow 2 scale : Nat) := by
    simp only [Nat.pow_eq, Nat.cast_mul, Nat.cast_pow, Nat.cast_ofNat]
    ring
  have above := Nat.lt_floor_add_one (((r * power : Nat) : ℚ) / (Nat.pow 2 scale : Nat))
  rw [Nat.floor_div_eq_div] at above
  rw [exact]
  exact ⟨Nat.cast_div_le, above⟩

theorem power_product_le (scale : Nat) (powers : List Nat) (n r : Nat) :
    (powerProduct scale powers n r : ℚ) ≤ r * exactProduct (factors scale powers) n := by
  induction powers generalizing n r with
  | nil => simp [powerProduct, factors, exactProduct]
  | cons power powers ih =>
      have rest := exact_product_nonneg _ (factors_nonneg scale powers) (n / 2)
      rw [powerProduct, factors_cons, exactProduct]
      split
      · calc (powerProduct scale powers (n / 2) (r * power / Nat.pow 2 scale) : ℚ)
            ≤ (r * power / Nat.pow 2 scale : Nat) * exactProduct (factors scale powers) (n / 2) := ih _ _
          _ ≤ r * (power / 2 ^ scale) * exactProduct (factors scale powers) (n / 2) :=
              mul_le_mul_of_nonneg_right (cut_bounds scale r power).1 rest
          _ = r * (power / 2 ^ scale * exactProduct (factors scale powers) (n / 2)) := by ring
      · simpa only [one_mul] using ih (n / 2) r

-- Each cut loses less than one, and what it loses is multiplied by the factors that follow.
theorem power_product_ge (scale : Nat) (powers : List Nat) (n r : Nat) :
    r * exactProduct (factors scale powers) n ≤
      powerProduct scale powers n r + powers.length * productBound (factors scale powers) := by
  induction powers generalizing n r with
  | nil => simp [powerProduct, factors, exactProduct]
  | cons power powers ih =>
      have nonneg := factors_nonneg scale powers
      have rest := exact_product_nonneg _ nonneg (n / 2)
      have bound := exact_product_le_bound _ nonneg (n / 2)
      have wider : productBound (factors scale powers) ≤ productBound (factors scale (power :: powers)) :=
        le_mul_of_one_le_left (le_trans zero_le_one (product_bound_one_le _)) (le_max_left 1 _)
      have slack := mul_le_mul_of_nonneg_left wider (Nat.cast_nonneg (α := ℚ) powers.length)
      rw [powerProduct, factors_cons, exactProduct, ← factors_cons, List.length_cons, Nat.cast_succ]
      split
      · have step := ih (n / 2) (r * power / Nat.pow 2 scale)
        have scaled := mul_le_mul_of_nonneg_right (le_of_lt (cut_bounds scale r power).2) rest
        linarith
      · have step := ih (n / 2) r
        linarith

-- Counting from `n` to `n + 1` drops the low digits that are one and sets the next. So the product grows by a factor
-- `c` if each factor outweighs `c` times the product of all lower ones.
def Grows (c : ℚ) : List ℚ → Prop
  | [] => True
  | f :: fs => c ≤ f ∧ Grows (c * f) fs

instance decidableGrows : (c : ℚ) → (fs : List ℚ) → Decidable (Grows c fs)
  | _, [] => inferInstanceAs (Decidable True)
  | c, f :: fs =>
      have := decidableGrows (c * f) fs
      inferInstanceAs (Decidable (c ≤ f ∧ Grows (c * f) fs))

theorem exact_product_succ (c : ℚ) (fs : List ℚ) (n : Nat) (nonneg : ∀ f ∈ fs, 0 ≤ f)
    (grows : Grows c fs) (fits : n + 1 < 2 ^ fs.length) :
    c * exactProduct fs n ≤ exactProduct fs (n + 1) := by
  induction fs generalizing c n with
  | nil => simp at fits
  | cons f fs ih =>
      have tail : ∀ g ∈ fs, 0 ≤ g := fun g member => nonneg g (by simp [member])
      rw [List.length_cons, Nat.pow_succ] at fits
      rw [exactProduct, exactProduct]
      rcases Nat.mod_two_eq_zero_or_one n with even | odd
      · rw [if_neg (by omega), if_pos (by omega), show (n + 1) / 2 = n / 2 by omega, one_mul]
        exact mul_le_mul_of_nonneg_right grows.1 (exact_product_nonneg fs tail _)
      · rw [if_pos odd, if_neg (by omega), show (n + 1) / 2 = n / 2 + 1 by omega, one_mul, ← mul_assoc]
        exact ih (c * f) (n / 2) tail grows.2 (by omega)

theorem exact_product_inv (fs : List ℚ) (n : Nat) :
    exactProduct (fs.map (·⁻¹)) n = (exactProduct fs n)⁻¹ := by
  induction fs generalizing n with
  | nil => simp [exactProduct]
  | cons f fs ih =>
      rw [List.map_cons, exactProduct, exactProduct, ih, mul_inv]
      split <;> simp

def tickRatio : ℚ := 1 + 1 / 2 ^ 15

theorem rising_grows : Grows tickRatio (factors 96 risingPowers) := by
  decide +kernel

theorem falling_grows : Grows tickRatio ((factors 64 fallingPowers).map (·⁻¹)) := by
  decide +kernel

theorem exact_product_zero (fs : List ℚ) : exactProduct fs 0 = 1 := by
  induction fs with
  | nil => rfl
  | cons f fs ih => simpa [exactProduct] using ih

theorem exact_product_mono (fs : List ℚ) (m n : Nat) (nonneg : ∀ f ∈ fs, 0 ≤ f)
    (grows : Grows tickRatio fs) (ordered : m ≤ n) (fits : n < 2 ^ fs.length) :
    exactProduct fs m ≤ exactProduct fs n := by
  induction n, ordered using Nat.le_induction with
  | base => exact le_refl _
  | succ k _ ih =>
      have ratio : 1 ≤ tickRatio := by norm_num [tickRatio]
      calc exactProduct fs m ≤ exactProduct fs k := ih (by omega)
        _ ≤ tickRatio * exactProduct fs k := le_mul_of_one_le_left (exact_product_nonneg fs nonneg k) ratio
        _ ≤ exactProduct fs (k + 1) := exact_product_succ _ fs k nonneg grows fits

theorem rising_product_bound : productBound (factors 96 risingPowers) ≤ 2 ^ 38 := by
  decide +kernel

theorem falling_product_bound : productBound (factors 64 fallingPowers) ≤ 1 := by
  decide +kernel

theorem rising_step (n : Nat) (fits : n + 1 < 2 ^ 19) :
    powerProduct 96 risingPowers n (Nat.pow 2 96) + 2 ^ 32 ≤
      powerProduct 96 risingPowers (n + 1) (Nat.pow 2 96) := by
  have nonneg := factors_nonneg 96 risingPowers
  have below := power_product_le 96 risingPowers n (Nat.pow 2 96)
  have above := power_product_ge 96 risingPowers (n + 1) (Nat.pow 2 96)
  have grown := exact_product_succ tickRatio _ n nonneg rising_grows (by simpa [factors, risingPowers] using fits)
  have one := exact_product_mono _ 0 n nonneg rising_grows (Nat.zero_le n)
    (by simp only [factors, risingPowers, List.length_map, List.length_cons, List.length_nil]; omega)
  rw [exact_product_zero] at one
  have bound := rising_product_bound
  have length : ((risingPowers.length : Nat) : ℚ) = 19 := by norm_num [risingPowers]
  have unit : ((Nat.pow 2 96 : Nat) : ℚ) = 2 ^ 96 := by norm_num [Nat.pow_eq]
  rw [unit] at below above
  rw [length] at above
  rw [tickRatio] at grown
  have goal : (powerProduct 96 risingPowers n (Nat.pow 2 96) : ℚ) + 2 ^ 32 ≤
      powerProduct 96 risingPowers (n + 1) (Nat.pow 2 96) := by
    norm_num at *
    linarith
  exact_mod_cast goal

theorem falling_step (n : Nat) (fits : n + 1 ≤ 443636) :
    powerProduct 64 fallingPowers (n + 1) SqrtPrice.unit < powerProduct 64 fallingPowers n SqrtPrice.unit := by
  let inverses := (factors 64 fallingPowers).map (·⁻¹)
  have nonneg : ∀ f ∈ inverses, 0 ≤ f := by
    intro f member
    obtain ⟨g, inside, rfl⟩ := List.mem_map.mp member
    exact inv_nonneg.mpr (factors_nonneg 64 fallingPowers g inside)
  have length : inverses.length = 19 := rfl
  have one (k : Nat) (small : k ≤ 443636) : 0 < exactProduct (factors 64 fallingPowers) k := by
    have mono := exact_product_mono inverses 0 k nonneg falling_grows (Nat.zero_le k) (by rw [length]; omega)
    rw [exact_product_zero, exact_product_inv] at mono
    exact inv_pos.mp (lt_of_lt_of_le one_pos mono)
  have grown := exact_product_succ tickRatio inverses n nonneg falling_grows (by rw [length]; omega)
  have last := exact_product_mono inverses (n + 1) 443636 nonneg falling_grows fits (by rw [length]; norm_num)
  rw [exact_product_inv, exact_product_inv] at grown last
  have shrunk : tickRatio * exactProduct (factors 64 fallingPowers) (n + 1) ≤ exactProduct (factors 64 fallingPowers) n := by
    rw [← div_eq_mul_inv, div_le_iff₀ (one n (by omega)), inv_mul_eq_div, le_div_iff₀ (one (n + 1) fits)] at grown
    exact grown
  have least := (inv_le_inv₀ (one (n + 1) fits) (one 443636 (le_refl _))).mp last
  have lowest := power_product_le 64 fallingPowers 443636 SqrtPrice.unit
  have below := power_product_le 64 fallingPowers (n + 1) SqrtPrice.unit
  have above := power_product_ge 64 fallingPowers n SqrtPrice.unit
  have lowestValue : powerProduct 64 fallingPowers 443636 SqrtPrice.unit = SqrtPrice.minValue := by decide +kernel
  have bound := falling_product_bound
  have count : ((fallingPowers.length : Nat) : ℚ) = 19 := by norm_num [fallingPowers]
  have unit : ((SqrtPrice.unit : Nat) : ℚ) = 2 ^ 64 := by norm_num [SqrtPrice.unit, Nat.pow_eq]
  rw [lowestValue, unit, SqrtPrice.minValue] at lowest
  rw [unit] at below above
  rw [count] at above
  rw [tickRatio] at shrunk
  have goal : (powerProduct 64 fallingPowers (n + 1) SqrtPrice.unit : ℚ) < powerProduct 64 fallingPowers n SqrtPrice.unit := by
    norm_num at shrunk lowest below above
    linarith
  exact_mod_cast goal

theorem raw_price_falling (t : Int) (below : t ≤ 0) :
    rawPrice t = powerProduct 64 fallingPowers (-t).toNat SqrtPrice.unit := by
  rcases eq_or_lt_of_le below with zero | negative
  · subst zero
    decide +kernel
  · rw [rawPrice, if_neg (by omega)]

theorem raw_price_succ (t : Int) (lower : minimum ≤ t) (upper : t < maximum) :
    rawPrice t < rawPrice (t + 1) := by
  simp only [minimum, maximum] at lower upper
  by_cases rising : 0 ≤ t
  · have step := rising_step t.toNat (by omega)
    rw [rawPrice, rawPrice, if_pos rising, if_pos (by omega), show (t + 1).toNat = t.toNat + 1 by omega]
    have unit : Nat.pow 2 32 = 2 ^ 32 := rfl
    rw [unit]
    omega
  · have step := falling_step (-(t + 1)).toNat (by omega)
    rw [show (-(t + 1)).toNat + 1 = (-t).toNat by omega] at step
    rw [raw_price_falling t (by omega), raw_price_falling (t + 1) (by omega)]
    exact step

theorem raw_price_lt (s t : Int) (lower : minimum ≤ s) (less : s < t) (upper : t ≤ maximum) :
    rawPrice s < rawPrice t := by
  have ordered : s + 1 ≤ t := less
  induction t, ordered using Int.leInduction with
  | base => exact raw_price_succ s lower (by omega)
  | succ k above ih => exact lt_trans (ih (by omega) (by omega)) (raw_price_succ k (by omega) (by omega))

theorem raw_price_le_iff (s t : Int) (first : InBounds s) (second : InBounds t) :
    rawPrice s ≤ rawPrice t ↔ s ≤ t := by
  constructor
  · intro le
    by_contra less
    exact absurd (raw_price_lt t s second.1 (by omega) first.2) (by omega)
  · intro le
    rcases eq_or_lt_of_le le with same | less
    · rw [same]
    · exact le_of_lt (raw_price_lt s t first.1 less second.2)

theorem raw_price_minimum : rawPrice minimum = SqrtPrice.minValue := by
  decide +kernel

theorem raw_price_maximum : rawPrice maximum = SqrtPrice.maxValue := by
  decide +kernel

theorem raw_price_bounds (t : Int) (inside : InBounds t) :
    SqrtPrice.minValue ≤ rawPrice t ∧ rawPrice t ≤ SqrtPrice.maxValue := by
  rw [← raw_price_minimum, ← raw_price_maximum]
  have lowest : InBounds minimum := by decide
  have highest : InBounds maximum := by decide
  exact ⟨(raw_price_le_iff _ _ lowest inside).mpr inside.1, (raw_price_le_iff _ _ inside highest).mpr inside.2⟩

theorem sqrt_price_eq_ok_iff (t : Int) (p : Nat) : sqrtPrice t = .ok p ↔ InBounds t ∧ rawPrice t = p := by
  unfold sqrtPrice
  split <;> simp_all

end PoolQuote.TickIndex
