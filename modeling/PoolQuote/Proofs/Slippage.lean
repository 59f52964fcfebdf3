import PoolQuote.Slippage
import PoolQuote.Proofs.WordArithmetic
import Mathlib.Algebra.Order.Floor.Semifield
import Mathlib.Data.Rat.Floor

/-!
Amounts moved by a tolerance. A lowered amount is the exact one, rounded down, for every tolerance. A raised one is the
exact one as well, and stops at the largest amount, as long as its product with the tolerance stays within its word;
past that the computation is abandoned, although the amount would have stopped there as well.
-/

set_option autoImplicit false

namespace PoolQuote

namespace Percentage

def widened (tolerance : Percentage) (direction : Rounding) (amount : Nat) : ℚ :=
  let n := tolerance.numerator.toNat
  let d := tolerance.denominator.toNat
  match direction with
  | .up => (amount * (d + n) : Nat) / d
  | .down => (amount * d : Nat) / (d + n : Nat)

-- Whether the product of an amount to be raised and the tolerance leaves its word.
def IsWide (tolerance : Percentage) (amount : Nat) : Prop :=
  ¬FitsBits 128 (amount * (tolerance.denominator.toNat + tolerance.numerator.toNat))

theorem floor_widened_up (tolerance : Percentage) (amount : Nat) : ⌊tolerance.widened .up amount⌋₊ =
    amount * (tolerance.denominator.toNat + tolerance.numerator.toNat) / tolerance.denominator.toNat :=
  Nat.floor_div_eq_div _ _

theorem floor_widened_down (tolerance : Percentage) (amount : Nat) : ⌊tolerance.widened .down amount⌋₊ =
    amount * tolerance.denominator.toNat / (tolerance.denominator.toNat + tolerance.numerator.toNat) :=
  Nat.floor_div_eq_div _ _

theorem floor_widened_down_le (tolerance : Percentage) (amount : Nat) : ⌊tolerance.widened .down amount⌋₊ ≤ amount := by
  rw [floor_widened_down]
  apply Nat.div_le_of_le_mul
  rw [Nat.mul_comm]
  exact Nat.mul_le_mul_right _ (Nat.le_add_right _ _)

section Valid

variable {tolerance : Percentage} (valid : tolerance.denominator ≠ 0)

include valid

theorem denominator_pos : 0 < tolerance.denominator.toNat :=
  Nat.pos_of_ne_zero fun zero => valid (BitVec.eq_of_toNat_eq zero)

theorem validate_ok : tolerance.validate = .ok () :=
  if_neg valid

theorem le_floor_widened_up (amount : Nat) : amount ≤ ⌊tolerance.widened .up amount⌋₊ := by
  rw [floor_widened_up, Nat.le_div_iff_mul_le (denominator_pos valid)]
  exact Nat.mul_le_mul_left _ (Nat.le_add_right _ _)

theorem widen_down_exact (amount : BitVec 64) : ∃ lowered, tolerance.widen .down amount = .ok lowered ∧
    lowered.toNat = ⌊tolerance.widened .down amount.toNat⌋₊ := by
  have fits : FitsBits 64 ⌊tolerance.widened .down amount.toNat⌋₊ :=
    FitsBits.of_le amount.isLt (tolerance.floor_widened_down_le _)
  refine ⟨_, ?_, fits.to_nat⟩
  rw [floor_widened_down]
  exact bind_of_ok (lift_of_ok (validate_ok valid)) rfl

theorem widen_up_narrow {amount : BitVec 64} (narrow : ¬tolerance.IsWide amount.toNat) :
    ∃ raised, tolerance.widen .up amount = .ok raised ∧
      raised.toNat = min ⌊tolerance.widened .up amount.toNat⌋₊ (wordMax 64) := by
  have top : FitsBits 64 (wordMax 64) := by decide
  refine ⟨_, ?_, (top.of_le (min_le_right _ _)).to_nat⟩
  rw [floor_widened_up]
  exact bind_of_ok (lift_of_ok (validate_ok valid)) (bind_of_ok (if_pos (not_not.mp narrow)) rfl)

theorem widen_up_wide {amount : BitVec 64} (wide : tolerance.IsWide amount.toNat) :
    tolerance.widen .up amount = .error .abort := by
  refine bind_of_ok (lift_of_ok (validate_ok valid)) ?_
  dsimp only
  rw [orAbort, if_neg wide]
  rfl

theorem wide_is_large {amount : Nat} (wide : tolerance.IsWide amount) :
    wordMax 64 < ⌊tolerance.widened .up amount⌋₊ := by
  have large : wordCount 64 ≤ ⌊tolerance.widened .up amount⌋₊ := by
    rw [floor_widened_up, Nat.le_div_iff_mul_le (denominator_pos valid)]
    calc wordCount 64 * tolerance.denominator.toNat
        ≤ wordCount 64 * wordCount 64 := Nat.mul_le_mul_left _ (le_of_lt tolerance.denominator.isLt)
      _ = wordCount 128 := (Nat.pow_add 2 64 64).symm
      _ ≤ amount * (tolerance.denominator.toNat + tolerance.numerator.toNat) := not_lt.mp wide
  exact lt_of_lt_of_le (by decide) large

end Valid

section Widened

variable {tolerance : Percentage} {direction : Rounding} {amount widened : BitVec 64}

theorem valid_of_widen (ok : tolerance.widen direction amount = .ok widened) : tolerance.denominator ≠ 0 := by
  obtain ⟨_, validated, _⟩ := bind_ok ok
  exact (else_ok (lift_ok validated)).1

theorem widen_down_le (ok : tolerance.widen .down amount = .ok widened) : widened.toNat ≤ amount.toNat := by
  obtain ⟨lowered, down, exact⟩ := widen_down_exact (valid_of_widen ok) amount
  cases ok.symm.trans down
  rw [exact]
  exact tolerance.floor_widened_down_le _

theorem le_widen_up (ok : tolerance.widen .up amount = .ok widened) : amount.toNat ≤ widened.toNat := by
  have valid := valid_of_widen ok
  have narrow : ¬tolerance.IsWide amount.toNat := by
    intro wide
    rw [widen_up_wide valid wide] at ok
    cases ok
  obtain ⟨raised, up, exact⟩ := widen_up_narrow valid narrow
  cases ok.symm.trans up
  rw [exact]
  -- The saturation is harmless: no amount is above the largest one.
  exact le_min (le_floor_widened_up valid _) (Nat.le_pred_of_lt amount.isLt)

end Widened

end Percentage

namespace Words

def widen (tolerance : Percentage) (direction : Rounding) (amount : BitVec 64) : Outcome (BitVec 64) := do
  tolerance.validate
  let x := amount.toNat
  let n := tolerance.numerator.toNat
  let d := tolerance.denominator.toNat
  match direction with
  | .up =>
      let factor ← add 128 d n
      let product ← mul 128 x factor
      let whole ← quotient product d
      return BitVec.ofNat 64 (if FitsBits 64 whole then whole else wordMax 64)
  | .down =>
      let product ← mul 128 x d
      let factor ← add 128 d n
      let whole ← quotient product factor
      if FitsBits 64 whole then return BitVec.ofNat 64 whole else throw (.error .numberDownCast)

theorem widen_refines (tolerance : Percentage) (direction : Rounding) (amount : BitVec 64) :
    widen tolerance direction amount = tolerance.widen direction amount := by
  unfold widen Percentage.widen
  refine bind_congr_ok fun _ valid => ?_
  have nonzero := (else_ok (lift_ok valid)).1
  have positive := Percentage.denominator_pos nonzero
  have factor : FitsBits 128 (tolerance.denominator.toNat + tolerance.numerator.toNat) := by
    have first := tolerance.denominator.isLt
    have second := tolerance.numerator.isLt
    simp only [FitsBits, wordCount, Nat.pow_eq]
    omega
  dsimp only
  cases direction with
  | up =>
      rw [add, or_abort_bind factor]
      refine bind_congr_ok fun product _ => ?_
      rw [quotient, or_abort_bind (by omega)]
      split
      · rename_i fits
        have within : product / tolerance.denominator.toNat ≤ wordMax 64 := Nat.le_pred_of_lt fits
        rw [min_eq_left within]
      · rename_i large
        have beyond : wordMax 64 ≤ product / tolerance.denominator.toNat := le_trans (Nat.sub_le _ _) (not_lt.mp large)
        rw [min_eq_right beyond]
  | down =>
      have product : FitsBits 128 (amount.toNat * tolerance.denominator.toNat) :=
        FitsBits.mul amount.isLt tolerance.denominator.isLt
      have lowered := tolerance.floor_widened_down_le amount.toNat
      rw [Percentage.floor_widened_down] at lowered
      rw [mul, or_abort_bind product]
      dsimp only
      rw [add, or_abort_bind factor, quotient, or_abort_bind (by omega)]
      exact if_pos (FitsBits.of_le amount.isLt lowered)

end Words

/-- A raised amount stops at the largest one unless the product is wider than its word. -/
theorem widening_is_exact_unless_wide (tolerance : Percentage) (amount : BitVec 64)
    (valid : tolerance.denominator ≠ 0) :
    let wide := tolerance.IsWide amount.toNat
    (∀ direction, Words.widen tolerance direction amount = tolerance.widen direction amount) ∧
      (∃ lowered, tolerance.widen .down amount = .ok lowered ∧
        lowered.toNat = ⌊tolerance.widened .down amount.toNat⌋₊) ∧
      ((∃ raised, tolerance.widen .up amount = .ok raised ∧
        raised.toNat = min ⌊tolerance.widened .up amount.toNat⌋₊ (wordMax 64)) ↔ ¬wide) ∧
      (tolerance.widen .up amount = .error .abort ↔ wide) ∧
      (wide → wordMax 64 < ⌊tolerance.widened .up amount.toNat⌋₊) := by
  intro wide
  refine ⟨fun direction => Words.widen_refines tolerance direction amount, Percentage.widen_down_exact valid amount,
    ?_, ?_, Percentage.wide_is_large valid⟩
  · refine ⟨?_, Percentage.widen_up_narrow valid⟩
    rintro ⟨raised, ok, _⟩ beyond
    rw [Percentage.widen_up_wide valid beyond] at ok
    cases ok
  · refine ⟨fun aborts => ?_, Percentage.widen_up_wide valid⟩
    by_contra narrow
    obtain ⟨raised, ok, _⟩ := Percentage.widen_up_narrow valid narrow
    rw [ok] at aborts
    cases aborts

theorem widening_is_exact_unless_wide_sample : ∃ lowered raised,
    (⟨3, 2⟩ : Percentage).widen .down (BitVec.allOnes 64) = .ok lowered ∧ lowered.toNat = 7378697629483820646 ∧
      (⟨3, 2⟩ : Percentage).widen .up (BitVec.allOnes 64) = .ok raised ∧ raised.toNat = wordMax 64 := by
  have narrow : ¬(⟨3, 2⟩ : Percentage).IsWide (BitVec.allOnes 64).toNat := not_not.mpr (by decide +kernel)
  obtain ⟨_, ⟨lowered, down, least⟩, rises, _, _⟩ :=
    widening_is_exact_unless_wide ⟨3, 2⟩ (BitVec.allOnes 64) (by decide)
  obtain ⟨raised, up, most⟩ := rises.mpr narrow
  rw [Percentage.floor_widened_down] at least
  rw [Percentage.floor_widened_up] at most
  exact ⟨lowered, raised, down, least.trans (by decide +kernel), up, most.trans (by decide +kernel)⟩

/-- The largest amount is not raised by a tolerance of 100 percent if that is written with the largest denominator. -/
theorem wide_raise_aborts :
    (⟨BitVec.allOnes 64, BitVec.allOnes 64⟩ : Percentage).widen .up (BitVec.allOnes 64) = .error .abort ∧
      min ⌊(⟨BitVec.allOnes 64, BitVec.allOnes 64⟩ : Percentage).widened .up (BitVec.allOnes 64).toNat⌋₊ (wordMax 64) =
        wordMax 64 := by
  have valid : (⟨BitVec.allOnes 64, BitVec.allOnes 64⟩ : Percentage).denominator ≠ 0 := by decide
  have wide : (⟨BitVec.allOnes 64, BitVec.allOnes 64⟩ : Percentage).IsWide (BitVec.allOnes 64).toNat := by
    unfold Percentage.IsWide
    decide +kernel
  exact ⟨Percentage.widen_up_wide valid wide, min_eq_right (le_of_lt (Percentage.wide_is_large valid wide))⟩

end PoolQuote
