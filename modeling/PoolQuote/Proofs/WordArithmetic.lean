import PoolQuote.Arithmetic
import PoolQuote.Proofs.Outcome
import Mathlib.Tactic.Ring
import Mathlib.Algebra.Order.Ring.Nat

/-!
Arithmetic on machine words as a processor with overflow checks performs it: an operation whose result leaves its word,
which divides by zero or which shifts by the width of its word abandons the computation. Products and quotients that
are computed with these operations are the exact ones, and none of the checks is met on the way.
-/

set_option autoImplicit false

namespace PoolQuote

theorem FitsBits.mono {v w n : Nat} (fits : FitsBits v n) (wider : v ≤ w) : FitsBits w n :=
  lt_of_lt_of_le fits (Nat.pow_le_pow_right (by decide) wider)

theorem FitsBits.of_le {w m n : Nat} (fits : FitsBits w n) (le : m ≤ n) : FitsBits w m :=
  lt_of_le_of_lt le fits

theorem FitsBits.to_nat {w n : Nat} (fits : FitsBits w n) : (BitVec.ofNat w n).toNat = n := by
  rw [BitVec.toNat_ofNat]
  exact Nat.mod_eq_of_lt fits

theorem FitsBits.mul {v w m n : Nat} (first : FitsBits v m) (second : FitsBits w n) : FitsBits (v + w) (m * n) := by
  have width : wordCount (v + w) = wordCount v * wordCount w := Nat.pow_add 2 v w
  rw [FitsBits, width]
  exact Nat.mul_lt_mul'' first second

theorem FitsBits.shift {v n : Nat} (fits : FitsBits v n) : FitsBits (v + 64) (n * wordCount 64) := by
  have width : wordCount (v + 64) = wordCount v * wordCount 64 := Nat.pow_add 2 v 64
  rw [FitsBits, width]
  exact Nat.mul_lt_mul_of_pos_right fits (by decide)

namespace Signed

theorem holds_iff (w : Nat) (i : Int) : Holds w i ↔ -2 ^ (w - 1) ≤ i ∧ i < 2 ^ (w - 1) := by
  simp only [Holds, least, greatest, wordCount, Nat.pow_eq, Nat.cast_pow, Nat.cast_ofNat]
  omega

theorem holds_to_int {w : Nat} (x : Signed w) : Holds w x.toInt :=
  (holds_iff w _).mpr ⟨BitVec.le_toInt x.bits, BitVec.toInt_lt⟩

theorem to_int_injective {w : Nat} : Function.Injective (toInt : Signed w → Int) := by
  rintro ⟨bits⟩ ⟨others⟩ same
  exact congrArg mk (BitVec.toInt_inj.mp same)

end Signed

namespace Words

def add (w a b : Nat) : Outcome Nat :=
  orAbort (FitsBits w (a + b)) (a + b)

def sub (a b : Nat) : Outcome Nat :=
  orAbort (b ≤ a) (a - b)

def mul (w a b : Nat) : Outcome Nat :=
  orAbort (FitsBits w (a * b)) (a * b)

def wrappingMul (w a b : Nat) : Nat :=
  a * b % wordCount w

def quotient (a b : Nat) : Outcome Nat :=
  orAbort (b ≠ 0) (a / b)

def remainder (a b : Nat) : Outcome Nat :=
  orAbort (b ≠ 0) (a % b)

-- Only the distance of a shift is checked: what leaves the word is lost.
def shiftLeft (w a k : Nat) : Outcome Nat :=
  orAbort (k < w) (a * Nat.pow 2 k % wordCount w)

def shiftRight (w a k : Nat) : Outcome Nat :=
  orAbort (k < w) (a / Nat.pow 2 k)

def signed (w : Nat) (i : Int) : Outcome Int :=
  orAbort (Signed.Holds w i) i

def divide (w : Nat) (rounding : Rounding) (n d : Nat) : Outcome Nat := do
  if d = 0 then throw (.error .divideByZero)
  let whole ← quotient n d
  let rest ← remainder n d
  if rounding = .up ∧ rest ≠ 0 then add w whole 1 else return whole

def mulDiv (rounding : Rounding) (a b d : Nat) : Outcome Nat := do
  if d = 0 then throw (.error .divideByZero)
  let whole ← divide 256 rounding (wrappingMul 256 a b) d
  if FitsBits 128 whole then return whole else throw (.error .mulDivOverflow)

def mulShift (rounding : Rounding) (a b : Nat) : Outcome Nat := do
  if a = 0 ∨ b = 0 then return 0
  if ¬FitsBits 128 (a * b) then throw (.error .mulShiftOverflow)
  let whole ← shiftRight 128 (a * b) 64
  let amount := whole % wordCount 64
  if rounding = .up ∧ 0 < a * b % wordCount 64 then
    if amount = wordMax 64 then throw (.error .multiplicationOverflow)
    add 64 amount 1
  else return amount

theorem wrapping_mul_exact {a b : Nat} (first : FitsBits 128 a) (second : FitsBits 128 b) : wrappingMul 256 a b = a * b :=
  Nat.mod_eq_of_lt (first.mul second)

theorem signed_exact {w : Nat} {i : Int} (holds : Signed.Holds w i) : signed w i = .ok i :=
  if_pos holds

theorem shift_left_exact {v w a : Nat} (fits : FitsBits v a) (near : 64 < w) (room : v + 64 ≤ w) :
    shiftLeft w a 64 = .ok (a * wordCount 64) := by
  have kept : FitsBits w (a * wordCount 64) := fits.shift.mono room
  rw [shiftLeft, orAbort, if_pos near]
  exact congrArg Except.ok (Nat.mod_eq_of_lt kept)

-- Where a division leaves a rest, the quotient is less than what is divided, so that there is room to round it up.
theorem quotient_fits {w n d : Nat} (fits : FitsBits w n) (rest : n % d ≠ 0) (divisor : d ≠ 0) : FitsBits w (n / d + 1) := by
  have some : 0 < n := Nat.pos_of_ne_zero fun zero => rest (by rw [zero, Nat.zero_mod])
  have wide : 1 < d := by
    by_contra narrow
    have one : d = 1 := by omega
    exact rest (by rw [one, Nat.mod_one])
  exact fits.of_le (Nat.div_lt_self some wide)

theorem divide_refines {w n : Nat} (rounding : Rounding) (d : Nat) (fits : FitsBits w n) :
    divide w rounding n d = liftM (PoolQuote.divide rounding n d) := by
  unfold divide PoolQuote.divide
  by_cases zero : d = 0
  · rw [if_pos zero, if_pos zero]
    rfl
  · rw [if_neg zero, if_neg zero, quotient, or_abort_bind zero, remainder, or_abort_bind zero]
    cases rounding with
    | down => rfl
    | up =>
        by_cases exact : n % d = 0
        · rw [if_neg (fun both => both.2 exact), Rounding.div, if_pos exact]
          rfl
        · rw [if_pos ⟨rfl, exact⟩, Rounding.div, if_neg exact, add, orAbort, if_pos (quotient_fits fits exact zero)]
          rfl

theorem mul_div_refines {a b : Nat} (rounding : Rounding) (d : Nat) (first : FitsBits 128 a) (second : FitsBits 128 b) :
    mulDiv rounding a b d = liftM (PoolQuote.mulDiv rounding a b d) := by
  unfold mulDiv PoolQuote.mulDiv
  rw [wrapping_mul_exact first second, divide_refines rounding d (first.mul second), PoolQuote.divide]
  by_cases zero : d = 0
  · rw [if_pos zero, if_pos zero, if_pos zero]
    rfl
  · rw [if_neg zero, if_neg zero, if_neg zero]
    dsimp only
    by_cases fits : FitsBits 128 (rounding.div (a * b) d)
    · rw [if_pos fits]
      exact if_pos fits
    · rw [if_neg fits]
      exact if_neg fits

theorem mul_shift_refines (rounding : Rounding) (a b : Nat) :
    mulShift rounding a b = liftM (PoolQuote.mulShift rounding a b) := by
  unfold mulShift PoolQuote.mulShift
  by_cases nothing : a = 0 ∨ b = 0
  · have zero : a * b = 0 := Nat.mul_eq_zero.mpr nothing
    rw [if_pos nothing, zero]
    cases rounding <;> rfl
  · rw [if_neg nothing]
    by_cases fits : FitsBits 128 (a * b)
    · have whole : a * b / wordCount 64 < wordCount 64 :=
        Nat.div_lt_of_lt_mul (lt_of_lt_of_eq fits (Nat.pow_add 2 64 64))
      have amount : a * b / Nat.pow 2 64 % wordCount 64 = a * b / wordCount 64 := Nat.mod_eq_of_lt whole
      rw [if_neg (not_not.mpr fits), if_pos fits, shiftRight, or_abort_bind (by decide), amount]
      dsimp only
      cases rounding with
      | down =>
          have kept : FitsBits 64 (a * b / wordCount 64) := whole
          rw [if_neg (fun both => by cases both.1), Rounding.div, if_pos kept]
          rfl
      | up =>
          by_cases exact : a * b % wordCount 64 = 0
          · have kept : FitsBits 64 (a * b / wordCount 64) := whole
            rw [if_neg (fun both => absurd both.2 (by omega)), Rounding.div, if_pos exact, if_pos kept]
            rfl
          · rw [if_pos ⟨rfl, Nat.pos_of_ne_zero exact⟩, Rounding.div, if_neg exact]
            by_cases last : a * b / wordCount 64 = wordMax 64
            · have full : ¬ FitsBits 64 (a * b / wordCount 64 + 1) := by
                rw [last]
                decide
              rw [if_pos last, if_neg full]
              rfl
            · have room : FitsBits 64 (a * b / wordCount 64 + 1) := by
                simp only [FitsBits, wordMax] at *
                omega
              rw [if_neg last, if_pos room, add, orAbort, if_pos room]
              rfl
    · rw [if_pos fits, if_neg fits]
      rfl

end Words

end PoolQuote
