import PoolQuote.Proofs.SwapStep
import PoolQuote.Proofs.WordArithmetic

/-!
One step of a swap on machine words. Where the liquidity and the prices are words of 128 bits and the amounts words of
64, the step meets no check: it is the exact one.
-/

set_option autoImplicit false

namespace PoolQuote

namespace Words

-- A product that is moved up by 64 bits, unless that loses bits of it.
def shiftWord (n : Nat) : Outcome Nat := do
  if ¬FitsBits 192 n then throw (.error .multiplicationOverflow)
  shiftLeft 256 n 64

def betweenA (rounding : Rounding) (p q liquidity : Nat) : Outcome TokenDelta := do
  let lower := min p q
  let upper := max p q
  let distance ← sub upper lower
  let numerator ← shiftWord (wrappingMul 256 liquidity distance)
  let amount ← divide 256 rounding numerator (wrappingMul 256 upper lower)
  return if FitsBits 64 amount then .fits amount else .tooLarge .tokenMaxExceeded

def betweenB (rounding : Rounding) (p q liquidity : Nat) : Outcome TokenDelta := do
  let distance ← sub (max p q) (min p q)
  match mulShift rounding liquidity distance with
  | .ok amount => return .fits amount
  | .error (.error cause) => return .tooLarge cause
  | .error .abort => throw .abort

def between (token : Token) (rounding : Rounding) (p q liquidity : Nat) : Outcome TokenDelta :=
  match token with
  | .a => betweenA rounding p q liquidity
  | .b => betweenB rounding p q liquidity

def exact (token : Token) (rounding : Rounding) (p q liquidity : Nat) : Outcome Nat := do
  let delta ← between token rounding p q liquidity
  delta.toExcept

def fromA (side : Side) (price liquidity amount : Nat) : Outcome Nat := do
  if amount = 0 then return price
  let product := wrappingMul 256 price amount
  let numerator ← shiftWord (wrappingMul 256 liquidity price)
  let shifted ← shiftLeft 256 liquidity 64
  if side = .output ∧ shifted ≤ product then throw (.error .divideByZero)
  let denominator ← match side with
    | .input => add 256 shifted product
    | .output => sub shifted product
  let next ← divide 256 .up numerator denominator
  if FitsBits 128 next then NextPrice.checked next else throw (.error .numberDownCast)

def fromB (side : Side) (price liquidity amount : Nat) : Outcome Nat := do
  let scaled ← shiftLeft 128 amount 64
  match side with
  | .input =>
      let delta ← divide 128 .down scaled liquidity
      if FitsBits 128 (price + delta) then NextPrice.checked (price + delta) else throw (.error .tokenMaxExceeded)
  | .output =>
      let delta ← divide 128 .up scaled liquidity
      if delta ≤ price then NextPrice.checked (price - delta) else throw (.error .tokenMinSubceeded)

def solve (token : Token) (side : Side) (price liquidity amount : Nat) : Outcome Nat :=
  match token with
  | .a => fromA side price liquidity amount
  | .b => fromB side price liquidity amount

def available (side : Side) (remaining feeRate : Nat) : Outcome Nat :=
  match side with
  | .input => do
      let share ← sub SwapStep.feeUnit feeRate
      SwapStep.narrow (← mulDiv .down remaining share SwapStep.feeUnit)
  | .output => .ok remaining

def proportionalFee (amountIn feeRate : Nat) : Outcome Nat := do
  let share ← sub SwapStep.feeUnit feeRate
  SwapStep.narrow (← mulDiv .up amountIn feeRate share)

def compute (direction : Direction) (side : Side) (remaining feeRate liquidity current target : Nat) :
    Outcome SwapStep := do
  let specified := direction.token side
  let whole ← between specified (SwapStep.rounding side) current target liquidity
  let amount ← available side remaining feeRate
  let next ←
    if whole.IsAtMost amount then pure target
    else solve specified side current liquidity amount
  let computed ← exact specified.other (SwapStep.rounding side.other) current next liquidity
  let fixed ←
    if next = target ∧ !whole.isTooLarge then pure whole.saturated
    else exact specified (SwapStep.rounding side) current next liquidity
  match side with
  | .input =>
      let fee ←
        if next = target then proportionalFee fixed feeRate
        else if fixed ≤ remaining then pure (remaining - fixed)
        else throw (.error .amountRemainingOverflow)
      return ⟨fixed, computed, next, fee⟩
  | .output =>
      let fee ← proportionalFee computed feeRate
      return ⟨computed, min fixed remaining, next, fee⟩

theorem shift_word_refines (n : Nat) : shiftWord n =
    if FitsBits 256 (n * SqrtPrice.unit) then .ok (n * SqrtPrice.unit)
    else .error (.error .multiplicationOverflow) := by
  have width : FitsBits 256 (n * SqrtPrice.unit) ↔ FitsBits 192 n := by
    rw [FitsBits, show wordCount 256 = wordCount 192 * SqrtPrice.unit from Nat.pow_add 2 192 64]
    exact Nat.mul_lt_mul_right (by decide)
  unfold shiftWord
  by_cases fits : FitsBits 192 n
  · rw [if_neg (not_not.mpr fits), if_pos (width.mpr fits), shift_left_exact fits (by decide) (by decide)]
    rfl
  · rw [if_pos fits, if_neg (fun wide => fits (width.mp wide))]
    rfl

theorem between_b_refines (rounding : Rounding) (p q liquidity : Nat) :
    betweenB rounding p q liquidity = .ok (TokenDelta.betweenB rounding p q liquidity) := by
  unfold betweenB TokenDelta.betweenB
  rw [sub, or_abort_bind (le_trans (min_le_left p q) (le_max_left p q)), mul_shift_refines]
  cases PoolQuote.mulShift rounding liquidity (max p q - min p q) <;> rfl

section Fits

variable {p q liquidity : Nat} (first : FitsBits 128 p) (second : FitsBits 128 q) (liquid : FitsBits 128 liquidity)

include first second liquid

theorem between_a_refines (rounding : Rounding) :
    betweenA rounding p q liquidity = liftM (TokenDelta.betweenA rounding p q liquidity) := by
  have upper : FitsBits 128 (max p q) := max_lt first second
  have lower : FitsBits 128 (min p q) := upper.of_le (le_trans (min_le_left p q) (le_max_left p q))
  have distance : FitsBits 128 (max p q - min p q) := upper.of_le (Nat.sub_le _ _)
  unfold betweenA TokenDelta.betweenA
  dsimp only
  rw [sub, or_abort_bind (le_trans (min_le_left p q) (le_max_left p q)), wrapping_mul_exact liquid distance,
    wrapping_mul_exact upper lower, shift_word_refines]
  by_cases wide : FitsBits 256 (liquidity * (max p q - min p q) * SqrtPrice.unit)
  · rw [if_pos wide, if_neg (not_not.mpr wide)]
    change divide 256 rounding _ _ >>= _ = _
    rw [divide_refines rounding _ wide, PoolQuote.divide]
    by_cases zero : max p q * min p q = 0
    · rw [if_pos zero, if_pos zero]
      rfl
    · rw [if_neg zero, if_neg zero]
      rfl
  · rw [if_neg wide, if_pos wide]
    rfl

theorem between_refines (token : Token) (rounding : Rounding) :
    between token rounding p q liquidity = liftM (TokenDelta.between token rounding p q liquidity) := by
  cases token with
  | a => exact between_a_refines first second liquid rounding
  | b => exact between_b_refines rounding p q liquidity

theorem exact_refines (token : Token) (rounding : Rounding) :
    exact token rounding p q liquidity = liftM (TokenDelta.exact token rounding p q liquidity) :=
  bind_eq_lift (between_refines first second liquid token rounding) fun _ _ => rfl

end Fits

theorem price_refines {numerator denominator : Nat} (wide : FitsBits 256 numerator) :
    (divide 256 .up numerator denominator >>= fun next =>
      if FitsBits 128 next then liftM (NextPrice.checked next) else throw (.error .numberDownCast)) =
    liftM (if denominator = 0 then .error .divideByZero
      else if FitsBits 128 (Rounding.up.div numerator denominator) then
        NextPrice.checked (Rounding.up.div numerator denominator)
      else .error .numberDownCast : Except QuoteError Nat) := by
  rw [divide_refines .up denominator wide, PoolQuote.divide]
  by_cases zero : denominator = 0
  · rw [if_pos zero, if_pos zero]
    rfl
  · rw [if_neg zero, if_neg zero]
    change (if FitsBits 128 (Rounding.up.div numerator denominator) then _ else _) = _
    split <;> rfl

section Solve

variable {price liquidity amount : Nat} (priced : FitsBits 128 price) (liquid : FitsBits 128 liquidity)
  (small : FitsBits 64 amount)

include priced liquid small

theorem from_a_refines (side : Side) :
    fromA side price liquidity amount = liftM (NextPrice.fromA side price liquidity amount) := by
  have product : FitsBits 192 (price * amount) := priced.mul small
  have shifted : FitsBits 192 (liquidity * SqrtPrice.unit) := liquid.shift
  have unit : wordCount 64 = SqrtPrice.unit := rfl
  unfold fromA NextPrice.fromA
  by_cases none : amount = 0
  · rw [if_pos none, if_pos none]
    rfl
  · rw [if_neg none, if_neg none, wrapping_mul_exact priced (small.mono (by decide)), wrapping_mul_exact liquid priced,
      shift_word_refines]
    dsimp only
    by_cases wide : FitsBits 256 (liquidity * price * SqrtPrice.unit)
    · rw [if_pos wide, if_neg (not_not.mpr wide), ok_bind, shift_left_exact liquid (by decide) (by decide), ok_bind, unit]
      generalize liquidity * SqrtPrice.unit = held at *
      generalize price * amount = moved at *
      cases side with
      | input =>
          have sum : FitsBits 256 (held + moved) := lt_of_lt_of_le (Nat.add_lt_add shifted product) (by decide)
          rw [if_neg (fun both => by cases both.1), if_neg (fun both => by cases both.1)]
          dsimp only
          rw [add, or_abort_bind sum]
          exact price_refines wide
      | output =>
          by_cases uncovered : held ≤ moved
          · rw [if_pos ⟨rfl, uncovered⟩, if_pos ⟨rfl, uncovered⟩]
            rfl
          · rw [if_neg (fun both => uncovered both.2), if_neg (fun both => uncovered both.2)]
            dsimp only
            rw [sub, or_abort_bind (le_of_lt (not_le.mp uncovered))]
            exact price_refines wide
    · rw [if_neg wide, if_pos wide]
      rfl

omit priced liquid in
theorem from_b_refines (side : Side) :
    fromB side price liquidity amount = liftM (NextPrice.fromB side price liquidity amount) := by
  have scaled : FitsBits 128 (amount * SqrtPrice.unit) := small.shift
  have unit : wordCount 64 = SqrtPrice.unit := rfl
  unfold fromB NextPrice.fromB
  rw [shift_left_exact small (by decide) (by decide), ok_bind, unit]
  cases side with
  | input =>
      refine bind_eq_lift (divide_refines .down liquidity scaled) fun delta _ => ?_
      split <;> rfl
  | output =>
      refine bind_eq_lift (divide_refines .up liquidity scaled) fun delta _ => ?_
      split <;> rfl

theorem solve_refines (token : Token) (side : Side) :
    solve token side price liquidity amount = liftM (NextPrice.solve token side price liquidity amount) := by
  cases token with
  | a => exact from_a_refines priced liquid small side
  | b => exact from_b_refines small side

end Solve

theorem share_fits (feeRate : Nat) : FitsBits 128 (SwapStep.feeUnit - feeRate) :=
  lt_of_le_of_lt (Nat.sub_le _ _) (by decide)

theorem available_refines {remaining feeRate : Nat} (small : FitsBits 64 remaining) (rate : feeRate ≤ SwapStep.feeUnit)
    (side : Side) : available side remaining feeRate = liftM (SwapStep.available side remaining feeRate) := by
  cases side with
  | input =>
      unfold available SwapStep.available
      dsimp only
      rw [sub, or_abort_bind rate]
      exact bind_eq_lift (mul_div_refines .down _ (small.mono (by decide)) (share_fits feeRate)) fun _ _ => rfl
  | output => rfl

theorem proportional_fee_refines {amountIn feeRate : Nat} (small : FitsBits 64 amountIn)
    (rate : feeRate ≤ SwapStep.feeUnit) :
    proportionalFee amountIn feeRate = liftM (SwapStep.proportionalFee amountIn feeRate) := by
  have charged : FitsBits 128 feeRate := lt_of_le_of_lt rate (by decide)
  unfold proportionalFee SwapStep.proportionalFee
  rw [sub, or_abort_bind rate]
  exact bind_eq_lift (mul_div_refines .up _ (small.mono (by decide)) charged) fun _ _ => rfl

theorem checked_fits {price next : Nat} (ok : NextPrice.checked price = .ok next) : FitsBits 128 next := by
  unfold NextPrice.checked at ok
  split at ok
  · cases ok
  · split at ok
    · cases ok
    · rename_i atMost
      cases Except.ok.inj ok
      exact lt_of_le_of_lt (not_lt.mp atMost) (by decide)

theorem solve_fits {token : Token} {side : Side} {price liquidity amount next : Nat} (priced : FitsBits 128 price)
    (ok : NextPrice.solve token side price liquidity amount = .ok next) : FitsBits 128 next := by
  cases token with
  | a =>
      unfold NextPrice.solve NextPrice.fromA at ok
      dsimp only at ok
      by_cases none : amount = 0
      · rw [if_pos none] at ok
        cases Except.ok.inj ok
        exact priced
      · rw [if_neg none] at ok
        obtain ⟨_, ok⟩ := else_ok ok
        obtain ⟨_, ok⟩ := else_ok ok
        obtain ⟨_, ok⟩ := else_ok ok
        exact checked_fits (then_ok ok).2
  | b =>
      unfold NextPrice.solve NextPrice.fromB at ok
      cases side with
      | input =>
          obtain ⟨delta, _, ok⟩ := bind_ok ok
          exact checked_fits (then_ok ok).2
      | output =>
          obtain ⟨delta, _, ok⟩ := bind_ok ok
          exact checked_fits (then_ok ok).2

theorem compute_refines {remaining feeRate liquidity current target : Nat} (d : Direction) (side : Side)
    (small : FitsBits 64 remaining) (rate : feeRate ≤ SwapStep.feeUnit) (liquid : FitsBits 128 liquidity)
    (first : FitsBits 128 current) (second : FitsBits 128 target) :
    compute d side remaining feeRate liquidity current target =
      liftM (SwapStep.compute d side remaining feeRate liquidity current target) := by
  unfold compute SwapStep.compute
  refine bind_eq_lift (between_refines first second liquid _ _) fun whole between => ?_
  refine bind_eq_lift (available_refines small rate side) fun amount available => ?_
  have within : FitsBits 64 amount := by
    cases side with
    | input => exact small.of_le (by rw [SwapStep.available_input_ok available]; exact SwapStep.net_le _ _)
    | output => exact small.of_le (Nat.le_of_eq (Except.ok.inj available).symm)
  refine bind_ite_eq_lift (fun _ => rfl) (fun _ => solve_refines first liquid within _ _) fun next reached => ?_
  have third : FitsBits 128 next := by
    split at reached
    · cases Except.ok.inj reached
      exact second
    · exact solve_fits first reached
  refine bind_eq_lift (exact_refines first third liquid _ _) fun computed unfixed => ?_
  refine bind_ite_eq_lift (fun _ => rfl) (fun _ => exact_refines first third liquid _ _) fun fixed reused => ?_
  have fixedFits := SwapStep.fixed_fits between reused
  cases side with
  | input =>
      dsimp only
      by_cases atTarget : next = target
      · rw [if_pos atTarget, if_pos atTarget]
        exact bind_eq_lift (proportional_fee_refines fixedFits rate) fun fee _ => rfl
      · rw [if_neg atTarget, if_neg atTarget]
        split <;> rfl
  | output => exact bind_eq_lift (proportional_fee_refines (TokenDelta.exact_fits unfixed) rate) fun fee _ => rfl

end Words

end PoolQuote
