import PoolQuote.Proofs.Replay

/-!
The causes with which a swap ends when it fails. It has no fault to find with the window but that a search has left it,
and it never asks for more than what remains of its amount: that failure is checked for in two places and met in
neither, whatever the pool, the window and the limit.
-/

set_option autoImplicit false

namespace PoolQuote

namespace NextPrice

theorem solve_input_covered {token : Token} {price liquidity amount next : Nat} (positive : 0 < price)
    (liquid : 0 < liquidity) (ok : solve token .input price liquidity amount = .ok next) :
    token.amount price next liquidity ≤ amount := by
  obtain ⟨some, forward, farthest⟩ := solve_input positive liquid ok
  exact (farthest next some forward).mpr (Direction.leads_refl _ _)

end NextPrice

namespace SwapStep

-- The target need not lie ahead: the way to it is taken only if the amount pays for it, and else the way to
-- the price that the amount is solved for.
theorem input_fixed_le {token : Token} {amount liquidity p target next fixed : Nat} {whole : TokenDelta}
    (start : 0 < p) (between : TokenDelta.between token .up p target liquidity = .ok whole)
    (reached : (if whole.IsAtMost amount then pure target
      else NextPrice.solve token .input p liquidity amount) = Except.ok next)
    (reused : (if next = target ∧ (!whole.isTooLarge) = true then pure whole.saturated
      else TokenDelta.exact token .up p next liquidity) = Except.ok fixed) : fixed ≤ amount := by
  have describes := TokenDelta.between_describes between
  have fixedEq := fixed_eq_round describes reused
  by_cases covered : whole.IsAtMost amount
  · rw [if_pos covered] at reached
    cases Except.ok.inj reached
    cases whole with
    | fits way =>
        rw [fixedEq, ← describes.1]
        exact covered
    | tooLarge cause => exact covered.elim
  · rw [if_neg covered] at reached
    have liquid := liquid_of_uncovered describes covered
    rw [fixedEq]
    exact Nat.ceil_le.mpr (NextPrice.solve_input_covered start liquid reached)

-- The two ways in which a step is charged: at the rate, or with all that the amount leaves over.
inductive IsCharged (side : Side) (remaining feeRate : Nat) (step : SwapStep) : Prop
  | rate (fee : step.fee = feeOn feeRate step.amountIn) (within : step.used side ≤ remaining)
  | rest (input : side = .input) (paid : step.amountIn ≤ net feeRate remaining)
      (all : step.used .input = remaining)

theorem IsCharged.used_le {side : Side} {remaining feeRate : Nat} {step : SwapStep}
    (charged : step.IsCharged side remaining feeRate) : step.used side ≤ remaining := by
  cases charged with
  | rate _ within => exact within
  | rest input _ all =>
      rw [input]
      exact le_of_eq all

theorem compute_charged {d : Direction} {side : Side} {remaining feeRate liquidity p target : Nat} {step : SwapStep}
    (start : 0 < p) (small : feeRate < feeUnit)
    (ok : compute d side remaining feeRate liquidity p target = .ok step) : step.IsCharged side remaining feeRate := by
  obtain ⟨whole, between, ok⟩ := bind_ok ok
  obtain ⟨amount, available, ok⟩ := bind_ok ok
  obtain ⟨next, reached, ok⟩ := bind_ite_ok ok
  obtain ⟨computed, _, ok⟩ := bind_ok ok
  obtain ⟨fixed, reused, ok⟩ := bind_ite_ok ok
  cases side with
  | input =>
      dsimp only at ok
      have paid := input_fixed_le start between reached reused
      rw [available_input_ok available] at paid
      by_cases atTarget : next = target
      · rw [if_pos atTarget] at ok
        obtain ⟨fee, proportional, ok⟩ := bind_ok ok
        cases Except.ok.inj ok
        have covered := (cost_le_iff small fixed remaining).mpr paid
        rw [cost, ← proportional_fee_ok proportional] at covered
        exact .rate (proportional_fee_ok proportional) covered
      · have within : fixed ≤ remaining := le_trans paid (net_le _ _)
        rw [if_neg atTarget, if_pos within] at ok
        cases Except.ok.inj ok
        exact .rest rfl paid (Nat.add_sub_cancel' within)
  | output =>
      obtain ⟨fee, proportional, ok⟩ := bind_ok ok
      cases Except.ok.inj ok
      exact .rate (proportional_fee_ok proportional) (Nat.min_le_right _ _)

end SwapStep

-- The causes with which a swap may end.
def QuoteError.arisesInSwap : QuoteError → Bool
  | .multiplicationOverflow | .mulDivOverflow | .mulShiftOverflow | .divideByZero | .numberDownCast
  | .tokenMaxExceeded | .tokenMinSubceeded | .amountCalcOverflow | .liquidityOverflow | .liquidityUnderflow
  | .invalidTickIndex _ | .sqrtPriceOutOfBounds | .tickArrayAbsent _ | .invalidSequence (.searchOutside _)
  | .invalidTimestamp _ _ => true
  | _ => false

section Foreign

variable {cause : QuoteError} (foreign : cause.arisesInSwap = false)

include foreign

theorem raised_ne {raised : QuoteError} (own : raised.arisesInSwap = true) : raised ≠ cause := by
  rintro rfl
  exact Bool.false_ne_true (foreign.symm.trans own)

theorem error_ne {α : Type} {raised : QuoteError} (own : raised.arisesInSwap = true) :
    (Except.error raised : Except QuoteError α) ≠ .error cause :=
  fun same => raised_ne foreign own (Except.error.inj same)

theorem mul_div_ne_foreign (rounding : Rounding) (a b d : Nat) :
    mulDiv rounding a b d ≠ .error cause :=
  ite_ne_error (error_ne foreign rfl) (ite_ne_error ok_ne_error (error_ne foreign rfl))

theorem mul_shift_ne_foreign (rounding : Rounding) (a b : Nat) :
    mulShift rounding a b ≠ .error cause :=
  ite_ne_error (ite_ne_error ok_ne_error (error_ne foreign rfl)) (error_ne foreign rfl)

namespace TokenDelta

theorem between_ne_foreign (token : Token) (rounding : Rounding) (p q liquidity : Nat) :
    between token rounding p q liquidity ≠ .error cause := by
  cases token with
  | a => exact ite_ne_error (error_ne foreign rfl) (ite_ne_error (error_ne foreign rfl) ok_ne_error)
  | b => exact ok_ne_error

theorem exact_ne_foreign (token : Token) (rounding : Rounding) (p q liquidity : Nat) :
    exact token rounding p q liquidity ≠ .error cause := by
  refine bind_ne_error (between_ne_foreign foreign token rounding p q liquidity) fun delta read => ?_
  cases token with
  | a =>
      simp only [between, betweenA] at read
      split at read
      · cases read
      · split at read
        · cases read
        · cases read
          split
          · exact ok_ne_error
          · exact error_ne foreign rfl
  | b =>
      cases read
      cases product : mulShift rounding liquidity (max p q - min p q) with
      | ok amount =>
          rw [betweenB, product]
          exact ok_ne_error
      | error raised =>
          rw [betweenB, product]
          intro same
          cases Except.error.inj same
          exact mul_shift_ne_foreign foreign _ _ _ product

end TokenDelta

namespace NextPrice

theorem checked_ne_foreign (price : Nat) : checked price ≠ .error cause :=
  ite_ne_error (error_ne foreign rfl) (ite_ne_error (error_ne foreign rfl) ok_ne_error)

theorem solve_ne_foreign (token : Token) (side : Side) (price liquidity amount : Nat) :
    solve token side price liquidity amount ≠ .error cause := by
  cases token with
  | a =>
      exact ite_ne_error ok_ne_error (ite_ne_error (error_ne foreign rfl) (ite_ne_error (error_ne foreign rfl)
        (ite_ne_error (error_ne foreign rfl) (ite_ne_error (checked_ne_foreign foreign _) (error_ne foreign rfl)))))
  | b =>
      cases side with
      | input =>
          exact bind_ne_error (ite_ne_error (error_ne foreign rfl) ok_ne_error) fun _ _ =>
            ite_ne_error (checked_ne_foreign foreign _) (error_ne foreign rfl)
      | output =>
          exact bind_ne_error (ite_ne_error (error_ne foreign rfl) ok_ne_error) fun _ _ =>
            ite_ne_error (checked_ne_foreign foreign _) (error_ne foreign rfl)

end NextPrice

namespace SwapStep

theorem narrow_ne_foreign (n : Nat) : narrow n ≠ .error cause :=
  ite_ne_error ok_ne_error (error_ne foreign rfl)

theorem available_ne_foreign (side : Side) (remaining feeRate : Nat) :
    available side remaining feeRate ≠ .error cause := by
  cases side with
  | input => exact bind_ne_error (mul_div_ne_foreign foreign _ _ _ _) fun n _ => narrow_ne_foreign foreign n
  | output => exact ok_ne_error

theorem proportional_fee_ne_foreign (amount feeRate : Nat) :
    proportionalFee amount feeRate ≠ .error cause :=
  bind_ne_error (mul_div_ne_foreign foreign _ _ _ _) fun n _ => narrow_ne_foreign foreign n

theorem compute_ne_foreign (d : Direction) (side : Side) (remaining feeRate liquidity : Nat) {p target : Nat}
    (start : 0 < p) : compute d side remaining feeRate liquidity p target ≠ .error cause := by
  refine bind_ne_error (TokenDelta.between_ne_foreign foreign _ _ _ _ _) fun whole between => ?_
  refine bind_ne_error (available_ne_foreign foreign _ _ _) fun amount available => ?_
  refine bind_ite_ne_error (ite_ne_error ok_ne_error (NextPrice.solve_ne_foreign foreign _ _ _ _ _)) fun next reached => ?_
  refine bind_ne_error (TokenDelta.exact_ne_foreign foreign _ _ _ _ _) fun computed _ => ?_
  refine bind_ite_ne_error (ite_ne_error ok_ne_error (TokenDelta.exact_ne_foreign foreign _ _ _ _ _)) fun fixed reused => ?_
  cases side with
  | input =>
      dsimp only
      by_cases atTarget : next = target
      · rw [if_pos atTarget]
        exact bind_ne_error (proportional_fee_ne_foreign foreign _ _) fun _ _ => ok_ne_error
      · have within : fixed ≤ remaining := by
          have paid := input_fixed_le start between reached reused
          rw [available_input_ok available] at paid
          exact le_trans paid (net_le _ _)
        rw [if_neg atTarget, if_pos within]
        exact ok_ne_error
  | output => exact bind_ne_error (proportional_fee_ne_foreign foreign _ _) fun _ _ => ok_ne_error

end SwapStep

namespace SqrtPrice

theorem of_nat_ne_foreign (n : Nat) : ofNat n ≠ .error cause := by
  unfold ofNat
  split
  · exact ok_ne_error
  · exact error_ne foreign rfl

theorem of_tick_ne_foreign (t : Int) : ofTick t ≠ .error cause :=
  bind_ne_error (ite_ne_error ok_ne_error (error_ne foreign rfl)) fun n _ => of_nat_ne_foreign foreign n

end SqrtPrice

namespace SwapState

theorem take_amounts_ne_foreign {state : SwapState} {side : Side} {step : SwapStep}
    (within : step.used side ≤ state.remaining) :
    state.takeAmounts side step ≠ .error cause := by
  have covered : ¬ state.remaining < step.used side := not_lt.mpr within
  cases side <;> exact guard_ne_error (fun _ => raised_ne foreign rfl) fun _ =>
    guard_ne_error (fun short => absurd short covered) fun _ =>
      guard_ne_error (fun _ => raised_ne foreign rfl) fun _ => ok_ne_error

theorem start_ne_foreign (pool : Pool) (order : SwapOrder) : start pool order ≠ .error cause :=
  bind_ne_error (SqrtPrice.of_nat_ne_foreign foreign _) fun _ _ => ok_ne_error

theorem take_fee_ne_foreign (state : SwapState) (fee rate : Nat) :
    state.takeFee fee rate ≠ .error cause :=
  guard_ne_error (fun _ => raised_ne foreign rfl) fun _ => ok_ne_error

theorem cross_liquidity_ne_foreign (liquidity : Nat) (net : Signed 128) (d : Direction) :
    crossLiquidity liquidity net d ≠ .error cause :=
  guard_ne_error (fun _ => raised_ne foreign rfl) fun _ => guard_ne_error (fun _ => raised_ne foreign rfl) fun _ =>
    guard_ne_error (fun _ => raised_ne foreign rfl) fun _ => ok_ne_error

end SwapState

namespace SwapSetting

variable (setting : SwapSetting)

theorem arrive_ne_foreign (state : SwapState) (stop : Window.Stop) :
    setting.arrive state stop ≠ .error cause := by
  obtain ⟨index, tick⟩ := stop
  cases tick with
  | none => exact ok_ne_error
  | some record => exact bind_ne_error (SwapState.cross_liquidity_ne_foreign foreign _ _ _) fun _ _ => ok_ne_error

theorem leg_ne_foreign (state : SwapState) (stop : Window.Stop) :
    setting.leg state stop ≠ .error cause := by
  have start : 0 < state.price.value := state.price.value_pos
  refine bind_ne_error (SqrtPrice.of_tick_ne_foreign foreign _) fun tickPrice _ => ?_
  refine bind_ne_error (SwapStep.compute_ne_foreign foreign _ _ _ _ _ start) fun step computed => ?_
  have within := (SwapStep.compute_charged start (SwapStep.fee_rate_lt _) computed).used_le
  refine bind_ne_error (SqrtPrice.of_nat_ne_foreign foreign _) fun price _ => ?_
  refine bind_ne_error (SwapState.take_amounts_ne_foreign foreign within) fun paid _ => ?_
  refine bind_ne_error (SwapState.take_fee_ne_foreign foreign _ _ _) fun charged _ => ?_
  split
  · exact bind_ne_error (arrive_ne_foreign foreign setting _ _) fun _ _ => ok_ne_error
  · exact ok_ne_error

theorem trail_ne_foreign (n : Nat) (state : SwapState) :
    (setting.trail n state).ending ≠ .failed (.error cause) := by
  induction n generalizing state with
  | zero =>
      unfold trail
      split <;> simp
  | succ n ih =>
      unfold trail
      split
      · simp
      · dsimp only
        split
        · rename_i failure search
          intro fails
          cases SwapEnding.failed.inj fails
          rcases setting.window.next_initialized_error search with ⟨_, rfl⟩ | ⟨_, rfl⟩ <;> cases foreign
        · split
          · rename_i raised moved
            intro fails
            cases SwapEnding.failed.inj fails
            exact leg_ne_foreign foreign setting _ _ moved
          · exact ih _

end SwapSetting

theorem Pool.rewards_at_ne_foreign (pool : Pool) (time : BitVec 64) :
    pool.rewardsAt time ≠ .error cause :=
  ite_ne_error (error_ne foreign rfl) (ite_ne_error ok_ne_error ok_ne_error)

theorem swap_ne_foreign (pool : Pool) (window : Window) (order : SwapOrder) (journal : Journal) :
    (swap pool window order journal).1 ≠ .error (.error cause) := by
  unfold swap
  split
  · rename_i raised accrued
    intro fails
    cases Except.error.inj fails
    exact Pool.rewards_at_ne_foreign foreign pool _ accrued
  · split
    · rename_i raised started
      intro fails
      cases Except.error.inj fails
      exact SwapState.start_ne_foreign foreign pool order started
    · dsimp only
      split
      · exact ok_ne_error
      · rename_i failure ending
        intro fails
        cases Except.error.inj fails
        exact SwapSetting.trail_ne_foreign foreign _ _ _ ending
      · simp

end Foreign

theorem SwapStep.compute_ne_overdraw (d : Direction) (side : Side) (remaining feeRate liquidity : Nat) {p target : Nat}
    (start : 0 < p) : compute d side remaining feeRate liquidity p target ≠ .error .amountRemainingOverflow :=
  compute_ne_foreign rfl d side remaining feeRate liquidity start

theorem swap_never_overdraws (pool : Pool) (window : Window) (order : SwapOrder) (journal : Journal) :
    (swap pool window order journal).1 ≠ .error (.error .amountRemainingOverflow) :=
  swap_ne_foreign rfl pool window order journal

end PoolQuote
