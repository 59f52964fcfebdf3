import PoolQuote.Proofs.Overdraw
import PoolQuote.Proofs.Simulation
import PoolQuote.Proofs.SwapPath

/-!
A quote fills its amount unless its limit stops it, and it never takes more. Its fee is a part of what is paid
in and covers the pool's rate on all of it.
-/

set_option autoImplicit false

namespace PoolQuote

namespace SwapStep

section Covers

variable {feeRate : Nat} (small : feeRate < feeUnit)

include small

theorem fee_on_covers (amount : Nat) : cost feeRate amount * feeRate ≤ feeOn feeRate amount * feeUnit := by
  have fee : amount * feeRate ≤ feeOn feeRate amount * (feeUnit - feeRate) :=
    (Rounding.up_div_le_iff _ _ _ (Nat.sub_pos_of_lt small)).mp (le_refl _)
  calc
    cost feeRate amount * feeRate = amount * feeRate + feeOn feeRate amount * feeRate := Nat.add_mul _ _ _
    _ ≤ feeOn feeRate amount * (feeUnit - feeRate) + feeOn feeRate amount * feeRate := Nat.add_le_add_right fee _
    _ = feeOn feeRate amount * feeUnit := by rw [← Nat.mul_add, Nat.sub_add_cancel (le_of_lt small)]

-- The rounding of the net amount only adds to what is left over.
theorem rest_covers {amount remaining : Nat} (paid : amount ≤ net feeRate remaining) :
    remaining * feeRate ≤ (remaining - amount) * feeUnit := by
  have share : amount * feeUnit ≤ remaining * (feeUnit - feeRate) := (Nat.le_div_iff_mul_le (by decide)).mp paid
  calc
    remaining * feeRate = remaining * feeUnit - remaining * (feeUnit - feeRate) := by
      rw [← Nat.mul_sub, Nat.sub_sub_self (le_of_lt small)]
    _ ≤ remaining * feeUnit - amount * feeUnit := Nat.sub_le_sub_left share _
    _ = (remaining - amount) * feeUnit := (Nat.sub_mul _ _ _).symm

theorem IsCharged.covers {side : Side} {remaining : Nat} {step : SwapStep}
    (charged : step.IsCharged side remaining feeRate) : step.used .input * feeRate ≤ step.fee * feeUnit := by
  cases charged with
  | rate fee _ =>
      rw [used, fee]
      exact fee_on_covers small step.amountIn
  | rest _ paid all =>
      have left : remaining - step.amountIn = step.fee := by rw [← all, used, Nat.add_sub_cancel_left]
      rw [all, ← left]
      exact rest_covers small paid

end Covers

end SwapStep

theorem SwapLeg.fees_le_total (legs : List SwapLeg) : fees legs ≤ total legs .input := by
  induction legs with
  | nil => exact le_refl _
  | cons leg legs ih =>
      rw [fees_cons, total_cons]
      exact Nat.add_le_add (Nat.le_add_left _ _) ih

namespace SwapSetting

variable {setting : SwapSetting}

theorem IsTurn.charged {leg : SwapLeg} (turn : setting.IsTurn leg) :
    leg.step.IsCharged setting.order.side leg.before.remaining setting.pool.feeRate.toNat := by
  obtain ⟨tickPrice, _, computed⟩ := turn.computes.step
  exact SwapStep.compute_charged leg.before.price.value_pos (SwapStep.fee_rate_lt _) computed

theorem Replay.covers {state last : SwapState} {legs : List SwapLeg} (replay : setting.Replay state legs last) :
    SwapLeg.total legs .input * setting.pool.feeRate.toNat ≤ SwapLeg.fees legs * SwapStep.feeUnit := by
  induction replay with
  | rest state => exact Nat.le_of_eq (Nat.zero_mul _)
  | turn leg legs last step _ ih =>
      rw [SwapLeg.total_cons, SwapLeg.fees_cons, Nat.add_mul, Nat.add_mul]
      exact Nat.add_le_add (step.charged.covers (SwapStep.fee_rate_lt _)) ih

end SwapSetting

section Swap

variable {pool : Pool} {window : Window} {order : SwapOrder} {journal : Journal} {result : SwapResult}
  (ok : (swap pool window order journal).1 = .ok result)

include ok

theorem swap_fills : (result.amountOf (order.direction.token order.side)).toNat ≤ order.amount.toNat ∧
    (result.nextSqrtPrice.toNat ≠ order.limit.value →
      result.amountOf (order.direction.token order.side) = order.amount) := by
  obtain ⟨start, last, _, _, _, done, accounts⟩ := swap_replay ok
  have used := accounts.amount order.side
  have spent := accounts.spent
  refine ⟨by omega, fun short => ?_⟩
  have nothing : last.remaining = 0 := by
    refine done.resolve_right fun limit => short ?_
    rw [accounts.price, limit]
  exact BitVec.eq_of_toNat_eq (by omega)

theorem swap_fee_covers : result.totalFee.toNat ≤ (result.amountOf (order.direction.token .input)).toNat ∧
    (result.amountOf (order.direction.token .input)).toNat * pool.feeRate.toNat ≤
      result.totalFee.toNat * SwapStep.feeUnit := by
  obtain ⟨start, last, _, _, replay, _, accounts⟩ := swap_replay ok
  rw [accounts.amount, accounts.fee]
  exact ⟨SwapLeg.fees_le_total _, replay.covers⟩

end Swap

/-- What is left of an amount never runs below zero, and a trade that ends before its limit leaves nothing. -/
theorem quote_fills_and_covers_fee :
    (∀ (pool : Pool) (window : Window) (order : SwapOrder) (journal : Journal),
      (swap pool window order journal).1 ≠ .error (.error .amountRemainingOverflow)) ∧
    (∀ (setting : SwapSetting) (n : Nat) (state : SwapState),
      (setting.trail n state).ending ≠ .failed (.error .amountRemainingOverflow)) ∧
    ∀ (request : QuoteRequest) (quote : Quote), request.simulate = .ok quote →
      (quote.estimate request.side).toNat ≤ request.amount.toNat ∧
      (quote.endSqrtPrice ≠ request.limit → quote.estimate request.side = request.amount) ∧
      quote.fee.toNat ≤ quote.amountIn.toNat ∧
      quote.amountIn.toNat * request.pool.feeRate.toNat ≤ quote.fee.toNat * 1000000 := by
  refine ⟨swap_never_overdraws, SwapSetting.trail_ne_foreign rfl, fun request quote ok => ?_⟩
  obtain ⟨limit, window, result, quoted⟩ := QuoteRequest.simulate_ok ok
  obtain ⟨within, filled⟩ := swap_fills quoted.swapped
  obtain ⟨part, covers⟩ := swap_fee_covers quoted.swapped
  rw [quoted.estimate]
  have paid : quote.amountIn = result.amountOf (request.direction.token .input) := quoted.estimate .input
  have fee : quote.fee = result.totalFee := by rw [quoted.report, QuoteRequest.report]
  have price : quote.endSqrtPrice = result.nextSqrtPrice := by rw [quoted.report, QuoteRequest.report]
  rw [paid, fee, price]
  refine ⟨within, fun short => filled fun atLimit => short ?_, part, covers⟩
  exact BitVec.eq_of_toNat_eq (atLimit.trans quoted.value)

def Sample.request (d : Direction) (side : Side) (amount : BitVec 64) : QuoteRequest :=
  { pool := Sample.pool, slots := Sample.slots d, amount, limit := defaultLimit d, threshold := defaultThreshold side,
    direction := d, side, timestamp := none }

def Sample.address (byte : UInt8) : Key :=
  ⟨Vector.replicate 32 byte⟩

theorem quote_fills_and_covers_fee_sample : ∃ quote,
    (Sample.request .aToB .output 900000).simulate = .ok quote ∧ quote.endSqrtPrice ≠ defaultLimit .aToB ∧
      quote.amountIn.toNat = 903524 ∧ quote.fee.toNat = 2712 ∧ quote.amountOut = 900000 ∧
      quote.fee.toNat ≤ quote.amountIn.toNat ∧ quote.amountIn.toNat * 3000 ≤ quote.fee.toNat * 1000000 := by
  have run : (Sample.request .aToB .output 900000).simulate.toOption.map
      (fun quote => (quote.endSqrtPrice, quote.amountIn.toNat, quote.fee.toNat)) =
        some (18430136282914049431, 903524, 2712) := by decide +kernel
  obtain ⟨quote, ok, amounts⟩ := exists_ok run
  obtain ⟨price, paid, fee⟩ := And.imp_right Prod.mk.inj (Prod.mk.inj amounts)
  have away : quote.endSqrtPrice ≠ defaultLimit .aToB := by
    rw [price]
    decide
  obtain ⟨_, filled, part, covers⟩ := quote_fills_and_covers_fee.2.2 _ _ ok
  exact ⟨quote, ok, away, paid, fee, filled away, part, covers⟩

end PoolQuote
