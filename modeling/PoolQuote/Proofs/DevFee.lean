import PoolQuote.Quote.DevFee
import PoolQuote.Proofs.Resubmission
import PoolQuote.Proofs.WordArithmetic

/-!
A developer fee is taken from the amount paid in and from nowhere else: what the pool gets and the fee add up to
what the trader gives, and no sum of estimates leaves its word.
-/

set_option autoImplicit false

namespace PoolQuote

namespace Percentage

variable {share : Percentage}

theorem share_le (below : share.IsBelowOne) (amount : Nat) :
    amount * share.numerator.toNat / share.denominator.toNat ≤ amount := by
  apply Nat.div_le_of_le_mul
  rw [Nat.mul_comm]
  exact Nat.mul_le_mul_right amount (le_of_lt below.2)

theorem share_fits (below : share.IsBelowOne) (amount : BitVec 64) :
    FitsBits 64 (amount.toNat * share.numerator.toNat / share.denominator.toNat) :=
  lt_of_le_of_lt (share_le below _) amount.isLt

theorem dev_fee_ok_iff {amount fee : BitVec 64} : share.devFee amount = .ok fee ↔ share.IsBelowOne ∧
    fee.toNat = amount.toNat * share.numerator.toNat / share.denominator.toNat := by
  by_cases below : share.IsBelowOne
  · have fits := share_fits below amount
    simp only [devFee, below, not_true_eq_false, if_false, true_and, fits, if_true, Except.ok.injEq]
    rw [← BitVec.toNat_inj, fits.to_nat, eq_comm]
  · simp [devFee, below]

end Percentage

theorem saturating_sum_exact {x y z : BitVec 64} (fits : x.toNat + y.toNat ≤ z.toNat) :
    (saturatingSum x y).toNat = x.toNat + y.toNat := by
  have small : x.toNat + y.toNat ≤ wordMax 64 := le_trans fits (Nat.le_pred_of_lt z.isLt)
  rw [saturatingSum, min_eq_left small]
  exact FitsBits.to_nat (lt_of_le_of_lt fits z.isLt)

-- A quote and a developer fee that was taken before it.
def DevFeeQuote.including (plain : Quote) (devFee : BitVec 64) : DevFeeQuote where
  quote := { plain with
    amountIn := saturatingSum plain.amountIn devFee
    fee := saturatingSum plain.fee devFee }
  swapFee := plain.fee
  devFee := devFee

namespace QuoteRequest

variable {request : QuoteRequest} {share tolerance : Percentage}

def less (request : QuoteRequest) (share : Percentage) : QuoteRequest :=
  { request with
    amount := BitVec.ofNat 64 (request.amount.toNat -
      request.amount.toNat * share.numerator.toNat / share.denominator.toNat) }

theorem less_amount (request : QuoteRequest) (share : Percentage) : (request.less share).amount.toNat =
    request.amount.toNat - request.amount.toNat * share.numerator.toNat / share.denominator.toNat :=
  FitsBits.to_nat (lt_of_le_of_lt (Nat.sub_le _ _) request.amount.isLt)

theorem less_eq {devFee : BitVec 64} (taken : share.devFee request.amount = .ok devFee) :
    { request with amount := request.amount - devFee } = request.less share := by
  obtain ⟨below, fee⟩ := Percentage.dev_fee_ok_iff.mp taken
  have within : devFee.toNat ≤ request.amount.toNat := fee ▸ Percentage.share_le below _
  have amount : request.amount - devFee = (request.less share).amount := by
    apply BitVec.eq_of_toNat_eq
    rw [less_amount, BitVec.toNat_sub_of_le (BitVec.le_def.mpr within), fee]
  rw [amount]
  rfl

theorem dev_fee_quote_ok_iff {made : DevFeeQuote} : request.devFeeQuote share tolerance = .ok made ↔
    request.side = .input ∧ ∃ devFee plain, share.devFee request.amount = .ok devFee ∧
      (request.less share).quote tolerance = .ok plain ∧ made = .including plain devFee := by
  constructor
  · intro ok
    obtain ⟨devFee, taken, ok⟩ := bind_ok ok
    obtain ⟨input, ok⟩ := guard_ok ok
    obtain ⟨plain, quoted, ok⟩ := bind_ok ok
    rw [less_eq (lift_ok taken)] at quoted
    have side : request.side = .input := by
      cases side : request.side with
      | input => rfl
      | output => exact absurd side input
    exact ⟨side, devFee, plain, lift_ok taken, quoted, (Except.ok.inj ok).symm⟩
  · rintro ⟨side, devFee, plain, taken, quoted, rfl⟩
    refine bind_of_ok (lift_of_ok taken) ((if_neg (by simp [side])).trans (bind_of_ok ?_ rfl))
    rw [less_eq taken]
    exact quoted

structure Spends (request : QuoteRequest) (quote : Quote) : Prop where
  amount : quote.amount = request.amount
  within : quote.amountIn.toNat ≤ request.amount.toNat
  filled : quote.endSqrtPrice ≠ request.limit → quote.amountIn = request.amount
  fee : quote.fee.toNat ≤ quote.amountIn.toNat

theorem quote_spends {quote : Quote} (input : request.side = .input) (ok : request.quote tolerance = .ok quote) :
    request.Spends quote := by
  obtain ⟨estimate, amounts, simulated, _, rfl⟩ := quote_ok ok
  obtain ⟨limit, window, result, quoted⟩ := simulate_ok simulated
  obtain ⟨within, filled⟩ := swap_fills quoted.swapped
  obtain ⟨covers, _⟩ := swap_fee_covers quoted.swapped
  have side : (request.order limit).side = .input := input
  have paid : estimate.amountIn = result.amountOf (request.direction.token .input) := quoted.estimate .input
  have report := quoted.report
  rw [side] at within filled
  refine ⟨by rw [report]; rfl, by rw [paid]; exact within, fun short => ?_, ?_⟩
  · rw [paid]
    apply filled
    intro atLimit
    apply short
    rw [report]
    exact BitVec.eq_of_toNat_eq (atLimit.trans quoted.value)
  · rw [paid, show estimate.fee = result.totalFee by rw [report]; rfl]
    exact covers

end QuoteRequest

/-- A developer fee is taken off the amount first and counts as paid in and as a fee. -/
theorem dev_fee_quote_conserves_input (request : QuoteRequest) (share tolerance : Percentage) :
    ((∃ made, request.devFeeQuote share tolerance = .ok made) ↔
      (share.denominator ≠ 0 ∧ share.numerator.toNat < share.denominator.toNat) ∧ request.side = .input ∧
        ∃ plain, (request.less share).quote tolerance = .ok plain) ∧
    ∀ made plain, request.devFeeQuote share tolerance = .ok made →
      (request.less share).quote tolerance = .ok plain →
      made.devFee.toNat = request.amount.toNat * share.numerator.toNat / share.denominator.toNat ∧
      made.quote.amount.toNat + made.devFee.toNat = request.amount.toNat ∧
      made.quote.amountIn.toNat = plain.amountIn.toNat + made.devFee.toNat ∧
      made.quote.amountIn.toNat ≤ request.amount.toNat ∧
      (made.quote.endSqrtPrice ≠ request.limit → made.quote.amountIn = request.amount) ∧
      made.swapFee = plain.fee ∧
      made.quote.fee.toNat = made.swapFee.toNat + made.devFee.toNat ∧
      made.quote.fee.toNat ≤ made.quote.amountIn.toNat ∧
      made.quote = { plain with amountIn := made.quote.amountIn, fee := made.quote.fee } := by
  refine ⟨⟨?_, ?_⟩, ?_⟩
  · rintro ⟨made, ok⟩
    obtain ⟨input, devFee, plain, taken, quoted, _⟩ := QuoteRequest.dev_fee_quote_ok_iff.mp ok
    exact ⟨(Percentage.dev_fee_ok_iff.mp taken).1, input, plain, quoted⟩
  · rintro ⟨below, input, plain, quoted⟩
    have taken := Percentage.dev_fee_ok_iff.mpr ⟨below, (Percentage.share_fits below request.amount).to_nat⟩
    exact ⟨_, QuoteRequest.dev_fee_quote_ok_iff.mpr ⟨input, _, plain, taken, quoted, rfl⟩⟩
  · intro made plain ok quoted
    obtain ⟨input, devFee, same, taken, again, rfl⟩ := QuoteRequest.dev_fee_quote_ok_iff.mp ok
    cases Except.ok.inj (again.symm.trans quoted)
    obtain ⟨below, fee⟩ := Percentage.dev_fee_ok_iff.mp taken
    have spends : (request.less share).Spends plain := QuoteRequest.quote_spends input quoted
    have left : (request.less share).amount.toNat + devFee.toNat = request.amount.toNat := by
      rw [QuoteRequest.less_amount, fee]
      exact Nat.sub_add_cancel (Percentage.share_le below _)
    have within := spends.within
    have part := spends.fee
    -- What was estimated for the rest leaves room for the fee below the whole amount.
    have amountIn : (saturatingSum plain.amountIn devFee).toNat = plain.amountIn.toNat + devFee.toNat :=
      saturating_sum_exact (z := request.amount) (by omega)
    have total : (saturatingSum plain.fee devFee).toNat = plain.fee.toNat + devFee.toNat :=
      saturating_sum_exact (z := request.amount) (by omega)
    refine ⟨fee, ?_, amountIn, ?_, fun short => ?_, rfl, total, ?_, rfl⟩
    · rw [← left, ← spends.amount]
      rfl
    · exact le_of_eq_of_le amountIn (by omega)
    · apply BitVec.eq_of_toNat_eq
      rw [← left, ← spends.filled short]
      exact amountIn
    · exact le_of_eq_of_le total (le_of_le_of_eq (Nat.add_le_add_right part _) amountIn.symm)

theorem dev_fee_quote_conserves_input_sample : ∃ made plain,
    (Sample.request .aToB .input 1000000).devFeeQuote ⟨1, 3⟩ ⟨1, 100⟩ = .ok made ∧
      ((Sample.request .aToB .input 1000000).less ⟨1, 3⟩).quote ⟨1, 100⟩ = .ok plain ∧
      made.quote.endSqrtPrice ≠ defaultLimit .aToB ∧ made.devFee.toNat = 333333 ∧ made.quote.amountIn = 1000000 ∧
      made.quote.fee.toNat = plain.fee.toNat + 333333 := by
  have run : ((Sample.request .aToB .input 1000000).devFeeQuote ⟨1, 3⟩ ⟨1, 100⟩).toOption.map
      (fun made => decide (made.quote.endSqrtPrice = defaultLimit .aToB)) = some false := by decide +kernel
  obtain ⟨made, ok, away⟩ := exists_ok run
  have short := of_decide_eq_false away
  obtain ⟨accepted, conserved⟩ :=
    dev_fee_quote_conserves_input (Sample.request .aToB .input 1000000) ⟨1, 3⟩ ⟨1, 100⟩
  obtain ⟨_, _, plain, quoted⟩ := accepted.mp ⟨made, ok⟩
  obtain ⟨share, _, _, _, filled, swapFee, fee, _⟩ := conserved made plain ok quoted
  have third : made.devFee.toNat = 333333 := share
  exact ⟨made, plain, ok, quoted, short, third, filled short, by rw [fee, swapFee, third]⟩

end PoolQuote
