import PoolQuote.Proofs.Fill
import PoolQuote.Proofs.Slippage

/-!
A quote that is submitted again. The threshold that a slippage tolerance sets lies on the safe side of the
estimate it is made from, so that the same pool meets it, and nothing else in a quote depends on the threshold.
-/

set_option autoImplicit false

namespace PoolQuote

-- What a request asks of the other side of its trade.
def Side.Admits (threshold amountIn amountOut : BitVec 64) : Side → Prop
  | .input => threshold.toNat ≤ amountOut.toNat
  | .output => amountIn.toNat ≤ threshold.toNat

theorem SwapAmounts.of_estimate_ok {amount amountIn amountOut : BitVec 64} {tolerance : Percentage} {side : Side}
    {amounts : SwapAmounts} (ok : ofEstimate amount amountIn amountOut tolerance side = .ok amounts) :
    amounts.amount = amount ∧ side.Admits amounts.threshold amountIn amountOut := by
  cases side with
  | input =>
      obtain ⟨threshold, widened, ok⟩ := bind_ok ok
      rw [← Except.ok.inj ok]
      exact ⟨rfl, Percentage.widen_down_le widened⟩
  | output =>
      obtain ⟨threshold, widened, ok⟩ := bind_ok ok
      rw [← Except.ok.inj ok]
      exact ⟨rfl, Percentage.le_widen_up widened⟩

namespace QuoteRequest

variable {request : QuoteRequest} {tolerance : Percentage} {quote : Quote}

theorem check_threshold_of_admits {amountIn amountOut : BitVec 64}
    (admits : request.side.Admits request.threshold amountIn amountOut) :
    request.checkThreshold amountIn amountOut = .ok () := by
  unfold checkThreshold
  cases side : request.side with
  | input =>
      rw [side] at admits
      exact if_neg (not_lt.mpr admits)
  | output =>
      rw [side] at admits
      exact if_neg (not_lt.mpr admits)

theorem IsQuoted.holds_to {limit : SqrtPrice} {window : Window} {result : SwapResult} {threshold : BitVec 64}
    (quoted : request.IsQuoted limit window result quote)
    (admits : request.side.Admits threshold quote.amountIn quote.amountOut) :
    { request with threshold }.IsQuoted limit window result { quote with threshold } where
  value := quoted.value
  limited := quoted.limited
  positive := quoted.positive
  accepted := quoted.accepted
  starts := quoted.starts
  swapped := quoted.swapped
  threshold := check_threshold_of_admits admits
  arrays := quoted.arrays
  report := congrArg (fun made : Quote => { made with threshold }) quoted.report

theorem quote_ok (ok : request.quote tolerance = .ok quote) : ∃ estimate amounts, request.simulate = .ok estimate ∧
    SwapAmounts.ofEstimate estimate.amount estimate.amountIn estimate.amountOut tolerance estimate.side =
      .ok amounts ∧ quote = { estimate with threshold := amounts.threshold } := by
  obtain ⟨estimate, simulated, ok⟩ := bind_ok ok
  obtain ⟨amounts, widened, ok⟩ := bind_ok ok
  refine ⟨estimate, amounts, simulated, widened, ?_⟩
  rw [← Except.ok.inj ok, (SwapAmounts.of_estimate_ok widened).1]

end QuoteRequest

/-- The threshold of a quote is one that the quoted trade itself meets. -/
theorem quote_survives_resubmission (request : QuoteRequest) (tolerance : Percentage) (quote : Quote)
    (quoted : request.quote tolerance = .ok quote) :
    { request with threshold := quote.threshold }.simulate = .ok quote ∧
      { request with threshold := quote.threshold }.quote tolerance = .ok quote := by
  obtain ⟨estimate, amounts, simulated, widened, rfl⟩ := QuoteRequest.quote_ok quoted
  obtain ⟨same, admits⟩ := SwapAmounts.of_estimate_ok widened
  obtain ⟨limit, window, result, accepted⟩ := QuoteRequest.simulate_ok simulated
  have side : estimate.side = request.side := by rw [accepted.report, QuoteRequest.report]
  rw [side] at admits
  have again := (accepted.holds_to admits).simulates
  refine ⟨again, bind_of_ok again (bind_of_ok widened ?_)⟩
  rw [same]
  rfl

theorem quote_survives_resubmission_sample : ∃ quote,
    (Sample.request .aToB .output 900000).quote ⟨1, 100⟩ = .ok quote ∧
      quote.amountIn.toNat = 903524 ∧ quote.threshold.toNat = 912559 ∧
      { Sample.request .aToB .output 900000 with threshold := quote.threshold }.simulate = .ok quote ∧
      { Sample.request .aToB .output 900000 with threshold := quote.threshold }.quote ⟨1, 100⟩ = .ok quote := by
  have run : ((Sample.request .aToB .output 900000).quote ⟨1, 100⟩).toOption.map
      (fun quote => (quote.amountIn.toNat, quote.threshold.toNat)) = some (903524, 912559) := by decide +kernel
  obtain ⟨quote, ok, amounts⟩ := exists_ok run
  obtain ⟨paid, raised⟩ := Prod.mk.inj amounts
  exact ⟨quote, ok, paid, raised, quote_survives_resubmission _ _ _ ok⟩

end PoolQuote
