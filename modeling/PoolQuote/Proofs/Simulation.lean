import PoolQuote.Quote
import PoolQuote.Proofs.Replay

/-!
What a request has gone through that is quoted: its limit and its window have been accepted, its swap has
succeeded and the threshold has been met. The quote reports the result of the swap.
-/

set_option autoImplicit false

namespace PoolQuote

-- What a quote estimates for the amount paid in or paid out.
def Quote.estimate (quote : Quote) : Side → BitVec 64
  | .input => quote.amountIn
  | .output => quote.amountOut

theorem Window.touched_eq (w : Window) (journal : Journal) : w.touched journal =
    ((w.slots.map Slot.address).zipIdx.filter fun entry => decide (entry.2 ∈ journal.reads)).map Prod.fst := by
  rw [List.zipIdx_map, List.filter_map, List.map_map]
  rfl

namespace QuoteRequest

theorem instruction_arrays_congr {w w' : Window} {journal journal' : Journal}
    (touched : w'.touched journal' = w.touched journal)
    (head : w'.slots.head?.map Slot.address = w.slots.head?.map Slot.address) :
    instructionArrays w' journal' = instructionArrays w journal := by
  have addresses : w'.addresses journal' maxArrays = w.addresses journal maxArrays := by
    unfold Window.addresses
    rw [touched, head]
  unfold instructionArrays
  simp only [touched, addresses]

def order (request : QuoteRequest) (limit : SqrtPrice) : SwapOrder :=
  ⟨request.amount, limit, request.side, request.direction, request.timestamp.getD request.pool.rewardLastUpdated⟩

def report (request : QuoteRequest) (result : SwapResult) (tickArrays : Vector Key maxArrays) : Quote :=
  { amountIn := result.amountOf (request.direction.token .input)
    amountOut := result.amountOf (request.direction.token .output)
    endTick := result.nextTick
    endSqrtPrice := result.nextSqrtPrice
    fee := result.totalFee
    amount := request.amount
    side := request.side
    direction := request.direction
    threshold := request.threshold
    limit := request.limit
    tickArrays }

structure IsQuoted (request : QuoteRequest) (limit : SqrtPrice) (window : Window) (result : SwapResult)
    (quote : Quote) : Prop where
  value : limit.value = request.limit.toNat
  limited : request.direction.Leads request.pool.sqrtPrice.toNat limit.value
  positive : request.amount ≠ 0
  accepted : Window.ofSlots request.slots request.pool.tickSpacing request.direction = .ok window
  starts : window.StartsAt request.pool.tickCurrent.toInt
  swapped : (swap request.pool window (request.order limit) .blank).1 = .ok result
  threshold : request.checkThreshold quote.amountIn quote.amountOut = .ok ()
  arrays : instructionArrays window (swap request.pool window (request.order limit) .blank).2 = .ok quote.tickArrays
  report : quote = request.report result quote.tickArrays

theorem checked_limit_ok {request : QuoteRequest} {limit : SqrtPrice} (ok : request.checkedLimit = .ok limit) :
    limit.value = request.limit.toNat ∧ request.direction.Leads request.pool.sqrtPrice.toNat limit.value := by
  obtain ⟨price, read, ok⟩ := bind_ok ok
  obtain ⟨ahead, ok⟩ := guard_ok ok
  cases Except.ok.inj ok
  refine ⟨(SqrtPrice.of_nat_eq_ok_iff _ _).mp read, ?_⟩
  cases dir : request.direction with
  | aToB =>
      rw [dir] at ahead
      exact not_lt.mp fun passed => ahead (decide_eq_true passed)
  | bToA =>
      rw [dir] at ahead
      exact not_lt.mp fun passed => ahead (decide_eq_true passed)

theorem IsQuoted.estimate {request : QuoteRequest} {limit : SqrtPrice} {window : Window} {result : SwapResult}
    {quote : Quote} (quoted : request.IsQuoted limit window result quote) (side : Side) :
    quote.estimate side = result.amountOf (request.direction.token side) := by
  rw [quoted.report]
  cases side <;> rfl

theorem simulate_ok {request : QuoteRequest} {quote : Quote} (ok : request.simulate = .ok quote) :
    ∃ limit window result, request.IsQuoted limit window result quote := by
  unfold simulate at ok
  obtain ⟨limit, checked, ok⟩ := bind_ok ok
  obtain ⟨positive, ok⟩ := guard_ok ok
  obtain ⟨window, accepted, ok⟩ := bind_ok ok
  obtain ⟨starts, ok⟩ := guard_ok ok
  dsimp only at ok
  obtain ⟨result, swapped, ok⟩ := bind_ok ok
  obtain ⟨_, threshold, ok⟩ := bind_ok ok
  obtain ⟨arrays, listed, ok⟩ := bind_ok ok
  obtain ⟨value, limited⟩ := checked_limit_ok (lift_ok checked)
  cases Except.ok.inj ok
  refine ⟨limit, window, result, value, limited, positive, lift_ok accepted, not_not.mp starts, swapped,
    lift_ok threshold, lift_ok listed, ?_⟩
  unfold report
  cases request.direction <;> rfl

theorem checked_limit_of_leads {request : QuoteRequest} {limit : SqrtPrice} (value : limit.value = request.limit.toNat)
    (leads : request.direction.Leads request.pool.sqrtPrice.toNat limit.value) : request.checkedLimit = .ok limit := by
  have read : SqrtPrice.ofNat request.limit.toNat = .ok limit := (SqrtPrice.of_nat_eq_ok_iff _ _).mpr value
  rw [checkedLimit, read, ok_bind, if_neg]
  · rfl
  · cases dir : request.direction with
    | aToB =>
        rw [dir] at leads
        exact fun passed => not_lt.mpr leads (of_decide_eq_true passed)
    | bToA =>
        rw [dir] at leads
        exact fun passed => not_lt.mpr leads (of_decide_eq_true passed)

theorem IsQuoted.simulates {request : QuoteRequest} {limit : SqrtPrice} {window : Window} {result : SwapResult}
    {quote : Quote} (quoted : request.IsQuoted limit window result quote) : request.simulate = .ok quote := by
  obtain ⟨value, limited, positive, accepted, starts, swapped, threshold, arrays, made⟩ := quoted
  unfold simulate
  refine bind_of_ok (lift_of_ok (checked_limit_of_leads value limited)) ?_
  refine (if_neg positive).trans (bind_of_ok (lift_of_ok accepted) ?_)
  refine (if_neg (not_not.mpr starts)).trans (bind_of_ok swapped ?_)
  rw [made] at threshold ⊢
  unfold QuoteRequest.report QuoteRequest.order at *
  cases dir : request.direction with
  | aToB =>
      rw [dir] at threshold arrays
      exact bind_of_ok (lift_of_ok threshold) (bind_of_ok (lift_of_ok arrays) rfl)
  | bToA =>
      rw [dir] at threshold arrays
      exact bind_of_ok (lift_of_ok threshold) (bind_of_ok (lift_of_ok arrays) rfl)

end QuoteRequest

end PoolQuote
