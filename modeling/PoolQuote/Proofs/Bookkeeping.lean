import PoolQuote.Proofs.Alike
import PoolQuote.Proofs.Fill
import PoolQuote.Proofs.RewardAccrual

/-!
What a quote does not depend on. Fee growth, the protocol's share, rewards and the growths outside of ticks are kept
beside the amounts of a swap and never flow into them: two swaps that differ in these alone take the same legs, read
the same arrays and fail alike, and so do the quotes made from them.
-/

set_option autoImplicit false

namespace PoolQuote

-- Pools that differ in their bookkeeping at most.
structure Pool.Alike (pool pool' : Pool) : Prop where
  tickSpacing : pool.tickSpacing = pool'.tickSpacing
  feeRate : pool.feeRate = pool'.feeRate
  liquidity : pool.liquidity = pool'.liquidity
  sqrtPrice : pool.sqrtPrice = pool'.sqrtPrice
  tickCurrent : pool.tickCurrent = pool'.tickCurrent

structure SwapOrder.Alike (order order' : SwapOrder) : Prop where
  amount : order.amount = order'.amount
  limit : order.limit = order'.limit
  side : order.side = order'.side
  direction : order.direction = order'.direction

namespace SwapState

structure Alike (state state' : SwapState) : Prop where
  remaining : state.remaining = state'.remaining
  calculated : state.calculated = state'.calculated
  price : state.price = state'.price
  tick : state.tick = state'.tick
  liquidity : state.liquidity = state'.liquidity
  totalFee : state.totalFee = state'.totalFee

theorem start_alike {pool pool' : Pool} {order order' : SwapOrder} (pools : pool.Alike pool')
    (orders : order.Alike order') : Matches Alike (start pool order) (start pool' order') := by
  unfold start
  rw [pools.sqrtPrice]
  refine .bind (.refl _) fun price price' same => .ok _ _ ?_
  exact ⟨congrArg BitVec.toNat orders.amount, rfl, same, congrArg Signed.toInt pools.tickCurrent,
    congrArg BitVec.toNat pools.liquidity, rfl⟩

section States

variable {state state' : SwapState} (alike : state.Alike state')

include alike

theorem take_amounts_alike (side : Side) (step : SwapStep) :
    Matches Alike (state.takeAmounts side step) (state'.takeAmounts side step) := by
  unfold takeAmounts
  rw [alike.remaining, alike.calculated]
  refine .guard Iff.rfl ?_
  refine .guard Iff.rfl (.guard Iff.rfl (.ok _ _ ?_))
  exact ⟨rfl, rfl, alike.price, alike.tick, alike.liquidity, alike.totalFee⟩

theorem take_fee_alike (fee rate rate' : Nat) : Matches Alike (state.takeFee fee rate) (state'.takeFee fee rate') := by
  unfold takeFee
  rw [alike.totalFee]
  refine .guard Iff.rfl (.ok _ _ ?_)
  exact ⟨alike.remaining, alike.calculated, alike.price, alike.tick, alike.liquidity, rfl⟩

end States

end SwapState

namespace SwapEnding

inductive Alike : SwapEnding → SwapEnding → Prop
  | done {state state' : SwapState} (states : state.Alike state') : Alike (.done state) (.done state')
  | failed (cause : Failure) : Alike (.failed cause) (.failed cause)

end SwapEnding

structure SwapTrail.Alike (trail trail' : SwapTrail) : Prop where
  reads : trail.reads = trail'.reads
  ending : trail.ending.Alike trail'.ending

namespace SwapSetting

structure Alike (setting setting' : SwapSetting) : Prop where
  pool : setting.pool.Alike setting'.pool
  window : setting.window.Alike setting'.window
  order : setting.order.Alike setting'.order

section Settings

variable {setting setting' : SwapSetting} (alike : setting.Alike setting') {state state' : SwapState}

include alike

theorem target_alike (tickPrice : SqrtPrice) : setting.target tickPrice = setting'.target tickPrice := by
  simp only [target, alike.order.limit, alike.order.direction]

theorem is_done_alike (states : state.Alike state') : setting.IsDone state ↔ setting'.IsDone state' := by
  simp only [IsDone, states.remaining, states.price, alike.order.limit]

theorem arrive_alike (states : state.Alike state') {stop stop' : Window.Stop} (stops : stop.Alike stop') :
    Matches (fun arrived arrived' => arrived.1.Alike arrived'.1) (setting.arrive state stop)
      (setting'.arrive state' stop') := by
  have net := stops.net
  unfold arrive
  rw [alike.order.direction, stops.index]
  cases here : stop.tick with
  | none =>
      rw [here] at net
      rw [Option.map_eq_none_iff.mp net.symm]
      refine .ok _ _ ?_
      exact { states with tick := rfl }
  | some tick =>
      rw [here] at net
      obtain ⟨tick', there, same⟩ := Option.map_eq_some_iff.mp net.symm
      rw [there]
      dsimp only
      rw [states.liquidity, same]
      refine .bind (.refl _) fun liquidity liquidity' crossed => .ok _ _ ?_
      exact { states with tick := rfl, liquidity := crossed }

theorem leg_alike (states : state.Alike state') {stop stop' : Window.Stop} (stops : stop.Alike stop') :
    Matches (fun leg leg' => leg.after.Alike leg'.after) (setting.leg state stop) (setting'.leg state' stop') := by
  unfold leg
  dsimp only
  rw [stops.index, alike.order.direction, alike.order.side, alike.pool.feeRate, states.remaining, states.liquidity,
    states.price]
  refine .bind (.refl _) fun tickPrice _ same => ?_
  subst same
  rw [target_alike alike]
  refine .bind (.refl _) fun step _ same => ?_
  subst same
  refine .bind (.refl _) fun price _ same => ?_
  subst same
  refine .bind (SwapState.take_amounts_alike states _ step) fun paid paid' paidAlike => ?_
  refine .bind (SwapState.take_fee_alike paidAlike step.fee _ _) fun charged charged' chargedAlike => ?_
  split
  · refine .bind (arrive_alike alike chargedAlike stops) fun arrived arrived' arrivedAlike => .ok _ _ ?_
    exact { arrivedAlike with price := rfl }
  · refine .ok _ _ ?_
    exact { chargedAlike with price := rfl, tick := by rw [states.tick] }

theorem search_alike (states : state.Alike state') :
    (setting.window.nextInitialized state.tick).reads = (setting'.window.nextInitialized state'.tick).reads ∧
      Matches Window.Stop.Alike (setting.window.nextInitialized state.tick).outcome
        (setting'.window.nextInitialized state'.tick).outcome := by
  rw [states.tick]
  exact alike.window.next_initialized state'.tick

-- Two runs side by side, turn by turn: they read the same and end alike.
theorem exists_run_alike {trail : SwapTrail} (runs : setting.Runs state trail) (states : state.Alike state') :
    ∃ trail', setting'.Runs state' trail' ∧ trail.Alike trail' := by
  induction runs generalizing state' with
  | done state finished =>
      have finished' := (is_done_alike alike states).mp finished
      exact ⟨_, .done state' finished', rfl, .done states⟩
  | lost state failure underWay search =>
      have underWay' := (not_congr (is_done_alike alike states)).mp underWay
      obtain ⟨reads, outcome⟩ := search_alike alike states
      rw [search] at outcome
      exact ⟨_, .lost state' failure underWay' outcome.of_error, reads, .failed failure⟩
  | refused state stop cause underWay search leg =>
      have underWay' := (not_congr (is_done_alike alike states)).mp underWay
      obtain ⟨reads, outcome⟩ := search_alike alike states
      rw [search] at outcome
      obtain ⟨stop', search', stops⟩ := outcome.of_ok
      have legs := leg_alike alike states stops
      rw [leg] at legs
      exact ⟨_, .refused state' stop' cause underWay' search' legs.of_error, reads, .failed _⟩
  | turn leg rest step further ih =>
      have underWay' := (not_congr (is_done_alike alike states)).mp step.underWay
      obtain ⟨reads, outcome⟩ := search_alike alike states
      rw [step.search] at outcome
      obtain ⟨stop', search', stops⟩ := outcome.of_ok
      have legs := leg_alike alike states stops
      rw [step.ok] at legs
      obtain ⟨leg', moved, after⟩ := legs.of_ok
      have computes := leg_computes moved
      obtain ⟨rfl, rfl⟩ := And.intro computes.before computes.toward
      obtain ⟨rest', runs', rests⟩ := ih after
      refine ⟨_, .turn leg' rest' ⟨underWay', search', moved⟩ runs', ?_, rests.ending⟩
      exact congrArg₂ (· ++ ·) reads rests.reads

end Settings

end SwapSetting

structure SwapResult.Alike (result result' : SwapResult) : Prop where
  amountA : result.amountA = result'.amountA
  amountB : result.amountB = result'.amountB
  nextTick : result.nextTick = result'.nextTick
  nextSqrtPrice : result.nextSqrtPrice = result'.nextSqrtPrice
  totalFee : result.totalFee = result'.totalFee

section Swap

variable {pool pool' : Pool} {window window' : Window} {order order' : SwapOrder}

theorem SwapSetting.result_alike {setting setting' : SwapSetting} (orders : setting.order.Alike setting'.order)
    {last last' : SwapState} (states : last.Alike last') (trail trail' : SwapTrail) (crossings crossings' : Nat) :
    (setting.result trail last crossings).Alike (setting'.result trail' last' crossings') := by
  unfold result
  rw [orders.direction, orders.side, orders.amount, states.remaining, states.calculated, states.tick, states.price,
    states.totalFee]
  exact ⟨rfl, rfl, rfl, rfl, rfl⟩

theorem swap_alike (pools : pool.Alike pool') (windows : window.Alike window') (orders : order.Alike order')
    (aligned : order.direction = window.direction) (accepted : window.IsAccepted) (accepted' : window'.IsAccepted)
    (timely : pool.rewardLastUpdated.toNat ≤ order.timestamp.toNat)
    (timely' : pool'.rewardLastUpdated.toNat ≤ order'.timestamp.toNat) :
    Matches SwapResult.Alike (swap pool window order .blank).1 (swap pool' window' order' .blank).1 ∧
      (swap pool window order .blank).2.reads = (swap pool' window' order' .blank).2.reads := by
  obtain ⟨rewards, accrued⟩ := Pool.rewards_at_ok timely
  obtain ⟨rewards', accrued'⟩ := Pool.rewards_at_ok timely'
  have aligned' : order'.direction = window'.direction := by rw [← orders.direction, aligned, windows.direction]
  have starts := SwapState.start_alike pools orders
  unfold swap
  rw [accrued, accrued']
  dsimp only
  cases started : SwapState.start pool order with
  | error cause =>
      rw [started] at starts
      rw [starts.of_error]
      exact ⟨.error _, rfl⟩
  | ok start =>
      rw [started] at starts
      obtain ⟨start', started', states⟩ := starts.of_ok
      obtain ⟨trail, runs, _⟩ := SwapSetting.exists_run ⟨pool, window, order, rewards⟩ aligned accepted start
      have settings : SwapSetting.Alike ⟨pool, window, order, rewards⟩ ⟨pool', window', order', rewards'⟩ :=
        ⟨pools, windows, orders⟩
      obtain ⟨trail', runs', trails⟩ := SwapSetting.exists_run_alike settings runs states
      rw [started']
      dsimp only
      rw [runs.trail_limit aligned accepted, runs'.trail_limit aligned' accepted']
      obtain ⟨legs, reads, ending⟩ := trail
      obtain ⟨legs', reads', ending'⟩ := trail'
      obtain ⟨rfl, endings⟩ := trails
      cases endings with
      | done lasts => exact ⟨.ok _ _ (SwapSetting.result_alike orders lasts _ _ _ _), rfl⟩
      | failed failure => exact ⟨.error failure, rfl⟩

end Swap

namespace QuoteRequest

-- Requests for the same trade whose pools and arrays differ in their bookkeeping at most, and which may have
-- different times.
structure Alike (request request' : QuoteRequest) : Prop where
  pool : request.pool.Alike request'.pool
  slots : request.slots.map Slot.seen = request'.slots.map Slot.seen
  amount : request.amount = request'.amount
  limit : request.limit = request'.limit
  threshold : request.threshold = request'.threshold
  direction : request.direction = request'.direction
  side : request.side = request'.side

-- A time, if one is given, must not lie before the last update of the rewards.
def IsTimely (request : QuoteRequest) : Prop :=
  ∀ time, request.timestamp = some time → request.pool.rewardLastUpdated.toNat ≤ time.toNat

theorem IsTimely.order {request : QuoteRequest} (timely : request.IsTimely) (limit : SqrtPrice) :
    request.pool.rewardLastUpdated.toNat ≤ (request.order limit).timestamp.toNat := by
  unfold QuoteRequest.order
  cases given : request.timestamp with
  | none => exact le_refl _
  | some time => exact timely time given

section Requests

variable {request request' : QuoteRequest} (alike : request.Alike request')

include alike

theorem Alike.order (limit : SqrtPrice) : (request.order limit).Alike (request'.order limit) :=
  ⟨alike.amount, rfl, alike.side, alike.direction⟩

theorem checked_limit_alike : request.checkedLimit = request'.checkedLimit := by
  simp only [checkedLimit, alike.limit, alike.pool.sqrtPrice, alike.direction]

theorem check_threshold_alike (amountIn amountOut : BitVec 64) :
    request.checkThreshold amountIn amountOut = request'.checkThreshold amountIn amountOut := by
  simp only [checkThreshold, alike.threshold, alike.side]

end Requests

end QuoteRequest

theorem Window.Alike.instruction_arrays {w w' : Window} (alike : w.Alike w') {journal journal' : Journal}
    (reads : journal.reads = journal'.reads) :
    QuoteRequest.instructionArrays w journal = QuoteRequest.instructionArrays w' journal' := by
  have addresses : w.slots.map Slot.address = w'.slots.map Slot.address := by
    have keys := congrArg (List.map Prod.fst) alike.slots
    rwa [List.map_map, List.map_map] at keys
  apply QuoteRequest.instruction_arrays_congr
  · rw [touched_eq, touched_eq, addresses, reads]
  · rw [← List.head?_map, ← List.head?_map, addresses]

/-- A quote, or its failure, is the same whatever the bookkeeping of the pool and of its ticks says. -/
theorem bookkeeping_has_no_effect (request request' : QuoteRequest) (alike : request.Alike request')
    (timely : request.IsTimely) (timely' : request'.IsTimely) : request.simulate = request'.simulate := by
  apply Matches.eq
  unfold QuoteRequest.simulate
  dsimp only
  rw [QuoteRequest.checked_limit_alike alike, alike.amount, alike.pool.tickSpacing, alike.direction, alike.side]
  refine .bind (.refl _) fun limit _ same => ?_
  subst same
  refine .guard Iff.rfl ?_
  refine .bind (Window.of_slots_alike alike.slots _ _).with_ok.lift fun window window' both => ?_
  obtain ⟨windows, here, there⟩ := both
  obtain ⟨made, accepted⟩ := Window.of_slots_ok here
  obtain ⟨_, accepted'⟩ := Window.of_slots_ok there
  have starts : window.StartsAt request.pool.tickCurrent.toInt ↔ window'.StartsAt request'.pool.tickCurrent.toInt := by
    rw [alike.pool.tickCurrent]
    exact ⟨windows.startsAt, windows.symm.startsAt⟩
  refine .guard (not_congr starts) ?_
  have orders : SwapOrder.Alike ⟨request'.amount, limit, request'.side, request'.direction,
      request.timestamp.getD request.pool.rewardLastUpdated⟩ (request'.order limit) := ⟨rfl, rfl, rfl, rfl⟩
  obtain ⟨swaps, reads⟩ := swap_alike alike.pool windows orders (by rw [made]) accepted accepted' (timely.order limit)
    (timely'.order limit)
  refine .bind swaps fun result result' results => ?_
  rw [results.amountA, results.amountB, results.nextTick, results.nextSqrtPrice, results.totalFee, alike.limit,
    alike.threshold]
  refine .bind (.lift (.of_eq (QuoteRequest.check_threshold_alike alike _ _))) fun _ _ _ => ?_
  refine .bind (.lift (.of_eq (windows.instruction_arrays reads))) fun arrays _ same => ?_
  subst same
  exact .refl _

namespace Sample

def recorded (tick : Tick) : Tick :=
  { tick with
    liquidityNet := if tick.initialized then tick.liquidityNet else .ofInt 128 7
    liquidityGross := 900000, feeGrowthOutsideA := 5, feeGrowthOutsideB := 6,
    rewardGrowthsOutside := Vector.replicate rewardCount 8 }

def recordedSlot (slot : Slot) : Slot :=
  { slot with data := slot.data.map fun array => ⟨array.start, array.ticks.map recorded, address 1⟩ }

def reward : RewardInfo :=
  ⟨address 2, address 3, address 4, 18446744073709551616, 11⟩

def busy : QuoteRequest :=
  { request .aToB .output 900000 with
    pool := { pool with
      poolsConfig := address 5, bump := 255, protocolFeeRate := 2500,
      tokenA := ⟨address 6, address 7, 340282366920938463463374607431768211455, 9⟩,
      rewardLastUpdated := 50, rewards := Vector.replicate rewardCount reward }
    slots := (slots .aToB).map recordedSlot
    timestamp := some 100 }

end Sample

theorem bookkeeping_has_no_effect_sample :
    (Sample.request .aToB .output 900000).Alike Sample.busy ∧ (Sample.request .aToB .output 900000).IsTimely ∧
      Sample.busy.IsTimely ∧ Sample.busy.pool.rewardsAt 100 ≠ .ok Sample.busy.pool.rewards ∧
      ∃ quote, (Sample.request .aToB .output 900000).simulate = .ok quote ∧ Sample.busy.simulate = .ok quote := by
  have pools : (Sample.request .aToB .output 900000).pool.Alike Sample.busy.pool := ⟨rfl, rfl, rfl, rfl, rfl⟩
  have alike : (Sample.request .aToB .output 900000).Alike Sample.busy :=
    ⟨pools, by decide +kernel, rfl, rfl, rfl, rfl, rfl⟩
  have timely : (Sample.request .aToB .output 900000).IsTimely := fun _ given => by cases given
  have timely' : Sample.busy.IsTimely := fun _ given => by
    cases given
    decide
  have same := bookkeeping_has_no_effect _ _ alike timely timely'
  have run : (Sample.request .aToB .output 900000).simulate.toOption.map (fun _ => ()) = some () := by decide +kernel
  obtain ⟨quote, ok, _⟩ := exists_ok run
  exact ⟨alike, timely, timely', by decide +kernel, quote, ok, same.symm.trans ok⟩

end PoolQuote
