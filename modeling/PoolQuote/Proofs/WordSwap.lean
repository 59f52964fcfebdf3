import PoolQuote.Proofs.LoopBound
import PoolQuote.Proofs.Simulation
import PoolQuote.Proofs.WordPrice
import PoolQuote.Proofs.WordSearch
import PoolQuote.Proofs.WordStep

/-!
A simulated swap on machine words. Every operation on its way is checked, and none of the checks is met when the pool's
tick is one that a pool can have: the simulation gives a quote or reports an error.
-/

set_option autoImplicit false

namespace PoolQuote

namespace Words

-- A rate whose growth is reported as too large adds nothing.
def growth (reward : RewardInfo) (seconds liquidity : Nat) : Outcome (BitVec 128) :=
  match mulDiv .down seconds reward.emissionsPerSecond.toNat liquidity with
  | .ok growth => .ok (BitVec.ofNat 128 growth)
  | .error (.error _) => .ok 0
  | .error .abort => .error .abort

def accrue (seconds liquidity : Nat) (reward : RewardInfo) : Outcome RewardInfo := do
  if reward.isInitialized then
    let growth ← growth reward seconds liquidity
    return { reward with growthGlobal := reward.growthGlobal + growth }
  else return reward

def rewardsAt (pool : Pool) (timestamp : BitVec 64) : Outcome (Vector RewardInfo rewardCount) := do
  let now := timestamp.toNat
  let last := pool.rewardLastUpdated.toNat
  if now < last then throw (.error (.invalidTimestamp now last))
  if pool.liquidity = 0 ∨ now = last then return pool.rewards
  let seconds ← sub now last
  pool.rewards.mapM (accrue seconds pool.liquidity.toNat)

def takeFee (state : SwapState) (fee rate : Nat) : Outcome SwapState := do
  if ¬FitsBits 64 (state.totalFee + fee) then throw (.error .amountCalcOverflow)
  let product ← mul 128 fee rate
  let ratio ← quotient product SwapState.protocolFeeUnit
  let share := ratio % wordCount 64
  let growth ←
    if state.liquidity = 0 then pure 0
    else do
      let scaled ← shiftLeft 128 (fee - share) 64
      quotient scaled state.liquidity
  return { state with
    totalFee := state.totalFee + fee
    protocolFee := state.protocolFee + BitVec.ofNat 64 share
    feeGrowth := state.feeGrowth + BitVec.ofNat 128 growth }

def arrive (setting : SwapSetting) (state : SwapState) (stop : Window.Stop) (crossings : Nat) :
    Outcome (SwapState × Option TickUpdate) := do
  match stop.tick with
  | none =>
      let tick ← signed 32 (setting.order.direction.past stop.index)
      return ({ state with tick }, none)
  | some record =>
      let liquidity ←
        SwapState.crossLiquidity state.liquidity record.liquidityNet setting.order.direction
      let _ ← add 64 crossings 1
      let tick ← signed 32 (setting.order.direction.past stop.index)
      return ({ state with tick, liquidity },
        some ⟨.ofInt 32 stop.index, setting.flipped state record⟩)

def leg (setting : SwapSetting) (state : SwapState) (stop : Window.Stop) (crossings : Nat) : Outcome SwapLeg := do
  let pool := setting.pool
  let tickPrice ← ofTickIndex stop.index
  let step ← compute setting.order.direction setting.order.side state.remaining
    pool.feeRate.toNat state.liquidity state.price.value (setting.target tickPrice).value
  let price ← SqrtPrice.ofNat step.nextPrice
  let paid ← state.takeAmounts setting.order.side step
  let charged ← takeFee paid step.fee pool.protocolFeeRate.toNat
  if price = tickPrice then
    let (arrived, crossed) ← arrive setting charged stop crossings
    return ⟨state, stop, step, crossed, { arrived with price }⟩
  else
    let tick ← if price = state.price then pure state.tick else ofRawPrice price.value
    return ⟨state, stop, step, none, { charged with price, tick }⟩

def trail (setting : SwapSetting) (legs : Nat) (state : SwapState) (crossings : Nat) : SwapTrail :=
  if setting.IsDone state then ⟨[], [], .done state⟩
  else match legs with
  | 0 => ⟨[], [], .underWay state⟩
  | legs + 1 =>
      let search := nextInitialized setting.window state.tick
      match search.outcome with
      | .error failure => ⟨[], search.reads, .failed failure⟩
      | .ok stop =>
          match leg setting state stop crossings with
          | .error failure => ⟨[], search.reads, .failed failure⟩
          | .ok leg =>
              let rest := trail setting legs leg.after (crossings + leg.crossed.toList.length)
              ⟨leg :: rest.legs, search.reads ++ rest.reads, rest.ending⟩

def swap (pool : Pool) (window : Window) (order : SwapOrder) (journal : Journal) : Outcome SwapResult × Journal :=
  match rewardsAt pool order.timestamp with
  | .error failure => (.error failure, journal)
  | .ok rewards =>
      match SwapState.start pool order with
      | .error cause => (.error (.error cause), journal)
      | .ok state =>
          let setting : SwapSetting := ⟨pool, window, order, rewards⟩
          let trail := trail setting setting.legLimit state journal.crossings
          let journal : Journal :=
            ⟨journal.reads ++ trail.reads, journal.crossings + trail.crossed.length⟩
          match trail.ending with
          | .done last =>
              (do
                let _ ← sub order.amount.toNat last.remaining
                return setting.result trail last journal.crossings, journal)
          | .failed failure => (.error failure, journal)
          | .underWay _ => (.error .abort, journal)

def simulate (request : QuoteRequest) : Outcome Quote := do
  let pool := request.pool
  let limit ← request.checkedLimit
  if request.amount = 0 then throw (.error .zeroAmount)
  let window ← ofSlots request.slots pool.tickSpacing request.direction
  let starts ← startsAt window pool.tickCurrent.toInt
  if ¬starts then throw (.error (.invalidSequence .poolTickOutside))
  let (outcome, journal) := swap pool window (request.order limit) .blank
  let result ← outcome
  let (amountIn, amountOut) := match request.direction with
    | .aToB => (result.amountA, result.amountB)
    | .bToA => (result.amountB, result.amountA)
  request.checkThreshold amountIn amountOut
  let tickArrays ← QuoteRequest.instructionArrays window journal
  return {
    amountIn
    amountOut
    endTick := result.nextTick
    endSqrtPrice := result.nextSqrtPrice
    fee := result.totalFee
    amount := request.amount
    side := request.side
    direction := request.direction
    threshold := request.threshold
    limit := request.limit
    tickArrays }

theorem growth_refines (reward : RewardInfo) {seconds : Nat} (liquidity : Nat) (fits : FitsBits 128 seconds) :
    growth reward seconds liquidity = .ok (reward.growth seconds liquidity) := by
  unfold growth RewardInfo.growth
  rw [mul_div_refines .down liquidity fits reward.emissionsPerSecond.isLt]
  cases PoolQuote.mulDiv .down seconds reward.emissionsPerSecond.toNat liquidity <;> rfl

theorem accrue_refines {seconds : Nat} (liquidity : Nat) (fits : FitsBits 128 seconds) :
    accrue seconds liquidity = fun reward => pure (reward.accrue seconds liquidity) := by
  funext reward
  unfold accrue RewardInfo.accrue
  rw [growth_refines reward liquidity fits]
  cases reward.isInitialized <;> rfl

theorem rewards_at_refines (pool : Pool) (timestamp : BitVec 64) :
    rewardsAt pool timestamp = liftM (pool.rewardsAt timestamp) := by
  unfold rewardsAt Pool.rewardsAt
  dsimp only
  by_cases early : timestamp.toNat < pool.rewardLastUpdated.toNat
  · rw [if_pos early, if_pos early]
    rfl
  · rw [if_neg early, if_neg early]
    by_cases still : pool.liquidity = 0 ∨ timestamp.toNat = pool.rewardLastUpdated.toNat
    · rw [if_pos still, if_pos still]
      rfl
    · have seconds : FitsBits 128 (timestamp.toNat - pool.rewardLastUpdated.toNat) :=
        FitsBits.mono (FitsBits.of_le timestamp.isLt (Nat.sub_le _ _)) (by decide)
      rw [if_neg still, if_neg still, sub, or_abort_bind (not_lt.mp early), accrue_refines _ seconds, Vector.mapM_pure]
      rfl

theorem take_fee_refines (state : SwapState) {fee rate : Nat} (small : FitsBits 64 fee) (narrow : FitsBits 16 rate) :
    takeFee state fee rate = liftM (state.takeFee fee rate) := by
  have product : FitsBits 128 (fee * rate) := (small.mul narrow).mono (by decide)
  unfold takeFee SwapState.takeFee
  refine guard_eq_lift fun _ => ?_
  rw [mul, or_abort_bind product, quotient, or_abort_bind (by decide)]
  dsimp only
  by_cases dry : state.liquidity = 0
  · rw [if_pos dry, if_pos dry]
    rfl
  · have shared : FitsBits 64 (fee - SwapState.protocolShare fee rate) := small.of_le (Nat.sub_le _ _)
    rw [if_neg dry, if_neg dry]
    change shiftLeft 128 (fee - SwapState.protocolShare fee rate) 64 >>= _ = _
    rw [shift_left_exact shared (by decide) (by decide), ok_bind, quotient, or_abort_bind dry]
    rfl

theorem past_holds (d : Direction) {t : Int} (inside : TickIndex.InBounds t) : Signed.Holds 32 (d.past t) := by
  simp only [TickIndex.InBounds, TickIndex.minimum, TickIndex.maximum, Signed.holds_iff] at *
  cases d <;> simp only [Direction.past] <;> omega

theorem arrive_refines (setting : SwapSetting) (state : SwapState) {stop : Window.Stop} {crossings : Nat}
    (inside : TickIndex.InBounds stop.index) (room : FitsBits 64 (crossings + 1)) :
    arrive setting state stop crossings = liftM (setting.arrive state stop) := by
  obtain ⟨index, tick⟩ := stop
  have past := signed_exact (past_holds setting.order.direction inside)
  unfold arrive SwapSetting.arrive
  dsimp only at past ⊢
  cases tick with
  | none =>
      dsimp only
      rw [past]
      cases setting.order.direction <;> rfl
  | some record =>
      refine bind_eq_lift rfl fun liquidity _ => ?_
      rw [add, or_abort_bind room, past]
      cases setting.order.direction <;> rfl

end Words

-- A state whose numbers are on words and whose tick is one that a pool can have.
structure SwapState.IsOnWords (state : SwapState) : Prop where
  remaining : FitsBits 64 state.remaining
  liquidity : FitsBits 128 state.liquidity
  tick : TickIndex.InReach state.tick

namespace Words

theorem price_fits (price : SqrtPrice) : FitsBits 128 price.value :=
  lt_of_le_of_lt price.le_max (by decide)

theorem paid_fits {state paid : SwapState} {side : Side} {step : SwapStep} (small : FitsBits 64 state.remaining)
    (taken : state.takeAmounts side step = .ok paid) : FitsBits 64 step.fee := by
  obtain ⟨enough, counted, _⟩ := SwapState.take_amounts_ok taken
  cases side with
  | input => exact small.of_le (le_trans (Nat.le_add_left _ _) enough)
  | output => exact counted.of_le (le_trans (Nat.le_add_left _ _) (Nat.le_add_left _ _))

theorem leg_refines (setting : SwapSetting) {state : SwapState} (stop : Window.Stop) {crossings : Nat}
    (sound : state.IsOnWords) (room : FitsBits 64 (crossings + 1)) :
    leg setting state stop crossings = liftM (setting.leg state stop) := by
  unfold leg SwapSetting.leg
  refine bind_eq_lift (of_tick_index_refines stop.index) fun tickPrice read => ?_
  have inside := ((SqrtPrice.of_tick_eq_ok_iff _ _).mp read).1
  refine bind_eq_lift (compute_refines _ _ sound.remaining (le_of_lt (SwapStep.fee_rate_lt _)) sound.liquidity
    (price_fits _) (price_fits _)) fun step _ => ?_
  refine bind_eq_lift rfl fun price _ => ?_
  refine bind_eq_lift rfl fun paid taken => ?_
  refine bind_eq_lift (take_fee_refines paid (paid_fits sound.remaining taken) setting.pool.protocolFeeRate.isLt)
    fun charged _ => ?_
  by_cases there : price = tickPrice
  · rw [if_pos there, if_pos there]
    exact bind_eq_lift (arrive_refines setting charged inside room) fun _ _ => rfl
  · rw [if_neg there, if_neg there, of_raw_price_refines]
    by_cases stays : price = state.price
    · rw [if_pos stays, if_pos stays]
      rfl
    · rw [if_neg stays, if_neg stays]
      rfl

end Words

namespace SwapSetting

variable {setting : SwapSetting}

theorem Computes.is_on_words {state : SwapState} {stop : Window.Stop} {leg : SwapLeg}
    (computes : setting.Computes state stop leg) (sound : state.IsOnWords) : leg.after.IsOnWords := by
  obtain ⟨tickPrice, read, _⟩ := computes.step
  have inside := ((SqrtPrice.of_tick_eq_ok_iff _ _).mp read).1
  have remaining := computes.remaining
  refine ⟨sound.remaining.of_le (by omega), computes.narrow sound.liquidity, ?_⟩
  by_cases there : leg.Arrives
  · rw [computes.lands.tick_after there, computes.toward]
    simp only [TickIndex.InReach, TickIndex.InBounds] at *
    cases setting.order.direction <;> simp only [Direction.past] <;> omega
  · cases computes.lands with
    | short _ tick _ _ =>
        rw [tick]
        split
        · rw [computes.before]
          exact sound.tick
        · exact ⟨(TickIndex.lies_tick leg.after.price).lower, (TickIndex.lies_tick leg.after.price).upper⟩
    | boundary arrives _ _ _ _ => exact absurd arrives there
    | crossing _ _ arrives _ _ _ _ _ _ _ _ => exact absurd arrives there

end SwapSetting

namespace Words

theorem trail_refines (setting : SwapSetting) (accepted : setting.window.IsAccepted) (compact : IsCompact setting.window)
    (n : Nat) {state : SwapState} {crossings : Nat} (sound : state.IsOnWords) (room : FitsBits 64 (crossings + n)) :
    trail setting n state crossings = setting.trail n state ∧ (setting.trail n state).ending ≠ .failed .abort := by
  induction n generalizing state crossings with
  | zero =>
      unfold trail SwapSetting.trail
      by_cases done : setting.IsDone state
      · rw [if_pos done]
        exact ⟨rfl, fun aborts => by cases aborts⟩
      · rw [if_neg done]
        exact ⟨rfl, fun aborts => by cases aborts⟩
  | succ n ih =>
      obtain ⟨search, holds⟩ := next_initialized_refines accepted compact sound.tick
      unfold trail SwapSetting.trail
      by_cases done : setting.IsDone state
      · rw [if_pos done, if_pos done]
        exact ⟨rfl, fun aborts => by cases aborts⟩
      · rw [if_neg done, if_neg done]
        dsimp only
        rw [search]
        cases outcome : (setting.window.nextInitialized state.tick).outcome with
        | error failure =>
            refine ⟨rfl, fun aborts => holds ?_⟩
            cases aborts
            exact outcome
        | ok stop =>
            dsimp only
            rw [leg_refines setting stop sound (room.of_le (by omega))]
            cases moved : setting.leg state stop with
            | error cause => exact ⟨rfl, fun aborts => by cases aborts⟩
            | ok leg =>
                have later : FitsBits 64 (crossings + leg.crossed.toList.length + n) := by
                  refine room.of_le ?_
                  cases leg.crossed <;> simp only [Option.toList, List.length_nil, List.length_cons] <;> omega
                obtain ⟨same, sane⟩ := ih ((SwapSetting.leg_computes moved).is_on_words sound) later
                change (⟨leg :: (trail setting n leg.after _).legs, _, _⟩ : SwapTrail) = _ ∧ _
                rw [same]
                exact ⟨rfl, sane⟩

theorem start_on_words {pool : Pool} {order : SwapOrder} {start : SwapState}
    (inside : TickIndex.InReach pool.tickCurrent.toInt) (started : SwapState.start pool order = .ok start) :
    start.IsOnWords := by
  have starts := SwapState.start_ok started
  refine ⟨?_, ?_, ?_⟩
  · rw [starts.remaining]
    exact order.amount.isLt
  · rw [starts.liquidity]
    exact pool.liquidity.isLt
  · rw [starts.tick]
    exact inside

section Swap

variable {pool : Pool} {window : Window} {order : SwapOrder} {journal : Journal}
  (aligned : order.direction = window.direction) (accepted : window.IsAccepted) (compact : IsCompact window)
  (inside : TickIndex.InReach pool.tickCurrent.toInt)
  (room : FitsBits 64 (journal.crossings + (window.initializedTicks.length + 2)))

include aligned accepted compact inside room

theorem swap_refines : swap pool window order journal = PoolQuote.swap pool window order journal ∧
    (PoolQuote.swap pool window order journal).1 ≠ .error .abort := by
  unfold swap PoolQuote.swap
  cases accrued : pool.rewardsAt order.timestamp with
  | error cause =>
      have onWords : rewardsAt pool order.timestamp = .error (.error cause) := by
        rw [rewards_at_refines, accrued]
        rfl
      rw [onWords]
      exact ⟨rfl, fun aborts => by cases aborts⟩
  | ok rewards =>
      have onWords : rewardsAt pool order.timestamp = .ok rewards := by
        rw [rewards_at_refines, accrued]
        rfl
      rw [onWords]
      cases started : SwapState.start pool order with
      | error cause => exact ⟨rfl, fun aborts => by cases aborts⟩
      | ok start =>
          obtain ⟨same, sane⟩ := trail_refines ⟨pool, window, order, rewards⟩ accepted compact
            (window.initializedTicks.length + 2) (start_on_words inside started) room
          obtain ⟨run, runs, bound⟩ := SwapSetting.exists_run ⟨pool, window, order, rewards⟩ aligned accepted start
          have whole := runs.trail_eq (le_trans bound (Nat.add_le_add_right (window.pending_length_le start.tick) 2))
          obtain ⟨final, replay, ended⟩ := SwapSetting.trail_replay ⟨pool, window, order, rewards⟩
            (window.initializedTicks.length + 2) start
          rw [whole] at same sane replay ended
          dsimp only [SwapSetting.legLimit]
          rw [same, whole]
          cases ending : run.ending with
          | done last =>
              obtain ⟨rfl, _⟩ := ended last ending
              have spent : final.remaining ≤ order.amount.toNat := by
                rw [← (SwapState.start_ok started).remaining, replay.remaining_eq]
                exact Nat.le_add_right _ _
              dsimp only
              rw [sub, or_abort_bind spent]
              exact ⟨rfl, fun aborts => by cases aborts⟩
          | failed failure =>
              refine ⟨rfl, fun aborts => sane ?_⟩
              cases aborts
              exact ending
          | underWay other => exact absurd ending (runs.ended other)

end Swap

section Request

variable {request : QuoteRequest} {window : Window} {limit : SqrtPrice}
  (accepted : Window.ofSlots request.slots request.pool.tickSpacing request.direction = .ok window)
  (starts : window.StartsAt request.pool.tickCurrent.toInt) (inside : TickIndex.InReach request.pool.tickCurrent.toInt)

include accepted starts inside

theorem request_swap_refines : swap request.pool window (request.order limit) .blank =
    PoolQuote.swap request.pool window (request.order limit) .blank ∧
      (PoolQuote.swap request.pool window (request.order limit) .blank).1 ≠ .error .abort := by
  obtain ⟨same, sound⟩ := Window.of_slots_ok accepted
  have aligned : (request.order limit).direction = window.direction := by rw [same]; rfl
  have room : FitsBits 64 (Journal.blank.crossings + (window.initializedTicks.length + 2)) := by
    have few := Window.initialized_ticks_length sound
    simp only [Journal.blank, FitsBits, wordCount, maxArrays, ticksPerArray, Nat.pow_eq] at *
    omega
  exact swap_refines aligned sound (compact_of_starts sound starts inside) inside room

end Request

theorem simulate_refines {request : QuoteRequest} (inside : TickIndex.InReach request.pool.tickCurrent.toInt) :
    simulate request = request.simulate := by
  unfold simulate QuoteRequest.simulate
  dsimp only
  refine bind_congr_ok fun limit _ => guard_congr fun _ => ?_
  rw [of_slots_refines]
  refine bind_congr_ok fun window accepted => ?_
  obtain ⟨starts, onWords, iff⟩ := starts_at_refines window request.pool.tickCurrent.toInt
  rw [onWords, ok_bind]
  by_cases begins : window.StartsAt request.pool.tickCurrent.toInt
  · rw [if_neg (not_not.mpr (iff.mpr begins)), if_neg (not_not.mpr begins),
      (request_swap_refines (lift_ok accepted) begins inside).1]
    rfl
  · rw [if_pos (fun started => begins (iff.mp started)), if_pos begins]
    rfl

theorem simulate_ne_abort {request : QuoteRequest} (inside : TickIndex.InReach request.pool.tickCurrent.toInt) :
    request.simulate ≠ .error .abort := by
  unfold QuoteRequest.simulate
  refine bind_ne_error (lift_ne_abort _) fun limit _ => guard_ne_error (fun _ => by simp) fun _ => ?_
  refine bind_ne_error (lift_ne_abort _) fun window accepted => guard_ne_error (fun _ => by simp) fun starts => ?_
  dsimp only
  refine bind_ne_error (request_swap_refines (lift_ok accepted) (not_not.mp starts) inside).2 fun result _ => ?_
  refine bind_ne_error (lift_ne_abort _) fun _ _ => ?_
  exact bind_ne_error (lift_ne_abort _) fun _ _ => ok_ne_error

end Words

/-- On words of their sizes no operation of a quote overflows, and no divisor is zero. -/
theorem simulate_never_aborts (request : QuoteRequest) (inside : TickIndex.minimum - 1 ≤ request.pool.tickCurrent.toInt ∧
    request.pool.tickCurrent.toInt ≤ TickIndex.maximum) :
    Words.simulate request = request.simulate ∧
      ((∃ quote, Words.simulate request = .ok quote) ∨ ∃ cause, Words.simulate request = .error (.error cause)) := by
  have same := Words.simulate_refines inside
  have sane := Words.simulate_ne_abort inside
  rw [← same] at sane
  refine ⟨same, ?_⟩
  cases ended : Words.simulate request with
  | ok quote => exact .inl ⟨quote, rfl⟩
  | error failure =>
      cases failure with
      | error cause => exact .inr ⟨cause, rfl⟩
      | abort => exact absurd ended sane

-- Everything at its end: the lowest tick with the price at the far end, the widest spacing, rates, liquidity and
-- amount.
def Sample.widest (d : Direction) : QuoteRequest :=
  let slot (n : Nat) : Slot := ⟨.zero, some (TickArray.empty .zero (.ofInt 32 (d.along (-5767080) (n * 5767080))))⟩
  { pool := { Sample.pool with
      tickSpacing := 65535, feeRate := 65535, protocolFeeRate := 65535, liquidity := BitVec.allOnes 128,
      sqrtPrice := defaultLimit d.opposite, tickCurrent := .ofInt 32 (-443637) }
    slots := [slot 0, slot 1, slot 2], amount := BitVec.allOnes 64, limit := defaultLimit d, threshold := 0,
    direction := d, side := .input, timestamp := none }

theorem simulate_never_aborts_sample : (∃ quote, Words.simulate (Sample.widest .bToA) = .ok quote) ∧
    ∃ cause, Words.simulate (Sample.widest .aToB) = .error (.error cause) := by
  have quoted : (Sample.widest .bToA).simulate.toOption.isSome = true := by decide +kernel
  have refused : (Sample.widest .aToB).simulate.toOption.isSome = false := by decide +kernel
  obtain ⟨rises, ok | fails⟩ := simulate_never_aborts (Sample.widest .bToA) (by decide +kernel)
  · obtain ⟨falls, ok' | fails⟩ := simulate_never_aborts (Sample.widest .aToB) (by decide +kernel)
    · obtain ⟨quote, read⟩ := ok'
      rw [← falls, read] at refused
      cases refused
    · exact ⟨ok, fails⟩
  · obtain ⟨cause, read⟩ := fails
    rw [← rises, read] at quoted
    cases quoted

end PoolQuote
