import PoolQuote.Rewards
import PoolQuote.SwapStep
import PoolQuote.Window

/-!
A swap, replayed against a pool and a window of tick arrays. Each leg searches for the next
initialized tick, moves the price toward it or to the limit, splits the fee and crosses the tick if
the price arrives there. The swap ends when the amount is used up or the price is at its limit.
-/

set_option autoImplicit false

namespace PoolQuote

structure SwapOrder where
  amount : BitVec 64
  limit : SqrtPrice
  side : Side
  direction : Direction
  timestamp : BitVec 64

structure SwapState where
  remaining : Nat
  calculated : Nat
  price : SqrtPrice
  tick : Int
  liquidity : Nat
  feeGrowth : BitVec 128
  protocolFee : BitVec 64
  totalFee : Nat
  deriving DecidableEq

structure TickUpdate where
  index : Signed 32
  tick : Tick
  deriving DecidableEq

structure SwapLeg where
  before : SwapState
  stop : Window.Stop
  step : SwapStep
  crossed : Option TickUpdate
  after : SwapState

structure SwapResult where
  amountA : BitVec 64
  amountB : BitVec 64
  nextLiquidity : BitVec 128
  nextTick : Signed 32
  nextSqrtPrice : BitVec 128
  nextFeeGrowthGlobal : BitVec 128
  nextProtocolFee : BitVec 64
  nextRewards : Vector RewardInfo rewardCount
  totalFee : BitVec 64
  tickUpdates : List TickUpdate
  crossingCount : BitVec 64
  deriving DecidableEq

namespace SwapState

def start (pool : Pool) (order : SwapOrder) : Except QuoteError SwapState := do
  let price ← SqrtPrice.ofNat pool.sqrtPrice.toNat
  return {
    remaining := order.amount.toNat
    calculated := 0
    price
    tick := pool.tickCurrent.toInt
    liquidity := pool.liquidity.toNat
    feeGrowth := pool.inputFeeGrowth order.direction
    protocolFee := 0
    totalFee := 0 }

def takeAmounts (state : SwapState) (side : Side) (step : SwapStep) :
    Except QuoteError SwapState := do
  let paid := step.amountIn + step.fee
  if ¬FitsBits 64 paid then throw .amountCalcOverflow
  let (used, gained) := match side with
    | .input => (paid, step.amountOut)
    | .output => (step.amountOut, paid)
  if state.remaining < used then throw .amountRemainingOverflow
  if ¬FitsBits 64 (state.calculated + gained) then throw .amountCalcOverflow
  return { state with
    remaining := state.remaining - used
    calculated := state.calculated + gained }

def protocolFeeUnit : Nat := 10000

def protocolShare (fee rate : Nat) : Nat :=
  fee * rate / protocolFeeUnit % wordCount 64

def takeFee (state : SwapState) (fee rate : Nat) : Except QuoteError SwapState := do
  if ¬FitsBits 64 (state.totalFee + fee) then throw .amountCalcOverflow
  let share := protocolShare fee rate
  let growth := if state.liquidity = 0 then 0 else (fee - share) * wordCount 64 / state.liquidity
  return { state with
    totalFee := state.totalFee + fee
    protocolFee := state.protocolFee + BitVec.ofNat 64 share
    feeGrowth := state.feeGrowth + BitVec.ofNat 128 growth }

def crossLiquidity (liquidity : Nat) (net : Signed 128) (direction : Direction) :
    Except QuoteError Nat := do
  let change := match direction with
    | .aToB => -net.toInt
    | .bToA => net.toInt
  if ¬Signed.Holds 128 change then throw .liquidityOverflow
  let next := (liquidity : Int) + change
  if next < 0 then throw .liquidityUnderflow
  if ¬FitsBits 128 next.toNat then throw .liquidityOverflow
  return next.toNat

end SwapState

-- The record of a tick after the price crosses it: each growth outside is now counted from the
-- other side of the tick.
def Tick.flip (tick : Tick) (feeGrowthA feeGrowthB : BitVec 128)
    (rewards : Vector RewardInfo rewardCount) : Tick :=
  { tick with
    feeGrowthOutsideA := feeGrowthA - tick.feeGrowthOutsideA
    feeGrowthOutsideB := feeGrowthB - tick.feeGrowthOutsideB
    rewardGrowthsOutside := Vector.zipWith
      (fun outside reward =>
        if reward.isInitialized then reward.growthGlobal - outside else outside)
      tick.rewardGrowthsOutside rewards }

structure SwapSetting where
  pool : Pool
  window : Window
  order : SwapOrder
  rewards : Vector RewardInfo rewardCount

namespace SwapSetting

def target (setting : SwapSetting) (tickPrice : SqrtPrice) : SqrtPrice :=
  let limit := setting.order.limit
  match setting.order.direction with
  | .aToB => if tickPrice.value < limit.value then limit else tickPrice
  | .bToA => if limit.value < tickPrice.value then limit else tickPrice

def flipped (setting : SwapSetting) (state : SwapState) (tick : Tick) : Tick :=
  match setting.order.direction with
  | .aToB => tick.flip state.feeGrowth setting.pool.tokenB.feeGrowthGlobal setting.rewards
  | .bToA => tick.flip setting.pool.tokenA.feeGrowthGlobal state.feeGrowth setting.rewards

def arrive (setting : SwapSetting) (state : SwapState) (stop : Window.Stop) :
    Except QuoteError (SwapState × Option TickUpdate) := do
  let tick := match setting.order.direction with
    | .aToB => stop.index - 1
    | .bToA => stop.index
  match stop.tick with
  | none => return ({ state with tick }, none)
  | some record =>
      let liquidity ←
        SwapState.crossLiquidity state.liquidity record.liquidityNet setting.order.direction
      return ({ state with tick, liquidity },
        some ⟨.ofInt 32 stop.index, setting.flipped state record⟩)

def leg (setting : SwapSetting) (state : SwapState) (stop : Window.Stop) :
    Except QuoteError SwapLeg := do
  let pool := setting.pool
  let tickPrice ← SqrtPrice.ofTick stop.index
  let step ← SwapStep.compute setting.order.direction setting.order.side state.remaining
    pool.feeRate.toNat state.liquidity state.price.value (setting.target tickPrice).value
  let price ← SqrtPrice.ofNat step.nextPrice
  let paid ← state.takeAmounts setting.order.side step
  let charged ← paid.takeFee step.fee pool.protocolFeeRate.toNat
  if price = tickPrice then
    let (arrived, crossed) ← setting.arrive charged stop
    return ⟨state, stop, step, crossed, { arrived with price }⟩
  else
    let tick := if price = state.price then state.tick else price.tick
    return ⟨state, stop, step, none, { charged with price, tick }⟩

def IsDone (setting : SwapSetting) (state : SwapState) : Prop :=
  state.remaining = 0 ∨ state.price = setting.order.limit

instance (setting : SwapSetting) (state : SwapState) : Decidable (setting.IsDone state) :=
  inferInstanceAs (Decidable (_ ∨ _))

end SwapSetting

inductive SwapEnding
  | done (state : SwapState)
  | failed (cause : Failure)
  | underWay (state : SwapState)

structure SwapTrail where
  legs : List SwapLeg
  reads : List Nat
  ending : SwapEnding

namespace SwapTrail

def crossed (trail : SwapTrail) : List TickUpdate :=
  trail.legs.filterMap SwapLeg.crossed

end SwapTrail

namespace SwapSetting

def trail (setting : SwapSetting) (legs : Nat) (state : SwapState) : SwapTrail :=
  if setting.IsDone state then ⟨[], [], .done state⟩
  else match legs with
  | 0 => ⟨[], [], .underWay state⟩
  | legs + 1 =>
      let search := setting.window.nextInitialized state.tick
      match search.outcome with
      | .error cause => ⟨[], search.reads, .failed cause⟩
      | .ok stop =>
          match setting.leg state stop with
          | .error cause => ⟨[], search.reads, .failed (.error cause)⟩
          | .ok leg =>
              let rest := setting.trail legs leg.after
              ⟨leg :: rest.legs, search.reads ++ rest.reads, rest.ending⟩

/-- Enough legs for every swap: one for each initialized tick, one to the end of the window and one
whose search fails. -/
def legLimit (setting : SwapSetting) : Nat :=
  setting.window.initializedTicks.length + 2

def result (setting : SwapSetting) (trail : SwapTrail) (state : SwapState) (crossings : Nat) :
    SwapResult :=
  let used := setting.order.amount.toNat - state.remaining
  let (a, b) := match setting.order.direction.token setting.order.side with
    | .a => (used, state.calculated)
    | .b => (state.calculated, used)
  { amountA := BitVec.ofNat 64 a
    amountB := BitVec.ofNat 64 b
    nextLiquidity := BitVec.ofNat 128 state.liquidity
    nextTick := .ofInt 32 state.tick
    nextSqrtPrice := BitVec.ofNat 128 state.price.value
    nextFeeGrowthGlobal := state.feeGrowth
    nextProtocolFee := state.protocolFee
    nextRewards := setting.rewards
    totalFee := BitVec.ofNat 64 state.totalFee
    tickUpdates := trail.crossed
    crossingCount := BitVec.ofNat 64 crossings }

end SwapSetting

/-- Replays a swap over a window. The journal is kept also by a swap that fails. -/
def swap (pool : Pool) (window : Window) (order : SwapOrder) (journal : Journal) :
    Outcome SwapResult × Journal :=
  match pool.rewardsAt order.timestamp with
  | .error cause => (.error (.error cause), journal)
  | .ok rewards =>
      match SwapState.start pool order with
      | .error cause => (.error (.error cause), journal)
      | .ok state =>
          let setting : SwapSetting := ⟨pool, window, order, rewards⟩
          let trail := setting.trail setting.legLimit state
          let journal : Journal :=
            ⟨journal.reads ++ trail.reads, journal.crossings + trail.crossed.length⟩
          match trail.ending with
          | .done last => (.ok (setting.result trail last journal.crossings), journal)
          | .failed cause => (.error cause, journal)
          | .underWay _ => (.error .abort, journal)

/-- The pool that a swap leaves behind. The ticks that it crossed are in the tick arrays. -/
def Pool.afterSwap (pool : Pool) (order : SwapOrder) (result : SwapResult) : Pool :=
  let settle (token : PoolToken) : PoolToken :=
    { token with
      feeGrowthGlobal := result.nextFeeGrowthGlobal
      protocolFeeOwed := token.protocolFeeOwed + result.nextProtocolFee }
  let pool := { pool with
    liquidity := result.nextLiquidity
    sqrtPrice := result.nextSqrtPrice
    tickCurrent := result.nextTick
    rewards := result.nextRewards
    rewardLastUpdated := order.timestamp }
  match order.direction with
  | .aToB => { pool with tokenA := settle pool.tokenA }
  | .bToA => { pool with tokenB := settle pool.tokenB }

end PoolQuote
