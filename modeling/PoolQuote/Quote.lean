import PoolQuote.Address.Book
import PoolQuote.Slippage
import PoolQuote.Swap

/-!
Quotes: a request is checked, its swap is replayed, and the result becomes what a swap instruction
needs. The amount on the other side of the trade is held to a threshold, which a quote with a
slippage tolerance sets anew from its own estimate.
-/

set_option autoImplicit false

namespace PoolQuote

structure QuoteRequest where
  pool : Pool
  slots : List Slot
  amount : BitVec 64
  limit : BitVec 128
  threshold : BitVec 64
  direction : Direction
  side : Side
  -- The time that rewards are caught up to, if it is not that of the last update.
  timestamp : Option (BitVec 64)
  deriving DecidableEq

structure Quote where
  amountIn : BitVec 64
  amountOut : BitVec 64
  endTick : Signed 32
  endSqrtPrice : BitVec 128
  fee : BitVec 64
  amount : BitVec 64
  side : Side
  direction : Direction
  threshold : BitVec 64
  limit : BitVec 128
  tickArrays : Vector Key maxArrays
  deriving DecidableEq

structure SwapAmounts where
  amount : BitVec 64
  threshold : BitVec 64
  deriving DecidableEq

def defaultLimit : Direction → BitVec 128
  | .aToB => BitVec.ofNat 128 SqrtPrice.minValue
  | .bToA => BitVec.ofNat 128 SqrtPrice.maxValue

def defaultThreshold : Side → BitVec 64
  | .input => 0
  | .output => BitVec.allOnes 64

-- The threshold for the other side of a swap: the estimated output lowered by the tolerance, or the
-- estimated input raised by it.
def SwapAmounts.ofEstimate (amount amountIn amountOut : BitVec 64) (tolerance : Percentage)
    (side : Side) : Outcome SwapAmounts := do
  let threshold ← match side with
    | .input => tolerance.widen .down amountOut
    | .output => tolerance.widen .up amountIn
  return ⟨amount, threshold⟩

namespace QuoteRequest

def checkedLimit (request : QuoteRequest) : Except QuoteError SqrtPrice := do
  let limit ← SqrtPrice.ofNat request.limit.toNat
  let price := request.pool.sqrtPrice.toNat
  let passed : Bool := match request.direction with
    | .aToB => price < limit.value
    | .bToA => limit.value < price
  if passed then throw .limitDirection
  return limit

def checkThreshold (request : QuoteRequest) (amountIn amountOut : BitVec 64) :
    Except QuoteError Unit :=
  let threshold := request.threshold.toNat
  match request.side with
  | .input =>
      if amountOut.toNat < threshold then
        .error (.outputBelowMinimum threshold amountOut.toNat)
      else .ok ()
  | .output =>
      if threshold < amountIn.toNat then
        .error (.inputAboveMaximum threshold amountIn.toNat)
      else .ok ()

def instructionArrays (window : Window) (journal : Journal) :
    Except QuoteError (Vector Key maxArrays) := do
  let count := (window.touched journal).length
  if maxArrays < count then throw (.tooManyArraysCrossed count)
  let addresses := window.addresses journal maxArrays
  if h : addresses.length = maxArrays then return ⟨addresses.toArray, by simpa using h⟩
  throw (.invalidSequence (.addressCount addresses.length maxArrays))

def simulate (request : QuoteRequest) : Outcome Quote := do
  let pool := request.pool
  let limit ← request.checkedLimit
  if request.amount = 0 then throw (.error .zeroAmount)
  let window ← Window.ofSlots request.slots pool.tickSpacing request.direction
  if ¬window.StartsAt pool.tickCurrent.toInt then
    throw (.error (.invalidSequence .poolTickOutside))
  let order : SwapOrder :=
    { amount := request.amount
      limit
      side := request.side
      direction := request.direction
      timestamp := request.timestamp.getD pool.rewardLastUpdated }
  let (outcome, journal) := swap pool window order .blank
  let result ← outcome
  let (amountIn, amountOut) := match request.direction with
    | .aToB => (result.amountA, result.amountB)
    | .bToA => (result.amountB, result.amountA)
  request.checkThreshold amountIn amountOut
  let tickArrays ← instructionArrays window journal
  return {
    amountIn
    amountOut
    endTick := result.nextTick
    endSqrtPrice := result.nextSqrtPrice
    fee := result.totalFee
    amount := request.amount
    side := request.side
    direction := request.direction
    threshold := request.threshold
    limit := request.limit
    tickArrays }

def quote (request : QuoteRequest) (tolerance : Percentage) : Outcome Quote := do
  let quote ← request.simulate
  let amounts ←
    SwapAmounts.ofEstimate quote.amount quote.amountIn quote.amountOut tolerance quote.side
  return { quote with amount := amounts.amount, threshold := amounts.threshold }

/-- A request to trade an amount of `mint` on one side of a pool. The arrays are looked up under the
addresses that the book gives; an address that the source does not know is an empty slot. -/
def ofToken (poolAddress : Key) (pool : Pool) (mint : Key) (amount : BitVec 64) (side : Side)
    (source : Key → Option TickArray) (book : AddressBook) :
    Outcome (QuoteRequest × AddressBook) :=
  match pool.direction? mint side with
  | none => .error (.error (.unknownMint mint.text))
  | some direction => do
      let (addresses, book) ← book.arrayAddresses poolAddress pool.tickCurrent.toInt
        pool.tickSpacing.toNat direction
      return ({
        pool
        slots := addresses.map fun address => ⟨address, source address⟩
        amount
        limit := defaultLimit direction
        threshold := defaultThreshold side
        direction
        side
        timestamp := none }, book)

end QuoteRequest

def quoteByToken (poolAddress : Key) (pool : Pool) (mint : Key) (amount : BitVec 64) (side : Side)
    (tolerance : Percentage) (source : Key → Option TickArray) (book : AddressBook) :
    Outcome Quote × AddressBook :=
  match QuoteRequest.ofToken poolAddress pool mint amount side source book with
  | .error failure => (.error failure, book)
  | .ok (request, book) => (request.quote tolerance, book)

end PoolQuote
