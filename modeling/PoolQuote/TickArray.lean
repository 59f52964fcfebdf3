import PoolQuote.Error
import PoolQuote.Pool

/-!
Ticks and the fixed blocks in which the ledger stores them.
-/

set_option autoImplicit false

namespace PoolQuote

def ticksPerArray : Nat := 88

abbrev maxArrays : Nat := 3

-- A boundary of the price axis. Its net liquidity is added when the price crosses it upward.
structure Tick where
  initialized : Bool
  liquidityNet : Signed 128
  liquidityGross : BitVec 128
  feeGrowthOutsideA : BitVec 128
  feeGrowthOutsideB : BitVec 128
  rewardGrowthsOutside : Vector (BitVec 128) rewardCount
  deriving DecidableEq

def Tick.blank : Tick :=
  ⟨false, 0, 0, 0, 0, Vector.replicate rewardCount 0⟩

-- The ticks at `start`, `start + s`, `start + 2 * s` and so on, for the tick spacing `s`.
structure TickArray where
  start : Signed 32
  ticks : List Tick
  pool : Key
  deriving DecidableEq

namespace TickArray

def ofTicks (pool : Key) (start : Signed 32) (ticks : List Tick) :
    Except QuoteError TickArray :=
  if ticks.length = ticksPerArray then .ok ⟨start, ticks, pool⟩
  else .error (.invalidTickArrayLength ticksPerArray ticks.length)

def empty (pool : Key) (start : Signed 32) : TickArray :=
  ⟨start, List.replicate ticksPerArray .blank, pool⟩

def span (spacing : Nat) : Nat :=
  spacing * ticksPerArray

def Contains (array : TickArray) (t : Int) (spacing : Nat) : Prop :=
  array.start.toInt ≤ t ∧ t < array.start.toInt + span spacing

instance (array : TickArray) (t : Int) (spacing : Nat) : Decidable (array.Contains t spacing) :=
  inferInstanceAs (Decidable (_ ∧ _))

def tick? (array : TickArray) (offset : Nat) : Option Tick :=
  array.ticks[offset]?

def setTick (array : TickArray) (offset : Nat) (tick : Tick) : TickArray :=
  { array with ticks := array.ticks.set offset tick }

end TickArray

structure Slot where
  address : Key
  data : Option TickArray
  deriving DecidableEq

end PoolQuote
