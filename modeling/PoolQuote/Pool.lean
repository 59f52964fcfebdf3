import PoolQuote.Direction
import PoolQuote.Key
import PoolQuote.Word

/-!
Snapshots of the ledger records of a pool: the pool itself, its rewards, its fee tier and the
settings that pools share.
-/

set_option autoImplicit false

namespace PoolQuote

abbrev rewardCount : Nat := 3

structure RewardInfo where
  mint : Key
  vault : Key
  authority : Key
  emissionsPerSecond : BitVec 128
  growthGlobal : BitVec 128
  deriving DecidableEq

namespace RewardInfo

def blank : RewardInfo :=
  ⟨.zero, .zero, .zero, 0, 0⟩

def isInitialized (reward : RewardInfo) : Bool :=
  reward.mint ≠ .zero

end RewardInfo

structure PoolToken where
  mint : Key
  vault : Key
  feeGrowthGlobal : BitVec 128
  protocolFeeOwed : BitVec 64
  deriving DecidableEq

def PoolToken.blank : PoolToken :=
  ⟨.zero, .zero, 0, 0⟩

-- A pool. The fee rate counts millionths, the protocol's share of the fee ten-thousandths.
structure Pool where
  poolsConfig : Key
  bump : BitVec 8
  tickSpacing : BitVec 16
  tickSpacingSeed : Vector (BitVec 8) 2
  feeRate : BitVec 16
  protocolFeeRate : BitVec 16
  liquidity : BitVec 128
  sqrtPrice : BitVec 128
  tickCurrent : Signed 32
  tokenA : PoolToken
  tokenB : PoolToken
  rewardLastUpdated : BitVec 64
  rewards : Vector RewardInfo rewardCount
  deriving DecidableEq

namespace Pool

def blank : Pool where
  poolsConfig := .zero
  bump := 0
  tickSpacing := 0
  tickSpacingSeed := Vector.replicate 2 0
  feeRate := 0
  protocolFeeRate := 0
  liquidity := 0
  sqrtPrice := 0
  tickCurrent := 0
  tokenA := .blank
  tokenB := .blank
  rewardLastUpdated := 0
  rewards := Vector.replicate rewardCount .blank

def token (pool : Pool) : Token → PoolToken
  | .a => pool.tokenA
  | .b => pool.tokenB

def inputFeeGrowth (pool : Pool) (direction : Direction) : BitVec 128 :=
  (pool.token direction.inputToken).feeGrowthGlobal

def isRewardInitialized (pool : Pool) (index : Nat) : Bool :=
  (pool.rewards[index]?).any RewardInfo.isInitialized

-- Which token of the pool a mint is; `a` if both tokens share it.
def tokenOf? (pool : Pool) (mint : Key) : Option Token :=
  if mint = pool.tokenA.mint then some .a
  else if mint = pool.tokenB.mint then some .b
  else none

def direction? (pool : Pool) (mint : Key) (side : Side) : Option Direction :=
  (pool.tokenOf? mint).map fun token => Direction.ofToken token side

end Pool

structure FeeTier where
  poolsConfig : Key
  tickSpacing : BitVec 16
  defaultFeeRate : BitVec 16
  deriving DecidableEq

structure PoolsConfig where
  feeAuthority : Key
  collectProtocolFeesAuthority : Key
  rewardEmissionsSuperAuthority : Key
  defaultProtocolFeeRate : BitVec 16
  deriving DecidableEq

end PoolQuote
