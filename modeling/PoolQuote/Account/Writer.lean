import PoolQuote.Account

/-!
Writing ledger records in the binary layout in which they are read.
-/

set_option autoImplicit false

namespace PoolQuote

namespace Layout

def unsignedBytes {w : Nat} (x : BitVec w) : List UInt8 :=
  Bytes.ofNat (w / 8) x.toNat

def signedBytes {w : Nat} (x : Signed w) : List UInt8 :=
  unsignedBytes x.bits

def flagBytes (b : Bool) : List UInt8 :=
  [if b then 1 else 0]

def keyBytes (key : Key) : List UInt8 :=
  key.bytes.toList

def rewardInfoBytes (reward : RewardInfo) : List UInt8 :=
  keyBytes reward.mint ++ keyBytes reward.vault ++ keyBytes reward.authority ++
    unsignedBytes reward.emissionsPerSecond ++ unsignedBytes reward.growthGlobal

def poolBytes (pool : Pool) : List UInt8 :=
  keyBytes pool.poolsConfig ++ unsignedBytes pool.bump ++ unsignedBytes pool.tickSpacing ++
    pool.tickSpacingSeed.toList.flatMap unsignedBytes ++
    unsignedBytes pool.feeRate ++ unsignedBytes pool.protocolFeeRate ++
    unsignedBytes pool.liquidity ++ unsignedBytes pool.sqrtPrice ++
    signedBytes pool.tickCurrent ++
    unsignedBytes pool.tokenA.protocolFeeOwed ++ unsignedBytes pool.tokenB.protocolFeeOwed ++
    keyBytes pool.tokenA.mint ++ keyBytes pool.tokenA.vault ++
    unsignedBytes pool.tokenA.feeGrowthGlobal ++
    keyBytes pool.tokenB.mint ++ keyBytes pool.tokenB.vault ++
    unsignedBytes pool.tokenB.feeGrowthGlobal ++
    unsignedBytes pool.rewardLastUpdated ++
    pool.rewards.toList.flatMap rewardInfoBytes

def tickBytes (tick : Tick) : List UInt8 :=
  flagBytes tick.initialized ++ signedBytes tick.liquidityNet ++
    unsignedBytes tick.liquidityGross ++ unsignedBytes tick.feeGrowthOutsideA ++
    unsignedBytes tick.feeGrowthOutsideB ++
    tick.rewardGrowthsOutside.toList.flatMap unsignedBytes

def tickArrayBytes (array : TickArray) : List UInt8 :=
  signedBytes array.start ++ array.ticks.flatMap tickBytes ++ keyBytes array.pool

def feeTierBytes (tier : FeeTier) : List UInt8 :=
  keyBytes tier.poolsConfig ++ unsignedBytes tier.tickSpacing ++
    unsignedBytes tier.defaultFeeRate

def poolsConfigBytes (config : PoolsConfig) : List UInt8 :=
  keyBytes config.feeAuthority ++ keyBytes config.collectProtocolFeesAuthority ++
    keyBytes config.rewardEmissionsSuperAuthority ++
    unsignedBytes config.defaultProtocolFeeRate

end Layout

namespace Account

def body : Account → List UInt8
  | pool record => Layout.poolBytes record
  | tickArray record => Layout.tickArrayBytes record
  | feeTier record => Layout.feeTierBytes record
  | poolsConfig record => Layout.poolsConfigBytes record

def encode (account : Account) : List UInt8 :=
  account.kind.discriminator ++ account.body

end Account

end PoolQuote
