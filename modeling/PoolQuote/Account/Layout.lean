import PoolQuote.Bytes
import PoolQuote.Error
import PoolQuote.TickArray

/-!
Reading ledger records in their binary layout: fields in order, words with the least significant
byte first, truth values as one byte, keys as thirty-two bytes.
-/

set_option autoImplicit false

namespace PoolQuote.Layout

abbrev Reader := StateT (List UInt8) (Except LayoutFault)

def bytes (n : Nat) : Reader (List UInt8) := fun data =>
  if (data.take n).length < n then .error .endOfInput else .ok (data.take n, data.drop n)

def unsigned (w : Nat) : Reader (BitVec w) := do
  return BitVec.ofNat w (Bytes.toNat (← bytes (w / 8)))

def signed (w : Nat) : Reader (Signed w) := do
  return ⟨← unsigned w⟩

def flag : Reader Bool := do
  match ← unsigned 8 with
  | 0 => return false
  | 1 => return true
  | b => throw (.invalidBool b.toNat)

def key : Reader Key := do
  match Key.ofBytes? (← bytes 32) with
  | some key => return key
  | none => throw .endOfInput

def many {α : Type} (reader : Reader α) : Nat → Reader (List α)
  | 0 => pure []
  | n + 1 => do
      let first ← reader
      let rest ← many reader n
      return first :: rest

def perReward {α : Type} (reader : Reader α) : Reader (Vector α rewardCount) := do
  let first ← reader
  let second ← reader
  let third ← reader
  return #v[first, second, third]

def rewardInfo : Reader RewardInfo := do
  return {
    mint := ← key
    vault := ← key
    authority := ← key
    emissionsPerSecond := ← unsigned 128
    growthGlobal := ← unsigned 128 }

def pool : Reader Pool := do
  let poolsConfig ← key
  let bump ← unsigned 8
  let tickSpacing ← unsigned 16
  let seedLow ← unsigned 8
  let seedHigh ← unsigned 8
  let feeRate ← unsigned 16
  let protocolFeeRate ← unsigned 16
  let liquidity ← unsigned 128
  let sqrtPrice ← unsigned 128
  let tickCurrent ← signed 32
  let owedA ← unsigned 64
  let owedB ← unsigned 64
  let mintA ← key
  let vaultA ← key
  let growthA ← unsigned 128
  let mintB ← key
  let vaultB ← key
  let growthB ← unsigned 128
  let rewardLastUpdated ← unsigned 64
  let rewards ← perReward rewardInfo
  return {
    poolsConfig, bump, tickSpacing, feeRate, protocolFeeRate, liquidity, sqrtPrice, tickCurrent
    tickSpacingSeed := #v[seedLow, seedHigh]
    tokenA := ⟨mintA, vaultA, growthA, owedA⟩
    tokenB := ⟨mintB, vaultB, growthB, owedB⟩
    rewardLastUpdated, rewards }

def tick : Reader Tick := do
  return {
    initialized := ← flag
    liquidityNet := ← signed 128
    liquidityGross := ← unsigned 128
    feeGrowthOutsideA := ← unsigned 128
    feeGrowthOutsideB := ← unsigned 128
    rewardGrowthsOutside := ← perReward (unsigned 128) }

-- The number of ticks is checked once the whole array is read.
def tickArray : Reader (Except QuoteError TickArray) := do
  let start ← signed 32
  let ticks ← many tick ticksPerArray
  let pool ← key
  return TickArray.ofTicks pool start ticks

def feeTier : Reader FeeTier := do
  return {
    poolsConfig := ← key
    tickSpacing := ← unsigned 16
    defaultFeeRate := ← unsigned 16 }

def poolsConfig : Reader PoolsConfig := do
  return {
    feeAuthority := ← key
    collectProtocolFeesAuthority := ← key
    rewardEmissionsSuperAuthority := ← key
    defaultProtocolFeeRate := ← unsigned 16 }

end PoolQuote.Layout
