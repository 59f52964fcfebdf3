import PoolQuote.Arithmetic
import PoolQuote.Pool

/-!
Rewards caught up to a time. Growth accrues to the liquidity in range, so there is none without
liquidity.
-/

set_option autoImplicit false

namespace PoolQuote

/-- The growth of a reward in `seconds`. A rate whose growth leaves 128 bits adds nothing. -/
def RewardInfo.growth (reward : RewardInfo) (seconds liquidity : Nat) : BitVec 128 :=
  match mulDiv .down seconds reward.emissionsPerSecond.toNat liquidity with
  | .ok growth => BitVec.ofNat 128 growth
  | .error _ => 0

def RewardInfo.accrue (reward : RewardInfo) (seconds liquidity : Nat) : RewardInfo :=
  if reward.isInitialized then
    { reward with growthGlobal := reward.growthGlobal + reward.growth seconds liquidity }
  else reward

def Pool.rewardsAt (pool : Pool) (timestamp : BitVec 64) :
    Except QuoteError (Vector RewardInfo rewardCount) :=
  let now := timestamp.toNat
  let last := pool.rewardLastUpdated.toNat
  if now < last then .error (.invalidTimestamp now last)
  else if pool.liquidity = 0 ∨ now = last then .ok pool.rewards
  else .ok (pool.rewards.map fun reward => reward.accrue (now - last) pool.liquidity.toNat)

end PoolQuote
