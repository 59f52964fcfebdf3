import PoolQuote.Rewards
import PoolQuote.Proofs.WordArithmetic

/-!
Rewards caught up in one step or in two. Catching up changes nothing but growth, and the growth of two steps is that of
one, or one unit short of it: each step rounds down for itself.
-/

set_option autoImplicit false

namespace PoolQuote

namespace RewardInfo

theorem growth_exact {reward : RewardInfo} {seconds liquidity : Nat} (liquid : liquidity ≠ 0)
    (fits : FitsBits 128 (seconds * reward.emissionsPerSecond.toNat / liquidity)) :
    reward.growth seconds liquidity = BitVec.ofNat 128 (seconds * reward.emissionsPerSecond.toNat / liquidity) := by
  have quotient : mulDiv .down seconds reward.emissionsPerSecond.toNat liquidity =
      .ok (seconds * reward.emissionsPerSecond.toNat / liquidity) := (if_neg liquid).trans (if_pos fits)
  rw [growth, quotient]

theorem growth_zero (reward : RewardInfo) (liquidity : Nat) : reward.growth 0 liquidity = 0 := by
  by_cases dry : liquidity = 0
  · rw [growth, mulDiv, if_pos dry]
  · rw [growth_exact dry (by rw [Nat.zero_mul, Nat.zero_div]; decide), Nat.zero_mul, Nat.zero_div]
    rfl

-- The two quotients of a split leave rests of their own, which make up one more unit at most.
theorem growth_split {reward : RewardInfo} {liquidity : Nat} (first second : Nat) (liquid : liquidity ≠ 0)
    (fits : FitsBits 128 ((first + second) * reward.emissionsPerSecond.toNat / liquidity)) :
    ∃ rest : Nat, rest ≤ 1 ∧ reward.growth (first + second) liquidity =
      reward.growth first liquidity + reward.growth second liquidity + BitVec.ofNat 128 rest := by
  obtain ⟨rest, small, whole⟩ : ∃ rest : Nat, rest ≤ 1 ∧
      (first + second) * reward.emissionsPerSecond.toNat / liquidity =
        first * reward.emissionsPerSecond.toNat / liquidity +
          second * reward.emissionsPerSecond.toNat / liquidity + rest := by
    rw [Nat.add_mul, Nat.add_div (Nat.pos_of_ne_zero liquid)]
    refine ⟨_, ?_, rfl⟩
    split <;> omega
  have within : ∀ part, part ≤ first + second → FitsBits 128 (part * reward.emissionsPerSecond.toNat / liquidity) :=
    fun part le => fits.of_le (Nat.div_le_div_right (Nat.mul_le_mul_right _ le))
  refine ⟨rest, small, ?_⟩
  rw [growth_exact liquid fits, growth_exact liquid (within first (Nat.le_add_right _ _)),
    growth_exact liquid (within second (Nat.le_add_left _ _)), whole, BitVec.ofNat_add, BitVec.ofNat_add]

theorem accrue_live {reward : RewardInfo} (live : reward.isInitialized) (seconds liquidity : Nat) :
    (reward.accrue seconds liquidity).growthGlobal = reward.growthGlobal + reward.growth seconds liquidity := by
  rw [accrue, if_pos live]

theorem accrue_idle {reward : RewardInfo} (idle : ¬reward.isInitialized) (seconds liquidity : Nat) :
    reward.accrue seconds liquidity = reward :=
  if_neg idle

theorem accrue_keeps (reward : RewardInfo) (seconds liquidity : Nat) : reward.accrue seconds liquidity =
    { reward with growthGlobal := (reward.accrue seconds liquidity).growthGlobal } := by
  unfold accrue
  split <;> rfl

theorem accrue_zero (reward : RewardInfo) (liquidity : Nat) : reward.accrue 0 liquidity = reward := by
  unfold accrue
  split
  · have still : reward.growthGlobal + 0 = reward.growthGlobal := BitVec.add_zero _
    rw [growth_zero, still]
  · rfl

end RewardInfo

namespace Pool

def caughtUp (pool : Pool) (rewards : Vector RewardInfo rewardCount) (time : BitVec 64) : Pool :=
  { pool with rewards, rewardLastUpdated := time }

variable {pool : Pool} {time : BitVec 64}

theorem rewards_at_early (early : time.toNat < pool.rewardLastUpdated.toNat) :
    pool.rewardsAt time = .error (.invalidTimestamp time.toNat pool.rewardLastUpdated.toNat) :=
  if_pos early

section Timely

variable (timely : pool.rewardLastUpdated.toNat ≤ time.toNat)

include timely

theorem rewards_at_dry (dry : pool.liquidity = 0) : pool.rewardsAt time = .ok pool.rewards :=
  (if_neg (not_lt.mpr timely)).trans (if_pos (.inl dry))

theorem rewards_at_liquid (liquid : pool.liquidity ≠ 0) : pool.rewardsAt time = .ok (pool.rewards.map fun reward =>
    reward.accrue (time.toNat - pool.rewardLastUpdated.toNat) pool.liquidity.toNat) := by
  refine (if_neg (not_lt.mpr timely)).trans ?_
  by_cases still : time.toNat = pool.rewardLastUpdated.toNat
  · rw [if_pos (.inr still), still, Nat.sub_self]
    simp only [RewardInfo.accrue_zero, Vector.map_id']
  · exact if_neg (not_or.mpr ⟨liquid, still⟩)

theorem rewards_at_get {rewards : Vector RewardInfo rewardCount} (ok : pool.rewardsAt time = .ok rewards)
    (liquid : pool.liquidity ≠ 0) (i : Fin rewardCount) : rewards.get i =
      (pool.rewards.get i).accrue (time.toNat - pool.rewardLastUpdated.toNat) pool.liquidity.toNat := by
  rw [rewards_at_liquid timely liquid] at ok
  cases Except.ok.inj ok
  exact Vector.getElem_map _ _

theorem rewards_at_ok : ∃ rewards, pool.rewardsAt time = .ok rewards := by
  by_cases dry : pool.liquidity = 0
  · exact ⟨_, rewards_at_dry timely dry⟩
  · exact ⟨_, rewards_at_liquid timely dry⟩

end Timely

theorem rewards_at_error_iff (cause : QuoteError) : pool.rewardsAt time = .error cause ↔
    time.toNat < pool.rewardLastUpdated.toNat ∧ cause = .invalidTimestamp time.toNat pool.rewardLastUpdated.toNat := by
  by_cases early : time.toNat < pool.rewardLastUpdated.toNat
  · rw [rewards_at_early early]
    simp [early, eq_comm]
  · obtain ⟨rewards, ok⟩ := rewards_at_ok (not_lt.mp early)
    rw [ok]
    simp [early]

theorem rewards_at_keeps {rewards : Vector RewardInfo rewardCount} (ok : pool.rewardsAt time = .ok rewards)
    (i : Fin rewardCount) : rewards.get i = { pool.rewards.get i with growthGlobal := (rewards.get i).growthGlobal } ∧
      (¬(pool.rewards.get i).isInitialized ∨ pool.liquidity = 0 → rewards.get i = pool.rewards.get i) := by
  by_cases early : time.toNat < pool.rewardLastUpdated.toNat
  · rw [rewards_at_early early] at ok
    cases ok
  by_cases dry : pool.liquidity = 0
  · rw [rewards_at_dry (not_lt.mp early) dry] at ok
    cases Except.ok.inj ok
    exact ⟨rfl, fun _ => rfl⟩
  · rw [rewards_at_get (not_lt.mp early) ok dry i]
    exact ⟨RewardInfo.accrue_keeps _ _ _, fun still =>
      RewardInfo.accrue_idle (still.resolve_right dry) _ _⟩

theorem rewards_at_is_initialized {rewards : Vector RewardInfo rewardCount} (ok : pool.rewardsAt time = .ok rewards)
    (i : Fin rewardCount) : (rewards.get i).isInitialized = (pool.rewards.get i).isInitialized := by
  rw [(rewards_at_keeps ok i).1]
  rfl

theorem rewards_at_growth {rewards : Vector RewardInfo rewardCount} (ok : pool.rewardsAt time = .ok rewards)
    (liquid : pool.liquidity ≠ 0) (i : Fin rewardCount) (live : (pool.rewards.get i).isInitialized) :
    (rewards.get i).growthGlobal = (pool.rewards.get i).growthGlobal +
      (pool.rewards.get i).growth (time.toNat - pool.rewardLastUpdated.toNat) pool.liquidity.toNat := by
  have timely : pool.rewardLastUpdated.toNat ≤ time.toNat := by
    by_contra early
    rw [rewards_at_early (not_le.mp early)] at ok
    cases ok
  rw [rewards_at_get timely ok liquid i]
  exact RewardInfo.accrue_live live _ _

-- Caught up to a later time at once, and by way of an earlier time.
theorem split_growth {earlier later : BitVec 64} {direct first second : Vector RewardInfo rewardCount}
    (since : pool.rewardLastUpdated.toNat ≤ earlier.toNat) (ordered : earlier.toNat ≤ later.toNat)
    (atOnce : pool.rewardsAt later = .ok direct) (before : pool.rewardsAt earlier = .ok first)
    (after : (pool.caughtUp first earlier).rewardsAt later = .ok second) (liquid : pool.liquidity ≠ 0) (i : Fin rewardCount)
    (live : (pool.rewards.get i).isInitialized) (fits : FitsBits 128 ((later.toNat - pool.rewardLastUpdated.toNat) *
      (pool.rewards.get i).emissionsPerSecond.toNat / pool.liquidity.toNat)) :
    ∃ rest : Nat, rest ≤ 1 ∧ (direct.get i).growthGlobal = (second.get i).growthGlobal + BitVec.ofNat 128 rest := by
  have liveAfter : (first.get i).isInitialized := by
    rw [rewards_at_is_initialized before i]
    exact live
  -- The rate, and with it the growth in a time, is the same in both steps.
  have sameGrowth : ∀ seconds, (first.get i).growth seconds pool.liquidity.toNat =
      (pool.rewards.get i).growth seconds pool.liquidity.toNat := by
    intro seconds
    rw [(rewards_at_keeps before i).1]
    rfl
  have last : (second.get i).growthGlobal = (first.get i).growthGlobal +
      (first.get i).growth (later.toNat - earlier.toNat) pool.liquidity.toNat := rewards_at_growth after liquid i liveAfter
  have whole : later.toNat - pool.rewardLastUpdated.toNat =
      (earlier.toNat - pool.rewardLastUpdated.toNat) + (later.toNat - earlier.toNat) := by omega
  rw [whole] at fits
  have positive : pool.liquidity.toNat ≠ 0 := fun zero => liquid (BitVec.eq_of_toNat_eq zero)
  obtain ⟨rest, small, split⟩ := RewardInfo.growth_split _ _ positive fits
  refine ⟨rest, small, ?_⟩
  rw [rewards_at_growth atOnce liquid i live, whole, split, last, rewards_at_growth before liquid i live, sameGrowth]
  simp only [BitVec.add_assoc]

end Pool

/-- Catching up in two steps instead of one loses at most one unit of growth. -/
theorem accrual_splits_in_time (pool : Pool) (earlier later : BitVec 64)
    (since : pool.rewardLastUpdated.toNat ≤ earlier.toNat) (ordered : earlier.toNat ≤ later.toNat) :
    (∀ time cause, pool.rewardsAt time = .error cause ↔ time.toNat < pool.rewardLastUpdated.toNat ∧
        cause = .invalidTimestamp time.toNat pool.rewardLastUpdated.toNat) ∧
      (∀ time rewards, pool.rewardsAt time = .ok rewards → ∀ i : Fin rewardCount,
        rewards.get i = { pool.rewards.get i with growthGlobal := (rewards.get i).growthGlobal } ∧
          (¬(pool.rewards.get i).isInitialized ∨ pool.liquidity = 0 → rewards.get i = pool.rewards.get i)) ∧
      ∃ direct first second, pool.rewardsAt later = .ok direct ∧ pool.rewardsAt earlier = .ok first ∧
        (pool.caughtUp first earlier).rewardsAt later = .ok second ∧
        ∀ i : Fin rewardCount, (pool.rewards.get i).isInitialized → pool.liquidity ≠ 0 →
          (later.toNat - pool.rewardLastUpdated.toNat) * (pool.rewards.get i).emissionsPerSecond.toNat /
            pool.liquidity.toNat < 2 ^ 128 →
          (direct.get i).growthGlobal - (second.get i).growthGlobal = 0 ∨
            (direct.get i).growthGlobal - (second.get i).growthGlobal = 1 := by
  refine ⟨fun time cause => Pool.rewards_at_error_iff cause, fun time rewards ok => Pool.rewards_at_keeps ok, ?_⟩
  obtain ⟨direct, atOnce⟩ := Pool.rewards_at_ok (le_trans since ordered)
  obtain ⟨first, before⟩ := Pool.rewards_at_ok since
  have again : (pool.caughtUp first earlier).rewardLastUpdated.toNat ≤ later.toNat := ordered
  obtain ⟨second, after⟩ := Pool.rewards_at_ok again
  refine ⟨direct, first, second, atOnce, before, after, fun i live liquid fits => ?_⟩
  obtain ⟨rest, small, split⟩ := Pool.split_growth since ordered atOnce before after liquid i live fits
  have gained : (direct.get i).growthGlobal - (second.get i).growthGlobal = BitVec.ofNat 128 rest := by
    rw [split, BitVec.add_comm, BitVec.add_sub_cancel]
  rw [gained]
  rcases Nat.le_one_iff_eq_zero_or_eq_one.mp small with rfl | rfl
  · exact .inl rfl
  · exact .inr rfl

def Sample.slow : Pool :=
  { Pool.blank with
    liquidity := 2
    rewards := Vector.replicate rewardCount
      { RewardInfo.blank with mint := ⟨Vector.replicate 32 1⟩, emissionsPerSecond := 1, growthGlobal := BitVec.allOnes 128 } }

theorem accrual_splits_in_time_sample : ∃ direct first second, Sample.slow.rewardsAt 2 = .ok direct ∧
    Sample.slow.rewardsAt 1 = .ok first ∧ (Sample.slow.caughtUp first 1).rewardsAt 2 = .ok second ∧
    (second.get 0).growthGlobal = BitVec.allOnes 128 ∧ (direct.get 0).growthGlobal - (second.get 0).growthGlobal = 1 := by
  obtain ⟨_, _, direct, first, second, atOnce, before, after, splits⟩ :=
    accrual_splits_in_time Sample.slow 1 2 (by decide) (by decide)
  have wraps : (Sample.slow.rewardsAt 2).toOption.map (fun rewards => (rewards.get 0).growthGlobal) = some 0 := by
    decide +kernel
  have stays : ((Sample.slow.rewardsAt 1).toOption.bind fun rewards =>
      ((Sample.slow.caughtUp rewards 1).rewardsAt 2).toOption.map fun rewards => (rewards.get 0).growthGlobal) =
        some (BitVec.allOnes 128) := by
    decide +kernel
  rw [atOnce] at wraps
  rw [before, Except.toOption, Option.bind_some, after] at stays
  have grown : (direct.get 0).growthGlobal = 0 := Option.some.inj wraps
  have short : (second.get 0).growthGlobal = BitVec.allOnes 128 := Option.some.inj stays
  refine ⟨direct, first, second, atOnce, before, after, short, ?_⟩
  refine (splits 0 (by decide) (by decide) (by decide)).resolve_left fun same => ?_
  have equal : (direct.get 0).growthGlobal - (second.get 0).growthGlobal = 0 := same
  rw [grown, short] at equal
  exact absurd equal (by decide)

end PoolQuote
