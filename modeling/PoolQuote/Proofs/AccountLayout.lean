import PoolQuote.Account.Writer
import PoolQuote.Proofs.KeyText
import Mathlib.Tactic.Common

/-!
Readers and writers of the binary layout belong together: a reader takes a value off the front of its data exactly
if the data starts with the bytes that are written for the value. It is shown for words, truth values and keys, and
from there for whole records.
-/

set_option autoImplicit false

namespace PoolQuote

namespace Bytes

theorem toNat_lt (bytes : List UInt8) : toNat bytes < Nat.pow 256 bytes.length := by
  have same := toNat_ofNat bytes.length (toNat bytes)
  rw [ofNat_toNat] at same
  rw [same]
  exact Nat.mod_lt _ (Nat.pow_pos (by decide))

theorem spell_iff {w n : Nat} (whole : w = 8 * n) (bytes : List UInt8) (x : BitVec w) :
    bytes.length = n ∧ BitVec.ofNat w (toNat bytes) = x ↔ bytes = ofNat n x.toNat := by
  subst whole
  have width : Nat.pow 256 n = 2 ^ (8 * n) := (Nat.pow_mul 2 8 n).symm
  constructor
  · rintro ⟨rfl, rfl⟩
    rw [BitVec.toNat_ofNat, Nat.mod_eq_of_lt (width ▸ toNat_lt bytes), ofNat_toNat]
  · rintro rfl
    refine ⟨length_ofNat n _, BitVec.eq_of_toNat_eq ?_⟩
    rw [toNat_ofNat, BitVec.toNat_ofNat, width, Nat.mod_mod, Nat.mod_eq_of_lt x.isLt]

end Bytes

namespace Layout

variable {α β : Type}

-- The reader takes a value off its data if the data starts with the bytes of that value, and only then.
def Reads (reader : Reader α) (bytes : α → List UInt8) : Prop :=
  ∀ data value rest, reader data = .ok (value, rest) ↔ data = bytes value ++ rest

theorem bind_ok_iff {reader : Reader α} {next : α → Reader β} {data rest : List UInt8} {value : β} :
    (reader >>= next) data = .ok (value, rest) ↔
      ∃ field tail, reader data = .ok (field, tail) ∧ next field tail = .ok (value, rest) := by
  change Except.bind (reader data) (fun read => next read.1 read.2) = _ ↔ _
  cases reader data with
  | error fault => simp [Except.bind]
  | ok read =>
      obtain ⟨field, tail⟩ := read
      simp [Except.bind]

theorem pure_ok_iff {x value : α} {data rest : List UInt8} :
    (pure x : Reader α) data = .ok (value, rest) ↔ x = value ∧ data = rest := by
  change Except.ok (x, data) = _ ↔ _
  simp

theorem Reads.bind_ok_iff {reader : Reader α} {bytes : α → List UInt8} (reads : Reads reader bytes)
    {next : α → Reader β} {data rest : List UInt8} {value : β} : (reader >>= next) data = .ok (value, rest) ↔
      ∃ field tail, data = bytes field ++ tail ∧ next field tail = .ok (value, rest) := by
  simp only [Layout.bind_ok_iff, reads _ _ _]

theorem bytes_ok_iff {n : Nat} {data taken rest : List UInt8} :
    bytes n data = .ok (taken, rest) ↔ taken.length = n ∧ data = taken ++ rest := by
  unfold bytes
  constructor
  · intro ok
    split at ok
    · cases ok
    · rename_i enough
      cases ok
      have short := List.length_take_le n data
      exact ⟨by omega, (List.take_append_drop n data).symm⟩
  · rintro ⟨rfl, rfl⟩
    simp

theorem unsigned_reads {w n : Nat} (whole : w = 8 * n) : Reads (unsigned w) unsignedBytes := by
  intro data value rest
  have count : w / 8 = n := by omega
  simp only [unsigned, unsignedBytes, Layout.bind_ok_iff, bytes_ok_iff, pure_ok_iff, count]
  constructor
  · rintro ⟨taken, _, ⟨length, rfl⟩, same, rfl⟩
    rw [(Bytes.spell_iff whole taken value).mp ⟨length, same⟩]
  · rintro rfl
    have written := (Bytes.spell_iff whole _ value).mpr rfl
    exact ⟨_, _, ⟨written.1, rfl⟩, written.2, rfl⟩

theorem signed_reads {w n : Nat} (whole : w = 8 * n) : Reads (signed w) signedBytes := by
  intro data value rest
  simp only [signed, (unsigned_reads whole).bind_ok_iff, pure_ok_iff, signedBytes]
  constructor
  · rintro ⟨bits, _, rfl, rfl, rfl⟩
    rfl
  · rintro rfl
    exact ⟨value.bits, _, rfl, rfl, rfl⟩

theorem flag_reads : Reads flag flagBytes := by
  intro data value rest
  simp only [flag, (unsigned_reads (n := 1) rfl).bind_ok_iff]
  constructor
  · rintro ⟨byte, tail, rfl, ok⟩
    split at ok
    · obtain ⟨rfl, rfl⟩ := pure_ok_iff.mp ok
      rfl
    · obtain ⟨rfl, rfl⟩ := pure_ok_iff.mp ok
      rfl
    · cases ok
  · rintro rfl
    cases value with
    | false => exact ⟨0, rest, rfl, rfl⟩
    | true => exact ⟨1, rest, rfl, rfl⟩

theorem key_reads : Reads key keyBytes := by
  intro data value rest
  simp only [key, bind_ok_iff, bytes_ok_iff]
  constructor
  · rintro ⟨taken, tail, ⟨_, rfl⟩, ok⟩
    cases read : Key.ofBytes? taken with
    | none =>
        rw [read] at ok
        cases ok
    | some found =>
        rw [read] at ok
        obtain ⟨rfl, rfl⟩ := pure_ok_iff.mp ok
        rw [(Key.of_bytes_eq_some_iff taken _).mp read]
        rfl
  · rintro rfl
    refine ⟨keyBytes value, rest, ⟨by simp [keyBytes], rfl⟩, ?_⟩
    have read : Key.ofBytes? (keyBytes value) = some value := (Key.of_bytes_eq_some_iff _ value).mpr rfl
    rw [read]
    rfl

theorem many_ok_iff {reader : Reader α} {bytes : α → List UInt8} (reads : Reads reader bytes) {n : Nat}
    {data rest : List UInt8} {values : List α} :
    many reader n data = .ok (values, rest) ↔ values.length = n ∧ data = values.flatMap bytes ++ rest := by
  induction n generalizing data values rest with
  | zero =>
      simp only [many, pure_ok_iff, List.length_eq_zero_iff]
      constructor
      · rintro ⟨rfl, rfl⟩
        exact ⟨rfl, rfl⟩
      · rintro ⟨rfl, rfl⟩
        exact ⟨rfl, rfl⟩
  | succ n ih =>
      simp only [many, reads.bind_ok_iff, bind_ok_iff, ih, pure_ok_iff]
      constructor
      · rintro ⟨first, _, rfl, others, _, ⟨rfl, rfl⟩, rfl, rfl⟩
        simp
      · rintro ⟨length, rfl⟩
        cases values with
        | nil => cases length
        | cons first others =>
            exact ⟨first, _, by simp, others, rest, ⟨Nat.succ.inj length, rfl⟩, rfl, rfl⟩

theorem per_reward_reads {reader : Reader α} {bytes : α → List UInt8} (reads : Reads reader bytes) :
    Reads (perReward reader) fun values => values.toList.flatMap bytes := by
  intro data values rest
  simp only [perReward, reads.bind_ok_iff, pure_ok_iff]
  constructor
  · rintro ⟨first, _, rfl, second, _, rfl, third, _, rfl, rfl, rfl⟩
    simp
  · rintro rfl
    obtain ⟨⟨listed⟩, length⟩ := values
    match listed, length with
    | [first, second, third], _ => exact ⟨first, _, by simp, second, _, rfl, third, _, rfl, rfl, rfl⟩

theorem exists_pair (values : Vector α 2) : ∃ first second, values = #v[first, second] := by
  obtain ⟨⟨listed⟩, length⟩ := values
  match listed, length with
  | [first, second], _ => exact ⟨first, second, rfl⟩

section Records

-- What is left to read of a record, once the fields are known that stand before it.
def Completes (reader : Reader β) (bytes : β → List UInt8) (known : β → Prop) : Prop :=
  ∀ data value rest, reader data = .ok (value, rest) ↔ known value ∧ data = bytes value ++ rest

theorem Reads.field {reader : Reader α} {bytes : α → List UInt8} (reads : Reads reader bytes) (field : β → α)
    {next : α → Reader β} {others : β → List UInt8} {known : β → Prop}
    (completes : ∀ x, Completes (next x) others fun value => known value ∧ field value = x) :
    Completes (reader >>= next) (fun value => bytes (field value) ++ others value) known := by
  intro data value rest
  simp only [reads.bind_ok_iff, completes _ _ _ _, List.append_assoc]
  constructor
  · rintro ⟨_, _, rfl, ⟨before, rfl⟩, rfl⟩
    exact ⟨before, rfl⟩
  · rintro ⟨before, rfl⟩
    exact ⟨_, _, rfl, ⟨before, rfl⟩, rfl⟩

theorem completes_pure {x : β} {known : β → Prop} (complete : ∀ value, known value ↔ x = value) :
    Completes (pure x) (fun _ => []) known := by
  intro data value rest
  simp only [pure_ok_iff, complete, List.nil_append]

theorem Completes.reads {reader : Reader β} {bytes written : β → List UInt8}
    (completes : Completes reader bytes fun _ => True) (same : ∀ value, written value = bytes value) :
    Reads reader written := by
  intro data value rest
  rw [completes data value rest, same value, true_and]

theorem reward_info_reads : Reads rewardInfo rewardInfoBytes := by
  have word := unsigned_reads (w := 128) (n := 16) rfl
  refine Completes.reads (key_reads.field RewardInfo.mint fun _ => key_reads.field RewardInfo.vault fun _ =>
    key_reads.field RewardInfo.authority fun _ => word.field RewardInfo.emissionsPerSecond fun _ =>
    word.field RewardInfo.growthGlobal fun _ => completes_pure fun value => ?_) fun value => ?_
  · cases value
    simp [eq_comm, and_assoc]
  · simp [rewardInfoBytes]

theorem tick_reads : Reads tick tickBytes := by
  have word := unsigned_reads (w := 128) (n := 16) rfl
  refine Completes.reads (flag_reads.field Tick.initialized fun _ =>
    (signed_reads (n := 16) rfl).field Tick.liquidityNet fun _ => word.field Tick.liquidityGross fun _ =>
    word.field Tick.feeGrowthOutsideA fun _ => word.field Tick.feeGrowthOutsideB fun _ =>
    (per_reward_reads word).field Tick.rewardGrowthsOutside fun _ => completes_pure fun value => ?_) fun value => ?_
  · cases value
    simp [eq_comm, and_assoc]
  · simp [tickBytes]

theorem fee_tier_reads : Reads feeTier feeTierBytes := by
  have word := unsigned_reads (w := 16) (n := 2) rfl
  refine Completes.reads (key_reads.field FeeTier.poolsConfig fun _ => word.field FeeTier.tickSpacing fun _ =>
    word.field FeeTier.defaultFeeRate fun _ => completes_pure fun value => ?_) fun value => ?_
  · cases value
    simp [eq_comm, and_assoc]
  · simp [feeTierBytes]

theorem pools_config_reads : Reads poolsConfig poolsConfigBytes := by
  refine Completes.reads (key_reads.field PoolsConfig.feeAuthority fun _ =>
    key_reads.field PoolsConfig.collectProtocolFeesAuthority fun _ =>
    key_reads.field PoolsConfig.rewardEmissionsSuperAuthority fun _ =>
    (unsigned_reads (n := 2) rfl).field PoolsConfig.defaultProtocolFeeRate fun _ =>
    completes_pure fun value => ?_) fun value => ?_
  · cases value
    simp [eq_comm, and_assoc]
  · simp [poolsConfigBytes]

theorem Completes.of_known {reader : Reader β} {bytes : β → List UInt8} {known expected : β → Prop}
    (completes : Completes reader bytes known) (same : ∀ value, expected value ↔ known value) :
    Completes reader bytes expected := by
  intro data value rest
  rw [completes data value rest, same value]

theorem Completes.of_bytes {reader : Reader β} {bytes written : β → List UInt8} {known : β → Prop}
    (completes : Completes reader bytes known) (same : ∀ value, written value = bytes value) :
    Completes reader written known := by
  intro data value rest
  rw [completes data value rest, same value]

section Groups

variable {others : Pool → List UInt8} {known : Pool → Prop}

def identityBytes (pool : Pool) : List UInt8 :=
  keyBytes pool.poolsConfig ++ unsignedBytes pool.bump ++ unsignedBytes pool.tickSpacing ++
    pool.tickSpacingSeed.toList.flatMap unsignedBytes

-- A group of fields is known as one tuple, so that the last step names four groups and not twenty fields.
theorem completes_identity {next : Key → BitVec 8 → BitVec 16 → BitVec 8 → BitVec 8 → Reader Pool}
    (completes : ∀ config bump spacing low high, Completes (next config bump spacing low high) others fun pool =>
      known pool ∧ (pool.poolsConfig, pool.bump, pool.tickSpacing, pool.tickSpacingSeed) =
        (config, bump, spacing, #v[low, high])) :
    Completes (do
      let config ← key
      let bump ← unsigned 8
      let spacing ← unsigned 16
      let low ← unsigned 8
      let high ← unsigned 8
      next config bump spacing low high) (fun pool => identityBytes pool ++ others pool) known := by
  have byte := unsigned_reads (w := 8) (n := 1) rfl
  have rate := unsigned_reads (w := 16) (n := 2) rfl
  refine (key_reads.field Pool.poolsConfig fun config => byte.field Pool.bump fun bump =>
    rate.field Pool.tickSpacing fun spacing => byte.field (fun pool : Pool => pool.tickSpacingSeed[0]) fun low =>
    byte.field (fun pool : Pool => pool.tickSpacingSeed[1]) fun high =>
      (completes config bump spacing low high).of_known fun pool => ?_).of_bytes fun pool => ?_
  · obtain ⟨low', high', seed⟩ := exists_pair pool.tickSpacingSeed
    simp [seed, and_assoc]
  · obtain ⟨low, high, seed⟩ := exists_pair pool.tickSpacingSeed
    simp [identityBytes, seed]

def marketBytes (pool : Pool) : List UInt8 :=
  unsignedBytes pool.feeRate ++ unsignedBytes pool.protocolFeeRate ++ unsignedBytes pool.liquidity ++
    unsignedBytes pool.sqrtPrice ++ signedBytes pool.tickCurrent

theorem completes_market {next : BitVec 16 → BitVec 16 → BitVec 128 → BitVec 128 → Signed 32 → Reader Pool}
    (completes : ∀ fee protocol liquidity price tick, Completes (next fee protocol liquidity price tick) others fun pool =>
      known pool ∧ (pool.feeRate, pool.protocolFeeRate, pool.liquidity, pool.sqrtPrice, pool.tickCurrent) =
        (fee, protocol, liquidity, price, tick)) :
    Completes (do
      let fee ← unsigned 16
      let protocol ← unsigned 16
      let liquidity ← unsigned 128
      let price ← unsigned 128
      let tick ← signed 32
      next fee protocol liquidity price tick) (fun pool => marketBytes pool ++ others pool) known := by
  have rate := unsigned_reads (w := 16) (n := 2) rfl
  have word := unsigned_reads (w := 128) (n := 16) rfl
  refine (rate.field Pool.feeRate fun fee => rate.field Pool.protocolFeeRate fun protocol =>
    word.field Pool.liquidity fun liquidity => word.field Pool.sqrtPrice fun price =>
    (signed_reads (n := 4) rfl).field Pool.tickCurrent fun tick =>
      (completes fee protocol liquidity price tick).of_known fun pool => ?_).of_bytes fun pool => ?_
  · simp [and_assoc]
  · simp [marketBytes]

def tokenBytes (pool : Pool) : List UInt8 :=
  unsignedBytes pool.tokenA.protocolFeeOwed ++ unsignedBytes pool.tokenB.protocolFeeOwed ++
    keyBytes pool.tokenA.mint ++ keyBytes pool.tokenA.vault ++ unsignedBytes pool.tokenA.feeGrowthGlobal ++
    keyBytes pool.tokenB.mint ++ keyBytes pool.tokenB.vault ++ unsignedBytes pool.tokenB.feeGrowthGlobal

theorem completes_tokens
    {next : BitVec 64 → BitVec 64 → Key → Key → BitVec 128 → Key → Key → BitVec 128 → Reader Pool}
    (completes : ∀ owedA owedB mintA vaultA growthA mintB vaultB growthB,
      Completes (next owedA owedB mintA vaultA growthA mintB vaultB growthB) others fun pool =>
        known pool ∧ (pool.tokenA, pool.tokenB) = (⟨mintA, vaultA, growthA, owedA⟩, ⟨mintB, vaultB, growthB, owedB⟩)) :
    Completes (do
      let owedA ← unsigned 64
      let owedB ← unsigned 64
      let mintA ← key
      let vaultA ← key
      let growthA ← unsigned 128
      let mintB ← key
      let vaultB ← key
      let growthB ← unsigned 128
      next owedA owedB mintA vaultA growthA mintB vaultB growthB)
        (fun pool => tokenBytes pool ++ others pool) known := by
  have count := unsigned_reads (w := 64) (n := 8) rfl
  have word := unsigned_reads (w := 128) (n := 16) rfl
  refine (count.field (fun pool : Pool => pool.tokenA.protocolFeeOwed) fun owedA =>
    count.field (fun pool : Pool => pool.tokenB.protocolFeeOwed) fun owedB =>
    key_reads.field (fun pool : Pool => pool.tokenA.mint) fun mintA =>
    key_reads.field (fun pool : Pool => pool.tokenA.vault) fun vaultA =>
    word.field (fun pool : Pool => pool.tokenA.feeGrowthGlobal) fun growthA =>
    key_reads.field (fun pool : Pool => pool.tokenB.mint) fun mintB =>
    key_reads.field (fun pool : Pool => pool.tokenB.vault) fun vaultB =>
    word.field (fun pool : Pool => pool.tokenB.feeGrowthGlobal) fun growthB =>
      (completes owedA owedB mintA vaultA growthA mintB vaultB growthB).of_known fun pool => ?_).of_bytes fun pool => ?_
  · cases pool.tokenA
    cases pool.tokenB
    simp only [Prod.mk.injEq, PoolToken.mk.injEq]
    tauto
  · simp [tokenBytes]

end Groups

theorem pool_reads : Reads pool poolBytes := by
  have count := unsigned_reads (w := 64) (n := 8) rfl
  refine Completes.reads (completes_identity fun _ _ _ _ _ =>
    completes_market fun _ _ _ _ _ => completes_tokens fun _ _ _ _ _ _ _ _ =>
    count.field Pool.rewardLastUpdated fun _ => (per_reward_reads reward_info_reads).field Pool.rewards fun _ =>
    completes_pure fun pool => ?_) fun pool => ?_
  · constructor
    · rintro ⟨⟨⟨⟨⟨_, identity⟩, market⟩, tokens⟩, updated⟩, rewards⟩
      cases pool
      cases identity
      cases market
      cases tokens
      cases updated
      cases rewards
      rfl
    · rintro rfl
      exact ⟨⟨⟨⟨⟨trivial, rfl⟩, rfl⟩, rfl⟩, rfl⟩, rfl⟩
  · unfold poolBytes identityBytes marketBytes tokenBytes
    simp only [List.append_assoc, List.append_nil]

end Records

end Layout

end PoolQuote
