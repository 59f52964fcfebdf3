import PoolQuote.Configuration
import PoolQuote.Json.Codec
import PoolQuote.Quote.DevFee

/-!
The JSON forms of ledger records, of the values that quotes are made from and of quotes.
-/

set_option autoImplicit false

namespace PoolQuote

open Json JsonForm

instance : JsonForm ErrorCode where
  toJson code := Json.text code.name
  ofJson? value := do
    match ← value.alternative? with
    | "MathError" => some .math
    | "TokenError" => some .token
    | "SwapError" => some .swap
    | "DecodeError" => some .decode
    | "ConfigError" => some .config
    | _ => none

instance : JsonForm Rounding where
  toJson
    | .down => Json.text "Down"
    | .up => Json.text "Up"
  ofJson? value := do
    match ← value.alternative? with
    | "Down" => some .down
    | "Up" => some .up
    | _ => none

instance : JsonForm Token where
  toJson
    | .a => Json.text "TokenA"
    | .b => Json.text "TokenB"
  ofJson? value := do
    match ← value.alternative? with
    | "TokenA" => some .a
    | "TokenB" => some .b
    | _ => none

instance : JsonForm Direction where
  toJson
    | .aToB => Json.text "AtoB"
    | .bToA => Json.text "BtoA"
  ofJson? value := do
    match ← value.alternative? with
    | "AtoB" => some .aToB
    | "BtoA" => some .bToA
    | _ => none

def Direction.ofIsAToB (b : Bool) : Direction :=
  if b then .aToB else .bToA

def Side.ofIsInput (b : Bool) : Side :=
  if b then .input else .output

instance : JsonForm SqrtPrice where
  toJson price := Json.ofNat price.value
  ofJson?
    | .integer false magnitude => (SqrtPrice.ofNat magnitude).toOption
    | _ => none

instance : JsonForm Percentage where
  toJson p := Json.record [("numerator", toJson p.numerator), ("denominator", toJson p.denominator)]
  ofJson? value := do
    let [numerator, denominator] ← value.fields ["numerator", "denominator"] | none
    return ⟨← required numerator, ← required denominator⟩

instance : JsonForm RewardInfo where
  toJson reward := Json.record [
    ("mint", toJson reward.mint),
    ("vault", toJson reward.vault),
    ("authority", toJson reward.authority),
    ("emissions_per_second_x64", toJson reward.emissionsPerSecond),
    ("growth_global_x64", toJson reward.growthGlobal)]
  ofJson? value := do
    let [mint, vault, authority, emissions, growth] ← value.fields
      ["mint", "vault", "authority", "emissions_per_second_x64", "growth_global_x64"] | none
    return ⟨← required mint, ← required vault, ← required authority, ← required emissions,
      ← required growth⟩

namespace Pool

def fieldNames : List String :=
  ["pools_config", "pool_bump", "tick_spacing", "tick_spacing_seed", "fee_rate",
    "protocol_fee_rate", "liquidity", "sqrt_price", "tick_current_index", "protocol_fee_owed_a",
    "protocol_fee_owed_b", "token_mint_a", "token_vault_a", "fee_growth_global_a", "token_mint_b",
    "token_vault_b", "fee_growth_global_b", "reward_last_updated_timestamp", "reward_infos"]

end Pool

instance : JsonForm Pool where
  toJson pool := Json.record (Pool.fieldNames.zip [
    toJson pool.poolsConfig,
    toJson #v[pool.bump],
    toJson pool.tickSpacing,
    toJson pool.tickSpacingSeed,
    toJson pool.feeRate,
    toJson pool.protocolFeeRate,
    toJson pool.liquidity,
    toJson pool.sqrtPrice,
    toJson pool.tickCurrent,
    toJson pool.tokenA.protocolFeeOwed,
    toJson pool.tokenB.protocolFeeOwed,
    toJson pool.tokenA.mint,
    toJson pool.tokenA.vault,
    toJson pool.tokenA.feeGrowthGlobal,
    toJson pool.tokenB.mint,
    toJson pool.tokenB.vault,
    toJson pool.tokenB.feeGrowthGlobal,
    toJson pool.rewardLastUpdated,
    toJson pool.rewards])
  ofJson? value := do
    let [poolsConfig, bump, tickSpacing, tickSpacingSeed, feeRate, protocolFeeRate, liquidity,
      sqrtPrice, tickCurrent, owedA, owedB, mintA, vaultA, growthA, mintB, vaultB, growthB,
      rewardLastUpdated, rewards] ← value.fields Pool.fieldNames | none
    let bumps : Vector (BitVec 8) 1 ← required bump
    return {
      poolsConfig := ← required poolsConfig
      bump := bumps[0]
      tickSpacing := ← required tickSpacing
      tickSpacingSeed := ← required tickSpacingSeed
      feeRate := ← required feeRate
      protocolFeeRate := ← required protocolFeeRate
      liquidity := ← required liquidity
      sqrtPrice := ← required sqrtPrice
      tickCurrent := ← required tickCurrent
      tokenA := ⟨← required mintA, ← required vaultA, ← required growthA, ← required owedA⟩
      tokenB := ⟨← required mintB, ← required vaultB, ← required growthB, ← required owedB⟩
      rewardLastUpdated := ← required rewardLastUpdated
      rewards := ← required rewards }

instance : JsonForm FeeTier where
  toJson tier := Json.record [
    ("pools_config", toJson tier.poolsConfig),
    ("tick_spacing", toJson tier.tickSpacing),
    ("default_fee_rate", toJson tier.defaultFeeRate)]
  ofJson? value := do
    let [config, spacing, rate] ←
      value.fields ["pools_config", "tick_spacing", "default_fee_rate"] | none
    return ⟨← required config, ← required spacing, ← required rate⟩

instance : JsonForm PoolsConfig where
  toJson config := Json.record [
    ("fee_authority", toJson config.feeAuthority),
    ("collect_protocol_fees_authority", toJson config.collectProtocolFeesAuthority),
    ("reward_emissions_super_authority", toJson config.rewardEmissionsSuperAuthority),
    ("default_protocol_fee_rate", toJson config.defaultProtocolFeeRate)]
  ofJson? value := do
    let [fee, collect, emissions, rate] ← value.fields
      ["fee_authority", "collect_protocol_fees_authority", "reward_emissions_super_authority",
        "default_protocol_fee_rate"] | none
    return ⟨← required fee, ← required collect, ← required emissions, ← required rate⟩

instance : JsonForm Tick where
  toJson tick := Json.record [
    ("initialized", toJson tick.initialized),
    ("liquidity_net", toJson tick.liquidityNet),
    ("liquidity_gross", toJson tick.liquidityGross),
    ("fee_growth_outside_a", toJson tick.feeGrowthOutsideA),
    ("fee_growth_outside_b", toJson tick.feeGrowthOutsideB),
    ("reward_growths_outside", toJson tick.rewardGrowthsOutside)]
  ofJson? value := do
    let [initialized, net, gross, outsideA, outsideB, rewards] ← value.fields
      ["initialized", "liquidity_net", "liquidity_gross", "fee_growth_outside_a",
        "fee_growth_outside_b", "reward_growths_outside"] | none
    return ⟨← required initialized, ← required net, ← required gross, ← required outsideA,
      ← required outsideB, ← required rewards⟩

instance : JsonForm TickArray where
  toJson array := Json.record [
    ("start_tick_index", toJson array.start),
    ("ticks", toJson array.ticks),
    ("pool", toJson array.pool)]
  ofJson? value := do
    let [start, ticks, pool] ← value.fields ["start_tick_index", "ticks", "pool"] | none
    return ⟨← required start, ← required ticks, ← required pool⟩

-- An object without `data` is an empty slot; an array of fields must hold both.
instance : JsonForm Slot where
  toJson slot := Json.record [("address", toJson slot.address), ("data", toJson slot.data)]
  ofJson? value := do
    let [address, data] ← value.fields ["address", "data"] | none
    if value.isArray then return ⟨← required address, ← required data⟩
    else return ⟨← required address, ← defaulted none data⟩

instance : JsonForm TickUpdate where
  toJson update := .array [toJson update.index, toJson update.tick]
  ofJson?
    | .array [index, tick] => do return ⟨← ofJson? index, ← ofJson? tick⟩
    | _ => none

instance : JsonForm SwapAmounts where
  toJson amounts := Json.record [
    ("amount", toJson amounts.amount),
    ("other_amount_threshold", toJson amounts.threshold)]
  ofJson? value := do
    let [amount, threshold] ← value.fields ["amount", "other_amount_threshold"] | none
    return ⟨← required amount, ← required threshold⟩

namespace SwapResult

def fieldNames : List String :=
  ["amount_a", "amount_b", "next_liquidity", "next_tick_index", "next_sqrt_price",
    "next_fee_growth_global", "next_protocol_fee", "next_reward_infos", "total_fee_amount",
    "tick_updates", "crossing_count"]

end SwapResult

instance : JsonForm SwapResult where
  toJson result := Json.record (SwapResult.fieldNames.zip [
    toJson result.amountA,
    toJson result.amountB,
    toJson result.nextLiquidity,
    toJson result.nextTick,
    toJson result.nextSqrtPrice,
    toJson result.nextFeeGrowthGlobal,
    toJson result.nextProtocolFee,
    toJson result.nextRewards,
    toJson result.totalFee,
    toJson result.tickUpdates,
    toJson result.crossingCount])
  ofJson? value := do
    let [a, b, liquidity, tick, price, growth, protocolFee, rewards, fee, updates, crossings] ←
      value.fields SwapResult.fieldNames | none
    return ⟨← required a, ← required b, ← required liquidity, ← required tick, ← required price,
      ← required growth, ← required protocolFee, ← required rewards, ← required fee,
      ← required updates, ← required crossings⟩

instance : JsonForm QuoteRequest where
  toJson request := Json.record [
    ("pool", toJson request.pool),
    ("tick_arrays", toJson request.slots),
    ("token_amount", toJson request.amount),
    ("sqrt_price_limit", toJson request.limit),
    ("other_amount_threshold", toJson request.threshold),
    ("a_to_b", toJson request.direction.isAToB),
    ("amount_specified_is_input", toJson request.side.isInput),
    ("timestamp", toJson request.timestamp)]
  ofJson? value := do
    let [pool, slots, amount, limit, threshold, aToB, isInput, timestamp] ← value.fields
      ["pool", "tick_arrays", "token_amount", "sqrt_price_limit", "other_amount_threshold",
        "a_to_b", "amount_specified_is_input", "timestamp"] | none
    return {
      pool := ← required pool
      slots := ← required slots
      amount := ← required amount
      limit := ← required limit
      threshold := ← required threshold
      direction := .ofIsAToB (← required aToB)
      side := .ofIsInput (← required isInput)
      timestamp := ← defaulted none timestamp }

namespace Quote

def fieldNames : List String :=
  ["estimated_amount_in", "estimated_amount_out", "estimated_end_tick_index",
    "estimated_end_sqrt_price", "estimated_fee_amount", "amount", "amount_specified_is_input",
    "a_to_b", "other_amount_threshold", "sqrt_price_limit", "tick_array_0", "tick_array_1",
    "tick_array_2"]

end Quote

instance : JsonForm Quote where
  toJson quote := Json.record (Quote.fieldNames.zip [
    toJson quote.amountIn,
    toJson quote.amountOut,
    toJson quote.endTick,
    toJson quote.endSqrtPrice,
    toJson quote.fee,
    toJson quote.amount,
    toJson quote.side.isInput,
    toJson quote.direction.isAToB,
    toJson quote.threshold,
    toJson quote.limit,
    toJson quote.tickArrays[0],
    toJson quote.tickArrays[1],
    toJson quote.tickArrays[2]])
  ofJson? value := do
    let [amountIn, amountOut, endTick, endSqrtPrice, fee, amount, isInput, aToB, threshold, limit,
      first, second, third] ← value.fields Quote.fieldNames | none
    return {
      amountIn := ← required amountIn
      amountOut := ← required amountOut
      endTick := ← required endTick
      endSqrtPrice := ← required endSqrtPrice
      fee := ← required fee
      amount := ← required amount
      side := .ofIsInput (← required isInput)
      direction := .ofIsAToB (← required aToB)
      threshold := ← required threshold
      limit := ← required limit
      tickArrays := #v[← required first, ← required second, ← required third] }

namespace DevFeeQuote

def members (quote : DevFeeQuote) : List (String × Json) :=
  [("quote", toJson quote.quote),
    ("estimated_swap_fee_amount", toJson quote.swapFee),
    ("dev_fee_amount", toJson quote.devFee)]

end DevFeeQuote

instance : JsonForm DevFeeQuote where
  toJson quote := Json.record quote.members
  ofJson? value := do
    let [quote, swapFee, devFee] ←
      value.fields ["quote", "estimated_swap_fee_amount", "dev_fee_amount"] | none
    return ⟨← required quote, ← required swapFee, ← required devFee⟩

instance : JsonForm DevFeeTerms where
  toJson terms := Json.record [
    ("wallet", toJson terms.wallet),
    ("percentage", toJson terms.percentage)]
  ofJson? value := do
    let [wallet, percentage] ← value.fields ["wallet", "percentage"] | none
    return ⟨← required wallet, ← required percentage⟩

instance : JsonForm Configuration where
  toJson config := Json.record [
    ("program_id", toJson config.program),
    ("default_slippage", toJson config.slippage),
    ("log_filter", toJson config.logFilter),
    ("dev_fee", toJson config.devFee)]
  ofJson? value := do
    let [program, slippage, logFilter, devFee] ←
      value.fields ["program_id", "default_slippage", "log_filter", "dev_fee"] | none
    return ⟨← required program, ← required slippage,
      ← defaulted Configuration.defaultLogFilter logFilter, ← defaulted none devFee⟩

end PoolQuote
