import PoolQuote.Proofs.SwapPath

/-!
How the fees of a swap are split. The protocol takes its part of each leg's fee and the rest is credited to
the liquidity in range during the leg. No word that holds a total cuts anything off, and the liquidity is
never credited more than the rest.
-/

set_option autoImplicit false

namespace PoolQuote

namespace SwapState

theorem part_le_fee (fee : Nat) {rate : Nat} (share : rate ≤ protocolFeeUnit) : fee * rate / protocolFeeUnit ≤ fee :=
  Nat.div_le_of_le_mul (by rw [Nat.mul_comm protocolFeeUnit]; exact Nat.mul_le_mul_left fee share)

theorem protocol_share_eq {fee rate : Nat} (share : rate ≤ protocolFeeUnit) (fits : FitsBits 64 fee) :
    protocolShare fee rate = fee * rate / protocolFeeUnit :=
  Nat.mod_eq_of_lt (lt_of_le_of_lt (part_le_fee fee share) fits)

theorem start_fees {pool : Pool} {order : SwapOrder} {state : SwapState} (ok : start pool order = .ok state) :
    state.feeGrowth = pool.inputFeeGrowth order.direction ∧ state.protocolFee = 0 := by
  obtain ⟨price, _, ok⟩ := bind_ok ok
  cases Except.ok.inj ok
  exact ⟨rfl, rfl⟩

end SwapState

namespace SwapStep

theorem fee_on_zero (feeRate : Nat) : feeOn feeRate 0 = 0 := by
  simp [feeOn, Rounding.div]

-- Without liquidity the way to any target is free, so that the step takes it and no fee is due.
theorem compute_dry {d : Direction} {side : Side} {remaining feeRate p target : Nat} {step : SwapStep}
    (ok : compute d side remaining feeRate 0 p target = .ok step) : step.fee = 0 := by
  obtain ⟨whole, between, ok⟩ := bind_ok ok
  obtain ⟨amount, _, ok⟩ := bind_ok ok
  obtain ⟨next, reached, ok⟩ := bind_ite_ok ok
  obtain ⟨computed, exact, ok⟩ := bind_ok ok
  obtain ⟨fixed, reused, ok⟩ := bind_ite_ok ok
  have describes := TokenDelta.between_describes between
  have fixedEq := fixed_eq_round describes reused
  have computedEq := TokenDelta.exact_eq_round exact
  rw [Token.amount_no_liquidity, Rounding.round_zero] at describes fixedEq computedEq
  cases side with
  | input =>
      have free : whole.IsAtMost amount := by
        cases whole with
        | fits way =>
            have nothing : way = 0 := describes.1
            rw [nothing]
            exact Nat.zero_le amount
        | tooLarge cause => exact absurd (by decide) describes
      rw [if_pos free] at reached
      have atTarget : target = next := Except.ok.inj reached
      dsimp only at ok
      rw [if_pos atTarget.symm] at ok
      obtain ⟨fee, charged, ok⟩ := bind_ok ok
      cases Except.ok.inj ok
      rw [proportional_fee_ok charged, fixedEq, fee_on_zero]
  | output =>
      obtain ⟨fee, charged, ok⟩ := bind_ok ok
      cases Except.ok.inj ok
      rw [proportional_fee_ok charged, computedEq, fee_on_zero]

end SwapStep

namespace SwapLeg

def protocolPart (rate : Nat) (leg : SwapLeg) : Nat :=
  leg.step.fee * rate / SwapState.protocolFeeUnit

-- The growth of each unit of the liquidity in range, in units of `2 ^ -64`, from the rest of the fee.
def growth (rate : Nat) (leg : SwapLeg) : Nat :=
  if leg.before.liquidity = 0 then 0
  else (leg.step.fee - leg.protocolPart rate) * wordCount 64 / leg.before.liquidity

def credit (rate : Nat) (leg : SwapLeg) : Nat :=
  SwapState.credit leg.before.liquidity leg.step.fee rate

def parts (rate : Nat) (legs : List SwapLeg) : Nat :=
  (legs.map (protocolPart rate)).sum

def credits (rate : Nat) (legs : List SwapLeg) : Nat :=
  (legs.map (credit rate)).sum

theorem credits_cons (rate : Nat) (leg : SwapLeg) (legs : List SwapLeg) :
    credits rate (leg :: legs) = leg.credit rate + credits rate legs :=
  rfl

theorem parts_cons (rate : Nat) (leg : SwapLeg) (legs : List SwapLeg) :
    parts rate (leg :: legs) = leg.protocolPart rate + parts rate legs :=
  rfl

theorem liquidity_mul_growth_le (rate : Nat) (leg : SwapLeg) :
    leg.before.liquidity * leg.growth rate ≤ (leg.step.fee - leg.protocolPart rate) * wordCount 64 := by
  unfold growth
  split
  · rw [Nat.mul_zero]
    exact Nat.zero_le _
  · exact Nat.mul_div_le _ _

section Share

variable {rate : Nat} (share : rate ≤ SwapState.protocolFeeUnit)

include share

theorem part_le (leg : SwapLeg) : leg.protocolPart rate ≤ leg.step.fee :=
  SwapState.part_le_fee leg.step.fee share

theorem parts_le_fees (legs : List SwapLeg) : parts rate legs ≤ fees legs :=
  List.sum_le_sum fun leg _ => leg.part_le share

theorem credit_eq_growth {leg : SwapLeg} (fits : FitsBits 64 leg.step.fee) : leg.credit rate = leg.growth rate := by
  unfold credit SwapState.credit growth protocolPart
  rw [SwapState.protocol_share_eq share fits]

theorem credited_le_rest (legs : List SwapLeg) :
    (legs.map fun leg => leg.before.liquidity * leg.growth rate).sum ≤ (fees legs - parts rate legs) * wordCount 64 := by
  induction legs with
  | nil => exact Nat.zero_le _
  | cons leg legs ih =>
      have within := leg.part_le share
      have rest := parts_le_fees share legs
      calc (leg.before.liquidity * leg.growth rate) + (legs.map fun leg => leg.before.liquidity * leg.growth rate).sum
          ≤ (leg.step.fee - leg.protocolPart rate) * wordCount 64 + (fees legs - parts rate legs) * wordCount 64 :=
            Nat.add_le_add (leg.liquidity_mul_growth_le rate) ih
        _ = (fees (leg :: legs) - parts rate (leg :: legs)) * wordCount 64 := by
            rw [← Nat.add_mul, fees_cons, parts_cons]
            congr 1
            omega

end Share

end SwapLeg

namespace SwapSetting

variable {setting : SwapSetting}

theorem IsTurn.fee_fits {leg : SwapLeg} (turn : setting.IsTurn leg) : FitsBits 64 leg.step.fee := by
  have total := turn.computes.charged
  rw [turn.computes.fee] at total
  exact lt_of_le_of_lt (Nat.le_add_left _ _) total

theorem IsTurn.fee_dry {leg : SwapLeg} (turn : setting.IsTurn leg) (dry : leg.before.liquidity = 0) :
    leg.step.fee = 0 := by
  obtain ⟨tickPrice, _, computed⟩ := turn.computes.step
  rw [dry] at computed
  exact SwapStep.compute_dry computed

namespace Replay

variable {state last : SwapState} {legs : List SwapLeg} (replay : setting.Replay state legs last)

include replay

theorem is_turn {leg : SwapLeg} (member : leg ∈ legs) : setting.IsTurn leg := by
  induction replay with
  | rest state => cases member
  | turn first legs last step _ ih =>
      rcases List.mem_cons.mp member with rfl | later
      · exact step
      · exact ih later

theorem growth_eq : last.feeGrowth = state.feeGrowth + BitVec.ofNat 128 (SwapLeg.credits setting.protocolRate legs) := by
  induction replay with
  | rest state => exact (BitVec.add_zero _).symm
  | turn leg legs last step _ ih =>
      rw [ih, step.computes.growth, BitVec.add_assoc, ← BitVec.ofNat_add, SwapLeg.credits_cons]
      rfl

theorem share_eq (share : setting.protocolRate ≤ SwapState.protocolFeeUnit) :
    last.protocolFee = state.protocolFee + BitVec.ofNat 64 (SwapLeg.parts setting.protocolRate legs) := by
  induction replay with
  | rest state => exact (BitVec.add_zero _).symm
  | turn leg legs last step _ ih =>
      rw [ih, step.computes.share, SwapState.protocol_share_eq share step.fee_fits, BitVec.add_assoc, ← BitVec.ofNat_add, SwapLeg.parts_cons]
      rfl

theorem credit_eq_growth (share : setting.protocolRate ≤ SwapState.protocolFeeUnit) :
    SwapLeg.credits setting.protocolRate legs = (legs.map (SwapLeg.growth setting.protocolRate)).sum := by
  unfold SwapLeg.credits
  exact congrArg List.sum (List.map_congr_left fun leg member =>
    SwapLeg.credit_eq_growth share (replay.is_turn member).fee_fits)

end Replay

end SwapSetting

/-- Every fee is divided between the protocol and the liquidity in range, but for the rests of divisions. -/
theorem fees_are_split (pool : Pool) (window : Window) (order : SwapOrder) (journal : Journal) (result : SwapResult)
    (share : pool.protocolFeeRate.toNat ≤ 10000) (ok : (swap pool window order journal).1 = .ok result) :
    let legs := swapLegs pool window order
    let rate := pool.protocolFeeRate.toNat
    result.totalFee.toNat = (legs.map fun leg => leg.step.fee).sum ∧
      result.nextProtocolFee.toNat = (legs.map fun leg => leg.protocolPart rate).sum ∧
      result.nextProtocolFee.toNat ≤ result.totalFee.toNat ∧
      (∀ leg ∈ legs, leg.before.liquidity = 0 → leg.step.fee = 0) ∧
      result.nextFeeGrowthGlobal = pool.inputFeeGrowth order.direction +
        BitVec.ofNat 128 (legs.map fun leg => leg.growth rate).sum ∧
      (legs.map fun leg => leg.before.liquidity * leg.growth rate).sum ≤
        (result.totalFee.toNat - result.nextProtocolFee.toNat) * 2 ^ 64 := by
  obtain ⟨start, last, _, started, replay, _, accounts⟩ := swap_replay ok
  obtain ⟨growthStart, shareStart⟩ := SwapState.start_fees started
  have parts := SwapLeg.parts_le_fees share (swapLegs pool window order)
  have total : SwapLeg.fees (swapLegs pool window order) < 2 ^ 64 := by
    rw [← accounts.fee]
    exact result.totalFee.isLt
  have taken : result.nextProtocolFee.toNat =
      SwapLeg.parts pool.protocolFeeRate.toNat (swapLegs pool window order) := by
    rw [accounts.share, replay.share_eq share, shareStart, zero_add, BitVec.toNat_ofNat]
    exact Nat.mod_eq_of_lt (lt_of_le_of_lt parts total)
  refine ⟨accounts.fee, taken, ?_, fun leg member => (replay.is_turn member).fee_dry, ?_, ?_⟩
  · rw [taken, accounts.fee]
    exact parts
  · rw [accounts.growth, replay.growth_eq, growthStart, replay.credit_eq_growth share]
    rfl
  · rw [taken, accounts.fee]
    exact SwapLeg.credited_le_rest share _

theorem fees_are_split_sample : ∃ result,
    (swap Sample.pool (Sample.window .aToB) (Sample.order .aToB .input 1000000) .blank).1 = .ok result ∧
      result.totalFee.toNat = 1204 + 1797 ∧ result.nextProtocolFee.toNat = 36 + 53 ∧
      result.nextFeeGrowthGlobal = 21554418845631 + 32180775897318 := by
  have run : (swap Sample.pool (Sample.window .aToB) (Sample.order .aToB .input 1000000) .blank).1.toOption.map
      (fun result => result.nextTick.toInt) = some (-20) := by decide +kernel
  obtain ⟨result, ok, _⟩ := exists_result run
  obtain ⟨total, parts, _, _, growth, _⟩ := fees_are_split Sample.pool (Sample.window .aToB)
    (Sample.order .aToB .input 1000000) .blank result (by decide) ok
  exact ⟨result, ok, total.trans (by decide +kernel), parts.trans (by decide +kernel), growth.trans (by decide +kernel)⟩

end PoolQuote
