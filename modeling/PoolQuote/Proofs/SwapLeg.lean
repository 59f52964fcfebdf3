import PoolQuote.Swap
import PoolQuote.Proofs.Search
import PoolQuote.Proofs.SwapStep

/-!
One leg of a swap whose price and tick belong together and whose limit lies before it. The leg goes
toward the tick that its search finds or to the limit. It ends short of that tick, at the end of the
window, or by crossing the tick, and its price and tick belong together again.
-/

set_option autoImplicit false

namespace PoolQuote

theorem Signed.to_int_of_int {w : Nat} {i : Int} (positive : 0 < w) (holds : Holds w i) : (ofInt w i).toInt = i := by
  obtain ⟨lower, upper⟩ := holds
  simp only [least, greatest, wordCount, Nat.pow_eq] at lower upper
  obtain ⟨v, rfl⟩ := Nat.exists_eq_add_of_lt positive
  rw [toInt, ofInt, BitVec.toInt_ofInt]
  apply Int.bmod_eq_of_le <;> simp at * <;> omega

namespace SwapStep

-- What a step takes from the specified amount. What is paid in counts with its fee.
def used (step : SwapStep) : Side → Nat
  | .input => step.amountIn + step.fee
  | .output => step.amountOut

end SwapStep

namespace SwapState

theorem take_amounts_ok {state paid : SwapState} {side : Side} {step : SwapStep}
    (ok : state.takeAmounts side step = .ok paid) :
    step.used side ≤ state.remaining ∧ FitsBits 64 (state.calculated + step.used side.other) ∧
      paid = { state with
        remaining := state.remaining - step.used side, calculated := state.calculated + step.used side.other } := by
  unfold takeAmounts at ok
  cases side with
  | input =>
      obtain ⟨_, ok⟩ := guard_ok ok
      obtain ⟨enough, ok⟩ := guard_ok ok
      obtain ⟨fits, ok⟩ := guard_ok ok
      exact ⟨not_lt.mp enough, not_not.mp fits, (Except.ok.inj ok).symm⟩
  | output =>
      obtain ⟨_, ok⟩ := guard_ok ok
      obtain ⟨enough, ok⟩ := guard_ok ok
      obtain ⟨fits, ok⟩ := guard_ok ok
      exact ⟨not_lt.mp enough, not_not.mp fits, (Except.ok.inj ok).symm⟩

def credit (liquidity fee rate : Nat) : Nat :=
  if liquidity = 0 then 0 else (fee - protocolShare fee rate) * wordCount 64 / liquidity

theorem take_fee_ok {state charged : SwapState} {fee rate : Nat} (ok : state.takeFee fee rate = .ok charged) :
    FitsBits 64 (state.totalFee + fee) ∧ charged = { state with
      feeGrowth := state.feeGrowth + BitVec.ofNat 128 (credit state.liquidity fee rate)
      protocolFee := state.protocolFee + BitVec.ofNat 64 (protocolShare fee rate)
      totalFee := state.totalFee + fee } := by
  obtain ⟨fits, ok⟩ := guard_ok ok
  exact ⟨not_not.mp fits, (Except.ok.inj ok).symm⟩

theorem cross_liquidity_ok {liquidity next : Nat} {net : Signed 128} {d : Direction}
    (ok : crossLiquidity liquidity net d = .ok next) :
    (next : Int) = d.along liquidity net.toInt ∧ FitsBits 128 next := by
  unfold crossLiquidity at ok
  obtain ⟨_, ok⟩ := guard_ok ok
  obtain ⟨enough, ok⟩ := guard_ok ok
  obtain ⟨fits, ok⟩ := guard_ok ok
  have same := Except.ok.inj ok
  rw [← same]
  refine ⟨?_, not_not.mp fits⟩
  rw [Int.toNat_of_nonneg (not_lt.mp enough)]
  cases d <;> rfl

end SwapState

-- What decides where a swap goes from a state.
structure Course where
  window : Window
  limit : SqrtPrice
  side : Side
  feeRate : BitVec 16

def SwapSetting.course (setting : SwapSetting) : Course :=
  ⟨setting.window, setting.order.limit, setting.order.side, setting.pool.feeRate⟩

namespace Course

def direction (c : Course) : Direction :=
  c.window.direction

def rate (c : Course) : Nat :=
  c.feeRate.toNat

def IsDone (c : Course) (state : SwapState) : Prop :=
  state.remaining = 0 ∨ state.price = c.limit

def target (c : Course) (u : Int) : Nat :=
  c.direction.nearer (TickIndex.rawPrice u) c.limit.value

structure Ready (c : Course) (state : SwapState) : Prop where
  lies : TickIndex.Lies state.tick state.price.value
  limited : c.direction.Leads state.price.value c.limit.value
  small : state.remaining ≤ wordMax 64
  counted : FitsBits 64 state.calculated
  narrow : FitsBits 128 state.liquidity

end Course

namespace SwapLeg

def Arrives (leg : SwapLeg) : Prop :=
  leg.after.price.value = TickIndex.rawPrice leg.stop.index

instance (leg : SwapLeg) : Decidable leg.Arrives :=
  inferInstanceAs (Decidable (_ = _))

inductive Lands (d : Direction) (leg : SwapLeg) : Prop
  | short (away : ¬ leg.Arrives)
      (tick : leg.after.tick = if leg.after.price = leg.before.price then leg.before.tick else leg.after.price.tick)
      (crossed : leg.crossed = none) (liquidity : leg.after.liquidity = leg.before.liquidity)
  | boundary (there : leg.Arrives) (tick : leg.after.tick = d.past leg.stop.index) (stop : leg.stop.tick = none)
      (crossed : leg.crossed = none) (liquidity : leg.after.liquidity = leg.before.liquidity)
  | crossing (record : Tick) (update : TickUpdate) (there : leg.Arrives)
      (tick : leg.after.tick = d.past leg.stop.index) (stop : leg.stop.tick = some record)
      (crossed : leg.crossed = some update) (index : update.index.toInt = leg.stop.index)
      (initialized : update.tick.initialized = record.initialized)
      (net : update.tick.liquidityNet = record.liquidityNet)
      (gross : update.tick.liquidityGross = record.liquidityGross)
      (liquidity : (leg.after.liquidity : Int) = d.along leg.before.liquidity record.liquidityNet.toInt)

theorem Lands.tick_after {d : Direction} {leg : SwapLeg} (lands : leg.Lands d) (there : leg.Arrives) :
    leg.after.tick = d.past leg.stop.index := by
  cases lands with
  | short away _ _ _ => exact absurd there away
  | boundary _ tick _ _ _ => exact tick
  | crossing _ _ _ tick _ _ _ _ _ _ _ => exact tick

end SwapLeg

-- Everything that one leg does to the state, from a state between two legs.
structure Course.IsMove (c : Course) (leg : SwapLeg) : Prop where
  ready : c.Ready leg.before
  underWay : ¬ c.IsDone leg.before
  next : c.window.IsNext leg.before.tick leg.stop
  inside : TickIndex.InBounds leg.stop.index
  input : c.side = .input → leg.step.IsInputStep c.direction leg.before.remaining c.rate leg.before.liquidity
    leg.before.price.value (c.target leg.stop.index)
  output : c.side = .output → leg.step.IsOutputStep c.direction leg.before.remaining c.rate leg.before.liquidity
    leg.before.price.value (c.target leg.stop.index)
  reached : leg.after.price.value = leg.step.nextPrice
  remaining : leg.before.remaining = leg.after.remaining + leg.step.used c.side
  calculated : leg.after.calculated = leg.before.calculated + leg.step.used c.side.other
  counted : FitsBits 64 leg.after.calculated
  narrow : FitsBits 128 leg.after.liquidity
  lands : leg.Lands c.direction

namespace SwapSetting

variable {setting : SwapSetting}

theorem flipped_keeps (setting : SwapSetting) (state : SwapState) (tick : Tick) :
    (setting.flipped state tick).initialized = tick.initialized ∧
      (setting.flipped state tick).liquidityNet = tick.liquidityNet ∧
        (setting.flipped state tick).liquidityGross = tick.liquidityGross := by
  unfold flipped
  cases setting.order.direction <;> exact ⟨rfl, rfl, rfl⟩

theorem flipped_congr (setting : SwapSetting) {state other : SwapState} (same : state.feeGrowth = other.feeGrowth) (tick : Tick) :
    setting.flipped state tick = setting.flipped other tick := by
  unfold flipped
  rw [same]

theorem target_nearer (tickPrice : SqrtPrice) :
    (setting.target tickPrice).value = setting.order.direction.nearer tickPrice.value setting.order.limit.value := by
  unfold target
  cases setting.order.direction with
  | aToB =>
      dsimp only
      by_cases limited : tickPrice.value < setting.order.limit.value
      · rw [if_pos limited]
        exact (max_eq_right (le_of_lt limited)).symm
      · rw [if_neg limited]
        exact (max_eq_left (not_lt.mp limited)).symm
  | bToA =>
      dsimp only
      by_cases limited : setting.order.limit.value < tickPrice.value
      · rw [if_pos limited]
        exact (min_eq_right (le_of_lt limited)).symm
      · rw [if_neg limited]
        exact (min_eq_left (not_lt.mp limited)).symm

theorem target_value {tickPrice : SqrtPrice} {u : Int} (aligned : setting.order.direction = setting.window.direction)
    (value : TickIndex.rawPrice u = tickPrice.value) : (setting.target tickPrice).value = setting.course.target u := by
  rw [target_nearer, aligned, ← value]
  rfl

theorem arrive_ok {state arrived : SwapState} {stop : Window.Stop} {crossed : Option TickUpdate}
    (ok : setting.arrive state stop = .ok (arrived, crossed)) :
    arrived.remaining = state.remaining ∧ arrived.calculated = state.calculated ∧ arrived.totalFee = state.totalFee ∧
      arrived.feeGrowth = state.feeGrowth ∧ arrived.protocolFee = state.protocolFee ∧
      arrived.tick = setting.order.direction.past stop.index ∧
        ((stop.tick = none ∧ crossed = none ∧ arrived.liquidity = state.liquidity) ∨
          ∃ record, stop.tick = some record ∧ crossed = some ⟨.ofInt 32 stop.index, setting.flipped state record⟩ ∧
            SwapState.crossLiquidity state.liquidity record.liquidityNet setting.order.direction =
              .ok arrived.liquidity) := by
  obtain ⟨index, tick⟩ := stop
  unfold arrive at ok
  cases tick with
  | none =>
      have same := Except.ok.inj ok
      cases same
      refine ⟨rfl, rfl, rfl, rfl, rfl, ?_, .inl ⟨rfl, rfl, rfl⟩⟩
      cases setting.order.direction <;> rfl
  | some record =>
      obtain ⟨liquidity, moved, ok⟩ := bind_ok ok
      have same := Except.ok.inj ok
      cases same
      refine ⟨rfl, rfl, rfl, rfl, rfl, ?_, .inr ⟨record, rfl, rfl, moved⟩⟩
      cases setting.order.direction <;> rfl

def protocolRate (setting : SwapSetting) : Nat :=
  setting.pool.protocolFeeRate.toNat

-- What a leg computes, before anything is known about the state that it starts from.
structure Computes (setting : SwapSetting) (state : SwapState) (stop : Window.Stop) (leg : SwapLeg) : Prop where
  before : leg.before = state
  toward : leg.stop = stop
  step : ∃ tickPrice, SqrtPrice.ofTick stop.index = .ok tickPrice ∧
    SwapStep.compute setting.order.direction setting.order.side state.remaining setting.pool.feeRate.toNat
      state.liquidity state.price.value (setting.target tickPrice).value = .ok leg.step
  reached : leg.after.price.value = leg.step.nextPrice
  remaining : state.remaining = leg.after.remaining + leg.step.used setting.order.side
  calculated : leg.after.calculated = state.calculated + leg.step.used setting.order.side.other
  counted : FitsBits 64 leg.after.calculated
  fee : leg.after.totalFee = state.totalFee + leg.step.fee
  charged : FitsBits 64 leg.after.totalFee
  growth : leg.after.feeGrowth = state.feeGrowth +
    BitVec.ofNat 128 (SwapState.credit state.liquidity leg.step.fee setting.protocolRate)
  share : leg.after.protocolFee = state.protocolFee +
    BitVec.ofNat 64 (SwapState.protocolShare leg.step.fee setting.protocolRate)
  flips : ∀ update, leg.crossed = some update → ∃ record, leg.stop.tick = some record ∧
    update = ⟨.ofInt 32 leg.stop.index, setting.flipped leg.after record⟩
  narrow : FitsBits 128 state.liquidity → FitsBits 128 leg.after.liquidity
  lands : leg.Lands setting.order.direction

theorem charged_ok {state paid charged : SwapState} {side : Side} {step : SwapStep} {rate : Nat}
    (taken : state.takeAmounts side step = .ok paid) (fee : paid.takeFee step.fee rate = .ok charged) :
    state.remaining = charged.remaining + step.used side ∧
      charged.calculated = state.calculated + step.used side.other ∧ FitsBits 64 charged.calculated ∧
        charged.totalFee = state.totalFee + step.fee ∧ FitsBits 64 charged.totalFee ∧
          charged.liquidity = state.liquidity ∧
            charged.feeGrowth = state.feeGrowth + BitVec.ofNat 128 (SwapState.credit state.liquidity step.fee rate) ∧
              charged.protocolFee = state.protocolFee + BitVec.ofNat 64 (SwapState.protocolShare step.fee rate) := by
  obtain ⟨enough, fits, paidEq⟩ := SwapState.take_amounts_ok taken
  obtain ⟨feeFits, chargedEq⟩ := SwapState.take_fee_ok fee
  rw [paidEq] at chargedEq feeFits
  rw [chargedEq]
  exact ⟨(Nat.sub_add_cancel enough).symm, rfl, fits, rfl, feeFits, rfl, rfl, rfl⟩

theorem arrive_lands (leg : SwapLeg) {state arrived : SwapState} {stop : Window.Stop} {crossed : Option TickUpdate}
    (inside : TickIndex.InBounds stop.index) (ok : setting.arrive state stop = .ok (arrived, crossed))
    (liquidity : state.liquidity = leg.before.liquidity) (toward : leg.stop = stop) (there : leg.Arrives)
    (tick : leg.after.tick = arrived.tick) (after : leg.after.liquidity = arrived.liquidity)
    (updates : leg.crossed = crossed) :
    (FitsBits 128 state.liquidity → FitsBits 128 arrived.liquidity) ∧ leg.Lands setting.order.direction := by
  subst toward updates
  obtain ⟨_, _, _, _, _, past, landing⟩ := arrive_ok ok
  rcases landing with ⟨absent, none, kept⟩ | ⟨record, present, some, crossedTo⟩
  · rw [kept]
    exact ⟨id, .boundary there (tick.trans past) absent none (by rw [after, kept, liquidity])⟩
  · obtain ⟨moved, fits⟩ := SwapState.cross_liquidity_ok crossedTo
    obtain ⟨initialized, net, gross⟩ := setting.flipped_keeps state record
    have within : Signed.Holds 32 leg.stop.index :=
      ⟨le_trans (by decide) inside.1, le_trans inside.2 (by decide)⟩
    rw [← after, liquidity] at moved
    exact ⟨fun _ => fits, .crossing record _ there (tick.trans past) present some
      (Signed.to_int_of_int (by decide) within) initialized net gross moved⟩

theorem leg_computes {state : SwapState} {stop : Window.Stop} {leg : SwapLeg} (ok : setting.leg state stop = .ok leg) :
    setting.Computes state stop leg := by
  obtain ⟨tickPrice, read, ok⟩ := bind_ok ok
  obtain ⟨step, computed, ok⟩ := bind_ok ok
  obtain ⟨price, reached, ok⟩ := bind_ok ok
  obtain ⟨paid, taken, ok⟩ := bind_ok ok
  obtain ⟨charged, fee, ok⟩ := bind_ok ok
  obtain ⟨inside, value⟩ := (SqrtPrice.of_tick_eq_ok_iff _ _).mp read
  obtain ⟨remaining, calculated, counted, total, fits, liquidity, growth, share⟩ := charged_ok taken fee
  have next := (SqrtPrice.of_nat_eq_ok_iff _ _).mp reached
  by_cases there : price = tickPrice
  · rw [if_pos there] at ok
    obtain ⟨⟨arrived, crossed⟩, landed, ok⟩ := bind_ok ok
    have same := Except.ok.inj ok
    subst same
    have atStop : price.value = TickIndex.rawPrice stop.index := by rw [there, value]
    obtain ⟨sameRemaining, sameCalculated, sameFee, sameGrowth, sameShare, _, landing⟩ := arrive_ok landed
    rw [← sameRemaining] at remaining
    rw [← sameCalculated] at calculated counted
    rw [← sameFee] at total fits
    rw [← sameGrowth] at growth
    rw [← sameShare] at share
    obtain ⟨narrow, lands⟩ := arrive_lands ⟨state, stop, step, crossed, { arrived with price }⟩ inside landed liquidity
      rfl atStop rfl rfl rfl
    rw [liquidity] at narrow
    refine ⟨rfl, rfl, ⟨tickPrice, read, computed⟩, next, remaining, calculated, counted, total, fits, growth, share,
      fun update made => ?_, narrow, lands⟩
    rcases landing with ⟨_, none, _⟩ | ⟨record, present, some, _⟩
    · rw [none] at made
      cases made
    · rw [some] at made
      cases made
      exact ⟨record, present, congrArg _ (setting.flipped_congr sameGrowth.symm record)⟩
  · rw [if_neg there] at ok
    have same := Except.ok.inj ok
    subst same
    have away : price.value ≠ TickIndex.rawPrice stop.index := by
      intro atStop
      exact there (SqrtPrice.value_inj (atStop.trans value))
    exact ⟨rfl, rfl, ⟨tickPrice, read, computed⟩, next, remaining, calculated, counted, total, fits, growth, share,
      fun _ made => (by cases made), fun narrow => by rw [liquidity]; exact narrow, .short away rfl rfl liquidity⟩

theorem leg_is_move {state : SwapState} {stop : Window.Stop} {leg : SwapLeg}
    (aligned : setting.order.direction = setting.window.direction) (accepted : setting.window.IsAccepted)
    (ready : setting.course.Ready state) (underWay : ¬ setting.IsDone state)
    (search : (setting.window.nextInitialized state.tick).outcome = .ok stop) (ok : setting.leg state stop = .ok leg) :
    leg.before = state ∧ setting.course.IsMove leg := by
  obtain ⟨rfl, rfl, ⟨tickPrice, read, computed⟩, reached, remaining, calculated, counted, _, _, _, _, _, narrow,
    lands⟩ := leg_computes ok
  obtain ⟨inside, value⟩ := (SqrtPrice.of_tick_eq_ok_iff _ _).mp read
  have away : leg.before.price.value ≠ setting.order.limit.value :=
    fun same => underWay (.inr (SqrtPrice.value_inj same))
  have room := TickIndex.has_room_of_lies ready.lies ready.limited away
  have next := Window.next_initialized_is_next accepted room search
  have target := target_value aligned value
  have start : 0 < leg.before.price.value := leg.before.price.value_pos
  have finish : 0 < setting.course.target leg.stop.index := by
    rw [← target]
    exact (setting.target tickPrice).value_pos
  have leads : setting.window.direction.Leads leg.before.price.value (setting.course.target leg.stop.index) :=
    Direction.leads_nearer_iff.mpr ⟨TickIndex.leads_raw_price ready.lies inside next.ahead, ready.limited⟩
  rw [target, aligned] at computed
  rw [aligned] at lands
  refine ⟨rfl, ready, underWay, next, inside, fun input => ?_, fun output => ?_, reached, remaining, calculated,
    counted, narrow ready.narrow, lands⟩
  · have side : setting.order.side = .input := input
    rw [side] at computed
    exact SwapStep.compute_input start finish leads ready.small computed
  · have side : setting.order.side = .output := output
    rw [side] at computed
    exact SwapStep.compute_output start finish leads ready.small computed

end SwapSetting

end PoolQuote
