import PoolQuote.Proofs.FeeSplit
import PoolQuote.Proofs.RewardAccrual

/-!
What a crossing writes into a tick. The growth outside the tick, before and after, adds up to the growth that
the pool has at that moment: on the input side with the credits of all legs up to the crossing one, on the
output side as it was, and for a reward as of the time of the swap. All of it is counted modulo `2 ^ 128`.
-/

set_option autoImplicit false

namespace PoolQuote

namespace Tick

def feeGrowthOutside (tick : Tick) : Token → BitVec 128
  | .a => tick.feeGrowthOutsideA
  | .b => tick.feeGrowthOutsideB

-- A record of a tick and its record after a crossing, when the input side of the pool has grown to `growth`.
structure IsFlip (flipped record : Tick) (pool : Pool) (direction : Direction) (growth : BitVec 128)
    (rewards : Vector RewardInfo rewardCount) : Prop where
  input : flipped.feeGrowthOutside (direction.token .input) + record.feeGrowthOutside (direction.token .input) = growth
  output : flipped.feeGrowthOutside (direction.token .output) + record.feeGrowthOutside (direction.token .output) =
    (pool.token (direction.token .output)).feeGrowthGlobal
  live : ∀ i : Fin rewardCount, pool.rewards[i].isInitialized →
    flipped.rewardGrowthsOutside[i] + record.rewardGrowthsOutside[i] = rewards[i].growthGlobal
  idle : ∀ i : Fin rewardCount, ¬ pool.rewards[i].isInitialized →
    flipped.rewardGrowthsOutside[i] = record.rewardGrowthsOutside[i]

theorem flip_reward (tick : Tick) (feeGrowthA feeGrowthB : BitVec 128) (rewards : Vector RewardInfo rewardCount)
    (i : Fin rewardCount) : (tick.flip feeGrowthA feeGrowthB rewards).rewardGrowthsOutside[i] =
      if rewards[i].isInitialized then rewards[i].growthGlobal - tick.rewardGrowthsOutside[i]
      else tick.rewardGrowthsOutside[i] := by
  simp [flip]

end Tick

namespace SwapSetting

variable {setting : SwapSetting}

theorem flipped_reward (setting : SwapSetting) (state : SwapState) (tick : Tick) (i : Fin rewardCount) :
    (setting.flipped state tick).rewardGrowthsOutside[i] =
      if setting.rewards[i].isInitialized then setting.rewards[i].growthGlobal - tick.rewardGrowthsOutside[i]
      else tick.rewardGrowthsOutside[i] := by
  unfold flipped
  cases setting.order.direction with
  | aToB => exact tick.flip_reward _ _ _ i
  | bToA => exact tick.flip_reward _ _ _ i

theorem flipped_is_flip {time : BitVec 64} (caughtUp : setting.pool.rewardsAt time = .ok setting.rewards)
    (state : SwapState) (tick : Tick) :
    (setting.flipped state tick).IsFlip tick setting.pool setting.order.direction state.feeGrowth setting.rewards := by
  refine ⟨?_, ?_, fun i live => ?_, fun i idle => ?_⟩
  · unfold flipped
    cases setting.order.direction <;> exact BitVec.sub_add_cancel _ _
  · unfold flipped
    cases setting.order.direction <;> exact BitVec.sub_add_cancel _ _
  · have same : setting.rewards[i].isInitialized = setting.pool.rewards[i].isInitialized :=
      Pool.rewards_at_is_initialized caughtUp i
    rw [← same] at live
    rw [flipped_reward, if_pos live]
    exact BitVec.sub_add_cancel _ _
  · have same : setting.rewards[i].isInitialized = setting.pool.rewards[i].isInitialized :=
      Pool.rewards_at_is_initialized caughtUp i
    rw [← same] at idle
    rw [flipped_reward, if_neg idle]

namespace Replay

variable {state last : SwapState} {legs : List SwapLeg} (replay : setting.Replay state legs last)

include replay

theorem upto {k : Nat} {leg : SwapLeg} (found : legs[k]? = some leg) :
    setting.Replay state (legs.take (k + 1)) leg.after := by
  induction replay generalizing k with
  | rest state => cases found
  | turn first legs last step _ ih =>
      cases k with
      | zero =>
          cases Option.some.inj found
          exact .turn leg [] leg.after step (.rest leg.after)
      | succ k => exact .turn first (legs.take (k + 1)) leg.after step (ih found)

end Replay

end SwapSetting

/-- The growth that a crossing flips against is that of the legs up to its own, not that of the whole swap. -/
theorem crossings_flip_outside_growth (pool : Pool) (slots : List Slot) (spacing : BitVec 16) (d : Direction)
    (order : SwapOrder) (window : Window) (journal : Journal) (result : SwapResult)
    (accepted : Window.ofSlots slots spacing d = .ok window)
    (ok : (swap pool window order journal).1 = .ok result) :
    let legs := swapLegs pool window order
    pool.rewardsAt order.timestamp = .ok result.nextRewards ∧
      result.tickUpdates = legs.filterMap SwapLeg.crossed ∧
      ∀ (k : Nat) (leg : SwapLeg) (update : TickUpdate), legs[k]? = some leg → leg.crossed = some update →
        leg.Arrives ∧ leg.stop.index = update.index.toInt ∧
        (∃ record, window.Stores update.index.toInt record) ∧
        ∀ record, window.Stores update.index.toInt record →
          update.tick.IsFlip record pool order.direction
            (pool.inputFeeGrowth order.direction +
              BitVec.ofNat 128 (SwapLeg.credits pool.protocolFeeRate.toNat (legs.take (k + 1)))) result.nextRewards := by
  obtain ⟨_, sound⟩ := Window.of_slots_ok accepted
  obtain ⟨start, last, caughtUp, started, replay, _, accounts⟩ := swap_replay ok
  refine ⟨caughtUp, accounts.updates, fun k leg update found crossed => ?_⟩
  have turn := replay.is_turn (List.mem_of_getElem? found)
  obtain ⟨record, present, flipped⟩ := turn.computes.flips update crossed
  have stored := (Window.next_initialized_stores sound turn.search present).1
  have grown := (replay.upto found).growth_eq
  rw [(SwapState.start_fees started).1] at grown
  cases turn.computes.lands with
  | short _ _ none _ => rw [none] at crossed; cases crossed
  | boundary _ _ _ none _ => rw [none] at crossed; cases crossed
  | crossing _ other there _ _ same index _ _ _ _ =>
      rw [same] at crossed
      cases Option.some.inj crossed
      refine ⟨there, index.symm, ⟨record, index ▸ stored⟩, fun other storedOther => ?_⟩
      rw [index] at storedOther
      cases Window.stores_unique sound stored storedOther
      rw [flipped]
      exact grown ▸ SwapSetting.flipped_is_flip caughtUp leg.after record

def Sample.rewarded : Pool :=
  { Sample.pool with
    rewards := Sample.pool.rewards.set 0
      { RewardInfo.blank with mint := ⟨Vector.replicate 32 1⟩, emissionsPerSecond := 18446744073709551616 } }

def Sample.laterOrder : SwapOrder :=
  { Sample.order .aToB .input 1000000 with timestamp := 5000000000 }

theorem crossings_flip_outside_growth_sample : ∃ (result : SwapResult) (leg : SwapLeg) (update : TickUpdate),
    (swap Sample.rewarded (Sample.window .aToB) Sample.laterOrder .blank).1 = .ok result ∧
      (swapLegs Sample.rewarded (Sample.window .aToB) Sample.laterOrder)[1]? = some leg ∧ leg.crossed = some update ∧
      update.index.toInt = -8 ∧ update.tick.IsFlip (Sample.tick (-100000) 200000) Sample.rewarded .aToB
        (0 + BitVec.ofNat 128 (0 + 21554418845631)) result.nextRewards := by
  have run : (swap Sample.rewarded (Sample.window .aToB) Sample.laterOrder .blank).1.toOption.map
      (fun result => result.nextTick.toInt) = some (-20) := by decide +kernel
  obtain ⟨result, ok, _⟩ := exists_result run
  have second : ((swapLegs Sample.rewarded (Sample.window .aToB) Sample.laterOrder)[1]?.bind SwapLeg.crossed).map
      (fun update => update.index.toInt) = some (-8) := by decide +kernel
  obtain ⟨update, crossed, index⟩ := Option.map_eq_some_iff.mp second
  obtain ⟨leg, found, crosses⟩ := Option.bind_eq_some_iff.mp crossed
  obtain ⟨_, _, law⟩ := crossings_flip_outside_growth Sample.rewarded (Sample.slots .aToB) 1 .aToB Sample.laterOrder
    (Sample.window .aToB) .blank result (Sample.accepted .aToB) ok
  obtain ⟨_, _, _, flips⟩ := law 1 leg update found crosses
  have stored : (Sample.window .aToB).Stores (-8) (Sample.tick (-100000) 200000) :=
    ((Window.mem_initialized_iff _ _ _).mp (by decide +kernel)).1
  have credited : SwapLeg.credits Sample.rewarded.protocolFeeRate.toNat
      ((swapLegs Sample.rewarded (Sample.window .aToB) Sample.laterOrder).take 2) = 0 + 21554418845631 := by
    decide +kernel
  rw [index, credited] at flips
  exact ⟨result, leg, update, ok, found, crosses, index, flips _ stored⟩

end PoolQuote
