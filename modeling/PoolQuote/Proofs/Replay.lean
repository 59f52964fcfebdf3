import PoolQuote.Proofs.SwapLeg

/-!
The legs of a swap as its loop makes them, whatever pool it starts from. The swap reports their totals: of
what they pay in, of what they pay out and of their fees.
-/

set_option autoImplicit false

namespace PoolQuote

theorem Side.eq_or_eq_other (side s : Side) : side = s ∨ side = s.other := by
  cases side <;> cases s <;> decide

namespace SwapLeg

def total (legs : List SwapLeg) (side : Side) : Nat :=
  (legs.map fun leg => leg.step.used side).sum

def fees (legs : List SwapLeg) : Nat :=
  (legs.map fun leg => leg.step.fee).sum

theorem total_cons (leg : SwapLeg) (legs : List SwapLeg) (side : Side) :
    total (leg :: legs) side = leg.step.used side + total legs side :=
  rfl

theorem fees_cons (leg : SwapLeg) (legs : List SwapLeg) : fees (leg :: legs) = leg.step.fee + fees legs :=
  rfl

end SwapLeg

namespace SwapSetting

variable {setting : SwapSetting}

-- One turn of the loop.
structure IsTurn (setting : SwapSetting) (leg : SwapLeg) : Prop where
  underWay : ¬ setting.IsDone leg.before
  search : (setting.window.nextInitialized leg.before.tick).outcome = .ok leg.stop
  ok : setting.leg leg.before leg.stop = .ok leg

theorem IsTurn.computes {leg : SwapLeg} (turn : setting.IsTurn leg) : setting.Computes leg.before leg.stop leg :=
  leg_computes turn.ok

inductive Replay (setting : SwapSetting) : SwapState → List SwapLeg → SwapState → Prop
  | rest (state : SwapState) : Replay setting state [] state
  | turn (leg : SwapLeg) (legs : List SwapLeg) (last : SwapState) (step : setting.IsTurn leg)
      (rest : Replay setting leg.after legs last) : Replay setting leg.before (leg :: legs) last

theorem trail_replay (setting : SwapSetting) (n : Nat) (state : SwapState) :
    ∃ final, setting.Replay state (setting.trail n state).legs final ∧
      ∀ last, (setting.trail n state).ending = .done last → final = last ∧ setting.IsDone last := by
  induction n generalizing state with
  | zero =>
      unfold trail
      split
      · rename_i finished
        refine ⟨state, .rest state, fun last ending => ?_⟩
        cases ending
        exact ⟨rfl, finished⟩
      · exact ⟨state, .rest state, fun last ending => by cases ending⟩
  | succ n ih =>
      unfold trail
      split
      · rename_i finished
        refine ⟨state, .rest state, fun last ending => ?_⟩
        cases ending
        exact ⟨rfl, finished⟩
      · rename_i underWay
        simp only
        cases search : (setting.window.nextInitialized state.tick).outcome with
        | error cause => exact ⟨state, .rest state, fun last ending => by cases ending⟩
        | ok stop =>
            simp only
            cases moved : setting.leg state stop with
            | error cause => exact ⟨state, .rest state, fun last ending => by cases ending⟩
            | ok leg =>
                have computes := leg_computes moved
                obtain ⟨rfl, rfl⟩ := And.intro computes.before computes.toward
                obtain ⟨final, replay, ended⟩ := ih leg.after
                exact ⟨final, .turn leg _ final ⟨underWay, search, moved⟩ replay, ended⟩

namespace Replay

variable {state last : SwapState} {legs : List SwapLeg} (replay : setting.Replay state legs last)

include replay

theorem remaining_eq : state.remaining = last.remaining + SwapLeg.total legs setting.order.side := by
  induction replay with
  | rest state => rfl
  | turn leg legs last step _ ih =>
      rw [step.computes.remaining, ih, SwapLeg.total_cons]
      omega

theorem calculated_eq : last.calculated = state.calculated + SwapLeg.total legs setting.order.side.other := by
  induction replay with
  | rest state => rfl
  | turn leg legs last step _ ih => rw [ih, step.computes.calculated, SwapLeg.total_cons, Nat.add_assoc]

theorem fee_eq : last.totalFee = state.totalFee + SwapLeg.fees legs := by
  induction replay with
  | rest state => rfl
  | turn leg legs last step _ ih => rw [ih, step.computes.fee, SwapLeg.fees_cons, Nat.add_assoc]

theorem fits (counted : FitsBits 64 state.calculated) (charged : FitsBits 64 state.totalFee) :
    FitsBits 64 last.calculated ∧ FitsBits 64 last.totalFee := by
  induction replay with
  | rest state => exact ⟨counted, charged⟩
  | turn leg legs last step _ ih => exact ih step.computes.counted step.computes.charged

end Replay

end SwapSetting

namespace SwapState

structure IsStart (state : SwapState) (pool : Pool) (amount : BitVec 64) : Prop where
  remaining : state.remaining = amount.toNat
  calculated : state.calculated = 0
  price : state.price.value = pool.sqrtPrice.toNat
  tick : state.tick = pool.tickCurrent.toInt
  liquidity : state.liquidity = pool.liquidity.toNat
  totalFee : state.totalFee = 0

theorem start_ok {pool : Pool} {order : SwapOrder} {state : SwapState} (ok : start pool order = .ok state) :
    state.IsStart pool order.amount := by
  obtain ⟨price, read, ok⟩ := bind_ok ok
  have same := Except.ok.inj ok
  subst same
  exact ⟨rfl, rfl, (SqrtPrice.of_nat_eq_ok_iff _ _).mp read, rfl, rfl, rfl⟩

end SwapState

namespace SwapResult

def amountOf (result : SwapResult) : Token → BitVec 64
  | .a => result.amountA
  | .b => result.amountB

structure Accounts (result : SwapResult) (order : SwapOrder) (legs : List SwapLeg) (last : SwapState) : Prop where
  amount : ∀ side, (result.amountOf (order.direction.token side)).toNat = SwapLeg.total legs side
  fee : result.totalFee.toNat = SwapLeg.fees legs
  price : result.nextSqrtPrice.toNat = last.price.value
  spent : order.amount.toNat = last.remaining + SwapLeg.total legs order.side
  growth : result.nextFeeGrowthGlobal = last.feeGrowth
  share : result.nextProtocolFee = last.protocolFee
  updates : result.tickUpdates = legs.filterMap SwapLeg.crossed

end SwapResult

namespace SwapSetting

variable {setting : SwapSetting} (trail : SwapTrail) {last : SwapState} (crossings : Nat)

theorem result_amounts (counted : FitsBits 64 last.calculated) :
    ((setting.result trail last crossings).amountOf (setting.order.direction.token setting.order.side)).toNat =
        setting.order.amount.toNat - last.remaining ∧
      ((setting.result trail last crossings).amountOf (setting.order.direction.token setting.order.side.other)).toNat =
        last.calculated := by
  have used : setting.order.amount.toNat - last.remaining < 2 ^ 64 :=
    lt_of_le_of_lt (Nat.sub_le _ _) setting.order.amount.isLt
  unfold result
  constructor
  · cases setting.order.direction <;> cases setting.order.side <;> exact Nat.mod_eq_of_lt used
  · cases setting.order.direction <;> cases setting.order.side <;> exact Nat.mod_eq_of_lt counted

theorem result_price : (setting.result trail last crossings).nextSqrtPrice.toNat = last.price.value :=
  Nat.mod_eq_of_lt (lt_of_le_of_lt last.price.le_max (by decide))

theorem result_accounts {start : SwapState} (starts : start.IsStart setting.pool setting.order.amount)
    (replay : setting.Replay start trail.legs last) :
    (setting.result trail last crossings).Accounts setting.order trail.legs last := by
  have remaining := replay.remaining_eq
  have calculated := replay.calculated_eq
  have fee := replay.fee_eq
  rw [starts.remaining] at remaining
  rw [starts.calculated, Nat.zero_add] at calculated
  rw [starts.totalFee, Nat.zero_add] at fee
  obtain ⟨counted, charged⟩ := replay.fits (by rw [starts.calculated]; decide) (by rw [starts.totalFee]; decide)
  obtain ⟨specified, computed⟩ := result_amounts trail crossings counted
  refine ⟨fun side => ?_, ?_, result_price trail crossings, remaining, rfl, rfl, rfl⟩
  · rcases side.eq_or_eq_other setting.order.side with same | other
    · rw [same, specified, remaining, Nat.add_sub_cancel_left]
    · rw [other, computed, calculated]
  · rw [← fee]
    exact Nat.mod_eq_of_lt charged

end SwapSetting

-- The legs that a swap goes through, one for each turn of its loop.
def swapLegs (pool : Pool) (window : Window) (order : SwapOrder) : List SwapLeg :=
  match pool.rewardsAt order.timestamp, SwapState.start pool order with
  | .ok rewards, .ok start =>
      let setting : SwapSetting := ⟨pool, window, order, rewards⟩
      (setting.trail setting.legLimit start).legs
  | _, _ => []

theorem swap_ok {pool : Pool} {window : Window} {order : SwapOrder} {journal : Journal} {result : SwapResult}
    (ok : (swap pool window order journal).1 = .ok result) :
    ∃ rewards start last, pool.rewardsAt order.timestamp = .ok rewards ∧ SwapState.start pool order = .ok start ∧
      let setting : SwapSetting := ⟨pool, window, order, rewards⟩
      let trail := setting.trail setting.legLimit start
      trail.legs = swapLegs pool window order ∧ trail.ending = .done last ∧
        result = setting.result trail last (journal.crossings + trail.crossed.length) := by
  unfold swap at ok
  unfold swapLegs
  cases accrued : pool.rewardsAt order.timestamp with
  | error cause => rw [accrued] at ok; cases ok
  | ok rewards =>
      rw [accrued] at ok
      cases started : SwapState.start pool order with
      | error cause => rw [started] at ok; cases ok
      | ok start =>
          rw [started] at ok
          simp only at ok
          refine ⟨rewards, start, ?_⟩
          split at ok
          · rename_i last ending
            exact ⟨last, rfl, rfl, rfl, ending, (Except.ok.inj ok).symm⟩
          · cases ok
          · cases ok

-- What holds of every swap that succeeds, also of one whose pool is not consistent.
theorem swap_replay {pool : Pool} {window : Window} {order : SwapOrder} {journal : Journal} {result : SwapResult}
    (ok : (swap pool window order journal).1 = .ok result) :
    ∃ start last, pool.rewardsAt order.timestamp = .ok result.nextRewards ∧ SwapState.start pool order = .ok start ∧
      let setting : SwapSetting := ⟨pool, window, order, result.nextRewards⟩
      setting.Replay start (swapLegs pool window order) last ∧ setting.IsDone last ∧
        result.Accounts order (swapLegs pool window order) last := by
  obtain ⟨rewards, start, last, accrued, started, legs, ending, made⟩ := swap_ok ok
  obtain ⟨final, replay, ended⟩ := SwapSetting.trail_replay ⟨pool, window, order, rewards⟩
    (SwapSetting.mk pool window order rewards).legLimit start
  obtain ⟨rfl, finished⟩ := ended last ending
  have accounts : result.Accounts order (swapLegs pool window order) final := by
    rw [made, ← legs]
    exact SwapSetting.result_accounts _ _ (SwapState.start_ok started) replay
  rw [legs] at replay
  have caughtUp : result.nextRewards = rewards := by rw [made]; rfl
  rw [← caughtUp] at accrued replay
  exact ⟨start, final, accrued, started, replay, finished, accounts⟩

end PoolQuote
