import PoolQuote.Proofs.LoopBound

/-!
A swap succeeds exactly where its loop ends, whichever way its window lies. In a window that lies in the trade's
direction the loop never meets the bound on its legs. In one that lies against it a search from a tick that the trade
has come to leads back to that tick, so that only a first leg can end the loop.
-/

set_option autoImplicit false

namespace PoolQuote

namespace SwapStep

theorem compute_still {d : Direction} {side : Side} {remaining feeRate liquidity p : Nat} {step : SwapStep}
    (positive : 0 < p) (small : remaining ≤ wordMax 64)
    (ok : compute d side remaining feeRate liquidity p p = .ok step) : step.nextPrice = p ∧ step.used side = 0 := by
  cases side with
  | input =>
      have computed := compute_input positive positive (d.leads_refl p) small ok
      have still := (Direction.leads_antisymm computed.forward computed.short).symm
      refine ⟨still, ?_⟩
      have paid := computed.amountIn
      rw [still, Direction.due_self] at paid
      rw [used, computed.fee_whole still, paid]
      exact cost_zero feeRate
  | output =>
      have computed := compute_output positive positive (d.leads_refl p) small ok
      have still := (Direction.leads_antisymm computed.forward computed.short).symm
      refine ⟨still, ?_⟩
      rw [used, computed.amountOut, still, Direction.won_self, Nat.zero_min]

end SwapStep

theorem TickIndex.leads_clamp_of_leads {d : Direction} {t last : Int} (inside : InBounds t) (leads : d.Leads t last) :
    d.Leads t (clamp last) := by
  unfold clamp
  simp only [InBounds] at inside
  cases d <;> simp only [Direction.Leads] at * <;> omega

namespace Window

-- A search that sets out against the window from the stop of another one finds it again.
theorem search_again {w : Window} (accepted : w.IsAccepted) {t : Int} {stop again : Stop}
    (ok : (w.nextInitialized t).outcome = .ok stop) (inside : TickIndex.InBounds stop.index)
    (ok' : (w.nextInitialized (w.direction.opposite.past stop.index)).outcome = .ok again)
    (inside' : TickIndex.InBounds again.index) : again.index = stop.index := by
  have room : TickIndex.HasRoom w.direction (w.direction.opposite.past stop.index) := by
    simp only [TickIndex.InBounds] at inside
    cases w.direction <;> simp only [TickIndex.HasRoom, Direction.opposite, Direction.past] <;> omega
  have next := next_initialized_is_next accepted room ok'
  have behind : w.direction.Leads stop.index again.index := by
    have ahead := next.ahead
    cases direction : w.direction <;>
      simp only [direction, Direction.opposite, Direction.past, Direction.Ahead, Direction.Leads] at * <;> omega
  refine Direction.leads_antisymm ?_ behind
  obtain ⟨n, _, _, ends⟩ := next_initialized_ends accepted ok
  cases ends with
  | found m tick _ held initialized _ same =>
      subst same
      have stored : w.Stores (w.slotAt m * w.spacingNat) tick := (stores_iff accepted _ tick).mpr ⟨m, held, rfl⟩
      refine (next.first _ tick stored initialized ?_).2
      cases w.direction <;> simp only [Direction.opposite, Direction.past, Direction.Ahead] <;> omega
  | none _ same =>
      subst same
      cases present : again.tick with
      | none =>
          rw [next.ended present]
          exact Direction.leads_refl _ _
      | some tick =>
          obtain ⟨k, held, slot⟩ := (stores_iff accepted _ tick).mp (next.found tick present).1
          refine TickIndex.leads_clamp_of_leads inside' ?_
          rw [slot]
          exact (leads_last_iff accepted k).mpr (held_lt held)

end Window

namespace SwapSetting

variable {setting : SwapSetting}

section Against

variable (accepted : setting.window.IsAccepted) (against : setting.order.direction = setting.window.direction.opposite)

include accepted against

theorem IsTurn.comes_back {leg next : SwapLeg} (turn : setting.IsTurn leg) (underWay : ¬ setting.IsDone leg.after)
    (again : setting.IsTurn next) (follows : next.before = leg.after) (small : leg.after.remaining ≤ wordMax 64) :
    ¬ setting.IsDone next.after := by
  obtain ⟨inside, atTarget, _, past⟩ := turn.reaches underWay
  have computes := again.computes
  obtain ⟨tickPrice, read, computed⟩ := computes.step
  obtain ⟨inside', value⟩ := (SqrtPrice.of_tick_eq_ok_iff _ _).mp read
  have search := again.search
  rw [follows, past, against] at search
  rw [Window.search_again accepted turn.search inside search inside'] at value
  have target : (setting.target tickPrice).value = next.before.price.value := by
    rw [target_nearer, ← value, follows, atTarget]
  rw [target] at computed
  rw [← follows] at small underWay
  obtain ⟨still, nothing⟩ := SwapStep.compute_still next.before.price.value_pos small computed
  have remaining := computes.remaining
  rw [nothing, add_zero] at remaining
  have price : next.after.price = next.before.price := SqrtPrice.value_inj (computes.reached.trans still)
  unfold IsDone at *
  rwa [price, ← remaining]

theorem Runs.never_done {state : SwapState} {trail : SwapTrail} (runs : setting.Runs state trail) {leg : SwapLeg}
    (turn : setting.IsTurn leg) (follows : state = leg.after) (underWay : ¬ setting.IsDone leg.after)
    (small : leg.after.remaining ≤ wordMax 64) (last : SwapState) : trail.ending ≠ .done last := by
  induction runs generalizing leg with
  | done state finished =>
      subst follows
      exact absurd finished underWay
  | lost state failure _ _ => exact fun same => by cases same
  | refused state stop cause _ _ _ => exact fun same => by cases same
  | turn next rest again _ ih =>
      have spent := again.computes.remaining
      rw [follows] at spent
      exact ih again rfl (turn.comes_back accepted against underWay again follows small) (by omega)

theorem Runs.turns_le_one {state last : SwapState} {trail : SwapTrail} (runs : setting.Runs state trail)
    (small : state.remaining ≤ wordMax 64) (ends : trail.ending = .done last) : trail.turns ≤ 1 := by
  cases runs with
  | done state _ => exact Nat.zero_le 1
  | lost state failure _ _ => cases ends
  | refused state stop cause _ _ _ => cases ends
  | turn leg rest step further =>
      have spent := step.computes.remaining
      have finished : setting.IsDone leg.after := by
        by_contra underWay
        exact further.never_done accepted against step rfl underWay (by omega) last ends
      rw [runs_unique further (.done leg.after finished)]
      exact le_refl 1

end Against

theorem Runs.turns_le_limit (accepted : setting.window.IsAccepted) {state last : SwapState} {trail : SwapTrail}
    (runs : setting.Runs state trail) (small : state.remaining ≤ wordMax 64) (ends : trail.ending = .done last) :
    trail.turns ≤ setting.legLimit := by
  by_cases aligned : setting.order.direction = setting.window.direction
  · obtain ⟨other, also, bound⟩ := setting.exists_run aligned accepted state
    rw [runs_unique runs also]
    exact le_trans bound (Nat.add_le_add_right (setting.window.pending_length_le state.tick) 2)
  · have against : setting.order.direction = setting.window.direction.opposite := by
      revert aligned
      cases setting.order.direction <;> cases setting.window.direction <;> decide
    exact le_trans (runs.turns_le_one accepted against small ends) (Nat.le_add_left 1 _)

theorem runs_of_trail (setting : SwapSetting) (n : Nat) {state last : SwapState}
    (ends : (setting.trail n state).ending = .done last) : setting.Runs state (setting.trail n state) := by
  induction n generalizing state with
  | zero =>
      unfold trail at ends ⊢
      by_cases finished : setting.IsDone state
      · rw [if_pos finished]
        exact .done state finished
      · rw [if_neg finished] at ends
        cases ends
  | succ n ih =>
      unfold trail at ends ⊢
      by_cases finished : setting.IsDone state
      · rw [if_pos finished]
        exact .done state finished
      · rw [if_neg finished] at ends ⊢
        dsimp only at ends ⊢
        cases search : (setting.window.nextInitialized state.tick).outcome with
        | error failure =>
            rw [search] at ends
            cases ends
        | ok stop =>
            rw [search] at ends
            dsimp only at ends ⊢
            cases moved : setting.leg state stop with
            | error cause =>
                rw [moved] at ends
                cases ends
            | ok leg =>
                rw [moved] at ends
                have computes := leg_computes moved
                obtain ⟨rfl, rfl⟩ := And.intro computes.before computes.toward
                exact .turn leg _ ⟨finished, search, moved⟩ (ih ends)

end SwapSetting

/-- The bound on the legs is no part of what a swap answers where it succeeds. -/
theorem swap_ok_iff_runs {slots : List Slot} {spacing : BitVec 16} {d : Direction} {window : Window}
    (accepted : Window.ofSlots slots spacing d = .ok window) (pool : Pool) (order : SwapOrder) (journal : Journal)
    (result : SwapResult) :
    (swap pool window order journal).1 = .ok result ↔
      ∃ rewards start trail last, pool.rewardsAt order.timestamp = .ok rewards ∧ SwapState.start pool order = .ok start ∧
        SwapSetting.Runs ⟨pool, window, order, rewards⟩ start trail ∧ trail.ending = .done last ∧
          result = SwapSetting.result ⟨pool, window, order, rewards⟩ trail last
            (journal.crossings + trail.crossed.length) := by
  obtain ⟨_, sound⟩ := Window.of_slots_ok accepted
  constructor
  · intro ok
    obtain ⟨rewards, start, last, accrued, started, _, ends, made⟩ := swap_ok ok
    exact ⟨rewards, start, _, last, accrued, started, SwapSetting.runs_of_trail _ _ ends, ends, made⟩
  · rintro ⟨rewards, start, trail, last, accrued, started, runs, ends, rfl⟩
    have small : start.remaining ≤ wordMax 64 := by
      rw [(SwapState.start_ok started).remaining]
      exact Nat.le_pred_of_lt order.amount.isLt
    unfold swap
    rw [accrued, started]
    dsimp only
    rw [runs.trail_eq (runs.turns_le_limit sound small ends), ends]

end PoolQuote
