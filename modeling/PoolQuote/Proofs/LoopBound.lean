import PoolQuote.Proofs.SearchWalk
import PoolQuote.Proofs.SwapPath

/-!
How long a swap runs, whatever its pool says. A turn that leaves something to do has brought the price to the tick that
its search found, so that the tick lies behind the trade from then on, or to the end of the window, so that the next
search finds nothing. There is one turn for each initialized tick, one for the end of the window and one that fails.
-/

set_option autoImplicit false

namespace PoolQuote

namespace SwapStep

theorem compute_spends {d : Direction} {side : Side} {remaining feeRate liquidity p target : Nat} {step : SwapStep}
    (start : 0 < p) (ok : compute d side remaining feeRate liquidity p target = .ok step) :
    step.nextPrice = target ∨ step.used side = remaining := by
  obtain ⟨whole, between, ok⟩ := bind_ok ok
  obtain ⟨amount, available, ok⟩ := bind_ok ok
  obtain ⟨next, reached, ok⟩ := bind_ite_ok ok
  obtain ⟨computed, _, ok⟩ := bind_ok ok
  obtain ⟨fixed, reused, ok⟩ := bind_ite_ok ok
  have describes := TokenDelta.between_describes between
  cases side with
  | input =>
      dsimp only at ok
      by_cases atTarget : next = target
      · rw [if_pos atTarget] at ok
        obtain ⟨fee, _, ok⟩ := bind_ok ok
        cases Except.ok.inj ok
        exact .inl atTarget
      · rw [if_neg atTarget] at ok
        by_cases within : fixed ≤ remaining
        · rw [if_pos within] at ok
          cases Except.ok.inj ok
          exact .inr (Nat.add_sub_cancel' within)
        · rw [if_neg within] at ok
          cases ok
  | output =>
      obtain ⟨fee, _, ok⟩ := bind_ok ok
      cases Except.ok.inj ok
      have all : remaining = amount := Except.ok.inj available
      subst all
      by_cases covered : whole.IsAtMost remaining
      · rw [if_pos covered] at reached
        exact .inl (Except.ok.inj reached).symm
      · rw [if_neg covered] at reached
        -- The price that is solved for pays out the amount, so its floor does too.
        obtain ⟨some, leads, solved⟩ := NextPrice.solve_output start (liquid_of_uncovered describes covered) reached
        have enough := (solved next some leads).mpr (Direction.leads_refl _ _)
        have paid := fixed_eq_round describes reused
        have covers : remaining ≤ fixed := by
          rw [paid]
          exact (Nat.le_floor_iff (Token.amount_nonneg _ _ _ _)).mpr enough
        exact .inr (Nat.min_eq_right covers)

end SwapStep

namespace TickIndex

def farthest : Direction → Int
  | .aToB => minimum
  | .bToA => maximum

theorem leads_farthest (d : Direction) (p : SqrtPrice) : d.Leads p.value (rawPrice (farthest d)) := by
  cases d with
  | aToB =>
      change rawPrice minimum ≤ p.value
      rw [raw_price_minimum]
      exact p.min_le
  | bToA =>
      change p.value ≤ rawPrice maximum
      rw [raw_price_maximum]
      exact p.le_max

theorem leads_clamp {d : Direction} {t : Int} (short : clamp t ≠ farthest d) : d.Leads t (clamp t) := by
  have ordered : minimum ≤ maximum := by decide
  unfold clamp at *
  cases d <;> simp only [farthest, Direction.Leads] at * <;> omega

end TickIndex

namespace Window

def pending (w : Window) (t : Int) : List (Int × Tick) :=
  w.initializedTicks.filter fun entry => w.direction.Ahead t entry.1

theorem pending_length_le (w : Window) (t : Int) : (w.pending t).length ≤ w.initializedTicks.length :=
  List.length_filter_le _ _

theorem pending_past_lt {w : Window} {t u : Int} {tick : Tick} (listed : (u, tick) ∈ w.initializedTicks)
    (ahead : w.direction.Ahead t u) : (w.pending (w.direction.past u)).length < (w.pending t).length := by
  have rest : w.pending (w.direction.past u) = (w.pending t).filter fun entry => w.direction.Ahead (w.direction.past u) entry.1 := by
    rw [pending, pending, List.filter_filter]
    refine List.filter_congr fun entry _ => ?_
    rw [← Bool.decide_and, decide_eq_decide]
    exact ⟨fun further => ⟨further, Direction.ahead_of_leads (Direction.leads_past ahead) further⟩, fun both => both.1⟩
  rw [rest, List.length_filter_lt_length_iff_exists]
  refine ⟨(u, tick), List.mem_filter.mpr ⟨listed, decide_eq_true ahead⟩, fun still => ?_⟩
  exact Direction.not_ahead_past _ _ (of_decide_eq_true still)

section Accepted

variable {w : Window} (accepted : w.IsAccepted)

include accepted

-- What a search finds within the bounds is before the trade, also where words of 32 bits cut off its entry.
theorem found_ahead {t : Int} {stop : Stop} {tick : Tick} (ok : (w.nextInitialized t).outcome = .ok stop)
    (found : stop.tick = some tick) (inside : TickIndex.InBounds stop.index) :
    (stop.index, tick) ∈ w.initializedTicks ∧ w.direction.Ahead t stop.index := by
  refine ⟨(mem_initialized_iff w _ _).mpr (next_initialized_stores accepted ok found), ?_⟩
  obtain ⟨n, _, entry, ends⟩ := next_initialized_ends accepted ok
  unfold Window.entry at entry
  cases ends with
  | none _ same =>
      subst same
      cases found
  | found m record later _ _ _ same =>
      subst same
      have leads := (slot_leads_iff accepted n m).mpr later
      have spaced : (0 : Int) < w.spacingNat := by exact_mod_cast accepted.spaced
      have narrow : w.spacingNat < 2 ^ 16 := w.spacing.isLt
      have cut := Int.ediv_mul_le (min (searchEntry w.direction w.spacingNat t) (Signed.greatest 32)) (ne_of_gt spaced)
      have next := Int.lt_ediv_add_one_mul_self (min (searchEntry w.direction w.spacingNat t) (Signed.greatest 32)) spaced
      rw [← entry] at cut next
      have top : Signed.greatest 32 = 2147483647 := by decide
      have highest := inside.2
      simp only [TickIndex.maximum] at highest
      unfold searchEntry at cut next
      rw [add_mul, one_mul] at next
      cases direction : w.direction with
      | aToB =>
          simp only [direction, Direction.Leads, Direction.Ahead] at *
          omega
      | bToA =>
          simp only [direction, Direction.Leads, Direction.Ahead] at *
          omega

theorem search_past_end {t : Int} {stop : Stop} (ok : (w.nextInitialized t).outcome = .ok stop)
    (ended : stop.tick = none) (inside : TickIndex.InBounds stop.index)
    (short : stop.index ≠ TickIndex.farthest w.direction) :
    ∃ failure, (w.nextInitialized (w.direction.past stop.index)).outcome = .error failure := by
  have last : stop.index = TickIndex.clamp w.lastIndex := by
    obtain ⟨_, _, _, ends⟩ := next_initialized_ends accepted ok
    cases ends with
    | found m record _ _ _ _ same =>
        subst same
        cases ended
    | none _ same => rw [same]
  have behind : w.direction.Leads w.lastIndex stop.index := by
    rw [last] at short ⊢
    exact TickIndex.leads_clamp short
  cases again : (w.nextInitialized (w.direction.past stop.index)).outcome with
  | error failure => exact ⟨failure, rfl⟩
  | ok stop' =>
      have upper : w.direction.past stop.index ≤ TickIndex.maximum := by
        have highest := inside.2
        cases w.direction <;> simp only [Direction.past] <;> omega
      obtain ⟨n, within, entry, _⟩ := next_initialized_ok accepted upper again
      have ahead : w.direction.Ahead (w.direction.past stop.index) (w.slotAt n * w.spacingNat) :=
        (slot_ahead_iff accepted entry n).mpr (le_refl n)
      have further := Direction.ahead_of_ahead_leads ahead ((leads_last_iff accepted n).mpr within)
      exact absurd (Direction.ahead_of_ahead_leads further behind) (Direction.not_ahead_past _ _)

end Accepted

end Window

namespace SwapTrail

-- The turns of the loop, counting one that fails.
def turns (trail : SwapTrail) : Nat :=
  trail.legs.length + match trail.ending with
    | .failed _ => 1
    | _ => 0

end SwapTrail

namespace SwapSetting

variable {setting : SwapSetting}

-- The loop of a swap from a state, with as many turns as it takes.
inductive Runs (setting : SwapSetting) : SwapState → SwapTrail → Prop
  | done (state : SwapState) (finished : setting.IsDone state) : Runs setting state ⟨[], [], .done state⟩
  | lost (state : SwapState) (failure : Failure) (underWay : ¬ setting.IsDone state)
      (search : (setting.window.nextInitialized state.tick).outcome = .error failure) :
      Runs setting state ⟨[], (setting.window.nextInitialized state.tick).reads, .failed failure⟩
  | refused (state : SwapState) (stop : Window.Stop) (cause : QuoteError) (underWay : ¬ setting.IsDone state)
      (search : (setting.window.nextInitialized state.tick).outcome = .ok stop)
      (leg : setting.leg state stop = .error cause) :
      Runs setting state ⟨[], (setting.window.nextInitialized state.tick).reads, .failed (.error cause)⟩
  | turn (leg : SwapLeg) (rest : SwapTrail) (step : setting.IsTurn leg) (further : Runs setting leg.after rest) :
      Runs setting leg.before
        ⟨leg :: rest.legs, (setting.window.nextInitialized leg.before.tick).reads ++ rest.reads, rest.ending⟩

theorem Runs.trail_eq {state : SwapState} {trail : SwapTrail} (runs : setting.Runs state trail) {n : Nat}
    (enough : trail.turns ≤ n) : setting.trail n state = trail := by
  induction runs generalizing n with
  | done state finished =>
      unfold SwapSetting.trail
      rw [if_pos finished]
  | lost state failure underWay search =>
      obtain ⟨n, rfl⟩ : ∃ k, n = k + 1 := Nat.exists_eq_add_of_le' enough
      unfold SwapSetting.trail
      rw [if_neg underWay]
      simp only [search]
  | refused state stop cause underWay search leg =>
      obtain ⟨n, rfl⟩ : ∃ k, n = k + 1 := Nat.exists_eq_add_of_le' enough
      unfold SwapSetting.trail
      rw [if_neg underWay]
      simp only [search, leg]
  | turn leg rest step further ih =>
      have later : rest.turns + 1 ≤ n := by
        simp only [SwapTrail.turns, List.length_cons] at enough ⊢
        omega
      obtain ⟨n, rfl⟩ : ∃ k, n = k + 1 := Nat.exists_eq_add_of_le' (le_trans (Nat.le_add_left _ _) later)
      unfold SwapSetting.trail
      rw [if_neg step.underWay]
      simp only [step.search, step.ok, ih (Nat.le_of_succ_le_succ later)]

theorem runs_unique {state : SwapState} {trail trail' : SwapTrail} (first : setting.Runs state trail)
    (second : setting.Runs state trail') : trail = trail' :=
  (first.trail_eq (le_max_left _ _)).symm.trans (second.trail_eq (le_max_right trail.turns _))

theorem Runs.ended {state : SwapState} {trail : SwapTrail} (runs : setting.Runs state trail) (other : SwapState) :
    trail.ending ≠ .underWay other := by
  induction runs with
  | done state finished => exact fun same => by cases same
  | lost state failure underWay search => exact fun same => by cases same
  | refused state stop cause underWay search leg => exact fun same => by cases same
  | turn leg rest step further ih => exact ih

theorem IsTurn.reaches {leg : SwapLeg} (turn : setting.IsTurn leg) (underWay : ¬ setting.IsDone leg.after) :
    TickIndex.InBounds leg.stop.index ∧
      leg.after.price.value =
        setting.order.direction.nearer (TickIndex.rawPrice leg.stop.index) setting.order.limit.value ∧
      leg.Arrives ∧ leg.after.tick = setting.order.direction.past leg.stop.index := by
  have computes := turn.computes
  obtain ⟨tickPrice, read, computed⟩ := computes.step
  obtain ⟨inside, value⟩ := (SqrtPrice.of_tick_eq_ok_iff _ _).mp read
  have atTarget : leg.after.price.value =
      setting.order.direction.nearer (TickIndex.rawPrice leg.stop.index) setting.order.limit.value := by
    rw [value, ← target_nearer, computes.reached]
    refine (SwapStep.compute_spends leg.before.price.value_pos computed).resolve_right fun spent => underWay (.inl ?_)
    have remaining := computes.remaining
    omega
  have there : leg.Arrives := by
    rcases setting.order.direction.nearer_eq (TickIndex.rawPrice leg.stop.index) setting.order.limit.value with
      tick | limit
    · exact atTarget.trans tick
    · exact absurd (.inr (SqrtPrice.value_inj (atTarget.trans limit))) underWay
  exact ⟨inside, atTarget, there, computes.lands.tick_after there⟩

theorem IsTurn.goes_on {leg : SwapLeg} (aligned : setting.order.direction = setting.window.direction)
    (turn : setting.IsTurn leg) (underWay : ¬ setting.IsDone leg.after) :
    TickIndex.InBounds leg.stop.index ∧ leg.stop.index ≠ TickIndex.farthest setting.window.direction ∧
      leg.after.tick = setting.window.direction.past leg.stop.index := by
  obtain ⟨inside, atTarget, there, past⟩ := turn.reaches underWay
  rw [aligned] at atTarget past
  refine ⟨inside, fun last => underWay (.inr (SqrtPrice.value_inj ?_)), past⟩
  have short : setting.window.direction.Leads leg.after.price.value setting.order.limit.value := by
    rw [atTarget]
    exact (Direction.nearer_leads _ _ _).2
  have beyond : setting.window.direction.Leads setting.order.limit.value leg.after.price.value := by
    rw [there, last]
    exact TickIndex.leads_farthest _ _
  exact Direction.leads_antisymm short beyond

theorem exists_run (setting : SwapSetting) (aligned : setting.order.direction = setting.window.direction)
    (accepted : setting.window.IsAccepted) (state : SwapState) :
    ∃ trail, setting.Runs state trail ∧ trail.turns ≤ (setting.window.pending state.tick).length + 2 := by
  induction size : (setting.window.pending state.tick).length using Nat.strong_induction_on generalizing state with
  | _ size ih =>
      subst size
      by_cases finished : setting.IsDone state
      · exact ⟨_, .done state finished, Nat.zero_le _⟩
      · cases search : (setting.window.nextInitialized state.tick).outcome with
        | error failure => exact ⟨_, .lost state failure finished search, Nat.le_add_left 1 _⟩
        | ok stop =>
            cases moved : setting.leg state stop with
            | error cause => exact ⟨_, .refused state stop cause finished search moved, Nat.le_add_left 1 _⟩
            | ok leg =>
                have computes := leg_computes moved
                obtain ⟨rfl, rfl⟩ := And.intro computes.before computes.toward
                have turn : setting.IsTurn leg := ⟨finished, search, moved⟩
                by_cases done : setting.IsDone leg.after
                · exact ⟨_, .turn leg _ turn (.done leg.after done), Nat.le_add_left 1 _⟩
                · obtain ⟨inside, short, past⟩ := turn.goes_on aligned done
                  cases ended : leg.stop.tick with
                  | none =>
                      obtain ⟨failure, lost⟩ := Window.search_past_end accepted search ended inside short
                      rw [← past] at lost
                      exact ⟨_, .turn leg _ turn (.lost leg.after failure done lost), Nat.le_add_left 2 _⟩
                  | some tick =>
                      obtain ⟨listed, ahead⟩ := Window.found_ahead accepted search ended inside
                      have fewer := Window.pending_past_lt listed ahead
                      rw [← past] at fewer
                      obtain ⟨rest, runs, bound⟩ := ih _ fewer leg.after rfl
                      refine ⟨_, .turn leg rest turn runs, ?_⟩
                      simp only [SwapTrail.turns, List.length_cons] at bound ⊢
                      omega

theorem Runs.swap_eq {pool : Pool} {window : Window} {order : SwapOrder} {rewards : Vector RewardInfo rewardCount}
    {start : SwapState} {trail : SwapTrail} (journal : Journal) (accrued : pool.rewardsAt order.timestamp = .ok rewards)
    (started : SwapState.start pool order = .ok start) (runs : Runs ⟨pool, window, order, rewards⟩ start trail)
    (within : trail.turns ≤ window.initializedTicks.length + 2) :
    (∃ last result, trail.ending = .done last ∧ (swap pool window order journal).1 = .ok result) ∨
      ∃ failure, trail.ending = .failed failure ∧ (swap pool window order journal).1 = .error failure := by
  unfold swap
  rw [accrued, started]
  dsimp only [legLimit]
  rw [runs.trail_eq within]
  cases ending : trail.ending with
  | done last => exact .inl ⟨last, _, rfl, rfl⟩
  | failed failure => exact .inr ⟨failure, rfl, rfl⟩
  | underWay other => exact absurd ending (runs.ended other)

end SwapSetting

/-- Neither the loop nor its searches have a bound of their own here: they end because the window does. -/
theorem swap_loop_ends {slots : List Slot} {spacing : BitVec 16} {order : SwapOrder} {window : Window}
    (accepted : Window.ofSlots slots spacing order.direction = .ok window) :
    (∀ (pool : Pool) (journal : Journal) (rewards : Vector RewardInfo rewardCount) (start : SwapState),
      pool.rewardsAt order.timestamp = .ok rewards → SwapState.start pool order = .ok start →
      ∃ trail, (∀ other, SwapSetting.Runs ⟨pool, window, order, rewards⟩ start other ↔ other = trail) ∧
        trail.turns ≤ window.initializedTicks.length + 2 ∧
        ((∃ last result, trail.ending = .done last ∧ (swap pool window order journal).1 = .ok result) ∨
          ∃ failure, trail.ending = .failed failure ∧ (swap pool window order journal).1 = .error failure)) ∧
    ∀ t : Int,
      (∀ position, window.SetsOut t position → ∃ visited, visited.length ≤ 88 * 3 + 1 ∧ ∀ other outcome,
        window.Walks position other outcome ↔ other = visited ∧ outcome = (window.nextInitialized t).outcome) ∧
      ((∀ position, ¬ window.SetsOut t position) → ∃ failure, (window.nextInitialized t).outcome = .error failure) := by
  obtain ⟨same, sound⟩ := Window.of_slots_ok accepted
  have aligned : order.direction = window.direction := by rw [same]
  refine ⟨fun pool journal rewards start accrued started => ?_, fun t => ⟨fun position out => ?_, fun stays => ?_⟩⟩
  · obtain ⟨trail, runs, bound⟩ := SwapSetting.exists_run ⟨pool, window, order, rewards⟩ aligned sound start
    have within := le_trans bound (Nat.add_le_add_right (window.pending_length_le start.tick) 2)
    refine ⟨trail, fun other => ⟨fun also => SwapSetting.runs_unique also runs, ?_⟩, within,
      runs.swap_eq journal accrued started within⟩
    rintro rfl
    exact runs
  · obtain ⟨visited, walk, short⟩ := Window.next_initialized_walks sound out
    refine ⟨visited, short, fun other outcome => ⟨fun also => Window.walks_unique also walk, ?_⟩⟩
    rintro ⟨rfl, rfl⟩
    exact walk
  · exact Window.next_initialized_fails stays

def Sample.stale : Pool :=
  { Sample.pool with tickCurrent := .ofInt 32 (-80) }

def Sample.staleSetting : SwapSetting :=
  ⟨Sample.stale, Sample.window .bToA, Sample.order .bToA .input 50000000, Sample.stale.rewards⟩

-- The bound is met: two ticks, the end of the window and a search that fails.
theorem swap_loop_ends_sample : ¬ Sample.stale.IsConsistent ∧ (Sample.window .bToA).initializedTicks.length = 2 ∧
    ∃ start trail, SwapState.start Sample.stale (Sample.order .bToA .input 50000000) = .ok start ∧
      Sample.staleSetting.Runs start trail ∧ trail.turns = 4 := by
  have run : (SwapState.start Sample.stale (Sample.order .bToA .input 50000000)).toOption.map
      (fun start => (Sample.staleSetting.trail 4 start).turns) = some 4 := by decide +kernel
  obtain ⟨start, started, turns⟩ := exists_ok run
  obtain ⟨trail, runs, bound, _⟩ := (swap_loop_ends (Sample.accepted .bToA)).1 Sample.stale .blank Sample.stale.rewards start
    rfl started
  have whole := (runs trail).mpr rfl
  have ticks : (Sample.window .bToA).initializedTicks.length = 2 := by decide +kernel
  rw [ticks] at bound
  refine ⟨?_, ticks, start, trail, started, whole, ?_⟩
  · unfold Pool.IsConsistent TickIndex.IsConsistent
    decide +kernel
  · rw [← turns, ← whole.trail_eq bound]
    rfl

end PoolQuote
