import PoolQuote.Proofs.LegAmounts
import PoolQuote.Proofs.Lockstep

/-!
What an input buys, an output costs no more. A swap for an output below what an input has won follows the
legs of that input and stops within one of them, where it has paid in no more.
-/

set_option autoImplicit false

namespace PoolQuote

namespace Course

def on (c : Course) (side : Side) : Course :=
  { c with side }

variable {c : Course}

theorem on_most (c : Course) {leg other : SwapLeg} (meets : leg.before.Meets other.before) (stop : leg.stop = other.stop) :
    (c.on .output).most other =
      c.direction.won leg.before.price.value (c.target leg.stop.index) leg.before.liquidity := by
  rw [meets.price, meets.liquidity, stop]
  rfl

theorem on_input_won {leg : SwapLeg} (move : (c.on .input).IsMove leg) : leg.step.used .output =
    c.direction.won leg.before.price.value leg.after.price.value leg.before.liquidity :=
  move.input_counted rfl

theorem on_output_paid {leg : SwapLeg} (move : (c.on .output).IsMove leg) : leg.step.used .input =
    SwapStep.cost c.rate (c.direction.due leg.before.price.value leg.after.price.value leg.before.liquidity) :=
  move.output_counted rfl

section Legs

variable {leg other : SwapLeg} (move : (c.on .input).IsMove leg) (second : (c.on .output).IsMove other)
  (meets : leg.before.Meets other.before)

include move second meets

theorem on_same_stop (accepted : c.window.IsAccepted) : leg.stop = other.stop := by
  refine Window.is_next_unique accepted move.next second.next ?_ ?_
  · rw [meets.tick]
    exact c.direction.leads_refl _
  · rw [← meets.tick]
    exact move.next.ahead

theorem output_within (stop : leg.stop = other.stop) (few : other.before.remaining < (c.on .output).most other)
    (enough : other.before.remaining ≤ leg.step.used .output) :
    c.direction.Leads other.after.price.value leg.after.price.value ∧ other.step.used .input ≤ leg.step.used .input := by
  obtain ⟨forward, short⟩ := move.forward_short
  have won := on_input_won move
  have pays : SwapStep.cost c.rate (c.direction.due leg.before.price.value leg.after.price.value leg.before.liquidity) ≤
      leg.step.used .input := move.input_cost_le rfl
  rw [meets.price] at forward won pays
  rw [meets.liquidity] at won pays
  rw [stop] at short
  rw [won] at enough
  have behind := second.output_leads rfl few forward short enough
  have less := Direction.due_le_of_leads other.before.liquidity other.before.price.value_pos leg.after.price.value_pos
    second.forward_short.1 behind
  refine ⟨behind, ?_⟩
  rw [on_output_paid second]
  exact le_trans (SwapStep.cost_mono c.rate_lt less) pays

theorem output_along (stop : leg.stop = other.stop) (within : (c.on .output).most other ≤ other.before.remaining)
    (reached : leg.after.price.value = c.target leg.stop.index) : leg.after.price = other.after.price ∧
      leg.step.used .input = other.step.used .input ∧
      other.before.remaining = other.after.remaining + leg.step.used .output := by
  obtain ⟨reached', whole'⟩ := second.output_whole rfl within
  have whole := move.input_whole rfl reached
  have total : leg.before.remaining = leg.after.remaining + leg.step.used .input := move.remaining
  have price : leg.after.price = other.after.price := by
    rw [stop] at reached
    exact SqrtPrice.value_inj (reached.trans reached'.symm)
  refine ⟨price, ?_, ?_⟩
  · rw [meets.price, meets.liquidity, price] at whole
    exact (Nat.add_left_cancel (total.symm.trans whole)).trans (on_output_paid second).symm
  · rw [on_input_won move, reached, ← c.on_most meets stop]
    exact whole'

end Legs

theorem Path.total_of_done {leg : SwapLeg} {legs : List SwapLeg} {last : SwapState} (rest : c.Path leg.after legs last)
    (done : c.IsDone leg.after) (side : Side) : SwapLeg.total (leg :: legs) side = leg.step.used side := by
  obtain ⟨rfl, _⟩ := rest.ended done
  rfl

-- A swap for an input that wins more than is wanted does not end before a leg in which this shows.
section Wins

variable {leg other : SwapLeg} {legs : List SwapLeg} {last : SwapState} (move : (c.on .input).IsMove leg)
  (rest : (c.on .input).Path leg.after legs last) (meets : leg.before.Meets other.before) (stop : leg.stop = other.stop)
  (less : other.before.remaining < SwapLeg.total (leg :: legs) .output)

include move rest meets stop less

theorem wins_enough (few : other.before.remaining < (c.on .output).most other) :
    other.before.remaining ≤ leg.step.used .output := by
  by_cases reached : leg.after.price.value = c.target leg.stop.index
  · rw [on_input_won move, reached, ← c.on_most meets stop]
    exact le_of_lt few
  · rw [rest.total_of_done (.inl (move.input_spent rfl reached))] at less
    exact le_of_lt less

theorem wins_on (within : (c.on .output).most other ≤ other.before.remaining) :
    leg.after.price.value = c.target leg.stop.index := by
  by_contra missed
  have further := Direction.won_le_of_leads leg.before.liquidity move.before_pos.1 move.before_pos.2
    move.forward_short.1 move.forward_short.2
  rw [rest.total_of_done (.inl (move.input_spent rfl missed)), on_input_won move] at less
  rw [c.on_most meets stop] at within
  exact absurd (le_trans further within) (not_le.mpr less)

end Wins

-- The induction is on the legs of the swap for the output.
theorem Path.output_within (accepted : c.window.IsAccepted) {a lastA b lastB : SwapState} {legsA legsB : List SwapLeg}
    (pathB : (c.on .output).Path b legsB lastB) (doneB : (c.on .output).IsDone lastB)
    (pathA : (c.on .input).Path a legsA lastA) (meets : a.Meets b)
    (less : b.remaining < SwapLeg.total legsA .output) :
    lastB.remaining = 0 ∧ SwapLeg.total legsB .input ≤ SwapLeg.total legsA .input ∧
      c.direction.Leads lastB.price.value lastA.price.value := by
  induction pathB generalizing a legsA with
  | rest b =>
      rcases doneB with spent | limit
      · rw [← meets.price]
        exact ⟨spent, Nat.zero_le _, pathA.price_leads⟩
      · obtain ⟨rfl, _⟩ := pathA.ended (.inr (meets.price.trans limit))
        exact absurd less (Nat.not_lt_zero _)
  | move legB legsB lastB stepB restB ih =>
      cases pathA with
      | rest _ => exact absurd less (Nat.not_lt_zero _)
      | move legA legsA lastA stepA restA =>
          have stop := on_same_stop stepA stepB meets accepted
          rcases Nat.lt_or_ge legB.before.remaining ((c.on .output).most legB) with few | within
          · have enough := wins_enough stepA restA meets stop less few
            obtain ⟨behind, costs⟩ := Course.output_within stepA stepB meets stop few enough
            have spent := (stepB.output_spent rfl few).2
            obtain ⟨rfl, rfl⟩ := restB.ended (.inl spent)
            exact ⟨spent, le_trans costs (Nat.le_add_right _ _), Direction.leads_trans behind restA.price_leads⟩
          · have reached := wins_on stepA restA meets stop less within
            obtain ⟨price, paid, left⟩ := output_along stepA stepB meets stop within reached
            rcases arrives_or_limited (c := c.on .input) reached with there | limit
            · have there' : legB.Arrives := by
                rw [SwapLeg.Arrives, ← price, ← stop]
                exact there
              have meets' := stepA.lands.meets stepB.lands stop meets.liquidity price there'
              rw [SwapLeg.total_cons] at less
              obtain ⟨spent, costs, behind⟩ := ih doneB restA meets' (by omega)
              refine ⟨spent, ?_, behind⟩
              rw [SwapLeg.total_cons, SwapLeg.total_cons, paid]
              exact Nat.add_le_add_left costs _
            · rw [restA.total_of_done (.inr limit)] at less
              omega

end Course

/-- To ask for less than an input wins costs no more than that input. -/
theorem output_costs_no_more_than_input (pool : Pool) (slots : List Slot) (spacing : BitVec 16) (window : Window)
    (limit : SqrtPrice) (direction : Direction) (time time' x y : BitVec 64) (sold bought : SwapResult)
    (accepted : Window.ofSlots slots spacing direction = .ok window) (consistent : pool.IsConsistent)
    (limited : direction.Leads pool.sqrtPrice.toNat limit.value)
    (ok : (swap pool window ⟨x, limit, .input, direction, time⟩ .blank).1 = .ok sold)
    (less : y.toNat < (sold.amountOf (direction.token .output)).toNat)
    (ok' : (swap pool window ⟨y, limit, .output, direction, time'⟩ .blank).1 = .ok bought) :
    bought.amountOf (direction.token .output) = y ∧
      (bought.amountOf (direction.token .input)).toNat ≤ (sold.amountOf (direction.token .input)).toNat ∧
      direction.Leads pool.sqrtPrice.toNat bought.nextSqrtPrice.toNat ∧
      direction.Leads bought.nextSqrtPrice.toNat sold.nextSqrtPrice.toNat := by
  obtain ⟨rfl, sound⟩ := Window.of_slots_ok accepted
  obtain ⟨start, last, starts, _, path, _, accounts⟩ := swap_course sound rfl consistent limited ok
  obtain ⟨start', last', starts', _, path', done', accounts'⟩ := swap_course sound rfl consistent limited ok'
  rw [accounts.amount, ← starts'.remaining] at less
  let c : Course := pool.course ⟨slots, spacing, direction⟩ ⟨x, limit, .input, direction, time⟩
  obtain ⟨spent, costs, behind⟩ := Course.Path.output_within (c := c) sound path' done' path (starts.meets starts') less
  have forward := path'.price_leads
  have delivered := accounts'.spent
  rw [spent, Nat.zero_add] at delivered
  refine ⟨BitVec.eq_of_toNat_eq ?_, ?_, ?_, ?_⟩
  · rw [accounts'.amount]
    exact delivered.symm
  · rw [accounts.amount, accounts'.amount]
    exact costs
  · rw [accounts'.price, ← starts'.price]
    exact forward
  · rw [accounts.price, accounts'.price]
    exact behind

theorem output_costs_no_more_than_input_sample : ∃ sold bought,
    (swap Sample.pool (Sample.window .aToB) (Sample.order .aToB .input 1000000) .blank).1 = .ok sold ∧
      sold.amountB = 996005 ∧
      (swap Sample.pool (Sample.window .aToB) (Sample.order .aToB .output 996004) .blank).1 = .ok bought ∧
      bought.amountB = 996004 ∧ bought.amountA.toNat ≤ sold.amountA.toNat := by
  have run : (swap Sample.pool (Sample.window .aToB) (Sample.order .aToB .input 1000000) .blank).1.toOption.map
      (fun result => result.amountB) = some 996005 := by decide +kernel
  have run' : (swap Sample.pool (Sample.window .aToB) (Sample.order .aToB .output 996004) .blank).1.toOption.map
      (fun result => result.nextTick.toInt) = some (-20) := by decide +kernel
  obtain ⟨sold, ok, amount⟩ := exists_result run
  obtain ⟨bought, ok', _⟩ := exists_result run'
  have law := output_costs_no_more_than_input Sample.pool (Sample.slots .aToB) 1 (Sample.window .aToB) .min .aToB 0 0
    1000000 996004 sold bought (Sample.accepted .aToB) Sample.consistent (by decide) ok (by
      change 996004 < sold.amountB.toNat
      rw [amount]
      decide) ok'
  exact ⟨sold, bought, ok, amount, ok', law.1, law.2.1⟩

end PoolQuote
