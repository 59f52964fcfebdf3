import PoolQuote.Proofs.LegAmounts
import PoolQuote.Proofs.Lockstep

/-!
A larger amount takes a swap at least as far. Two swaps from one place go through the same legs until the
smaller amount runs out, and in that leg the larger one pays in no less, is paid no less and moves the
price no less.
-/

set_option autoImplicit false

namespace PoolQuote

namespace Course

variable {c : Course}

-- What a leg does beside one that starts at the same place with no less left: its amount runs out and it does no
-- more, or both reach their target and do the same.
inductive Trails (c : Course) (leg other : SwapLeg) : Prop
  | ends (spent : leg.after.remaining = 0)
      (behind : c.direction.Leads leg.after.price.value other.after.price.value)
      (amount : ∀ side, leg.step.used side ≤ other.step.used side)
  | together (reached : other.after.price.value = c.target other.stop.index)
      (price : leg.after.price = other.after.price) (amount : ∀ side, leg.step.used side = other.step.used side)

section Legs

variable {leg other : SwapLeg} (accepted : c.window.IsAccepted) (move : c.IsMove leg) (second : c.IsMove other)
  (meets : leg.before.Meets other.before) (less : leg.before.remaining ≤ other.before.remaining)

include accepted move second meets less

theorem input_trails (input : c.side = .input) : c.Trails leg other := by
  have stop := move.same_stop second accepted (precedes_of_meets meets)
  have remaining := move.remaining
  have remaining' := second.remaining
  have won := move.input_counted input
  have won' := second.input_counted input
  obtain ⟨forward, short⟩ := move.forward_short
  obtain ⟨forward', short'⟩ := second.forward_short
  rw [← meets.price, ← meets.liquidity] at won'
  -- The way of the smaller amount is one that the larger amount pays for too.
  have behind : c.direction.Leads leg.after.price.value other.after.price.value := by
    rw [meets.price] at forward
    rw [stop] at short
    refine (second.input_farthest input forward short).mpr ?_
    rw [← meets.price, ← meets.liquidity]
    exact le_trans (move.input_covered input) less
  by_cases reached : leg.after.price.value = c.target leg.stop.index
  · have price : leg.after.price = other.after.price := by
      rw [← stop, ← reached] at short'
      exact SqrtPrice.value_inj (Direction.leads_antisymm behind short')
    have reached' : other.after.price.value = c.target other.stop.index := by
      rw [← price, ← stop]
      exact reached
    have whole := move.input_whole input reached
    have whole' := second.input_whole input reached'
    rw [← meets.price, ← meets.liquidity, ← price] at whole'
    refine .together reached' price fun side => ?_
    rcases side.eq_or_eq_other c.side with rfl | rfl
    · omega
    · rw [won, won', price]
  · have spent := move.input_spent input reached
    refine .ends spent behind fun side => ?_
    rcases side.eq_or_eq_other c.side with rfl | rfl
    · by_cases reached' : other.after.price.value = c.target other.stop.index
      · have whole := second.input_whole input reached'
        have uncovered := move.input_short input reached
        rw [← meets.price, ← meets.liquidity, reached', ← stop] at whole
        omega
      · have spent' := second.input_spent input reached'
        omega
    · rw [won, won']
      exact Direction.won_le_of_leads leg.before.liquidity leg.before.price.value_pos other.after.price.value_pos forward
        behind

theorem output_trails (output : c.side = .output) : c.Trails leg other := by
  have stop := move.same_stop second accepted (precedes_of_meets meets)
  have remaining := move.remaining
  have remaining' := second.remaining
  have paid := move.output_counted output
  have paid' := second.output_counted output
  have same : c.most leg = c.most other := by rw [most, most, meets.price, meets.liquidity, stop]
  obtain ⟨forward, short⟩ := move.forward_short
  obtain ⟨forward', short'⟩ := second.forward_short
  rw [← meets.price, ← meets.liquidity] at paid'
  rcases Nat.lt_or_ge leg.before.remaining (c.most leg) with few | within
  · have spent := (move.output_spent output few).2
    have enough : leg.before.remaining ≤
        c.direction.won leg.before.price.value other.after.price.value leg.before.liquidity ∧
          leg.before.remaining ≤ other.step.used c.side := by
      rcases Nat.lt_or_ge other.before.remaining (c.most other) with few' | within'
      · obtain ⟨enough, spent'⟩ := second.output_spent output few'
        rw [← meets.price, ← meets.liquidity] at enough
        exact ⟨le_trans less enough, by omega⟩
      · obtain ⟨reached', whole'⟩ := second.output_whole output within'
        rw [reached', ← stop]
        exact ⟨le_of_lt few, by omega⟩
    rw [← meets.price] at forward'
    rw [← stop] at short'
    have behind := move.output_leads output few forward' short' enough.1
    refine .ends spent behind fun side => ?_
    rcases side.eq_or_eq_other c.side with rfl | rfl
    · omega
    · rw [paid, paid']
      exact SwapStep.cost_mono c.rate_lt (Direction.due_le_of_leads leg.before.liquidity leg.before.price.value_pos
        other.after.price.value_pos forward behind)
  · obtain ⟨reached, whole⟩ := move.output_whole output within
    obtain ⟨reached', whole'⟩ := second.output_whole output (by omega)
    have price : leg.after.price = other.after.price := SqrtPrice.value_inj (by rw [reached, reached', stop])
    refine .together reached' price fun side => ?_
    rcases side.eq_or_eq_other c.side with rfl | rfl
    · omega
    · rw [paid, paid', price]

theorem trails : c.Trails leg other := by
  cases side : c.side with
  | input => exact input_trails accepted move second meets less side
  | output => exact output_trails accepted move second meets less side

end Legs

-- The induction is on the legs of the swap with the smaller amount.
theorem Path.trails (accepted : c.window.IsAccepted) {a lastA b lastB : SwapState} {legsA legsB : List SwapLeg}
    (pathA : c.Path a legsA lastA) (pathB : c.Path b legsB lastB) (doneB : c.IsDone lastB) (meets : a.Meets b)
    (less : a.remaining ≤ b.remaining) : c.direction.Leads lastA.price.value lastB.price.value ∧
      ∀ side, SwapLeg.total legsA side ≤ SwapLeg.total legsB side := by
  induction pathA generalizing b legsB with
  | rest a =>
      rw [meets.price]
      exact ⟨pathB.price_leads, fun side => Nat.zero_le _⟩
  | move legA legsA lastA stepA restA ih =>
      cases pathB with
      | rest _ =>
          refine absurd ?_ stepA.underWay
          rcases doneB with spent | limit
          · exact .inl (by omega)
          · exact .inr (meets.price.trans limit)
      | move legB legsB lastB stepB restB =>
          cases Course.trails accepted stepA stepB meets less with
          | ends spent behind amount =>
              obtain ⟨rfl, rfl⟩ := restA.ended (.inl spent)
              exact ⟨Direction.leads_trans behind restB.price_leads, fun side =>
                le_trans (amount side) (Nat.le_add_right _ _)⟩
          | together reached price amount =>
              rcases arrives_or_limited reached with there | limit
              · have stop := stepA.same_stop stepB accepted (precedes_of_meets meets)
                have left : legA.after.remaining ≤ legB.after.remaining := by
                  have total := stepA.remaining
                  have total' := stepB.remaining
                  have used := amount c.side
                  omega
                have meets' := stepA.meets_of_arrives stepB stop meets.liquidity price there
                obtain ⟨behind, totals⟩ := ih restB meets' left
                refine ⟨behind, fun side => ?_⟩
                rw [SwapLeg.total_cons, SwapLeg.total_cons, amount side]
                exact Nat.add_le_add_left (totals side) _
              · obtain ⟨rfl, rfl⟩ := restA.ended (.inr (price.trans limit))
                obtain ⟨rfl, rfl⟩ := restB.ended (.inr limit)
                rw [price]
                exact ⟨c.direction.leads_refl _, fun side => le_of_eq (congrArg (· + 0) (amount side))⟩

end Course

/-- On either side of a trade a larger amount pays in, wins and moves the price no less. -/
theorem larger_amount_swaps_more (pool : Pool) (slots : List Slot) (spacing : BitVec 16) (window : Window)
    (limit : SqrtPrice) (side : Side) (direction : Direction) (time time' x y : BitVec 64) (first second : SwapResult)
    (accepted : Window.ofSlots slots spacing direction = .ok window) (consistent : pool.IsConsistent)
    (limited : direction.Leads pool.sqrtPrice.toNat limit.value) (ordered : x.toNat ≤ y.toNat)
    (ok : (swap pool window ⟨x, limit, side, direction, time⟩ .blank).1 = .ok first)
    (ok' : (swap pool window ⟨y, limit, side, direction, time'⟩ .blank).1 = .ok second) :
    (first.amountOf (direction.token .input)).toNat ≤ (second.amountOf (direction.token .input)).toNat ∧
      (first.amountOf (direction.token .output)).toNat ≤ (second.amountOf (direction.token .output)).toNat ∧
      direction.Leads pool.sqrtPrice.toNat first.nextSqrtPrice.toNat ∧
      direction.Leads first.nextSqrtPrice.toNat second.nextSqrtPrice.toNat := by
  obtain ⟨rfl, sound⟩ := Window.of_slots_ok accepted
  obtain ⟨start, last, starts, _, path, _, accounts⟩ := swap_course sound rfl consistent limited ok
  obtain ⟨start', last', starts', _, path', done', accounts'⟩ := swap_course sound rfl consistent limited ok'
  have less : start.remaining ≤ start'.remaining := by
    rw [starts.remaining, starts'.remaining]
    exact ordered
  obtain ⟨behind, totals⟩ := path.trails sound path' done' (starts.meets starts') less
  have forward := path.price_leads
  rw [accounts.amount, accounts'.amount, accounts.amount, accounts'.amount, accounts.price, accounts'.price,
    ← starts.price]
  exact ⟨totals .input, totals .output, forward, behind⟩

theorem larger_amount_swaps_more_sample : ∃ first second,
    (swap Sample.pool (Sample.window .aToB) (Sample.order .aToB .output 300000) .blank).1 = .ok first ∧
      (swap Sample.pool (Sample.window .aToB) (Sample.order .aToB .output 900000) .blank).1 = .ok second ∧
      (first.amountA.toNat, first.amountB.toNat, first.nextSqrtPrice.toNat) = (300994, 300000, 18441207835992351870) ∧
      (second.amountA.toNat, second.amountB.toNat, second.nextSqrtPrice.toNat) = (903524, 900000, 18430136282914049431) ∧
      first.amountA.toNat ≤ second.amountA.toNat ∧ first.amountB.toNat ≤ second.amountB.toNat ∧
      first.nextSqrtPrice.toNat ≤ 18446744073709551616 ∧ second.nextSqrtPrice.toNat ≤ first.nextSqrtPrice.toNat := by
  have run : (swap Sample.pool (Sample.window .aToB) (Sample.order .aToB .output 300000) .blank).1.toOption.map
      (fun result => (result.amountA.toNat, result.amountB.toNat, result.nextSqrtPrice.toNat)) =
        some (300994, 300000, 18441207835992351870) := by decide +kernel
  have run' : (swap Sample.pool (Sample.window .aToB) (Sample.order .aToB .output 900000) .blank).1.toOption.map
      (fun result => (result.amountA.toNat, result.amountB.toNat, result.nextSqrtPrice.toNat)) =
        some (903524, 900000, 18430136282914049431) := by decide +kernel
  obtain ⟨first, ok, amounts⟩ := exists_result run
  obtain ⟨second, ok', amounts'⟩ := exists_result run'
  exact ⟨first, second, ok, ok', amounts, amounts', larger_amount_swaps_more Sample.pool (Sample.slots .aToB) 1
    (Sample.window .aToB) .min .output .aToB 0 0 300000 900000 first second (Sample.accepted .aToB) Sample.consistent
    (by decide) (by decide) ok ok'⟩

end PoolQuote
