import PoolQuote.Proofs.SwapPath

/-!
Two swaps on one course, leg beside leg. As long as the one that is behind has not reached the stop of
its next leg, both legs aim at the same price, and where both arrive they meet.
-/

set_option autoImplicit false

namespace PoolQuote

-- Two swaps stand at one place, whatever amounts they have left.
structure SwapState.Meets (a b : SwapState) : Prop where
  price : a.price = b.price
  tick : a.tick = b.tick
  liquidity : a.liquidity = b.liquidity

theorem SwapState.Meets.trans {a b c : SwapState} (first : a.Meets b) (second : b.Meets c) : a.Meets c :=
  ⟨first.price.trans second.price, first.tick.trans second.tick, first.liquidity.trans second.liquidity⟩

theorem SwapResult.Reports.meets_start {result : SwapResult} {order : SwapOrder} {legs : List SwapLeg}
    {last start : SwapState} {pool : Pool} {amount : BitVec 64} (reports : result.Reports order legs last)
    (starts : start.IsStart (pool.movedTo result) amount) : last.Meets start :=
  ⟨SqrtPrice.value_inj (reports.price.symm.trans starts.price.symm), reports.tick.symm.trans starts.tick.symm,
    reports.liquidity.symm.trans starts.liquidity.symm⟩

theorem SwapState.IsStart.meets {start other : SwapState} {pool : Pool} {amount amount' : BitVec 64}
    (first : start.IsStart pool amount) (second : other.IsStart pool amount') : start.Meets other :=
  ⟨SqrtPrice.value_inj (first.price.trans second.price.symm), first.tick.trans second.tick.symm,
    first.liquidity.trans second.liquidity.symm⟩

theorem SwapLeg.Lands.meets {d : Direction} {leg other : SwapLeg} (first : leg.Lands d) (second : other.Lands d)
    (stop : leg.stop = other.stop) (liquidity : leg.before.liquidity = other.before.liquidity)
    (price : leg.after.price = other.after.price) (there' : other.Arrives) : leg.after.Meets other.after := by
  have there : leg.Arrives := by
    rw [SwapLeg.Arrives, price, stop]
    exact there'
  cases first with
  | short away _ _ _ => exact absurd there away
  | boundary _ tick empty _ kept =>
      cases second with
      | short away _ _ _ => exact absurd there' away
      | boundary _ tick' _ _ kept' => exact ⟨price, by rw [tick, tick', stop], by rw [kept, kept', liquidity]⟩
      | crossing _ _ _ _ present _ _ _ _ _ _ =>
          rw [stop, present] at empty
          cases empty
  | crossing record _ _ tick present _ _ _ _ _ moved =>
      cases second with
      | short away _ _ _ => exact absurd there' away
      | boundary _ _ empty _ _ =>
          rw [stop, empty] at present
          cases present
      | crossing record' _ _ tick' present' _ _ _ _ _ moved' =>
          rw [stop, present'] at present
          cases Option.some.inj present
          refine ⟨price, by rw [tick, tick', stop], ?_⟩
          rw [← Int.ofNat_inj, moved, moved', liquidity]

namespace Course

variable {c : Course}

-- The next leg from `a` goes at least as far as `b`, unless the amount runs out.
structure Precedes (c : Course) (a b : SwapState) : Prop where
  price : c.direction.Leads a.price.value b.price.value
  tick : c.direction.Leads a.tick b.tick
  liquidity : a.liquidity = b.liquidity
  short : ∀ stop, c.window.IsNext a.tick stop → c.direction.Ahead b.tick stop.index

theorem precedes_of_meets {a b : SwapState} (meets : a.Meets b) : c.Precedes a b := by
  refine ⟨?_, ?_, meets.liquidity, fun stop next => ?_⟩
  · rw [meets.price]
    exact c.direction.leads_refl _
  · rw [meets.tick]
    exact c.direction.leads_refl _
  · rw [← meets.tick]
    exact next.ahead

theorem Precedes.of_meets {a a' b b' : SwapState} (precedes : c.Precedes a b) (first : a'.Meets a) (second : b.Meets b') :
    c.Precedes a' b' := by
  refine ⟨?_, ?_, ?_, fun stop next => ?_⟩
  · rw [first.price, ← second.price]
    exact precedes.price
  · rw [first.tick, ← second.tick]
    exact precedes.tick
  · rw [first.liquidity, ← second.liquidity]
    exact precedes.liquidity
  · rw [first.tick] at next
    rw [← second.tick]
    exact precedes.short stop next

theorem Precedes.at_limit {a b : SwapState} (precedes : c.Precedes a b) (ready : c.Ready b)
    (limit : a.price = c.limit) : b.price = c.limit := by
  have there := precedes.price
  rw [limit] at there
  exact SqrtPrice.value_inj (Direction.leads_antisymm ready.limited there)

theorem arrives_or_limited {leg : SwapLeg} (reached : leg.after.price.value = c.target leg.stop.index) :
    leg.Arrives ∨ leg.after.price = c.limit := by
  rcases Direction.nearer_eq c.direction (TickIndex.rawPrice leg.stop.index) c.limit.value with stop | limit
  · exact .inl (reached.trans stop)
  · exact .inr (SqrtPrice.value_inj (reached.trans limit))

namespace IsMove

variable {leg other : SwapLeg} (move : c.IsMove leg) (second : c.IsMove other)

include move

theorem before_pos : 0 < leg.before.price.value ∧ 0 < c.target leg.stop.index := by
  refine ⟨leg.before.price.value_pos, ?_⟩
  unfold target
  rcases Direction.nearer_eq c.direction (TickIndex.rawPrice leg.stop.index) c.limit.value with stop | limit
  · rw [stop]
    exact lt_of_lt_of_le (by decide : 0 < SqrtPrice.minValue) (TickIndex.raw_price_bounds _ move.inside).1
  · rw [limit]
    exact c.limit.value_pos

theorem leads_target {b : SwapState} (precedes : c.Precedes leg.before b) (ready : c.Ready b) :
    c.direction.Leads b.price.value (c.target leg.stop.index) :=
  Direction.leads_nearer_iff.mpr
    ⟨TickIndex.leads_raw_price ready.lies move.inside (precedes.short _ move.next), ready.limited⟩

theorem not_arrives (missed : leg.after.price.value ≠ c.target leg.stop.index) : ¬ leg.Arrives := by
  intro there
  have further := (Direction.nearer_leads c.direction (TickIndex.rawPrice leg.stop.index) c.limit.value).1
  have short := move.forward_short.2
  rw [there] at short missed
  exact missed (Direction.leads_antisymm short further)

theorem precedes_short (missed : leg.after.price.value ≠ c.target leg.stop.index) (accepted : c.window.IsAccepted) :
    c.Precedes leg.before leg.after := by
  have away := move.not_arrives missed
  refine ⟨move.forward_short.1, move.tick_leads, ?_, fun stop next => ?_⟩
  · cases move.lands with
    | short _ _ _ liquidity => exact liquidity.symm
    | boundary there _ _ _ _ => exact absurd there away
    | crossing _ _ there _ _ _ _ _ _ _ _ => exact absurd there away
  · rw [Window.is_next_unique accepted next move.next (c.direction.leads_refl _) next.ahead]
    exact move.ahead_of_short away

include second

theorem same_stop (accepted : c.window.IsAccepted) (precedes : c.Precedes leg.before other.before) :
    leg.stop = other.stop :=
  Window.is_next_unique accepted move.next second.next precedes.tick (precedes.short _ move.next)

theorem meets_of_arrives (stop : leg.stop = other.stop) (liquidity : leg.before.liquidity = other.before.liquidity)
    (price : leg.after.price = other.after.price) (there : other.Arrives) : leg.after.Meets other.after :=
  move.lands.meets second.lands stop liquidity price there

theorem meets_of_price (stop : leg.stop = other.stop) (meets : leg.before.Meets other.before)
    (price : leg.after.price = other.after.price) : leg.after.Meets other.after := by
  by_cases there : leg.Arrives
  · refine meets_of_arrives move second stop meets.liquidity price ?_
    rw [SwapLeg.Arrives, ← price, ← stop]
    exact there
  · have away : ¬ other.Arrives := by
      rw [SwapLeg.Arrives, ← price, ← stop]
      exact there
    cases move.lands with
    | short _ tick _ kept =>
        cases second.lands with
        | short _ tick' _ kept' =>
            exact ⟨price, by rw [tick, tick', price, meets.price, meets.tick], by rw [kept, kept', meets.liquidity]⟩
        | boundary there' _ _ _ _ => exact absurd there' away
        | crossing _ _ there' _ _ _ _ _ _ _ _ => exact absurd there' away
    | boundary there' _ _ _ _ => exact absurd there' there
    | crossing _ _ there' _ _ _ _ _ _ _ _ => exact absurd there' there

end IsMove

def counted (c : Course) (legs : List SwapLeg) : Nat :=
  (legs.map fun leg => leg.step.used c.side.other).sum

theorem counted_cons (c : Course) (leg : SwapLeg) (legs : List SwapLeg) :
    c.counted (leg :: legs) = leg.step.used c.side.other + c.counted legs :=
  rfl

theorem Path.calculated_eq {state last : SwapState} {legs : List SwapLeg} (path : c.Path state legs last) :
    last.calculated = state.calculated + c.counted legs := by
  induction path with
  | rest state => rfl
  | move leg legs last step _ ih =>
      rw [ih, step.calculated, counted_cons, Nat.add_assoc]

theorem Path.ended {state last : SwapState} {legs : List SwapLeg} (path : c.Path state legs last)
    (done : c.IsDone state) : legs = [] ∧ last = state := by
  cases path with
  | rest state => exact ⟨rfl, rfl⟩
  | move leg legs last step _ => exact absurd done step.underWay

theorem Path.of_done {state last : SwapState} {legs : List SwapLeg} (path : c.Path state legs last)
    (done : c.IsDone state) : c.counted legs = 0 ∧ last = state := by
  obtain ⟨rfl, final⟩ := path.ended done
  exact ⟨rfl, final⟩

end Course

end PoolQuote
