import PoolQuote.Proofs.SwapPath
import Mathlib.Data.List.Sort

/-!
Which ticks a swap crosses: every initialized tick of the window between the pool's tick and the one
in which the swap ends, each once. A leg crosses the tick that its search finds or none, so that the
ticks between two states are those of the legs from one to the other.
-/

set_option autoImplicit false

namespace PoolQuote

def Tick.kept (tick : Tick) : Bool × Signed 128 × BitVec 128 :=
  (tick.initialized, tick.liquidityNet, tick.liquidityGross)

-- The stored record of the tick that a leg crosses.
def SwapLeg.met (leg : SwapLeg) : Option (Int × Tick) :=
  if leg.Arrives then leg.stop.tick.map fun tick => (leg.stop.index, tick) else none

namespace Course

namespace IsMove

variable {c : Course} {leg : SwapLeg} (move : c.IsMove leg)

include move

theorem crossed_eq_met : leg.crossed.map (fun update => (update.index.toInt, update.tick.kept)) =
    leg.met.map fun entry => (entry.1, entry.2.kept) := by
  unfold SwapLeg.met
  cases move.lands with
  | short away tick crossed liquidity => rw [crossed, if_neg away]; rfl
  | boundary there tick stop crossed liquidity => rw [crossed, if_pos there, stop]; rfl
  | crossing record update there tick stop crossed index initialized net gross liquidity =>
      rw [crossed, if_pos there, stop]
      simp only [Option.map_some, Tick.kept, index, initialized, net, gross]

theorem liquidity_eq : (leg.after.liquidity : Int) =
    c.direction.along leg.before.liquidity (leg.met.toList.map fun entry => entry.2.liquidityNet.toInt).sum := by
  unfold SwapLeg.met
  cases move.lands with
  | short away tick crossed liquidity =>
      rw [liquidity, if_neg away]
      exact (c.direction.along_zero _).symm
  | boundary there tick stop crossed liquidity =>
      rw [liquidity, if_pos there, stop]
      exact (c.direction.along_zero _).symm
  | crossing record update there tick stop crossed index initialized net gross liquidity =>
      rw [liquidity, if_pos there, stop]
      simp

-- The search has looked at every tick up to its stop, so that a leg that ends before the stop passes
-- no initialized tick, and one that ends there passes none but the stop.
theorem met_iff (accepted : c.window.IsAccepted) (u : Int) (tick : Tick) : leg.met = some (u, tick) ↔
    (c.window.Stores u tick ∧ tick.initialized) ∧ c.direction.Passes leg.before.tick leg.after.tick u := by
  have search := move.next
  rw [Direction.passes_iff]
  unfold SwapLeg.met
  cases move.lands with
  | short away next crossed liquidity =>
      rw [if_neg away]
      refine ⟨fun none => (by cases none), fun ⟨⟨stored, initialized⟩, ahead, behind⟩ => ?_⟩
      have further := (search.first u tick stored initialized ahead).2
      exact absurd (Direction.ahead_of_ahead_leads (move.ahead_of_short away) further) behind
  | boundary there next stop crossed liquidity =>
      rw [if_pos there, stop]
      refine ⟨fun none => (by cases none), fun ⟨⟨stored, initialized⟩, ahead, behind⟩ => ?_⟩
      exact absurd stop (search.first u tick stored initialized ahead).1
  | crossing record update there next stop crossed index initialized net gross liquidity =>
      obtain ⟨present, lit⟩ := search.found record stop
      rw [if_pos there, stop, next]
      constructor
      · intro same
        cases Option.some.inj same
        exact ⟨⟨present, lit⟩, search.ahead, c.direction.not_ahead_past _⟩
      · rintro ⟨⟨stored, initialized⟩, ahead, behind⟩
        have further := (search.first u tick stored initialized ahead).2
        have index := Direction.leads_antisymm further (Direction.leads_of_not_ahead_past behind)
        rw [← index] at stored
        rw [← index, Window.stores_unique accepted present stored]
        rfl

end IsMove

namespace Path

variable {c : Course} {state last : SwapState} {legs : List SwapLeg} (path : c.Path state legs last)

include path

theorem crossed_eq_met : (legs.filterMap SwapLeg.crossed).map (fun update => (update.index.toInt, update.tick.kept)) =
    (legs.filterMap SwapLeg.met).map fun entry => (entry.1, entry.2.kept) := by
  rw [List.map_filterMap, List.map_filterMap]
  refine List.filterMap_congr fun leg member => ?_
  exact (path.is_move member).crossed_eq_met

theorem liquidity_eq : (last.liquidity : Int) = c.direction.along state.liquidity
    ((legs.filterMap SwapLeg.met).map fun entry => entry.2.liquidityNet.toInt).sum := by
  induction path with
  | rest state => exact (c.direction.along_zero _).symm
  | move leg legs last step _ ih =>
      rw [ih, step.liquidity_eq, Direction.along_along]
      cases met : leg.met with
      | none => simp [met]
      | some entry => simp [met]

theorem mem_met_iff (accepted : c.window.IsAccepted) (u : Int) (tick : Tick) : (u, tick) ∈ legs.filterMap SwapLeg.met ↔
    (c.window.Stores u tick ∧ tick.initialized) ∧ c.direction.Passes state.tick last.tick u := by
  induction path with
  | rest state =>
      rw [Direction.passes_iff]
      simp
  | move leg legs last step rest ih =>
      rw [Direction.passes_trans step.tick_leads rest.tick_leads, and_or_left, ← step.met_iff accepted, ← ih]
      simp [List.mem_filterMap]

theorem met_ordered (accepted : c.window.IsAccepted) :
    (legs.filterMap SwapLeg.met).Pairwise fun x y => c.direction.Before x.1 y.1 := by
  induction path with
  | rest state => exact List.Pairwise.nil
  | move leg legs last step rest ih =>
      cases met : leg.met with
      | none =>
          rw [List.filterMap_cons_none met]
          exact ih
      | some entry =>
          rw [List.filterMap_cons_some met]
          refine List.pairwise_cons.mpr ⟨fun later member => ?_, ih⟩
          have here := (Direction.passes_iff.mp ((step.met_iff accepted entry.1 entry.2).mp met).2).2
          have next := (Direction.passes_iff.mp ((rest.mem_met_iff accepted later.1 later.2).mp member).2).1
          exact Direction.before_of_ahead here next

theorem met_eq_filter (accepted : c.window.IsAccepted) : legs.filterMap SwapLeg.met =
    c.window.initializedTicks.filter fun entry => c.direction.Passes state.tick last.tick entry.1 := by
  have irreflexive : Std.Irrefl fun x y : Int × Tick => c.direction.Before x.1 y.1 :=
    ⟨fun x before => (Direction.before_iff.mp before).2 rfl⟩
  have antisymmetric : Std.Antisymm fun x y : Int × Tick => c.direction.Before x.1 y.1 :=
    ⟨fun x y there back => absurd (Direction.before_iff.mp there).1 (Direction.not_leads_iff.mpr back)⟩
  refine (path.met_ordered accepted).eq_of_mem_iff ((Window.initialized_ticks_ordered accepted).filter _) ?_
  rintro ⟨u, tick⟩
  rw [path.mem_met_iff accepted, List.mem_filter, Window.mem_initialized_iff, decide_eq_true_iff]

end Path

end Course

/-- A swap crosses the initialized ticks between its first tick and its last, each once and in order. -/
theorem swap_crosses_every_tick_once (pool : Pool) (slots : List Slot) (spacing : BitVec 16) (order : SwapOrder)
    (window : Window) (result : SwapResult)
    (accepted : Window.ofSlots slots spacing order.direction = .ok window) (consistent : pool.IsConsistent)
    (limited : order.direction.Leads pool.sqrtPrice.toNat order.limit.value)
    (ok : (swap pool window order .blank).1 = .ok result) :
    let passed := window.initializedTicks.filter fun entry =>
      order.direction.Passes pool.tickCurrent.toInt result.nextTick.toInt entry.1
    result.tickUpdates.map (fun update => (update.index.toInt, update.tick.kept)) =
        passed.map (fun entry => (entry.1, entry.2.kept)) ∧
      (result.tickUpdates.map fun update => update.index.toInt).Pairwise order.direction.Before ∧
      result.crossingCount.toNat = passed.length ∧
      (result.nextLiquidity.toNat : Int) = order.direction.along pool.liquidity.toNat
        (passed.map fun entry => entry.2.liquidityNet.toInt).sum := by
  obtain ⟨made, sound⟩ := Window.of_slots_ok accepted
  have aligned : order.direction = window.direction := by rw [made]
  obtain ⟨start, legs, last, starts, _, path, _, reports, count⟩ := swap_path sound aligned consistent limited ok
  have met : legs.filterMap SwapLeg.met = window.initializedTicks.filter fun entry =>
      order.direction.Passes pool.tickCurrent.toInt result.nextTick.toInt entry.1 := by
    rw [path.met_eq_filter sound, reports.tick, ← starts.tick, aligned]
    rfl
  have updates := path.crossed_eq_met
  rw [← reports.updates] at updates
  simp only
  rw [← met]
  have indices : result.tickUpdates.map (fun update => update.index.toInt) =
      (legs.filterMap SwapLeg.met).map Prod.fst := by
    have first := congrArg (List.map Prod.fst) updates
    rw [List.map_map, List.map_map] at first
    exact first
  refine ⟨updates, ?_, ?_, ?_⟩
  · rw [indices, List.pairwise_map, aligned]
    exact path.met_ordered sound
  · have length : result.tickUpdates.length = (legs.filterMap SwapLeg.met).length := by
      have lengths := congrArg List.length updates
      rw [List.length_map, List.length_map] at lengths
      exact lengths
    have few : (legs.filterMap SwapLeg.met).length ≤ maxArrays * ticksPerArray := by
      rw [met]
      exact le_trans (List.length_filter_le _ _) (Window.initialized_ticks_length sound)
    have small : maxArrays * ticksPerArray < 2 ^ 64 := by decide
    rw [count, length, BitVec.toNat_ofNat]
    exact (Nat.mod_eq_of_lt (by change 0 + _ < _; omega)).trans (Nat.zero_add _)
  · rw [reports.liquidity, ← starts.liquidity, aligned]
    exact path.liquidity_eq

theorem swap_crosses_every_tick_once_sample : ∃ result,
    (swap Sample.pool (Sample.window .aToB) (Sample.order .aToB .input 1000000) .blank).1 = .ok result ∧
      result.tickUpdates.map (fun update => (update.index.toInt, update.tick.kept)) =
        [(0, true, .ofInt 128 400000, 400000), (-8, true, .ofInt 128 (-100000), 200000)] ∧
      result.crossingCount.toNat = 2 := by
  have run : (swap Sample.pool (Sample.window .aToB) (Sample.order .aToB .input 1000000) .blank).1.toOption.map
      (fun result => result.nextTick.toInt) = some (-20) := by decide +kernel
  obtain ⟨result, ok, tick⟩ := exists_result run
  have law := swap_crosses_every_tick_once Sample.pool (Sample.slots .aToB) 1 (Sample.order .aToB .input 1000000)
    (Sample.window .aToB) result (Sample.accepted .aToB) Sample.consistent (by decide) ok
  rw [tick] at law
  refine ⟨result, ok, law.1.trans (by decide +kernel), law.2.2.1.trans (by decide +kernel)⟩

end PoolQuote
