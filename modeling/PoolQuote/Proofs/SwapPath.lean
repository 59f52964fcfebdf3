import PoolQuote.Proofs.Replay

/-!
The legs of a swap, one after another. Whatever one leg preserves holds between all of them and at
the end, and a swap that succeeds reports the state in which the last one ends.
-/

set_option autoImplicit false

namespace PoolQuote

namespace TickIndex

theorem tick_le_of_price_lt {t t' : Int} {p p' : Nat} (first : Lies t p) (second : Lies t' p') (less : p' < p) :
    t' ≤ t := by
  by_contra higher
  have lower := first.lower
  have inside : InBounds t' := ⟨by omega, second.upper⟩
  have above := first.above t' inside (not_le.mp higher)
  have below := second.below t' inside (le_refl t')
  omega

theorem leads_of_price_before {d : Direction} {t t' : Int} {p p' : Nat} (first : Lies t p) (second : Lies t' p')
    (moved : d.Before p p') : d.Leads t t' := by
  cases d with
  | aToB => exact tick_le_of_price_lt first second moved
  | bToA => exact tick_le_of_price_lt second first moved

end TickIndex

namespace Course

namespace IsMove

variable {c : Course} {leg : SwapLeg} (move : c.IsMove leg)

include move

theorem forward_short : c.direction.Leads leg.before.price.value leg.after.price.value ∧
    c.direction.Leads leg.after.price.value (c.target leg.stop.index) := by
  rw [move.reached]
  cases side : c.side with
  | input => exact ⟨(move.input side).forward, (move.input side).short⟩
  | output => exact ⟨(move.output side).forward, (move.output side).short⟩

theorem leads_stop : c.direction.Leads leg.after.price.value (TickIndex.rawPrice leg.stop.index) :=
  (Direction.leads_nearer_iff.mp move.forward_short.2).1

theorem leads_limit : c.direction.Leads leg.after.price.value c.limit.value :=
  (Direction.leads_nearer_iff.mp move.forward_short.2).2

theorem tick_after (there : leg.Arrives) : leg.after.tick = c.direction.past leg.stop.index :=
  move.lands.tick_after there

theorem tick_short (away : ¬ leg.Arrives) : leg.after.tick =
    if leg.after.price = leg.before.price then leg.before.tick else leg.after.price.tick := by
  cases move.lands with
  | short _ tick _ _ => exact tick
  | boundary there _ _ _ _ => exact absurd there away
  | crossing _ _ there _ _ _ _ _ _ _ _ => exact absurd there away

theorem liquidity_crossing {record : Tick} (there : leg.Arrives) (stop : leg.stop.tick = some record) :
    (leg.after.liquidity : Int) = c.direction.along leg.before.liquidity record.liquidityNet.toInt := by
  cases move.lands with
  | short away _ _ _ => exact absurd there away
  | boundary _ _ empty _ _ =>
      rw [stop] at empty
      cases empty
  | crossing record' _ _ _ present _ _ _ _ _ liquidity =>
      rw [stop] at present
      cases Option.some.inj present
      exact liquidity

theorem lies_after : TickIndex.Lies leg.after.tick leg.after.price.value := by
  by_cases there : leg.Arrives
  · rw [move.tick_after there, there]
    exact TickIndex.lies_past c.direction leg.stop.index move.inside
  · by_cases stayed : leg.after.price = leg.before.price
    · rw [move.tick_short there, if_pos stayed, stayed]
      exact move.ready.lies
    · rw [move.tick_short there, if_neg stayed]
      exact TickIndex.lies_tick leg.after.price

theorem ready_after : c.Ready leg.after := by
  refine ⟨move.lies_after, move.leads_limit, ?_, move.counted, move.narrow⟩
  have start := move.ready.small
  have less := move.remaining
  omega

theorem ahead_of_short (away : ¬ leg.Arrives) : c.direction.Ahead leg.after.tick leg.stop.index := by
  by_contra behind
  have back := TickIndex.raw_price_leads move.lies_after move.inside behind
  exact away (Direction.leads_antisymm move.leads_stop back)

theorem tick_leads : c.direction.Leads leg.before.tick leg.after.tick := by
  by_cases there : leg.Arrives
  · rw [move.tick_after there]
    exact Direction.leads_past move.next.ahead
  · by_cases stayed : leg.after.price = leg.before.price
    · rw [move.tick_short there, if_pos stayed]
      exact c.direction.leads_refl _
    · refine TickIndex.leads_of_price_before move.ready.lies move.lies_after ?_
      exact Direction.before_iff.mpr ⟨move.forward_short.1, fun same => stayed (SqrtPrice.value_inj same.symm)⟩

end IsMove

inductive Path (c : Course) : SwapState → List SwapLeg → SwapState → Prop
  | rest (state : SwapState) : Path c state [] state
  | move (leg : SwapLeg) (legs : List SwapLeg) (last : SwapState) (step : c.IsMove leg)
      (rest : Path c leg.after legs last) : Path c leg.before (leg :: legs) last

namespace Path

variable {c : Course} {state last : SwapState} {legs : List SwapLeg} (path : c.Path state legs last)

include path

theorem ready_last (ready : c.Ready state) : c.Ready last := by
  induction path with
  | rest state => exact ready
  | move leg legs last step _ ih => exact ih step.ready_after

theorem price_leads : c.direction.Leads state.price.value last.price.value := by
  induction path with
  | rest state => exact c.direction.leads_refl _
  | move leg legs last step _ ih => exact Direction.leads_trans step.forward_short.1 ih

theorem tick_leads : c.direction.Leads state.tick last.tick := by
  induction path with
  | rest state => exact c.direction.leads_refl _
  | move leg legs last step _ ih => exact Direction.leads_trans step.tick_leads ih

theorem is_move {leg : SwapLeg} (member : leg ∈ legs) : c.IsMove leg := by
  induction path with
  | rest state => cases member
  | move first legs last step _ ih =>
      rcases List.mem_cons.mp member with rfl | later
      · exact step
      · exact ih later

end Path

end Course

namespace SwapSetting

variable {setting : SwapSetting}

theorem Replay.path (aligned : setting.order.direction = setting.window.direction)
    (accepted : setting.window.IsAccepted) {state last : SwapState} {legs : List SwapLeg}
    (replay : setting.Replay state legs last) (ready : setting.course.Ready state) :
    setting.course.Path state legs last := by
  induction replay with
  | rest state => exact .rest state
  | turn leg legs last step _ ih =>
      obtain ⟨_, move⟩ := leg_is_move aligned accepted ready step.underWay step.search step.ok
      exact .move leg legs last move (ih move.ready_after)

theorem trail_path (aligned : setting.order.direction = setting.window.direction)
    (accepted : setting.window.IsAccepted) (n : Nat) {state : SwapState} (ready : setting.course.Ready state) :
    ∃ final, setting.course.Path state (setting.trail n state).legs final ∧
      ∀ last, (setting.trail n state).ending = .done last → final = last ∧ setting.course.IsDone last := by
  obtain ⟨final, replay, ended⟩ := setting.trail_replay n state
  exact ⟨final, replay.path aligned accepted ready, ended⟩

end SwapSetting

namespace SwapState

theorem exists_start {pool : Pool} (consistent : pool.IsConsistent) (order : SwapOrder) :
    ∃ state, start pool order = .ok state := by
  have lies := TickIndex.lies_of_consistent consistent
  have read := (SqrtPrice.of_nat_eq_ok_iff pool.sqrtPrice.toNat ⟨_, lies.min_le, lies.le_max⟩).mpr rfl
  exact ⟨_, by rw [start, read]; rfl⟩

theorem IsStart.ready {c : Course} {state : SwapState} {pool : Pool} {amount : BitVec 64}
    (starts : state.IsStart pool amount) (consistent : pool.IsConsistent)
    (limited : c.direction.Leads pool.sqrtPrice.toNat c.limit.value) : c.Ready state := by
  have lies := TickIndex.lies_of_consistent consistent
  rw [← starts.price, ← starts.tick] at lies
  rw [← starts.price] at limited
  refine ⟨lies, limited, ?_, ?_, ?_⟩
  · rw [starts.remaining]
    exact Nat.le_sub_one_of_lt amount.isLt
  · rw [starts.calculated]
    decide
  · rw [starts.liquidity]
    exact pool.liquidity.isLt

end SwapState

namespace SwapResult

structure Reports (result : SwapResult) (order : SwapOrder) (legs : List SwapLeg) (last : SwapState) : Prop where
  specified : (result.amountOf (order.direction.token order.side)).toNat = order.amount.toNat - last.remaining
  computed : (result.amountOf (order.direction.token order.side.other)).toNat = last.calculated
  price : result.nextSqrtPrice.toNat = last.price.value
  tick : result.nextTick.toInt = last.tick
  liquidity : result.nextLiquidity.toNat = last.liquidity
  updates : result.tickUpdates = legs.filterMap SwapLeg.crossed

end SwapResult

theorem SwapSetting.result_reports {setting : SwapSetting} {trail : SwapTrail} {last : SwapState} {crossings : Nat}
    (ready : setting.course.Ready last) :
    (setting.result trail last crossings).Reports setting.order trail.legs last := by
  have within : Signed.Holds 32 last.tick :=
    ⟨le_trans (by decide) ready.lies.lower, le_trans ready.lies.upper (by decide)⟩
  obtain ⟨specified, computed⟩ := result_amounts trail crossings ready.counted
  exact ⟨specified, computed, result_price trail crossings, Signed.to_int_of_int (by decide) within, Nat.mod_eq_of_lt ready.narrow, rfl⟩

def Pool.course (pool : Pool) (window : Window) (order : SwapOrder) : Course :=
  ⟨window, order.limit, order.side, pool.feeRate⟩

-- The pool at the price, tick and liquidity that a swap ends with.
def Pool.movedTo (pool : Pool) (result : SwapResult) : Pool :=
  { pool with sqrtPrice := result.nextSqrtPrice, tickCurrent := result.nextTick, liquidity := result.nextLiquidity }

theorem SwapResult.Reports.moved_consistent {c : Course} {result : SwapResult} {order : SwapOrder}
    {legs : List SwapLeg} {last : SwapState} (reports : result.Reports order legs last) (ready : c.Ready last)
    (pool : Pool) : (pool.movedTo result).IsConsistent := by
  have consistent := TickIndex.consistent_of_lies ready.lies
  rw [← reports.tick, ← reports.price] at consistent
  exact consistent

theorem swap_path {pool : Pool} {window : Window} {order : SwapOrder} {journal : Journal} {result : SwapResult}
    (accepted : window.IsAccepted) (aligned : order.direction = window.direction) (consistent : pool.IsConsistent)
    (limited : order.direction.Leads pool.sqrtPrice.toNat order.limit.value)
    (ok : (swap pool window order journal).1 = .ok result) :
    ∃ start legs last, start.IsStart pool order.amount ∧ (pool.course window order).Ready start ∧
      (pool.course window order).Path start legs last ∧ (pool.course window order).IsDone last ∧
      result.Reports order legs last ∧
      result.crossingCount = BitVec.ofNat 64 (journal.crossings + result.tickUpdates.length) := by
  obtain ⟨rewards, start, last, _, started, _, ending, rfl⟩ := swap_ok ok
  have starts := SwapState.start_ok started
  have course : (SwapSetting.mk pool window order rewards).course = pool.course window order := rfl
  have ready : (pool.course window order).Ready start := starts.ready consistent (by rw [aligned] at limited; exact limited)
  obtain ⟨final, path, ended⟩ := SwapSetting.trail_path aligned accepted _ (course ▸ ready)
  obtain ⟨rfl, finished⟩ := ended last ending
  exact ⟨start, _, final, starts, ready, path, finished, SwapSetting.result_reports (path.ready_last ready), rfl⟩

theorem swap_course {pool : Pool} {window : Window} {order : SwapOrder} {journal : Journal} {result : SwapResult}
    (accepted : window.IsAccepted) (aligned : order.direction = window.direction) (consistent : pool.IsConsistent)
    (limited : order.direction.Leads pool.sqrtPrice.toNat order.limit.value)
    (ok : (swap pool window order journal).1 = .ok result) :
    ∃ start last, start.IsStart pool order.amount ∧ (pool.course window order).Ready start ∧
      (pool.course window order).Path start (swapLegs pool window order) last ∧
      (pool.course window order).IsDone last ∧ result.Accounts order (swapLegs pool window order) last := by
  obtain ⟨start, last, _, started, replay, finished, accounts⟩ := swap_replay ok
  have starts := SwapState.start_ok started
  have ready : (pool.course window order).Ready start := starts.ready consistent (by rw [aligned] at limited; exact limited)
  exact ⟨start, last, starts, ready, replay.path aligned accepted ready, finished, accounts⟩

theorem exists_result {α : Type} {pool : Pool} {window : Window} {order : SwapOrder} {journal : Journal}
    {view : SwapResult → α} {x : α} (run : (swap pool window order journal).1.toOption.map view = some x) :
    ∃ result, (swap pool window order journal).1 = .ok result ∧ view result = x :=
  exists_ok run

theorem exists_place {pool : Pool} {window : Window} {order : SwapOrder} {journal : Journal} {price liquidity : BitVec 128}
    {tick : Signed 32} (run : (swap pool window order journal).1.toOption.map
      (fun result => (result.nextSqrtPrice, result.nextTick, result.nextLiquidity)) = some (price, tick, liquidity)) :
    ∃ result, (swap pool window order journal).1 = .ok result ∧ pool.movedTo result =
      { pool with sqrtPrice := price, tickCurrent := tick, liquidity := liquidity } := by
  obtain ⟨result, ok, same⟩ := exists_result run
  cases same
  exact ⟨result, ok, rfl⟩

-- A pool between two arrays of which each holds one initialized tick, for the laws of later modules.
namespace Sample

def tick (net gross : Int) : Tick :=
  { Tick.blank with
    initialized := true, liquidityNet := .ofInt 128 net, liquidityGross := BitVec.ofInt 128 gross }

def array (start : Int) (place : Nat) (tick : Tick) : Slot :=
  ⟨.zero, some ((TickArray.empty .zero (.ofInt 32 start)).setTick place tick)⟩

def upper : Slot := array 0 0 (tick 400000 400000)

def lower : Slot := array (-88) 80 (tick (-100000) 200000)

def slots : Direction → List Slot
  | .aToB => [upper, lower]
  | .bToA => [lower, upper]

def window (d : Direction) : Window :=
  ⟨slots d, 1, d⟩

def pool : Pool :=
  { Pool.blank with
    tickSpacing := 1, feeRate := 3000, protocolFeeRate := 300, liquidity := 1000000000,
    sqrtPrice := 18446744073709551616 }

def order (d : Direction) (side : Side) (amount : BitVec 64) : SwapOrder :=
  ⟨amount, match d with | .aToB => .min | .bToA => .max, side, d, 0⟩

theorem accepted (d : Direction) : Window.ofSlots (slots d) 1 d = .ok (window d) := by
  cases d <;> rfl

theorem consistent : pool.IsConsistent := by
  have inside : TickIndex.InBounds 0 := by decide
  have price : pool.sqrtPrice.toNat = TickIndex.rawPrice 0 := by decide +kernel
  rw [Pool.IsConsistent, price]
  exact TickIndex.consistent_of_lies (TickIndex.lies_of_raw_price _ 0 inside (.inr rfl))

end Sample

end PoolQuote
