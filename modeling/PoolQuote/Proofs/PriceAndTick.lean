import PoolQuote.Proofs.SwapPath

/-!
A swap keeps its price and tick together. Both move in the trade's direction or stay, leg by leg, and
the price stops at the limit at the latest.
-/

set_option autoImplicit false

namespace PoolQuote

-- What a leg, or a whole swap, may make of a tick and a price.
structure TickIndex.MovesOn (d : Direction) (limit : Nat) (t : Int) (p : Nat) (t' : Int) (p' : Nat) : Prop where
  consistent : IsConsistent t' p'
  forward : d.Leads p p'
  limited : d.Leads p' limit
  tick : d.Leads t t'

namespace SwapLeg

def Linked : SwapState → List SwapLeg → Prop
  | _, [] => True
  | state, leg :: legs => leg.before = state ∧ Linked leg.after legs

def MovesOn (d : Direction) (limit : SqrtPrice) (leg : SwapLeg) : Prop :=
  TickIndex.MovesOn d limit.value leg.before.tick leg.before.price.value leg.after.tick leg.after.price.value

end SwapLeg

namespace Course

theorem IsMove.moves_on {c : Course} {leg : SwapLeg} (move : c.IsMove leg) : leg.MovesOn c.direction c.limit :=
  ⟨TickIndex.consistent_of_lies move.lies_after, move.forward_short.1, move.leads_limit, move.tick_leads⟩

namespace Path

variable {c : Course} {state last : SwapState} {legs : List SwapLeg} (path : c.Path state legs last)

include path

theorem linked : SwapLeg.Linked state legs := by
  induction path with
  | rest state => trivial
  | move leg legs last step _ ih => exact ⟨rfl, ih⟩

theorem moves_on (ready : c.Ready state) :
    TickIndex.MovesOn c.direction c.limit.value state.tick state.price.value last.tick last.price.value := by
  have final := path.ready_last ready
  exact ⟨TickIndex.consistent_of_lies final.lies, path.price_leads, final.limited, path.tick_leads⟩

end Path

end Course

/-- The legs that a swap completes before it ends or fails, in any number, and its result if it has one. -/
theorem swap_moves_on (pool : Pool) (slots : List Slot) (spacing : BitVec 16) (order : SwapOrder) (window : Window)
    (accepted : Window.ofSlots slots spacing order.direction = .ok window) (consistent : pool.IsConsistent)
    (limited : order.direction.Leads pool.sqrtPrice.toNat order.limit.value) :
    (∃ start, SwapState.start pool order = .ok start ∧ start.tick = pool.tickCurrent.toInt ∧
      start.price.value = pool.sqrtPrice.toNat ∧
      ∀ rewards n, SwapLeg.Linked start ((SwapSetting.mk pool window order rewards).trail n start).legs ∧
        ∀ leg ∈ ((SwapSetting.mk pool window order rewards).trail n start).legs,
          leg.MovesOn order.direction order.limit) ∧
    ∀ journal result, (swap pool window order journal).1 = .ok result →
      TickIndex.MovesOn order.direction order.limit.value pool.tickCurrent.toInt pool.sqrtPrice.toNat
        result.nextTick.toInt result.nextSqrtPrice.toNat := by
  obtain ⟨made, sound⟩ := Window.of_slots_ok accepted
  have aligned : order.direction = window.direction := by rw [made]
  have before : (pool.course window order).direction.Leads pool.sqrtPrice.toNat order.limit.value := by
    rw [aligned] at limited
    exact limited
  constructor
  · obtain ⟨start, started⟩ := SwapState.exists_start consistent order
    have starts := SwapState.start_ok started
    refine ⟨start, started, starts.tick, starts.price, fun rewards n => ?_⟩
    have ready : (SwapSetting.mk pool window order rewards).course.Ready start := starts.ready consistent before
    obtain ⟨final, path, _⟩ := SwapSetting.trail_path aligned sound n ready
    refine ⟨path.linked, fun leg member => ?_⟩
    rw [aligned]
    exact (path.is_move member).moves_on
  · intro journal result ok
    obtain ⟨start, legs, last, starts, ready, path, _, reports, _⟩ := swap_path sound aligned consistent limited ok
    have moved := path.moves_on ready
    rw [← starts.tick, ← starts.price, reports.tick, reports.price, aligned]
    exact moved

theorem swap_moves_on_sample : ∃ result,
    (swap Sample.pool (Sample.window .aToB) (Sample.order .aToB .input 1000000) .blank).1 = .ok result ∧
      result.nextTick.toInt = -20 ∧
        TickIndex.MovesOn .aToB SqrtPrice.min.value 0 18446744073709551616 (-20) result.nextSqrtPrice.toNat := by
  have run : (swap Sample.pool (Sample.window .aToB) (Sample.order .aToB .input 1000000) .blank).1.toOption.map
      (fun result => result.nextTick.toInt) = some (-20) := by decide +kernel
  obtain ⟨result, ok, tick⟩ := exists_result run
  have law := swap_moves_on Sample.pool (Sample.slots .aToB) 1 (Sample.order .aToB .input 1000000) (Sample.window .aToB)
    (Sample.accepted .aToB) Sample.consistent (by decide)
  have moved := law.2 .blank result ok
  refine ⟨result, ok, tick, ?_⟩
  rw [← tick]
  exact moved

end PoolQuote
