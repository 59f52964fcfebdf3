import PoolQuote.Pool
import PoolQuote.Proofs.Direction
import PoolQuote.Proofs.TickLogarithm

/-!
A tick index and a price are consistent if the index is the tick of the price, or the price is that
of the next tick, as a downward crossing leaves it. Either way the ticks up to the index have prices
up to the price, and all others have prices from it on.
-/

set_option autoImplicit false

namespace PoolQuote

namespace SqrtPrice

theorem of_nat_eq_ok_iff (n : Nat) (p : SqrtPrice) : ofNat n = .ok p ↔ p.value = n := by
  constructor
  · intro ok
    unfold ofNat at ok
    split at ok
    · cases ok
      rfl
    · cases ok
  · intro same
    subst same
    rw [ofNat, dif_pos ⟨p.min_le, p.le_max⟩]

theorem of_tick_eq_ok_iff (t : Int) (p : SqrtPrice) :
    ofTick t = .ok p ↔ TickIndex.InBounds t ∧ TickIndex.rawPrice t = p.value := by
  unfold ofTick TickIndex.sqrtPrice
  split
  · rename_i inside
    change ofNat (TickIndex.rawPrice t) = .ok p ↔ _
    rw [of_nat_eq_ok_iff]
    exact ⟨fun same => ⟨inside, same.symm⟩, fun both => both.2.symm⟩
  · rename_i outside
    constructor
    · intro ok
      cases ok
    · intro both
      exact absurd both.1 outside

theorem tick_greatest (p : SqrtPrice) :
    IsGreatest {u | TickIndex.InBounds u ∧ TickIndex.rawPrice u ≤ p.value} p.tick :=
  TickIndex.of_raw_price_greatest p.value p.min_le p.le_max

theorem value_pos (p : SqrtPrice) : 0 < p.value :=
  lt_of_lt_of_le (by decide : 0 < minValue) p.min_le

theorem value_inj {p q : SqrtPrice} (same : p.value = q.value) : p = q := by
  cases p
  cases q
  cases same
  rfl

end SqrtPrice

namespace TickIndex

-- The two ways in which a tick index and a price belong together.
def IsConsistent (t : Int) (p : Nat) : Prop :=
  ofSqrtPrice p = .ok t ∨ sqrtPrice (t + 1) = .ok p

structure Lies (t : Int) (p : Nat) : Prop where
  min_le : SqrtPrice.minValue ≤ p
  le_max : p ≤ SqrtPrice.maxValue
  lower : minimum - 1 ≤ t
  upper : t ≤ maximum
  below : ∀ u, InBounds u → u ≤ t → rawPrice u ≤ p
  above : ∀ u, InBounds u → t < u → p ≤ rawPrice u

theorem of_sqrt_price_eq_ok_iff (p : Nat) (t : Int) :
    ofSqrtPrice p = .ok t ↔ ∃ price : SqrtPrice, price.value = p ∧ price.tick = t := by
  unfold ofSqrtPrice
  constructor
  · intro ok
    cases read : SqrtPrice.ofNat p with
    | error cause => rw [read] at ok; cases ok
    | ok price =>
        rw [read] at ok
        exact ⟨price, (SqrtPrice.of_nat_eq_ok_iff p price).mp read, Except.ok.inj ok⟩
  · rintro ⟨price, value, tick⟩
    rw [(SqrtPrice.of_nat_eq_ok_iff p price).mpr value]
    exact congrArg Except.ok tick

theorem lies_tick (price : SqrtPrice) : Lies price.tick price.value := by
  obtain ⟨⟨inside, below⟩, greatest⟩ := price.tick_greatest
  refine ⟨price.min_le, price.le_max, by have := inside.1; omega, inside.2, fun u bounded le => ?_, fun u bounded less => ?_⟩
  · exact le_trans ((raw_price_le_iff u _ bounded inside).mpr le) below
  · by_contra higher
    exact absurd (greatest ⟨bounded, by omega⟩) (by omega)

theorem lies_of_raw_price (t : Int) (u : Int) (inside : InBounds u) (adjacent : t = u - 1 ∨ t = u) :
    Lies t (rawPrice u) := by
  have bounds := raw_price_bounds u inside
  have lower := inside.1
  have upper := inside.2
  refine ⟨bounds.1, bounds.2, by omega, by omega, fun v bounded le => ?_, fun v bounded less => ?_⟩
  · exact (raw_price_le_iff v u bounded inside).mpr (by omega)
  · exact (raw_price_le_iff u v inside bounded).mpr (by omega)

theorem lies_of_consistent {t : Int} {p : Nat} (consistent : IsConsistent t p) : Lies t p := by
  rcases consistent with floor | next
  · obtain ⟨price, rfl, rfl⟩ := (of_sqrt_price_eq_ok_iff p t).mp floor
    exact lies_tick price
  · obtain ⟨inside, rfl⟩ := (sqrt_price_eq_ok_iff (t + 1) p).mp next
    exact lies_of_raw_price t (t + 1) inside (.inl (by omega))

theorem consistent_of_lies {t : Int} {p : Nat} (lies : Lies t p) : IsConsistent t p := by
  have lower := lies.lower
  have upper := lies.upper
  by_cases reached : t + 1 ≤ maximum ∧ p = rawPrice (t + 1)
  · exact .inr ((sqrt_price_eq_ok_iff (t + 1) p).mpr ⟨⟨by omega, reached.1⟩, reached.2.symm⟩)
  · refine .inl ((of_sqrt_price_eq_ok_iff p t).mpr ⟨⟨p, lies.min_le, lies.le_max⟩, rfl, ?_⟩)
    obtain ⟨⟨inside, below⟩, greatest⟩ := SqrtPrice.tick_greatest ⟨p, lies.min_le, lies.le_max⟩
    have floor := inside.1
    have ceiling := inside.2
    have notUnder : minimum ≤ t := by
      by_contra under
      have start : t + 1 = minimum := by omega
      have atMost := lies.above minimum (by decide) (by omega)
      rw [raw_price_minimum] at atMost
      refine reached ⟨by rw [start]; decide, ?_⟩
      rw [start, raw_price_minimum]
      exact le_antisymm atMost lies.min_le
    have notLess := greatest ⟨⟨notUnder, upper⟩, lies.below t ⟨notUnder, upper⟩ (le_refl t)⟩
    by_contra different
    have next : InBounds (t + 1) := ⟨by omega, by omega⟩
    have atLeast := (raw_price_le_iff (t + 1) _ next inside).mpr (by omega)
    have atMost := lies.above (t + 1) next (by omega)
    exact reached ⟨next.2, le_antisymm atMost (le_trans atLeast below)⟩

theorem lies_past (d : Direction) (u : Int) (inside : InBounds u) : Lies (d.past u) (rawPrice u) := by
  apply lies_of_raw_price _ u inside
  cases d with
  | aToB => exact .inl rfl
  | bToA => exact .inr rfl

theorem leads_raw_iff {d : Direction} {s t : Int} (first : InBounds s) (second : InBounds t) :
    d.Leads (rawPrice s) (rawPrice t) ↔ d.Leads s t := by
  cases d with
  | aToB => exact raw_price_le_iff t s second first
  | bToA => exact raw_price_le_iff s t first second

theorem raw_price_inj {s t : Int} (first : InBounds s) (second : InBounds t) (same : rawPrice s = rawPrice t) : s = t := by
  apply le_antisymm
  · exact (raw_price_le_iff s t first second).mp (le_of_eq same)
  · exact (raw_price_le_iff t s second first).mp (le_of_eq same.symm)

theorem leads_raw_price {d : Direction} {t u : Int} {p : Nat} (lies : Lies t p) (inside : InBounds u)
    (ahead : d.Ahead t u) : d.Leads p (rawPrice u) := by
  cases d with
  | aToB => exact lies.below u inside ahead
  | bToA => exact lies.above u inside ahead

theorem raw_price_leads {d : Direction} {t u : Int} {p : Nat} (lies : Lies t p) (inside : InBounds u)
    (behind : ¬ d.Ahead t u) : d.Leads (rawPrice u) p := by
  cases d with
  | aToB => exact lies.above u inside (not_le.mp behind)
  | bToA => exact lies.below u inside (not_lt.mp behind)

-- There is a tick before the trade, so that it cannot be at the end of the range of prices.
def HasRoom (d : Direction) (t : Int) : Prop :=
  match d with
  | .aToB => minimum ≤ t ∧ t ≤ maximum
  | .bToA => minimum - 1 ≤ t ∧ t < maximum

theorem has_room_of_lies {d : Direction} {t : Int} {p : Nat} {limit : SqrtPrice} (lies : Lies t p)
    (leads : d.Leads p limit.value) (away : p ≠ limit.value) : HasRoom d t := by
  have lower := lies.lower
  have upper := lies.upper
  have least := limit.min_le
  have most := limit.le_max
  cases d with
  | aToB =>
      refine ⟨?_, upper⟩
      by_contra under
      have atMost := lies.above minimum (by decide) (by omega)
      rw [raw_price_minimum] at atMost
      exact away (le_antisymm (le_trans atMost least) leads)
  | bToA =>
      refine ⟨lower, ?_⟩
      by_contra beyond
      have atLeast := lies.below maximum (by decide) (by omega)
      rw [raw_price_maximum] at atLeast
      exact away (le_antisymm leads (le_trans most atLeast))

theorem clamp_leads {d : Direction} {t last : Int} (room : HasRoom d t) (ahead : d.Ahead t last) :
    d.Ahead t (clamp last) ∧ d.Leads (clamp last) last := by
  unfold clamp
  have ordered : minimum ≤ maximum := by decide
  cases d <;> simp only [HasRoom, Direction.Ahead, Direction.Leads] at * <;> omega

end TickIndex

def Pool.IsConsistent (pool : Pool) : Prop :=
  TickIndex.IsConsistent pool.tickCurrent.toInt pool.sqrtPrice.toNat

end PoolQuote
