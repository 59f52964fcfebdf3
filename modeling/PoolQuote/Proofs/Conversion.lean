import PoolQuote.Proofs.Consistency

/-!
Ticks to prices and back. The prices of the ticks rise strictly from the least price to the greatest. The tick of a
price within these bounds is the one that the price has reached last. Outside its range either conversion fails.
-/

set_option autoImplicit false

namespace PoolQuote

namespace TickIndex

theorem sqrt_price_inside {t : Int} (inside : InBounds t) : sqrtPrice t = .ok (rawPrice t) :=
  (sqrt_price_eq_ok_iff t (rawPrice t)).mpr ⟨inside, rfl⟩

theorem sqrt_price_outside {t : Int} (outside : ¬ InBounds t) : sqrtPrice t = .error (.invalidTickIndex t) :=
  if_neg outside

theorem of_tick_inside {t : Int} (inside : InBounds t) : ∃ price : SqrtPrice, SqrtPrice.ofTick t = .ok price ∧
    sqrtPrice t = .ok price.value := by
  obtain ⟨least, most⟩ := raw_price_bounds t inside
  exact ⟨⟨rawPrice t, least, most⟩, (SqrtPrice.of_tick_eq_ok_iff t _).mpr ⟨inside, rfl⟩, sqrt_price_inside inside⟩

theorem of_sqrt_price_outside {p : Nat} (outside : p < SqrtPrice.minValue ∨ SqrtPrice.maxValue < p) :
    ofSqrtPrice p = .error .sqrtPriceOutOfBounds := by
  have refused : SqrtPrice.ofNat p = .error .sqrtPriceOutOfBounds := by
    apply dif_neg
    rintro ⟨least, most⟩
    omega
  rw [ofSqrtPrice, refused]
  rfl

theorem of_sqrt_price_of_between {t : Int} {p : Nat} (inside : InBounds t) (reached : rawPrice t ≤ p)
    (most : p ≤ SqrtPrice.maxValue) (short : t = maximum ∨ p < rawPrice (t + 1)) : ofSqrtPrice p = .ok t := by
  have least := le_trans (raw_price_bounds t inside).1 reached
  obtain ⟨⟨bounded, below⟩, greatest⟩ := SqrtPrice.tick_greatest ⟨p, least, most⟩
  refine (of_sqrt_price_eq_ok_iff p t).mpr ⟨⟨p, least, most⟩, rfl, le_antisymm ?_ (greatest ⟨inside, reached⟩)⟩
  rcases short with last | before
  · rw [last]
    exact bounded.2
  · by_contra beyond
    have next : InBounds (t + 1) := ⟨le_trans inside.1 (by omega), le_trans (not_le.mp beyond) bounded.2⟩
    have further := (raw_price_le_iff (t + 1) _ next bounded).mpr (not_le.mp beyond)
    exact absurd (le_trans further below) (not_le.mpr before)

theorem exists_between {p : Nat} (least : SqrtPrice.minValue ≤ p) (most : p ≤ SqrtPrice.maxValue) :
    ∃ t, InBounds t ∧ rawPrice t ≤ p ∧ (t = maximum ∨ InBounds (t + 1) ∧ p < rawPrice (t + 1)) := by
  obtain ⟨⟨inside, below⟩, greatest⟩ := SqrtPrice.tick_greatest ⟨p, least, most⟩
  refine ⟨_, inside, below, ?_⟩
  by_cases last : SqrtPrice.tick ⟨p, least, most⟩ = maximum
  · exact .inl last
  · have next : InBounds (SqrtPrice.tick ⟨p, least, most⟩ + 1) := by
      obtain ⟨lower, upper⟩ := inside
      constructor <;> omega
    refine .inr ⟨next, ?_⟩
    by_contra reached
    have := greatest ⟨next, not_lt.mp reached⟩
    omega

end TickIndex

open TickIndex in
/-- Each conversion undoes the other as far as rounding down allows, and fails outside of the range. -/
theorem conversions_invert :
    (∀ s t, minimum ≤ s → s < t → t ≤ maximum → ∃ p q, sqrtPrice s = .ok p ∧ sqrtPrice t = .ok q ∧ p < q) ∧
    sqrtPrice minimum = .ok SqrtPrice.minValue ∧ sqrtPrice maximum = .ok SqrtPrice.maxValue ∧
    (∀ t, InBounds t → ∃ price : SqrtPrice, SqrtPrice.ofTick t = .ok price ∧ sqrtPrice t = .ok price.value ∧
      SqrtPrice.minValue ≤ price.value ∧ price.value ≤ SqrtPrice.maxValue ∧ ofSqrtPrice price.value = .ok t) ∧
    (∀ p, SqrtPrice.minValue ≤ p → p ≤ SqrtPrice.maxValue → ∃ t lower, ofSqrtPrice p = .ok t ∧ InBounds t ∧
      sqrtPrice t = .ok lower ∧ lower ≤ p ∧ (t = maximum ∨ ∃ upper, sqrtPrice (t + 1) = .ok upper ∧ p < upper)) ∧
    (∀ t, ¬ InBounds t → sqrtPrice t = .error (.invalidTickIndex t)) ∧
    ∀ p, p < SqrtPrice.minValue ∨ SqrtPrice.maxValue < p → ofSqrtPrice p = .error .sqrtPriceOutOfBounds := by
  refine ⟨fun s t lower less upper => ?_, ?_, ?_, fun t inside => ?_, fun p least most => ?_,
    fun t outside => sqrt_price_outside outside, fun p outside => of_sqrt_price_outside outside⟩
  · have first : InBounds s := ⟨lower, by omega⟩
    have second : InBounds t := ⟨by omega, upper⟩
    exact ⟨_, _, sqrt_price_inside first, sqrt_price_inside second, raw_price_lt s t lower less upper⟩
  · rw [← raw_price_minimum]
    exact sqrt_price_inside (by decide)
  · rw [← raw_price_maximum]
    exact sqrt_price_inside (by decide)
  · obtain ⟨price, made, value⟩ := of_tick_inside inside
    have same : price.value = rawPrice t := ((sqrt_price_eq_ok_iff t _).mp value).2.symm
    refine ⟨price, made, value, price.min_le, price.le_max, of_sqrt_price_of_between inside same.ge price.le_max ?_⟩
    by_cases last : t = maximum
    · exact .inl last
    · rw [same]
      exact .inr (raw_price_succ t inside.1 (lt_of_le_of_ne inside.2 last))
  · obtain ⟨t, inside, reached, short⟩ := exists_between least most
    refine ⟨t, _, of_sqrt_price_of_between inside reached most (short.imp_right And.right), inside,
      sqrt_price_inside inside, reached, ?_⟩
    rcases short with last | ⟨next, before⟩
    · exact .inl last
    · exact .inr ⟨_, sqrt_price_inside next, before⟩

theorem conversions_invert_sample : ∃ lower upper, TickIndex.ofSqrtPrice 18446744073709551615 = .ok (-1) ∧
    TickIndex.sqrtPrice (-1) = .ok lower ∧ lower ≤ 18446744073709551615 ∧
    TickIndex.sqrtPrice 0 = .ok upper ∧ 18446744073709551615 < upper ∧ lower < upper ∧
    TickIndex.sqrtPrice 443637 = .error (.invalidTickIndex 443637) ∧
    TickIndex.ofSqrtPrice 4295048015 = .error .sqrtPriceOutOfBounds := by
  obtain ⟨rises, _, _, _, floors, noTick, noPrice⟩ := conversions_invert
  obtain ⟨lower, upper, first, second, less⟩ := rises (-1) 0 (by decide) (by decide) (by decide)
  obtain ⟨t, floor, tick, _, price, below, short⟩ := floors 18446744073709551615 (by decide) (by decide)
  have here : TickIndex.ofRawPrice 18446744073709551615 = -1 := by decide +kernel
  have same : t = -1 := by
    obtain ⟨price, value, found⟩ := (TickIndex.of_sqrt_price_eq_ok_iff _ _).mp tick
    rw [← found, SqrtPrice.tick, value, here]
  subst same
  rcases short with last | ⟨next, above, before⟩
  · exact absurd last (by decide)
  · have floorSame : floor = lower := Except.ok.inj (price.symm.trans first)
    have nextSame : next = upper := Except.ok.inj (above.symm.trans second)
    subst floorSame nextSame
    exact ⟨_, _, tick, price, below, above, before, less, noTick 443637 (by decide), noPrice 4295048015 (by decide)⟩

end PoolQuote
