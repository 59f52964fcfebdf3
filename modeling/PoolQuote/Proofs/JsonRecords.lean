import PoolQuote.Json.Records
import PoolQuote.Proofs.Consistency
import PoolQuote.Proofs.JsonForms

/-!
Every record survives its JSON text: ledger records and settings, requests, quotes and the results of swaps are read
back exactly as they were written. A square-root price is read from the integers within its bounds and from no others.
-/

set_option autoImplicit false

namespace PoolQuote

open Json JsonForm LawfulForm

instance : LawfulForm Percentage where
  texts p := texts_record (by simp [texts])
  reads p := by
    refine (bind_fields (by rfl) (by decide) _).trans ?_
    simp

instance : LawfulForm RewardInfo where
  texts reward := texts_record (by simp [texts])
  reads reward := by
    refine (bind_fields (by rfl) (by decide) _).trans ?_
    simp

instance : LawfulForm Pool where
  texts pool := texts_record (by simp [texts, Pool.fieldNames])
  reads pool := by
    refine (bind_fields (by rfl) (by decide) _).trans ?_
    simp [Pool.fieldNames]

instance : LawfulForm FeeTier where
  texts tier := texts_record (by simp [texts])
  reads tier := by
    refine (bind_fields (by rfl) (by decide) _).trans ?_
    simp

instance : LawfulForm PoolsConfig where
  texts config := texts_record (by simp [texts])
  reads config := by
    refine (bind_fields (by rfl) (by decide) _).trans ?_
    simp

instance : LawfulForm Tick where
  texts tick := texts_record (by simp [texts])
  reads tick := by
    refine (bind_fields (by rfl) (by decide) _).trans ?_
    simp

instance : LawfulForm TickArray where
  texts array := texts_record (by simp [texts])
  reads array := by
    refine (bind_fields (by rfl) (by decide) _).trans ?_
    simp

instance : LawfulForm (Option TickArray) :=
  LawfulForm.option fun _ => nofun

instance : LawfulForm Slot where
  texts slot := texts_record (by simp [texts])
  reads slot := by
    have object : (toJson slot).isArray = false := rfl
    refine (bind_fields (by rfl) (by decide) _).trans ?_
    simp [object]

instance : LawfulForm TickUpdate where
  texts update := .array (by simp [texts])
  reads update := by
    change (ofJson? (toJson update.index)).bind (fun index =>
      (ofJson? (toJson update.tick)).bind fun tick => some (TickUpdate.mk index tick)) = some update
    simp [reads]

instance : LawfulForm SwapAmounts where
  texts amounts := texts_record (by simp [texts])
  reads amounts := by
    refine (bind_fields (by rfl) (by decide) _).trans ?_
    simp

instance : LawfulForm SwapResult where
  texts result := texts_record (by simp [texts, SwapResult.fieldNames])
  reads result := by
    refine (bind_fields (by rfl) (by decide) _).trans ?_
    simp [SwapResult.fieldNames]

theorem Direction.of_is_a_to_b (direction : Direction) : Direction.ofIsAToB direction.isAToB = direction := by
  cases direction <;> rfl

theorem Side.of_is_input (side : Side) : Side.ofIsInput side.isInput = side := by
  cases side <;> rfl

instance : LawfulForm QuoteRequest where
  texts request := texts_record (by simp [texts])
  reads request := by
    refine (bind_fields (by rfl) (by decide) _).trans ?_
    simp [Direction.of_is_a_to_b, Side.of_is_input]

instance : LawfulForm Quote where
  texts quote := texts_record (by simp [texts, Quote.fieldNames])
  reads quote := by
    have arrays : #v[quote.tickArrays[0], quote.tickArrays[1], quote.tickArrays[2]] = quote.tickArrays := by
      ext i within
      interval_cases i <;> rfl
    refine (bind_fields (by rfl) (by decide) _).trans ?_
    simp [Quote.fieldNames, Direction.of_is_a_to_b, Side.of_is_input, arrays]

instance : LawfulForm DevFeeQuote where
  texts quote := texts_record (by simp [texts, DevFeeQuote.members])
  reads quote := by
    refine (bind_fields (by rfl) (by decide) _).trans ?_
    simp [DevFeeQuote.members]

instance : LawfulForm DevFeeTerms where
  texts terms := texts_record (by simp [texts])
  reads terms := by
    refine (bind_fields (by rfl) (by decide) _).trans ?_
    simp

instance : LawfulForm (Option DevFeeTerms) :=
  LawfulForm.option fun _ => nofun

instance : LawfulForm Configuration where
  texts config := texts_record (by simp [texts])
  reads config := by
    refine (bind_fields (by rfl) (by decide) _).trans ?_
    simp

theorem SqrtPrice.to_option_of_nat (n : Nat) (price : SqrtPrice) :
    (SqrtPrice.ofNat n).toOption = some price ↔ price.value = n := by
  rw [← SqrtPrice.of_nat_eq_ok_iff]
  cases SqrtPrice.ofNat n <;> simp [Except.toOption]

instance : LawfulForm SqrtPrice where
  texts price := .integer false price.value
  reads price := (SqrtPrice.to_option_of_nat price.value price).mpr rfl

theorem price_form_iff {json : Json} {i : Int} (number : signedValue? 128 json = some i) (price : SqrtPrice) :
    ofJson? json = some price ↔ (price.value : Int) = i := by
  cases json with
  | null | bool | decimal | string | array | object => cases number
  | integer negative magnitude =>
      cases negative with
      | true =>
          have negated : -(magnitude : Int) = i := by simpa [signedValue?] using number
          have positive : 0 < price.value := lt_of_lt_of_le (by decide) price.min_le
          constructor
          · intro read
            cases read
          · omega
      | false =>
          have value : (magnitude : Int) = i := Option.some.inj number
          rw [← value, Int.natCast_inj]
          exact SqrtPrice.to_option_of_nat magnitude price

theorem price_text_iff {text : String} {i : Int} (number : (parse text).bind (signedValue? 128) = some i)
    (price : SqrtPrice) : decode SqrtPrice text = some price ↔ (price.value : Int) = i := by
  obtain ⟨json, parsed, value⟩ := Option.bind_eq_some_iff.mp number
  rw [decode, parsed]
  exact price_form_iff value price

/-- The tick of an update, as the swap leaves it, has the form of a tick. A price is a word of 128 bits, in which
minus zero is zero. -/
theorem records_round_trip :
    (RoundTrips Tick ∧ RoundTrips TickArray ∧ RoundTrips Slot ∧ RoundTrips RewardInfo ∧ RoundTrips Pool ∧
      RoundTrips FeeTier ∧ RoundTrips PoolsConfig ∧ RoundTrips Percentage ∧ RoundTrips QuoteRequest ∧
      RoundTrips Quote ∧ RoundTrips DevFeeQuote ∧ RoundTrips SwapAmounts ∧ RoundTrips TickUpdate ∧
      RoundTrips SwapResult ∧ RoundTrips Configuration ∧ RoundTrips DevFeeTerms ∧ RoundTrips SqrtPrice) ∧
    (∀ i : Int, (parse (render (Json.ofInt i))).bind (signedValue? 128) = some i) ∧
    ∀ (text : String) (i : Int), (parse text).bind (signedValue? 128) = some i →
      ((∃ price, decode SqrtPrice text = some price) ↔
        (SqrtPrice.minValue : Int) ≤ i ∧ i ≤ (SqrtPrice.maxValue : Int)) := by
  refine ⟨⟨round_trips, round_trips, round_trips, round_trips, round_trips, round_trips, round_trips, round_trips,
    round_trips, round_trips, round_trips, round_trips, round_trips, round_trips, round_trips, round_trips,
    round_trips⟩, ?_, ?_⟩
  · intro i
    have texts : HasTexts (Json.ofInt i) := .integer _ _
    rw [parse_render texts, Option.bind_some, signed_value_of_int]
  · intro text i number
    simp only [price_text_iff number]
    constructor
    · rintro ⟨price, rfl⟩
      exact ⟨Int.ofNat_le.mpr price.min_le, Int.ofNat_le.mpr price.le_max⟩
    · rintro ⟨low, high⟩
      lift i to Nat using le_trans (by decide) low
      exact ⟨⟨i, Int.ofNat_le.mp low, Int.ofNat_le.mp high⟩, rfl⟩

theorem records_round_trip_sample :
    (parse " 4295048016 ").bind (signedValue? 128) = some 4295048016 ∧
      (∃ price, decode SqrtPrice " 4295048016 " = some price) ∧
      (parse "-4295048016").bind (signedValue? 128) = some (-4295048016) ∧
      ¬∃ price, decode SqrtPrice "-4295048016" = some price := by
  have least : (parse " 4295048016 ").bind (signedValue? 128) = some 4295048016 := by rfl
  have negative : (parse "-4295048016").bind (signedValue? 128) = some (-4295048016) := by rfl
  obtain ⟨_, _, accepts⟩ := records_round_trip
  exact ⟨least, (accepts _ _ least).mpr (by decide), negative,
    fun read => absurd ((accepts _ _ negative).mp read) (by decide)⟩

end PoolQuote
