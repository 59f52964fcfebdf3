import PoolQuote.Proofs.ArrayStarts
import PoolQuote.Proofs.SwapLeg
import Mathlib.Data.Rat.Floor

/-!
The array of a tick. Its position, the array that contains it and the start from which arrays are listed all name the
same one, also below tick zero, where every division has to round down.
-/

set_option autoImplicit false

namespace PoolQuote

namespace TickPosition

theorem of_number_offset (m : Int) : 0 ≤ (ofNumber m).offset ∧ (ofNumber m).offset < ticksPerArray :=
  ⟨Int.emod_nonneg _ (by decide), Int.emod_lt_of_pos _ (by decide)⟩

-- A whole array lies below the tick, so that no step on the way back leaves the words of 32 bits.
theorem to_tick_floor {spacing : Nat} {t : Int} (spaced : 0 < spacing)
    (above : Signed.least 32 + TickArray.span spacing ≤ t) (most : t ≤ Signed.greatest 32) :
    (ofNumber (t / spacing)).toTick spacing = .ok (spacing * ⌊(t / spacing : ℚ)⌋) := by
  have floor : t / spacing * spacing ≤ t := Int.ediv_mul_le t (by omega)
  have next : t < (t / spacing + 1) * spacing := Int.lt_ediv_add_one_mul_self t (by omega)
  rw [Int.add_mul, Int.one_mul] at next
  rw [TickArray.span_eq] at above
  have lower : Signed.least 32 ≤ t / spacing - 87 ∧ t / spacing - 87 ≤ Signed.greatest 32 := by
    apply number_between spaced (by decide) (by decide) <;> rw [Int.sub_mul] <;> omega
  have whole : Signed.least 32 ≤ t / spacing ∧ t / spacing ≤ Signed.greatest 32 := by
    apply number_between spaced (by decide) (by decide) <;> omega
  have first : Signed.Holds 32 (t / spacing / ticksPerArray * ticksPerArray) := by
    simp only [Signed.Holds, ticksPerArray]
    omega
  have tick : Signed.Holds 32 (t / spacing * spacing) := ⟨by omega, by omega⟩
  rw [to_tick_eq first whole tick, Rat.floor_intCast_div_natCast, Int.mul_comm]

theorem of_number_houses {spacing : Nat} (spaced : 0 < spacing) (t : Int) :
    Houses ((ofNumber (t / spacing)).array * TickArray.span spacing) (TickArray.span spacing) t := by
  rw [houses_iff (TickArray.span_pos spaced), TickArray.div_span]
  rfl

end TickPosition

theorem Houses.exists_start {span : Nat} {start t : Int} (houses : Houses start span t)
    (above : Signed.least 32 + span ≤ t) (most : t ≤ Signed.greatest 32) : ∃ word : Signed 32, word.toInt = start :=
  have least := houses.least
  have beyond := houses.most
  ⟨.ofInt 32 start, Signed.to_int_of_int (by decide) ⟨by omega, by omega⟩⟩

theorem array_start_ok_iff {spacing : Nat} (spaced : 0 < spacing) (t offset : Int) :
    arrayStart t spacing offset = .ok ((t / TickArray.span spacing + offset) * TickArray.span spacing) ↔
      TickIndex.Overlaps ((t / TickArray.span spacing + offset) * TickArray.span spacing) (TickArray.span spacing) := by
  by_cases overlaps : TickIndex.Overlaps ((t / TickArray.span spacing + offset) * TickArray.span spacing)
    (TickArray.span spacing)
  · exact iff_of_true (array_start_ok spaced overlaps) overlaps
  · obtain ⟨_, fails⟩ := array_start_error spaced overlaps
    exact iff_of_false (by simp [fails]) overlaps

/-- The arrays divide all tick indices among them, and those below zero round down like the others. -/
theorem array_of_tick_is_one (spacing : BitVec 16) (t offset : Signed 32) (spaced : 0 < spacing.toNat)
    (above : Signed.least 32 + TickArray.span spacing.toNat ≤ t.toInt) :
    let span := TickArray.span spacing.toNat
    ∃ position, TickPosition.ofTick spacing.toNat t.toInt = .ok position ∧
      0 ≤ position.offset ∧ position.offset < ticksPerArray ∧
      position.toTick spacing.toNat = .ok (spacing.toNat * ⌊(t.toInt / spacing.toNat : ℚ)⌋) ∧
      (∃ start : Signed 32, start.toInt = position.array * span ∧
        ∀ array : TickArray, array.start = start → array.Contains t.toInt spacing.toNat ∧
          ∀ u, array.Contains u spacing.toNat ↔ start.toInt ≤ u ∧ u < start.toInt + span) ∧
      (arrayStart t.toInt spacing.toNat offset.toInt = .ok (position.array * span + offset.toInt * span) ↔
        TickIndex.Overlaps (position.array * span + offset.toInt * span) span) ∧
      (¬ TickIndex.Overlaps (position.array * span + offset.toInt * span) span →
        ∃ u, arrayStart t.toInt spacing.toNat offset.toInt = .error (.invalidTickIndex u)) := by
  have most : t.toInt ≤ Signed.greatest 32 := (Signed.holds_to_int t).2
  have houses := TickPosition.of_number_houses spaced t.toInt
  obtain ⟨start, here⟩ := houses.exists_start above most
  have number : (TickPosition.ofNumber (t.toInt / spacing.toNat)).array = t.toInt / TickArray.span spacing.toNat :=
    (TickArray.div_span _ _).symm
  obtain ⟨least, less⟩ := TickPosition.of_number_offset (t.toInt / spacing.toNat)
  refine ⟨_, TickPosition.of_tick_eq (Nat.ne_of_gt spaced) t.toInt, least, less,
    TickPosition.to_tick_floor spaced above most, ⟨start, here, ?_⟩, ?_, ?_⟩
  · rintro array rfl
    refine ⟨?_, fun u => Iff.rfl⟩
    rw [TickArray.Contains, here]
    exact ⟨houses.least, houses.most⟩
  · rw [number, ← Int.add_mul]
    exact array_start_ok_iff spaced t.toInt offset.toInt
  · rw [number, ← Int.add_mul]
    exact array_start_error spaced

theorem array_of_tick_is_one_sample :
    TickPosition.ofTick 64 TickIndex.minimum = .ok ⟨-79, 20⟩ ∧ arrayStart TickIndex.minimum 64 0 = .ok (-444928) ∧
      ∃ u, arrayStart TickIndex.minimum 64 (-1) = .error (.invalidTickIndex u) := by
  have minimum : (Signed.ofInt 32 TickIndex.minimum).toInt = TickIndex.minimum := by decide
  have below : (Signed.ofInt 32 (-1)).toInt = -1 := by decide
  obtain ⟨position, here, _, _, _, _, listed, _⟩ := array_of_tick_is_one 64 (.ofInt 32 TickIndex.minimum) 0 (by decide)
    (by decide)
  obtain ⟨other, there, _, _, _, _, _, refused⟩ := array_of_tick_is_one 64 (.ofInt 32 TickIndex.minimum)
    (.ofInt 32 (-1)) (by decide) (by decide)
  rw [minimum] at here there listed refused
  rw [below] at refused
  have lowest : TickPosition.ofTick 64 TickIndex.minimum = .ok ⟨-79, 20⟩ := by decide
  obtain rfl : ⟨-79, 20⟩ = position := Except.ok.inj (lowest.symm.trans here)
  obtain rfl : ⟨-79, 20⟩ = other := Except.ok.inj (lowest.symm.trans there)
  refine ⟨lowest, listed.mpr ?_, refused ?_⟩
  · rw [TickIndex.overlaps_iff (by decide)]
    decide
  · rw [TickIndex.overlaps_iff (by decide)]
    decide

end PoolQuote
