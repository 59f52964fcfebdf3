import PoolQuote.Proofs.Search
import PoolQuote.Proofs.WordArithmetic

/-!
When a search is not abandoned. If words of 32 bits hold the tick indices of all positions of a window, with an array
of room on either side, then a search that sets out ends at a tick or at the end of the window, and one that does not
set out reports an error.
-/

set_option autoImplicit false

namespace PoolQuote

theorem TickArray.span_eq (spacing : Nat) : (span spacing : Int) = spacing * 88 :=
  Nat.cast_mul _ _

namespace TickPosition

-- Positions are closer to zero than the tick indices they stand for.
theorem number_between {spacing : Nat} {m lower upper : Int} (spaced : 0 < spacing) (below : lower ≤ 0) (above : 0 ≤ upper)
    (least : lower ≤ m * spacing) (most : m * spacing ≤ upper) : lower ≤ m ∧ m ≤ upper := by
  have one : (1 : Int) ≤ spacing := by exact_mod_cast spaced
  by_cases negative : m < 0
  · have outward : m * spacing ≤ m := by nlinarith
    omega
  · have outward : m ≤ m * spacing := by nlinarith
    omega

theorem to_tick_eq {spacing : Nat} {m : Int} (first : Signed.Holds 32 (m / ticksPerArray * ticksPerArray))
    (number : Signed.Holds 32 m) (tick : Signed.Holds 32 (m * spacing)) :
    (ofNumber m).toTick spacing = .ok (m * spacing) := by
  have whole : m / ticksPerArray * ticksPerArray + m % ticksPerArray = m := Int.ediv_mul_add_emod m ticksPerArray
  unfold toTick ofNumber
  rw [or_abort_bind first]
  dsimp only
  rw [whole, or_abort_bind number]
  exact if_pos tick

-- A position whose tick index lies an array or more inside of what words of 32 bits hold.
def IsInside (spacing : Nat) (m : Int) : Prop :=
  Signed.Holds 32 (m * spacing - TickArray.span spacing) ∧ Signed.Holds 32 (m * spacing + TickArray.span spacing)

section Inside

variable {spacing : Nat} {m : Int} (spaced : 0 < spacing) (inside : IsInside spacing m)

include inside

theorem holds_of_inside {i : Int} (least : m * spacing - TickArray.span spacing ≤ i)
    (most : i ≤ m * spacing + TickArray.span spacing) : Signed.Holds 32 i :=
  ⟨le_trans inside.1.1 least, le_trans most inside.2.2⟩

include spaced

theorem to_tick_exact : (ofNumber m).toTick spacing = .ok (m * spacing) := by
  have span := TickArray.span_eq spacing
  obtain ⟨below, above⟩ := inside
  rw [Signed.holds_iff] at below above
  have lower : -2 ^ 31 ≤ m - 88 ∧ m - 88 ≤ 2 ^ 31 := by
    apply number_between spaced (by decide) (by decide) <;> rw [sub_mul] <;> omega
  have upper : -2 ^ 31 ≤ m + 88 ∧ m + 88 ≤ 2 ^ 31 - 1 := by
    apply number_between spaced (by decide) (by decide) <;> rw [add_mul] <;> omega
  have number : Signed.Holds 32 m ∧ Signed.Holds 32 (m / ticksPerArray * ticksPerArray) := by
    simp only [Signed.holds_iff, ticksPerArray] at *
    omega
  have tick : Signed.Holds 32 (m * spacing) := by
    rw [Signed.holds_iff]
    omega
  exact to_tick_eq number.2 number.1 tick

theorem next_exact (d : Direction) : (ofNumber m).next d spacing = .ok (ofNumber (d.along m 1)) := by
  have span := TickArray.span_eq spacing
  have lower : Signed.Holds 32 (m * spacing - spacing) := holds_of_inside inside (by omega) (by omega)
  have upper : Signed.Holds 32 (m * spacing + spacing) := holds_of_inside inside (by omega) (by omega)
  have moves : ∃ position, (ofNumber m).next d spacing = .ok position := by
    unfold next
    rw [to_tick_exact spaced inside, ok_bind]
    cases d with
    | aToB => exact ⟨_, (or_abort_bind lower).trans (of_tick_eq (Nat.ne_of_gt spaced) _)⟩
    | bToA => exact ⟨_, (or_abort_bind upper).trans (of_tick_eq (Nat.ne_of_gt spaced) _)⟩
  obtain ⟨position, moved⟩ := moves
  rw [moved, next_ok moved]

end Inside

end TickPosition

namespace Window

def IsRoomy (w : Window) : Prop :=
  ∀ n, n ≤ w.size → TickPosition.IsInside w.spacingNat (w.slotAt n)

section Roomy

variable {w : Window} (accepted : w.IsAccepted) (roomy : w.IsRoomy)

include accepted roomy

theorem boundary_total : ∃ stop, w.boundary (.ofNumber (w.slotAt w.size)) = .ok stop := by
  have inside := roomy w.size (le_refl _)
  have spaced := accepted.spaced
  have span := TickArray.span_eq w.spacingNat
  have back : Signed.Holds 32 (w.slotAt w.size * w.spacingNat + w.spacingNat) :=
    TickPosition.holds_of_inside inside (by omega) (by omega)
  have before : Signed.Holds 32 (w.slotAt w.size * w.spacingNat - 1) :=
    TickPosition.holds_of_inside inside (by omega) (by omega)
  unfold boundary
  rw [TickPosition.to_tick_exact spaced inside, ok_bind]
  cases w.direction with
  | aToB => exact ⟨_, or_abort_bind back⟩
  | bToA => exact ⟨_, or_abort_bind before⟩

theorem scan_total {count n : Nat} (room : n + count = w.size) :
    ∃ stop, (w.scan count (.ofNumber (w.slotAt n))).outcome = .ok stop := by
  induction count generalizing n with
  | zero =>
      have last : n = w.size := room
      subst last
      exact boundary_total accepted roomy
  | succ count ih =>
      have within : n < w.size := by omega
      have inside := roomy n (le_of_lt within)
      cases lit : (w.held n).filter Tick.initialized with
      | some tick =>
          rw [scan_found accepted within lit, TickPosition.to_tick_exact accepted.spaced inside]
          exact ⟨_, rfl⟩
      | none =>
          rw [scan_dark accepted within lit (TickPosition.next_exact accepted.spaced inside w.direction)]
          exact ih (by omega)

theorem next_initialized_total {t : Int} {n : Nat} (within : n < w.size) (enters : w.slotAt n = w.entry t) :
    ∃ stop, (w.nextInitialized t).outcome = .ok stop := by
  rw [next_initialized_eq accepted within enters]
  exact scan_total accepted roomy (Nat.add_sub_cancel' (le_of_lt within))

end Roomy

theorem next_initialized_refused {w : Window} {t : Int} (spaced : 0 < w.spacingNat)
    (inside : TickPosition.IsInside w.spacingNat (w.entry t)) (outside : ∀ n, n < w.size → w.slotAt n ≠ w.entry t) :
    ∃ cause, w.nextInitialized t = ⟨[], .error (.error cause)⟩ := by
  have entered : TickPosition.ofTick w.spacingNat (min (searchEntry w.direction w.spacingNat t) (Signed.greatest 32)) =
      .ok (.ofNumber (w.entry t)) := TickPosition.of_tick_eq (Nat.ne_of_gt spaced) _
  unfold nextInitialized
  dsimp only
  rw [entered]
  dsimp only
  cases ahead : w.ahead? (TickPosition.ofNumber (w.entry t)).array with
  | none =>
      dsimp only
      rw [TickPosition.to_tick_exact spaced inside]
      exact ⟨_, rfl⟩
  | some place =>
      have absent : w.arrays.length ≤ place := by
        by_contra present
        obtain ⟨n, within, here, _⟩ := exists_slot_of_ahead ahead (not_le.mp present)
        exact outside n within here
      dsimp only
      rw [if_pos absent]
      exact ⟨_, rfl⟩

theorem next_initialized_ne_abort {w : Window} {t : Int} (accepted : w.IsAccepted) (roomy : w.IsRoomy)
    (inside : TickPosition.IsInside w.spacingNat (w.entry t)) : (w.nextInitialized t).outcome ≠ .error .abort := by
  by_cases enters : ∃ n, n < w.size ∧ w.slotAt n = w.entry t
  · obtain ⟨n, within, here⟩ := enters
    obtain ⟨stop, ok⟩ := next_initialized_total accepted roomy within here
    rw [ok]
    exact ok_ne_error
  · obtain ⟨cause, fails⟩ := next_initialized_refused accepted.spaced inside
      fun n within here => enters ⟨n, within, here⟩
    rw [fails]
    exact fun aborts => by cases aborts

end Window

end PoolQuote
