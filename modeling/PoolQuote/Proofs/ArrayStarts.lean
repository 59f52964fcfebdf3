import PoolQuote.Proofs.SearchRoom

/-!
The arrays that are derived for a swap. Their starts are listed one span after the other along the trade, from the
array where the search begins and for as long as they reach into the range of tick indices. Slots that hold what these
starts promise make an accepted window, which starts where the search does.
-/

set_option autoImplicit false

namespace PoolQuote

namespace TickIndex

def Overlaps (start : Int) (span : Nat) : Prop :=
  ∃ u, InBounds u ∧ start ≤ u ∧ u < start + span

theorem overlaps_iff {start : Int} {span : Nat} (wide : 0 < span) :
    Overlaps start span ↔ start ≤ maximum ∧ minimum < start + span := by
  constructor
  · rintro ⟨u, ⟨least, most⟩, above, below⟩
    omega
  · rintro ⟨most, least⟩
    have range : minimum ≤ maximum := by decide
    refine ⟨max start minimum, ⟨le_max_right _ _, max_le most range⟩, le_max_left _ _, ?_⟩
    omega

theorem minimum_tmod (span : Nat) : minimum.tmod span = -(maximum % span) := by
  have mirrored : minimum = -maximum := rfl
  rw [mirrored, Int.neg_tmod, Int.tmod_eq_emod_of_nonneg (by decide)]

-- No array starts at the lowest or the highest tick index: eight divides every span and neither of the two.
theorem maximum_emod_pos {spacing : Nat} (spaced : 0 < spacing) : 0 < maximum % (TickArray.span spacing) := by
  have wide : (TickArray.span spacing : Int) ≠ 0 :=
    Int.natCast_ne_zero.mpr (Nat.ne_of_gt (TickArray.span_pos spaced))
  refine lt_of_le_of_ne (Int.emod_nonneg _ wide) fun zero => ?_
  have eight : (8 : Int) ∣ TickArray.span spacing := by
    rw [TickArray.span_eq]
    exact Dvd.dvd.mul_left (by decide) _
  exact absurd (eight.trans (Int.dvd_of_emod_eq_zero zero.symm)) (by decide)

end TickIndex

structure Houses (start : Int) (span : Nat) (u : Int) : Prop where
  aligned : (span : Int) ∣ start
  least : start ≤ u
  most : u < start + span

theorem houses_iff {start u : Int} {span : Nat} (wide : 0 < span) : Houses start span u ↔ start = u / span * span := by
  constructor
  · rintro ⟨⟨m, rfl⟩, least, most⟩
    rw [Int.mul_comm] at least most
    have number : u / span = m := (Int.ediv_eq_iff_of_pos (by omega)).mpr ⟨least, most⟩
    rw [number, Int.mul_comm]
  · rintro rfl
    have next := Int.lt_ediv_add_one_mul_self u (show (0 : Int) < span by omega)
    rw [Int.add_mul, Int.one_mul] at next
    exact ⟨Int.dvd_mul_left _ _, Int.ediv_mul_le _ (by omega), next⟩

section Start

variable {spacing : Nat} (spaced : 0 < spacing)

include spaced

theorem lowest_le_iff (m : Int) :
    TickIndex.minimum - (TickIndex.minimum.tmod (TickArray.span spacing) + TickArray.span spacing) ≤
        m * TickArray.span spacing ↔
      TickIndex.minimum < m * TickArray.span spacing + TickArray.span spacing := by
  have wide : (0 : Int) < TickArray.span spacing := by
    exact_mod_cast TickArray.span_pos spaced
  have positive := TickIndex.maximum_emod_pos spaced
  have below := Int.emod_lt_of_pos TickIndex.maximum wide
  have whole := Int.mul_ediv_add_emod TickIndex.maximum (TickArray.span spacing)
  have mirrored : TickIndex.minimum = -TickIndex.maximum := rfl
  rw [TickIndex.minimum_tmod, mirrored]
  generalize TickIndex.maximum % (TickArray.span spacing : Int) = rest at *
  generalize TickIndex.maximum / (TickArray.span spacing : Int) = number at *
  generalize (TickArray.span spacing : Int) = span at *
  have next : span * (m + 1) = m * span + span := by ring
  have mirror : span * -number = -(span * number) := by ring
  constructor
  · intro least
    omega
  · intro reached
    -- The numbers of the arrays are compared first: between the lowest array and the next there is no other.
    have before : span * (-number - 1) = -(span * number) - span := by ring
    have less : -number - 1 < m + 1 :=
      lt_of_mul_lt_mul_left (show span * (-number - 1) < span * (m + 1) by omega) (le_of_lt wide)
    have scaled := Int.mul_le_mul_of_nonneg_left (show -number ≤ m + 1 by omega) (le_of_lt wide)
    omega

variable {t offset : Int}

theorem array_start_ok (overlaps : TickIndex.Overlaps ((t / TickArray.span spacing + offset) * TickArray.span spacing)
    (TickArray.span spacing)) :
    arrayStart t spacing offset = .ok ((t / TickArray.span spacing + offset) * TickArray.span spacing) := by
  obtain ⟨most, least⟩ := (TickIndex.overlaps_iff (TickArray.span_pos spaced)).mp overlaps
  refine (if_neg (Nat.ne_of_gt spaced)).trans (if_neg ?_)
  exact not_or.mpr ⟨not_lt.mpr ((lowest_le_iff spaced _).mpr least), not_lt.mpr most⟩

theorem array_start_error (off : ¬ TickIndex.Overlaps ((t / TickArray.span spacing + offset) * TickArray.span spacing)
    (TickArray.span spacing)) : ∃ u, arrayStart t spacing offset = .error (.invalidTickIndex u) := by
  refine ⟨_, (if_neg (Nat.ne_of_gt spaced)).trans (if_pos ?_)⟩
  rw [TickIndex.overlaps_iff (TickArray.span_pos spaced), ← lowest_le_iff spaced, not_and_or, not_le, not_le] at off
  exact off.symm

end Start

-- Starts of arrays from one on, each a span after the other along the trade: `n` of them, or as many as there are
-- before the first one that is out of range.
inductive IsRun (d : Direction) (span : Nat) : Nat → Int → List Int → Prop
  | full (start : Int) : IsRun d span 0 start []
  | edge (n : Nat) (start : Int) (off : ¬ TickIndex.Overlaps start span) : IsRun d span (n + 1) start []
  | next (n : Nat) (start : Int) (starts : List Int) (overlaps : TickIndex.Overlaps start span)
      (rest : IsRun d span n (d.along start span) starts) : IsRun d span (n + 1) start (start :: starts)

namespace IsRun

variable {d : Direction} {span n : Nat} {start : Int} {starts : List Int} (run : IsRun d span n start starts)

include run

theorem length_le : starts.length ≤ n := by
  induction run with
  | full | edge => exact Nat.zero_le _
  | next _ _ _ _ _ ih => exact Nat.succ_le_succ ih

theorem get {i : Nat} {u : Int} (found : starts[i]? = some u) : u = d.along start (i * span) := by
  induction run generalizing i with
  | full | edge => cases found
  | next n start starts _ _ ih =>
      cases i with
      | zero =>
          cases Option.some.inj found
          rw [Nat.cast_zero, Int.zero_mul, Direction.along_zero]
      | succ i =>
          rw [ih found, Direction.along_along]
          congr 1
          push_cast
          ring

theorem not_overlaps_of_short (short : starts.length < n) :
    ¬ TickIndex.Overlaps (d.along start (starts.length * span)) span := by
  induction run with
  | full => cases short
  | edge _ _ off =>
      rw [List.length_nil, Nat.cast_zero, Int.zero_mul, Direction.along_zero]
      exact off
  | next n start starts _ _ ih =>
      have further := ih (Nat.lt_of_succ_lt_succ short)
      rw [Direction.along_along] at further
      have count : (span : Int) + starts.length * span = (start :: starts).length * span := by
        rw [List.length_cons]
        push_cast
        ring
      rwa [count] at further

theorem nil_iff (some : 0 < n) : starts = [] ↔ ¬ TickIndex.Overlaps start span := by
  cases run with
  | full => cases some
  | edge _ _ off => exact iff_of_true rfl off
  | next _ _ _ overlaps => exact iff_of_false (List.cons_ne_nil _ _) (not_not.mpr overlaps)

end IsRun

def leading {ε α : Type} (results : List (Except ε α)) : List α :=
  ((results.map Except.toOption).takeWhile Option.isSome).filterMap id

theorem array_starts_nil {d : Direction} {spacing : Nat} {t : Int}
    (overflow : ¬ Signed.Holds 32 (searchEntry d spacing t)) : arrayStarts t spacing d = [] :=
  if_pos overflow

section Starts

variable {d : Direction} {spacing : Nat} {t : Int} (spaced : 0 < spacing)

include spaced

theorem leading_run (sign : Int) (forward : ∀ x m : Int, d.along x m = x + sign * m) (n k : Nat) :
    IsRun d (TickArray.span spacing) n (d.along (t / TickArray.span spacing) k * TickArray.span spacing)
      (leading ((List.range' k n).map fun k : Nat => arrayStart t spacing (sign * k))) := by
  induction n generalizing k with
  | zero => exact .full _
  | succ n ih =>
      rw [List.range'_succ, List.map_cons, forward]
      by_cases overlaps : TickIndex.Overlaps ((t / TickArray.span spacing + sign * k) * TickArray.span spacing)
        (TickArray.span spacing)
      · rw [array_start_ok spaced overlaps]
        refine .next _ _ _ overlaps ?_
        have further := ih (k + 1)
        rw [Nat.cast_succ, ← Direction.along_along, ← Direction.along_mul, Int.one_mul, forward _ k] at further
        exact further
      · obtain ⟨_, fails⟩ := array_start_error spaced overlaps
        rw [fails]
        exact .edge _ _ overlaps

theorem array_starts_run (held : Signed.Holds 32 (searchEntry d spacing t)) :
    IsRun d (TickArray.span spacing) maxArrays
      (searchEntry d spacing t / TickArray.span spacing * TickArray.span spacing) (arrayStarts t spacing d) := by
  have run (sign : Int) (forward : ∀ x m : Int, d.along x m = x + sign * m) :=
    leading_run (t := searchEntry d spacing t) spaced sign forward maxArrays 0
  rw [Nat.cast_zero, Direction.along_zero] at run
  unfold arrayStarts
  rw [if_neg (not_not.mpr held), List.range_eq_range']
  cases d with
  | aToB => exact run (-1) fun x m => by simp only [Direction.along]; omega
  | bToA => exact run 1 fun x m => by simp only [Direction.along]; omega

theorem array_starts_length_le : (arrayStarts t spacing d).length ≤ maxArrays := by
  by_cases held : Signed.Holds 32 (searchEntry d spacing t)
  · exact (array_starts_run spaced held).length_le
  · rw [array_starts_nil held]
    exact Nat.zero_le _

theorem array_starts_nil_iff : arrayStarts t spacing d = [] ↔ ¬ Signed.Holds 32 (searchEntry d spacing t) ∨
    ∃ home, Houses home (TickArray.span spacing) (searchEntry d spacing t) ∧
      ¬ TickIndex.Overlaps home (TickArray.span spacing) := by
  have wide := TickArray.span_pos spaced
  by_cases held : Signed.Holds 32 (searchEntry d spacing t)
  · rw [(array_starts_run spaced held).nil_iff (by decide)]
    constructor
    · exact fun off => .inr ⟨_, (houses_iff wide).mpr rfl, off⟩
    · rintro (overflow | ⟨home, houses, off⟩)
      · exact absurd held overflow
      · rw [(houses_iff wide).mp houses] at off
        exact off
  · exact iff_of_true (array_starts_nil held) (.inl held)

section Listed

variable {i : Nat} {u : Int} (listed : (arrayStarts t spacing d)[i]? = some u)

include listed

theorem array_starts_run_of_listed : IsRun d (TickArray.span spacing) maxArrays
    (searchEntry d spacing t / TickArray.span spacing * TickArray.span spacing) (arrayStarts t spacing d) := by
  by_cases held : Signed.Holds 32 (searchEntry d spacing t)
  · exact array_starts_run spaced held
  · rw [array_starts_nil held] at listed
    cases listed

theorem array_starts_next {v : Int} (next : (arrayStarts t spacing d)[i + 1]? = some v) :
    v = d.along u (TickArray.span spacing) := by
  have run := array_starts_run_of_listed spaced listed
  rw [run.get next, run.get listed, Direction.along_along, Nat.cast_succ, Int.add_mul, Int.one_mul]

end Listed

theorem array_starts_head {first : Int} (begins : (arrayStarts t spacing d).head? = some first) :
    Houses first (TickArray.span spacing) (searchEntry d spacing t) := by
  rw [List.head?_eq_getElem?] at begins
  have home := (array_starts_run_of_listed spaced begins).get begins
  rw [Nat.cast_zero, Int.zero_mul, Direction.along_zero] at home
  exact (houses_iff (TickArray.span_pos spaced)).mpr home

theorem array_starts_short {last : Int} (ends : (arrayStarts t spacing d).getLast? = some last)
    (short : (arrayStarts t spacing d).length < maxArrays) :
    ¬ TickIndex.Overlaps (d.along last (TickArray.span spacing)) (TickArray.span spacing) := by
  rw [List.getLast?_eq_getElem?] at ends
  have run := array_starts_run_of_listed spaced ends
  have off := run.not_overlaps_of_short short
  have some := (List.getElem?_eq_some_iff.mp ends).1
  rw [run.get ends, Direction.along_along]
  have count : ((arrayStarts t spacing d).length - 1 : Nat) * (TickArray.span spacing : Int) + TickArray.span spacing =
      (arrayStarts t spacing d).length * TickArray.span spacing := by
    rw [Nat.cast_sub (by omega)]
    push_cast
    ring
  rwa [count]

end Starts

structure TickArray.IsFullAt (array : TickArray) (start : Int) : Prop where
  start : array.start.toInt = start
  full : array.ticks.length = ticksPerArray

-- Slots that are empty or hold full arrays that start where they should.
def Follow (slots : List Slot) (starts : List Int) : Prop :=
  ∀ (i : Nat) (slot : Slot), slots[i]? = some slot →
    ∃ start, starts[i]? = some start ∧ ∀ array, slot.data = some array → array.IsFullAt start

theorem Follow.length_le {slots : List Slot} {starts : List Int} (follow : Follow slots starts) :
    slots.length ≤ starts.length := by
  by_contra longer
  obtain ⟨start, listed, _⟩ := follow starts.length _ (List.getElem?_eq_getElem (not_le.mp longer))
  exact Nat.lt_irrefl _ (List.getElem?_eq_some_iff.mp listed).1

namespace Window

theorem present_arrays_get {slots : List Slot} {place : Nat} {array : TickArray}
    (found : (presentArrays slots)[place]? = some array) :
    ∃ slot, slots[place]? = some slot ∧ slot.data = some array := by
  induction slots generalizing place with
  | nil => cases found
  | cons slot rest ih =>
      obtain ⟨address, data⟩ := slot
      cases data with
      | none => cases found
      | some first =>
          cases place with
          | zero => exact ⟨_, rfl, found⟩
          | succ place => exact ih found

theorem arrays_of_first {slots : List Slot} {spacing : BitVec 16} {d : Direction} {slot : Slot} {array : TickArray}
    (first : slots.head? = some slot) (data : slot.data = some array) : arrays ⟨slots, spacing, d⟩ ≠ [] := by
  cases slots with
  | nil => cases first
  | cons head rest =>
      cases Option.some.inj first
      obtain ⟨address, held⟩ := slot
      cases data
      exact List.cons_ne_nil _ _

theorem of_slots_absent {slots : List Slot} {spacing : BitVec 16} {d : Direction} (spaced : 0 < spacing.toNat)
    (few : slots.length ≤ maxArrays) (absent : arrays ⟨slots, spacing, d⟩ = []) :
    ofSlots slots spacing d = .error (.tickArrayAbsent 0) := by
  have positive : spacing ≠ 0 := by
    rintro rfl
    exact Nat.lt_irrefl 0 spaced
  unfold ofSlots
  simp only
  rw [if_neg positive, if_neg (not_lt.mpr few), absent]
  rfl

section Follow

variable {slots : List Slot} {spacing : BitVec 16} {d : Direction} {home : Int} {starts : List Int}
  (run : IsRun d (TickArray.span spacing.toNat) maxArrays home starts) (follow : Follow slots starts)

include run follow

theorem full_of_follow {place : Nat} {array : TickArray} (found : (arrays ⟨slots, spacing, d⟩)[place]? = some array) :
    array.IsFullAt (d.along home (place * TickArray.span spacing.toNat)) := by
  obtain ⟨slot, listed, data⟩ := present_arrays_get found
  obtain ⟨start, starting, holds⟩ := follow place slot listed
  rw [← run.get starting]
  exact holds array data

theorem first_start_of_follow {first : TickArray} {rest : List TickArray}
    (present : arrays ⟨slots, spacing, d⟩ = first :: rest) : first.start.toInt = home := by
  have start := (full_of_follow run follow (show _[0]? = some first by rw [present]; rfl)).start
  rwa [Nat.cast_zero, Int.zero_mul, Direction.along_zero] at start

theorem accepted_of_follow (spaced : 0 < spacing.toNat) (aligned : (TickArray.span spacing.toNat : Int) ∣ home) :
    IsAccepted ⟨slots, spacing, d⟩ := by
  refine ⟨spaced, ?_, fun array member => ?_, fun place array found => ?_⟩
  · exact le_trans (present_arrays_length slots) (le_trans follow.length_le run.length_le)
  · obtain ⟨place, found⟩ := List.mem_iff_getElem?.mp member
    exact (full_of_follow run follow found).full
  · obtain ⟨first, rest, present⟩ := List.exists_cons_of_ne_nil (List.ne_nil_of_mem (List.mem_of_getElem? found))
    have start := first_start_of_follow run follow present
    have number := first_array_start present (Int.emod_eq_zero_of_dvd (start ▸ aligned))
    rw [(full_of_follow run follow found).start, ← start, number]
    exact Direction.along_mul _ _ _ _

theorem starts_at_of_follow {t : Int} (held : Signed.Holds 32 (searchEntry d spacing.toNat t))
    (houses : Houses home (TickArray.span spacing.toNat) (searchEntry d spacing.toNat t))
    (present : arrays ⟨slots, spacing, d⟩ ≠ []) : StartsAt ⟨slots, spacing, d⟩ t := by
  obtain ⟨first, rest, arrays⟩ := List.exists_cons_of_ne_nil present
  rw [← first_start_of_follow run follow arrays] at houses
  exact ⟨held, first, by rw [arrays]; rfl, houses.least, houses.most⟩

end Follow

theorem of_slots_of_follow {slots : List Slot} {spacing : BitVec 16} {d : Direction} {t : Int}
    (spaced : 0 < spacing.toNat) (follow : Follow slots (arrayStarts t spacing.toNat d))
    (present : arrays ⟨slots, spacing, d⟩ ≠ []) :
    ofSlots slots spacing d = .ok ⟨slots, spacing, d⟩ ∧ StartsAt ⟨slots, spacing, d⟩ t := by
  have few := le_trans follow.length_le (array_starts_length_le spaced)
  by_cases held : Signed.Holds 32 (searchEntry d spacing.toNat t)
  · have run := array_starts_run spaced held
    have houses := (houses_iff (TickArray.span_pos spaced)).mpr (Eq.refl (searchEntry d spacing.toNat t / _ * _))
    exact ⟨of_slots_of_accepted (accepted_of_follow run follow spaced houses.aligned) few present,
      starts_at_of_follow run follow held houses present⟩
  · rw [array_starts_nil held] at follow
    have none : slots = [] := List.length_eq_zero_iff.mp (Nat.le_zero.mp follow.length_le)
    rw [none] at present
    exact absurd rfl present

end Window

end PoolQuote
