import PoolQuote.Proofs.SwapPath

/-!
The lookup of a tick. An accepted window divides one interval of tick indices among its arrays, and the lookup, which
knows no start but that of the first array, answers with what the array there holds.
-/

set_option autoImplicit false

namespace PoolQuote

namespace Window

def Covers (w : Window) (place : Nat) (u : Int) : Prop :=
  ∃ array, w.arrays[place]? = some array ∧ array.Contains u w.spacingNat

-- The arrays of a window divide one interval of tick indices among them, in the order in which a trade meets them.
structure Tiles (w : Window) (low : Int) : Prop where
  whole : ∀ u, (∃ place, w.Covers place u) ↔
    low ≤ u ∧ u < low + ticksPerArray * w.spacingNat * w.arrays.length
  once : ∀ i j u, w.Covers i u → w.Covers j u → i = j
  ordered : ∀ i j u v, i < j → w.Covers i u → w.Covers j v → w.direction.Before u v

-- Whether the tick index `u` lies in the span at a place, counted from the first array, which need not be present.
def LiesAhead (w : Window) (place : Nat) (u : Int) : Prop :=
  ∃ first, w.arrays.head? = some first ∧ w.direction.along first.start.toInt (place * w.span) ≤ u ∧
    u < w.direction.along first.start.toInt (place * w.span) + w.span

-- What the lookup of the tick index `t` reads and answers.
inductive Resolves (w : Window) (t : Int) : Reading Tick → Prop
  | rough (off : ¬ (w.spacingNat : Int) ∣ t) : w.Resolves t ⟨[], .error (.error (.tickNotFound t w.spacingNat))⟩
  | stored (aligned : (w.spacingNat : Int) ∣ t) (place : Nat) (array : TickArray) (tick : Tick)
      (found : w.arrays[place]? = some array) (contains : array.Contains t w.spacingNat)
      (record : array.ticks[((t - array.start.toInt) / w.spacingNat).toNat]? = some tick) :
      w.Resolves t ⟨[place], .ok tick⟩
  | absent (aligned : (w.spacingNat : Int) ∣ t) (place : Nat) (missing : w.arrays.length ≤ place)
      (near : place < maxArrays) (lies : w.LiesAhead place t) :
      w.Resolves t ⟨[], .error (.error (.tickArrayAbsent place))⟩
  | outside (aligned : (w.spacingNat : Int) ∣ t) (away : ∀ place, place < maxArrays → ¬ w.LiesAhead place t) :
      w.Resolves t ⟨[], .error (.error (.invalidSequence (.tickOutside t)))⟩

namespace Resolves

variable {w : Window} {t : Int} {reading : Reading Tick} (resolves : w.Resolves t reading)

include resolves

theorem of_not_found {u : Int} {step : Nat} (fails : reading.outcome = .error (.error (.tickNotFound u step))) :
    ¬ (w.spacingNat : Int) ∣ t ∧ u = t ∧ step = w.spacingNat := by
  cases resolves with
  | rough off =>
      cases fails
      exact ⟨off, rfl, rfl⟩
  | stored | absent | outside => cases fails

theorem of_ok {tick : Tick} (ok : reading.outcome = .ok tick) : ∃ place, w.Covers place t := by
  cases resolves with
  | stored _ place array _ found contains => exact ⟨place, array, found, contains⟩
  | rough | absent | outside => cases ok

theorem of_absent {place : Nat} (fails : reading.outcome = .error (.error (.tickArrayAbsent place))) :
    w.arrays.length ≤ place ∧ place < maxArrays ∧ w.LiesAhead place t := by
  cases resolves with
  | absent _ _ missing near lies =>
      cases fails
      exact ⟨missing, near, lies⟩
  | rough | stored | outside => cases fails

theorem of_invalid {fault : SequenceFault} (fails : reading.outcome = .error (.error (.invalidSequence fault))) :
    fault = .tickOutside t ∧ ∀ place, place < maxArrays → ¬ w.LiesAhead place t := by
  cases resolves with
  | outside _ away =>
      cases fails
      exact ⟨rfl, away⟩
  | rough | stored | absent => cases fails

theorem of_error {failure : Failure} (fails : reading.outcome = .error failure) : reading.reads = [] := by
  cases resolves with
  | stored => cases fails
  | rough | absent | outside => rfl

end Resolves

theorem ahead_iff_along {w : Window} {array : Int} {place : Nat} :
    w.ahead? array = some place ↔ place < maxArrays ∧ array = w.direction.along w.firstArray place := by
  constructor
  · intro ahead
    obtain rfl := ahead_eq ahead
    rw [ahead_along] at ahead
    exact ⟨(Option.ite_none_right_eq_some.mp ahead).1, rfl⟩
  · rintro ⟨near, rfl⟩
    rw [ahead_along, if_pos near]

def lowestArray (w : Window) : Int :=
  match w.direction with
  | .aToB => w.firstArray - (w.arrays.length - 1)
  | .bToA => w.firstArray

theorem exists_place_iff (w : Window) (array : Int) :
    (∃ place, place < w.arrays.length ∧ array = w.direction.along w.firstArray (place : Nat)) ↔
      w.lowestArray ≤ array ∧ array < w.lowestArray + w.arrays.length := by
  unfold lowestArray
  cases w.direction with
  | aToB =>
      simp only [Direction.along]
      constructor
      · rintro ⟨place, present, rfl⟩
        omega
      · exact fun within => ⟨(w.firstArray - array).toNat, by omega, by omega⟩
  | bToA =>
      simp only [Direction.along]
      constructor
      · rintro ⟨place, present, rfl⟩
        omega
      · exact fun within => ⟨(array - w.firstArray).toNat, by omega, by omega⟩

theorem tick_rough {w : Window} {t : Int} (off : ¬ (w.spacingNat : Int) ∣ t) :
    w.tick t = ⟨[], .error (.error (.tickNotFound t w.spacingNat))⟩ :=
  if_pos fun aligned => off (Int.dvd_of_emod_eq_zero aligned)

section Accepted

variable {w : Window} (accepted : w.IsAccepted)

include accepted

theorem covers_iff {place : Nat} {u : Int} : w.Covers place u ↔
    place < w.arrays.length ∧ u / w.span = w.direction.along w.firstArray place := by
  constructor
  · rintro ⟨array, found, contains⟩
    exact ⟨(List.getElem?_eq_some_iff.mp found).1, (contains_iff accepted found u).mp contains⟩
  · rintro ⟨present, here⟩
    have found := List.getElem?_eq_getElem present
    exact ⟨_, found, (contains_iff accepted found u).mpr here⟩

theorem tiles : w.Tiles (w.lowestArray * w.span) := by
  have wide := span_pos accepted
  refine ⟨fun u => ?_, fun i j u first second => ?_, fun i j u v less first second => ?_⟩
  · have top : w.lowestArray * w.span + ticksPerArray * w.spacingNat * w.arrays.length =
        (w.lowestArray + w.arrays.length) * w.span := by
      rw [span, TickArray.span]
      push_cast
      ring
    rw [top, ← Int.le_ediv_iff_mul_le wide, ← Int.ediv_lt_iff_lt_mul wide, ← exists_place_iff]
    exact exists_congr fun place => covers_iff accepted
  · have same := ((covers_iff accepted).mp first).2.symm.trans ((covers_iff accepted).mp second).2
    cases direction : w.direction <;> simp only [direction, Direction.along] at same <;> omega
  · have here := ((covers_iff accepted).mp first).2
    have there := ((covers_iff accepted).mp second).2
    refine Direction.not_leads_iff.mp fun back => ?_
    have leads := Direction.leads_ediv wide back
    rw [here, there, Direction.leads_along_iff] at leads
    omega

theorem lies_ahead_iff (present : w.arrays ≠ []) {place : Nat} {u : Int} :
    w.LiesAhead place u ↔ u / w.span = w.direction.along w.firstArray place := by
  obtain ⟨first, rest, arrays⟩ := List.exists_cons_of_ne_nil present
  have start : first.start.toInt = w.firstArray * w.span := by
    rw [accepted.placed 0 first (by rw [arrays]; rfl), Nat.cast_zero, Direction.along_zero]
  rw [Int.ediv_eq_iff_of_pos (span_pos accepted), ← Direction.along_mul, ← start, LiesAhead, arrays]
  constructor
  · rintro ⟨_, same, within⟩
    cases Option.some.inj same
    exact within
  · exact fun within => ⟨first, rfl, within⟩

theorem ahead_none_iff (present : w.arrays ≠ []) {u : Int} :
    w.ahead? (u / w.span) = none ↔ ∀ place, place < maxArrays → ¬ w.LiesAhead place u := by
  rw [Option.eq_none_iff_forall_ne_some]
  refine forall_congr' fun place => ?_
  rw [ne_eq, ahead_iff_along, not_and, lies_ahead_iff accepted present]

theorem position_eq (t : Int) :
    TickPosition.ofTick w.spacingNat t = .ok ⟨t / w.span, t / w.spacingNat % ticksPerArray⟩ := by
  rw [TickPosition.of_tick_eq (Nat.ne_of_gt accepted.spaced), div_span]
  rfl

theorem offset_eq {place : Nat} {array : TickArray} {t : Int} (found : w.arrays[place]? = some array)
    (contains : array.Contains t w.spacingNat) :
    t / w.spacingNat % ticksPerArray = (t - array.start.toInt) / w.spacingNat := by
  have spaced : (w.spacingNat : Int) ≠ 0 := Int.natCast_ne_zero.mpr (Nat.ne_of_gt accepted.spaced)
  have start : array.start.toInt = w.spacingNat * (ticksPerArray * (t / w.spacingNat / ticksPerArray)) := by
    rw [accepted.placed place array found, ← (contains_iff accepted found t).mp contains, div_span, span,
      TickArray.span]
    push_cast
    ring
  rw [start, Int.sub_mul_ediv_left _ _ spaced, Int.emod_def]

theorem exists_record {place : Nat} {array : TickArray} {t : Int} (found : w.arrays[place]? = some array)
    (contains : array.Contains t w.spacingNat) :
    ∃ tick, array.ticks[((t - array.start.toInt) / w.spacingNat).toNat]? = some tick := by
  have full := accepted.full array (List.mem_of_getElem? found)
  refine ⟨_, List.getElem?_eq_getElem ?_⟩
  rw [full, ← offset_eq accepted found contains]
  simp only [ticksPerArray]
  omega

section Aligned

variable {t : Int} (aligned : (w.spacingNat : Int) ∣ t)

include aligned

theorem tick_stored {place : Nat} {array : TickArray} {tick : Tick} (found : w.arrays[place]? = some array)
    (contains : array.Contains t w.spacingNat)
    (record : array.ticks[((t - array.start.toInt) / w.spacingNat).toNat]? = some tick) :
    w.tick t = ⟨[place], .ok tick⟩ := by
  have present := (List.getElem?_eq_some_iff.mp found).1
  have reach : w.ahead? (t / w.span) = some place :=
    ahead_iff_along.mpr ⟨Nat.lt_of_lt_of_le present accepted.few, (contains_iff accepted found t).mp contains⟩
  have holds : w.tickAt? place (t / w.spacingNat % ticksPerArray) = some tick := by
    rw [tickAt?, if_neg (not_lt.mpr (Int.emod_nonneg _ (by decide))), found, offset_eq accepted found contains]
    exact record
  unfold Window.tick
  rw [if_neg (not_not.mpr (Int.emod_eq_zero_of_dvd aligned)), position_eq accepted]
  simp only [reach, if_neg (not_le.mpr present), holds]

theorem tick_absent {place : Nat} (reach : w.ahead? (t / w.span) = some place) (missing : w.arrays.length ≤ place) :
    w.tick t = ⟨[], .error (.error (.tickArrayAbsent place))⟩ := by
  unfold Window.tick
  rw [if_neg (not_not.mpr (Int.emod_eq_zero_of_dvd aligned)), position_eq accepted]
  simp only [reach, if_pos missing]

theorem tick_outside (away : w.ahead? (t / w.span) = none) :
    w.tick t = ⟨[], .error (.error (.invalidSequence (.tickOutside t)))⟩ := by
  unfold Window.tick
  rw [if_neg (not_not.mpr (Int.emod_eq_zero_of_dvd aligned)), position_eq accepted]
  simp only [away]

end Aligned

theorem tick_resolves (present : w.arrays ≠ []) (t : Int) : w.Resolves t (w.tick t) := by
  by_cases aligned : (w.spacingNat : Int) ∣ t
  · cases reach : w.ahead? (t / w.span) with
    | none =>
        rw [tick_outside accepted aligned reach]
        exact .outside aligned ((ahead_none_iff accepted present).mp reach)
    | some place =>
        obtain ⟨near, here⟩ := ahead_iff_along.mp reach
        rcases Nat.lt_or_ge place w.arrays.length with inside | missing
        · obtain ⟨array, found, contains⟩ := (covers_iff accepted).mpr ⟨inside, here⟩
          obtain ⟨tick, record⟩ := exists_record accepted found contains
          rw [tick_stored accepted aligned found contains record]
          exact .stored aligned place array tick found contains record
        · rw [tick_absent accepted aligned reach missing]
          exact .absent aligned place missing near ((lies_ahead_iff accepted present).mpr here)
  · rw [tick_rough aligned]
    exact .rough aligned

section Present

variable (present : w.arrays ≠ [])

include present

theorem covers_iff_lies_ahead {place : Nat} {u : Int} :
    w.Covers place u ↔ place < w.arrays.length ∧ w.LiesAhead place u := by
  rw [covers_iff accepted, lies_ahead_iff accepted present]

theorem tick_not_found_iff {t u : Int} {step : Nat} :
    (w.tick t).outcome = .error (.error (.tickNotFound u step)) ↔
      ¬ (w.spacingNat : Int) ∣ t ∧ u = t ∧ step = w.spacingNat := by
  refine ⟨(tick_resolves accepted present t).of_not_found, ?_⟩
  rintro ⟨off, rfl, rfl⟩
  rw [tick_rough off]

section Aligned

variable {t : Int} (aligned : (w.spacingNat : Int) ∣ t)

include aligned

theorem tick_ok_iff : (∃ tick, (w.tick t).outcome = .ok tick) ↔ ∃ place, w.Covers place t := by
  refine ⟨fun ⟨_, ok⟩ => (tick_resolves accepted present t).of_ok ok, ?_⟩
  rintro ⟨place, array, found, contains⟩
  obtain ⟨tick, record⟩ := exists_record accepted found contains
  exact ⟨tick, congrArg Reading.outcome (tick_stored accepted aligned found contains record)⟩

theorem tick_absent_iff {place : Nat} : (w.tick t).outcome = .error (.error (.tickArrayAbsent place)) ↔
    w.arrays.length ≤ place ∧ place < maxArrays ∧ w.LiesAhead place t := by
  refine ⟨(tick_resolves accepted present t).of_absent, ?_⟩
  rintro ⟨missing, near, lies⟩
  have reach := ahead_iff_along.mpr ⟨near, (lies_ahead_iff accepted present).mp lies⟩
  rw [tick_absent accepted aligned reach missing]

theorem tick_outside_iff {fault : SequenceFault} : (w.tick t).outcome = .error (.error (.invalidSequence fault)) ↔
    fault = .tickOutside t ∧ ∀ place, place < maxArrays → ¬ w.LiesAhead place t := by
  refine ⟨(tick_resolves accepted present t).of_invalid, ?_⟩
  rintro ⟨rfl, away⟩
  rw [tick_outside accepted aligned ((ahead_none_iff accepted present).mpr away)]

end Aligned

end Present

end Accepted

end Window

/-- Every tick index has its answer, also between the slots of an array and outside the window. -/
theorem lookup_resolves_window (slots : List Slot) (spacing : BitVec 16) (d : Direction) (w : Window) (t : Int)
    (journal : Journal) (made : Window.ofSlots slots spacing d = .ok w) :
    let reading := w.tick t
    let after := journal.note reading
    (∃ low, w.Tiles low) ∧
      (∀ u step, reading.outcome = .error (.error (.tickNotFound u step)) ↔
        ¬ (spacing.toNat : Int) ∣ t ∧ u = t ∧ step = spacing.toNat) ∧
      ((spacing.toNat : Int) ∣ t →
        ((∃ tick, reading.outcome = .ok tick) ↔ ∃ place, w.Covers place t) ∧
        (∀ place array, w.arrays[place]? = some array → array.Contains t spacing.toNat →
          ∃ tick, array.ticks[((t - array.start.toInt) / spacing.toNat).toNat]? = some tick ∧
            reading.outcome = .ok tick ∧ ∀ other, other ∈ after.reads ↔ other ∈ journal.reads ∨ other = place) ∧
        (∀ place, reading.outcome = .error (.error (.tickArrayAbsent place)) ↔
          w.arrays.length ≤ place ∧ place < maxArrays ∧ w.LiesAhead place t) ∧
        (∀ fault, reading.outcome = .error (.error (.invalidSequence fault)) ↔
          fault = .tickOutside t ∧ ∀ place, place < maxArrays → ¬ w.LiesAhead place t)) ∧
      (∀ place, w.Covers place t ↔ place < w.arrays.length ∧ w.LiesAhead place t) ∧
      after.crossings = journal.crossings ∧
      ((∃ failure, reading.outcome = .error failure) → after = journal) := by
  obtain ⟨rfl, accepted⟩ := Window.of_slots_ok made
  have present := Window.of_slots_present made
  refine ⟨⟨_, Window.tiles accepted⟩, fun u step => Window.tick_not_found_iff accepted present, ?_,
    fun place => Window.covers_iff_lies_ahead accepted present, rfl, ?_⟩
  · intro aligned
    refine ⟨Window.tick_ok_iff accepted present aligned, ?_, fun place => Window.tick_absent_iff accepted present aligned,
      fun fault => Window.tick_outside_iff accepted present aligned⟩
    intro place array found contains
    obtain ⟨tick, record⟩ := Window.exists_record accepted found contains
    have resolved := Window.tick_stored accepted aligned found contains record
    refine ⟨tick, record, congrArg Reading.outcome resolved, fun other => ?_⟩
    rw [Journal.note, resolved, List.mem_append, List.mem_singleton]
  · rintro ⟨failure, fails⟩
    rw [Journal.note, (Window.tick_resolves accepted present t).of_error fails, List.append_nil]

theorem lookup_resolves_window_sample :
    ((Sample.window .bToA).tick (-8)).outcome = .ok (Sample.tick (-100000) 200000) ∧
      (∀ place, place ∈ (Journal.blank.note ((Sample.window .bToA).tick (-8))).reads ↔ place = 0) ∧
      ((Sample.window .bToA).tick 88).outcome = .error (.error (.tickArrayAbsent 2)) := by
  obtain ⟨_, _, lookup, _⟩ := lookup_resolves_window (Sample.slots .bToA) 1 .bToA (Sample.window .bToA) (-8) .blank
    (Sample.accepted .bToA)
  obtain ⟨_, _, ahead, _⟩ := lookup_resolves_window (Sample.slots .bToA) 1 .bToA (Sample.window .bToA) 88 .blank
    (Sample.accepted .bToA)
  obtain ⟨_, stored, _⟩ := lookup (by decide)
  obtain ⟨tick, record, ok, reads⟩ := stored 0 _ rfl (by decide)
  obtain rfl : Sample.tick (-100000) 200000 = tick := Option.some.inj record
  refine ⟨ok, fun place => (reads place).trans (or_iff_right List.not_mem_nil), ?_⟩
  exact ((ahead (by decide)).2.2.1 2).mpr ⟨by decide, by decide, _, rfl, by decide⟩

end PoolQuote
