import PoolQuote.Window
import PoolQuote.Proofs.Direction
import PoolQuote.Proofs.Outcome
import Mathlib.Algebra.Order.Ring.Int
import Mathlib.Tactic.Ring

/-!
What a search through a window finds. The slots of a window are numbered from zero in the order in
which the trade meets them, which turns a search into a search along the natural numbers.
-/

set_option autoImplicit false

namespace PoolQuote

theorem TickArray.span_pos {spacing : Nat} (spaced : 0 < spacing) : 0 < span spacing :=
  Nat.mul_pos spaced (by decide)

theorem TickArray.div_span (spacing : Nat) (u : Int) : u / span spacing = u / spacing / ticksPerArray := by
  rw [span, Nat.cast_mul, ← Int.ediv_ediv_of_nonneg (Int.natCast_nonneg _)]

namespace TickPosition

def ofNumber (m : Int) : TickPosition :=
  ⟨m / ticksPerArray, m % ticksPerArray⟩

theorem of_tick_eq {spacing : Nat} (positive : spacing ≠ 0) (t : Int) :
    ofTick spacing t = .ok (ofNumber (t / spacing)) := by
  have offset : t % (spacing * ticksPerArray : Nat) / spacing = t / spacing % ticksPerArray := by
    have spaced : (spacing : Int) ≠ 0 := by omega
    rw [Int.emod_def, Int.emod_def, Nat.cast_mul, ← Int.ediv_ediv_of_nonneg (Int.natCast_nonneg spacing), mul_assoc,
      Int.sub_mul_ediv_left _ _ spaced]
  rw [ofTick, orAbort, if_pos positive, offset]
  rfl

theorem of_tick_ok {spacing : Nat} {t : Int} {position : TickPosition} (ok : ofTick spacing t = .ok position) :
    position = ofNumber (t / spacing) := by
  rw [of_tick_eq (or_abort_ok ok).1 t] at ok
  exact (Except.ok.inj ok).symm

theorem to_tick_ok {spacing : Nat} {m t : Int} (ok : (ofNumber m).toTick spacing = .ok t) : t = m * spacing := by
  obtain ⟨first, readFirst, ok⟩ := bind_ok ok
  obtain ⟨place, readPlace, ok⟩ := bind_ok ok
  have number : place = m := by
    rw [(or_abort_ok readPlace).2, (or_abort_ok readFirst).2]
    simp only [ofNumber, ticksPerArray]
    omega
  rw [(or_abort_ok ok).2, number]

theorem next_ok {d : Direction} {spacing : Nat} {m : Int} {position : TickPosition}
    (ok : (ofNumber m).next d spacing = .ok position) : position = ofNumber (d.along m 1) := by
  obtain ⟨t, readTick, ok⟩ := bind_ok ok
  obtain ⟨u, readNext, ok⟩ := bind_ok ok
  have positive : (spacing : Int) ≠ 0 := by
    have nonzero := (or_abort_ok ok).1
    omega
  rw [of_tick_ok ok, (or_abort_ok readNext).2, to_tick_ok readTick]
  cases d with
  | aToB =>
      have moved : m * spacing - spacing = (m - 1) * spacing := by ring
      rw [moved, Int.mul_ediv_cancel _ positive]
      rfl
  | bToA =>
      have moved : m * spacing + spacing = (m + 1) * spacing := by ring
      rw [moved, Int.mul_ediv_cancel _ positive]
      rfl

end TickPosition

namespace Window

-- A tick of a window with its index, initialized or not.
def Stores (w : Window) (t : Int) (tick : Tick) : Prop :=
  ∃ array ∈ w.arrays, ∃ k : Nat, array.ticks[k]? = some tick ∧ t = array.start.toInt + k * w.spacingNat

-- What the checks on a sequence of arrays establish.
structure IsAccepted (w : Window) : Prop where
  spaced : 0 < w.spacingNat
  few : w.arrays.length ≤ maxArrays
  full : ∀ array ∈ w.arrays, array.ticks.length = ticksPerArray
  placed : ∀ (place : Nat) (array : TickArray), w.arrays[place]? = some array →
    array.start.toInt = w.direction.along w.firstArray place * w.span

theorem present_arrays_length (slots : List Slot) : (presentArrays slots).length ≤ slots.length := by
  induction slots with
  | nil => exact le_refl 0
  | cons slot rest ih =>
      obtain ⟨address, data⟩ := slot
      cases data with
      | none => exact Nat.zero_le _
      | some array => exact Nat.succ_le_succ ih

theorem shapes_ok {span index : Nat} {arrays : List TickArray} (ok : checkShapes span index arrays = .ok ()) :
    ∀ array ∈ arrays, array.ticks.length = ticksPerArray ∧ array.start.toInt % span = 0 := by
  induction arrays generalizing index with
  | nil => simp
  | cons array arrays ih =>
      unfold checkShapes at ok
      split at ok
      · cases ok
      · rename_i full
        split at ok
        · cases ok
        · rename_i aligned
          intro other member
          rcases List.mem_cons.mp member with rfl | rest
          · exact ⟨not_not.mp full, not_not.mp aligned⟩
          · exact ih ok other rest

theorem contiguous_ok {d : Direction} {span index : Nat} {start : Int} {arrays : List TickArray}
    (ok : checkContiguous d span index start arrays = .ok ()) (place : Nat) (array : TickArray)
    (found : arrays[place]? = some array) : array.start.toInt = d.along start ((place + 1) * span) := by
  induction arrays generalizing index start place with
  | nil => simp at found
  | cons head arrays ih =>
      change (if head.start.toInt ≠ d.along start span then _ else checkContiguous d span (index + 1) _ arrays) = _ at ok
      split at ok
      · cases ok
      · rename_i expected
        have next : head.start.toInt = d.along start span := not_not.mp expected
        cases place with
        | zero =>
            have same : head = array := Option.some.inj found
            rw [← same, next]
            simp
        | succ place =>
            rw [ih ok place found, next, Direction.along_along]
            congr 1
            push_cast
            ring

theorem first_array_start {w : Window} {first : TickArray} {rest : List TickArray} (arrays : w.arrays = first :: rest)
    (aligned : first.start.toInt % w.span = 0) : first.start.toInt = w.firstArray * w.span := by
  have number : w.firstArray = first.start.toInt / w.spacingNat / ticksPerArray := by rw [firstArray, arrays]
  rw [number, Int.ediv_ediv_of_nonneg (Int.natCast_nonneg _)]
  exact (Int.ediv_mul_cancel (Int.dvd_of_emod_eq_zero aligned)).symm

theorem placed_of_contiguous {w : Window} {first : TickArray} {rest : List TickArray} {index : Nat}
    (arrays : w.arrays = first :: rest) (start : first.start.toInt = w.firstArray * w.span)
    (contiguous : checkContiguous w.direction w.span index first.start.toInt rest = .ok ()) (place : Nat)
    (array : TickArray) (found : w.arrays[place]? = some array) :
    array.start.toInt = w.direction.along w.firstArray place * w.span := by
  rw [arrays] at found
  cases place with
  | zero =>
      have same : first = array := Option.some.inj found
      rw [← same, start, Nat.cast_zero, Direction.along_zero]
  | succ place =>
      rw [contiguous_ok contiguous place array found, start, Direction.along_mul, Nat.cast_succ]

theorem of_slots_ok {slots : List Slot} {spacing : BitVec 16} {d : Direction} {w : Window}
    (ok : ofSlots slots spacing d = .ok w) : w = ⟨slots, spacing, d⟩ ∧ w.IsAccepted := by
  unfold ofSlots at ok
  simp only at ok
  split at ok
  · cases ok
  · rename_i spaced
    split at ok
    · cases ok
    · rename_i few
      cases arrays : arrays ⟨slots, spacing, d⟩ with
      | nil =>
          rw [arrays] at ok
          cases ok
      | cons first rest =>
          rw [arrays] at ok
          obtain ⟨_, shapes, ok⟩ := bind_ok ok
          obtain ⟨_, contiguous, ok⟩ := bind_ok ok
          have same : ⟨slots, spacing, d⟩ = w := Except.ok.inj ok
          subst same
          refine ⟨rfl, ?_, ?_, ?_, ?_⟩
          · exact Nat.pos_of_ne_zero fun zero => spaced (BitVec.eq_of_toNat_eq zero)
          · exact le_trans (present_arrays_length slots) (not_lt.mp few)
          · rw [arrays]
            exact fun array member => (shapes_ok shapes array member).1
          · have aligned := (shapes_ok shapes first List.mem_cons_self).2
            exact placed_of_contiguous arrays (first_array_start arrays aligned) contiguous

theorem shapes_of_full {span index : Nat} {arrays : List TickArray}
    (shaped : ∀ array ∈ arrays, array.ticks.length = ticksPerArray ∧ array.start.toInt % span = 0) :
    checkShapes span index arrays = .ok () := by
  induction arrays generalizing index with
  | nil => rfl
  | cons array arrays ih =>
      obtain ⟨full, aligned⟩ := shaped array List.mem_cons_self
      unfold checkShapes
      rw [if_neg (not_not.mpr full), if_neg (not_not.mpr aligned)]
      exact ih fun other member => shaped other (List.mem_cons_of_mem _ member)

theorem contiguous_of_placed {d : Direction} {span index : Nat} {start : Int} {arrays : List TickArray}
    (placed : ∀ (place : Nat) (array : TickArray), arrays[place]? = some array →
      array.start.toInt = d.along start ((place + 1) * span)) :
    checkContiguous d span index start arrays = .ok () := by
  induction arrays generalizing index start with
  | nil => rfl
  | cons head arrays ih =>
      have next : head.start.toInt = d.along start span := by
        rw [placed 0 head rfl]
        simp
      change (if head.start.toInt ≠ d.along start span then _ else checkContiguous d span (index + 1) _ arrays) = _
      rw [if_neg (not_not.mpr next)]
      refine ih fun place array found => ?_
      rw [placed (place + 1) array found, next, Direction.along_along]
      congr 1
      push_cast
      ring

theorem of_slots_of_accepted {slots : List Slot} {spacing : BitVec 16} {d : Direction}
    (accepted : IsAccepted ⟨slots, spacing, d⟩) (few : slots.length ≤ maxArrays)
    (some : arrays ⟨slots, spacing, d⟩ ≠ []) : ofSlots slots spacing d = .ok ⟨slots, spacing, d⟩ := by
  have spaced : spacing ≠ 0 := by
    rintro rfl
    exact Nat.lt_irrefl 0 accepted.spaced
  obtain ⟨first, rest, present⟩ := List.exists_cons_of_ne_nil some
  have placed := accepted.placed
  have shaped : ∀ array ∈ first :: rest, array.ticks.length = ticksPerArray ∧
      array.start.toInt % span ⟨slots, spacing, d⟩ = 0 := by
    rw [← present]
    intro array member
    obtain ⟨place, found⟩ := List.mem_iff_getElem?.mp member
    refine ⟨accepted.full array member, ?_⟩
    rw [placed place array found]
    exact Int.mul_emod_left _ _
  rw [present] at placed
  have start := placed 0 first rfl
  rw [Nat.cast_zero, Direction.along_zero] at start
  have contiguous : checkContiguous d (span ⟨slots, spacing, d⟩) 1 first.start.toInt rest = .ok () := by
    refine contiguous_of_placed fun place array found => ?_
    rw [placed (place + 1) array found, start, Direction.along_mul, Nat.cast_succ]
  unfold ofSlots
  simp only
  rw [if_neg spaced, if_neg (not_lt.mpr few), present]
  exact bind_of_ok (shapes_of_full shaped) (bind_of_ok contiguous rfl)

theorem of_slots_few {slots : List Slot} {spacing : BitVec 16} {d : Direction} {w : Window}
    (ok : ofSlots slots spacing d = .ok w) : slots.length ≤ maxArrays := by
  obtain ⟨_, ok⟩ := guard_ok ok
  obtain ⟨few, _⟩ := guard_ok ok
  exact not_lt.mp few

theorem of_slots_present {slots : List Slot} {spacing : BitVec 16} {d : Direction} {w : Window}
    (ok : ofSlots slots spacing d = .ok w) : w.arrays ≠ [] := by
  obtain ⟨rfl, _⟩ := of_slots_ok ok
  obtain ⟨_, ok⟩ := guard_ok ok
  obtain ⟨_, ok⟩ := guard_ok ok
  intro absent
  rw [absent] at ok
  cases ok

def opening (w : Window) : Int :=
  match w.direction with
  | .aToB => w.firstArray * ticksPerArray + (ticksPerArray - 1)
  | .bToA => w.firstArray * ticksPerArray

-- The number of the position that a trade meets after `n` others.
def slotAt (w : Window) (n : Nat) : Int :=
  w.direction.along w.opening n

def held (w : Window) (n : Nat) : Option Tick :=
  (w.arrays[n / ticksPerArray]?).bind fun array => array.ticks[(w.slotAt n % ticksPerArray).toNat]?

def size (w : Window) : Nat :=
  w.arrays.length * ticksPerArray

theorem slot_at_succ (w : Window) (n : Nat) : w.slotAt (n + 1) = w.direction.along (w.slotAt n) 1 :=
  (w.direction.along_along w.opening n 1).symm

theorem slot_at_array (w : Window) (n : Nat) :
    w.slotAt n / ticksPerArray = w.direction.along w.firstArray (n / ticksPerArray : Nat) := by
  unfold slotAt opening
  cases w.direction <;> simp only [Direction.along, ticksPerArray] <;> omega

theorem slot_at_eq (w : Window) (n : Nat) :
    w.slotAt n = w.direction.along w.firstArray (n / ticksPerArray : Nat) * ticksPerArray +
      (w.slotAt n % ticksPerArray).toNat := by
  rw [← slot_at_array, Int.toNat_of_nonneg (Int.emod_nonneg _ (by decide))]
  exact (Int.ediv_mul_add_emod _ _).symm

theorem exists_slot (w : Window) (place k : Nat) (inside : k < ticksPerArray) :
    ∃ n, n / ticksPerArray = place ∧ (w.slotAt n % ticksPerArray).toNat = k := by
  unfold slotAt opening
  simp only [ticksPerArray] at *
  cases w.direction with
  | aToB => exact ⟨place * 88 + (87 - k), by omega, by simp only [Direction.along]; omega⟩
  | bToA => exact ⟨place * 88 + k, by omega, by simp only [Direction.along]; omega⟩

theorem ahead_along (w : Window) (place : Nat) :
    w.ahead? (w.direction.along w.firstArray place) = if place < maxArrays then some place else none := by
  unfold ahead?
  cases w.direction with
  | aToB =>
      have distance : w.firstArray - (w.firstArray - place) = (place : Int) := by omega
      simp [Direction.along, distance]
  | bToA =>
      have distance : w.firstArray + place - w.firstArray = (place : Int) := by omega
      simp [Direction.along, distance]

theorem ahead_slot (w : Window) (n : Nat) :
    w.ahead? (w.slotAt n / ticksPerArray) = if n / ticksPerArray < maxArrays then some (n / ticksPerArray) else none := by
  rw [slot_at_array, ahead_along]

theorem div_span (w : Window) (u : Int) : u / w.span = u / w.spacingNat / ticksPerArray :=
  TickArray.div_span w.spacingNat u

theorem place_lt {w : Window} {n : Nat} (inside : n < w.size) : n / ticksPerArray < w.arrays.length := by
  apply Nat.div_lt_of_lt_mul
  rw [Nat.mul_comm]
  exact inside

theorem held_lt {w : Window} {n : Nat} {tick : Tick} (holds : w.held n = some tick) : n < w.size := by
  obtain ⟨array, found, record⟩ := Option.bind_eq_some_iff.mp holds
  have inside := (List.getElem?_eq_some_iff.mp found).1
  simp only [size, ticksPerArray] at *
  omega

def listed (w : Window) (array : TickArray) : List (Int × Tick) :=
  let indexed := array.ticks.zipIdx.map fun (tick, k) => (array.start.toInt + k * w.spacingNat, tick)
  match w.direction with
  | .aToB => indexed.reverse
  | .bToA => indexed

theorem initialized_ticks_eq (w : Window) :
    w.initializedTicks = (w.arrays.flatMap w.listed).filter fun entry => entry.2.initialized := by
  rw [List.filter_flatMap]
  rfl

theorem mem_listed_iff (w : Window) (array : TickArray) (t : Int) (tick : Tick) :
    (t, tick) ∈ w.listed array ↔ ∃ k : Nat, array.ticks[k]? = some tick ∧ t = array.start.toInt + k * w.spacingNat := by
  have indexed : (t, tick) ∈ w.listed array ↔
      (t, tick) ∈ array.ticks.zipIdx.map fun (tick, k) => (array.start.toInt + k * w.spacingNat, tick) := by
    unfold listed
    cases w.direction with
    | aToB => exact List.mem_reverse
    | bToA => exact Iff.rfl
  rw [indexed, List.mem_map]
  constructor
  · rintro ⟨⟨record, k⟩, member, same⟩
    cases same
    exact ⟨k, List.mem_zipIdx_iff_getElem?.mp member, rfl⟩
  · rintro ⟨k, found, rfl⟩
    exact ⟨(tick, k), List.mem_zipIdx_iff_getElem?.mpr found, rfl⟩

theorem mem_initialized_iff (w : Window) (t : Int) (tick : Tick) :
    (t, tick) ∈ w.initializedTicks ↔ w.Stores t tick ∧ tick.initialized := by
  rw [initialized_ticks_eq, List.mem_filter, List.mem_flatMap]
  simp only [mem_listed_iff, Stores]

section Accepted

variable {w : Window} (accepted : w.IsAccepted)

include accepted

theorem tick_index_eq {place k : Nat} {array : TickArray} (found : w.arrays[place]? = some array) :
    array.start.toInt + k * w.spacingNat =
      (w.direction.along w.firstArray place * ticksPerArray + k) * w.spacingNat := by
  rw [accepted.placed place array found, span, TickArray.span]
  push_cast
  ring

theorem span_pos : (0 : Int) < w.span := by
  exact_mod_cast TickArray.span_pos accepted.spaced

theorem contains_iff {place : Nat} {array : TickArray} (found : w.arrays[place]? = some array) (u : Int) :
    array.Contains u w.spacingNat ↔ u / w.span = w.direction.along w.firstArray place := by
  rw [Int.ediv_eq_iff_of_pos (span_pos accepted), ← accepted.placed place array found]
  exact Iff.rfl

theorem contains_iff_slot {place : Nat} {array : TickArray} (found : w.arrays[place]? = some array) (u : Int) :
    array.Contains u w.spacingNat ↔ ∃ n, n / ticksPerArray = place ∧ w.slotAt n = u / w.spacingNat := by
  rw [contains_iff accepted found, div_span]
  constructor
  · intro here
    obtain ⟨n, atPlace, offset⟩ := w.exists_slot place (u / w.spacingNat % ticksPerArray).toNat
      (by simp only [ticksPerArray]; omega)
    refine ⟨n, atPlace, ?_⟩
    rw [slot_at_eq, atPlace, offset, Int.toNat_of_nonneg (Int.emod_nonneg _ (by decide)), ← here]
    exact Int.ediv_mul_add_emod _ _
  · rintro ⟨n, rfl, here⟩
    rw [← here, slot_at_array]

theorem stores_iff (t : Int) (tick : Tick) :
    w.Stores t tick ↔ ∃ n, w.held n = some tick ∧ t = w.slotAt n * w.spacingNat := by
  constructor
  · rintro ⟨array, member, k, record, rfl⟩
    obtain ⟨place, found⟩ := List.mem_iff_getElem?.mp member
    have inside : k < ticksPerArray := by
      rw [← accepted.full array member]
      exact (List.getElem?_eq_some_iff.mp record).1
    obtain ⟨n, atPlace, offset⟩ := w.exists_slot place k inside
    refine ⟨n, ?_, ?_⟩
    · rw [held, atPlace, offset, found]
      exact record
    · rw [tick_index_eq accepted found, slot_at_eq w n, atPlace, offset]
  · rintro ⟨n, holds, rfl⟩
    obtain ⟨array, found, record⟩ := Option.bind_eq_some_iff.mp holds
    refine ⟨array, List.mem_iff_getElem?.mpr ⟨_, found⟩, _, record, ?_⟩
    rw [tick_index_eq accepted found, ← slot_at_eq]

theorem slot_leads_iff (m n : Nat) :
    w.direction.Leads (w.slotAt m * w.spacingNat) (w.slotAt n * w.spacingNat) ↔ m ≤ n := by
  have spaced : (0 : Int) < w.spacingNat := by exact_mod_cast accepted.spaced
  have ordered := Direction.leads_along_iff w.direction w.opening m n
  rw [Int.ofNat_le] at ordered
  rw [← ordered]
  unfold slotAt
  cases w.direction with
  | aToB => exact mul_le_mul_iff_of_pos_right spaced
  | bToA => exact mul_le_mul_iff_of_pos_right spaced

theorem stores_unique {t : Int} {tick other : Tick} (first : w.Stores t tick) (second : w.Stores t other) :
    tick = other := by
  obtain ⟨m, holdsM, rfl⟩ := (stores_iff accepted t tick).mp first
  obtain ⟨n, holdsN, same⟩ := (stores_iff accepted _ other).mp second
  have upward := (slot_leads_iff accepted m n).mp (by rw [same]; exact w.direction.leads_refl _)
  have downward := (slot_leads_iff accepted n m).mp (by rw [same]; exact w.direction.leads_refl _)
  rw [le_antisymm upward downward, holdsN] at holdsM
  exact (Option.some.inj holdsM).symm

theorem exists_held {n : Nat} (inside : n < w.size) : ∃ tick, w.held n = some tick := by
  have present : n / ticksPerArray < w.arrays.length := place_lt inside
  have full := accepted.full _ (List.getElem_mem present)
  have within : (w.slotAt n % ticksPerArray).toNat < (w.arrays[n / ticksPerArray]).ticks.length := by
    rw [full]
    simp only [ticksPerArray]
    omega
  refine ⟨(w.arrays[n / ticksPerArray]).ticks[(w.slotAt n % ticksPerArray).toNat], ?_⟩
  rw [held, List.getElem?_eq_getElem present]
  exact List.getElem?_eq_getElem within

theorem listed_ordered (array : TickArray) : (w.listed array).Pairwise fun x y => w.direction.Before x.1 y.1 := by
  have increasing : (array.ticks.zipIdx.map fun (tick, k) =>
      (array.start.toInt + k * w.spacingNat, tick)).Pairwise fun x y => x.1 < y.1 := by
    rw [List.pairwise_iff_getElem]
    intro i j first second less
    have scaled : (i : Int) * w.spacingNat < j * w.spacingNat :=
      Int.mul_lt_mul_of_pos_right (by omega) (by exact_mod_cast accepted.spaced)
    simp only [List.getElem_map, List.getElem_zipIdx, Nat.zero_add]
    omega
  unfold listed
  cases w.direction with
  | aToB => exact List.pairwise_reverse.mpr increasing
  | bToA => exact increasing

theorem index_before {first second : Nat} {array other : TickArray} (less : first < second)
    (found : w.arrays[first]? = some array) (next : w.arrays[second]? = some other) {x y : Int × Tick}
    (listedX : x ∈ w.listed array) (listedY : y ∈ w.listed other) : w.direction.Before x.1 y.1 := by
  obtain ⟨k, recordX, indexX⟩ := (mem_listed_iff w array x.1 x.2).mp listedX
  obtain ⟨l, recordY, indexY⟩ := (mem_listed_iff w other y.1 y.2).mp listedY
  have insideX := (List.getElem?_eq_some_iff.mp recordX).1
  have insideY := (List.getElem?_eq_some_iff.mp recordY).1
  rw [accepted.full _ (List.mem_of_getElem? found)] at insideX
  rw [accepted.full _ (List.mem_of_getElem? next)] at insideY
  rw [indexX, indexY, tick_index_eq accepted found, tick_index_eq accepted next]
  have spaced : (0 : Int) < w.spacingNat := by exact_mod_cast accepted.spaced
  simp only [ticksPerArray] at *
  cases w.direction with
  | aToB => exact Int.mul_lt_mul_of_pos_right (by simp only [Direction.along]; omega) spaced
  | bToA => exact Int.mul_lt_mul_of_pos_right (by simp only [Direction.along]; omega) spaced

theorem initialized_ticks_ordered : w.initializedTicks.Pairwise fun x y => w.direction.Before x.1 y.1 := by
  rw [initialized_ticks_eq]
  refine List.Pairwise.filter _ (List.pairwise_flatMap.mpr ⟨fun array _ => listed_ordered accepted array, ?_⟩)
  rw [List.pairwise_iff_getElem]
  intro i j first second less x listedX y listedY
  exact index_before accepted less (List.getElem?_eq_getElem first) (List.getElem?_eq_getElem second) listedX listedY

theorem initialized_ticks_length : w.initializedTicks.length ≤ maxArrays * ticksPerArray := by
  have each : ∀ array ∈ w.arrays, (w.listed array).length = ticksPerArray := by
    intro array member
    rw [← accepted.full array member]
    unfold listed
    cases w.direction <;> simp
  have all : (w.arrays.flatMap w.listed).length = w.arrays.length * ticksPerArray := by
    rw [List.length_flatMap, List.map_congr_left each, List.map_const', List.sum_replicate_nat]
  rw [initialized_ticks_eq]
  refine le_trans (List.length_filter_le _ _) ?_
  rw [all]
  exact Nat.mul_le_mul_right _ accepted.few

end Accepted

end Window

end PoolQuote
