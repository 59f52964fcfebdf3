import PoolQuote.Proofs.Reads
import PoolQuote.Proofs.SearchRoom
import PoolQuote.Proofs.TickLookup

/-!
The contract of a search. In a window whose tick indices stay clear of the ends of their word, a search fails exactly
when it would start outside the window. Otherwise it answers with the nearest initialized tick, or with the end of the
window if none is left, and it has read the arrays on its way and no others.
-/

set_option autoImplicit false

namespace PoolQuote

namespace Window

-- Whether words of 32 bits hold two more arrays on either side of the tick index `u`.
def HasMargin (w : Window) (u : Int) : Prop :=
  Signed.Holds 32 (u - 2 * w.span) ∧ Signed.Holds 32 (u + 2 * w.span)

instance (w : Window) (u : Int) : Decidable (w.HasMargin u) :=
  inferInstanceAs (Decidable (_ ∧ _))

def farEnd (w : Window) (array : TickArray) : Int :=
  match w.direction with
  | .aToB => array.start.toInt
  | .bToA => array.start.toInt + w.span - 1

-- The initialized tick that a trade at the tick `t` meets first.
structure IsNearest (w : Window) (t r : Int) (tick : Tick) : Prop where
  stored : (r, tick) ∈ w.initializedTicks
  ahead : w.direction.Ahead t r
  first : ∀ entry ∈ w.initializedTicks, w.direction.Ahead t entry.1 → w.direction.Leads r entry.1

-- What a search from the tick `t` is to find, and the place of the array where it ends.
inductive Finds (w : Window) (t : Int) : Stop → Nat → Prop
  | tick (r : Int) (tick : Tick) (place : Nat) (nearest : w.IsNearest t r tick)
      (record : (w.tick r).outcome = .ok tick) (holds : w.Covers place r) : w.Finds t ⟨r, some tick⟩ place
  | none (last : TickArray) (empty : ∀ entry ∈ w.initializedTicks, ¬ w.direction.Ahead t entry.1)
      (ending : w.arrays.getLast? = some last) :
      w.Finds t ⟨TickIndex.clamp (w.farEnd last), none⟩ (w.arrays.length - 1)

theorem entry_of_margin {w : Window} {t : Int} (margin : w.HasMargin t) :
    w.entry t = searchEntry w.direction w.spacingNat t / w.spacingNat := by
  have span : (w.span : Int) = w.spacingNat * 88 := TickArray.span_eq _
  have highest := (search_entry_bounds w.direction w.spacingNat t).2
  have room : t + 2 * w.span ≤ Signed.greatest 32 := margin.2.2
  rw [entry, min_eq_left (by omega)]

theorem inside_of_margin {w : Window} {m u : Int} (margin : w.HasMargin u) (least : u - w.spacingNat ≤ m * w.spacingNat)
    (most : m * w.spacingNat ≤ u + w.spacingNat) : TickPosition.IsInside w.spacingNat m := by
  have span := TickArray.span_eq w.spacingNat
  simp only [HasMargin, Window.span, TickPosition.IsInside, Signed.holds_iff] at *
  omega

section Accepted

variable {w : Window} (accepted : w.IsAccepted)

include accepted

theorem covers_iff_slot {place : Nat} {u : Int} :
    w.Covers place u ↔ ∃ n, n < w.size ∧ n / ticksPerArray = place ∧ w.slotAt n = u / w.spacingNat := by
  constructor
  · rintro ⟨array, found, contains⟩
    obtain ⟨n, rfl, here⟩ := (contains_iff_slot accepted found u).mp contains
    have present := (List.getElem?_eq_some_iff.mp found).1
    refine ⟨n, ?_, rfl, here⟩
    simp only [size, ticksPerArray] at *
    omega
  · rintro ⟨n, inside, rfl, here⟩
    have found := List.getElem?_eq_getElem (place_lt inside)
    exact ⟨_, found, (contains_iff_slot accepted found u).mpr ⟨n, rfl, here⟩⟩

theorem slot_covered {n : Nat} (inside : n < w.size) : w.Covers (n / ticksPerArray) (w.slotAt n * w.spacingNat) := by
  have spaced := accepted.spaced
  exact (covers_iff_slot accepted).mpr ⟨n, inside, rfl, (Int.mul_ediv_cancel _ (by omega)).symm⟩

theorem entry_inside_of_margin {t : Int} (margin : w.HasMargin t) :
    TickPosition.IsInside w.spacingNat (w.entry t) := by
  obtain ⟨least, most⟩ := search_entry_near accepted.spaced t
  rw [entry_of_margin margin]
  exact inside_of_margin margin least most

theorem roomy_of_margin (some : w.arrays ≠ []) (margin : ∀ place u, w.Covers place u → w.HasMargin u) : w.IsRoomy := by
  intro n within
  rcases Nat.lt_or_eq_of_le within with inside | rfl
  · exact inside_of_margin (margin _ _ (slot_covered accepted inside)) (by omega) (by omega)
  · have positive : 0 < w.size := Nat.mul_pos (List.length_pos_iff.mpr some) (by decide)
    obtain ⟨n, last⟩ := Nat.exists_eq_add_one_of_ne_zero (Nat.ne_of_gt positive)
    have near : w.HasMargin (w.slotAt n * w.spacingNat) := margin _ _ (slot_covered accepted (by omega))
    rw [last, slot_at_succ]
    generalize w.slotAt n = m at near
    cases w.direction with
    | aToB =>
        have step : (m - 1) * w.spacingNat = m * w.spacingNat - w.spacingNat := by ring
        refine inside_of_margin near ?_ ?_ <;> simp only [Direction.along] <;> omega
    | bToA =>
        have step : (m + 1) * w.spacingNat = m * w.spacingNat + w.spacingNat := by ring
        refine inside_of_margin near ?_ ?_ <;> simp only [Direction.along] <;> omega

theorem tick_of_held {n : Nat} {tick : Tick} (holds : w.held n = some tick) :
    (w.tick (w.slotAt n * w.spacingNat)).outcome = .ok tick := by
  have spaced := accepted.spaced
  have number : w.slotAt n * w.spacingNat / w.spacingNat = w.slotAt n := Int.mul_ediv_cancel _ (by omega)
  obtain ⟨array, found, record⟩ := Option.bind_eq_some_iff.mp holds
  have contains := (contains_iff_slot accepted found (w.slotAt n * w.spacingNat)).mpr ⟨n, rfl, number.symm⟩
  rw [← number, offset_eq accepted found contains] at record
  exact congrArg Reading.outcome (tick_stored accepted (Int.dvd_mul_left _ _) found contains record)

theorem last_index_eq {last : TickArray} (ending : w.arrays.getLast? = some last) : w.lastIndex = w.farEnd last := by
  rw [List.getLast?_eq_getElem?] at ending
  have present : 0 < w.arrays.length := by
    have inside := (List.getElem?_eq_some_iff.mp ending).1
    omega
  have placed := accepted.placed _ _ ending
  have span : (w.span : Int) = w.spacingNat * 88 := TickArray.span_eq _
  rw [span] at placed
  unfold lastIndex farEnd slotAt opening size
  rw [span]
  cases direction : w.direction with
  | aToB =>
      simp only [direction, Direction.along, ticksPerArray] at placed ⊢
      rw [placed, Nat.cast_sub present]
      push_cast
      ring
  | bToA =>
      simp only [direction, Direction.along, ticksPerArray] at placed ⊢
      rw [placed, Nat.cast_sub present]
      push_cast
      ring

theorem finds_of_ends {t : Int} {stop : Stop} {reads : List Nat} {n m : Nat}
    (entry : w.slotAt n = searchEntry w.direction w.spacingNat t / w.spacingNat) (ends : w.Ends n stop)
    (read : w.EndsAt reads n m stop) : w.Finds t stop (m / ticksPerArray) := by
  have spaced := accepted.spaced
  cases ends with
  | found k tick later holds initialized first same =>
      subst same
      have numbers := read.found (by simp)
      obtain rfl := slot_at_inj (Int.eq_of_mul_eq_mul_right (by omega) numbers)
      have stored : w.Stores (w.slotAt k * w.spacingNat) tick := (stores_iff accepted _ tick).mpr ⟨k, holds, rfl⟩
      refine .tick _ tick _ ⟨?_, ?_, ?_⟩ (tick_of_held accepted holds) (slot_covered accepted read.inside)
      · exact (w.mem_initialized_iff _ _).mpr ⟨stored, initialized⟩
      · exact (slot_ahead_iff accepted entry k).mpr later
      · rintro ⟨u, other⟩ member ahead
        obtain ⟨holdsU, lit⟩ := (w.mem_initialized_iff u other).mp member
        exact leads_of_first accepted entry first holdsU lit ahead
  | none empty same =>
      subst same
      have whole := read.whole rfl
      have place : m / ticksPerArray = w.arrays.length - 1 := by
        simp only [size, ticksPerArray] at *
        omega
      obtain ⟨last, ending⟩ : ∃ last, w.arrays.getLast? = some last := by
        refine Option.ne_none_iff_exists'.mp fun absent => ?_
        have nothing := List.getLast?_eq_none_iff.mp absent
        rw [size, nothing] at whole
        cases whole
      rw [place, last_index_eq accepted ending]
      refine .none last ?_ ending
      rintro ⟨u, other⟩ member
      obtain ⟨holdsU, lit⟩ := (w.mem_initialized_iff u other).mp member
      exact not_ahead_of_empty accepted entry empty holdsU lit

theorem next_initialized_finds {t : Int} {n : Nat} {stop : Stop}
    (entry : w.slotAt n = searchEntry w.direction w.spacingNat t / w.spacingNat) (enters : w.slotAt n = w.entry t)
    (ok : (w.nextInitialized t).outcome = .ok stop) :
    ∃ last, w.Finds t stop last ∧
      ∀ place, place ∈ (w.nextInitialized t).reads ↔ n / ticksPerArray ≤ place ∧ place ≤ last := by
  obtain ⟨n', _, here, ends⟩ := next_initialized_ends accepted ok
  obtain rfl := slot_at_inj (here.trans enters.symm)
  obtain ⟨n'', m, there, read⟩ := next_initialized_reads accepted ok
  obtain rfl := slot_at_inj (there.trans enters.symm)
  exact ⟨m / ticksPerArray, finds_of_ends accepted entry ends read, read.spans⟩

end Accepted

end Window

/-- A search fails only if it starts outside the arrays, and otherwise reads those from its start to its stop. -/
theorem search_finds_nearest_tick (slots : List Slot) (spacing : BitVec 16) (d : Direction) (w : Window) (t : Int)
    (journal : Journal) (made : Window.ofSlots slots spacing d = .ok w) (margin : w.HasMargin t)
    (margins : ∀ place u, w.Covers place u → w.HasMargin u) :
    let start := searchEntry d spacing.toNat t
    let reading := w.nextInitialized t
    ((∃ cause, reading.outcome = .error (.error cause)) ↔ ∀ place, ¬ w.Covers place start) ∧
      ((∀ place, ¬ w.Covers place start) → journal.note reading = journal) ∧
      ∀ first, w.Covers first start → ∃ stop last, reading.outcome = .ok stop ∧ w.Finds t stop last ∧
        ∀ place, place ∈ (journal.note reading).reads ↔ place ∈ journal.reads ∨ first ≤ place ∧ place ≤ last := by
  obtain ⟨same, accepted⟩ := Window.of_slots_ok made
  have roomy := Window.roomy_of_margin accepted (Window.of_slots_present made) margins
  have entry := Window.entry_of_margin margin
  have begins : searchEntry d spacing.toNat t = searchEntry w.direction w.spacingNat t := by
    rw [same]
    rfl
  intro start reading
  have refused : (∀ place, ¬ w.Covers place start) → ∃ cause, reading = ⟨[], .error (.error cause)⟩ := by
    intro outside
    refine Window.next_initialized_refused accepted.spaced (Window.entry_inside_of_margin accepted margin) ?_
    intro n inside enters
    refine outside (n / ticksPerArray) ((Window.covers_iff_slot accepted).mpr ⟨n, inside, rfl, ?_⟩)
    rw [enters, entry, ← begins]
  have answered : ∀ first, w.Covers first start → ∃ stop last, reading.outcome = .ok stop ∧ w.Finds t stop last ∧
      ∀ place, place ∈ reading.reads ↔ first ≤ place ∧ place ≤ last := by
    intro first covers
    obtain ⟨n, inside, rfl, here⟩ := (Window.covers_iff_slot accepted).mp covers
    have located : w.slotAt n = searchEntry w.direction w.spacingNat t / w.spacingNat := by rw [← begins]; exact here
    have enters := located.trans entry.symm
    obtain ⟨stop, ok⟩ := Window.next_initialized_total accepted roomy inside enters
    obtain ⟨last, finds, reads⟩ := Window.next_initialized_finds accepted located enters ok
    exact ⟨stop, last, ok, finds, reads⟩
  refine ⟨⟨?_, ?_⟩, ?_, ?_⟩
  · rintro ⟨cause, fails⟩ first covers
    obtain ⟨stop, _, ok, _⟩ := answered first covers
    rw [ok] at fails
    cases fails
  · intro outside
    obtain ⟨cause, fails⟩ := refused outside
    exact ⟨cause, congrArg Reading.outcome fails⟩
  · intro outside
    obtain ⟨cause, fails⟩ := refused outside
    rw [fails, Journal.note, List.append_nil]
  · intro first covers
    obtain ⟨stop, last, ok, finds, reads⟩ := answered first covers
    refine ⟨stop, last, ok, finds, fun place => ?_⟩
    rw [← reads place]
    exact List.mem_append

theorem search_finds_nearest_tick_sample :
    ∃ last, (Sample.window .aToB).Finds (-1) ⟨-8, some (Sample.tick (-100000) 200000)⟩ last ∧
      ∀ place, place ∈ (Journal.blank.note ((Sample.window .aToB).nextInitialized (-1))).reads ↔
        1 ≤ place ∧ place ≤ last := by
  have starts : ∀ array ∈ (Sample.window .aToB).arrays, -88 ≤ array.start.toInt ∧ array.start.toInt ≤ 0 := by
    decide +kernel
  have margins : ∀ place u, (Sample.window .aToB).Covers place u → (Sample.window .aToB).HasMargin u := by
    rintro place u ⟨array, found, contains⟩
    have near := starts array (List.mem_of_getElem? found)
    have within : array.start.toInt ≤ u ∧ u < array.start.toInt + 88 := contains
    change Signed.Holds 32 (u - 176) ∧ Signed.Holds 32 (u + 176)
    simp only [Signed.holds_iff]
    omega
  have margin : (Sample.window .aToB).HasMargin (-1) := by decide
  have covered : (Sample.window .aToB).Covers 1 (-1) := ⟨_, rfl, by decide⟩
  have read : ((Sample.window .aToB).nextInitialized (-1)).outcome = .ok ⟨-8, some (Sample.tick (-100000) 200000)⟩ := by
    decide +kernel
  obtain ⟨_, _, answers⟩ := search_finds_nearest_tick (Sample.slots .aToB) 1 .aToB (Sample.window .aToB) (-1) .blank
    (Sample.accepted .aToB) margin margins
  obtain ⟨stop, last, ok, finds, reads⟩ := answers 1 covered
  cases ok.symm.trans read
  refine ⟨last, finds, fun place => (reads place).trans ?_⟩
  exact or_iff_right List.not_mem_nil

end PoolQuote
