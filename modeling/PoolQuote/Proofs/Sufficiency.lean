import PoolQuote.Proofs.Fill
import PoolQuote.Proofs.Reads

/-!
The arrays that a quote lists. They are the first slots of the request in order, the last of them repeated, and they
are all that the quote depends on: without the slots after them, and with other ticks there, the quote is the same.
-/

set_option autoImplicit false

namespace PoolQuote

def TickArray.retick (array : TickArray) (ticks : Option (List Tick)) : TickArray :=
  { array with ticks := ticks.getD array.ticks }

-- The slots with other ticks in the arrays for whose places some are given.
def retickSlots (ticks : Nat → Option (List Tick)) (slots : List Slot) : List Slot :=
  slots.mapIdx fun place slot => { slot with data := slot.data.map fun array => array.retick (ticks place) }

theorem present_arrays_retick (ticks : Nat → Option (List Tick)) (slots : List Slot) :
    presentArrays (retickSlots ticks slots) =
      (presentArrays slots).mapIdx fun place array => array.retick (ticks place) := by
  induction slots generalizing ticks with
  | nil => rfl
  | cons slot slots ih =>
      obtain ⟨address, data⟩ := slot
      cases data with
      | none =>
          unfold retickSlots
          rw [List.mapIdx_cons]
          rfl
      | some array =>
          unfold retickSlots
          rw [List.mapIdx_cons, presentArrays, List.mapIdx_cons]
          exact congrArg _ (ih fun place => ticks (place + 1))

theorem addresses_retick (ticks : Nat → Option (List Tick)) (slots : List Slot) :
    (retickSlots ticks slots).map Slot.address = slots.map Slot.address := by
  refine List.ext_getElem? fun place => ?_
  rw [retickSlots, List.getElem?_map, List.getElem?_mapIdx, Option.map_map, List.getElem?_map]
  rfl

theorem present_arrays_take (n : Nat) (slots : List Slot) :
    presentArrays (slots.take n) = (presentArrays slots).take n := by
  induction slots generalizing n with
  | nil => simp [presentArrays]
  | cons slot slots ih =>
      cases n with
      | zero => rfl
      | succ n =>
          obtain ⟨address, data⟩ := slot
          cases data with
          | none => rfl
          | some array => exact congrArg _ (ih n)

theorem filter_places_lt {α : Type} (list : List α) (start n : Nat) :
    ((list.zipIdx start).filter fun entry => decide (entry.2 < start + n)).map Prod.fst = list.take n := by
  induction list generalizing start n with
  | nil => simp
  | cons head list ih =>
      cases n with
      | zero =>
          rw [List.take_zero, List.map_eq_nil_iff, List.filter_eq_nil_iff]
          intro entry member
          have later := List.le_snd_of_mem_zipIdx member
          simp only [Nat.add_zero, decide_eq_true_eq, not_lt]
          exact later
      | succ n =>
          have first : start < start + (n + 1) := Nat.lt_add_of_pos_right (Nat.succ_pos n)
          rw [List.zipIdx_cons, List.filter_cons_of_pos (by exact decide_eq_true first), List.map_cons, List.take_succ_cons]
          have rest := ih (start + 1) n
          rw [Nat.add_right_comm, Nat.add_assoc] at rest
          rw [rest]

namespace Window

variable {w : Window} {journal : Journal} {k : Nat}

theorem agrees_take (w : Window) (k : Nat) : w.AgreesTo k { w with slots := w.slots.take (k + 1) } where
  spacing := rfl
  direction := rfl
  same := by
    intro place near
    rw [arrays, present_arrays_take, List.getElem?_take_of_lt (Nat.lt_succ_of_le near)]
    rfl
  within := by
    rw [arrays, present_arrays_take, List.length_take]
    exact Nat.min_le_right _ _

theorem is_accepted_take (accepted : w.IsAccepted) (k : Nat) :
    IsAccepted { w with slots := w.slots.take (k + 1) } := by
  refine (agrees_take w k).isAccepted accepted fun place array found => ?_
  rw [arrays, present_arrays_take] at found
  rw [List.getElem?_take, Option.ite_none_right_eq_some] at found
  have there : w.arrays[place]? = some array := found.2
  exact ⟨accepted.full array (List.mem_of_getElem? there), array, there, rfl⟩

section Retick

variable {ticks : Nat → Option (List Tick)}

theorem agrees_retick (w : Window) (others : ∀ place other, ticks place = some other → k < place) :
    w.AgreesTo k { w with slots := retickSlots ticks w.slots } where
  spacing := rfl
  direction := rfl
  same := by
    intro place near
    have kept : ticks place = none :=
      Option.eq_none_iff_forall_ne_some.mpr fun other given => absurd (others place other given) (not_lt.mpr near)
    rw [arrays, present_arrays_retick, List.getElem?_mapIdx, kept]
    exact Option.map_id'
  within := by
    rw [arrays, present_arrays_retick, List.length_mapIdx]
    exact le_refl _

theorem is_accepted_retick (accepted : w.IsAccepted)
    (others : ∀ place other, ticks place = some other → k < place ∧ other.length = ticksPerArray) :
    IsAccepted { w with slots := retickSlots ticks w.slots } := by
  have agrees := agrees_retick w fun place other given => (others place other given).1
  refine agrees.isAccepted accepted fun place array' found => ?_
  rw [arrays, present_arrays_retick, List.getElem?_mapIdx] at found
  obtain ⟨array, there, rfl⟩ := Option.map_eq_some_iff.mp found
  refine ⟨?_, array, there, rfl⟩
  cases given : ticks place with
  | none => exact accepted.full array (List.mem_of_getElem? there)
  | some other => exact (others place other given).2

end Retick

theorem touched_eq_take (all : ∀ place, place ∈ journal.reads ↔ place ≤ k) :
    w.touched journal = (w.slots.map Slot.address).take (k + 1) := by
  rw [touched_eq, ← filter_places_lt _ 0]
  refine congrArg _ (List.filter_congr fun entry _ => ?_)
  rw [decide_eq_decide, all, Nat.zero_add, Nat.lt_succ_iff]

theorem touched_eq_nil (nothing : journal.reads = []) : w.touched journal = [] := by
  simp [touched, nothing]

theorem addresses_get (reach : ReadsTo journal.reads k) (inside : k < w.slots.length) {count place : Nat}
    (within : k < count) (less : place < count) :
    (w.addresses journal count)[place]? = (w.slots[min place k]?).map Slot.address := by
  have last : w.slots[k]? = some w.slots[k] := List.getElem?_eq_getElem inside
  rcases reach with all | ⟨nothing, rfl⟩
  · have size : ((w.slots.map Slot.address).take (k + 1)).length = k + 1 := by
      rw [List.length_take, List.length_map, Nat.min_eq_left inside]
    have fill : ((w.slots.map Slot.address).take (k + 1)).getLast? = some (w.slots[k]).address := by
      rw [List.getLast?_eq_getElem?, size, Nat.add_sub_cancel, List.getElem?_take_of_lt (Nat.lt_succ_self k),
        List.getElem?_map, last]
      rfl
    unfold addresses
    simp only [touched_eq_take all, fill, Option.some_or]
    by_cases near : place ≤ k
    · rw [List.getElem?_append_left (by omega), List.getElem?_take_of_lt (by omega), List.getElem?_map,
        Nat.min_eq_left near]
    · rw [List.getElem?_append_right (by omega), List.getElem?_replicate, if_pos (by omega),
        Nat.min_eq_right (by omega), last]
      rfl
  · have fill : w.slots.head?.map Slot.address = some (w.slots[0]).address := by
      rw [List.head?_eq_getElem?, last]
      rfl
    unfold addresses
    simp only [touched_eq_nil nothing, List.getLast?_nil, Option.none_or, fill, List.nil_append, List.length_nil]
    rw [List.getElem?_replicate, if_pos (by omega), Nat.min_zero, last]
    rfl

theorem ReadsTo.instruction_arrays {other : Window} (reach : ReadsTo journal.reads k)
    (same : (other.slots.map Slot.address).take (k + 1) = (w.slots.map Slot.address).take (k + 1)) :
    QuoteRequest.instructionArrays other journal = QuoteRequest.instructionArrays w journal := by
  apply QuoteRequest.instruction_arrays_congr
  · rcases reach with all | ⟨nothing, _⟩
    · rw [touched_eq_take all, touched_eq_take all, same]
    · rw [touched_eq_nil nothing, touched_eq_nil nothing]
  · have first := congrArg List.head? same
    rw [List.head?_take, List.head?_take, if_neg (Nat.succ_ne_zero k), if_neg (Nat.succ_ne_zero k)] at first
    rw [← List.head?_map, ← List.head?_map]
    exact first

theorem instruction_arrays_ok {keys : Vector Key maxArrays} (reach : ReadsTo journal.reads k)
    (inside : k < w.slots.length) (within : k < maxArrays)
    (ok : QuoteRequest.instructionArrays w journal = .ok keys) (place : Fin maxArrays) :
    (w.slots[min place.val k]?).map Slot.address = some keys[place] := by
  obtain ⟨_, ok⟩ := guard_ok ok
  rw [← addresses_get reach inside within place.isLt]
  split at ok
  · cases Except.ok.inj ok
    simp
  · cases ok

end Window

namespace QuoteRequest

variable {request : QuoteRequest} {limit : SqrtPrice} {window : Window} {result : SwapResult} {quote : Quote}

theorem IsQuoted.with_slots (quoted : request.IsQuoted limit window result quote) {slots : List Slot} {k : Nat}
    (agrees : window.AgreesTo k ⟨slots, request.pool.tickSpacing, request.direction⟩)
    (accepted : Window.IsAccepted ⟨slots, request.pool.tickSpacing, request.direction⟩)
    (reach : Window.ReadsTo (swap request.pool window (request.order limit) .blank).2.reads k)
    (few : slots.length ≤ maxArrays)
    (same : (slots.map Slot.address).take (k + 1) = (window.slots.map Slot.address).take (k + 1)) :
    { request with slots }.simulate = .ok quote := by
  obtain ⟨made, sound⟩ := Window.of_slots_ok quoted.accepted
  have starts := agrees.startsAt quoted.starts
  have swapped := swap_agrees (by rw [made]; rfl) sound quoted.swapped agrees accepted fun _ member => reach.le member
  have some : Window.arrays ⟨slots, request.pool.tickSpacing, request.direction⟩ ≠ [] := by
    obtain ⟨_, array, head, _⟩ := starts
    exact List.ne_nil_of_mem (List.mem_of_mem_head? head)
  have listed : instructionArrays ⟨slots, request.pool.tickSpacing, request.direction⟩
      (swap request.pool window (request.order limit) .blank).2 = _ := reach.instruction_arrays same
  have quoted' : { request with slots }.IsQuoted limit ⟨slots, request.pool.tickSpacing, request.direction⟩ result quote :=
    { value := quoted.value
      limited := quoted.limited
      positive := quoted.positive
      accepted := Window.of_slots_of_accepted accepted few some
      starts
      swapped := (congrArg Prod.fst swapped).trans quoted.swapped
      threshold := quoted.threshold
      arrays := (congrArg _ (congrArg Prod.snd swapped)).trans (listed.trans quoted.arrays)
      report := quoted.report }
  exact quoted'.simulates

end QuoteRequest

/-- What the ledger holds beyond the arrays that a quote lists has no effect on it. -/
theorem listed_arrays_suffice (request : QuoteRequest) (quote : Quote) (quoted : request.simulate = .ok quote) :
    ∃ k, k < request.slots.length ∧
      (∀ place : Fin maxArrays,
        (request.slots[min place.val k]?).map Slot.address = some quote.tickArrays[place]) ∧
      { request with slots := request.slots.take (k + 1) }.simulate = .ok quote ∧
      ∀ ticks : Nat → Option (List Tick),
        (∀ place other, ticks place = some other → k < place ∧ other.length = ticksPerArray) →
        { request with slots := retickSlots ticks request.slots }.simulate = .ok quote := by
  obtain ⟨limit, window, result, accepted⟩ := QuoteRequest.simulate_ok quoted
  obtain ⟨rfl, sound⟩ := Window.of_slots_ok accepted.accepted
  obtain ⟨k, present, reach⟩ := swap_reads rfl sound accepted.swapped accepted.starts
  have inside : k < request.slots.length := lt_of_lt_of_le present (Window.present_arrays_length request.slots)
  have within : k < maxArrays := lt_of_lt_of_le present sound.few
  refine ⟨k, inside, Window.instruction_arrays_ok reach inside within accepted.arrays, ?_, fun ticks others => ?_⟩
  · refine accepted.with_slots (Window.agrees_take _ k) (Window.is_accepted_take sound k) reach ?_ ?_
    · rw [List.length_take]
      exact le_trans (Nat.min_le_left _ _) within
    · rw [List.map_take, List.take_take, Nat.min_self]
  · have agrees := Window.agrees_retick (Window.mk request.slots request.pool.tickSpacing request.direction)
      fun place other given => (others place other given).1
    refine accepted.with_slots agrees (Window.is_accepted_retick sound others) reach ?_ ?_
    · rw [retickSlots, List.length_mapIdx]
      exact Window.of_slots_few accepted.accepted
    · rw [addresses_retick]

namespace Sample

def further : Slot := array (-176) 80 (tick 50000 50000)

def listing : QuoteRequest :=
  { request .aToB .input 1000 with
    slots := [⟨address 1, upper.data⟩, ⟨address 2, lower.data⟩, ⟨address 3, further.data⟩] }

def blankThird (place : Nat) : Option (List Tick) :=
  if place = 2 then some (List.replicate ticksPerArray .blank) else none

end Sample

theorem listed_arrays_suffice_sample : ∃ quote, Sample.listing.simulate = .ok quote ∧
    quote.tickArrays.toList = [Sample.address 1, Sample.address 2, Sample.address 2] ∧
    { Sample.listing with slots := Sample.listing.slots.take 2 }.simulate = .ok quote ∧
    { Sample.listing with slots := retickSlots Sample.blankThird Sample.listing.slots }.simulate = .ok quote := by
  have run : Sample.listing.simulate.toOption.map (fun quote => quote.tickArrays.toList) =
      some [Sample.address 1, Sample.address 2, Sample.address 2] := by decide +kernel
  obtain ⟨quote, ok, listed⟩ := exists_ok run
  obtain ⟨k, inside, places, truncated, reticked⟩ := listed_arrays_suffice _ quote ok
  have entry : ∀ place : Fin maxArrays, quote.tickArrays.toList[place.val]? = some quote.tickArrays[place] := by
    simp
  have second := (places 1).trans (entry 1).symm
  have third := (places 2).trans (entry 2).symm
  rw [listed] at second third
  -- The second address is not the first one's again, and the third one is the second one's.
  have reach : k = 1 := by
    change k < 3 at inside
    interval_cases k
    · exact absurd second (by decide +kernel)
    · rfl
    · exact absurd third (by decide +kernel)
  subst reach
  refine ⟨quote, ok, listed, truncated, reticked Sample.blankThird fun place other given => ?_⟩
  obtain ⟨rfl, rfl⟩ := Option.ite_some_none_eq_some.mp given
  exact ⟨by decide, List.length_replicate⟩

end PoolQuote
