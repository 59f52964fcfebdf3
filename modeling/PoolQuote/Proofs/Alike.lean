import PoolQuote.Proofs.Reads

/-!
Windows that look the same to a swap. Of a tick it sees whether it is initialized and, if so, its net liquidity; of
an array it sees the start and the ticks. Windows that look the same are accepted alike, and the same searches in
them read the same arrays and end alike.
-/

set_option autoImplicit false

namespace PoolQuote

-- What a swap sees of a tick: its net liquidity, if it is initialized.
def Tick.seen (tick : Tick) : Option (Signed 128) :=
  if tick.initialized then some tick.liquidityNet else none

def TickArray.seen (array : TickArray) : Signed 32 × List (Option (Signed 128)) :=
  (array.start, array.ticks.map Tick.seen)

def Slot.seen (slot : Slot) : Key × Option (Signed 32 × List (Option (Signed 128))) :=
  (slot.address, slot.data.map TickArray.seen)

theorem present_arrays_seen {slots slots' : List Slot} (alike : slots.map Slot.seen = slots'.map Slot.seen) :
    (presentArrays slots).map TickArray.seen = (presentArrays slots').map TickArray.seen := by
  induction slots generalizing slots' with
  | nil =>
      rw [List.map_eq_nil_iff.mp alike.symm]
  | cons slot slots ih =>
      obtain ⟨slot', rest, rfl, same, further⟩ := List.map_eq_cons_iff.mp alike.symm
      obtain ⟨address, data⟩ := slot
      obtain ⟨address', data'⟩ := slot'
      have both : data'.map TickArray.seen = data.map TickArray.seen := congrArg Prod.snd same
      cases data with
      | none =>
          rw [Option.map_eq_none_iff.mp both]
          rfl
      | some array =>
          obtain ⟨array', rfl, seen⟩ := Option.map_eq_some_iff.mp both
          rw [presentArrays, presentArrays, List.map_cons, List.map_cons, seen, ih further.symm]

namespace Window

theorem check_shapes_seen {span index : Nat} {arrays arrays' : List TickArray}
    (alike : arrays.map TickArray.seen = arrays'.map TickArray.seen) :
    checkShapes span index arrays = checkShapes span index arrays' := by
  induction arrays generalizing index arrays' with
  | nil => rw [List.map_eq_nil_iff.mp alike.symm]
  | cons array arrays ih =>
      obtain ⟨array', rest, rfl, same, further⟩ := List.map_eq_cons_iff.mp alike.symm
      have start : array'.start = array.start := congrArg Prod.fst same
      have length : array'.ticks.length = array.ticks.length := by
        have sizes := congrArg (fun seen => seen.2.length) same
        simpa only [TickArray.seen, List.length_map] using sizes
      unfold checkShapes
      rw [start, length, ih further.symm]

theorem check_contiguous_seen {d : Direction} {span index : Nat} {start : Int} {arrays arrays' : List TickArray}
    (alike : arrays.map TickArray.seen = arrays'.map TickArray.seen) :
    checkContiguous d span index start arrays = checkContiguous d span index start arrays' := by
  induction arrays generalizing index start arrays' with
  | nil => rw [List.map_eq_nil_iff.mp alike.symm]
  | cons array arrays ih =>
      obtain ⟨array', rest, rfl, same, further⟩ := List.map_eq_cons_iff.mp alike.symm
      have begins : array'.start = array.start := congrArg Prod.fst same
      unfold checkContiguous
      rw [begins, ih further.symm]

-- Windows in which a swap sees the same.
structure Alike (w w' : Window) : Prop where
  slots : w.slots.map Slot.seen = w'.slots.map Slot.seen
  spacing : w.spacing = w'.spacing
  direction : w.direction = w'.direction

theorem of_slots_alike {slots slots' : List Slot} (alike : slots.map Slot.seen = slots'.map Slot.seen)
    (spacing : BitVec 16) (d : Direction) :
    Matches Alike (ofSlots slots spacing d) (ofSlots slots' spacing d) := by
  have both : (arrays ⟨slots, spacing, d⟩).map TickArray.seen = (arrays ⟨slots', spacing, d⟩).map TickArray.seen :=
    present_arrays_seen alike
  have length := congrArg List.length alike
  rw [List.length_map, List.length_map] at length
  unfold ofSlots
  simp only [length]
  refine .guard Iff.rfl (.guard Iff.rfl ?_)
  cases here : arrays ⟨slots, spacing, d⟩ with
  | nil =>
      rw [here] at both
      rw [List.map_eq_nil_iff.mp both.symm]
      exact .error _
  | cons first rest =>
      rw [here] at both
      obtain ⟨first', rest', there, same, further⟩ := List.map_eq_cons_iff.mp both.symm
      have start : first'.start = first.start := congrArg Prod.fst same
      rw [there] at both ⊢
      dsimp only
      rw [check_shapes_seen both, check_contiguous_seen further.symm, start]
      refine .bind (.refl _) fun _ _ _ => .bind (.refl _) fun _ _ _ => ?_
      exact .ok _ _ ⟨alike, rfl, rfl⟩

theorem initialized_at_seen (w : Window) (place : Nat) (offset : Int) :
    (w.initializedAt? place offset).map Tick.liquidityNet =
      if offset < 0 then none
      else ((w.arrays.map TickArray.seen)[place]?).bind fun array => (array.2[offset.toNat]?).bind id := by
  unfold initializedAt? tickAt?
  split
  · rfl
  · rw [List.getElem?_map, Option.bind_map]
    cases w.arrays[place]? with
    | none => rfl
    | some array =>
        change ((array.ticks[offset.toNat]?).filter Tick.initialized).map Tick.liquidityNet =
          ((array.ticks.map Tick.seen)[offset.toNat]?).bind id
        rw [List.getElem?_map, Option.bind_map]
        cases array.ticks[offset.toNat]? with
        | none => rfl
        | some tick =>
            change ((some tick).filter Tick.initialized).map Tick.liquidityNet = tick.seen
            by_cases lit : tick.initialized <;> simp [Tick.seen, lit]

structure Stop.Alike (stop stop' : Stop) : Prop where
  index : stop.index = stop'.index
  net : stop.tick.map Tick.liquidityNet = stop'.tick.map Tick.liquidityNet

theorem Stop.Alike.refl (stop : Stop) : stop.Alike stop :=
  ⟨rfl, rfl⟩

namespace Alike

variable {w w' : Window} (alike : w.Alike w')

include alike

theorem arrays : w.arrays.map TickArray.seen = w'.arrays.map TickArray.seen :=
  present_arrays_seen alike.slots

theorem length : w.arrays.length = w'.arrays.length := by
  have sizes := congrArg List.length alike.arrays
  rwa [List.length_map, List.length_map] at sizes

theorem spacingNat : w.spacingNat = w'.spacingNat :=
  congrArg BitVec.toNat alike.spacing

theorem firstArray : w.firstArray = w'.firstArray := by
  have head : ∀ window : Window, window.firstArray =
      (((window.arrays.map TickArray.seen)[0]?).map fun seen =>
        seen.1.toInt / (window.spacingNat : Int) / ticksPerArray).getD 0 := by
    intro window
    rw [first_array_head, List.getElem?_map, Option.map_map]
    rfl
  rw [head, head, alike.arrays, alike.spacingNat]

theorem ahead (array : Int) : w.ahead? array = w'.ahead? array := by
  simp only [ahead?, alike.direction, alike.firstArray]

theorem boundary (past : TickPosition) : w.boundary past = w'.boundary past := by
  simp only [Window.boundary, alike.direction, alike.spacingNat]

theorem net (place : Nat) (offset : Int) : (w.initializedAt? place offset).map Tick.liquidityNet =
    (w'.initializedAt? place offset).map Tick.liquidityNet := by
  rw [initialized_at_seen, initialized_at_seen, alike.arrays]

theorem scan (n : Nat) (position : TickPosition) : (w.scan n position).reads = (w'.scan n position).reads ∧
    Matches Stop.Alike (w.scan n position).outcome (w'.scan n position).outcome := by
  induction n generalizing position with
  | zero =>
      unfold Window.scan
      rw [alike.boundary]
      exact ⟨rfl, .self Stop.Alike.refl _⟩
  | succ n ih =>
      unfold Window.scan
      rw [alike.ahead, alike.boundary, alike.spacingNat, alike.direction]
      cases w'.ahead? position.array with
      | none => exact ⟨rfl, .self Stop.Alike.refl _⟩
      | some place =>
          have net := alike.net place position.offset
          dsimp only
          cases here : w.initializedAt? place position.offset with
          | some tick =>
              rw [here] at net
              obtain ⟨tick', there, same⟩ := Option.map_eq_some_iff.mp net.symm
              rw [there]
              refine ⟨rfl, ?_⟩
              cases position.toTick w'.spacingNat with
              | error failure => exact .error failure
              | ok t => exact .ok _ _ ⟨rfl, congrArg some same.symm⟩
          | none =>
              rw [here] at net
              rw [Option.map_eq_none_iff.mp net.symm]
              cases position.next w'.direction w'.spacingNat with
              | error failure => exact ⟨rfl, .error failure⟩
              | ok next => exact ⟨congrArg (place :: ·) (ih next).1, (ih next).2⟩

theorem next_initialized (t : Int) : (w.nextInitialized t).reads = (w'.nextInitialized t).reads ∧
    Matches Stop.Alike (w.nextInitialized t).outcome (w'.nextInitialized t).outcome := by
  unfold nextInitialized remaining
  simp only [alike.spacingNat, alike.direction, alike.length, alike.ahead]
  cases TickPosition.ofTick w'.spacingNat (min (searchEntry w'.direction w'.spacingNat t) (Signed.greatest 32)) with
  | error failure => exact ⟨rfl, .error failure⟩
  | ok position =>
      dsimp only
      cases w'.ahead? position.array with
      | none => exact ⟨rfl, .self Stop.Alike.refl _⟩
      | some place =>
          dsimp only
          split
          · exact ⟨rfl, .error _⟩
          · exact alike.scan _ position

theorem symm : w'.Alike w :=
  ⟨alike.slots.symm, alike.spacing.symm, alike.direction.symm⟩

theorem startsAt {t : Int} (starts : w.StartsAt t) : w'.StartsAt t := by
  obtain ⟨fits, first, head, least, less⟩ := starts
  rw [alike.direction, alike.spacingNat] at fits least less
  have same := congrArg List.head? alike.arrays
  rw [List.head?_map, List.head?_map, Option.mem_def.mp head] at same
  obtain ⟨first', head', seen⟩ := Option.map_eq_some_iff.mp same.symm
  have start : first'.start = first.start := congrArg Prod.fst seen
  rw [← start] at least less
  exact ⟨fits, first', head', least, less⟩

end Alike

end Window

end PoolQuote
