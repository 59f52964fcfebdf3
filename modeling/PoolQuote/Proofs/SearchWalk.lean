import PoolQuote.Proofs.Search

/-!
The positions that a search visits. A walk goes from one position to the next for as long as it takes: until it is
at an initialized tick, has left the window, or stands at a position that has no next one. In a window that has been
accepted every walk comes to an end within the positions of three arrays and one more.
-/

set_option autoImplicit false

namespace PoolQuote.Window

def place? (w : Window) (position : TickPosition) : Option Nat :=
  (w.ahead? position.array).filter (· < w.arrays.length)

-- A walk from a position, without a bound: what it visits, and the outcome of the search.
inductive Walks (w : Window) : TickPosition → List TickPosition → Outcome Stop → Prop
  | leave (position : TickPosition) (outside : w.place? position = none) :
      Walks w position [position] (w.boundary position)
  | find (position : TickPosition) (place : Nat) (tick : Tick) (inside : w.place? position = some place)
      (lit : w.initializedAt? place position.offset = some tick) :
      Walks w position [position] ((position.toTick w.spacingNat).map fun t => ⟨t, some tick⟩)
  | stick (position : TickPosition) (place : Nat) (failure : Failure) (inside : w.place? position = some place)
      (dark : w.initializedAt? place position.offset = none)
      (stuck : position.next w.direction w.spacingNat = .error failure) : Walks w position [position] (.error failure)
  | pass (position next : TickPosition) (place : Nat) (visited : List TickPosition) (outcome : Outcome Stop)
      (inside : w.place? position = some place) (dark : w.initializedAt? place position.offset = none)
      (moved : position.next w.direction w.spacingNat = .ok next) (rest : Walks w next visited outcome) :
      Walks w position (position :: visited) outcome

theorem walks_unique {w : Window} {position : TickPosition} {visited visited' : List TickPosition}
    {outcome outcome' : Outcome Stop} (first : w.Walks position visited outcome)
    (second : w.Walks position visited' outcome') : visited = visited' ∧ outcome = outcome' := by
  induction first generalizing visited' outcome' with
  | leave position outside =>
      cases second <;> simp_all
  | find position place tick inside lit =>
      cases second <;> simp_all
  | stick position place failure inside dark stuck =>
      cases second <;> simp_all
  | pass position next place visited outcome inside dark moved rest ih =>
      cases second with
      | leave _ outside => simp_all
      | find _ _ _ _ lit => simp_all
      | stick _ _ _ _ _ stuck => simp_all
      | pass _ next' _ visited' _ _ _ moved' rest' =>
          cases Except.ok.inj (moved.symm.trans moved')
          obtain ⟨rfl, rfl⟩ := ih rest'
          exact ⟨rfl, rfl⟩

def SetsOut (w : Window) (t : Int) (position : TickPosition) : Prop :=
  TickPosition.ofTick w.spacingNat (min (searchEntry w.direction w.spacingNat t) (Signed.greatest 32)) = .ok position ∧
    w.place? position ≠ none

theorem place_eq_some_iff {w : Window} {position : TickPosition} {place : Nat} :
    w.place? position = some place ↔ w.ahead? position.array = some place ∧ place < w.arrays.length := by
  rw [place?, Option.filter_eq_some_iff, decide_eq_true_iff]

section Accepted

variable {w : Window} (accepted : w.IsAccepted)

include accepted

theorem place_slot {n : Nat} (inside : n < w.size) :
    w.place? (.ofNumber (w.slotAt n)) = some (n / ticksPerArray) :=
  place_eq_some_iff.mpr ⟨ahead_inside accepted inside, place_lt inside⟩

omit accepted in
theorem place_end : w.place? (.ofNumber (w.slotAt w.size)) = none := by
  refine Option.eq_none_iff_forall_ne_some.mpr fun place found => ?_
  obtain ⟨ahead, present⟩ := place_eq_some_iff.mp found
  change w.ahead? (w.slotAt w.size / ticksPerArray) = some place at ahead
  rw [ahead_slot] at ahead
  split at ahead
  · cases ahead
    rw [size, Nat.mul_div_cancel _ (by decide)] at present
    exact Nat.lt_irrefl _ present
  · cases ahead

-- The bounded search is a walk, and its bound is that of the walk.
theorem scan_walks {count n : Nat} (room : n + count = w.size) :
    ∃ visited, w.Walks (.ofNumber (w.slotAt n)) visited (w.scan count (.ofNumber (w.slotAt n))).outcome ∧
      visited.length ≤ count + 1 := by
  induction count generalizing n with
  | zero =>
      have last : n = w.size := room
      subst last
      exact ⟨_, .leave _ place_end, Nat.le_refl 1⟩
  | succ count ih =>
      have within : n < w.size := by omega
      have inside := place_slot accepted within
      have here := initialized_at_slot w n
      cases lit : (w.held n).filter Tick.initialized with
      | some tick =>
          rw [scan_found accepted within lit]
          exact ⟨_, .find _ _ tick inside (here.trans lit), Nat.succ_le_succ (Nat.zero_le _)⟩
      | none =>
          cases moved : (TickPosition.ofNumber (w.slotAt n)).next w.direction w.spacingNat with
          | error failure =>
              rw [scan_stuck accepted within lit moved]
              exact ⟨_, .stick _ _ failure inside (here.trans lit) moved, Nat.succ_le_succ (Nat.zero_le _)⟩
          | ok next =>
              rw [scan_dark accepted within lit moved]
              have number := TickPosition.next_ok moved
              rw [← slot_at_succ] at number
              subst number
              obtain ⟨visited, walk, short⟩ := ih (n := n + 1) (by omega)
              exact ⟨_, .pass _ _ _ visited _ inside (here.trans lit) moved walk, Nat.succ_le_succ short⟩

theorem next_initialized_walks {t : Int} {position : TickPosition} (out : w.SetsOut t position) :
    ∃ visited, w.Walks position visited (w.nextInitialized t).outcome ∧ visited.length ≤ ticksPerArray * maxArrays + 1 := by
  obtain ⟨entered, inside⟩ := out
  obtain ⟨place, found⟩ := Option.ne_none_iff_exists'.mp inside
  obtain ⟨ahead, present⟩ := place_eq_some_iff.mp found
  have number := TickPosition.of_tick_ok entered
  subst number
  obtain ⟨n, within, here, room⟩ := exists_slot_of_ahead ahead present
  unfold nextInitialized
  dsimp only
  rw [entered]
  dsimp only
  rw [ahead]
  dsimp only
  rw [if_neg (not_le.mpr present), ← here]
  rw [← here] at room
  obtain ⟨visited, walk, short⟩ := scan_walks accepted ((Nat.add_comm _ _).trans room)
  have few : w.size ≤ ticksPerArray * maxArrays :=
    (Nat.mul_le_mul_right _ accepted.few).trans_eq (Nat.mul_comm _ _)
  exact ⟨visited, walk, by omega⟩

omit accepted in
theorem next_initialized_fails {t : Int} (stays : ∀ position, ¬ w.SetsOut t position) :
    ∃ failure, (w.nextInitialized t).outcome = .error failure := by
  unfold nextInitialized
  dsimp only
  cases entered : TickPosition.ofTick w.spacingNat (min (searchEntry w.direction w.spacingNat t) (Signed.greatest 32)) with
  | error failure => exact ⟨failure, rfl⟩
  | ok position =>
      dsimp only
      cases ahead : w.ahead? position.array with
      | none =>
          cases read : position.toTick w.spacingNat with
          | error failure => exact ⟨failure, rfl⟩
          | ok u => exact ⟨_, rfl⟩
      | some place =>
          by_cases present : place < w.arrays.length
          · refine absurd ⟨entered, ?_⟩ (stays position)
            rw [place_eq_some_iff.mpr ⟨ahead, present⟩]
            exact Option.some_ne_none place
          · exact ⟨_, congrArg Reading.outcome (if_pos (not_lt.mp present))⟩

end Accepted

end PoolQuote.Window
