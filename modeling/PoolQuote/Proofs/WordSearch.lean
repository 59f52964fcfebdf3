import PoolQuote.Proofs.SearchRoom

/-!
The search through a window on machine words. A window that starts where the swap does has all of its positions near
the range of tick indices, so that words of 32 bits hold them: no search that starts in that range is abandoned.
-/

set_option autoImplicit false

namespace PoolQuote

-- The tick indices that a pool can have: those of the range, and the one below it after a trade to its end.
def TickIndex.InReach (t : Int) : Prop :=
  minimum - 1 ≤ t ∧ t ≤ maximum

instance (t : Int) : Decidable (TickIndex.InReach t) :=
  inferInstanceAs (Decidable (_ ∧ _))

namespace Words

def ofTick (spacing : Nat) (t : Int) : Outcome TickPosition := do
  let number ← orAbort (spacing ≠ 0) (t / spacing)
  let span ← signed 32 (spacing * ticksPerArray)
  let rest ← orAbort (span ≠ 0) (t % span)
  return ⟨number / ticksPerArray, rest / spacing⟩

def next (direction : Direction) (spacing : Nat) (position : TickPosition) : Outcome TickPosition := do
  let t ← position.toTick spacing
  let u := match direction with
    | .aToB => t - spacing
    | .bToA => t + spacing
  ofTick spacing (← signed 32 u)

def ahead? (w : Window) (array : Int) : Outcome (Option Nat) := do
  let distance ← signed 64 (match w.direction with
    | .aToB => w.firstArray - array
    | .bToA => array - w.firstArray)
  return if 0 ≤ distance ∧ distance < maxArrays then some distance.toNat else none

def scan (w : Window) : Nat → TickPosition → Reading Window.Stop
  | 0, position =>
      ⟨[], do
        let _ ← ahead? w position.array
        w.boundary position⟩
  | n + 1, position =>
      match ahead? w position.array with
      | .error failure => ⟨[], .error failure⟩
      | .ok none => ⟨[], w.boundary position⟩
      | .ok (some place) =>
          if maxArrays ≤ place then ⟨[], .error .abort⟩
          else match w.initializedAt? place position.offset with
          | some tick =>
              ⟨[place], (position.toTick w.spacingNat).map fun t => ⟨t, some tick⟩⟩
          | none =>
              match next w.direction w.spacingNat position with
              | .error failure => ⟨[place], .error failure⟩
              | .ok next =>
                  let rest := scan w n next
                  ⟨place :: rest.reads, rest.outcome⟩

def nextInitialized (w : Window) (t : Int) : Reading Window.Stop :=
  let entry := min (searchEntry w.direction w.spacingNat t) (Signed.greatest 32)
  match ofTick w.spacingNat entry with
  | .error failure => ⟨[], .error failure⟩
  | .ok position =>
      match ahead? w position.array with
      | .error failure => ⟨[], .error failure⟩
      | .ok none =>
          ⟨[], do
            let u ← position.toTick w.spacingNat
            throw (.error (.invalidSequence (.searchOutside u)))⟩
      | .ok (some place) =>
          if w.arrays.length ≤ place then ⟨[], .error (.error (.tickArrayAbsent place))⟩
          else scan w (w.remaining place position.offset) position

def checkShapes (span : Int) (index : Nat) : List TickArray → Outcome Unit
  | [] => .ok ()
  | array :: arrays => do
      if array.ticks.length ≠ ticksPerArray then
        throw (.error (.invalidSequence (.wrongLength index array.ticks.length ticksPerArray)))
      let rest ← orAbort (span ≠ 0) (array.start.toInt % span)
      if rest ≠ 0 then
        throw (.error (.invalidSequence (.misaligned index array.start.toInt span.toNat)))
      checkShapes span (index + 1) arrays

def checkContiguous (step : Int) (index : Nat) (start : Int) : List TickArray → Outcome Unit
  | [] => .ok ()
  | array :: arrays => do
      let expected ← signed 64 (start + step)
      if array.start.toInt ≠ expected then throw (.error (.invalidSequence (.notContiguous index)))
      checkContiguous step (index + 1) array.start.toInt arrays

def checkArrays (w : Window) (first : TickArray) (rest : List TickArray) : Outcome Window := do
  let _ ← ofTick w.spacingNat first.start.toInt
  let span ← signed 64 (w.spacingNat * ticksPerArray)
  checkShapes span 0 (first :: rest)
  let step ← signed 64 (match w.direction with
    | .aToB => -span
    | .bToA => span)
  checkContiguous step 1 first.start.toInt rest
  return w

def ofSlots (slots : List Slot) (spacing : BitVec 16) (direction : Direction) : Outcome Window := do
  let w : Window := ⟨slots, spacing, direction⟩
  if spacing = 0 then throw (.error (.invalidTickSpacing 0))
  if maxArrays < slots.length then
    throw (.error (.invalidSequence (.tooMany slots.length maxArrays)))
  match w.arrays with
  | [] => throw (.error (.tickArrayAbsent 0))
  | first :: rest => checkArrays w first rest

def startsAt (w : Window) (t : Int) : Outcome Bool := do
  let entry := searchEntry w.direction w.spacingNat t
  if ¬Signed.Holds 32 entry then return false
  match w.arrays with
  | [] => return false
  | first :: _ =>
      let span ← signed 64 (w.spacingNat * ticksPerArray)
      let last ← signed 64 (first.start.toInt + span)
      return first.start.toInt ≤ entry ∧ entry < last

theorem of_tick_refines {spacing : Nat} (narrow : spacing < 2 ^ 16) (t : Int) :
    ofTick spacing t = TickPosition.ofTick spacing t := by
  unfold ofTick TickPosition.ofTick
  by_cases spaced : spacing = 0
  · rw [orAbort, orAbort, if_neg (not_not.mpr spaced), if_neg (not_not.mpr spaced)]
    rfl
  · have span : Signed.Holds 32 (spacing * ticksPerArray : Int) := by
      simp only [Signed.holds_iff, ticksPerArray]
      omega
    have wide : (spacing * ticksPerArray : Int) ≠ 0 := by
      simp only [ticksPerArray]
      omega
    rw [or_abort_bind spaced, signed_exact span, ok_bind, or_abort_bind wide, orAbort, if_pos spaced, Nat.cast_mul]
    rfl

theorem shapes_refines {span : Nat} (wide : span ≠ 0) (index : Nat) (arrays : List TickArray) :
    checkShapes span index arrays = liftM (Window.checkShapes span index arrays) := by
  induction arrays generalizing index with
  | nil => rfl
  | cons array arrays ih =>
      unfold checkShapes Window.checkShapes
      by_cases full : array.ticks.length ≠ ticksPerArray
      · rw [if_pos full, if_pos full]
        rfl
      · rw [if_neg full, if_neg full, or_abort_bind (by exact_mod_cast wide)]
        by_cases misaligned : array.start.toInt % span ≠ 0
        · rw [if_pos misaligned, if_pos misaligned]
          rfl
        · rw [if_neg misaligned, if_neg misaligned]
          exact ih (index + 1)

theorem contiguous_refines {span : Nat} {step : Int} {direction : Direction} (narrow : span < 2 ^ 32)
    (moved : ∀ start, start + step = direction.along start span) (index : Nat) {start : Int} (fits : Signed.Holds 32 start)
    (arrays : List TickArray) :
    checkContiguous step index start arrays = liftM (Window.checkContiguous direction span index start arrays) := by
  induction arrays generalizing index start with
  | nil => rfl
  | cons array arrays ih =>
      have holds : Signed.Holds 64 (start + step) := by
        rw [Signed.holds_iff] at fits ⊢
        rw [moved]
        cases direction <;> simp only [Direction.along] <;> omega
      unfold checkContiguous Window.checkContiguous
      rw [signed_exact holds, ok_bind, moved]
      change _ = liftM (if array.start.toInt ≠ direction.along start span then _ else _)
      by_cases apart : array.start.toInt ≠ direction.along start span
      · rw [if_pos apart, if_pos apart]
        rfl
      · rw [if_neg apart, if_neg apart]
        exact ih (index + 1) array.start.holds_to_int

theorem check_arrays_refines {w : Window} (spaced : w.spacingNat ≠ 0) (first : TickArray) (rest : List TickArray) :
    checkArrays w first rest = liftM (do
      Window.checkShapes w.span 0 (first :: rest)
      Window.checkContiguous w.direction w.span 1 first.start.toInt rest
      return w : Except QuoteError Window) := by
  have narrow : w.spacingNat < 2 ^ 16 := w.spacing.isLt
  have size : w.span = w.spacingNat * 88 := rfl
  have number : ((w.spacingNat : Int) * ticksPerArray) = (w.span : Int) := (Nat.cast_mul _ _).symm
  have span : Signed.Holds 64 (w.span : Int) ∧ Signed.Holds 64 (-w.span : Int) := by
    simp only [Signed.holds_iff]
    omega
  unfold checkArrays
  rw [of_tick_refines narrow, TickPosition.ofTick, or_abort_bind spaced, number, signed_exact span.1, ok_bind]
  refine bind_eq_lift (shapes_refines (by omega) 0 (first :: rest)) fun _ _ => ?_
  cases w.direction with
  | aToB =>
      dsimp only
      rw [signed_exact span.2, ok_bind]
      refine bind_eq_lift (contiguous_refines (by omega) (fun start => ?_) 1 first.start.holds_to_int rest) fun _ _ => rfl
      exact Int.sub_eq_add_neg.symm
  | bToA =>
      dsimp only
      rw [signed_exact span.1, ok_bind]
      exact bind_eq_lift (contiguous_refines (by omega) (fun _ => rfl) 1 first.start.holds_to_int rest) fun _ _ => rfl

theorem of_slots_refines (slots : List Slot) (spacing : BitVec 16) (direction : Direction) :
    ofSlots slots spacing direction = liftM (Window.ofSlots slots spacing direction) := by
  unfold ofSlots Window.ofSlots
  dsimp only
  refine guard_eq_lift fun spaced => guard_eq_lift fun _ => ?_
  have positive : Window.spacingNat ⟨slots, spacing, direction⟩ ≠ 0 := fun zero => spaced (BitVec.eq_of_toNat_eq zero)
  cases Window.arrays ⟨slots, spacing, direction⟩ with
  | nil => rfl
  | cons first rest => exact check_arrays_refines positive first rest

theorem starts_at_refines (w : Window) (t : Int) : ∃ starts, startsAt w t = .ok starts ∧ (starts = true ↔ w.StartsAt t) := by
  have narrow : w.spacingNat < 2 ^ 16 := w.spacing.isLt
  unfold startsAt Window.StartsAt
  dsimp only
  by_cases within : Signed.Holds 32 (searchEntry w.direction w.spacingNat t)
  · rw [if_neg (not_not.mpr within)]
    cases w.arrays with
    | nil => exact ⟨false, rfl, by simp⟩
    | cons first rest =>
        have start := first.start.holds_to_int
        have number : ((w.spacingNat : Int) * ticksPerArray) = (TickArray.span w.spacingNat : Int) :=
          (Nat.cast_mul _ _).symm
        have size : TickArray.span w.spacingNat = w.spacingNat * 88 := rfl
        have span : Signed.Holds 64 (TickArray.span w.spacingNat : Int) ∧
            Signed.Holds 64 (first.start.toInt + TickArray.span w.spacingNat) := by
          simp only [Signed.holds_iff] at *
          omega
        dsimp only
        rw [number, signed_exact span.1, ok_bind, signed_exact span.2, ok_bind]
        exact ⟨_, rfl, by simp [within, TickArray.Contains]⟩
  · rw [if_pos within]
    exact ⟨false, rfl, by simp [within]⟩

section Near

def IsNear (i : Int) : Prop :=
  -2 ^ 30 ≤ i ∧ i ≤ 2 ^ 30

theorem number_near {spacing : Nat} {m : Int} (spaced : 0 < spacing) (near : IsNear (m * spacing)) : IsNear m :=
  TickPosition.number_between spaced (by decide) (by decide) near.1 near.2

theorem inside_of_near {spacing : Nat} {m : Int} (narrow : spacing < 2 ^ 16) (near : IsNear (m * spacing)) :
    TickPosition.IsInside spacing m := by
  have span := TickArray.span_eq spacing
  simp only [IsNear, TickPosition.IsInside, Signed.holds_iff] at *
  omega

theorem next_refines (d : Direction) {spacing : Nat} (narrow : spacing < 2 ^ 16) (position : TickPosition) :
    next d spacing position = position.next d spacing :=
  bind_congr_ok fun _ _ => bind_congr_ok fun u _ => of_tick_refines narrow u

theorem ahead_refines {w : Window} {array : Int} (first : IsNear w.firstArray) (near : IsNear array) :
    ahead? w array = .ok (w.ahead? array) := by
  have holds : Signed.Holds 64 (match w.direction with
      | .aToB => w.firstArray - array
      | .bToA => array - w.firstArray) := by
    simp only [IsNear, Signed.holds_iff] at *
    cases w.direction <;> dsimp only <;> omega
  unfold ahead?
  rw [signed_exact holds]
  rfl

end Near

-- A window whose positions, the one past its end included, are all near the range.
def IsCompact (w : Window) : Prop :=
  ∀ n, n ≤ w.size → IsNear (w.slotAt n * w.spacingNat)

theorem roomy_of_compact {w : Window} (compact : IsCompact w) : w.IsRoomy :=
  fun n within => inside_of_near w.spacing.isLt (compact n within)

section Compact

variable {w : Window} (accepted : w.IsAccepted) (compact : IsCompact w)

include accepted compact

theorem slot_near {n : Nat} (inside : n ≤ w.size) : IsNear (w.slotAt n / ticksPerArray) := by
  have near := number_near accepted.spaced (compact n inside)
  simp only [IsNear, ticksPerArray] at *
  omega

theorem first_near : IsNear w.firstArray := by
  have near := slot_near accepted compact (Nat.zero_le w.size)
  rw [Window.slot_at_array, Nat.zero_div, Nat.cast_zero, Direction.along_zero] at near
  exact near

theorem ahead_slot_refines {n : Nat} (within : n ≤ w.size) :
    ahead? w (TickPosition.ofNumber (w.slotAt n)).array = .ok (w.ahead? (TickPosition.ofNumber (w.slotAt n)).array) :=
  ahead_refines (first_near accepted compact) (slot_near accepted compact within)

theorem scan_refines {count n : Nat} (room : n + count = w.size) :
    scan w count (.ofNumber (w.slotAt n)) = w.scan count (.ofNumber (w.slotAt n)) := by
  have narrow : w.spacingNat < 2 ^ 16 := w.spacing.isLt
  have ahead := ahead_slot_refines accepted compact (Nat.le.intro room)
  induction count generalizing n with
  | zero =>
      unfold scan Window.scan
      exact congrArg (Reading.mk []) (congrArg (· >>= fun _ => w.boundary _) ahead)
  | succ count ih =>
      have within : n < w.size := by omega
      have further : n + 1 + count = w.size := by omega
      have reach : w.ahead? (TickPosition.ofNumber (w.slotAt n)).array = some (n / ticksPerArray) :=
        Window.ahead_inside accepted within
      have marked : n / ticksPerArray < maxArrays :=
        lt_of_lt_of_le (Window.place_lt within) accepted.few
      have moves := TickPosition.next_exact accepted.spaced (roomy_of_compact compact n (le_of_lt within)) w.direction
      have onWords := (next_refines w.direction narrow (.ofNumber (w.slotAt n))).trans moves
      rw [← w.slot_at_succ] at onWords moves
      unfold scan Window.scan
      rw [ahead, reach]
      dsimp only
      rw [if_neg (not_le.mpr marked)]
      cases w.initializedAt? (n / ticksPerArray) (TickPosition.ofNumber (w.slotAt n)).offset with
      | some tick => rfl
      | none =>
          rw [onWords, moves]
          dsimp only
          rw [ih further (ahead_slot_refines accepted compact (Nat.le.intro further))]

omit compact in
theorem entry_near {t : Int} (inside : TickIndex.InReach t) : IsNear (w.entry t * w.spacingNat) := by
  have narrow : w.spacingNat < 2 ^ 16 := w.spacing.isLt
  have near := Window.search_entry_near accepted.spaced t
  rw [Window.entry_eq inside.2]
  simp only [IsNear, TickIndex.InReach, TickIndex.minimum, TickIndex.maximum] at *
  omega

theorem next_initialized_refines {t : Int} (inside : TickIndex.InReach t) :
    nextInitialized w t = w.nextInitialized t ∧ (w.nextInitialized t).outcome ≠ .error .abort := by
  have narrow : w.spacingNat < 2 ^ 16 := w.spacing.isLt
  have entered := entry_near accepted inside
  refine ⟨?_, Window.next_initialized_ne_abort accepted (roomy_of_compact compact) (inside_of_near narrow entered)⟩
  have array : IsNear (TickPosition.ofNumber (w.entry t)).array := by
    have near := number_near accepted.spaced entered
    simp only [IsNear, TickPosition.ofNumber, ticksPerArray] at *
    omega
  have read : TickPosition.ofTick w.spacingNat (min (searchEntry w.direction w.spacingNat t) (Signed.greatest 32)) =
      .ok (.ofNumber (w.entry t)) := TickPosition.of_tick_eq (Nat.ne_of_gt accepted.spaced) _
  unfold nextInitialized Window.nextInitialized
  dsimp only
  rw [of_tick_refines narrow, read]
  dsimp only
  rw [ahead_refines (first_near accepted compact) array]
  cases ahead : w.ahead? (TickPosition.ofNumber (w.entry t)).array with
  | none => rfl
  | some place =>
      dsimp only
      by_cases present : w.arrays.length ≤ place
      · rw [if_pos present, if_pos present]
      · rw [if_neg present, if_neg present]
        obtain ⟨n, _, here, room⟩ := Window.exists_slot_of_ahead ahead (not_le.mp present)
        rw [← here] at room ⊢
        exact scan_refines accepted compact ((Nat.add_comm _ _).trans room)

end Compact

theorem compact_of_starts {w : Window} {t : Int} (accepted : w.IsAccepted) (starts : w.StartsAt t)
    (inside : TickIndex.InReach t) : IsCompact w := by
  intro n within
  obtain ⟨_, first, member, holds⟩ := starts
  have narrow : w.spacingNat < 2 ^ 16 := w.spacing.isLt
  have few : n ≤ 264 := le_trans within (le_trans (Nat.mul_le_mul_right _ accepted.few) (by decide))
  have ahead : n * w.spacingNat ≤ 264 * w.spacingNat := Nat.mul_le_mul_right _ few
  have found : w.arrays[0]? = some first := by
    rw [← List.head?_eq_getElem?]
    exact member
  have start := accepted.placed 0 first found
  rw [Nat.cast_zero, Direction.along_zero] at start
  have size : (w.span : Int) = w.spacingNat * 88 := TickArray.span_eq _
  have reach : TickArray.span w.spacingNat = w.spacingNat * 88 := rfl
  unfold TickArray.Contains searchEntry at holds
  rw [reach] at holds
  simp only [TickIndex.InReach, TickIndex.minimum, TickIndex.maximum] at inside
  unfold Window.slotAt Window.opening
  cases direction : w.direction with
  | aToB =>
      have place : (w.firstArray * ticksPerArray + (ticksPerArray - 1) - n) * w.spacingNat =
          first.start.toInt + 87 * w.spacingNat - (n * w.spacingNat : Nat) := by
        rw [start, size]
        push_cast [ticksPerArray]
        ring
      simp only [direction, Direction.along] at holds ⊢
      rw [place]
      simp only [IsNear]
      omega
  | bToA =>
      have place : (w.firstArray * ticksPerArray + n) * w.spacingNat =
          first.start.toInt + (n * w.spacingNat : Nat) := by
        rw [start, size]
        push_cast [ticksPerArray]
        ring
      simp only [direction, Direction.along] at holds ⊢
      rw [place]
      simp only [IsNear]
      omega

end Words

end PoolQuote
