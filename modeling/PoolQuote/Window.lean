import PoolQuote.TickGrid

/-!
The arrays that one swap may read: up to three slots in the order in which the trade meets them. A
window's arrays are the leading run of slots that hold one. Looking up a tick and searching for the
next initialized one read arrays; a journal keeps which.
-/

set_option autoImplicit false

namespace PoolQuote

-- A computation's outcome with the slots whose arrays it read, in order.
structure Reading (α : Type) where
  reads : List Nat
  outcome : Outcome α

structure Journal where
  reads : List Nat
  crossings : Nat
  deriving DecidableEq

namespace Journal

def blank : Journal :=
  ⟨[], 0⟩

def note {α : Type} (journal : Journal) (reading : Reading α) : Journal :=
  { journal with reads := journal.reads ++ reading.reads }

end Journal

structure Window where
  slots : List Slot
  spacing : BitVec 16
  direction : Direction
  deriving DecidableEq

def presentArrays : List Slot → List TickArray
  | ⟨_, some array⟩ :: slots => array :: presentArrays slots
  | _ => []

namespace Window

def spacingNat (w : Window) : Nat :=
  w.spacing.toNat

def span (w : Window) : Nat :=
  TickArray.span w.spacingNat

def arrays (w : Window) : List TickArray :=
  presentArrays w.slots

def checkShapes (span : Nat) (index : Nat) : List TickArray → Except QuoteError Unit
  | [] => .ok ()
  | array :: arrays =>
      if array.ticks.length ≠ ticksPerArray then
        .error (.invalidSequence (.wrongLength index array.ticks.length ticksPerArray))
      else if array.start.toInt % span ≠ 0 then
        .error (.invalidSequence (.misaligned index array.start.toInt span))
      else checkShapes span (index + 1) arrays

def checkContiguous (direction : Direction) (span : Nat) (index : Nat) (start : Int) :
    List TickArray → Except QuoteError Unit
  | [] => .ok ()
  | array :: arrays =>
      let expected := match direction with
        | .aToB => start - span
        | .bToA => start + span
      if array.start.toInt ≠ expected then .error (.invalidSequence (.notContiguous index))
      else checkContiguous direction span (index + 1) array.start.toInt arrays

def ofSlots (slots : List Slot) (spacing : BitVec 16) (direction : Direction) :
    Except QuoteError Window := do
  let w : Window := ⟨slots, spacing, direction⟩
  if spacing = 0 then throw (.invalidTickSpacing 0)
  if maxArrays < slots.length then
    throw (.invalidSequence (.tooMany slots.length maxArrays))
  match w.arrays with
  | [] => throw (.tickArrayAbsent 0)
  | first :: rest =>
      checkShapes w.span 0 (first :: rest)
      checkContiguous direction w.span 1 first.start.toInt rest
      return w

def firstArray (w : Window) : Int :=
  match w.arrays with
  | [] => 0
  | first :: _ => first.start.toInt / w.spacingNat / ticksPerArray

def ahead? (w : Window) (array : Int) : Option Nat :=
  let distance : Int := match w.direction with
    | .aToB => w.firstArray - array
    | .bToA => array - w.firstArray
  if 0 ≤ distance ∧ distance < maxArrays then some distance.toNat else none

def tickAt? (w : Window) (place : Nat) (offset : Int) : Option Tick :=
  if offset < 0 then none else (w.arrays[place]?).bind fun array => array.tick? offset.toNat

def tick (w : Window) (t : Int) : Reading Tick :=
  if t % w.spacingNat ≠ 0 then ⟨[], .error (.error (.tickNotFound t w.spacingNat))⟩
  else match TickPosition.ofTick w.spacingNat t with
  | .error failure => ⟨[], .error failure⟩
  | .ok position =>
      match w.ahead? position.array with
      | none => ⟨[], .error (.error (.invalidSequence (.tickOutside t)))⟩
      | some place =>
          if w.arrays.length ≤ place then ⟨[], .error (.error (.tickArrayAbsent place))⟩
          else match w.tickAt? place position.offset with
          | some tick => ⟨[place], .ok tick⟩
          | none => ⟨[place], .error (.error (.tickNotFound t w.spacingNat))⟩

structure Stop where
  index : Int
  tick : Option Tick
  deriving DecidableEq

def boundary (w : Window) (past : TickPosition) : Outcome Stop := do
  let t ← past.toTick w.spacingNat
  let last := match w.direction with
    | .aToB => t + w.spacingNat
    | .bToA => t - 1
  return ⟨TickIndex.clamp (← orAbort (Signed.Holds 32 last) last), none⟩

def initializedAt? (w : Window) (place : Nat) (offset : Int) : Option Tick :=
  (w.tickAt? place offset).filter Tick.initialized

def scan (w : Window) : Nat → TickPosition → Reading Stop
  | 0, position => ⟨[], w.boundary position⟩
  | n + 1, position =>
      match w.ahead? position.array with
      | none => ⟨[], w.boundary position⟩
      | some place =>
          match w.initializedAt? place position.offset with
          | some tick =>
              ⟨[place], (position.toTick w.spacingNat).map fun t => ⟨t, some tick⟩⟩
          | none =>
              match position.next w.direction w.spacingNat with
              | .error failure => ⟨[place], .error failure⟩
              | .ok next =>
                  let rest := scan w n next
                  ⟨place :: rest.reads, rest.outcome⟩

def remaining (w : Window) (place : Nat) (offset : Int) : Nat :=
  (w.arrays.length - 1 - place) * ticksPerArray +
    match w.direction with
    | .aToB => offset.toNat + 1
    | .bToA => ticksPerArray - offset.toNat

/-- Searches for the next initialized tick: at or below `t` when the price falls, above `t` when it
rises. -/
def nextInitialized (w : Window) (t : Int) : Reading Stop :=
  let entry := min (searchEntry w.direction w.spacingNat t) (Signed.greatest 32)
  match TickPosition.ofTick w.spacingNat entry with
  | .error failure => ⟨[], .error failure⟩
  | .ok position =>
      match w.ahead? position.array with
      | none =>
          ⟨[], do
            let u ← position.toTick w.spacingNat
            throw (.error (.invalidSequence (.searchOutside u)))⟩
      | some place =>
          if w.arrays.length ≤ place then ⟨[], .error (.error (.tickArrayAbsent place))⟩
          else w.scan (w.remaining place position.offset) position

def StartsAt (w : Window) (t : Int) : Prop :=
  let entry := searchEntry w.direction w.spacingNat t
  Signed.Holds 32 entry ∧ ∃ first ∈ w.arrays.head?, first.Contains entry w.spacingNat

instance (w : Window) (t : Int) : Decidable (w.StartsAt t) :=
  inferInstanceAs (Decidable (_ ∧ _))

def touched (w : Window) (journal : Journal) : List Key :=
  (w.slots.zipIdx.filter fun (_, place) => place ∈ journal.reads).map fun (slot, _) =>
    slot.address

-- The touched addresses, filled up to `count` with the last one; with none touched, the first
-- slot's address fills every place.
def addresses (w : Window) (journal : Journal) (count : Nat) : List Key :=
  let touched := w.touched journal
  match touched.getLast?.or (w.slots.head?.map Slot.address) with
  | some fill => touched ++ List.replicate (count - touched.length) fill
  | none => touched

def initializedTicks (w : Window) : List (Int × Tick) :=
  w.arrays.flatMap fun array =>
    let indexed := array.ticks.zipIdx.map fun (tick, k) =>
      (array.start.toInt + k * w.spacingNat, tick)
    let ordered := match w.direction with
      | .aToB => indexed.reverse
      | .bToA => indexed
    ordered.filter fun (_, tick) => tick.initialized

end Window

end PoolQuote
