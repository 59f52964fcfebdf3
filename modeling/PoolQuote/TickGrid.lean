import PoolQuote.TickArray
import PoolQuote.TickPrice

/-!
Where a tick lies in the division of the price axis into arrays. Arrays are numbered from the one
that starts at tick zero, and all divisions round down, so that a negative tick lies in an array
below zero.
-/

set_option autoImplicit false

namespace PoolQuote

structure TickPosition where
  array : Int
  offset : Int
  deriving DecidableEq

namespace TickPosition

def ofTick (spacing : Nat) (t : Int) : Outcome TickPosition :=
  orAbort (spacing ≠ 0)
    ⟨t / spacing / ticksPerArray, t % (spacing * ticksPerArray : Nat) / spacing⟩

def toTick (spacing : Nat) (position : TickPosition) : Outcome Int := do
  let first ← orAbort (Signed.Holds 32 (position.array * ticksPerArray))
    (position.array * ticksPerArray)
  let place ← orAbort (Signed.Holds 32 (first + position.offset)) (first + position.offset)
  orAbort (Signed.Holds 32 (place * spacing)) (place * spacing)

def next (direction : Direction) (spacing : Nat) (position : TickPosition) :
    Outcome TickPosition := do
  let t ← position.toTick spacing
  let u := match direction with
    | .aToB => t - spacing
    | .bToA => t + spacing
  ofTick spacing (← orAbort (Signed.Holds 32 u) u)

end TickPosition

-- The start of the array that lies `offset` arrays above the one holding `t`. The array must reach
-- into the range of tick indices.
def arrayStart (t : Int) (spacing : Nat) (offset : Int) : Except QuoteError Int :=
  if spacing = 0 then .error (.invalidTickSpacing spacing)
  else
    let span : Int := TickArray.span spacing
    let start := (t / span + offset) * span
    let lowest := TickIndex.minimum - (TickIndex.minimum.tmod span + span)
    if start < lowest ∨ TickIndex.maximum < start then
      .error (.invalidTickIndex (max (Signed.least 32) (min start (Signed.greatest 32))))
    else .ok start

def searchEntry (direction : Direction) (spacing : Nat) (t : Int) : Int :=
  match direction with
  | .aToB => t
  | .bToA => t + spacing

/-- Where the arrays start that a swap from tick `t` may read: at most three, fewer at the end of
the range of tick indices. -/
def arrayStarts (t : Int) (spacing : Nat) (direction : Direction) : List Int :=
  let entry := searchEntry direction spacing t
  if ¬Signed.Holds 32 entry then []
  else
    let sign : Int := match direction with
      | .aToB => -1
      | .bToA => 1
    let starts := (List.range maxArrays).map fun (k : Nat) => arrayStart entry spacing (sign * k)
    (starts.map Except.toOption).takeWhile Option.isSome |>.filterMap id

end PoolQuote
