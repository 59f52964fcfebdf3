import PoolQuote.LogFilter.Pattern.Atom

/-!
Sets of characters in brackets: characters, ranges, named classes and sets inside sets, with
operators between them. The sets still open are kept on a stack, so that how deep the parts of a
pattern nest is known when the last one closes.
-/

set_option autoImplicit false

namespace PoolQuote.LogFilter.Pattern

def maxDepth : Nat := 250

def depthBeside : List Nat → Nat
  | [] => 0
  | [depth] => depth
  | depths => 1 + depths.foldl max 0

-- An open set: the depths of what stood before it in the set around it, and the depth of what
-- stands to the left of its last operator.
structure SetFrame where
  before : List Nat
  left : Option Nat
  deriving DecidableEq, Repr

def SetFrame.depth (frame : SetFrame) (items : List Nat) : Nat :=
  match frame.left with
  | none => depthBeside items
  | some left => 1 + max left (depthBeside items)

def classNames : List String :=
  ["alnum", "alpha", "ascii", "blank", "cntrl", "digit", "graph", "lower", "print", "punct",
    "space", "upper", "word", "xdigit"]

def readNamed? : List Char → Option (Bool × List Char)
  | ':' :: text =>
      let negated := text.head? = some '^'
      let text := if negated then text.drop 1 else text
      match text.dropWhile (· ≠ ':') with
      | ':' :: ']' :: rest =>
          if String.ofList (text.takeWhile (· ≠ ':')) ∈ classNames then some (negated, rest)
          else none
      | _ => none
  | _ => none

def isNamedUsable (flags : Flags) (negated : Bool) : Bool :=
  if flags.unicode then !flags.ignoresCase else !negated

def readMember (flags : Flags) : List Char → Option (Atom × List Char)
  | [] => none
  | '\\' :: rest => readEscape flags rest
  | c :: rest => some (.literal c false, rest)

def readItem (flags : Flags) (text : List Char) : Option (List Char) := do
  let (first, rest) ← readMember flags text
  if first.isMember flags then
    match flags.skip rest with
    | '-' :: rest =>
        if flags.peek rest = some ']' ∨ flags.peek rest = some '-' then return '-' :: rest
        let (last, rest) ← readMember flags (flags.skip rest)
        if last.isMember flags ∧ first.areEnds last then return rest
        none
    | rest => return rest
  else none

-- Reads sets until none is open, and gives the depth of the outermost. At the start of a set dashes
-- stand for themselves, and so does a closing bracket that is the first of all.
def readSetFrom (flags : Flags) :
    Nat → List SetFrame → List Nat → Bool → List Char → Option (Nat × List Char)
  | 0, _, _, _, _ => none
  | fuel + 1, frames, items, atStart, text =>
      match flags.skip text with
      | [] => none
      | c :: rest =>
          if atStart ∧ (c = '-' ∨ c = ']' ∧ items = []) then
            if (Atom.literal c false).isMember flags then
              readSetFrom flags fuel frames (0 :: items) (c = '-') rest
            else none
          else if c = '[' then
            match if frames.isEmpty then none else readNamed? rest with
            | some (negated, rest) =>
                if isNamedUsable flags negated then
                  readSetFrom flags fuel frames (0 :: items) false rest
                else none
            | none =>
                match flags.skip rest with
                | '^' :: rest =>
                    if flags.unicode then
                      readSetFrom flags fuel (⟨items, none⟩ :: frames) [] true rest
                    else none
                | rest => readSetFrom flags fuel (⟨items, none⟩ :: frames) [] true rest
          else
            match frames with
            | [] => none
            | frame :: outer =>
                if c = ']' then
                  let depth := 1 + frame.depth items
                  if outer.isEmpty then some (depth, rest)
                  else readSetFrom flags fuel outer (depth :: frame.before) false rest
                else if c ∈ ['&', '-', '~'] ∧ rest.head? = some c then
                  let frame := { frame with left := some (frame.depth items) }
                  readSetFrom flags fuel (frame :: outer) [] false (rest.drop 1)
                else do
                  let rest ← readItem flags (c :: rest)
                  readSetFrom flags fuel frames (0 :: items) false rest

def readSet (flags : Flags) (fuel : Nat) (text : List Char) : Option (Nat × List Char) :=
  readSetFrom flags fuel [] [] false text

end PoolQuote.LogFilter.Pattern
