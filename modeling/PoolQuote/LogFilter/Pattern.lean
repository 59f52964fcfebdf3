import PoolQuote.LogFilter.Pattern.Set
import PoolQuote.Text.CharacterClass

/-!
Patterns for the values of a span's fields, which are regular expressions. A pattern is read for
whether it can be used: it is well formed, does not nest too deep, and needs no table of properties
or cases. The groups still open are kept on a stack.
-/

set_option autoImplicit false

namespace PoolQuote.LogFilter.Pattern

inductive Part
  | flags
  | expression (depth : Nat)
  deriving DecidableEq, Repr

def Part.depth : Part → Nat
  | flags => 0
  | expression depth => depth

structure GroupFrame where
  before : List Part
  branches : List Nat
  flags : Flags
  deriving DecidableEq, Repr

-- What has been read: of the innermost group the parts of the last branch, latest first, and the
-- depths of the branches before it; the groups around it; and the names of groups.
structure Reading where
  flags : Flags
  parts : List Part
  branches : List Nat
  frames : List GroupFrame
  names : List (List Char)
  deriving DecidableEq, Repr

def isName : List Char → Bool
  | [] => false
  | c :: rest =>
      (c = '_' || isAlphabeticChar c) &&
        rest.all fun c => c ∈ ['_', '.', '[', ']'] || isAlphanumericChar c

namespace Reading

def initial : Reading :=
  ⟨.initial, [], [], [], []⟩

def add (reading : Reading) (depth : Nat) : Reading :=
  { reading with parts := .expression depth :: reading.parts }

def branchDepth (reading : Reading) : Nat :=
  depthBeside (reading.parts.map Part.depth)

def depth (reading : Reading) : Nat :=
  depthBeside (reading.branchDepth :: reading.branches)

def branch (reading : Reading) : Reading :=
  { reading with parts := [], branches := reading.branchDepth :: reading.branches }

def enter (reading : Reading) (flags : Flags) : Reading :=
  let frame := ⟨reading.parts, reading.branches, reading.flags⟩
  { reading with flags, parts := [], branches := [], frames := frame :: reading.frames }

def leave? (reading : Reading) : Option Reading :=
  match reading.frames with
  | [] => none
  | frame :: frames =>
      some { reading with
        flags := frame.flags
        parts := .expression (reading.depth + 1) :: frame.before
        branches := frame.branches
        frames }

def repeat? (reading : Reading) : Option Reading :=
  match reading.parts with
  | .expression depth :: parts => some { reading with parts := .expression (depth + 1) :: parts }
  | _ => none

def take? (reading : Reading) (atom : Atom) : Option Reading :=
  if atom.isUsable reading.flags then some (reading.add 0) else none

def enterNamed? (reading : Reading) (text : List Char) : Option (Reading × List Char) :=
  let name := text.takeWhile (· ≠ '>')
  match text.dropWhile (· ≠ '>') with
  | _ :: rest =>
      if isName name ∧ name ∉ reading.names then
        some ({ reading.enter reading.flags with names := name :: reading.names }, rest)
      else none
  | [] => none

def enter? (reading : Reading) (text : List Char) : Option (Reading × List Char) :=
  match reading.flags.skip text with
  | '?' :: 'P' :: '<' :: text | '?' :: '<' :: text => reading.enterNamed? text
  | '?' :: text =>
      match readLetters [] text with
      | some (letters, ':', rest) => some (reading.enter (reading.flags.update letters), rest)
      | some (letters, _, rest) =>
          if letters.isEmpty then none
          else
            let flags := reading.flags.update letters
            some ({ reading with flags, parts := .flags :: reading.parts }, rest)
      | none => none
  | text => some (reading.enter reading.flags, text)

-- Reads the part that starts with a character. A counted repetition has no end, since a brace ends
-- the field. There is more fuel than there are characters.
def step (reading : Reading) (fuel : Nat) (c : Char) (rest : List Char) :
    Option (Reading × List Char) :=
  match c with
  | '(' => reading.enter? rest
  | ')' => reading.leave?.map (·, rest)
  | '|' => some (reading.branch, rest)
  | '[' => do
      let (depth, rest) ← readSet reading.flags fuel (c :: rest)
      return (reading.add depth, rest)
  | '*' | '+' | '?' =>
      reading.repeat?.map (·, if rest.head? = some '?' then rest.drop 1 else rest)
  | '\x7b' => none
  | '\\' => do
      let (atom, rest) ← readEscape reading.flags rest
      return (← reading.take? atom, rest)
  | '.' => (reading.take? .any).map (·, rest)
  | '^' | '$' => (reading.take? .anchor).map (·, rest)
  | c => (reading.take? (.literal c false)).map (·, rest)

def run (reading : Reading) : Nat → List Char → Option Reading
  | 0, _ => none
  | fuel + 1, text =>
      match reading.flags.skip text with
      | [] => some reading
      | c :: rest => do
          let (reading, rest) ← reading.step (fuel + 1) c rest
          reading.run fuel rest

end Reading

def isPattern (text : List Char) : Bool :=
  match Reading.initial.run (text.length + 1) text with
  | some reading => reading.frames.isEmpty && reading.depth ≤ maxDepth
  | none => false

end PoolQuote.LogFilter.Pattern
