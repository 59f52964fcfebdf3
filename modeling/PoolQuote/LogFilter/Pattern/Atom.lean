import PoolQuote.LogFilter.Pattern.Flags
import PoolQuote.Text.Hex

/-!
The smallest parts of a pattern, and which of them can be used under which flags. No tables of
properties or of cases are kept: what needs one cannot be used, nor can what may match a part of
a character.
-/

set_option autoImplicit false

namespace PoolQuote.LogFilter.Pattern

inductive Atom
  | literal (c : Char) (isByte : Bool)
  | anchor
  | wordEdge
  | any
  | shorthand (negated : Bool)
  deriving DecidableEq, Repr

namespace Atom

def isUsable (flags : Flags) : Atom → Bool
  | literal c isByte =>
      if flags.unicode then !flags.ignoresCase
      else c.toNat < 0x80 || (!isByte && !flags.ignoresCase)
  | anchor => true
  | wordEdge => !flags.unicode
  | any => flags.unicode
  | shorthand negated => !flags.unicode && !negated

def isMember (flags : Flags) : Atom → Bool
  | literal c _ => if flags.unicode then !flags.ignoresCase else c.toNat < 0x80
  | shorthand negated => !flags.unicode && !negated
  | anchor | wordEdge | any => false

def areEnds : Atom → Atom → Bool
  | literal first _, literal last _ => first ≤ last
  | _, _ => false

end Atom

def readDigits (flags : Flags) (value : Nat) : Nat → List Char → Option (Nat × List Char)
  | 0, text => some (value, text)
  | _ + 1, [] => none
  | count + 1, c :: rest => do
      readDigits flags (16 * value + (← Hex.digit? c)) count (flags.skip rest)

def readCode (flags : Flags) (count : Nat) (text : List Char) : Option (Atom × List Char) := do
  let (value, rest) ← readDigits flags 0 count (flags.skip text)
  if value.isValidChar then return (.literal (Char.ofNat value) (count = 2), rest)
  none

def controls : List (Char × Char) :=
  [('a', '\x07'), ('f', '\x0c'), ('n', '\n'), ('r', '\r'), ('t', '\t'), ('v', '\x0b')]

def readEscape (flags : Flags) : List Char → Option (Atom × List Char)
  | [] => none
  | c :: rest =>
      match c with
      | 'x' => readCode flags 2 rest
      | 'u' => readCode flags 4 rest
      | 'U' => readCode flags 8 rest
      | 'd' | 's' | 'w' => some (.shorthand false, rest)
      | 'D' | 'S' | 'W' => some (.shorthand true, rest)
      | 'A' | 'z' => some (.anchor, rest)
      | 'b' | 'B' | '<' | '>' => some (.wordEdge, rest)
      | c =>
          match controls.lookup c with
          | some control => some (.literal control false, rest)
          | none =>
              if c.toNat < 0x80 ∧ ¬c.isAlphanum then some (.literal c false, rest) else none

end PoolQuote.LogFilter.Pattern
