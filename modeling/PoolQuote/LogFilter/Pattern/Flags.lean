import PoolQuote.Text.CharacterClass

/-!
The flags of a pattern, and the blanks and comments that one of them lets stand between its parts.
-/

set_option autoImplicit false

namespace PoolQuote.LogFilter.Pattern

structure Flags where
  ignoresCase : Bool
  unicode : Bool
  spaced : Bool
  deriving DecidableEq, Repr

def flagLetters : List Char :=
  ['i', 'm', 's', 'U', 'u', 'R', 'x', '-']

def readLetters (seen : List Char) : List Char → Option (List Char × Char × List Char)
  | [] => none
  | c :: rest =>
      if c = ':' ∨ c = ')' then
        if seen.head? = some '-' then none else some (seen.reverse, c, rest)
      else if c ∈ flagLetters ∧ c ∉ seen then readLetters (c :: seen) rest
      else none

def skipBlanks (inComment : Bool) : List Char → List Char
  | [] => []
  | c :: rest =>
      if inComment then skipBlanks (c ≠ '\n') rest
      else if isBlankChar c then skipBlanks false rest
      else if c = '#' then skipBlanks true rest
      else c :: rest

-- The first character that is no blank, a number sign on the way being passed over but not the
-- comment after it.
def peekBlanks (inComment : Bool) : List Char → Option Char
  | [] => none
  | c :: rest =>
      if isBlankChar c then peekBlanks inComment rest
      else if c = '#' ∧ ¬inComment then peekBlanks true rest
      else some c

namespace Flags

def initial : Flags :=
  ⟨false, true, false⟩

def update (flags : Flags) (letters : List Char) : Flags :=
  let choose (letter : Char) (old : Bool) : Bool :=
    if letter ∈ letters.takeWhile (· ≠ '-') then true
    else if letter ∈ letters then false
    else old
  { ignoresCase := choose 'i' flags.ignoresCase
    unicode := choose 'u' flags.unicode
    spaced := choose 'x' flags.spaced }

def skip (flags : Flags) (text : List Char) : List Char :=
  if flags.spaced then skipBlanks false text else text

def peek (flags : Flags) (text : List Char) : Option Char :=
  if flags.spaced then peekBlanks false text else text.head?

end Flags

end PoolQuote.LogFilter.Pattern
