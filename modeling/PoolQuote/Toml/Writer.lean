import PoolQuote.Text.Hex

/-!
Writing a text in the TOML format, in the plainest of four styles that can hold it.
-/

set_option autoImplicit false

namespace PoolQuote.Toml

inductive QuoteStyle
  | basic
  | literal
  | basicLines
  | literalLines
  deriving DecidableEq, Repr

def longestRun (c : Char) (text : List Char) : Nat :=
  (text.foldl (fun (longest, run) d =>
    let run := if d = c then run + 1 else 0
    (max longest run, run)) (0, 0)).1

def maxRun : Nat := 255

def IsCountable (text : List Char) : Prop :=
  longestRun '"' text ≤ maxRun ∧ longestRun '\'' text ≤ maxRun

instance (text : List Char) : Decidable (IsCountable text) :=
  inferInstanceAs (Decidable (_ ∧ _))

def needsEscape (c : Char) : Bool :=
  (c.toNat < 0x20 && c ≠ '\t' && c ≠ '\n') || c.toNat = 0x7F

namespace QuoteStyle

-- The first style that needs no escapes, but for blanks other than spaces; if none does, one with
-- escapes.
def ofText (text : List Char) : QuoteStyle :=
  let control := text.any needsEscape
  let backslash := '\\' ∈ text
  let newline := '\n' ∈ text
  let double := longestRun '"' text
  let single := longestRun '\'' text
  if ¬control ∧ ¬backslash ∧ double = 0 ∧ ¬newline then basic
  else if ¬control ∧ single = 0 ∧ ¬newline then literal
  else if ¬control ∧ ¬backslash ∧ double ≤ 2 then basicLines
  else if ¬control ∧ single ≤ 2 then literalLines
  else if newline then basicLines
  else basic

def delimiter : QuoteStyle → List Char
  | basic => ['"']
  | literal => ['\'']
  | basicLines => ['"', '"', '"']
  | literalLines => ['\'', '\'', '\'']

def hasLines : QuoteStyle → Bool
  | basic | literal => false
  | basicLines | literalLines => true

def hasEscapes : QuoteStyle → Bool
  | basic | basicLines => true
  | literal | literalLines => false

end QuoteStyle

def escapedCode (c : Char) : List Char :=
  let digit (unit : Nat) : Char := (Hex.digitChar (c.toNat / unit % 16)).toUpper
  ['\\', 'u', digit 0x1000, digit 0x100, digit 0x10, digit 1]

def escapedChar (lines : Bool) (c : Char) : List Char :=
  if c = '\x08' then ['\\', 'b']
  else if c = '\t' then ['\\', 't']
  else if c = '\n' then if lines then [c] else ['\\', 'n']
  else if c = '\x0c' then ['\\', 'f']
  else if c = '\r' then ['\\', 'r']
  else if c = '\\' then ['\\', '\\']
  else if needsEscape c then escapedCode c
  else [c]

-- Writes a text with escapes. On one line every quote is escaped; over several lines every third
-- one of a run, of which `run` have been written.
def escapedText (lines : Bool) (run : Nat) : List Char → List Char
  | [] => []
  | '"' :: rest =>
      if lines ∧ run < 2 then '"' :: escapedText lines (run + 1) rest
      else '\\' :: '"' :: escapedText lines 0 rest
  | c :: rest => escapedChar lines c ++ escapedText lines 0 rest

def quoteText (text : List Char) : List Char :=
  let style := QuoteStyle.ofText text
  let start := if style.hasLines ∧ '\n' ∈ text then ['\n'] else []
  let body := if style.hasEscapes then escapedText style.hasLines 0 text else text
  style.delimiter ++ start ++ body ++ style.delimiter

end PoolQuote.Toml
