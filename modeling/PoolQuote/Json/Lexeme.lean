import PoolQuote.Json
import PoolQuote.Text.Decimal
import PoolQuote.Text.Hex

/-!
The lexemes of a JSON text. They are found by a machine that takes one character at a time.
-/

set_option autoImplicit false

namespace PoolQuote.Json

inductive Lexeme
  | openBrace
  | closeBrace
  | openBracket
  | closeBracket
  | colon
  | comma
  | null
  | bool (b : Bool)
  | integer (negative : Bool) (magnitude : Nat)
  | decimal
  | string (text : Option String)
  deriving DecidableEq

namespace Lexeme

def isBlank (c : Char) : Bool :=
  c = ' ' ∨ c = '\t' ∨ c = '\n' ∨ c = '\r'

def ofWord? (word : List Char) : Option Lexeme :=
  if word = "null".toList then some null
  else if word = "true".toList then some (bool true)
  else if word = "false".toList then some (bool false)
  else none

def isNumberChar (c : Char) : Bool :=
  Decimal.isDigit c ∨ c ∈ ['-', '+', '.', 'e', 'E']

def isDigits (text : List Char) : Bool :=
  !text.isEmpty && text.all Decimal.isDigit

def isExponent : List Char → Bool
  | [] => true
  | e :: rest =>
      (e = 'e' ∨ e = 'E') &&
        match rest with
        | '+' :: digits => isDigits digits
        | '-' :: digits => isDigits digits
        | digits => isDigits digits

def isTail : List Char → Bool
  | '.' :: rest =>
      !(rest.takeWhile Decimal.isDigit).isEmpty && isExponent (rest.dropWhile Decimal.isDigit)
  | rest => isExponent rest

def ofMagnitude? (negative : Bool) (text : List Char) : Option Lexeme :=
  let whole := text.takeWhile Decimal.isDigit
  let tail := text.dropWhile Decimal.isDigit
  if whole.head? = some '0' ∧ whole ≠ ['0'] then none
  else if tail.isEmpty then (Decimal.toNat? whole).map (integer negative)
  else if whole.isEmpty ∨ !isTail tail then none
  else some decimal

def ofNumber? : List Char → Option Lexeme
  | '-' :: text => ofMagnitude? true text
  | text => ofMagnitude? false text

-- The part of a string that has been read, last character first. An escaped high surrogate waits
-- for its other half; without it the string has no text.
structure Partial where
  text : List Char
  readable : Bool
  high : Option Nat

namespace Partial

def empty : Partial :=
  ⟨[], true, none⟩

def push (p : Partial) (c : Char) : Partial :=
  ⟨c :: p.text, p.readable && p.high.isNone, none⟩

def isHigh (unit : Nat) : Bool :=
  0xD800 ≤ unit ∧ unit ≤ 0xDBFF

def isLow (unit : Nat) : Bool :=
  0xDC00 ≤ unit ∧ unit ≤ 0xDFFF

def pushUnit (p : Partial) (unit : Nat) : Partial :=
  match p.high with
  | some high =>
      if isLow unit then
        ⟨Char.ofNat (0x10000 + (high - 0xD800) * 0x400 + (unit - 0xDC00)) :: p.text,
          p.readable, none⟩
      else { p with readable := false, high := none }
  | none =>
      if isHigh unit then { p with high := some unit }
      else if isLow unit then { p with readable := false }
      else p.push (Char.ofNat unit)

def toLexeme (p : Partial) : Lexeme :=
  string (if p.readable && p.high.isNone then some (String.ofList p.text.reverse) else none)

end Partial

inductive Mode
  | between
  | word (letters : List Char)
  | number (chars : List Char)
  | inString (p : Partial)
  | escape (p : Partial)
  | hex (p : Partial) (digitsLeft : Nat) (unit : Nat)

def punctuation? (c : Char) : Option Lexeme :=
  match c with
  | '\x7b' => some openBrace
  | '\x7d' => some closeBrace
  | '[' => some openBracket
  | ']' => some closeBracket
  | ':' => some colon
  | ',' => some comma
  | _ => none

def escaped? (c : Char) : Option Char :=
  match c with
  | '"' => some '"'
  | '\\' => some '\\'
  | '/' => some '/'
  | 'b' => some '\x08'
  | 'f' => some '\x0c'
  | 'n' => some '\n'
  | 'r' => some '\r'
  | 't' => some '\t'
  | _ => none

def begin? (c : Char) : Option (List Lexeme × Mode) :=
  if isBlank c then some ([], .between)
  else if c = '"' then some ([], .inString .empty)
  else if c = '-' ∨ Decimal.isDigit c then some ([], .number [c])
  else if c.isLower then some ([], .word [c])
  else (punctuation? c).map fun lexeme => ([lexeme], .between)

def end? : Mode → Option (List Lexeme)
  | .between => some []
  | .word letters => (ofWord? letters.reverse).map fun lexeme => [lexeme]
  | .number chars => (ofNumber? chars.reverse).map fun lexeme => [lexeme]
  | _ => none

def step? (mode : Mode) (c : Char) : Option (List Lexeme × Mode) :=
  match mode with
  | .between => begin? c
  | .word letters =>
      if c.isLower then some ([], .word (c :: letters))
      else do
        let done ← end? mode
        let (next, mode) ← begin? c
        return (done ++ next, mode)
  | .number chars =>
      if isNumberChar c then some ([], .number (c :: chars))
      else do
        let done ← end? mode
        let (next, mode) ← begin? c
        return (done ++ next, mode)
  | .inString p =>
      if c = '"' then some ([p.toLexeme], .between)
      else if c = '\\' then some ([], .escape p)
      else if c.toNat < 0x20 then none
      else some ([], .inString (p.push c))
  | .escape p =>
      if c = 'u' then some ([], .hex p 4 0)
      else (escaped? c).map fun d => ([], .inString (p.push d))
  | .hex p digitsLeft unit =>
      (Hex.digit? c).map fun d =>
        let unit := 16 * unit + d
        if digitsLeft ≤ 1 then ([], .inString (p.pushUnit unit))
        else ([], .hex p (digitsLeft - 1) unit)

def scanFrom : List Lexeme → Mode → List Char → Option (List Lexeme)
  | found, mode, [] => (end? mode).map fun last => found.reverse ++ last
  | found, mode, c :: cs =>
      match step? mode c with
      | none => none
      | some (next, mode) => scanFrom (next.reverse ++ found) mode cs

def scan (text : List Char) : Option (List Lexeme) :=
  scanFrom [] .between text

end Lexeme

end PoolQuote.Json
