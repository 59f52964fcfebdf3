import PoolQuote.Text.Decimal
import PoolQuote.Text.Hex

/-!
Quoted texts of the TOML format: basic ones with escapes, literal ones without, and both over
several lines. Each reader starts after the opening quotes and gives the text's characters and the
rest after the closing quotes.
-/

set_option autoImplicit false

namespace PoolQuote.Toml.Quoted

def isBlank (c : Char) : Bool :=
  c = ' ' ∨ c = '\t'

def isPlain (c : Char) : Bool :=
  c = '\t' ∨ (0x20 ≤ c.toNat ∧ c.toNat ≠ 0x7F)

def escaped? (c : Char) : Option Char :=
  match c with
  | 'b' => some '\x08'
  | 't' => some '\t'
  | 'n' => some '\n'
  | 'f' => some '\x0c'
  | 'r' => some '\r'
  | '"' => some '"'
  | '\\' => some '\\'
  | _ => none

def scalar? (digits : List Char) : Option Char := do
  let code := Radix.value 16 (← digits.mapM Hex.digit?)
  if code < 0xD800 ∨ (0xDFFF < code ∧ code < 0x110000) then some (Char.ofNat code) else none

def afterNewline? : List Char → Option (List Char)
  | '\n' :: rest => some rest
  | '\r' :: '\n' :: rest => some rest
  | _ => none

def skipNewline (text : List Char) : List Char :=
  (afterNewline? text).getD text

def basic (done : List Char) : List Char → Option (List Char × List Char)
  | [] => none
  | '"' :: rest => some (done.reverse, rest)
  | '\\' :: 'u' :: a :: b :: c :: d :: rest => do
      basic ((← scalar? [a, b, c, d]) :: done) rest
  | '\\' :: 'U' :: a :: b :: c :: d :: e :: f :: g :: h :: rest => do
      basic ((← scalar? [a, b, c, d, e, f, g, h]) :: done) rest
  | '\\' :: c :: rest => do basic ((← escaped? c) :: done) rest
  | c :: rest => if c ≠ '\\' ∧ isPlain c then basic (c :: done) rest else none

def literal (done : List Char) : List Char → Option (List Char × List Char)
  | [] => none
  | '\'' :: rest => some (done.reverse, rest)
  | c :: rest => if isPlain c then literal (c :: done) rest else none

def endsLine (text : List Char) : Bool :=
  (afterNewline? (text.dropWhile isBlank)).isSome

-- Reads a basic text over several lines. A backslash at the end of a line skips all blanks and line
-- ends after it, which `skipping` says are being skipped. One or two quotes stand for themselves,
-- also right before the closing three.
def basicLines (done : List Char) (skipping : Bool) : List Char → Option (List Char × List Char)
  | [] => none
  | '"' :: '"' :: '"' :: '"' :: '"' :: rest => some (('"' :: '"' :: done).reverse, rest)
  | '"' :: '"' :: '"' :: '"' :: rest => some (('"' :: done).reverse, rest)
  | '"' :: '"' :: '"' :: rest => some (done.reverse, rest)
  | '\\' :: 'u' :: a :: b :: c :: d :: rest => do
      basicLines ((← scalar? [a, b, c, d]) :: done) false rest
  | '\\' :: 'U' :: a :: b :: c :: d :: e :: f :: g :: h :: rest => do
      basicLines ((← scalar? [a, b, c, d, e, f, g, h]) :: done) false rest
  | '\\' :: c :: rest =>
      if endsLine (c :: rest) then basicLines done true (c :: rest)
      else do basicLines ((← escaped? c) :: done) false rest
  | '\r' :: '\n' :: rest =>
      if skipping then basicLines done true rest else basicLines ('\n' :: done) false rest
  | c :: rest =>
      if skipping && (isBlank c || c = '\n') then basicLines done true rest
      else if c = '\n' || (c ≠ '\\' && isPlain c) then basicLines (c :: done) false rest
      else none

def literalLines (done : List Char) : List Char → Option (List Char × List Char)
  | [] => none
  | '\'' :: '\'' :: '\'' :: '\'' :: '\'' :: rest => some (('\'' :: '\'' :: done).reverse, rest)
  | '\'' :: '\'' :: '\'' :: '\'' :: rest => some (('\'' :: done).reverse, rest)
  | '\'' :: '\'' :: '\'' :: rest => some (done.reverse, rest)
  | '\r' :: '\n' :: rest => literalLines ('\n' :: done) rest
  | c :: rest => if c = '\n' || isPlain c then literalLines (c :: done) rest else none

def line? : List Char → Option (List Char × List Char)
  | '"' :: rest => basic [] rest
  | '\'' :: rest => literal [] rest
  | _ => none

def any? : List Char → Option (List Char × List Char)
  | '"' :: '"' :: '"' :: rest => basicLines [] false (skipNewline rest)
  | '\'' :: '\'' :: '\'' :: rest => literalLines [] (skipNewline rest)
  | text => line? text

end PoolQuote.Toml.Quoted
