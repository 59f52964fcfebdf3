import PoolQuote.Text.Decimal
import PoolQuote.Text.Hex
import PoolQuote.Toml
import PoolQuote.Word

/-!
The TOML values that are one word: truth values, numbers, dates and times. Integers keep their
value; of the others it is only checked that they are well formed.
-/

set_option autoImplicit false

namespace PoolQuote.Toml.Scalar

def ungroup (isDigit : Char → Bool) : List Char → Option (List Char)
  | [] => none
  | [c] => if isDigit c then some [c] else none
  | c :: '_' :: rest =>
      if isDigit c then (ungroup isDigit rest).map (c :: ·) else none
  | c :: rest => if isDigit c then (ungroup isDigit rest).map (c :: ·) else none

def grouped? (base : Nat) (text : List Char) : Option Nat := do
  let isDigit (c : Char) : Bool := (Hex.digit? c).any (· < base)
  let digits ← (← ungroup isDigit text).mapM Hex.digit?
  return Radix.value base digits

def magnitude? (text : List Char) : Option Nat :=
  if text.head? = some '0' ∧ text ≠ ['0'] then none else grouped? 10 text

def sign : List Char → Bool × List Char
  | '-' :: rest => (true, rest)
  | '+' :: rest => (false, rest)
  | text => (false, text)

def inRange? (i : Int) : Option Int :=
  if Signed.Holds 64 i then some i else none

def integer? (text : List Char) : Option Int :=
  match text with
  | '0' :: 'x' :: digits => (grouped? 16 digits).bind fun n => inRange? n
  | '0' :: 'o' :: digits => (grouped? 8 digits).bind fun n => inRange? n
  | '0' :: 'b' :: digits => (grouped? 2 digits).bind fun n => inRange? n
  | _ =>
      let (negative, digits) := sign text
      (magnitude? digits).bind fun n => inRange? (if negative then -n else n)

-- The least number that is nearer to `2 ^ 1024` than to any smaller number of 53 significant bits,
-- or as near.
def overflow : Nat :=
  Nat.pow 2 1024 - Nat.pow 2 970

def isInfinite (n : Nat) (e : Int) : Bool :=
  let size := (Decimal.ofNat n).length + e
  if n = 0 ∨ size < 300 then false
  else if 320 < size then true
  else if 0 ≤ e then overflow ≤ n * Nat.pow 10 e.toNat
  else overflow * Nat.pow 10 (-e).toNat ≤ n

def exponent? (text : List Char) : Option Int := do
  let (negative, digits) := sign text
  let n ← grouped? 10 digits
  return if negative then -n else n

def isExponentMark (c : Char) : Bool :=
  c = 'e' ∨ c = 'E'

def isFloat (text : List Char) : Bool :=
  let (negative, body) := sign text
  if body = "inf".toList ∨ body = "nan".toList then true
  else
    let base := body.takeWhile fun c => !isExponentMark c
    let tail := body.dropWhile fun c => !isExponentMark c
    let whole := base.takeWhile (· ≠ '.')
    let fraction := base.dropWhile (· ≠ '.')
    if tail.isEmpty ∧ fraction.isEmpty then false
    else
      let parsed : Option (Nat × Int) := do
        let _ ← magnitude? whole
        let wholeDigits ← ungroup Decimal.isDigit whole
        let fractionDigits ← match fraction with
          | [] => some []
          | _ :: digits => ungroup Decimal.isDigit digits
        let e ← match tail with
          | [] => some 0
          | _ :: digits => exponent? digits
        let n ← Decimal.toNat? (wholeDigits ++ fractionDigits)
        return (n, e - fractionDigits.length)
      match parsed with
      | some (n, e) => negative || !isInfinite n e
      | none => false

def two? (a b : Char) (least most : Nat) : Option Nat := do
  let n ← Decimal.toNat? [a, b]
  if least ≤ n ∧ n ≤ most then some n else none

def isLeap (year : Nat) : Bool :=
  year % 4 = 0 ∧ (year % 100 ≠ 0 ∨ year % 400 = 0)

def daysIn (year month : Nat) : Nat :=
  if month = 2 then if isLeap year then 29 else 28
  else if month ∈ [4, 6, 9, 11] then 30
  else 31

def isSecondFraction : List Char → Bool
  | [] => true
  | c :: digits => c = '.' && !digits.isEmpty && digits.all Decimal.isDigit

def isTime : List Char → Bool
  | h₁ :: h₂ :: ':' :: m₁ :: m₂ :: ':' :: s₁ :: s₂ :: fraction =>
      (two? h₁ h₂ 0 23).isSome && (two? m₁ m₂ 0 59).isSome && (two? s₁ s₂ 0 60).isSome &&
        isSecondFraction fraction
  | _ => false

def isOffset : List Char → Bool
  | [] => true
  | ['Z'] => true
  | ['z'] => true
  | [c, h₁, h₂, ':', m₁, m₂] =>
      (c = '+' ∨ c = '-') && (two? h₁ h₂ 0 23).isSome && (two? m₁ m₂ 0 59).isSome
  | _ => false

def isTimeWithOffset (text : List Char) : Bool :=
  let inTime (c : Char) : Bool := Decimal.isDigit c || c = ':' || c = '.'
  isTime (text.takeWhile inTime) && isOffset (text.dropWhile inTime)

def afterDate? : List Char → Option (List Char)
  | y₁ :: y₂ :: y₃ :: y₄ :: '-' :: m₁ :: m₂ :: '-' :: d₁ :: d₂ :: rest => do
      let year ← Decimal.toNat? [y₁, y₂, y₃, y₄]
      let month ← two? m₁ m₂ 1 12
      let _ ← two? d₁ d₂ 1 (daysIn year month)
      return rest
  | _ => none

def isDate (text : List Char) : Bool :=
  afterDate? text = some []

def isDateTime (text : List Char) : Bool :=
  isTime text ||
    match afterDate? text with
    | some [] => true
    | some (c :: time) => (c = 'T' ∨ c = 't') && isTimeWithOffset time
    | none => false

def value? (word : List Char) : Option Toml :=
  if word = "true".toList ∨ word = "false".toList then some .other
  else
    match integer? word with
    | some i => some (.integer i)
    | none => if isFloat word || isDateTime word then some .other else none

def isWordChar (c : Char) : Bool :=
  c.isAlphanum || c ∈ ['_', '+', '-', '.', ':']

-- Reads a word's value. A date may be followed by a time after one blank.
def read (text : List Char) : Option (Toml × List Char) :=
  let word := text.takeWhile isWordChar
  let rest := text.dropWhile isWordChar
  match rest with
  | ' ' :: more =>
      if isDate word && isTimeWithOffset (more.takeWhile isWordChar) then
        some (.other, more.dropWhile isWordChar)
      else (value? word).map fun value => (value, rest)
  | _ => (value? word).map fun value => (value, rest)

end PoolQuote.Toml.Scalar
