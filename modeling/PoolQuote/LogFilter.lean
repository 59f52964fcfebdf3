import PoolQuote.Error
import PoolQuote.LogFilter.Value
import PoolQuote.Text.CharacterClass

/-!
Log filters. A filter is a list of directives with commas between them. A directive has a level, a
target, or both as `target=level`; the target may have a span in brackets, and the span fields in
braces. What is not a directive is left out. No answer depends on what a filter lets through, so
a filter is read only for whether the reading ends: positions are counted in bytes from the first
character that is no blank, but the parts of a directive are cut out of the text with its blanks,
and a cut inside a character gives the reading up.
-/

set_option autoImplicit false

namespace PoolQuote.LogFilter

def dropBytes? : Nat → List Char → Option (List Char)
  | 0, text => some text
  | _ + 1, [] => none
  | n + 1, c :: text =>
      if c.utf8Size ≤ n + 1 then dropBytes? (n + 1 - c.utf8Size) text else none

def takeBytes? : Nat → List Char → Option (List Char)
  | 0, _ => some []
  | _ + 1, [] => none
  | n + 1, c :: text =>
      if c.utf8Size ≤ n + 1 then (takeBytes? (n + 1 - c.utf8Size) text).map (c :: ·) else none

inductive Flaw
  | malformed
  | brokenCharacter
  deriving DecidableEq, Repr

inductive Part
  | start
  | levelOrTarget (first : Nat)
  | span (first : Nat)
  | field (first : Nat)
  | fieldsEnd
  | spanEnd
  | level (first : Nat)
  deriving DecidableEq, Repr

def cut (text : List Char) (first last : Nat) : Except Flaw (List Char) :=
  match (dropBytes? first text).bind (takeBytes? (last - first)) with
  | some part => .ok part
  | none => .error .brokenCharacter

def cutRest (text : List Char) (first : Nat) : Except Flaw (List Char) :=
  match dropBytes? first text with
  | some part => .ok part
  | none => .error .brokenCharacter

def isField (field : List Char) : Bool :=
  match field.dropWhile (· ≠ '=') with
  | [] => !field.isEmpty
  | _ :: value => isValue (value.takeWhile (· ≠ '='))

def isStart (c : Char) : Bool :=
  c ∈ ['-', ':', '_'] || isAlphanumericChar c

def andThen (checked : Except Flaw (List Char)) (part : Part) : Except Flaw Part :=
  checked.map fun _ => part

def step (text : List Char) (i : Nat) (c : Char) : Part → Except Flaw Part
  | .start =>
      if c = '[' then .ok (.span (i + 1))
      else if isStart c then .ok (.levelOrTarget i)
      else .error .malformed
  | .levelOrTarget first =>
      if c = '=' then andThen (cut text first i) (.level (i + 1))
      else if c = '[' then andThen (cut text first i) (.span (i + 1))
      else .ok (.levelOrTarget first)
  | .span first =>
      if c = ']' then andThen (cut text first i) .spanEnd
      else if c = '\x7b' then andThen (cut text first i) (.field (i + 1))
      else .ok (.span first)
  | .field first =>
      if c = '\x7d' then do
        if isField (← cut text first i) then return .fieldsEnd
        throw .malformed
      else .ok (.field first)
  | .fieldsEnd => if c = ']' then .ok .spanEnd else .error .malformed
  | .spanEnd => if c = '=' then .ok (.level (i + 1)) else .error .malformed
  | .level first => .ok (.level first)

def stepsFrom (text : List Char) (i : Nat) (part : Part) : List Char → Except Flaw Part
  | [] => .ok part
  | c :: rest => do stepsFrom text (i + c.utf8Size) (← step text i c part) rest

def finish (text : List Char) : Part → Except Flaw Unit
  | .levelOrTarget first | .level first => do let _ ← cutRest text first
  | .spanEnd => .ok ()
  | .start | .span _ | .field _ | .fieldsEnd => .error .malformed

def trim (text : List Char) : List Char :=
  ((text.dropWhile isBlankChar).reverse.dropWhile isBlankChar).reverse

def readDirective (text : List Char) : Except Flaw Unit := do
  finish text (← stepsFrom text 0 .start (trim text))

def isReadable (text : List Char) : Bool :=
  match readDirective text with
  | .ok () | .error .malformed => true
  | .error .brokenCharacter => false

/-- Reads a filter, which gives up only where a directive is cut inside a character. -/
def read (filter : String) : Outcome Unit :=
  orAbort ((filter.toList.splitOn ',').all isReadable) ()

end PoolQuote.LogFilter
