import PoolQuote.Json.Lexeme

/-!
Reading a JSON text. A machine takes one lexeme at a time and keeps the arrays and objects that are
still open on a stack, so that values may nest to any depth.
-/

set_option autoImplicit false

namespace PoolQuote.Json

inductive Frame
  | array (items : List Json)
  | object (members : List (Option String × Json)) (key : Option String)

inductive Expected
  | value
  | firstItem
  | firstKey (members : List (Option String × Json))
  | key (members : List (Option String × Json))
  | colon (members : List (Option String × Json)) (key : Option String)
  | more (frame : Frame)
  | nothing (result : Json)

structure Machine where
  expected : Expected
  stack : List Frame

namespace Machine

def start : Machine :=
  ⟨.value, []⟩

def give (value : Json) : List Frame → Machine
  | [] => ⟨.nothing value, []⟩
  | .array items :: stack => ⟨.more (.array (value :: items)), stack⟩
  | .object members key :: stack => ⟨.more (.object ((key, value) :: members) none), stack⟩

def beginValue (stack : List Frame) : Lexeme → Option Machine
  | .null => some (give .null stack)
  | .bool b => some (give (.bool b) stack)
  | .integer negative magnitude => some (give (.integer negative magnitude) stack)
  | .decimal => some (give .decimal stack)
  | .string text => some (give (.string text) stack)
  | .openBracket => some ⟨.firstItem, stack⟩
  | .openBrace => some ⟨.firstKey [], stack⟩
  | _ => none

def step? (machine : Machine) (lexeme : Lexeme) : Option Machine :=
  let stack := machine.stack
  match machine.expected, lexeme with
  | .value, lexeme => beginValue stack lexeme
  | .firstItem, .closeBracket => some (give (.array []) stack)
  | .firstItem, lexeme => beginValue (.array [] :: stack) lexeme
  | .firstKey members, .closeBrace => some (give (.object members.reverse) stack)
  | .firstKey members, .string key => some ⟨.colon members key, stack⟩
  | .key members, .string key => some ⟨.colon members key, stack⟩
  | .colon members key, .colon => some ⟨.value, .object members key :: stack⟩
  | .more (.array items), .comma => some ⟨.value, .array items :: stack⟩
  | .more (.array items), .closeBracket => some (give (.array items.reverse) stack)
  | .more (.object members _), .comma => some ⟨.key members, stack⟩
  | .more (.object members _), .closeBrace => some (give (.object members.reverse) stack)
  | _, _ => none

def run : Machine → List Lexeme → Option Json
  | ⟨.nothing value, []⟩, [] => some value
  | _, [] => none
  | machine, lexeme :: lexemes =>
      match machine.step? lexeme with
      | none => none
      | some machine => run machine lexemes

end Machine

def parse (text : String) : Option Json :=
  (Lexeme.scan text.toList).bind Machine.start.run

end PoolQuote.Json
