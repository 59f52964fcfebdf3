import PoolQuote.Json
import PoolQuote.Text.Decimal
import PoolQuote.Text.Hex

/-!
Writing JSON texts, compact or with two blanks of indentation for each level.
-/

set_option autoImplicit false

namespace PoolQuote.Json

def quotedChar (c : Char) : List Char :=
  if c = '"' then ['\\', '"']
  else if c = '\\' then ['\\', '\\']
  else if c = '\x08' then ['\\', 'b']
  else if c = '\x0c' then ['\\', 'f']
  else if c = '\n' then ['\\', 'n']
  else if c = '\r' then ['\\', 'r']
  else if c = '\t' then ['\\', 't']
  else if c.toNat < 0x20 then
    ['\\', 'u', '0', '0', Hex.digitChar (c.toNat / 16), Hex.digitChar (c.toNat % 16)]
  else [c]

def quoted (text : Option String) : List Char :=
  '"' :: ((text.getD "").toList.flatMap quotedChar) ++ ['"']

def scalar : Json → List Char
  | null => "null".toList
  | bool true => "true".toList
  | bool false => "false".toList
  | integer true magnitude => '-' :: Decimal.ofNat magnitude
  | integer false magnitude => Decimal.ofNat magnitude
  | string text => quoted text
  | _ => "0.0".toList

def joined (separator : List Char) : List (List Char) → List Char
  | [] => []
  | [item] => item
  | item :: items => item ++ separator ++ joined separator items

mutual

def compact : Json → List Char
  | array items => '[' :: joined [','] (compactItems items) ++ [']']
  | object members => '\x7b' :: joined [','] (compactMembers members) ++ ['\x7d']
  | value => scalar value

def compactItems : List Json → List (List Char)
  | [] => []
  | item :: items => compact item :: compactItems items

def compactMembers : List (Option String × Json) → List (List Char)
  | [] => []
  | (key, value) :: members => (quoted key ++ ':' :: compact value) :: compactMembers members

end

def newLine (level : Nat) : List Char :=
  '\n' :: List.replicate (2 * level) ' '

def block (level : Nat) (opening closing : Char) (items : List (List Char)) : List Char :=
  if items.isEmpty then [opening, closing]
  else
    opening :: newLine (level + 1) ++ joined (',' :: newLine (level + 1)) items ++
      newLine level ++ [closing]

mutual

def pretty (level : Nat) : Json → List Char
  | array items => block level '[' ']' (prettyItems (level + 1) items)
  | object members => block level '\x7b' '\x7d' (prettyMembers (level + 1) members)
  | value => scalar value

def prettyItems (level : Nat) : List Json → List (List Char)
  | [] => []
  | item :: items => pretty level item :: prettyItems level items

def prettyMembers (level : Nat) : List (Option String × Json) → List (List Char)
  | [] => []
  | (key, value) :: members =>
      (quoted key ++ ':' :: ' ' :: pretty level value) :: prettyMembers level members

end

def render (value : Json) : String :=
  String.ofList (compact value)

def renderPretty (value : Json) : String :=
  String.ofList (pretty 0 value)

end PoolQuote.Json
