import PoolQuote.Json.Parser
import PoolQuote.Json.Printer
import PoolQuote.Key
import PoolQuote.Word

/-!
Values with a JSON form, and the rules that records share. A record may be an object, whose members
come in any order, or an array of its fields in order. Members that a record does not know are
ignored; a known one may come only once.
-/

set_option autoImplicit false

namespace PoolQuote

class JsonForm (α : Type) where
  toJson : α → Json
  ofJson? : Json → Option α

namespace Json

def decode (α : Type) [JsonForm α] (text : String) : Option α :=
  (parse text).bind JsonForm.ofJson?

def encode {α : Type} [JsonForm α] (value : α) : String :=
  render (JsonForm.toJson value)

def named (name : String) (members : List (Option String × Json)) : List Json :=
  members.filterMap fun (key, value) => if key = some name then some value else none

def field? (members : List (Option String × Json)) (name : String) : Option (Option Json) :=
  match named name members with
  | [] => some none
  | [value] => some (some value)
  | _ => none

def fields (names : List String) : Json → Option (List (Option Json))
  | object members =>
      if members.all fun (key, _) => key.isSome then names.mapM (field? members) else none
  | array items =>
      if items.length ≤ names.length then
        some (items.map some ++ List.replicate (names.length - items.length) none)
      else none
  | _ => none

def isArray : Json → Bool
  | array _ => true
  | _ => false

def required {α : Type} [JsonForm α] (value : Option Json) : Option α :=
  value.bind JsonForm.ofJson?

def defaulted {α : Type} [JsonForm α] (default : α) : Option Json → Option α
  | none => some default
  | some value => JsonForm.ofJson? value

def alternative? : Json → Option String
  | string text => text
  | object [(key, null)] => key
  | _ => none

end Json

open Json

instance : JsonForm Bool where
  toJson := .bool
  ofJson?
    | .bool b => some b
    | _ => none

instance : JsonForm String where
  toJson := Json.text
  ofJson?
    | .string text => text
    | _ => none

instance (w : Nat) : JsonForm (BitVec w) where
  toJson x := Json.ofNat x.toNat
  ofJson?
    | .integer false magnitude =>
        if FitsBits w magnitude then some (BitVec.ofNat w magnitude) else none
    | _ => none

-- The number that an integer stands for. Minus zero is a number only in words wider than 64 bits.
def Json.signedValue? (w : Nat) : Json → Option Int
  | .integer false magnitude => some magnitude
  | .integer true magnitude => if magnitude = 0 ∧ w ≤ 64 then none else some (-magnitude)
  | _ => none

instance (w : Nat) : JsonForm (Signed w) where
  toJson x := Json.ofInt x.toInt
  ofJson? value := (Json.signedValue? w value).bind (Signed.ofInt? w)

instance : JsonForm Key where
  toJson key := Json.text key.text
  ofJson?
    | .string text => text.bind Key.ofText?
    | _ => none

instance {α : Type} [JsonForm α] : JsonForm (Option α) where
  toJson
    | none => .null
    | some value => JsonForm.toJson value
  ofJson?
    | .null => some none
    | value => (JsonForm.ofJson? value).map some

instance {α : Type} [JsonForm α] : JsonForm (List α) where
  toJson values := .array (values.map JsonForm.toJson)
  ofJson?
    | .array items => items.mapM JsonForm.ofJson?
    | _ => none

def vectorOf? {α : Type} {n : Nat} (values : List α) : Option (Vector α n) :=
  if h : values.length = n then some ⟨values.toArray, by simpa using h⟩ else none

instance {α : Type} [JsonForm α] (n : Nat) : JsonForm (Vector α n) where
  toJson values := JsonForm.toJson values.toList
  ofJson? value := (JsonForm.ofJson? value).bind vectorOf?

end PoolQuote
