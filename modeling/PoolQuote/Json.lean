/-!
Values of the JSON format.
-/

set_option autoImplicit false

namespace PoolQuote

-- A value. An integer keeps its sign, so that minus zero is told from zero; a number with a
-- fraction or an exponent is only known to be one. A text that escapes an unpaired surrogate has no
-- characters to give, and is `none`.
inductive Json
  | null
  | bool (b : Bool)
  | integer (negative : Bool) (magnitude : Nat)
  | decimal
  | string (text : Option String)
  | array (items : List Json)
  | object (members : List (Option String × Json))

namespace Json

def ofNat (n : Nat) : Json :=
  integer false n

def ofInt (i : Int) : Json :=
  integer (i < 0) i.natAbs

def text (s : String) : Json :=
  string (some s)

def record (members : List (String × Json)) : Json :=
  object (members.map fun (name, value) => (some name, value))

end Json

end PoolQuote
