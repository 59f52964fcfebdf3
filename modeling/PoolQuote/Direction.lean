/-!
The two tokens of a pool, the two directions of a trade and the side of it that is specified.
-/

set_option autoImplicit false

namespace PoolQuote

inductive Token
  | a
  | b
  deriving DecidableEq, Repr

def Token.other : Token → Token
  | a => b
  | b => a

-- Which token is paid in. Paying in `a` lowers the price, paying in `b` raises it.
inductive Direction
  | aToB
  | bToA
  deriving DecidableEq, Repr

inductive Side
  | input
  | output
  deriving DecidableEq, Repr

namespace Direction

def isAToB : Direction → Bool
  | aToB => true
  | bToA => false

def opposite : Direction → Direction
  | aToB => bToA
  | bToA => aToB

def inputToken : Direction → Token
  | aToB => .a
  | bToA => .b

def token : Direction → Side → Token
  | d, .input => d.inputToken
  | d, .output => d.inputToken.other

def ofToken : Token → Side → Direction
  | .a, .input => aToB
  | .b, .input => bToA
  | .a, .output => bToA
  | .b, .output => aToB

end Direction

namespace Side

def isInput : Side → Bool
  | input => true
  | output => false

def other : Side → Side
  | input => output
  | output => input

end Side

end PoolQuote
