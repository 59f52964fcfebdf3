import PoolQuote.LogFilter.Pattern
import PoolQuote.Text.Decimal

/-!
The values that a field may be asked to have: numbers and patterns.
-/

set_option autoImplicit false

namespace PoolQuote.LogFilter

def isExponent : List Char → Bool
  | [] => true
  | e :: text =>
      let digits := match text with
        | '+' :: digits | '-' :: digits => digits
        | digits => digits
      e ∈ ['e', 'E'] && !digits.isEmpty && digits.all Decimal.isDigit

def isNumber (text : List Char) : Bool :=
  let whole := text.takeWhile Decimal.isDigit
  let rest := text.dropWhile Decimal.isDigit
  let afterPoint := match rest with
    | '.' :: rest => rest
    | _ => []
  let fraction := afterPoint.takeWhile Decimal.isDigit
  let exponent := if rest.head? = some '.' then afterPoint.dropWhile Decimal.isDigit else rest
  String.ofList (text.map Char.toLower) ∈ ["inf", "infinity", "nan"] ||
    (!(whole ++ fraction).isEmpty && isExponent exponent)

-- Whether a value may be asked for. A number that is no pattern has a plus sign.
def isValue : List Char → Bool
  | '+' :: number => isNumber number
  | pattern => Pattern.isPattern pattern

end PoolQuote.LogFilter
