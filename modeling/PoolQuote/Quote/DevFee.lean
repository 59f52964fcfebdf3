import PoolQuote.Quote

/-!
Quotes that take a developer fee out of the amount paid in. The fee is taken before the swap, so
the pool sees only the rest; the estimates include it and the pool's own fee is given apart.
-/

set_option autoImplicit false

namespace PoolQuote

structure DevFeeQuote where
  quote : Quote
  swapFee : BitVec 64
  devFee : BitVec 64
  deriving DecidableEq

def Percentage.devFee (share : Percentage) (amount : BitVec 64) :
    Except QuoteError (BitVec 64) :=
  if ¬share.IsBelowOne then .error .invalidDevFee
  else
    let fee := amount.toNat * share.numerator.toNat / share.denominator.toNat
    if FitsBits 64 fee then .ok (BitVec.ofNat 64 fee) else .error .invalidDevFee

def saturatingSum (x y : BitVec 64) : BitVec 64 :=
  BitVec.ofNat 64 (min (x.toNat + y.toNat) (wordMax 64))

namespace QuoteRequest

def devFeeQuote (request : QuoteRequest) (share tolerance : Percentage) :
    Outcome DevFeeQuote := do
  let devFee ← share.devFee request.amount
  if request.side = .output then throw (.error .devFeeNeedsExactInput)
  let quote ← { request with amount := request.amount - devFee }.quote tolerance
  return {
    quote := { quote with
      amountIn := saturatingSum quote.amountIn devFee
      fee := saturatingSum quote.fee devFee }
    swapFee := quote.fee
    devFee }

end QuoteRequest

/-- The quote of spending one of a pool's tokens, developer fee included. A fee of the whole amount
is refused before any address is derived. -/
def devFeeQuoteByToken (poolAddress : Key) (pool : Pool) (mint : Key) (amount : BitVec 64)
    (tolerance share : Percentage) (source : Key → Option TickArray) (book : AddressBook) :
    Outcome DevFeeQuote × AddressBook :=
  if ¬share.IsBelowOne then (.error (.error .invalidDevFee), book)
  else
    match QuoteRequest.ofToken poolAddress pool mint amount .input source book with
    | .error failure => (.error failure, book)
    | .ok (request, book) => (request.devFeeQuote share tolerance, book)

end PoolQuote
