/-!
Every way in which a quote can fail, the group each failure belongs to and its wording.
A `QuoteError` is reported to the caller. A `Failure` also covers a computation that is abandoned
because a machine word cannot hold a result that nothing reports.
-/

set_option autoImplicit false

namespace PoolQuote

inductive ErrorCode
  | math
  | token
  | swap
  | decode
  | config
  deriving DecidableEq, Repr

def ErrorCode.name : ErrorCode → String
  | .math => "MathError"
  | .token => "TokenError"
  | .swap => "SwapError"
  | .decode => "DecodeError"
  | .config => "ConfigError"

inductive SequenceFault
  | tooMany (count limit : Nat)
  | wrongLength (index actual expected : Nat)
  | misaligned (index : Nat) (start : Int) (span : Nat)
  | notContiguous (index : Nat)
  | tickOutside (tick : Int)
  | searchOutside (tick : Int)
  | poolTickOutside
  | addressCount (actual expected : Nat)
  | described (text : String)
  deriving DecidableEq, Repr

def SequenceFault.message : SequenceFault → String
  | .tooMany count limit =>
      s!"Sequence holds {count} tick arrays, at most {limit} are allowed."
  | .wrongLength index actual expected =>
      s!"TickArray at index {index} holds {actual} ticks, expected {expected}."
  | .misaligned index start span =>
      s!"TickArray at index {index} starts at {start}, which is not a multiple of {span}."
  | .notContiguous index => s!"TickArray at index {index} is unexpected for this sequence."
  | .tickOutside tick => s!"Provided tick index {tick} is out of bounds for this sequence."
  | .searchOutside tick =>
      "Swap input value traversed too many arrays. " ++
        s!"Out of bounds at attempt to traverse tick index - {tick}."
  | .poolTickOutside => "TickArray at index 0 does not contain the pool current tick index."
  | .addressCount actual expected =>
      s!"Sequence yields {actual} tick array addresses, expected {expected}."
  | .described text => text

inductive LayoutFault
  | endOfInput
  | invalidBool (byte : Nat)
  | described (text : String)
  deriving DecidableEq, Repr

def LayoutFault.message : LayoutFault → String
  | .endOfInput => "Unexpected length of input"
  | .invalidBool byte => s!"Invalid bool representation: {byte}"
  | .described text => text

inductive QuoteError
  | multiplicationOverflow
  | mulDivOverflow
  | mulShiftOverflow
  | divideByZero
  | numberDownCast
  | tokenMaxExceeded
  | tokenMinSubceeded
  | amountRemainingOverflow
  | amountCalcOverflow
  | liquidityOverflow
  | liquidityUnderflow
  | invalidTickIndex (tick : Int)
  | invalidTickSpacing (spacing : Nat)
  | tickNotFound (tick : Int) (spacing : Nat)
  | invalidTickArrayLength (expected actual : Nat)
  | tickArrayAbsent (index : Nat)
  | invalidSequence (fault : SequenceFault)
  | invalidDevFee
  | devFeeNeedsExactInput
  | limitDirection
  | sqrtPriceOutOfBounds
  | zeroAmount
  | outputBelowMinimum (threshold actual : Nat)
  | inputAboveMaximum (threshold actual : Nat)
  | tooManyArraysCrossed (count : Nat)
  | unknownMint (mint : String)
  | invalidPercentage (numerator denominator : Nat)
  | invalidTimestamp (timestamp lastUpdated : Nat)
  | accountTooSmall (size : Nat)
  | accountMismatch (account : String)
  | unknownAccount (discriminator : List UInt8)
  | accountBody (account : String) (fault : LayoutFault)
  | invalidConfig (field value expected : String)
  | configFile (text : String)
  | configSyntax (text : String)
  deriving DecidableEq, Repr

namespace QuoteError

def message : QuoteError → String
  | multiplicationOverflow => "Multiplication overflow"
  | mulDivOverflow => "Multiplication with division overflow"
  | mulShiftOverflow => "Multiplication with shift right overflow"
  | divideByZero => "Division by zero"
  | numberDownCast => "Unable to down cast number"
  | tokenMaxExceeded => "Exceeded token max"
  | tokenMinSubceeded => "Did not meet token min"
  | amountRemainingOverflow => "Amount remaining overflows"
  | amountCalcOverflow => "Amount calculated overflows"
  | liquidityOverflow => "Liquidity overflow"
  | liquidityUnderflow => "Liquidity underflow"
  | invalidTickIndex tick => s!"Tick index {tick} is out of bounds"
  | invalidTickSpacing spacing => s!"Tick spacing {spacing} is invalid"
  | tickNotFound tick spacing =>
      s!"Tick {tick} is not an initializable tick for spacing {spacing}"
  | invalidTickArrayLength expected actual =>
      s!"Tick array must hold {expected} ticks, got {actual}"
  | tickArrayAbsent index => s!"TickArray at index {index} is not initialized."
  | invalidSequence fault => fault.message
  | invalidDevFee => "Provided devFeePercentage must be less than 100%"
  | devFeeNeedsExactInput => "Dev fee quotes only support input-specified swaps"
  | limitDirection => "Provided SqrtPriceLimit is in the opposite direction of the trade."
  | sqrtPriceOutOfBounds => "Provided SqrtPriceLimit is out of bounds."
  | zeroAmount => "Provided tokenAmount is zero."
  | outputBelowMinimum threshold actual =>
      "Quoted amount for the other token is below the otherAmountThreshold " ++
        s!"({actual} < {threshold})."
  | inputAboveMaximum threshold actual =>
      "Quoted amount for the other token is above the otherAmountThreshold " ++
        s!"({actual} > {threshold})."
  | tooManyArraysCrossed count =>
      "Input amount causes the quote to traverse more than the allowable amount of " ++
        s!"tick-arrays {count}"
  | unknownMint mint => s!"Token mint {mint} does not match any tokens on this pool"
  | invalidPercentage numerator denominator =>
      s!"Percentage {numerator}/{denominator} is invalid"
  | invalidTimestamp timestamp lastUpdated =>
      s!"Timestamp {timestamp} is earlier than the last reward update {lastUpdated}"
  | accountTooSmall size => s!"Account data too small: {size} bytes"
  | accountMismatch account => s!"Account discriminator does not match {account}"
  | unknownAccount discriminator =>
      "Unknown account discriminator [" ++
        ", ".intercalate (discriminator.map fun b => toString b.toNat) ++ "]"
  | accountBody account fault => s!"Failed to deserialize {account}: " ++ fault.message
  | invalidConfig field value expected =>
      s!"Invalid config '{field}': got {value}, expected {expected}"
  | configFile text => s!"Config I/O error: {text}"
  | configSyntax text => s!"Config parse error: {text}"

def name : QuoteError → String
  | multiplicationOverflow => "MultiplicationOverflow"
  | mulDivOverflow => "MulDivOverflow"
  | mulShiftOverflow => "MultiplicationShiftRightOverflow"
  | divideByZero => "DivideByZero"
  | numberDownCast => "NumberDownCastError"
  | tokenMaxExceeded => "TokenMaxExceeded"
  | tokenMinSubceeded => "TokenMinSubceeded"
  | amountRemainingOverflow => "AmountRemainingOverflow"
  | amountCalcOverflow => "AmountCalcOverflow"
  | liquidityOverflow => "LiquidityOverflow"
  | liquidityUnderflow => "LiquidityUnderflow"
  | invalidTickIndex _ => "InvalidTickIndex"
  | invalidTickSpacing _ => "InvalidTickSpacing"
  | tickNotFound _ _ => "TickNotFound"
  | invalidTickArrayLength _ _ => "InvalidTickArrayLength"
  | tickArrayAbsent _ => "TickArrayIndexNotInitialized"
  | invalidSequence _ => "TickArraySequenceInvalid"
  | invalidDevFee => "InvalidDevFeePercentage"
  | devFeeNeedsExactInput => "DevFeeRequiresExactInput"
  | limitDirection => "InvalidSqrtPriceLimitDirection"
  | sqrtPriceOutOfBounds => "SqrtPriceOutOfBounds"
  | zeroAmount => "ZeroTradableAmount"
  | outputBelowMinimum _ _ => "AmountOutBelowMinimum"
  | inputAboveMaximum _ _ => "AmountInAboveMaximum"
  | tooManyArraysCrossed _ => "TickArrayCrossingAboveMax"
  | unknownMint _ => "InvalidTokenMint"
  | invalidPercentage _ _ => "InvalidPercentage"
  | invalidTimestamp _ _ => "InvalidTimestamp"
  | accountTooSmall _ => "AccountDataTooSmall"
  | accountMismatch _ => "AccountDiscriminatorMismatch"
  | unknownAccount _ => "UnknownAccountDiscriminator"
  | accountBody _ _ => "AccountDeserialize"
  | invalidConfig _ _ _ => "InvalidConfig"
  | configFile _ => "ConfigIo"
  | configSyntax _ => "ConfigParse"

def code : QuoteError → ErrorCode
  | multiplicationOverflow | mulDivOverflow | mulShiftOverflow | divideByZero
  | numberDownCast => .math
  | tokenMaxExceeded | tokenMinSubceeded | amountRemainingOverflow | amountCalcOverflow
  | liquidityOverflow | liquidityUnderflow => .token
  | invalidTickIndex _ | invalidTickSpacing _ | tickNotFound _ _ | invalidTickArrayLength _ _
  | tickArrayAbsent _ | invalidSequence _ | invalidDevFee | devFeeNeedsExactInput
  | limitDirection | sqrtPriceOutOfBounds | zeroAmount | outputBelowMinimum _ _
  | inputAboveMaximum _ _ | tooManyArraysCrossed _ | unknownMint _ | invalidPercentage _ _
  | invalidTimestamp _ _ => .swap
  | accountTooSmall _ | accountMismatch _ | unknownAccount _ | accountBody _ _ => .decode
  | invalidConfig _ _ _ | configFile _ | configSyntax _ => .config

def isSequenceError : QuoteError → Bool
  | invalidSequence _ | tickArrayAbsent _ | tooManyArraysCrossed _ => true
  | _ => false

def isSlippageError : QuoteError → Bool
  | outputBelowMinimum _ _ | inputAboveMaximum _ _ => true
  | _ => false

end QuoteError

-- How a computation ends without a value: with a reported error, or abandoned because a machine
-- word cannot hold a result or a divisor is zero where no error covers it.
inductive Failure
  | error (cause : QuoteError)
  | abort
  deriving DecidableEq, Repr

abbrev Outcome := Except Failure

instance : MonadLift (Except QuoteError) Outcome :=
  ⟨Except.mapError .error⟩

def orAbort {α : Type} (p : Prop) [Decidable p] (value : α) : Outcome α :=
  if p then .ok value else .error .abort

end PoolQuote
