import PoolQuote.Configuration.File
import PoolQuote.LogFilter
import PoolQuote.Snapshot

/-!
The command that quotes one swap against a snapshot: its arguments, and what it prints for them.
The files that it reads are given as a function from paths to what they lead to.
-/

set_option autoImplicit false

namespace PoolQuote

namespace CommandLine

inductive OptionName
  | config
  | snapshot
  | amount
  | inputMint
  | outputMint
  | slippageBps
  | devFeeBps
  | timestamp
  deriving DecidableEq, Repr

namespace OptionName

def ofLong? : String → Option OptionName
  | "config" => some config
  | "snapshot" => some snapshot
  | "amount" => some amount
  | "input-mint" => some inputMint
  | "output-mint" => some outputMint
  | "slippage-bps" => some slippageBps
  | "dev-fee-bps" => some devFeeBps
  | "timestamp" => some timestamp
  | _ => none

def ofShort? : Char → Option OptionName
  | 'c' => some config
  | 's' => some snapshot
  | 'a' => some amount
  | _ => none

def isNumber : OptionName → Bool
  | config | snapshot | inputMint | outputMint => false
  | amount | slippageBps | devFeeBps | timestamp => true

end OptionName

def number? (text : String) : Option (BitVec 64) := do
  let digits := match text.toList with
    | '+' :: digits => digits
    | digits => digits
  unsignedOfInt? 64 (← Decimal.toNat? digits)

abbrev Given := List (OptionName × String)

def take? (given : Given) (name : OptionName) (value : String) : Option Given :=
  if (given.lookup name).isSome then none
  else if name.isNumber ∧ (number? value).isNone then none
  else some ((name, value) :: given)

structure MintArgument where
  mint : String
  side : Side
  deriving DecidableEq

structure Arguments where
  config : Option String
  snapshot : String
  amount : BitVec 64
  mint : MintArgument
  slippageBps : Option (BitVec 64)
  devFeeBps : Option (BitVec 64)
  timestamp : Option (BitVec 64)
  deriving DecidableEq

inductive Invocation
  | quote (arguments : Arguments)
  | help
  | version
  | wrongUsage
  deriving DecidableEq

def Arguments.ofGiven? (given : Given) : Option Arguments := do
  let number (name : OptionName) : Option (BitVec 64) := (given.lookup name).bind number?
  let mint ← match given.lookup .inputMint, given.lookup .outputMint with
    | some mint, none => some ⟨mint, .input⟩
    | none, some mint => some ⟨mint, .output⟩
    | _, _ => none
  return {
    config := given.lookup .config
    snapshot := ← given.lookup .snapshot
    amount := ← number .amount
    mint
    slippageBps := number .slippageBps
    devFeeBps := number .devFeeBps
    timestamp := number .timestamp }

inductive Word
  | waiting (name : OptionName)
  | valued (name : OptionName) (value : String)
  | help
  | version
  | ending
  | unknown
  deriving DecidableEq

def Word.ofLong (text : List Char) : Word :=
  let name := String.ofList (text.takeWhile (· ≠ '='))
  match text.dropWhile (· ≠ '=') with
  | [] =>
      if name = "help" then help
      else if name = "version" then version
      else (OptionName.ofLong? name).elim unknown waiting
  | _ :: value =>
      (OptionName.ofLong? name).elim unknown fun name => valued name (String.ofList value)

def Word.ofShort : List Char → Word
  | [] => unknown
  | 'h' :: _ => help
  | 'V' :: _ => version
  | c :: value =>
      match OptionName.ofShort? c with
      | none => unknown
      | some name =>
          match value with
          | [] => waiting name
          | '=' :: value => valued name (String.ofList value)
          | value => valued name (String.ofList value)

def Word.ofArgument (argument : String) : Word :=
  match argument.toList with
  | ['-', '-'] => ending
  | '-' :: '-' :: text => ofLong text
  | '-' :: text => ofShort text
  | _ => unknown

def isValue (argument : String) : Bool :=
  argument = "-" || argument.toList.head? ≠ some '-'

def readFrom (given : Given) : List String → Invocation
  | [] => (Arguments.ofGiven? given).elim .wrongUsage .quote
  | argument :: rest =>
      match Word.ofArgument argument with
      | .help => .help
      | .version => .version
      | .unknown => .wrongUsage
      | .ending =>
          if rest.isEmpty then (Arguments.ofGiven? given).elim .wrongUsage .quote else .wrongUsage
      | .valued name value =>
          match take? given name value with
          | none => .wrongUsage
          | some given => readFrom given rest
      | .waiting name =>
          match rest with
          | [] => .wrongUsage
          | value :: rest =>
              if isValue value then
                match take? given name value with
                | none => .wrongUsage
                | some given => readFrom given rest
              else .wrongUsage

def read (arguments : List String) : Invocation :=
  readFrom [] arguments

inductive Ending
  | printed (text : String)
  | failed (message : String)
  | givenUp
  deriving DecidableEq

abbrev Run := Except Ending

def ofReported {α : Type} : Except QuoteError α → Run α
  | .ok value => .ok value
  | .error cause => .error (.failed cause.message)

def ofOutcome {α : Type} : Outcome α → Run α
  | .ok value => .ok value
  | .error (.error cause) => .error (.failed cause.message)
  | .error .abort => .error .givenUp

def orFail {α : Type} (value : Option α) (message : String) : Run α :=
  value.elim (.error (.failed message)) .ok

-- The developer fee to charge. The arguments may change its rate but not who receives it.
def devFee? (given : Option (BitVec 64)) (configured : Option DevFeeTerms) :
    Run (Option DevFeeTerms) :=
  match configured with
  | none =>
      if given.any (· ≠ 0) then
        .error (.failed "--dev-fee-bps needs a dev_fee wallet in the config")
      else .ok none
  | some terms =>
      let percentage := (given.map Percentage.ofBasisPoints).getD terms.percentage
      .ok (if percentage.isZero then none else some { terms with percentage })

/-- The quote for the arguments, as JSON. With a developer fee it also names the fee's wallet. The
log filter is read once the configuration is known, before the snapshot. -/
def quote (files : String → Except FileFault String) (arguments : Arguments) : Run Json := do
  let config ← match arguments.config with
    | some path => ofReported (Configuration.load path (files path))
    | none => .ok .default
  ofOutcome (LogFilter.read config.logFilter)
  let path := arguments.snapshot
  let text ← orFail (files path).toOption ("Failed to read snapshot " ++ path)
  let snapshot ← orFail (Json.decode Snapshot text) ("Failed to parse snapshot " ++ path)
  let mint ← orFail (Key.ofText? arguments.mint.mint)
    ("Invalid mint address " ++ arguments.mint.mint)
  let tolerance := (arguments.slippageBps.map Percentage.ofBasisPoints).getD config.slippage
  let devFee ← devFee? arguments.devFeeBps config.devFee
  let (request, _) ← ofOutcome (QuoteRequest.ofToken snapshot.poolAddress snapshot.pool mint
    arguments.amount arguments.mint.side snapshot.source (.blank config.program))
  let request := { request with timestamp := arguments.timestamp }
  match devFee with
  | some terms =>
      let quote ← ofOutcome (request.devFeeQuote terms.percentage tolerance)
      return Json.record
        (quote.members ++ [("dev_fee_wallet", JsonForm.toJson terms.wallet)])
  | none =>
      let quote ← ofOutcome (request.quote tolerance)
      return JsonForm.toJson quote

def run (files : String → Except FileFault String) (arguments : Arguments) : Ending :=
  match quote files arguments with
  | .ok value => .printed (value.renderPretty ++ "\n")
  | .error ending => ending

def versionText : String :=
  "elysium-quote 0.1.0\n"

end CommandLine

end PoolQuote
