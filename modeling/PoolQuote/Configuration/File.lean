import PoolQuote.Configuration
import PoolQuote.FileTree
import PoolQuote.Toml.Document
import PoolQuote.Toml.Writer

/-!
Configuration files. A file is read if it is well formed, holds every setting without a default
and its settings are valid; settings are written whether or not they are valid.
-/

set_option autoImplicit false

namespace PoolQuote

namespace Toml

-- The values of a record's fields, from a table or from an array of the values in order. More
-- values than fields are ignored.
def fields (names : List String) : Toml → Option (List (Option Toml))
  | .table _ entries => some (names.map fun name => entries.lookup name)
  | .array items => some (names.zipIdx.map fun (_, i) => items[i]?)
  | _ => none

def toWord? : Toml → Option (BitVec 64)
  | .integer value => unsignedOfInt? 64 value
  | _ => none

def toText? : Toml → Option String
  | .string text => some text
  | _ => none

def toKey? (value : Toml) : Option Key :=
  value.toText?.bind Key.ofText?

def toPercentage? (value : Toml) : Option Percentage := do
  let [some numerator, some denominator] ← value.fields ["numerator", "denominator"] | none
  return ⟨← numerator.toWord?, ← denominator.toWord?⟩

def toDevFeeTerms? (value : Toml) : Option DevFeeTerms := do
  let [some wallet, some percentage] ← value.fields ["wallet", "percentage"] | none
  return ⟨← wallet.toKey?, ← percentage.toPercentage?⟩

def toConfiguration? (value : Toml) : Option Configuration := do
  let [some program, some slippage, logFilter, devFee] ←
    value.fields ["program_id", "default_slippage", "log_filter", "dev_fee"] | none
  let logFilter ← match logFilter with
    | some text => text.toText?
    | none => some Configuration.defaultLogFilter
  let devFee ← match devFee with
    | some terms => terms.toDevFeeTerms?.map some
    | none => some none
  return ⟨← program.toKey?, ← slippage.toPercentage?, logFilter, devFee⟩

end Toml

namespace Configuration

def syntaxReport : String :=
  "TOML parse error"

def ofTextWith (note text : String) : Except QuoteError Configuration := do
  match (Toml.parse text).bind fun entries => (Toml.table .header entries).toConfiguration? with
  | none => throw (.configSyntax (note ++ syntaxReport))
  | some config =>
      config.validate
      return config

def ofText (text : String) : Except QuoteError Configuration :=
  ofTextWith "" text

def load (path : String) (content : Except FileFault String) : Except QuoteError Configuration :=
  match content with
  | .error fault =>
      .error (.configFile ("Failed to read config file " ++ path ++ ": " ++ fault.message))
  | .ok text => ofTextWith ("Failed to parse config file " ++ path ++ ": ") text

def maxInteger : Int :=
  Signed.greatest 64

def IsWritable (p : Percentage) : Prop :=
  p.numerator.toNat ≤ maxInteger ∧ p.denominator.toNat ≤ maxInteger

instance (p : Percentage) : Decidable (IsWritable p) :=
  inferInstanceAs (Decidable (_ ∧ _))

def pairLine (key : String) (value : List Char) : List Char :=
  key.toList ++ " = ".toList ++ value ++ ['\n']

def percentageLines (p : Percentage) : List Char :=
  pairLine "numerator" (Decimal.ofNat p.numerator.toNat) ++
    pairLine "denominator" (Decimal.ofNat p.denominator.toNat)

def headerLine (name : String) : List Char :=
  "\n[".toList ++ name.toList ++ "]\n".toList

def devFeeLines (terms : DevFeeTerms) : List Char :=
  headerLine "dev_fee" ++ pairLine "wallet" (Toml.quoteText terms.wallet.text.toList) ++
    headerLine "dev_fee.percentage" ++ percentageLines terms.percentage

def lines (config : Configuration) : List Char :=
  pairLine "program_id" (Toml.quoteText config.program.text.toList) ++
    pairLine "log_filter" (Toml.quoteText config.logFilter.toList) ++
    headerLine "default_slippage" ++ percentageLines config.slippage ++
    config.devFee.elim [] devFeeLines

/-- The text of a configuration file. There is none for numbers that a file cannot hold, which is
reported, nor for a log filter whose quotes cannot be counted; keys have no quotes. -/
def toText (config : Configuration) : Outcome String :=
  if IsWritable config.slippage ∧ ∀ terms ∈ config.devFee, IsWritable terms.percentage then
    orAbort (Toml.IsCountable config.logFilter.toList) (String.ofList config.lines)
  else .error (.error (.configSyntax "Failed to serialize config: a number is out of range"))

def save (config : Configuration) (path : String) (target : Except FileFault Unit) :
    Outcome String := do
  let text ← config.toText
  match target with
  | .ok () => return text
  | .error fault =>
      throw (.error
        (.configFile ("Failed to write config file " ++ path ++ ": " ++ fault.message)))

end Configuration

end PoolQuote
