import PoolQuote.Address
import PoolQuote.Percentage
import PoolQuote.Text.CharacterClass

/-!
The settings that quotes are made with.
-/

set_option autoImplicit false

namespace PoolQuote

structure DevFeeTerms where
  wallet : Key
  percentage : Percentage
  deriving DecidableEq

structure Configuration where
  program : Key
  slippage : Percentage
  logFilter : String
  devFee : Option DevFeeTerms
  deriving DecidableEq

def DevFeeTerms.validate (terms : DevFeeTerms) : Except QuoteError Unit :=
  if ¬terms.percentage.IsBelowOne then
    .error (.invalidConfig "dev_fee.percentage" terms.percentage.text
      "less than 100% with a non-zero denominator")
  else if terms.wallet = .zero then
    .error (.invalidConfig "dev_fee.wallet" terms.wallet.text "a non-default wallet address")
  else .ok ()

namespace Configuration

def defaultLogFilter : String :=
  "info"

def default : Configuration :=
  ⟨defaultProgram, .ofBasisPoints 100, defaultLogFilter, none⟩

def validate (config : Configuration) : Except QuoteError Unit :=
  if config.slippage.denominator = 0 then
    .error (.invalidConfig "default_slippage" config.slippage.text "a non-zero denominator")
  else if isBlankText config.logFilter then
    .error (.invalidConfig "log_filter" "empty" "a tracing filter such as \"info\"")
  else
    match config.devFee with
    | some terms => terms.validate
    | none => .ok ()

end Configuration

end PoolQuote
