import PoolQuote.Account.Layout
import PoolQuote.Hash.Sha256

/-!
Accounts as the ledger stores them: eight bytes that tell the kind of record, the record, and
reserved bytes that are ignored.
-/

set_option autoImplicit false

namespace PoolQuote

inductive AccountKind
  | pool
  | tickArray
  | feeTier
  | poolsConfig
  deriving DecidableEq, Repr

namespace AccountKind

def name : AccountKind → String
  | pool => "ElysiumPool"
  | tickArray => "TickArray"
  | feeTier => "FeeTier"
  | poolsConfig => "ElysiumPoolsConfig"

def discriminatorSize : Nat := 8

def discriminator (kind : AccountKind) : List UInt8 :=
  (Sha256.digest ("account:" ++ kind.name).toUTF8.toList).toList.take discriminatorSize

end AccountKind

inductive Account
  | pool (record : Pool)
  | tickArray (record : TickArray)
  | feeTier (record : FeeTier)
  | poolsConfig (record : PoolsConfig)
  deriving DecidableEq

namespace Account

def kind : Account → AccountKind
  | pool _ => .pool
  | tickArray _ => .tickArray
  | feeTier _ => .feeTier
  | poolsConfig _ => .poolsConfig

def reader : AccountKind → Layout.Reader (Except QuoteError Account)
  | .pool => do return .ok (pool (← Layout.pool))
  | .tickArray => do return tickArray <$> (← Layout.tickArray)
  | .feeTier => do return .ok (feeTier (← Layout.feeTier))
  | .poolsConfig => do return .ok (poolsConfig (← Layout.poolsConfig))

def decodeBody (kind : AccountKind) (body : List UInt8) : Except QuoteError Account :=
  match reader kind body with
  | .ok (account, _) => account
  | .error fault => .error (.accountBody kind.name fault)

def decode (kind : AccountKind) (data : List UInt8) : Except QuoteError Account :=
  let size := AccountKind.discriminatorSize
  if data.length < size then .error (.accountTooSmall data.length)
  else if data.take size ≠ kind.discriminator then .error (.accountMismatch kind.name)
  else decodeBody kind (data.drop size)

def decodeAny (data : List UInt8) : Except QuoteError Account :=
  let size := AccountKind.discriminatorSize
  if data.length < size then .error (.accountTooSmall data.length)
  else
    let kinds : List AccountKind := [.pool, .tickArray, .feeTier, .poolsConfig]
    match kinds.find? fun kind => data.take size = kind.discriminator with
    | some kind => decodeBody kind (data.drop size)
    | none => .error (.unknownAccount (data.take size))

end Account

end PoolQuote
