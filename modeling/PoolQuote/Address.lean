import PoolQuote.Bytes
import PoolQuote.Curve.Edwards25519
import PoolQuote.Error
import PoolQuote.Hash.Sha256
import PoolQuote.Key
import PoolQuote.Text.Decimal
import PoolQuote.Word

/-!
Addresses derived from a program and a list of seeds. An address is a digest that is not a point of
the signature curve, so that no private key belongs to it; a bump byte is counted down until the
digest is one.
-/

set_option autoImplicit false

namespace PoolQuote

structure Address where
  key : Key
  bump : BitVec 8
  deriving DecidableEq

namespace Address

def marker : List UInt8 :=
  "ProgramDerivedAddress".toUTF8.toList

def candidate (program : Key) (seeds : List (List UInt8)) (bump : Nat) : Key :=
  ⟨Sha256.digest
    (seeds.flatten ++ UInt8.ofNat bump :: program.bytes.toList ++ marker)⟩

def search (program : Key) (seeds : List (List UInt8)) : Nat → Option Address
  | 0 => none
  | n + 1 =>
      let key := candidate program seeds (n + 1)
      if Edwards25519.encodesPoint key.bytes.toList then search program seeds n
      else some ⟨key, BitVec.ofNat 8 (n + 1)⟩

def find? (program : Key) (seeds : List (List UInt8)) : Option Address :=
  search program seeds 255

end Address

def defaultProgram : Key :=
  ⟨#v[8, 171, 104, 185, 166, 16, 3, 173, 225, 58, 19, 147, 58, 47, 250, 188, 143, 194, 80, 107,
    50, 121, 133, 38, 59, 69, 15, 155, 183, 4, 236, 226]⟩

inductive AddressRequest
  | pool (config mintA mintB : Key) (spacing : BitVec 16)
  | tickArray (owner : Key) (start : Signed 32)
  | oracle (owner : Key)
  | feeTier (config : Key) (spacing : BitVec 16)
  deriving DecidableEq

namespace AddressRequest

def textBytes (s : String) : List UInt8 :=
  s.toUTF8.toList

def wordBytes (x : BitVec 16) : List UInt8 :=
  Bytes.ofNat 2 x.toNat

def seeds : AddressRequest → List (List UInt8)
  | pool config mintA mintB spacing =>
      [textBytes "pool", config.bytes.toList, mintA.bytes.toList, mintB.bytes.toList,
        wordBytes spacing]
  | tickArray owner start =>
      [textBytes "tick_array", owner.bytes.toList,
        textBytes (String.ofList (Decimal.ofInt start.toInt))]
  | oracle owner => [textBytes "oracle", owner.bytes.toList]
  | feeTier config spacing =>
      [textBytes "fee_tier", config.bytes.toList, wordBytes spacing]

def decimal (x : BitVec 16) : String :=
  String.ofList (Decimal.ofNat x.toNat)

def label : AddressRequest → String
  | pool config mintA mintB spacing =>
      "pool:" ++ config.text ++ ":" ++ mintA.text ++ ":" ++ mintB.text ++ ":" ++ decimal spacing
  | tickArray owner start =>
      "tick_array:" ++ owner.text ++ ":" ++ String.ofList (Decimal.ofInt start.toInt)
  | oracle owner => "oracle:" ++ owner.text
  | feeTier config spacing => "fee_tier:" ++ config.text ++ ":" ++ decimal spacing

-- The address under a program; given up in the unheard-of case that no bump yields one.
def derive (find : Key → List (List UInt8) → Option Address) (request : AddressRequest) (program : Key) :
    Outcome Address :=
  (find program request.seeds).elim (.error .abort) .ok

end AddressRequest

end PoolQuote
