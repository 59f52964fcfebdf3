import PoolQuote.Json.Records

/-!
A snapshot of a pool with the tick arrays around its price, as one JSON text.
-/

set_option autoImplicit false

namespace PoolQuote

structure StoredArray where
  address : Key
  data : TickArray
  deriving DecidableEq

structure Snapshot where
  poolAddress : Key
  pool : Pool
  tickArrays : List StoredArray
  deriving DecidableEq

/-- The array stored at an address. Of two arrays at one address the later one counts. -/
def Snapshot.source (snapshot : Snapshot) (address : Key) : Option TickArray :=
  (snapshot.tickArrays.reverse.find? fun stored => stored.address = address).map StoredArray.data

open Json JsonForm

instance : JsonForm StoredArray where
  toJson stored := Json.record [("address", toJson stored.address), ("data", toJson stored.data)]
  ofJson? value := do
    let [address, data] ← value.fields ["address", "data"] | none
    return ⟨← required address, ← required data⟩

instance : JsonForm Snapshot where
  toJson snapshot := Json.record [
    ("pool_address", toJson snapshot.poolAddress),
    ("pool", toJson snapshot.pool),
    ("tick_arrays", toJson snapshot.tickArrays)]
  ofJson? value := do
    let [address, pool, arrays] ← value.fields ["pool_address", "pool", "tick_arrays"] | none
    return ⟨← required address, ← required pool, ← defaulted [] arrays⟩

end PoolQuote
