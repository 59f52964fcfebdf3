import PoolQuote.Address
import PoolQuote.Cache
import PoolQuote.TickGrid

/-!
A book of derived addresses of one program. An address is derived when it is first asked for and
looked up after that.
-/

set_option autoImplicit false

namespace PoolQuote

structure AddressBook where
  program : Key
  cache : Cache Address

namespace AddressBook

def blank (program : Key) : AddressBook :=
  ⟨program, .empty⟩

def size (book : AddressBook) : Nat :=
  book.cache.size

section Ask

variable (find : Key → List (List UInt8) → Option Address)

/-- An answer from a book whose addresses are derived by `find`. -/
def ask (book : AddressBook) (request : AddressRequest) : Outcome (Address × AddressBook) := do
  let (address, cache) ← book.cache.getOrCompute request.label (request.derive find book.program)
  return (address, { book with cache })

def askAll (book : AddressBook) : List AddressRequest → Outcome (List Address × AddressBook)
  | [] => .ok ([], book)
  | request :: requests => do
      let (address, book) ← book.ask find request
      let (addresses, book) ← book.askAll requests
      return (address :: addresses, book)

end Ask

def get (book : AddressBook) (request : AddressRequest) : Outcome (Address × AddressBook) :=
  book.ask Address.find? request

def getAll (book : AddressBook) (requests : List AddressRequest) : Outcome (List Address × AddressBook) :=
  book.askAll Address.find? requests

def arrayAddresses (book : AddressBook) (pool : Key) (t : Int) (spacing : Nat)
    (direction : Direction) : Outcome (List Key × AddressBook) := do
  let requests := (arrayStarts t spacing direction).map fun start =>
    AddressRequest.tickArray pool (.ofInt 32 start)
  let (addresses, book) ← book.getAll requests
  return (addresses.map Address.key, book)

end AddressBook

end PoolQuote
