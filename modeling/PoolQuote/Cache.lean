/-!
Values kept under a text, computed once.
-/

set_option autoImplicit false

namespace PoolQuote

structure Cache (α : Type) where
  entries : List (String × α)

namespace Cache

variable {α : Type}

def empty : Cache α :=
  ⟨[]⟩

def size (cache : Cache α) : Nat :=
  cache.entries.length

def isEmpty (cache : Cache α) : Bool :=
  cache.size = 0

def find? (cache : Cache α) (label : String) : Option α :=
  cache.entries.lookup label

def getOrCompute {m : Type → Type} [Monad m] (cache : Cache α) (label : String) (compute : m α) :
    m (α × Cache α) :=
  match cache.find? label with
  | some value => pure (value, cache)
  | none => do
      let value ← compute
      return (value, ⟨(label, value) :: cache.entries⟩)

end Cache

end PoolQuote
