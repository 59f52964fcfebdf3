import PoolQuote.Address.Book
import PoolQuote.Proofs.KeyText
import PoolQuote.Proofs.WordArithmetic
import Mathlib.Data.Finset.Card
import Mathlib.Data.List.Forall2

/-!
A book of addresses answers as if it derived every address anew. Labels tell requests apart, since no part of a label
has the colon that divides its parts, so that what stands under a label is what the request itself would derive.
-/

set_option autoImplicit false

namespace PoolQuote

namespace AddressRequest

def parts : AddressRequest → List (List Char)
  | pool config mintA mintB spacing =>
      ["pool".toList, config.text.toList, mintA.text.toList, mintB.text.toList, Decimal.ofNat spacing.toNat]
  | tickArray owner start => ["tick_array".toList, owner.text.toList, Decimal.ofInt start.toInt]
  | oracle owner => ["oracle".toList, owner.text.toList]
  | feeTier config spacing => ["fee_tier".toList, config.text.toList, Decimal.ofNat spacing.toNat]

theorem label_parts (request : AddressRequest) : request.label.toList = [':'].intercalate request.parts := by
  cases request <;> simp [label, parts, decimal, List.intercalate, List.intersperse]

theorem text_plain (key : Key) : ':' ∉ key.text.toList := by
  intro listed
  have letter := key.text_chars ':' listed
  revert letter
  decide

theorem number_plain (n : Nat) : ':' ∉ Decimal.ofNat n := by
  intro listed
  cases Decimal.of_nat_digits n ':' listed

theorem index_plain (i : Int) : ':' ∉ Decimal.ofInt i := by
  intro listed
  rcases Decimal.of_int_chars i ':' listed with minus | digit
  · cases minus
  · cases digit

theorem parts_plain (request : AddressRequest) : ∀ part ∈ request.parts, ':' ∉ part := by
  cases request <;> simp [parts, text_plain, number_plain, index_plain]

theorem parts_ne_nil (request : AddressRequest) : request.parts ≠ [] := by
  cases request <;> simp [parts]

theorem parts_injective : Function.Injective parts := by
  have keys {key other : Key} : key.text = other.text ↔ key = other := Key.text_injective.eq_iff
  have numbers {m n : Nat} : Decimal.ofNat m = Decimal.ofNat n ↔ m = n := Decimal.of_nat_injective.eq_iff
  have indices {i j : Int} : Decimal.ofInt i = Decimal.ofInt j ↔ i = j := Decimal.of_int_injective.eq_iff
  have words {x y : Signed 32} : x.toInt = y.toInt ↔ x = y := Signed.to_int_injective.eq_iff
  intro request other same
  cases request <;> cases other <;> simp_all [parts, String.toList_inj, BitVec.toNat_inj]

theorem split_label (request : AddressRequest) : request.label.toList.splitOn ':' = request.parts := by
  rw [label_parts]
  exact List.splitOn_intercalate ':' request.parts_plain request.parts_ne_nil

theorem label_injective : Function.Injective label := by
  intro request other same
  apply parts_injective
  rw [← split_label, same, split_label]

theorem derive_found {find : Key → List (List UInt8) → Option Address} {request : AddressRequest} {program : Key}
    {address : Address} (found : find program request.seeds = some address) :
    request.derive find program = .ok address := by
  rw [derive, found]
  rfl

end AddressRequest

namespace Cache

variable {α : Type} (cache : Cache α) {label other : String} (value : α)

theorem find_here : find? ⟨(label, value) :: cache.entries⟩ label = some value := by
  simp [find?]

theorem find_elsewhere (different : other ≠ label) :
    find? ⟨(label, value) :: cache.entries⟩ other = cache.find? other := by
  rw [find?, List.lookup_cons, beq_false_of_ne different]
  rfl

end Cache

namespace AddressBook

variable (find : Key → List (List UInt8) → Option Address)

-- The book knows the addresses of the requests that it has been asked for, and no others.
structure Knows (book : AddressBook) (asked : Finset AddressRequest) : Prop where
  found : ∀ request ∈ asked, book.cache.find? request.label = find book.program request.seeds
  missing : ∀ request, request ∉ asked → book.cache.find? request.label = none
  size : book.size = asked.card

theorem blank_knows (program : Key) : (blank program).Knows find ∅ where
  found := by simp
  missing _ _ := rfl
  size := rfl

section Call

variable {find} {book : AddressBook} {asked : Finset AddressRequest} (knows : book.Knows find asked)
  {request : AddressRequest} {address : Address} (derived : find book.program request.seeds = some address)

include knows derived

theorem ask_known (listed : request ∈ asked) : book.ask find request = .ok (address, book) := by
  have cached : book.cache.find? request.label = some address := (knows.found request listed).trans derived
  rw [ask, Cache.getOrCompute, cached]
  rfl

theorem ask_new (unlisted : request ∉ asked) :
    book.ask find request = .ok (address, { book with cache := ⟨(request.label, address) :: book.cache.entries⟩ }) := by
  rw [ask, Cache.getOrCompute, knows.missing request unlisted, AddressRequest.derive_found derived]
  rfl

theorem knows_new (unlisted : request ∉ asked) :
    Knows find { book with cache := ⟨(request.label, address) :: book.cache.entries⟩ } (insert request asked) where
  found other known := by
    by_cases same : other = request
    · rw [same, Cache.find_here]
      exact derived.symm
    · rw [Cache.find_elsewhere _ _ (AddressRequest.label_injective.ne same)]
      exact knows.found other (Finset.mem_of_mem_insert_of_ne known same)
  missing other unknown := by
    rw [Finset.mem_insert, not_or] at unknown
    rw [Cache.find_elsewhere _ _ (AddressRequest.label_injective.ne unknown.1)]
    exact knows.missing other unknown.2
  size := by
    rw [Finset.card_insert_of_notMem unlisted, ← knows.size]
    rfl

theorem ask_knows : ∃ after, book.ask find request = .ok (address, after) ∧ after.program = book.program ∧
    after.Knows find (insert request asked) := by
  by_cases listed : request ∈ asked
  · rw [Finset.insert_eq_of_mem listed]
    exact ⟨book, ask_known knows derived listed, rfl, knows⟩
  · exact ⟨_, ask_new knows derived listed, rfl, knows_new knows derived listed⟩

end Call

theorem ask_all_knows {book : AddressBook} {asked : Finset AddressRequest} {requests : List AddressRequest}
    {addresses : List Address} (knows : book.Knows find asked)
    (derived : requests.Forall₂ (fun request address => find book.program request.seeds = some address) addresses) :
    ∃ after, book.askAll find requests = .ok (addresses, after) ∧ after.Knows find (asked ∪ requests.toFinset) := by
  induction requests generalizing book asked addresses with
  | nil =>
      cases derived
      exact ⟨book, rfl, by simpa using knows⟩
  | cons request requests ih =>
      cases derived with
      | cons first rest =>
          obtain ⟨next, got, program, further⟩ := ask_knows knows first
          rw [← program] at rest
          obtain ⟨after, gotAll, all⟩ := ih further rest
          refine ⟨after, bind_of_ok got (bind_of_ok gotAll rfl), ?_⟩
          rw [List.toFinset_cons, Finset.union_insert, ← Finset.insert_union]
          exact all

end AddressBook

theorem exists_derived {find : Key → List (List UInt8) → Option Address} {program : Key} {requests : List AddressRequest}
    (returns : ∀ request ∈ requests, ∃ address, find program request.seeds = some address) :
    ∃ addresses, requests.Forall₂ (fun request address => find program request.seeds = some address) addresses := by
  induction requests with
  | nil => exact ⟨[], .nil⟩
  | cons request requests ih =>
      obtain ⟨address, first⟩ := returns request List.mem_cons_self
      obtain ⟨addresses, rest⟩ := ih fun other listed => returns other (List.mem_cons_of_mem _ listed)
      exact ⟨address :: addresses, .cons first rest⟩

/-- Whatever function of program and seeds derives the addresses, a book of them answers as that function does. -/
theorem book_derives_anew (find : Key → List (List UInt8) → Option Address) (program : Key)
    (requests : List AddressRequest)
    (returns : ∀ request ∈ requests, ∃ address, find program request.seeds = some address) :
    ∃ addresses : List Address,
      requests.Forall₂ (fun request address => find program request.seeds = some address) addresses ∧
        ∀ calls, ∃ book,
          (AddressBook.blank program).askAll find (requests.take calls) = .ok (addresses.take calls, book) ∧
            book.size = (requests.take calls).toFinset.card := by
  obtain ⟨addresses, derived⟩ := exists_derived returns
  refine ⟨addresses, derived, fun calls => ?_⟩
  obtain ⟨book, got, knows⟩ := AddressBook.ask_all_knows find (AddressBook.blank_knows find program)
    (List.forall₂_take calls derived)
  rw [Finset.empty_union] at knows
  exact ⟨book, got, knows.size⟩

theorem book_derives_anew_sample :
    let requests : List AddressRequest :=
      [.tickArray .zero (.ofInt 32 (-5632)), .oracle .zero, .feeTier .zero 64, .tickArray .zero (.ofInt 32 (-5632))]
    ∃ addresses : List Address,
      requests.Forall₂ (fun request address => Address.find? defaultProgram request.seeds = some address) addresses ∧
        ∃ book, (AddressBook.blank defaultProgram).getAll requests = .ok (addresses, book) ∧ book.size = 3 := by
  intro requests
  obtain ⟨addresses, derived, calls⟩ := book_derives_anew Address.find? defaultProgram requests (by
    have each : ∀ request ∈ requests, (Address.find? defaultProgram request.seeds).isSome := by decide +kernel
    exact fun request listed => Option.isSome_iff_exists.mp (each request listed))
  obtain ⟨book, got, size⟩ := calls 4
  have all : requests.take 4 = requests := rfl
  have whole : addresses.take 4 = addresses := List.take_of_length_le derived.length_eq.ge
  rw [all] at got size
  rw [whole] at got
  exact ⟨addresses, derived, book, got, size.trans (by decide +kernel)⟩

end PoolQuote
