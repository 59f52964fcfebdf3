import PoolQuote.Proofs.ArrayStarts
import PoolQuote.Proofs.Fill
import PoolQuote.Quote.DevFee

/-!
Quotes over derived arrays. A quote checks its window before it swaps, and no later part of it reports a fault of these
checks. The accounts at the derived addresses pass them when each holds what its address promises.
-/

set_option autoImplicit false

namespace PoolQuote

-- The faults for which a quote refuses its window before it swaps.
def QuoteError.refusesWindow : QuoteError → Bool
  | .invalidSequence (.tooMany _ _) | .invalidSequence (.wrongLength _ _ _) | .invalidSequence (.misaligned _ _ _)
  | .invalidSequence (.notContiguous _) | .invalidSequence .poolTickOutside => true
  | _ => false

section Refused

variable {cause : QuoteError} (refuses : cause.refusesWindow = true)

include refuses

theorem foreign_of_refuses : cause.arisesInSwap = false := by
  unfold QuoteError.refusesWindow at refuses
  split at refuses <;> first | rfl | cases refuses

theorem other_ne {raised : QuoteError} (other : raised.refusesWindow = false) : raised ≠ cause := by
  rintro rfl
  exact Bool.false_ne_true (other.symm.trans refuses)

theorem failure_ne {raised : QuoteError} (other : raised.refusesWindow = false) : Failure.error raised ≠ .error cause :=
  fun same => other_ne refuses other (Failure.error.inj same)

theorem other_ne_error {α : Type} {raised : QuoteError} (other : raised.refusesWindow = false) :
    (Except.error raised : Except QuoteError α) ≠ .error cause :=
  fun same => other_ne refuses other (Except.error.inj same)

namespace QuoteRequest

theorem checked_limit_ne_refused (request : QuoteRequest) : request.checkedLimit ≠ .error cause :=
  bind_ne_error (SqrtPrice.of_nat_ne_foreign (foreign_of_refuses refuses) _) fun _ _ =>
    guard_ne_error (fun _ => other_ne refuses rfl) fun _ => ok_ne_error

theorem check_threshold_ne_refused (request : QuoteRequest) (amountIn amountOut : BitVec 64) :
    request.checkThreshold amountIn amountOut ≠ .error cause := by
  unfold checkThreshold
  cases request.side <;> exact ite_ne_error (other_ne_error refuses rfl) ok_ne_error

theorem instruction_arrays_ne_refused (window : Window) (journal : Journal) :
    instructionArrays window journal ≠ .error cause := by
  refine guard_ne_error (fun _ => other_ne refuses rfl) fun _ => ?_
  split
  · exact ok_ne_error
  · exact other_ne_error refuses rfl

theorem simulate_ne_refused {request : QuoteRequest}
    (made : Window.ofSlots request.slots request.pool.tickSpacing request.direction ≠ .error cause)
    (starts : ∀ window, Window.ofSlots request.slots request.pool.tickSpacing request.direction = .ok window →
      window.StartsAt request.pool.tickCurrent.toInt) : request.simulate ≠ .error (.error cause) := by
  refine bind_ne_error (lift_ne_error (checked_limit_ne_refused refuses request)) fun limit _ => ?_
  refine guard_ne_error (fun _ => failure_ne refuses rfl) fun _ => ?_
  refine bind_ne_error (lift_ne_error made) fun window accepted => ?_
  refine guard_ne_error (fun outside => absurd (starts window (lift_ok accepted)) outside) fun _ => ?_
  dsimp only
  refine bind_ne_error (swap_ne_foreign (foreign_of_refuses refuses) _ _ _ _) fun result _ => ?_
  refine bind_ne_error (lift_ne_error (check_threshold_ne_refused refuses request _ _)) fun _ _ => ?_
  exact bind_ne_error (lift_ne_error (instruction_arrays_ne_refused refuses _ _)) fun _ _ => ok_ne_error

end QuoteRequest

theorem Percentage.widen_ne_refused (tolerance : Percentage) (direction : Rounding) (amount : BitVec 64) :
    tolerance.widen direction amount ≠ .error (.error cause) := by
  refine bind_ne_error (lift_ne_error (ite_ne_error (other_ne_error refuses rfl) ok_ne_error)) fun _ _ => ?_
  cases direction with
  | up => exact bind_ne_error (or_abort_ne_error _ _ _) fun _ _ => ok_ne_error
  | down => exact ok_ne_error

theorem SwapAmounts.of_estimate_ne_refused (amount amountIn amountOut : BitVec 64) (tolerance : Percentage)
    (side : Side) : ofEstimate amount amountIn amountOut tolerance side ≠ .error (.error cause) := by
  cases side <;> exact bind_ne_error (tolerance.widen_ne_refused refuses _ _) fun _ _ => ok_ne_error

namespace QuoteRequest

theorem quote_ne_refused {request : QuoteRequest} {tolerance : Percentage}
    (simulated : request.simulate ≠ .error (.error cause)) : request.quote tolerance ≠ .error (.error cause) :=
  bind_ne_error simulated fun _ _ =>
    bind_ne_error (SwapAmounts.of_estimate_ne_refused refuses _ _ _ _ _) fun _ _ => ok_ne_error

theorem dev_fee_quote_ne_refused {request : QuoteRequest} {share tolerance : Percentage}
    (simulated : ∀ amount, { request with amount }.simulate ≠ .error (.error cause)) :
    request.devFeeQuote share tolerance ≠ .error (.error cause) := by
  have devFee : share.devFee request.amount ≠ .error cause := by
    unfold Percentage.devFee
    split
    · exact other_ne_error refuses rfl
    · exact ite_ne_error ok_ne_error (other_ne_error refuses rfl)
  refine bind_ne_error (lift_ne_error devFee) fun fee _ => ?_
  refine guard_ne_error (fun _ => failure_ne refuses rfl) fun _ => ?_
  exact bind_ne_error (quote_ne_refused refuses (simulated _)) fun _ _ => ok_ne_error

end QuoteRequest

end Refused

namespace AddressBook

theorem get_all_length {book after : AddressBook} {requests : List AddressRequest} {addresses : List Address}
    (ok : book.getAll requests = .ok (addresses, after)) : addresses.length = requests.length := by
  induction requests generalizing book addresses after with
  | nil =>
      cases Except.ok.inj ok
      rfl
  | cons request requests ih =>
      obtain ⟨⟨address, book⟩, _, ok⟩ := bind_ok ok
      obtain ⟨⟨rest, book⟩, further, ok⟩ := bind_ok ok
      cases Except.ok.inj ok
      exact congrArg Nat.succ (ih further)

section Arrays

variable {book : AddressBook} {pool : Key} {t : Int} {spacing : Nat} {d : Direction}

theorem array_addresses_length {addresses : List Key} {after : AddressBook}
    (ok : book.arrayAddresses pool t spacing d = .ok (addresses, after)) :
    addresses.length = (arrayStarts t spacing d).length := by
  obtain ⟨⟨derived, book⟩, read, ok⟩ := bind_ok ok
  cases Except.ok.inj ok
  rw [List.length_map, get_all_length read, List.length_map]

end Arrays

end AddressBook

-- Accounts that hold nothing but full arrays at the addresses that are derived for their starts.
def IsHonest (source : Key → Option TickArray) (addresses : List Key) (starts : List Int) : Prop :=
  ∀ (i : Nat) (address : Key) (start : Int) (array : TickArray), addresses[i]? = some address →
    starts[i]? = some start → source address = some array → array.IsFullAt start

theorem follow_of_honest {source : Key → Option TickArray} {addresses : List Key} {starts : List Int}
    (many : addresses.length = starts.length) (honest : IsHonest source addresses starts) :
    Follow (addresses.map fun address => ⟨address, source address⟩) starts := by
  intro i slot found
  rw [List.getElem?_map] at found
  obtain ⟨address, listed, rfl⟩ := Option.map_eq_some_iff.mp found
  have inside := (List.getElem?_eq_some_iff.mp listed).1
  have starting := List.getElem?_eq_getElem (many ▸ inside)
  exact ⟨_, starting, fun array held => honest i address _ array listed starting held⟩

theorem QuoteRequest.of_token_follow {poolAddress mint : Key} {pool : Pool} {side : Side} {book after : AddressBook}
    {d : Direction} {addresses : List Key} {source : Key → Option TickArray} (amount : BitVec 64)
    (trade : pool.direction? mint side = some d)
    (derived : book.arrayAddresses poolAddress pool.tickCurrent.toInt pool.tickSpacing.toNat d = .ok (addresses, after))
    (honest : IsHonest source addresses (arrayStarts pool.tickCurrent.toInt pool.tickSpacing.toNat d)) :
    ∃ request, ofToken poolAddress pool mint amount side source book = .ok (request, after) ∧ request.pool = pool ∧
      Follow request.slots
        (arrayStarts request.pool.tickCurrent.toInt request.pool.tickSpacing.toNat request.direction) := by
  let request : QuoteRequest :=
    { pool
      slots := addresses.map fun address => ⟨address, source address⟩
      amount
      limit := defaultLimit d
      threshold := defaultThreshold side
      direction := d
      side
      timestamp := none }
  refine ⟨request, ?_, rfl, follow_of_honest (AddressBook.array_addresses_length derived) honest⟩
  unfold ofToken
  rw [trade]
  exact bind_of_ok derived rfl

section ByToken

variable {cause : QuoteError} (refuses : cause.refusesWindow = true)

include refuses

theorem QuoteRequest.simulate_ne_refused_of_follow {request : QuoteRequest} (spaced : 0 < request.pool.tickSpacing.toNat)
    (follow : Follow request.slots
      (arrayStarts request.pool.tickCurrent.toInt request.pool.tickSpacing.toNat request.direction)) :
    request.simulate ≠ .error (.error cause) := by
  refine simulate_ne_refused refuses ?_ fun window made => ?_
  · by_cases absent : Window.arrays ⟨request.slots, request.pool.tickSpacing, request.direction⟩ = []
    · rw [Window.of_slots_absent spaced (le_trans follow.length_le (array_starts_length_le spaced)) absent]
      exact other_ne_error refuses rfl
    · rw [(Window.of_slots_of_follow spaced follow absent).1]
      exact ok_ne_error
  · have present := Window.of_slots_present made
    obtain ⟨rfl, _⟩ := Window.of_slots_ok made
    exact (Window.of_slots_of_follow spaced follow present).2

variable {poolAddress mint : Key} {pool : Pool} {amount : BitVec 64} {source : Key → Option TickArray}
  {book after : AddressBook} {d : Direction} {addresses : List Key} (spaced : 0 < pool.tickSpacing.toNat)
  (derived : book.arrayAddresses poolAddress pool.tickCurrent.toInt pool.tickSpacing.toNat d = .ok (addresses, after))
  (honest : IsHonest source addresses (arrayStarts pool.tickCurrent.toInt pool.tickSpacing.toNat d))

include spaced derived honest

theorem quote_by_token_ne_refused {side : Side} (trade : pool.direction? mint side = some d) (tolerance : Percentage) :
    (quoteByToken poolAddress pool mint amount side tolerance source book).1 ≠ .error (.error cause) := by
  obtain ⟨request, made, rfl, follow⟩ := QuoteRequest.of_token_follow amount trade derived honest
  unfold quoteByToken
  rw [made]
  exact QuoteRequest.quote_ne_refused refuses (QuoteRequest.simulate_ne_refused_of_follow refuses spaced follow)

theorem dev_fee_quote_by_token_ne_refused (trade : pool.direction? mint .input = some d) (tolerance share : Percentage) :
    (devFeeQuoteByToken poolAddress pool mint amount tolerance share source book).1 ≠ .error (.error cause) := by
  obtain ⟨request, made, rfl, follow⟩ := QuoteRequest.of_token_follow amount trade derived honest
  unfold devFeeQuoteByToken
  split
  · exact fun same => failure_ne refuses rfl (Except.error.inj same)
  · rw [made]
    have simulated : ∀ rest, { request with amount := rest }.simulate ≠ .error (.error cause) := fun _ =>
      QuoteRequest.simulate_ne_refused_of_follow refuses spaced follow
    exact QuoteRequest.dev_fee_quote_ne_refused refuses simulated

end ByToken

def RefusesWindow {α : Type} (outcome : Outcome α) : Prop :=
  ∃ cause : QuoteError, cause.refusesWindow ∧ outcome = .error (.error cause)

/-- The arrays that are derived for a trade pass every check of a quote on its window. -/
theorem derived_arrays_form_window (t : Signed 32) (spacing : BitVec 16) (d : Direction) (spaced : 0 < spacing.toNat) :
    let search := searchEntry d spacing.toNat t.toInt
    let span := TickArray.span spacing.toNat
    let starts := arrayStarts t.toInt spacing.toNat d
    starts.length ≤ maxArrays ∧
      (starts = [] ↔ ¬ Signed.Holds 32 search ∨ ∃ home, Houses home span search ∧ ¬ TickIndex.Overlaps home span) ∧
      (∀ first, starts.head? = some first → Houses first span search) ∧
      (∀ (i : Nat) u v, starts[i]? = some u → starts[i + 1]? = some v → v = d.along u span) ∧
      (∀ last, starts.getLast? = some last → starts.length < maxArrays →
        ¬ TickIndex.Overlaps (d.along last span) span) ∧
      (∀ slots first array, Follow slots starts → slots.head? = some first → first.data = some array →
        ∃ w, Window.ofSlots slots spacing d = .ok w ∧ w.StartsAt t.toInt) ∧
      ∀ (pool : Pool) (poolAddress mint : Key) (side : Side) (book after : AddressBook) (addresses : List Key)
        (source : Key → Option TickArray), pool.tickCurrent = t → pool.tickSpacing = spacing →
        pool.direction? mint side = some d →
        book.arrayAddresses poolAddress t.toInt spacing.toNat d = .ok (addresses, after) →
        IsHonest source addresses starts → ∀ (amount : BitVec 64) (tolerance share : Percentage),
          ¬ RefusesWindow (quoteByToken poolAddress pool mint amount side tolerance source book).1 ∧
            (side = .input →
              ¬ RefusesWindow (devFeeQuoteByToken poolAddress pool mint amount tolerance share source book).1) := by
  refine ⟨array_starts_length_le spaced, array_starts_nil_iff spaced, fun first => array_starts_head spaced,
    fun i u v here next => array_starts_next spaced here next, fun last => array_starts_short spaced, ?_, ?_⟩
  · intro slots first array follow head data
    exact ⟨_, Window.of_slots_of_follow spaced follow (Window.arrays_of_first head data)⟩
  · rintro pool poolAddress mint side book after addresses source rfl rfl trade derived honest amount tolerance share
    refine ⟨?_, ?_⟩
    · rintro ⟨cause, refuses, fails⟩
      exact quote_by_token_ne_refused refuses spaced derived honest trade tolerance fails
    · rintro rfl ⟨cause, refuses, fails⟩
      exact dev_fee_quote_by_token_ne_refused refuses spaced derived honest trade tolerance share fails

namespace Sample

def book : AddressBook :=
  { program := defaultProgram
    cache := ⟨[(0, 1), (-88, 2), (-176, 3)].map fun (start, byte) =>
      ((AddressRequest.tickArray .zero (.ofInt 32 start)).label, ⟨address byte, 255⟩)⟩ }

def source (key : Key) : Option TickArray :=
  if key = address 1 then upper.data else if key = address 2 then lower.data else none

end Sample

theorem derived_arrays_form_window_sample :
    ∃ addresses after, Sample.book.arrayAddresses .zero 0 1 .aToB = .ok (addresses, after) ∧ addresses.length = 3 ∧
      (∃ w, Window.ofSlots (addresses.map fun address => ⟨address, Sample.source address⟩) 1 .aToB = .ok w ∧
        w.StartsAt 0) ∧
      ∀ tolerance, ¬ RefusesWindow
        (quoteByToken .zero Sample.pool .zero 1000 .input tolerance Sample.source Sample.book).1 := by
  obtain ⟨_, _, _, _, _, accepts, quotes⟩ := derived_arrays_form_window 0 1 .aToB (by decide)
  have starts : arrayStarts 0 1 .aToB = [0, -88, -176] := by decide +kernel
  have read : (Sample.book.arrayAddresses .zero 0 1 .aToB).toOption.map Prod.fst =
      some [Sample.address 1, Sample.address 2, Sample.address 3] := by decide +kernel
  obtain ⟨⟨addresses, after⟩, derived, rfl⟩ := exists_ok read
  have full : ∀ entry ∈ [Sample.address 1, Sample.address 2, Sample.address 3].zip [(0 : Int), -88, -176],
      ∀ array ∈ Sample.source entry.1, array.start.toInt = entry.2 ∧ array.ticks.length = ticksPerArray := by
    decide +kernel
  have honest : IsHonest Sample.source [Sample.address 1, Sample.address 2, Sample.address 3]
      (arrayStarts 0 1 .aToB) := by
    rw [starts]
    intro i address start array listed starting held
    have paired := (List.getElem?_zip_eq_some (z := (address, start))).mpr ⟨listed, starting⟩
    obtain ⟨begins, ticks⟩ := full _ (List.mem_of_getElem? paired) array held
    exact ⟨begins, ticks⟩
  have follow := follow_of_honest (AddressBook.array_addresses_length derived) honest
  exact ⟨_, after, derived, rfl, accepts _ _ _ follow rfl rfl, fun tolerance =>
    (quotes Sample.pool .zero .zero .input Sample.book after _ Sample.source rfl rfl rfl derived honest 1000 tolerance
      ⟨0, 1⟩).1⟩

end PoolQuote
