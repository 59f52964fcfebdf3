import PoolQuote.Text.Decimal
import Mathlib.Data.Nat.Digits.Lemmas

/-!
Numbers and their digits determine each other: the digits of a number have that number as their value, and digits
are those of their value once leading zeros are dropped. A decimal numeral reads back as the number it was written
for.
-/

set_option autoImplicit false

namespace PoolQuote

section

variable {α β γ : Type} {write : α → β} {items : List α}

theorem read_map {read : β → Option γ} {value : α → γ} (each : ∀ item ∈ items, read (write item) = some (value item)) :
    (items.map write).mapM read = some (items.map value) := by
  induction items with
  | nil => rfl
  | cons item items ih =>
      have rest := ih fun other listed => each other (List.mem_cons_of_mem _ listed)
      simp [each item List.mem_cons_self, rest]

theorem read_each {read : β → Option α} (each : ∀ item ∈ items, read (write item) = some item) :
    (items.map write).mapM read = some items := by
  rw [read_map each, List.map_id']

end

namespace Radix

variable {base : Nat}

theorem digits_eq (large : 2 ≤ base) (n : Nat) : digits base n = (Nat.digits base n).reverse := by
  induction n using Nat.strong_induction_on with
  | _ n ih =>
      by_cases zero : n = 0
      · rw [digits, dif_neg (fun both => both.2 zero), zero, Nat.digits_zero, List.reverse_nil]
      · rw [digits, dif_pos ⟨large, zero⟩, ih (n / base) (Nat.div_lt_self (Nat.pos_of_ne_zero zero) large),
          Nat.digits_def' large (Nat.pos_of_ne_zero zero), List.reverse_cons]

theorem value_eq (ds : List Nat) : value base ds = Nat.ofDigits base ds.reverse := by
  rw [value, Nat.ofDigits_eq_foldr, List.foldr_reverse]
  simp [Nat.add_comm, Nat.mul_comm]

theorem value_digits (large : 2 ≤ base) (n : Nat) : value base (digits base n) = n := by
  rw [value_eq, digits_eq large, List.reverse_reverse, Nat.ofDigits_digits]

theorem digit_lt (large : 2 ≤ base) {n d : Nat} (listed : d ∈ digits base n) : d < base := by
  rw [digits_eq large, List.mem_reverse] at listed
  exact Nat.digits_lt_base large listed

theorem digits_zero (base : Nat) : digits base 0 = [] := by
  simp [digits]

theorem digits_head (large : 2 ≤ base) {n d : Nat} {ds : List Nat} (split : digits base n = d :: ds) : d ≠ 0 := by
  intro zero
  have nonzero : n ≠ 0 := by
    rintro rfl
    simp [digits_zero] at split
  have last := Nat.getLast_digit_ne_zero base nonzero
  have reversed : Nat.digits base n = ds.reverse ++ [d] := by
    rw [← List.reverse_reverse (Nat.digits base n), ← digits_eq large, split, List.reverse_cons]
  simp [reversed, zero] at last

theorem value_zeros_append (count : Nat) (ds : List Nat) : value base (List.replicate count 0 ++ ds) = value base ds := by
  rw [value, List.foldl_append]
  congr 1
  induction count with
  | zero => rfl
  | succ count ih => simpa [List.replicate_succ] using ih

theorem digits_value (large : 2 ≤ base) {ds : List Nat} (small : ∀ d ∈ ds, d < base) :
    digits base (value base ds) = ds.dropWhile (· = 0) := by
  induction ds with
  | nil => exact digits_zero base
  | cons d ds ih =>
      by_cases zero : d = 0
      · rw [zero, List.dropWhile_cons_of_pos (by simp), ← ih (fun e listed => small e (List.mem_cons_of_mem _ listed))]
        exact congrArg (digits base) (value_zeros_append 1 ds)
      · rw [List.dropWhile_cons_of_neg (by simp [zero]), value_eq, digits_eq large, Nat.digits_ofDigits base large]
        · rw [List.reverse_reverse]
        · exact fun e listed => small e (List.mem_reverse.mp listed)
        · simpa using zero

theorem digits_length_le (large : 2 ≤ base) {n count : Nat} (small : n < base ^ count) :
    (digits base n).length ≤ count := by
  rw [digits_eq large, List.length_reverse]
  exact (Nat.digits_length_le_iff large n).mpr small

theorem value_lt (large : 2 ≤ base) {ds : List Nat} (small : ∀ d ∈ ds, d < base) :
    value base ds < base ^ ds.length := by
  rw [value_eq, ← List.length_reverse]
  exact Nat.ofDigits_lt_base_pow_length large (by simpa using small)

end Radix

namespace Decimal

theorem digit_char {d : Nat} (small : d < 10) : digit? (digitChar d) = some d := by
  have each : ∀ e < 10, digit? (digitChar e) = some e := by decide
  exact each d small

theorem of_nat_all {p : Char → Prop} (each : ∀ d < 10, p (digitChar d)) (n : Nat) : ∀ c ∈ ofNat n, p c := by
  intro c listed
  rw [ofNat] at listed
  split at listed
  · rw [List.mem_singleton.mp listed]
    exact each 0 (by decide)
  · obtain ⟨d, digit, rfl⟩ := List.mem_map.mp listed
    exact each d (Radix.digit_lt (by decide) digit)

theorem of_nat_digits (n : Nat) : ∀ c ∈ ofNat n, isDigit c :=
  of_nat_all (by decide) n

theorem of_nat_ne_nil (n : Nat) : ofNat n ≠ [] := by
  by_cases zero : n = 0
  · simp [ofNat, zero]
  · intro empty
    have none : Radix.digits 10 n = [] := by simpa [ofNat, zero] using empty
    have value := Radix.value_digits (by decide : 2 ≤ 10) n
    rw [none] at value
    exact zero value.symm

theorem of_nat_head {n : Nat} {rest : List Char} (leading : ofNat n = '0' :: rest) : rest = [] := by
  by_cases zero : n = 0
  · simpa [ofNat, zero] using leading.symm
  · rw [ofNat, if_neg zero] at leading
    cases digits : Radix.digits 10 n with
    | nil => simp [digits] at leading
    | cons d ds =>
        rw [digits, List.map_cons] at leading
        have read := digit_char (Radix.digit_lt (by decide) (digits ▸ List.mem_cons_self : d ∈ Radix.digits 10 n))
        rw [(List.cons.inj leading).1] at read
        exact absurd (Option.some.inj read).symm (Radix.digits_head (by decide) digits)

theorem of_nat_unpadded (n : Nat) : ¬((ofNat n).head? = some '0' ∧ ofNat n ≠ ['0']) := by
  rintro ⟨zero, more⟩
  obtain ⟨others, split⟩ := List.head?_eq_some_iff.mp zero
  exact more (by rw [split, of_nat_head split])

theorem to_nat_of_nat (n : Nat) : toNat? (ofNat n) = some n := by
  have nonempty : (ofNat n).isEmpty = false := by simpa using of_nat_ne_nil n
  rw [toNat?, nonempty]
  by_cases zero : n = 0
  · subst zero
    rfl
  · have read := read_each fun d listed => digit_char (Radix.digit_lt (n := n) (by decide) listed)
    simp [ofNat, zero, read, Radix.value_digits]

theorem of_nat_injective : Function.Injective ofNat := by
  intro m n same
  have read := to_nat_of_nat m
  rw [same, to_nat_of_nat] at read
  exact (Option.some.inj read).symm

theorem of_nat_ne_minus (n : Nat) (rest : List Char) : ofNat n ≠ '-' :: rest := by
  intro split
  have digit := of_nat_digits n '-' (by simp [split])
  cases digit

theorem of_int_chars (i : Int) : ∀ c ∈ ofInt i, c = '-' ∨ isDigit c := by
  intro c listed
  by_cases negative : i < 0
  · rw [ofInt, if_pos negative, List.mem_cons] at listed
    exact listed.imp_right (of_nat_digits _ c)
  · rw [ofInt, if_neg negative] at listed
    exact .inr (of_nat_digits _ c listed)

theorem of_int_injective : Function.Injective ofInt := by
  intro i j same
  by_cases left : i < 0
  · by_cases right : j < 0
    · rw [ofInt, ofInt, if_pos left, if_pos right, List.cons.injEq] at same
      have magnitude := of_nat_injective same.2
      omega
    · rw [ofInt, ofInt, if_pos left, if_neg right] at same
      exact absurd same.symm (of_nat_ne_minus _ _)
  · by_cases right : j < 0
    · rw [ofInt, ofInt, if_neg left, if_pos right] at same
      exact absurd same (of_nat_ne_minus _ _)
    · rw [ofInt, ofInt, if_neg left, if_neg right] at same
      have magnitude := of_nat_injective same
      omega

end Decimal

end PoolQuote
