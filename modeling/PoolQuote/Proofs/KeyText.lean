import PoolQuote.Key
import PoolQuote.Proofs.Numerals
import Mathlib.Data.List.TakeWhile

/-!
A key is read back from its text. Leading zero bytes survive because each is a character of its own, and no text of
thirty-two bytes is longer than a reader takes.
-/

set_option autoImplicit false

namespace PoolQuote

namespace Base58

theorem digit_char {d : Nat} (small : d < 58) : digit? (digitChar d) = some d := by
  have each : ∀ e < 58, digit? (digitChar e) = some e := by decide
  exact each d small

theorem digits_of_text {zeros : Nat} {ds : List Nat} (small : ∀ d ∈ ds, d < 58) :
    (List.replicate zeros '1' ++ ds.map digitChar).mapM digit? = some (List.replicate zeros 0 ++ ds) := by
  have characters : List.replicate zeros '1' ++ ds.map digitChar = (List.replicate zeros 0 ++ ds).map digitChar := by
    rw [List.map_append, List.map_replicate]
    rfl
  rw [characters]
  apply read_each
  intro d listed
  rcases List.mem_append.mp listed with zero | digit
  · rw [List.eq_of_mem_replicate zero]
    rfl
  · exact digit_char (small d digit)

theorem takeWhile_zeros {zeros : Nat} {ds : List Nat} (head : ∀ d ∈ ds.head?, d ≠ 0) :
    (List.replicate zeros 0 ++ ds).takeWhile (· = 0) = List.replicate zeros 0 := by
  induction zeros with
  | zero =>
      cases ds with
      | nil => rfl
      | cons d ds => simp [List.takeWhile_cons_of_neg, head d rfl]
  | succ zeros ih => simpa [List.replicate_succ] using ih

theorem takeWhile_zero (bytes : List UInt8) :
    bytes.takeWhile (· = 0) = List.replicate (bytes.takeWhile (· = 0)).length 0 := by
  apply List.eq_replicate_of_mem
  intro b listed
  simpa using List.mem_takeWhile_imp listed

theorem byte_lt (bytes : List UInt8) : ∀ d ∈ bytes.map UInt8.toNat, d < 256 := by
  intro d listed
  obtain ⟨b, _, rfl⟩ := List.mem_map.mp listed
  exact b.toNat_lt

theorem digits_of_bytes (bytes : List UInt8) :
    (Radix.digits 256 (Radix.value 256 (bytes.map UInt8.toNat))).map UInt8.ofNat = bytes.dropWhile (· = 0) := by
  have zero : (fun b : UInt8 => decide (b.toNat = 0)) = fun b => decide (b = 0) :=
    funext fun b => decide_eq_decide.mpr (UInt8.toNat_inj (b := 0))
  rw [Radix.digits_value (by decide) (byte_lt bytes), List.dropWhile_map, List.map_map]
  simp only [Function.comp_def, UInt8.ofNat_toNat, List.map_id', zero]

theorem decode_encode (bytes : List UInt8) : decode (encode bytes) = some bytes := by
  have small : ∀ d ∈ Radix.digits 58 (Radix.value 256 (bytes.map UInt8.toNat)), d < 58 :=
    fun d => Radix.digit_lt (by decide)
  have head : ∀ d ∈ (Radix.digits 58 (Radix.value 256 (bytes.map UInt8.toNat))).head?, d ≠ 0 := by
    intro d first
    obtain ⟨ds, split⟩ := List.head?_eq_some_iff.mp first
    exact Radix.digits_head (by decide) split
  simp only [decode, encode, List.map_const', digits_of_text small, Option.bind_eq_bind, Option.bind_some,
    takeWhile_zeros head, List.length_replicate, Radix.value_zeros_append, Radix.value_digits (by decide : 2 ≤ 58),
    digits_of_bytes]
  rw [← takeWhile_zero, List.takeWhile_append_dropWhile]
  rfl

theorem encode_chars (bytes : List UInt8) : ∀ c ∈ encode bytes, c ∈ alphabet := by
  intro c listed
  rcases List.mem_append.mp listed with zero | digit
  · rw [List.map_const', List.mem_replicate] at zero
    rw [zero.2]
    decide
  · obtain ⟨d, written, rfl⟩ := List.mem_map.mp digit
    have each : ∀ e < 58, digitChar e ∈ alphabet := by decide
    exact each d (Radix.digit_lt (by decide) written)

-- A byte takes at most two digits, thirty-two bytes at most twelve more than there are bytes.
theorem encode_length_le {bytes : List UInt8} (short : bytes.length ≤ 32) :
    (encode bytes).length ≤ bytes.length + 12 := by
  have power : ∀ count ≤ 32, 256 ^ count ≤ 58 ^ (count + 12) := by decide
  have split : (bytes.takeWhile (· = 0)).length + (bytes.dropWhile (· = 0)).length = bytes.length := by
    rw [← List.length_append, List.takeWhile_append_dropWhile]
  have value : Radix.value 256 (bytes.map UInt8.toNat) =
      Radix.value 256 ((bytes.dropWhile (· = 0)).map UInt8.toNat) := by
    conv_lhs => rw [← List.takeWhile_append_dropWhile (p := (· = 0)) (l := bytes), takeWhile_zero, List.map_append,
      List.map_replicate]
    exact Radix.value_zeros_append _ _
  have below := Radix.value_lt (by decide) (byte_lt (bytes.dropWhile (· = 0)))
  rw [List.length_map] at below
  have digits := Radix.digits_length_le (by decide : 2 ≤ 58) (below.trans_le (power _ (by omega)))
  rw [encode, List.length_append, List.length_map, List.length_map, value]
  omega

end Base58

namespace Key

theorem of_bytes_eq_some_iff (bytes : List UInt8) (key : Key) : ofBytes? bytes = some key ↔ bytes = key.bytes.toList := by
  obtain ⟨⟨array, size⟩⟩ := key
  constructor
  · intro read
    by_cases length : bytes.length = 32
    · simp only [ofBytes?, length, dite_true, Option.some.injEq, Key.mk.injEq, Vector.mk.injEq] at read
      simp [← read]
    · simp [ofBytes?, length] at read
  · rintro rfl
    simp [ofBytes?, size]

theorem of_text_text (key : Key) : ofText? key.text = some key := by
  have length : key.bytes.toList.length = 32 := by simp
  have short := Base58.encode_length_le length.le
  have bytes : ofBytes? key.bytes.toList = some key := (of_bytes_eq_some_iff _ key).mpr rfl
  rw [ofText?, text, String.length_ofList, if_pos (by rw [maxTextLength]; omega), String.toList_ofList,
    Base58.decode_encode, Option.bind_some, bytes]

theorem text_injective : Function.Injective text := by
  intro key other same
  have read := of_text_text key
  rw [same, of_text_text] at read
  exact (Option.some.inj read).symm

theorem text_chars (key : Key) : ∀ c ∈ key.text.toList, c ∈ Base58.alphabet := by
  rw [text, String.toList_ofList]
  exact Base58.encode_chars _

end Key

end PoolQuote
