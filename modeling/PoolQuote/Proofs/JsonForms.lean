import PoolQuote.Json.Codec
import PoolQuote.Proofs.JsonText
import PoolQuote.Proofs.KeyText
import PoolQuote.Proofs.WordArithmetic

/-!
Lawful JSON forms: a value can be written without loss and its form is read as that value, so that its text is read
as that value too. Words, texts, keys, lists and optional values have lawful forms, and a record has one if its
fields have and their names differ.
-/

set_option autoImplicit false

namespace PoolQuote

open Json JsonForm

class LawfulForm (α : Type) [JsonForm α] : Prop where
  texts (value : α) : HasTexts (toJson value)
  reads (value : α) : ofJson? (toJson value) = some value

def RoundTrips (α : Type) [JsonForm α] : Prop :=
  ∀ value : α, decode α (encode value) = some value

namespace LawfulForm

variable {α : Type} [JsonForm α]

theorem round_trips [LawfulForm α] : RoundTrips α := by
  intro value
  rw [decode, encode, parse_render (texts value)]
  exact reads value

@[simp]
theorem required_form [LawfulForm α] (value : α) : required (some (toJson value)) = some value :=
  reads value

@[simp]
theorem defaulted_form [LawfulForm α] (default value : α) : defaulted default (some (toJson value)) = some value :=
  reads value

instance : LawfulForm Bool where
  texts := .bool
  reads _ := rfl

instance : LawfulForm String where
  texts := .string
  reads _ := rfl

instance : LawfulForm Key where
  texts key := .string key.text
  reads := Key.of_text_text

instance (w : Nat) : LawfulForm (BitVec w) where
  texts x := .integer false x.toNat
  reads x := by
    have fits : FitsBits w x.toNat := x.isLt
    simp [toJson, ofJson?, Json.ofNat, fits]

theorem signed_value_of_int (w : Nat) (i : Int) : signedValue? w (Json.ofInt i) = some i := by
  cases i with
  | ofNat n => rfl
  | negSucc n =>
      have written : Json.ofInt (Int.negSucc n) = .integer true (n + 1) := by simp [Json.ofInt]
      have nonzero : ¬(n + 1 = 0 ∧ w ≤ 64) := by omega
      rw [written, signedValue?, if_neg nonzero]
      rfl

instance (w : Nat) : LawfulForm (Signed w) where
  texts x := .integer _ _
  reads x := by
    change (signedValue? w (Json.ofInt x.toInt)).bind (Signed.ofInt? w) = some x
    rw [signed_value_of_int, Option.bind_some, Signed.ofInt?, if_pos x.holds_to_int]
    simp [Signed.ofInt, Signed.toInt]

instance [LawfulForm α] : LawfulForm (List α) where
  texts values := .array (by simpa using fun value _ => texts value)
  reads _ := read_each fun value _ => reads value

omit [JsonForm α] in
theorem vector_to_list {n : Nat} (values : Vector α n) : vectorOf? values.toList = some values := by
  obtain ⟨array, size⟩ := values
  simp [vectorOf?, size]

instance [LawfulForm α] (n : Nat) : LawfulForm (Vector α n) where
  texts values := texts values.toList
  reads values := by
    change (ofJson? (toJson values.toList)).bind vectorOf? = some values
    rw [reads values.toList, Option.bind_some, vector_to_list]

-- A null stands for no value, so no value may be written as one.
theorem option [LawfulForm α] (present : ∀ value : α, toJson value ≠ .null) : LawfulForm (Option α) where
  texts
    | none => .null
    | some value => texts value
  reads
    | none => rfl
    | some value => by
        have other : ∀ json, json ≠ .null → (ofJson? json : Option (Option α)) = (ofJson? json).map some := by
          intro json written
          cases json <;> first | rfl | exact absurd rfl written
        exact (other _ (present value)).trans (congrArg (Option.map some) (reads value))

instance (w : Nat) : LawfulForm (Option (BitVec w)) :=
  option fun _ => nofun

end LawfulForm

section

variable {members : List (String × Json)}

theorem texts_record (each : ∀ member ∈ members, HasTexts member.2) : HasTexts (Json.record members) := by
  apply HasTexts.object
  · intro member listed
    obtain ⟨_, _, rfl⟩ := List.mem_map.mp listed
    rfl
  · intro member listed
    obtain ⟨field, field_listed, rfl⟩ := List.mem_map.mp listed
    exact each field field_listed

theorem named_record (distinct : (members.map Prod.fst).Nodup) {member : String × Json} (listed : member ∈ members) :
    named member.1 (members.map fun (name, value) => (some name, value)) = [member.2] := by
  induction members with
  | nil => cases listed
  | cons first members ih =>
      obtain ⟨fresh, others⟩ := List.nodup_cons.mp distinct
      rcases List.mem_cons.mp listed with rfl | later
      · have absent : named member.1 (members.map fun (name, value) => (some name, value)) = [] := by
          simp only [named, List.filterMap_map, List.filterMap_eq_nil_iff]
          intro other there
          have unlike : other.1 ≠ member.1 := fun same => fresh (List.mem_map.mpr ⟨other, there, same⟩)
          simp [unlike]
        simpa [named] using absent
      · have other : first.1 ≠ member.1 := by
          intro same
          exact fresh (List.mem_map.mpr ⟨member, later, same.symm⟩)
        rw [← ih others later]
        simp [named, other]

theorem fields_record (distinct : (members.map Prod.fst).Nodup) :
    (Json.record members).fields (members.map Prod.fst) = some (members.map fun member => some member.2) := by
  have keyed : (members.map fun (name, value) => (some name, value)).all fun member => member.1.isSome := by simp
  refine (if_pos keyed).trans (read_map fun member listed => ?_)
  rw [field?, named_record distinct listed]

theorem bind_fields {α : Type} {names : List String} (same : names = members.map Prod.fst) (distinct : names.Nodup)
    (read : List (Option Json) → Option α) :
    (Json.record members).fields names >>= read = read (members.map fun member => some member.2) := by
  subst same
  rw [fields_record distinct]
  rfl

end

end PoolQuote
