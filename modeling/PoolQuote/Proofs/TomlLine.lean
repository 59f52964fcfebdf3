import PoolQuote.Toml.Document
import PoolQuote.Proofs.QuotedText

/-!
Lines of a document that are written plainly. A numeral and a quoted text read back as the values that they were
written for, names without quotes as keys, and a line changes the document as its key, its value or its header says.
-/

set_option autoImplicit false

namespace PoolQuote

namespace Toml

section Span

variable {p : Char → Bool} {body rest : List Char} {c : Char} (inside : ∀ d ∈ body, p d) (stops : p c = false)

include inside stops

theorem takeWhile_stop : (body ++ c :: rest).takeWhile p = body := by
  rw [List.takeWhile_append_of_pos inside, List.takeWhile_cons_of_neg (by simp [stops]), List.append_nil]

theorem dropWhile_stop : (body ++ c :: rest).dropWhile p = c :: rest := by
  rw [List.dropWhile_append_of_pos inside, List.dropWhile_cons_of_neg (by simp [stops])]

end Span

namespace Scalar

theorem ungroup_digits {isDigit : Char → Bool} {text : List Char} (nonempty : text ≠ [])
    (digits : ∀ c ∈ text, isDigit c) (plain : '_' ∉ text) : ungroup isDigit text = some text := by
  induction text with
  | nil => exact absurd rfl nonempty
  | cons c text ih =>
      have digit := digits c List.mem_cons_self
      cases text with
      | nil => simp [ungroup, digit]
      | cons d text =>
          have rest := ih (List.cons_ne_nil d text) (fun e listed => digits e (List.mem_cons_of_mem _ listed))
            fun listed => plain (List.mem_cons_of_mem _ listed)
          have other : d ≠ '_' := by
            rintro rfl
            simp at plain
          rw [ungroup, if_pos digit, rest]
          · rfl
          all_goals simp_all

theorem grouped_numeral (n : Nat) : grouped? 10 (Decimal.ofNat n) = some n := by
  by_cases zero : n = 0
  · subst zero
    rfl
  · have digits : ∀ c ∈ Decimal.ofNat n, (Hex.digit? c).any (· < 10) := Decimal.of_nat_all (by decide) n
    have plain : ∀ c ∈ Decimal.ofNat n, c ≠ '_' := Decimal.of_nat_all (by decide) n
    have read : (Decimal.ofNat n).mapM Hex.digit? = some (Radix.digits 10 n) := by
      have each : ∀ d < 10, Hex.digit? (Decimal.digitChar d) = some d := by decide
      rw [Decimal.ofNat, if_neg zero]
      exact read_each fun d listed => each d (Radix.digit_lt (by decide) listed)
    have ungrouped := ungroup_digits (Decimal.of_nat_ne_nil n) digits fun listed => plain '_' listed rfl
    simp [grouped?, ungrouped, read, Radix.value_digits]

theorem integer_numeral {n : Nat} (fits : (n : Int) ≤ Signed.greatest 64) :
    integer? (Decimal.ofNat n) = some (n : Int) := by
  have held : inRange? (n : Int) = some (n : Int) := by
    have least : Signed.least 64 ≤ (n : Int) := le_trans (by decide) (Int.natCast_nonneg n)
    exact if_pos ⟨least, fits⟩
  have magnitude : magnitude? (Decimal.ofNat n) = some n := by
    rw [magnitude?, if_neg (Decimal.of_nat_unpadded n), grouped_numeral]
  cases numeral : Decimal.ofNat n with
  | nil => exact absurd numeral (Decimal.of_nat_ne_nil n)
  | cons c rest =>
      have other : ∀ d ∈ Decimal.ofNat n, d ≠ '-' ∧ d ≠ '+' := Decimal.of_nat_all (by decide) n
      have unsigned : sign (c :: rest) = (false, c :: rest) := by simp [sign, other c (by simp [numeral])]
      have prefixed : c = '0' → rest = [] := by
        rintro rfl
        exact Decimal.of_nat_head numeral
      rw [numeral] at magnitude
      rw [integer?]
      · simp [unsigned, magnitude, held]
      all_goals simp_all

theorem read_numeral {n : Nat} (fits : (n : Int) ≤ Signed.greatest 64) (rest : List Char) :
    read (Decimal.ofNat n ++ '\n' :: rest) = some (.integer n, '\n' :: rest) := by
  have inside : ∀ c ∈ Decimal.ofNat n, isWordChar c := Decimal.of_nat_all (by decide) n
  have plain : ∀ c ∈ Decimal.ofNat n, c ≠ 'e' := Decimal.of_nat_all (by decide) n
  have worded : ¬(Decimal.ofNat n = "true".toList ∨ Decimal.ofNat n = "false".toList) := by
    rintro (same | same) <;> simp [same] at plain
  have value : value? (Decimal.ofNat n) = some (.integer n) := by
    rw [value?, if_neg worded, integer_numeral fits]
  rw [read, takeWhile_stop inside rfl, dropWhile_stop inside rfl]
  simp [value]

end Scalar

namespace Reader

theorem bind_read {α β : Type} {first : Reader α} {next : α → Reader β} {text rest : List Char} {value : α}
    {result : Option (β × List Char)} (read : first text = some (value, rest)) (more : next value rest = result) :
    (first >>= next) text = result := by
  change (first text >>= fun (value, rest) => next value rest) = result
  rw [read]
  exact more

def IsBareName (name : String) : Prop :=
  name ≠ "" ∧ name.toList.all isBare

instance (name : String) : Decidable (IsBareName name) :=
  inferInstanceAs (Decidable (_ ∧ _))

theorem IsBareName.bare {name : String} (is : IsBareName name) : ∀ c ∈ name.toList, isBare c :=
  List.all_eq_true.mp is.2

theorem IsBareName.head {name : String} (bare : IsBareName name) :
    ∃ c others, name.toList = c :: others ∧ isBare c := by
  cases chars : name.toList with
  | nil => exact absurd (String.toList_eq_nil_iff.mp chars) bare.1
  | cons c others => exact ⟨c, others, rfl, bare.bare c (by simp [chars])⟩

theorem key_part_bare {name : String} (bare : IsBareName name) {c : Char} (stops : isBare c = false)
    (rest : List Char) : keyPart (name.toList ++ c :: rest) = some (name, c :: rest) := by
  obtain ⟨first, others, chars, letter⟩ := bare.head
  have nonempty : name.toList.isEmpty = false := by simp [chars]
  have unquoted : first ≠ '"' ∧ first ≠ '\'' := by
    constructor <;> rintro rfl <;> cases letter
  have leads : (name.toList ++ c :: rest).head? = some first := by simp [chars]
  unfold keyPart
  rw [takeWhile_stop bare.bare stops, dropWhile_stop bare.bare stops, leads]
  simp [unquoted, nonempty]

def dotted : List String → List Char
  | [] => []
  | [name] => name.toList
  | name :: names => name.toList ++ '.' :: dotted names

theorem dotted_head {names : List String} (bare : ∀ name ∈ names, IsBareName name) (nonempty : names ≠ []) :
    ∃ c others, dotted names = c :: others ∧ isBare c := by
  cases names with
  | nil => exact absurd rfl nonempty
  | cons name names =>
      obtain ⟨c, others, chars, letter⟩ := (bare name List.mem_cons_self).head
      cases names with
      | nil => exact ⟨c, others, chars, letter⟩
      | cons next names => exact ⟨c, _, congrArg (· ++ '.' :: dotted (next :: names)) chars, letter⟩

theorem skip_none {c : Char} (letter : Quoted.isBlank c = false) (rest : List Char) :
    skipBlanks (c :: rest) = some ((), c :: rest) := by
  rw [skipBlanks, List.dropWhile_cons_of_neg (by simp [letter])]

theorem not_blank_of_bare {c : Char} (letter : isBare c) : Quoted.isBlank c = false := by
  cases blank : Quoted.isBlank c with
  | false => rfl
  | true =>
      have space : c = ' ' ∨ c = '\t' := by simpa [Quoted.isBlank] using blank
      rcases space with rfl | rfl <;> cases letter

theorem key_parts_dotted {names : List String} (bare : ∀ name ∈ names, IsBareName name) (nonempty : names ≠ [])
    {n : Nat} (deep : names.length ≤ n) {c : Char} {rest : List Char} (stops : isBare c = false)
    (ends : ((c :: rest).dropWhile Quoted.isBlank).head? ≠ some '.') :
    keyParts n (dotted names ++ c :: rest) = some (names, (c :: rest).dropWhile Quoted.isBlank) := by
  induction names generalizing n with
  | nil => exact absurd rfl nonempty
  | cons name names ih =>
      obtain ⟨first, others, chars, letter⟩ := (bare name List.mem_cons_self).head
      have start (after : List Char) : skipBlanks (name.toList ++ after) = some ((), name.toList ++ after) := by
        rw [chars]
        exact skip_none (not_blank_of_bare letter) _
      cases n with
      | zero => simp at deep
      | succ n =>
          cases names with
          | nil =>
              refine bind_read (start _) (bind_read (key_part_bare (bare name List.mem_cons_self) stops rest) ?_)
              refine bind_read rfl (bind_read rfl ?_)
              rw [if_neg ends]
              rfl
          | cons next names =>
              have more := ih (fun name listed => bare name (List.mem_cons_of_mem _ listed)) (List.cons_ne_nil _ _)
                (Nat.le_of_succ_le_succ deep)
              have written : dotted (name :: next :: names) = name.toList ++ '.' :: dotted (next :: names) := rfl
              rw [written, List.append_assoc, List.cons_append]
              refine bind_read (start _) (bind_read (key_part_bare (bare name List.mem_cons_self) rfl _) ?_)
              refine bind_read (skip_none rfl _) (bind_read rfl ?_)
              rw [List.head?_cons, if_pos rfl]
              exact bind_read rfl (bind_read more rfl)

theorem key_dotted {steps : List String} {last : String} (bare : ∀ name ∈ steps ++ [last], IsBareName name)
    (deep : steps.length < depthLimit) {c : Char} {rest : List Char} (stops : isBare c = false)
    (ends : ((c :: rest).dropWhile Quoted.isBlank).head? ≠ some '.') :
    key (dotted (steps ++ [last]) ++ c :: rest) = some ((steps, last), (c :: rest).dropWhile Quoted.isBlank) := by
  have parts := key_parts_dotted bare (by simp) (by simpa using deep) stops ends
  refine bind_read parts ?_
  simp
  rfl

-- A value as it is written, to be read back up to the end of its line.
structure IsValue (written : List Char) (value : Toml) : Prop where
  head : ∀ c ∈ written.head?, Quoted.isBlank c = false
  read : ∀ depth rest, Reader.value depth (written ++ '\n' :: rest) = some (value, '\n' :: rest)

theorem is_value_text (text : String) : IsValue (quoteText text.toList) (.string text) := by
  obtain ⟨c, others, chars, quote⟩ := Quoted.quote_text_head text.toList
  constructor
  · rw [chars]
    rintro _ ⟨⟩
    rcases quote with rfl | rfl <;> rfl
  · intro depth rest
    have ends : Quoted.Ends ('\n' :: rest) := by
      rintro _ ⟨⟩
      decide
    have quoted : value.quoted (quoteText text.toList ++ '\n' :: rest) = some (.string text, '\n' :: rest) := by
      rw [value.quoted, Quoted.any_quote_text text.toList ends]
      simp
    have leads : (quoteText text.toList ++ '\n' :: rest).head? = some c := by simp [chars]
    rw [value.eq_def]
    refine bind_read rfl ?_
    rw [leads]
    rcases quote with rfl | rfl <;> exact quoted

theorem is_value_numeral {n : Nat} (fits : (n : Int) ≤ Signed.greatest 64) :
    IsValue (Decimal.ofNat n) (.integer n) := by
  obtain ⟨c, others, chars⟩ := List.exists_cons_of_ne_nil (Decimal.of_nat_ne_nil n)
  have each : ∀ d ∈ Decimal.ofNat n,
      Quoted.isBlank d = false ∧ d ≠ '"' ∧ d ≠ '\'' ∧ d ≠ '[' ∧ d ≠ '\x7b' := Decimal.of_nat_all (by decide) n
  obtain ⟨blank, double, single, bracket, brace⟩ := each c (by simp [chars])
  constructor
  · simpa [chars] using blank
  · intro depth rest
    have scalar := Scalar.read_numeral fits rest
    rw [value.eq_def]
    refine bind_read rfl ?_
    have leads : (Decimal.ofNat n ++ '\n' :: rest).head? = some c := by simp [chars]
    rw [leads]
    split
    all_goals simp_all

end Reader

namespace Document

open Reader

variable {document next last : Document} {chars more : List Char}

-- Characters that take a document from one state to another: whole lines, no more of them than characters, so that a
-- reader that may take as many lines as there are characters reads them all.
def Reads (document : Document) (chars : List Char) (next : Document) : Prop :=
  ∃ count ≤ chars.length, ∀ n rest, document.readLines (n + count) (chars ++ rest) = next.readLines n rest

theorem Reads.trans (first : document.Reads chars next) (second : next.Reads more last) :
    document.Reads (chars ++ more) last := by
  obtain ⟨count, few, read⟩ := first
  obtain ⟨moreCount, fewMore, readMore⟩ := second
  refine ⟨moreCount + count, by simp; omega, fun n rest => ?_⟩
  rw [← Nat.add_assoc, List.append_assoc, read, readMore]

theorem Reads.all (reads : document.Reads chars next) : document.readLines chars.length chars = some next := by
  obtain ⟨count, few, read⟩ := reads
  have run := read (chars.length - count) []
  rw [Nat.sub_add_cancel few, List.append_nil] at run
  rw [run]
  cases chars.length - count <;> rfl

theorem reads_line (line : List Char) (head : ∀ c ∈ line.head?, Quoted.isBlank c = false)
    (read : ∀ rest, document.readLine (line ++ '\n' :: rest) = some (next, rest)) :
    document.Reads (line ++ ['\n']) next := by
  refine ⟨1, by simp, fun n rest => ?_⟩
  have written : line ++ ['\n'] ++ rest = line ++ '\n' :: rest := by simp
  have whole : (line ++ '\n' :: rest).dropWhile Quoted.isBlank = line ++ '\n' :: rest := by
    cases line with
    | nil => rfl
    | cons c line => exact List.dropWhile_cons_of_neg (by simp [head c rfl])
  rw [written, readLines, whole, read]
  · rfl
  · simp

theorem read_pair_written {name : String} (bare : IsBareName name) {written : List Char} {value : Toml}
    (is : IsValue written value) {entries : Entries}
    (entered : document.entries.change (fun entries => entries.enter value [] name) document.header = some entries)
    (rest : List Char) :
    document.readPair (name.toList ++ ' ' :: '=' :: ' ' :: (written ++ '\n' :: rest)) =
      some (⟨entries, document.header⟩, '\n' :: rest) := by
  have key : key (dotted ([] ++ [name]) ++ ' ' :: '=' :: ' ' :: (written ++ '\n' :: rest)) =
      some (([], name), '=' :: ' ' :: (written ++ '\n' :: rest)) :=
    key_dotted (by simpa using bare) (by decide) rfl (by simp [Quoted.isBlank])
  have start : skipBlanks (' ' :: (written ++ '\n' :: rest)) = some ((), written ++ '\n' :: rest) := by
    cases written with
    | nil => rfl
    | cons c written => exact skip_none (is.head c rfl) _
  refine bind_read key (bind_read rfl (bind_read start (bind_read (is.read _ rest) ?_)))
  simp only [entered]
  rfl

theorem read_line_pair {c : Char} (letter : isBare c) {text rest : List Char}
    (pair : document.readPair (c :: text) = some (next, '\n' :: rest)) :
    document.readLine (c :: text) = some (next, rest) := by
  have opens : c ≠ '[' := by
    rintro rfl
    cases letter
  have bare : c ∉ ['#', '\n', '\r'] := by
    simp only [List.mem_cons, List.not_mem_nil, or_false]
    rintro (rfl | rfl | rfl) <;> cases letter
  rw [readLine, if_neg bare]
  · exact bind_read pair (bind_read rfl rfl)
  all_goals simp [opens]

theorem reads_pair (document : Document) {name : String} (bare : IsBareName name) {written : List Char} {value : Toml}
    (is : IsValue written value) {entries : Entries}
    (entered : document.entries.change (fun entries => entries.enter value [] name) document.header = some entries) :
    document.Reads (name.toList ++ ' ' :: '=' :: ' ' :: written ++ ['\n']) ⟨entries, document.header⟩ := by
  obtain ⟨c, others, chars, letter⟩ := bare.head
  apply reads_line
  · rw [chars]
    rintro _ ⟨⟩
    exact not_blank_of_bare letter
  · intro rest
    have pair := read_pair_written bare is entered rest
    rw [chars] at pair ⊢
    simpa using read_line_pair letter pair

theorem reads_empty : document.Reads ['\n'] document :=
  reads_line [] (by simp) fun _ => rfl

theorem reads_header (document : Document) {steps : List String} {name : String}
    (bare : ∀ part ∈ steps ++ [name], IsBareName part) (deep : steps.length < depthLimit) {entries : Entries}
    (opened : document.entries.change (Entries.openTable name) steps = some entries) :
    document.Reads ('[' :: dotted (steps ++ [name]) ++ [']'] ++ ['\n']) ⟨entries, steps ++ [name]⟩ := by
  obtain ⟨c, others, chars, letter⟩ := dotted_head bare (by simp)
  apply reads_line
  · rintro _ ⟨⟩
    rfl
  · intro rest
    have key : key (dotted (steps ++ [name]) ++ ']' :: '\n' :: rest) = some ((steps, name), ']' :: '\n' :: rest) :=
      key_dotted bare deep rfl (by simp [Quoted.isBlank])
    have single : c ≠ '[' := by
      rintro rfl
      cases letter
    have header : document.readHeader Entries.openTable (dotted (steps ++ [name]) ++ ']' :: '\n' :: rest) =
        some (⟨entries, steps ++ [name]⟩, '\n' :: rest) := by
      refine bind_read key (bind_read rfl ?_)
      simp only [opened]
      rfl
    have text : '[' :: dotted (steps ++ [name]) ++ [']'] ++ '\n' :: rest =
        '[' :: (dotted (steps ++ [name]) ++ ']' :: '\n' :: rest) := by simp
    rw [text, readLine]
    · exact bind_read header (bind_read rfl rfl)
    · simp [chars, single]

end Document

theorem parse_of_reads {chars : List Char} (unmarked : chars.head? ≠ some '\uFEFF') {last : Document}
    (reads : Document.empty.Reads chars last) : parse (String.ofList chars) = some last.entries := by
  rw [parse, String.toList_ofList]
  split
  · simp at unmarked
  · rw [reads.all]
    rfl

end Toml

end PoolQuote
