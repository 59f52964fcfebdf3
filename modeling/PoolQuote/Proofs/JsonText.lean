import PoolQuote.Json.Parser
import PoolQuote.Json.Printer
import PoolQuote.Proofs.Numerals
import Mathlib.Data.List.TakeWhile

/-!
A JSON value is read back from its compact text. The text scans into the lexemes of the value, each found whole
because words and numbers stop at the punctuation after them, and the machine that reads lexemes gives the value to
whatever waits for it on the stack.
-/

set_option autoImplicit false

namespace PoolQuote.Json

-- The values whose strings and keys all have characters, so that nothing is lost when they are written.
inductive HasTexts : Json → Prop
  | null : HasTexts .null
  | bool (b : Bool) : HasTexts (.bool b)
  | integer (negative : Bool) (magnitude : Nat) : HasTexts (.integer negative magnitude)
  | decimal : HasTexts .decimal
  | string (text : String) : HasTexts (.string (some text))
  | array {items : List Json} (each : ∀ item ∈ items, HasTexts item) : HasTexts (.array items)
  | object {members : List (Option String × Json)} (keys : ∀ member ∈ members, member.1.isSome)
      (each : ∀ member ∈ members, HasTexts member.2) : HasTexts (.object members)

mutual

def lexemes : Json → List Lexeme
  | .null => [.null]
  | .bool b => [.bool b]
  | .integer negative magnitude => [.integer negative magnitude]
  | .decimal => [.decimal]
  | .string text => [.string text]
  | .array items => .openBracket :: itemLexemes items ++ [.closeBracket]
  | .object members => .openBrace :: memberLexemes members ++ [.closeBrace]

def itemLexemes : List Json → List Lexeme
  | [] => []
  | [item] => lexemes item
  | item :: items => lexemes item ++ .comma :: itemLexemes items

def memberLexemes : List (Option String × Json) → List Lexeme
  | [] => []
  | [(key, value)] => .string key :: .colon :: lexemes value
  | (key, value) :: members => .string key :: .colon :: lexemes value ++ .comma :: memberLexemes members

end

namespace Lexeme

variable {found : List Lexeme} {rest : List Char}

def Ends (rest : List Char) : Prop :=
  ∀ c ∈ rest.head?, c.isLower = false ∧ isNumberChar c = false

theorem scan_flush {mode : Mode} {lexeme : Lexeme} (ended : end? mode = some [lexeme])
    (passes : ∀ c ∈ rest.head?, step? mode c = (begin? c).map fun begun => (lexeme :: begun.1, begun.2)) :
    scanFrom found mode rest = scanFrom (lexeme :: found) .between rest := by
  cases rest with
  | nil =>
      rw [scanFrom, ended, scanFrom, List.reverse_cons]
      simp [end?]
  | cons c cs =>
      rw [scanFrom, scanFrom, passes c rfl, step?]
      cases begin? c with
      | none => rfl
      | some begun => simp

theorem scan_word_end {letters : List Char} {lexeme : Lexeme} (word : ofWord? letters.reverse = some lexeme)
    (ends : Ends rest) : scanFrom found (.word letters) rest = scanFrom (lexeme :: found) .between rest := by
  apply scan_flush
  · simp [end?, word]
  · intro c first
    simp only [step?, (ends c first).1, end?, word]
    cases begin? c <;> rfl

theorem scan_number_end {chars : List Char} {lexeme : Lexeme} (number : ofNumber? chars.reverse = some lexeme)
    (ends : Ends rest) : scanFrom found (.number chars) rest = scanFrom (lexeme :: found) .between rest := by
  apply scan_flush
  · simp [end?, number]
  · intro c first
    simp only [step?, (ends c first).2, end?, number]
    cases begin? c <;> rfl

theorem scan_number_chars {taken more : List Char} (numeric : ∀ c ∈ more, isNumberChar c) :
    scanFrom found (.number taken) (more ++ rest) = scanFrom found (.number (more.reverse ++ taken)) rest := by
  induction more generalizing taken with
  | nil => rfl
  | cons c cs ih =>
      have step : step? (.number taken) c = some ([], .number (c :: taken)) := if_pos (numeric c List.mem_cons_self)
      rw [List.cons_append, scanFrom, step, List.reverse_cons, List.append_assoc]
      exact ih fun d listed => numeric d (List.mem_cons_of_mem _ listed)

theorem begin_digit {c : Char} (digit : Decimal.isDigit c) : begin? c = some ([], .number [c]) := by
  have other : ∀ d, Decimal.isDigit d = false → c ≠ d := by
    rintro d plain rfl
    simp [digit] at plain
  have unquoted := other '"' rfl
  simp [begin?, isBlank, digit, unquoted, other ' ' rfl, other '\t' rfl, other '\n' rfl, other '\r' rfl]

theorem of_magnitude_numeral (negative : Bool) (n : Nat) :
    ofMagnitude? negative (Decimal.ofNat n) = some (.integer negative n) := by
  have digits := Decimal.of_nat_digits n
  have whole : (Decimal.ofNat n).takeWhile Decimal.isDigit = Decimal.ofNat n := List.takeWhile_eq_self_iff.mpr digits
  have tail : (Decimal.ofNat n).dropWhile Decimal.isDigit = [] := List.dropWhile_eq_nil_iff.mpr digits
  simp only [ofMagnitude?, whole, tail, if_neg (Decimal.of_nat_unpadded n), Decimal.to_nat_of_nat]
  rfl

theorem scan_integer (negative : Bool) (magnitude : Nat) (ends : Ends rest) :
    scanFrom found .between (scalar (.integer negative magnitude) ++ rest) =
      scanFrom (.integer negative magnitude :: found) .between rest := by
  have digits := Decimal.of_nat_digits magnitude
  have numeric : ∀ c ∈ Decimal.ofNat magnitude, isNumberChar c := by
    intro c listed
    simp [isNumberChar, digits c listed]
  have read := of_magnitude_numeral negative magnitude
  cases negative with
  | true =>
      change scanFrom found (.number ['-']) (Decimal.ofNat magnitude ++ rest) = _
      rw [scan_number_chars numeric]
      apply scan_number_end _ ends
      simpa [ofNumber?] using read
  | false =>
      change scanFrom found .between (Decimal.ofNat magnitude ++ rest) = _
      cases numeral : Decimal.ofNat magnitude with
      | nil => exact absurd numeral (Decimal.of_nat_ne_nil magnitude)
      | cons c cs =>
          rw [numeral] at digits numeric read
          have digit := digits c List.mem_cons_self
          have unsigned : c ≠ '-' := by
            rintro rfl
            simp [Decimal.isDigit, Decimal.digit?] at digit
          rw [List.cons_append, scanFrom, step?, begin_digit digit]
          change scanFrom found (.number [c]) (cs ++ rest) = _
          rw [scan_number_chars fun d listed => numeric d (List.mem_cons_of_mem _ listed)]
          apply scan_number_end _ ends
          simpa [ofNumber?, unsigned] using read

theorem hex_digit_char {d : Nat} (small : d < 16) : Hex.digit? (Hex.digitChar d) = some d := by
  have each : ∀ e < 16, Hex.digit? (Hex.digitChar e) = some e := by decide
  exact each d small

theorem scan_control (before : List Char) {c : Char} (control : c.toNat < 0x20) :
    scanFrom found (.inString ⟨before, true, none⟩)
        ('\\' :: 'u' :: '0' :: '0' :: Hex.digitChar (c.toNat / 16) :: Hex.digitChar (c.toNat % 16) :: rest) =
      scanFrom found (.inString ⟨c :: before, true, none⟩) rest := by
  have high := hex_digit_char (d := c.toNat / 16) (by omega)
  have low := hex_digit_char (d := c.toNat % 16) (by omega)
  have plain : Partial.pushUnit ⟨before, true, none⟩ c.toNat = ⟨c :: before, true, none⟩ := by
    have notHigh : Partial.isHigh c.toNat = false := by simp [Partial.isHigh]; omega
    have notLow : Partial.isLow c.toNat = false := by simp [Partial.isLow]; omega
    simp [Partial.pushUnit, notHigh, notLow, Partial.push, Char.ofNat_toNat]
  change scanFrom found (.hex ⟨before, true, none⟩ 2 0) (_ :: _ :: rest) = _
  simp [scanFrom, step?, high, low, Nat.div_add_mod, plain]

theorem scan_char (before : List Char) (c : Char) :
    scanFrom found (.inString ⟨before, true, none⟩) (quotedChar c ++ rest) =
      scanFrom found (.inString ⟨c :: before, true, none⟩) rest := by
  by_cases special : c = '"' ∨ c = '\\' ∨ c = '\x08' ∨ c = '\x0c' ∨ c = '\n' ∨ c = '\r' ∨ c = '\t'
  · rcases special with rfl | rfl | rfl | rfl | rfl | rfl | rfl <;> rfl
  · obtain ⟨quote, backslash, backspace, feed, line, carriage, tab⟩ := by simpa only [not_or] using special
    simp only [quotedChar, quote, backslash, backspace, feed, line, carriage, tab, if_false]
    by_cases control : c.toNat < 0x20
    · rw [if_pos control]
      exact scan_control before control
    · rw [if_neg control, List.singleton_append, scanFrom]
      simp only [step?, quote, backslash, control, if_false]
      rfl

theorem scan_chars (cs before : List Char) :
    scanFrom found (.inString ⟨before, true, none⟩) (cs.flatMap quotedChar ++ rest) =
      scanFrom found (.inString ⟨cs.reverse ++ before, true, none⟩) rest := by
  induction cs generalizing before with
  | nil => rfl
  | cons c cs ih =>
      rw [List.flatMap_cons, List.append_assoc, scan_char, ih, List.reverse_cons, List.append_assoc]
      rfl

theorem scan_quoted (text : String) :
    scanFrom found .between (quoted (some text) ++ rest) = scanFrom (.string (some text) :: found) .between rest := by
  change scanFrom found (.inString ⟨[], true, none⟩) (text.toList.flatMap quotedChar ++ ['"'] ++ rest) = _
  rw [List.append_assoc, scan_chars, List.append_nil]
  change scanFrom (.string (some (String.ofList text.toList.reverse.reverse)) :: found) .between rest = _
  rw [List.reverse_reverse, String.ofList_toList]

-- The text of a value scans into its lexemes, whatever was found before and wherever scanning goes on.
def Scans (value : Json) : Prop :=
  ∀ found rest, Ends rest →
    scanFrom found .between (compact value ++ rest) = scanFrom ((lexemes value).reverse ++ found) .between rest

theorem ends_cons {c : Char} (letter : c.isLower = false) (number : isNumberChar c = false) : Ends (c :: rest) := by
  intro first leads
  cases leads
  exact ⟨letter, number⟩

theorem scan_comma : scanFrom found .between (',' :: rest) = scanFrom (.comma :: found) .between rest :=
  rfl

theorem scan_items {items : List Json} (each : ∀ item ∈ items, Scans item) (ends : Ends rest) :
    scanFrom found .between (joined [','] (compactItems items) ++ rest) =
      scanFrom ((itemLexemes items).reverse ++ found) .between rest := by
  induction items generalizing found with
  | nil => rfl
  | cons item items ih =>
      have first := each item List.mem_cons_self
      cases items with
      | nil => exact first found rest ends
      | cons next items =>
          simp only [compactItems, joined, List.append_assoc, List.cons_append, List.nil_append]
          rw [first found _ (ends_cons rfl rfl), scan_comma]
          refine (ih fun other listed => each other (List.mem_cons_of_mem _ listed)).trans ?_
          simp [itemLexemes]

theorem scan_member (key : String) {value : Json} (scans : Scans value) (ends : Ends rest) :
    scanFrom found .between (quoted (some key) ++ ':' :: (compact value ++ rest)) =
      scanFrom ((lexemes value).reverse ++ .colon :: .string (some key) :: found) .between rest := by
  rw [scan_quoted]
  exact scans _ rest ends

theorem scan_members {members : List (Option String × Json)} (keys : ∀ member ∈ members, member.1.isSome)
    (each : ∀ member ∈ members, Scans member.2) (ends : Ends rest) :
    scanFrom found .between (joined [','] (compactMembers members) ++ rest) =
      scanFrom ((memberLexemes members).reverse ++ found) .between rest := by
  induction members generalizing found with
  | nil => rfl
  | cons member members ih =>
      obtain ⟨_ | key, value⟩ := member
      · simpa using keys _ List.mem_cons_self
      have first := each (some key, value) List.mem_cons_self
      cases members with
      | nil =>
          simp only [compactMembers, joined, List.append_assoc, List.cons_append]
          rw [scan_member key first ends]
          simp [memberLexemes]
      | cons next members =>
          simp only [compactMembers, joined, List.append_assoc, List.cons_append, List.nil_append]
          rw [scan_member key first (ends_cons rfl rfl), scan_comma]
          refine (ih (fun other listed => keys other (List.mem_cons_of_mem _ listed))
            (fun other listed => each other (List.mem_cons_of_mem _ listed))).trans ?_
          simp [memberLexemes]

theorem scan_value {value : Json} (texts : HasTexts value) : Scans value := by
  induction texts with
  | null => exact fun found rest ends => scan_word_end rfl ends
  | bool b =>
      cases b
      · exact fun found rest ends => scan_word_end rfl ends
      · exact fun found rest ends => scan_word_end rfl ends
  | integer negative magnitude => exact fun found rest ends => scan_integer negative magnitude ends
  | decimal => exact fun found rest ends => scan_number_end rfl ends
  | string text => exact fun found rest _ => scan_quoted text
  | array _ each =>
      intro found rest _
      simp only [compact, lexemes, List.cons_append, List.append_assoc]
      change scanFrom (.openBracket :: found) .between _ = _
      rw [scan_items each (ends_cons (c := ']') rfl rfl)]
      change scanFrom (.closeBracket :: _) .between _ = _
      simp
  | object keys _ each =>
      intro found rest _
      simp only [compact, lexemes, List.cons_append, List.append_assoc]
      change scanFrom (.openBrace :: found) .between _ = _
      rw [scan_members keys each (ends_cons (c := '\x7d') rfl rfl)]
      change scanFrom (.closeBrace :: _) .between _ = _
      simp

theorem scan_render {value : Json} (texts : HasTexts value) : scan (compact value) = some (lexemes value) := by
  have scanned := scan_value texts [] [] (by simp [Ends])
  rw [List.append_nil, List.append_nil] at scanned
  rw [scan, scanned, scanFrom]
  simp [end?]

end Lexeme

namespace Machine

variable {stack : List Frame} {rest : List Lexeme}

def Runs (value : Json) : Prop :=
  ∀ stack rest, run ⟨.value, stack⟩ (lexemes value ++ rest) = run (give value stack) rest

-- Before its first item an array also waits for its end, with which no value starts.
theorem run_first_item (item : Json) (items : List Json) :
    run ⟨.firstItem, stack⟩ (itemLexemes (item :: items) ++ rest) =
      run ⟨.value, .array [] :: stack⟩ (itemLexemes (item :: items) ++ rest) := by
  cases items <;> cases item <;> rfl

theorem run_first_key (member : Option String × Json) (members : List (Option String × Json)) :
    run ⟨.firstKey [], stack⟩ (memberLexemes (member :: members) ++ rest) =
      run ⟨.key [], stack⟩ (memberLexemes (member :: members) ++ rest) := by
  cases members <;> rfl

theorem run_items {item : Json} {items : List Json} (each : ∀ other ∈ item :: items, Runs other) (done : List Json) :
    run ⟨.value, .array done :: stack⟩ (itemLexemes (item :: items) ++ .closeBracket :: rest) =
      run (give (.array (done.reverse ++ item :: items)) stack) rest := by
  induction items generalizing item done with
  | nil =>
      rw [itemLexemes, each item List.mem_cons_self]
      change run (give (.array (item :: done).reverse) stack) rest = _
      rw [List.reverse_cons]
  | cons next items ih =>
      simp only [itemLexemes, List.append_assoc, List.cons_append]
      rw [each item List.mem_cons_self]
      change run ⟨.value, .array (item :: done) :: stack⟩ _ = _
      refine (ih (fun other listed => each other (List.mem_cons_of_mem _ listed)) (item :: done)).trans ?_
      rw [List.reverse_cons, List.append_assoc]
      rfl

theorem run_members {member : Option String × Json} {members : List (Option String × Json)}
    (each : ∀ other ∈ member :: members, Runs other.2) (done : List (Option String × Json)) :
    run ⟨.key done, stack⟩ (memberLexemes (member :: members) ++ .closeBrace :: rest) =
      run (give (.object (done.reverse ++ member :: members)) stack) rest := by
  induction members generalizing member done with
  | nil =>
      change run ⟨.value, .object done member.1 :: stack⟩ (lexemes member.2 ++ _) = _
      rw [each member List.mem_cons_self]
      change run (give (.object (member :: done).reverse) stack) rest = _
      rw [List.reverse_cons]
  | cons next members ih =>
      simp only [memberLexemes, List.append_assoc, List.cons_append]
      change run ⟨.value, .object done member.1 :: stack⟩ (lexemes member.2 ++ _) = _
      rw [each member List.mem_cons_self]
      change run ⟨.key (member :: done), stack⟩ _ = _
      refine (ih (fun other listed => each other (List.mem_cons_of_mem _ listed)) (member :: done)).trans ?_
      rw [List.reverse_cons, List.append_assoc]
      rfl

theorem run_value {value : Json} (texts : HasTexts value) : Runs value := by
  induction texts with
  | null | bool | integer | decimal | string => exact fun stack rest => rfl
  | @array items _ each =>
      intro stack rest
      cases items with
      | nil => rfl
      | cons item items =>
          rw [lexemes, List.append_assoc, List.cons_append]
          exact (run_first_item item items).trans (run_items each [])
  | @object members _ _ each =>
      intro stack rest
      cases members with
      | nil => rfl
      | cons member members =>
          rw [lexemes, List.append_assoc, List.cons_append]
          exact (run_first_key member members).trans (run_members each [])

theorem run_lexemes {value : Json} (texts : HasTexts value) : start.run (lexemes value) = some value := by
  have ran := run_value texts [] []
  rw [List.append_nil] at ran
  exact ran

end Machine

theorem parse_render {value : Json} (texts : HasTexts value) : parse (render value) = some value := by
  rw [parse, render, String.toList_ofList, Lexeme.scan_render texts]
  exact Machine.run_lexemes texts

end PoolQuote.Json
