import PoolQuote.Toml.Quoted
import PoolQuote.Toml.Writer
import PoolQuote.Proofs.Numerals

/-!
A quoted text reads back as the text it was written for, in whichever of the four styles it was written. On one line
the closing quote is the first that no escape covers. Over several lines one or two quotes may stand for themselves
right before the closing three, so that no more than two of a run are written as they are.
-/

set_option autoImplicit false

namespace PoolQuote.Toml.Quoted

variable {done rest : List Char}

def Ends (rest : List Char) : Prop :=
  ∀ c ∈ rest.head?, c ≠ '"' ∧ c ≠ '\''

theorem plain_of_unescaped {c : Char} (unescaped : needsEscape c = false) : c = '\n' ∨ isPlain c := by
  simp only [needsEscape, isPlain] at *
  by_cases line : c = '\n'
  · exact .inl line
  · by_cases tab : c = '\t' <;> simp_all

theorem hex_digit_upper {d : Nat} (small : d < 16) : Hex.digit? (Hex.digitChar d).toUpper = some d := by
  have each : ∀ e < 16, Hex.digit? (Hex.digitChar e).toUpper = some e := by decide
  exact each d small

theorem scalar_of_digits {c : Char} {digits : List Char} {values : List Nat}
    (read : digits.mapM Hex.digit? = some values) (value : Radix.value 16 values = c.toNat) (low : c.toNat < 0x80) :
    scalar? digits = some c := by
  have inside : c.toNat < 0xD800 := by omega
  simp [scalar?, read, value, inside, Char.ofNat_toNat]

theorem scalar_code {c : Char} (needs : needsEscape c) :
    ∃ x y z w, escapedCode c = ['\\', 'u', x, y, z, w] ∧ scalar? [x, y, z, w] = some c := by
  have low : c.toNat < 0x80 := by
    simp only [needsEscape, Bool.or_eq_true, Bool.and_eq_true, decide_eq_true_eq] at needs
    omega
  have read : ([0x1000, 0x100, 0x10, 1].map fun unit => (Hex.digitChar (c.toNat / unit % 16)).toUpper).mapM Hex.digit? =
      some ([0x1000, 0x100, 0x10, 1].map fun unit => c.toNat / unit % 16) :=
    read_map fun unit _ => hex_digit_upper (Nat.mod_lt _ (by decide))
  have value : Radix.value 16 ([0x1000, 0x100, 0x10, 1].map fun unit => c.toNat / unit % 16) = c.toNat := by
    simp only [Radix.value, List.map, List.foldl]
    omega
  exact ⟨_, _, _, _, rfl, scalar_of_digits read value low⟩

def isNamed (c : Char) : Bool :=
  c ∈ ['\x08', '\t', '\n', '\x0c', '\r', '\\']

theorem escaped_char_other {lines : Bool} {c : Char} (other : isNamed c = false) :
    escapedChar lines c = if needsEscape c then escapedCode c else [c] := by
  simp_all [isNamed, escapedChar]

theorem named_cases {c : Char} (named : isNamed c) :
    c = '\x08' ∨ c = '\t' ∨ c = '\n' ∨ c = '\x0c' ∨ c = '\r' ∨ c = '\\' := by
  simpa [isNamed] using named

theorem escaped_char_head (lines : Bool) (c : Char) :
    ∃ first others, escapedChar lines c = first :: others ∧ (first = '\\' ∨ first = c ∧ c ≠ '\r') := by
  by_cases named : isNamed c
  · rcases named_cases named with rfl | rfl | rfl | rfl | rfl | rfl <;> cases lines <;>
      exact ⟨_, _, rfl, by decide⟩
  · rw [escaped_char_other (by simpa using named)]
    by_cases needs : needsEscape c
    · exact ⟨_, _, if_pos needs, .inl rfl⟩
    · refine ⟨_, _, if_neg needs, .inr ⟨rfl, ?_⟩⟩
      rintro rfl
      exact needs rfl

section OneLine

theorem basic_char {c : Char} (letter : c ≠ '"') :
    basic done (escapedChar false c ++ rest) = basic (c :: done) rest := by
  by_cases named : isNamed c
  · rcases named_cases named with rfl | rfl | rfl | rfl | rfl | rfl <;> rfl
  · rw [escaped_char_other (by simpa using named)]
    by_cases needs : needsEscape c
    · obtain ⟨x, y, z, w, code, scalar⟩ := scalar_code needs
      rw [if_pos needs, code]
      simp [basic, scalar]
    · rw [if_neg needs]
      have plain := plain_of_unescaped (by simpa using needs)
      simp_all [basic, isNamed]

theorem basic_text (text : List Char) (run : Nat) :
    basic done (escapedText false run text ++ '"' :: rest) = some (done.reverse ++ text, rest) := by
  induction text generalizing done run with
  | nil => simp [escapedText, basic]
  | cons c text ih =>
      by_cases quote : c = '"'
      · subst quote
        have step : basic done ('\\' :: '"' :: (escapedText false 0 text ++ '"' :: rest)) =
          basic ('"' :: done) (escapedText false 0 text ++ '"' :: rest) := rfl
        simp [escapedText, step, ih]
      · have written : escapedText false run (c :: text) = escapedChar false c ++ escapedText false 0 text := by
          simp [escapedText]
        rw [written, List.append_assoc, basic_char quote, ih]
        simp

theorem literal_text {text : List Char} (unquoted : '\'' ∉ text) (plain : ∀ c ∈ text, isPlain c) :
    literal done (text ++ '\'' :: rest) = some (done.reverse ++ text, rest) := by
  induction text generalizing done with
  | nil => simp [literal]
  | cons c text ih =>
      rw [List.mem_cons, not_or] at unquoted
      have step : literal done (c :: (text ++ '\'' :: rest)) = literal (c :: done) (text ++ '\'' :: rest) := by
        rw [literal, if_pos (plain c List.mem_cons_self)]
        exact fun same => unquoted.1 same.symm
      rw [List.cons_append, step, ih unquoted.2 fun d listed => plain d (List.mem_cons_of_mem _ listed)]
      simp

end OneLine

section Lines

variable {quote : Char} {read : List Char → List Char → Option (List Char × List Char)}

-- How a reader takes quotes: three of them close a text, and one or two before them belong to it.
structure Closes (quote : Char) (read : List Char → List Char → Option (List Char × List Char)) : Prop where
  close : ∀ count ≤ 2, ∀ done rest, rest.head? ≠ some quote →
    read done (List.replicate (count + 3) quote ++ rest) = some (done.reverse ++ List.replicate count quote, rest)
  single : ∀ done more, (∀ tail, more ≠ quote :: quote :: tail) →
    read done (quote :: more) = read (quote :: done) more

structure IsForm (quote : Char) (read : List Char → List Char → Option (List Char × List Char)) (c : Char)
    (form : List Char) : Prop where
  head : ∃ first others, form = first :: others ∧ first ≠ quote
  takes : ∀ done rest, read done (form ++ rest) = read (c :: done) rest

-- A body that is written for a text, with no more than two quotes in a row, `run` of them just before it.
inductive Written (quote : Char) (read : List Char → List Char → Option (List Char × List Char)) :
    Nat → List Char → List Char → Prop
  | nil (run : Nat) : Written quote read run [] []
  | quote (run : Nat) (text body : List Char) (few : run < 2) (more : Written quote read (run + 1) text body) :
      Written quote read run (quote :: text) (quote :: body)
  | form (run : Nat) (c : Char) (form text body : List Char) (is : IsForm quote read c form)
      (more : Written quote read 0 text body) : Written quote read run (c :: text) (form ++ body)

theorem read_written (closes : Closes quote read) {run : Nat} {text body : List Char}
    (written : Written quote read run text body) (ends : rest.head? ≠ some quote) (done : List Char) :
    read done (body ++ List.replicate 3 quote ++ rest) = some (done.reverse ++ text, rest) := by
  induction written generalizing done with
  | nil => simpa using closes.close 0 (by decide) done rest ends
  | quote run text body few more ih =>
      -- A quote closes nothing unless two more follow it, which happens only at the end of the body.
      have apart (after : ∀ tail, body ++ List.replicate 3 quote ++ rest ≠ quote :: quote :: tail) :
          read done (quote :: body ++ List.replicate 3 quote ++ rest) = some (done.reverse ++ quote :: text, rest) := by
        rw [List.cons_append, List.cons_append, closes.single _ _ after, ih]
        simp
      cases more with
      | nil => exact closes.close 1 (by decide) done rest ends
      | quote _ text body few more =>
          cases more with
          | nil => exact closes.close 2 (by decide) done rest ends
          | quote => omega
          | form _ c form _ _ is =>
              obtain ⟨first, others, rfl, other⟩ := is.head
              exact apart (by simp [other])
      | form _ c form _ _ is =>
          obtain ⟨first, others, rfl, other⟩ := is.head
          exact apart (by simp [other])
  | form run c form text body is more ih =>
      rw [List.append_assoc, List.append_assoc, is.takes, ← List.append_assoc, ih]
      simp

theorem basic_lines_closes : Closes '"' (basicLines · false) where
  close count few done rest ends := by
    match count, few with
    | 0, _ =>
        change basicLines done false ('"' :: '"' :: '"' :: rest) = _
        rw [basicLines]
        · simp
        all_goals rintro tail rfl; simp at ends
    | 1, _ =>
        change basicLines done false ('"' :: '"' :: '"' :: '"' :: rest) = _
        rw [basicLines]
        · simp
        · rintro tail rfl
          simp at ends
    | 2, _ =>
        change some (('"' :: '"' :: done).reverse, rest) = _
        simp
  single done more apart := by
    rw [basicLines]
    · rfl
    all_goals simp_all

theorem literal_lines_closes : Closes '\'' literalLines where
  close count few done rest ends := by
    match count, few with
    | 0, _ =>
        change literalLines done ('\'' :: '\'' :: '\'' :: rest) = _
        rw [literalLines]
        · simp
        all_goals rintro tail rfl; simp at ends
    | 1, _ =>
        change literalLines done ('\'' :: '\'' :: '\'' :: '\'' :: rest) = _
        rw [literalLines]
        · simp
        · rintro tail rfl
          simp at ends
    | 2, _ =>
        change some (('\'' :: '\'' :: done).reverse, rest) = _
        simp
  single done more apart := by
    rw [literalLines]
    · rfl
    all_goals simp_all

theorem basic_lines_char {c : Char} (letter : c ≠ '"') :
    basicLines done false (escapedChar true c ++ rest) = basicLines (c :: done) false rest := by
  by_cases named : isNamed c
  · rcases named_cases named with rfl | rfl | rfl | rfl | rfl | rfl <;> rfl
  · rw [escaped_char_other (by simpa using named)]
    by_cases needs : needsEscape c
    · obtain ⟨x, y, z, w, code, scalar⟩ := scalar_code needs
      rw [if_pos needs, code]
      simp [basicLines, scalar]
    · rw [if_neg needs]
      have plain := plain_of_unescaped (by simpa using needs)
      simp_all [basicLines, isNamed]

theorem basic_lines_form {c : Char} (letter : c ≠ '"') : IsForm '"' (basicLines · false) c (escapedChar true c) where
  head := by
    obtain ⟨first, others, form, escape | ⟨same, _⟩⟩ := escaped_char_head true c
    · exact ⟨first, others, form, by simp [escape]⟩
    · exact ⟨first, others, form, same ▸ letter⟩
  takes _ _ := basic_lines_char letter

theorem escaped_written (text : List Char) (run : Nat) :
    Written '"' (basicLines · false) run text (escapedText true run text) := by
  induction text generalizing run with
  | nil => exact .nil run
  | cons c text ih =>
      by_cases quote : c = '"'
      · subst quote
        by_cases few : run < 2
        · rw [escapedText, if_pos ⟨rfl, few⟩]
          exact .quote run text _ few (ih (run + 1))
        · rw [escapedText, if_neg (by simp [few])]
          exact .form run '"' ['\\', '"'] text _ ⟨⟨_, _, rfl, by decide⟩, fun _ _ => rfl⟩ (ih 0)
      · rw [escapedText]
        · exact .form run c _ text _ (basic_lines_form quote) (ih 0)
        · exact quote

theorem literal_lines_form {c : Char} (letter : c ≠ '\'') (plain : c = '\n' ∨ isPlain c) :
    IsForm '\'' literalLines c [c] where
  head := ⟨_, _, rfl, letter⟩
  takes done rest := by
    have inside : c ≠ '\r' := by
      rintro rfl
      simp [isPlain] at plain
    simp_all [literalLines]

end Lines

def countRun (c : Char) (state : Nat × Nat) (d : Char) : Nat × Nat :=
  let run := if d = c then state.2 + 1 else 0
  (max state.1 run, run)

theorem longest_run_eq (c : Char) (text : List Char) : longestRun c text = (text.foldl (countRun c) (0, 0)).1 :=
  rfl

theorem replicate_prefix_le {c : Char} {m n : Nat} (fewer : m ≤ n) : List.replicate m c <+: List.replicate n c := by
  rw [← Nat.add_sub_cancel' fewer, List.replicate_add]
  exact List.prefix_append _ _

theorem replicate_prefix_cons (n : Nat) (c : Char) (text : List Char) :
    List.replicate n c <+: c :: text ↔ List.replicate (n - 1) c <+: text := by
  cases n <;> simp [List.replicate_succ]

-- The run that goes on may be the start of a longer one.
theorem le_longest_iff {n longest run : Nat} (inside : run ≤ longest) (c : Char) (text : List Char) :
    n ≤ (text.foldl (countRun c) (longest, run)).1 ↔
      n ≤ longest ∨ List.replicate (n - run) c <+: text ∨ List.replicate n c <:+: text := by
  induction text generalizing longest run with
  | nil =>
      simp only [List.foldl_nil, List.prefix_nil, List.infix_nil, List.replicate_eq_nil_iff]
      omega
  | cons d text ih =>
      rw [List.foldl_cons, List.infix_cons_iff]
      by_cases same : d = c
      · subst same
        have next : countRun d (longest, run) d = (max longest (run + 1), run + 1) := by simp [countRun]
        have begins : List.replicate (n - 1) d <+: text → List.replicate (n - (run + 1)) d <+: text :=
          (replicate_prefix_le (by omega)).trans
        have done : n ≤ run + 1 → List.replicate (n - (run + 1)) d <+: text := by
          intro few
          simp [Nat.sub_eq_zero_of_le few]
        rw [next, ih (Nat.le_max_right _ _), replicate_prefix_cons, replicate_prefix_cons, Nat.sub_sub, le_max_iff]
        tauto
      · have next : countRun c (longest, run) d = (longest, 0) := by simp [countRun, same]
        have stops (k : Nat) : List.replicate k c <+: d :: text ↔ k = 0 := by
          cases k <;> simp [List.replicate_succ, Ne.symm same]
        have begins : List.replicate n c <+: text → List.replicate n c <:+: text := List.IsPrefix.isInfix
        have within : n - run = 0 ∨ n = 0 → n ≤ longest := by omega
        rw [next, ih (Nat.zero_le _), stops, stops, Nat.sub_zero]
        tauto

theorem le_longest_run_iff {n : Nat} (c : Char) (text : List Char) :
    n ≤ longestRun c text ↔ List.replicate n c <:+: text := by
  have none : n ≤ 0 → List.replicate n c <:+: text := by
    intro none
    simp [Nat.le_zero.mp none]
  have begins : List.replicate (n - 0) c <+: text → List.replicate n c <:+: text := List.IsPrefix.isInfix
  rw [longest_run_eq, le_longest_iff (Nat.le_refl 0)]
  tauto

theorem not_mem_of_longest {c : Char} {text : List Char} (none : longestRun c text = 0) : c ∉ text := by
  intro listed
  have one : 1 ≤ longestRun c text := (le_longest_run_iff c text).mpr ((List.singleton_infix_iff c text).mpr listed)
  omega

theorem literal_written {text : List Char} (run : Nat) (plain : ∀ c ∈ text, c = '\n' ∨ isPlain c)
    (few : ¬List.replicate 3 '\'' <:+: List.replicate run '\'' ++ text) : Written '\'' literalLines run text text := by
  induction text generalizing run with
  | nil => exact .nil run
  | cons c text ih =>
      have rest : ∀ d ∈ text, d = '\n' ∨ isPlain d := fun d listed => plain d (List.mem_cons_of_mem _ listed)
      by_cases quote : c = '\''
      · subst quote
        have longer : List.replicate run '\'' ++ '\'' :: text = List.replicate (run + 1) '\'' ++ text := by
          simp [List.replicate_succ']
        rw [longer] at few
        have more : run < 2 := by
          by_contra many
          exact few ((replicate_prefix_le (by omega)).trans (List.prefix_append _ _)).isInfix
        exact .quote run text text more (ih (run + 1) rest few)
      · have form := literal_lines_form quote (plain c List.mem_cons_self)
        refine .form run c [c] text text form (ih 0 rest fun three => few ?_)
        exact three.trans ((List.suffix_cons c text).trans (List.suffix_append _ _)).isInfix

theorem literal_style {text : List Char} (style : QuoteStyle.ofText text = .literal) :
    (∀ c ∈ text, isPlain c) ∧ '\'' ∉ text := by
  unfold QuoteStyle.ofText at style
  dsimp only at style
  split_ifs at style with first second
  obtain ⟨control, single, oneLine⟩ := second
  refine ⟨fun c listed => ?_, not_mem_of_longest single⟩
  have unescaped : needsEscape c = false := by
    simp only [List.any_eq_true, not_exists, not_and, Bool.not_eq_true] at control
    exact control c listed
  refine (plain_of_unescaped unescaped).resolve_left ?_
  rintro rfl
  exact oneLine listed

theorem literal_lines_style {text : List Char} (style : QuoteStyle.ofText text = .literalLines) :
    (∀ c ∈ text, c = '\n' ∨ isPlain c) ∧ ¬List.replicate 3 '\'' <:+: text := by
  unfold QuoteStyle.ofText at style
  dsimp only at style
  split_ifs at style with first second third fourth
  obtain ⟨control, single⟩ := fourth
  refine ⟨fun c listed => plain_of_unescaped ?_, fun three => ?_⟩
  · simp only [List.any_eq_true, not_exists, not_and, Bool.not_eq_true] at control
    exact control c listed
  · have many := (le_longest_run_iff '\'' text).mpr three
    omega

theorem skip_nothing {text : List Char} (within : ∀ c ∈ text.head?, c ≠ '\n' ∧ c ≠ '\r') : skipNewline text = text := by
  cases text with
  | nil => rfl
  | cons c text =>
      obtain ⟨line, carriage⟩ := within c rfl
      simp [skipNewline, afterNewline?, line, carriage]

theorem skip_start {text body : List Char} (within : '\n' ∉ text → ∀ c ∈ body.head?, c ≠ '\n' ∧ c ≠ '\r') :
    skipNewline ((if '\n' ∈ text then ['\n'] else []) ++ body) = body := by
  by_cases lines : '\n' ∈ text
  · rw [if_pos lines]
    rfl
  · rw [if_neg lines]
    exact skip_nothing (within lines)

theorem escaped_head {text : List Char} (oneLine : '\n' ∉ text) (after : List Char) :
    ∀ c ∈ (escapedText true 0 text ++ '"' :: after).head?, c ≠ '\n' ∧ c ≠ '\r' := by
  cases text with
  | nil => simp [escapedText]
  | cons c text =>
      rw [List.mem_cons, not_or] at oneLine
      by_cases quote : c = '"'
      · simp [quote, escapedText]
      · obtain ⟨first, others, form, escape | ⟨same, carriage⟩⟩ := escaped_char_head true c
        · simp [escapedText, form, escape]
        · have line : first ≠ '\n' := same ▸ Ne.symm oneLine.1
          simp_all [escapedText]

theorem literal_head {text : List Char} (oneLine : '\n' ∉ text) (plain : ∀ c ∈ text, c = '\n' ∨ isPlain c)
    (after : List Char) : ∀ c ∈ (text ++ '\'' :: after).head?, c ≠ '\n' ∧ c ≠ '\r' := by
  cases text with
  | nil => simp
  | cons c text =>
      rintro _ ⟨⟩
      constructor
      · rintro rfl
        exact oneLine List.mem_cons_self
      · rintro rfl
        simpa [isPlain] using plain '\r' List.mem_cons_self

theorem any_line {quote : Char} {text : List Char} (opens : quote = '"' ∨ quote = '\'')
    (single : ∀ tail, text ≠ quote :: quote :: tail) : any? (quote :: text) = line? (quote :: text) := by
  rcases opens with rfl | rfl
  all_goals
    rw [any?]
    all_goals simp_all

theorem any_basic {text : List Char} (ends : Ends rest) :
    any? ('"' :: (escapedText false 0 text ++ '"' :: rest)) = some (text, rest) := by
  have single : ∀ tail, escapedText false 0 text ++ '"' :: rest ≠ '"' :: '"' :: tail := by
    cases text with
    | nil =>
        intro tail same
        have next := ends '"'
        simp_all [escapedText]
    | cons c text =>
        by_cases quote : c = '"'
        · simp [quote, escapedText]
        · obtain ⟨first, others, form, escape | ⟨same, _⟩⟩ := escaped_char_head false c <;> simp_all [escapedText]
  rw [any_line (.inl rfl) single, line?, basic_text]
  rfl

theorem any_literal {text : List Char} (plain : ∀ c ∈ text, isPlain c) (unquoted : '\'' ∉ text) (ends : Ends rest) :
    any? ('\'' :: (text ++ '\'' :: rest)) = some (text, rest) := by
  have single : ∀ tail, text ++ '\'' :: rest ≠ '\'' :: '\'' :: tail := by
    cases text with
    | nil =>
        intro tail same
        have next := ends '\''
        simp_all
    | cons c text =>
        rw [List.mem_cons, not_or] at unquoted
        simp [Ne.symm unquoted.1]
  rw [any_line (.inr rfl) single, line?, literal_text unquoted plain]
  rfl

theorem any_basic_lines (text : List Char) (ends : rest.head? ≠ some '"') :
    any? ('"' :: '"' :: '"' :: ((if '\n' ∈ text then ['\n'] else []) ++
      (escapedText true 0 text ++ '"' :: '"' :: '"' :: rest))) = some (text, rest) := by
  have read := read_written basic_lines_closes (escaped_written text 0) ends []
  rw [any?, skip_start fun oneLine => escaped_head oneLine ('"' :: '"' :: rest)]
  simpa [List.replicate] using read

theorem any_literal_lines {text : List Char} (plain : ∀ c ∈ text, c = '\n' ∨ isPlain c)
    (few : ¬List.replicate 3 '\'' <:+: text) (ends : rest.head? ≠ some '\'') :
    any? ('\'' :: '\'' :: '\'' :: ((if '\n' ∈ text then ['\n'] else []) ++
      (text ++ '\'' :: '\'' :: '\'' :: rest))) = some (text, rest) := by
  have read := read_written literal_lines_closes (literal_written 0 plain few) ends []
  rw [any?, skip_start fun oneLine => literal_head oneLine plain ('\'' :: '\'' :: rest)]
  simpa [List.replicate] using read

theorem Ends.apart {quote : Char} (ends : Ends rest) (stops : quote = '"' ∨ quote = '\'') :
    rest.head? ≠ some quote := by
  intro next
  obtain ⟨double, single⟩ := ends quote next
  exact stops.elim double single

theorem any_quote_text (text : List Char) (ends : Ends rest) : any? (quoteText text ++ rest) = some (text, rest) := by
  cases style : QuoteStyle.ofText text with
  | basic =>
      simpa [quoteText, style, QuoteStyle.delimiter, QuoteStyle.hasLines, QuoteStyle.hasEscapes] using any_basic ends
  | literal =>
      obtain ⟨plain, unquoted⟩ := literal_style style
      simpa [quoteText, style, QuoteStyle.delimiter, QuoteStyle.hasLines, QuoteStyle.hasEscapes] using
        any_literal plain unquoted ends
  | basicLines =>
      simpa [quoteText, style, QuoteStyle.delimiter, QuoteStyle.hasLines, QuoteStyle.hasEscapes] using
        any_basic_lines text (ends.apart (.inl rfl))
  | literalLines =>
      obtain ⟨plain, few⟩ := literal_lines_style style
      simpa [quoteText, style, QuoteStyle.delimiter, QuoteStyle.hasLines, QuoteStyle.hasEscapes] using
        any_literal_lines plain few (ends.apart (.inr rfl))

theorem quote_text_head (text : List Char) : ∃ c others, quoteText text = c :: others ∧ (c = '"' ∨ c = '\'') := by
  cases style : QuoteStyle.ofText text with
  | basic | basicLines => exact ⟨'"', _, by rw [quoteText, style]; rfl, .inl rfl⟩
  | literal | literalLines => exact ⟨'\'', _, by rw [quoteText, style]; rfl, .inr rfl⟩

end PoolQuote.Toml.Quoted
