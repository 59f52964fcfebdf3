import PoolQuote.Configuration.File
import PoolQuote.Proofs.KeyText
import PoolQuote.Proofs.TomlLine

/-!
A configuration that is written to a file is read back from it. The lines of the file fill one table after another:
a header leads to its table, and the lines under it add their pairs there.
-/

set_option autoImplicit false

namespace PoolQuote

namespace Toml

variable {steps : List String} {around : Entries → Entries} {before : Entries} {name : String}

theorem put_last (fresh : before.lookup name = none) (old value : Toml) :
    Entries.put (before ++ [(name, old)]) name value = before ++ [(name, value)] := by
  have found : ((before ++ [(name, old)]).lookup name).isSome := by simp [List.lookup_append, fresh]
  rw [List.lookup_eq_none_iff] at fresh
  rw [Entries.put, if_pos found, List.map_append]
  refine congrArg₂ (· ++ ·) ((List.map_congr_left fun entry listed => ?_).trans (List.map_id before)) ?_
  · have other : entry.1 ≠ name := by
      rintro rfl
      simpa using fresh entry listed
    simp [other]
  · simp

-- Steps lead to a table of a document whose other entries stay as they are.
def LeadsTo (steps : List String) (around : Entries → Entries) : Prop :=
  ∀ act inner, (around inner).change act steps = (act inner).map around

theorem leads_root : LeadsTo [] fun inner => inner :=
  fun act inner => by simp [Entries.change]

theorem LeadsTo.under (leads : LeadsTo steps around) (before : Entries) (name : String)
    (fresh : before.lookup name = none) :
    LeadsTo (name :: steps) fun inner => before ++ [(name, .table .header (around inner))] := by
  intro act inner
  have found : (before ++ [(name, Toml.table .header (around inner))]).lookup name =
      some (.table .header (around inner)) := by
    simp [List.lookup_append, fresh]
  rw [Entries.change, found]
  simp only [leads act inner]
  cases act inner with
  | none => rfl
  | some inner => exact congrArg some (put_last fresh _ _)

theorem LeadsTo.reads_pair (leads : LeadsTo steps around) (inner : Entries) (name : String)
    (bare : Reader.IsBareName name) (fresh : inner.lookup name = none) {written : List Char} {value : Toml}
    (is : Reader.IsValue written value) :
    Document.Reads ⟨around inner, steps⟩ (Configuration.pairLine name written)
      ⟨around (inner ++ [(name, value)]), steps⟩ := by
  have entered : (around inner).change (fun entries => entries.enter value [] name) steps =
      some (around (inner ++ [(name, value)])) := by
    rw [leads, Entries.enter, fresh]
    rfl
  have line : Configuration.pairLine name written = name.toList ++ ' ' :: '=' :: ' ' :: written ++ ['\n'] := by
    simp [Configuration.pairLine]
  rw [line]
  exact Document.reads_pair ⟨around inner, steps⟩ bare is entered

theorem LeadsTo.reads_header (leads : LeadsTo steps around) (opened : List String) (inner : Entries) (name : String)
    (bare : ∀ part ∈ steps ++ [name], Reader.IsBareName part) (deep : steps.length < Reader.depthLimit)
    {title : String} (same : title.toList = Reader.dotted (steps ++ [name])) (fresh : inner.lookup name = none) :
    Document.Reads ⟨around inner, opened⟩ (Configuration.headerLine title)
      ⟨around (inner ++ [(name, .table .header [])]), steps ++ [name]⟩ := by
  have change : (around inner).change (Entries.openTable name) steps =
      some (around (inner ++ [(name, .table .header [])])) := by
    rw [leads, Entries.openTable, fresh]
    rfl
  have line : Configuration.headerLine title =
      ['\n'] ++ ('[' :: Reader.dotted (steps ++ [name]) ++ [']'] ++ ['\n']) := by
    simp [Configuration.headerLine, same]
  rw [line]
  exact Document.reads_empty.trans (Document.reads_header ⟨around inner, opened⟩ bare deep change)

end Toml

namespace Configuration

open Toml

def percentageEntries (p : Percentage) : Entries :=
  [("numerator", .integer p.numerator.toNat), ("denominator", .integer p.denominator.toNat)]

def devFeeEntries (terms : DevFeeTerms) : Entries :=
  [("wallet", .string terms.wallet.text), ("percentage", .table .header (percentageEntries terms.percentage))]

def textEntries (config : Configuration) : Entries :=
  [("program_id", .string config.program.text), ("log_filter", .string config.logFilter)]

def entries (config : Configuration) : Entries :=
  config.textEntries ++ [("default_slippage", .table .header (percentageEntries config.slippage))] ++
    config.devFee.elim [] fun terms => [("dev_fee", .table .header (devFeeEntries terms))]

theorem reads_percentage {steps : List String} {around : Entries → Entries} (leads : LeadsTo steps around)
    {p : Percentage} (writable : IsWritable p) :
    Document.Reads ⟨around [], steps⟩ (percentageLines p) ⟨around (percentageEntries p), steps⟩ :=
  (leads.reads_pair [] "numerator" (by decide) rfl (Reader.is_value_numeral writable.1)).trans
    (leads.reads_pair _ "denominator" (by decide) rfl (Reader.is_value_numeral writable.2))

theorem reads_dev_fee (before : Entries) (opened : List String) (fresh : before.lookup "dev_fee" = none)
    {terms : DevFeeTerms} (writable : IsWritable terms.percentage) :
    Document.Reads ⟨before, opened⟩ (devFeeLines terms)
      ⟨before ++ [("dev_fee", .table .header (devFeeEntries terms))], ["dev_fee", "percentage"]⟩ := by
  let wallet : Entries := [("wallet", .string terms.wallet.text)]
  have table := leads_root.under before "dev_fee" fresh
  have share := (leads_root.under wallet "percentage" rfl).under before "dev_fee" fresh
  have openTable := leads_root.reads_header opened before "dev_fee" (by decide) (by decide) rfl fresh
  have fillTable := table.reads_pair [] "wallet" (by decide) rfl (Reader.is_value_text terms.wallet.text)
  have title : "dev_fee.percentage".toList = Reader.dotted ["dev_fee", "percentage"] := by decide
  have openShare := table.reads_header ["dev_fee"] wallet "percentage" (by decide) (by decide) title rfl
  exact ((openTable.trans fillTable).trans openShare).trans (reads_percentage share writable)

theorem reads_lines {config : Configuration} (slippage : IsWritable config.slippage)
    (devFee : ∀ terms ∈ config.devFee, IsWritable terms.percentage) :
    ∃ header, Document.empty.Reads config.lines ⟨config.entries, header⟩ := by
  have program : Document.empty.Reads _ _ :=
    leads_root.reads_pair [] "program_id" (by decide) rfl (Reader.is_value_text config.program.text)
  have logFilter := leads_root.reads_pair [("program_id", .string config.program.text)] "log_filter" (by decide) rfl
    (Reader.is_value_text config.logFilter)
  have openTable := leads_root.reads_header [] config.textEntries "default_slippage" (by decide) (by decide) rfl rfl
  have table := leads_root.under config.textEntries "default_slippage" rfl
  have required := ((program.trans logFilter).trans openTable).trans (reads_percentage table slippage)
  cases fee : config.devFee with
  | none => exact ⟨_, by simpa only [lines, entries, fee, Option.elim, List.append_nil] using required⟩
  | some terms =>
      have whole := required.trans (reads_dev_fee _ _ rfl (devFee terms fee))
      exact ⟨_, by simpa only [lines, entries, fee, Option.elim] using whole⟩

theorem parse_lines {config : Configuration} (slippage : IsWritable config.slippage)
    (devFee : ∀ terms ∈ config.devFee, IsWritable terms.percentage) :
    Toml.parse (String.ofList config.lines) = some config.entries := by
  obtain ⟨header, reads⟩ := reads_lines slippage devFee
  exact parse_of_reads (by simp [lines, pairLine]) reads

theorem to_word_word (w : BitVec 64) : (Toml.integer w.toNat).toWord? = some w := by
  have held : 0 ≤ (w.toNat : Int) ∧ (w.toNat : Int) < wordCount 64 :=
    ⟨Int.natCast_nonneg _, Int.ofNat_lt.mpr w.isLt⟩
  simp [toWord?, unsignedOfInt?, held]

theorem to_percentage_of_fields {value numerator denominator : Toml} {p : Percentage}
    (fields : value.fields ["numerator", "denominator"] = some [some numerator, some denominator])
    (first : numerator.toWord? = some p.numerator) (second : denominator.toWord? = some p.denominator) :
    value.toPercentage? = some p := by
  simp [toPercentage?, fields, first, second]

theorem to_percentage_entries (p : Percentage) : (Toml.table .header (percentageEntries p)).toPercentage? = some p :=
  to_percentage_of_fields rfl (to_word_word p.numerator) (to_word_word p.denominator)

theorem to_key_text (key : Key) : (Toml.string key.text).toKey? = some key := by
  simp [toKey?, toText?, Key.of_text_text]

theorem to_dev_fee_entries (terms : DevFeeTerms) :
    (Toml.table .header (devFeeEntries terms)).toDevFeeTerms? = some terms := by
  have wallet : (devFeeEntries terms).lookup "wallet" = some (.string terms.wallet.text) := rfl
  have percentage : (devFeeEntries terms).lookup "percentage" =
      some (.table .header (percentageEntries terms.percentage)) := rfl
  simp [toDevFeeTerms?, fields, wallet, percentage, to_key_text, to_percentage_entries]

theorem to_configuration_entries (config : Configuration) :
    (Toml.table .header config.entries).toConfiguration? = some config := by
  have program : config.entries.lookup "program_id" = some (.string config.program.text) := rfl
  have logFilter : config.entries.lookup "log_filter" = some (.string config.logFilter) := rfl
  have slippage : config.entries.lookup "default_slippage" =
      some (.table .header (percentageEntries config.slippage)) := rfl
  have devFee : config.entries.lookup "dev_fee" =
      config.devFee.map fun terms => .table .header (devFeeEntries terms) := by
    cases fee : config.devFee <;> simp only [entries, fee] <;> rfl
  simp only [toConfiguration?, fields, List.map, program, logFilter, slippage, devFee]
  obtain ⟨_, _, _, terms⟩ := config
  cases terms <;> simp [to_key_text, to_percentage_entries, to_dev_fee_entries, toText?]

-- Whether a text has 256 equal quotes in a row, one more than are counted.
def HasLongQuotes (text : String) : Prop :=
  List.replicate 256 '"' <:+: text.toList ∨ List.replicate 256 '\'' <:+: text.toList

theorem is_countable_iff (text : String) : IsCountable text.toList ↔ ¬HasLongQuotes text := by
  rw [HasLongQuotes, ← Quoted.le_longest_run_iff, ← Quoted.le_longest_run_iff, IsCountable, maxRun]
  omega

def numbers (config : Configuration) : List Nat :=
  (config.slippage :: config.devFee.toList.map DevFeeTerms.percentage).flatMap fun p =>
    [p.numerator.toNat, p.denominator.toNat]

theorem writable_iff (config : Configuration) :
    (IsWritable config.slippage ∧ ∀ terms ∈ config.devFee, IsWritable terms.percentage) ↔
      ∀ n ∈ config.numbers, (n : Int) ≤ maxInteger := by
  cases fee : config.devFee <;> simp [numbers, IsWritable, fee, and_assoc]

theorem of_written_text {config : Configuration} (writable : ∀ n ∈ config.numbers, (n : Int) ≤ maxInteger)
    (note : String) : ofTextWith note (String.ofList config.lines) = config.validate.map fun _ => config := by
  obtain ⟨slippage, devFee⟩ := config.writable_iff.mpr writable
  rw [ofTextWith, parse_lines slippage devFee, Option.bind_some, to_configuration_entries]
  change (config.validate >>= fun _ => pure config) = _
  cases config.validate <;> rfl

theorem of_text_valid {note text : String} {config : Configuration} (read : ofTextWith note text = .ok config) :
    config.validate = .ok () := by
  unfold ofTextWith at read
  split at read
  · cases read
  · rename_i found _
    change (found.validate >>= fun _ => pure found) = .ok config at read
    cases valid : found.validate with
    | error => simp [valid] at read
    | ok =>
        rw [valid] at read
        cases read
        exact valid

end Configuration

theorem DevFeeTerms.validate_error {terms : DevFeeTerms} {error : QuoteError} (fails : terms.validate = .error error) :
    ∃ field value wanted, error = .invalidConfig field value wanted := by
  unfold validate at fails
  split_ifs at fails
  · cases fails
    exact ⟨_, _, _, rfl⟩
  · cases fails
    exact ⟨_, _, _, rfl⟩

namespace Configuration

theorem validate_error {config : Configuration} {error : QuoteError} (fails : config.validate = .error error) :
    ∃ field value wanted, error = .invalidConfig field value wanted := by
  unfold validate at fails
  split_ifs at fails
  · cases fails
    exact ⟨_, _, _, rfl⟩
  · cases fails
    exact ⟨_, _, _, rfl⟩
  · cases fee : config.devFee with
    | none =>
        rw [fee] at fails
        cases fails
    | some terms =>
        rw [fee] at fails
        exact terms.validate_error fails

theorem save_writable (config : Configuration) (path : String) : config.save path (.ok ()) = config.toText := by
  unfold save
  cases config.toText <;> rfl

end Configuration

open PoolQuote.Configuration in
/-- What is saved comes back, or is refused when it is loaded; what cannot be saved is too large or too long a run of
quotes. -/
theorem saved_configuration_loads (config : Configuration) (path : String) :
    ((∃ n ∈ config.numbers, maxInteger < n) →
      ∃ report, config.save path (.ok ()) = .error (.error (.configSyntax report))) ∧
    ((∀ n ∈ config.numbers, n ≤ maxInteger) → ¬HasLongQuotes config.logFilter →
      ∃ text, config.save path (.ok ()) = .ok text ∧
        (config.validate = .ok () → load path (.ok text) = .ok config) ∧
        ∀ error, config.validate = .error error → load path (.ok text) = .error error ∧
          ∃ field value wanted, error = .invalidConfig field value wanted) ∧
    ((∀ n ∈ config.numbers, n ≤ maxInteger) → HasLongQuotes config.logFilter →
      config.save path (.ok ()) = .error .abort) ∧
    ∀ text loaded, ofText text = .ok loaded → loaded.validate = .ok () := by
  rw [save_writable]
  refine ⟨?_, fun writable few => ?_, fun writable many => ?_, fun text loaded => of_text_valid⟩
  · rintro ⟨n, listed, large⟩
    refine ⟨_, if_neg fun writable => ?_⟩
    exact absurd (config.writable_iff.mp writable n listed) (not_le.mpr large)
  · refine ⟨String.ofList config.lines, ?_, fun valid => ?_, fun error fails => ⟨?_, validate_error fails⟩⟩
    · rw [toText, if_pos (config.writable_iff.mpr writable), orAbort, if_pos ((is_countable_iff _).mpr few)]
    · rw [load, of_written_text writable, valid]
      rfl
    · rw [load, of_written_text writable, fails]
      rfl
  · have uncountable := fun countable => (is_countable_iff _).mp countable many
    rw [toText, if_pos (config.writable_iff.mpr writable), orAbort, if_neg uncountable]

theorem saved_configuration_loads_sample :
    let config : Configuration := { Configuration.default with
      logFilter := "info,\"quotes\"\n'debug'"
      devFee := some ⟨defaultProgram, .ofBasisPoints 25⟩ }
    ∃ text, config.save "config.toml" (.ok ()) = .ok text ∧
      Configuration.load "config.toml" (.ok text) = .ok config := by
  intro config
  obtain ⟨_, loads, _, _⟩ := saved_configuration_loads config "config.toml"
  obtain ⟨text, saved, loaded, _⟩ := loads (by decide) (by unfold Configuration.HasLongQuotes; decide)
  exact ⟨text, saved, loaded (by decide)⟩

/-- A log filter of 256 quotes is not written, although the configuration is valid and its numbers fit. -/
theorem long_quotes_abort :
    let config : Configuration := { Configuration.default with logFilter := .ofList (.replicate 256 '"') }
    config.validate = .ok () ∧ (∀ n ∈ config.numbers, n ≤ Configuration.maxInteger) ∧
      config.save "config.toml" (.ok ()) = .error .abort := by
  have long : Configuration.HasLongQuotes (.ofList (.replicate 256 '"')) := by
    refine .inl ?_
    rw [String.toList_ofList]
  have uncountable := fun countable => (Configuration.is_countable_iff _).mp countable long
  have visible : isBlankText (.ofList (.replicate 256 '"')) = false := by
    rw [isBlankText, String.toList_ofList, List.replicate_succ]
    rfl
  refine ⟨?_, by decide, ?_⟩
  · rw [Configuration.validate, if_neg (by decide), visible]
    rfl
  · rw [Configuration.save_writable, Configuration.toText, if_pos (by decide), orAbort, if_neg uncountable]

end PoolQuote
