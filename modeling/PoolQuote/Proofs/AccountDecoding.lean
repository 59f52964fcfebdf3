import PoolQuote.Proofs.AccountLayout

/-!
What data decodes to an account: its kind's discriminator, the bytes of the record and anything after them. All
other data is refused, and the refusal says whether the data is too small, of another kind or no record.
-/

set_option autoImplicit false

namespace PoolQuote

namespace AccountKind

theorem discriminator_length (kind : AccountKind) : kind.discriminator.length = discriminatorSize := by
  simp [discriminator, discriminatorSize]

theorem discriminators_differ : ([pool, tickArray, feeTier, poolsConfig] : List AccountKind).Pairwise
    fun kind other => kind.discriminator ≠ other.discriminator := by
  decide +kernel

theorem discriminator_injective : Function.Injective discriminator := by
  intro kind other same
  have differ := discriminators_differ
  simp only [List.pairwise_cons, List.mem_cons, List.not_mem_nil, or_false, forall_eq_or_imp, forall_eq] at differ
  cases kind <;> cases other <;> simp_all

end AccountKind

namespace Layout

variable {data rest : List UInt8}

theorem Reads.checked_ok_iff {ε α β : Type} {reader : Reader α} {bytes : α → List UInt8} (reads : Reads reader bytes)
    (wrap : α → β) {read : Except ε β} : (do return .ok (wrap (← reader)) : Reader (Except ε β)) data = .ok (read, rest) ↔
      ∃ record, read = .ok (wrap record) ∧ data = bytes record ++ rest := by
  simp only [reads.bind_ok_iff, pure_ok_iff]
  constructor
  · rintro ⟨record, _, layout, rfl, rfl⟩
    exact ⟨record, rfl, layout⟩
  · rintro ⟨record, rfl, layout⟩
    exact ⟨record, rest, layout, rfl, rfl⟩

theorem tick_array_ok_iff {read : Except QuoteError TickArray} :
    tickArray data = .ok (read, rest) ↔ ∃ array, read = .ok array ∧ array.ticks.length = ticksPerArray ∧
      data = tickArrayBytes array ++ rest := by
  simp only [tickArray, (signed_reads (w := 32) (n := 4) rfl).bind_ok_iff, key_reads.bind_ok_iff, bind_ok_iff,
    many_ok_iff tick_reads, pure_ok_iff, TickArray.ofTicks]
  constructor
  · rintro ⟨start, _, rfl, ticks, _, ⟨full, rfl⟩, pool, _, rfl, rfl, rfl⟩
    exact ⟨⟨start, ticks, pool⟩, if_pos full, full, by simp [tickArrayBytes]⟩
  · rintro ⟨array, rfl, full, rfl⟩
    exact ⟨array.start, _, by simp [tickArrayBytes], array.ticks, _, ⟨full, rfl⟩, array.pool, rest, rfl,
      if_pos full, rfl⟩

end Layout

namespace Account

variable {kind : AccountKind} {data rest : List UInt8} {account : Account}

-- A record as the ledger can hold it: a tick array has all of its ticks.
def IsWhole : Account → Prop
  | tickArray array => array.ticks.length = ticksPerArray
  | _ => True

theorem exists_of_kind {holds : Account → Prop} : (∃ account, account.kind = kind ∧ holds account) ↔
    match kind with
    | .pool => ∃ record, holds (pool record)
    | .tickArray => ∃ record, holds (tickArray record)
    | .feeTier => ∃ record, holds (feeTier record)
    | .poolsConfig => ∃ record, holds (poolsConfig record) := by
  constructor
  · rintro ⟨account, rfl, holds⟩
    cases account <;> exact ⟨_, holds⟩
  · intro found
    cases kind <;> obtain ⟨record, holds⟩ := found <;> exact ⟨_, rfl, holds⟩

theorem reader_ok_iff {read : Except QuoteError Account} : reader kind data = .ok (read, rest) ↔
    ∃ account : Account, account.kind = kind ∧ read = .ok account ∧ account.IsWhole ∧
      data = account.body ++ rest := by
  rw [exists_of_kind]
  cases kind with
  | pool => simpa only [reader, IsWhole, body, true_and] using Layout.pool_reads.checked_ok_iff pool
  | feeTier => simpa only [reader, IsWhole, body, true_and] using Layout.fee_tier_reads.checked_ok_iff feeTier
  | poolsConfig => simpa only [reader, IsWhole, body, true_and] using Layout.pools_config_reads.checked_ok_iff poolsConfig
  | tickArray =>
      simp only [reader, Layout.bind_ok_iff, Layout.tick_array_ok_iff, Layout.pure_ok_iff]
      constructor
      · rintro ⟨_, _, ⟨record, rfl, full, layout⟩, rfl, rfl⟩
        exact ⟨record, rfl, full, layout⟩
      · rintro ⟨record, rfl, full, layout⟩
        exact ⟨_, _, ⟨record, rfl, full, layout⟩, rfl, rfl⟩

theorem decode_body_cases (kind : AccountKind) (data : List UInt8) :
    (∃ account rest, account.kind = kind ∧ account.IsWhole ∧ data = account.body ++ rest ∧
      decodeBody kind data = .ok account) ∨
    ∃ fault, decodeBody kind data = .error (.accountBody kind.name fault) := by
  cases read : reader kind data with
  | error fault => exact .inr ⟨fault, by simp [decodeBody, read]⟩
  | ok result =>
      obtain ⟨found, rest⟩ := result
      obtain ⟨account, same, rfl, whole, layout⟩ := reader_ok_iff.mp read
      exact .inl ⟨account, rest, same, whole, layout, by simp [decodeBody, read]⟩

theorem decode_body_ok_iff : decodeBody kind data = .ok account ↔
    account.kind = kind ∧ account.IsWhole ∧ ∃ rest, data = account.body ++ rest := by
  constructor
  · intro ok
    rcases decode_body_cases kind data with ⟨found, rest, same, whole, layout, decoded⟩ | ⟨fault, failed⟩
    · cases Except.ok.inj (decoded.symm.trans ok)
      exact ⟨same, whole, rest, layout⟩
    · cases failed.symm.trans ok
  · rintro ⟨same, whole, rest, layout⟩
    have read := reader_ok_iff.mpr ⟨account, same, rfl, whole, layout⟩
    simp [decodeBody, read]

theorem decode_small (small : data.length < AccountKind.discriminatorSize) :
    decode kind data = .error (.accountTooSmall data.length) :=
  if_pos small

theorem decode_mismatch (enough : AccountKind.discriminatorSize ≤ data.length)
    (other : data.take AccountKind.discriminatorSize ≠ kind.discriminator) :
    decode kind data = .error (.accountMismatch kind.name) :=
  (if_neg (Nat.not_lt.mpr enough)).trans (if_pos other)

theorem enough_of_match (same : data.take AccountKind.discriminatorSize = kind.discriminator) :
    AccountKind.discriminatorSize ≤ data.length := by
  have length := congrArg List.length same
  rw [List.length_take, kind.discriminator_length] at length
  omega

theorem decode_match (same : data.take AccountKind.discriminatorSize = kind.discriminator) :
    decode kind data = decodeBody kind (data.drop AccountKind.discriminatorSize) :=
  (if_neg (Nat.not_lt.mpr (enough_of_match same))).trans (if_neg (not_not.mpr same))

theorem match_of_layout {back : List UInt8} (layout : data = kind.discriminator ++ back) :
    data.take AccountKind.discriminatorSize = kind.discriminator := by
  rw [layout, ← kind.discriminator_length, List.take_left]

theorem decode_ok_iff : decode kind data = .ok account ↔ account.kind = kind ∧ account.IsWhole ∧
    ∃ trailing, data = kind.discriminator ++ account.body ++ trailing := by
  simp only [List.append_assoc]
  by_cases same : data.take AccountKind.discriminatorSize = kind.discriminator
  · rw [decode_match same, decode_body_ok_iff]
    have split := List.take_append_drop AccountKind.discriminatorSize data
    rw [same] at split
    refine and_congr_right' (and_congr_right' (exists_congr fun trailing => ?_))
    constructor
    · intro rest
      rw [← split, rest]
    · intro layout
      rw [← split] at layout
      exact List.append_cancel_left layout
  · refine iff_of_false ?_ ?_
    · by_cases small : data.length < AccountKind.discriminatorSize
      · simp [decode_small small]
      · simp [decode_mismatch (Nat.not_lt.mp small) same]
    · rintro ⟨_, _, trailing, layout⟩
      exact same (match_of_layout layout)

theorem decode_cases (kind : AccountKind) (data : List UInt8) :
    (∃ account, decode kind data = .ok account) ∨
    data.length < AccountKind.discriminatorSize ∧ decode kind data = .error (.accountTooSmall data.length) ∨
    (AccountKind.discriminatorSize ≤ data.length ∧ data.take AccountKind.discriminatorSize ≠ kind.discriminator) ∧
      decode kind data = .error (.accountMismatch kind.name) ∨
    data.take AccountKind.discriminatorSize = kind.discriminator ∧
      ∃ fault, decode kind data = .error (.accountBody kind.name fault) := by
  by_cases small : data.length < AccountKind.discriminatorSize
  · exact .inr (.inl ⟨small, decode_small small⟩)
  · by_cases same : data.take AccountKind.discriminatorSize = kind.discriminator
    · rw [decode_match same]
      rcases decode_body_cases kind (data.drop AccountKind.discriminatorSize) with
        ⟨account, _, _, _, _, decoded⟩ | ⟨fault, failed⟩
      · exact .inl ⟨account, decoded⟩
      · exact .inr (.inr (.inr ⟨same, fault, failed⟩))
    · have enough := Nat.not_lt.mp small
      exact .inr (.inr (.inl ⟨⟨enough, same⟩, decode_mismatch enough same⟩))

theorem decode_ne_error {cause : QuoteError} (size : ∀ n, cause ≠ .accountTooSmall n)
    (other : ∀ name, cause ≠ .accountMismatch name) (body : ∀ name fault, cause ≠ .accountBody name fault) :
    decode kind data ≠ .error cause := by
  intro failed
  rcases decode_cases kind data with ⟨_, ok⟩ | ⟨_, found⟩ | ⟨_, found⟩ | ⟨_, _, found⟩
  · cases ok.symm.trans failed
  · exact size _ (Except.error.inj (failed.symm.trans found))
  · exact other _ (Except.error.inj (failed.symm.trans found))
  · exact body _ _ (Except.error.inj (failed.symm.trans found))

theorem decode_any_small (small : data.length < AccountKind.discriminatorSize) :
    decodeAny data = .error (.accountTooSmall data.length) :=
  if_pos small

theorem decode_any_match (same : data.take AccountKind.discriminatorSize = kind.discriminator) :
    decodeAny data = decode kind data := by
  have found : ([.pool, .tickArray, .feeTier, .poolsConfig] : List AccountKind).find?
      (fun other => data.take AccountKind.discriminatorSize = other.discriminator) = some kind := by
    simp only [same, AccountKind.discriminator_injective.eq_iff]
    cases kind <;> rfl
  rw [decode_match same, decodeAny, if_neg (Nat.not_lt.mpr (enough_of_match same))]
  simp only [found]

theorem decode_any_other (enough : AccountKind.discriminatorSize ≤ data.length)
    (other : ∀ kind : AccountKind, data.take AccountKind.discriminatorSize ≠ kind.discriminator) :
    decodeAny data = .error (.unknownAccount (data.take AccountKind.discriminatorSize)) := by
  rw [decodeAny, if_neg (Nat.not_lt.mpr enough)]
  simp [other]

theorem decode_any_cases (data : List UInt8) :
    (data.length < AccountKind.discriminatorSize ∧ decodeAny data = .error (.accountTooSmall data.length)) ∨
    (∃ kind : AccountKind, data.take AccountKind.discriminatorSize = kind.discriminator ∧
      decodeAny data = decode kind data) ∨
    (AccountKind.discriminatorSize ≤ data.length ∧
      (∀ kind : AccountKind, data.take AccountKind.discriminatorSize ≠ kind.discriminator) ∧
      decodeAny data = .error (.unknownAccount (data.take AccountKind.discriminatorSize))) := by
  by_cases small : data.length < AccountKind.discriminatorSize
  · exact .inl ⟨small, decode_any_small small⟩
  · by_cases known : ∃ kind : AccountKind, data.take AccountKind.discriminatorSize = kind.discriminator
    · obtain ⟨kind, same⟩ := known
      exact .inr (.inl ⟨kind, same, decode_any_match same⟩)
    · rw [not_exists] at known
      exact .inr (.inr ⟨Nat.not_lt.mp small, known, decode_any_other (Nat.not_lt.mp small) known⟩)

theorem match_of_decode (ok : decode kind data = .ok account) :
    data.take AccountKind.discriminatorSize = kind.discriminator := by
  obtain ⟨_, _, trailing, layout⟩ := decode_ok_iff.mp ok
  rw [List.append_assoc] at layout
  exact match_of_layout layout

theorem decode_any_ok_iff : decodeAny data = .ok account ∧ account.kind = kind ↔ decode kind data = .ok account := by
  constructor
  · rintro ⟨ok, rfl⟩
    rcases decode_any_cases data with ⟨_, failed⟩ | ⟨kind, _, same⟩ | ⟨_, _, failed⟩
    · cases failed.symm.trans ok
    · have decoded := same.symm.trans ok
      rw [(decode_ok_iff.mp decoded).1]
      exact decoded
    · cases failed.symm.trans ok
  · intro ok
    exact ⟨(decode_any_match (match_of_decode ok)).trans ok, (decode_ok_iff.mp ok).1⟩

theorem decode_any_unknown_iff {found : List UInt8} : decodeAny data = .error (.unknownAccount found) ↔
    found = data.take AccountKind.discriminatorSize ∧ AccountKind.discriminatorSize ≤ data.length ∧
      ∀ kind : AccountKind, data.take AccountKind.discriminatorSize ≠ kind.discriminator := by
  constructor
  · intro unknown
    rcases decode_any_cases data with ⟨_, failed⟩ | ⟨kind, _, same⟩ | ⟨enough, other, failed⟩
    · cases failed.symm.trans unknown
    · exact absurd (same.symm.trans unknown) (decode_ne_error (by simp) (by simp) (by simp))
    · cases failed.symm.trans unknown
      exact ⟨rfl, enough, other⟩
  · rintro ⟨rfl, enough, other⟩
    exact decode_any_other enough other

end Account

/-- What is accepted is exactly a whole record in its layout, with any bytes after it. -/
theorem decoding_accepts_layout (kind : AccountKind) (data : List UInt8) :
    (∀ account : Account, Account.decode kind data = .ok account ↔ account.kind = kind ∧ account.IsWhole ∧
      ∃ trailing, data = kind.discriminator ++ account.body ++ trailing) ∧
    ((∃ account, Account.decode kind data = .ok account) ∨
      data.length < 8 ∧ Account.decode kind data = .error (.accountTooSmall data.length) ∨
      (8 ≤ data.length ∧ data.take 8 ≠ kind.discriminator) ∧
        Account.decode kind data = .error (.accountMismatch kind.name) ∨
      data.take 8 = kind.discriminator ∧ ∃ fault, Account.decode kind data = .error (.accountBody kind.name fault)) ∧
    (∀ expected actual, Account.decode kind data ≠ .error (.invalidTickArrayLength expected actual)) ∧
    (∀ account : Account, Account.decodeAny data = .ok account ∧ account.kind = kind ↔
      Account.decode kind data = .ok account) ∧
    (data.take 8 = kind.discriminator → Account.decodeAny data = Account.decode kind data) ∧
    (data.length < 8 → Account.decodeAny data = .error (.accountTooSmall data.length)) ∧
    (∀ found, Account.decodeAny data = .error (.unknownAccount found) ↔
      found = data.take 8 ∧ 8 ≤ data.length ∧ ∀ other : AccountKind, data.take 8 ≠ other.discriminator) := by
  refine ⟨fun account => Account.decode_ok_iff, Account.decode_cases kind data, fun expected actual => ?_,
    fun account => Account.decode_any_ok_iff, Account.decode_any_match, Account.decode_any_small,
    fun found => Account.decode_any_unknown_iff⟩
  exact Account.decode_ne_error (by simp) (by simp) (by simp)

def Sample.tier : FeeTier :=
  ⟨⟨Vector.replicate 32 7⟩, 64, 3000⟩

def Sample.tierData : List UInt8 :=
  AccountKind.feeTier.discriminator ++ List.replicate 32 7 ++ [64, 0, 184, 11] ++ [9, 9]

theorem decoding_accepts_layout_sample :
    Account.decode .feeTier Sample.tierData = .ok (.feeTier Sample.tier) ∧
      Account.decodeAny Sample.tierData = .ok (.feeTier Sample.tier) ∧
      Account.decodeAny (AccountKind.feeTier.discriminator ++ [7, 7]) =
        Account.decode .feeTier (AccountKind.feeTier.discriminator ++ [7, 7]) ∧
      Account.decodeAny [7, 7] = .error (.accountTooSmall 2) := by
  have layout : Sample.tierData = AccountKind.feeTier.discriminator ++ (Account.feeTier Sample.tier).body ++ [9, 9] := by
    decide +kernel
  obtain ⟨accepts, _, _, any, _⟩ := decoding_accepts_layout .feeTier Sample.tierData
  obtain ⟨_, _, _, _, matching, _⟩ :=
    decoding_accepts_layout .feeTier (AccountKind.feeTier.discriminator ++ [7, 7])
  obtain ⟨_, _, _, _, _, small, _⟩ := decoding_accepts_layout .feeTier [7, 7]
  have decoded := (accepts (.feeTier Sample.tier)).mpr ⟨rfl, trivial, [9, 9], layout⟩
  exact ⟨decoded, ((any _).mpr decoded).1, matching (by decide +kernel), small (by decide)⟩

/-- Data of three bytes carries the discriminator of no kind, and yet its kind is not what is reported as unknown. -/
theorem short_data_is_not_unknown : (∀ kind : AccountKind, ([1, 2, 3] : List UInt8).take 8 ≠ kind.discriminator) ∧
    Account.decodeAny [1, 2, 3] = .error (.accountTooSmall 3) ∧
    ¬∃ found, Account.decodeAny [1, 2, 3] = .error (.unknownAccount found) := by
  refine ⟨?_, rfl, ?_⟩
  · intro kind same
    have length := congrArg List.length same
    rw [kind.discriminator_length] at length
    cases length
  · rintro ⟨found, unknown⟩
    cases unknown

end PoolQuote
