import PoolQuote.SwapStep
import PoolQuote.Proofs.NextPrice
import PoolQuote.Proofs.Outcome

/-!
What a step does whose target lies before it in the trade's direction. It never passes the target;
what is paid in is the ceiling of the exact amount and what is paid out the floor of it. For an input
it stops at the farthest price that the amount pays for after the fee. For an output it stops at the
nearest price that covers the amount, except that it takes the whole way if the floor allows.
-/

set_option autoImplicit false

namespace PoolQuote

namespace TokenDelta

theorem delta_fits {token : Token} {rounding : Rounding} {p q liquidity amount : Nat}
    (read : between token rounding p q liquidity = .ok (.fits amount)) : FitsBits 64 amount := by
  obtain ⟨same, fits⟩ := between_describes read
  rw [same]
  exact fits

theorem exact_fits {token : Token} {rounding : Rounding} {p q liquidity amount : Nat}
    (ok : exact token rounding p q liquidity = .ok amount) : FitsBits 64 amount := by
  obtain ⟨delta, read, ok⟩ := bind_ok ok
  cases delta with
  | fits n =>
      cases Except.ok.inj ok
      exact delta_fits read
  | tooLarge cause => cases ok

end TokenDelta

namespace Direction

def paid (d : Direction) (p q liquidity : Nat) : ℚ :=
  d.inputToken.amount p q liquidity

def gained (d : Direction) (p q liquidity : Nat) : ℚ :=
  d.inputToken.other.amount p q liquidity

-- What a trade pays in between two prices before the fee. It rounds up.
def due (d : Direction) (p q liquidity : Nat) : Nat :=
  ⌈d.paid p q liquidity⌉₊

-- What a trade is paid between two prices. It rounds down.
def won (d : Direction) (p q liquidity : Nat) : Nat :=
  ⌊d.gained p q liquidity⌋₊

theorem due_self (d : Direction) (p liquidity : Nat) : d.due p p liquidity = 0 := by
  rw [due, paid, Token.amount_self, Nat.ceil_zero]

theorem won_self (d : Direction) (p liquidity : Nat) : d.won p p liquidity = 0 := by
  rw [won, gained, Token.amount_self, Nat.floor_zero]

theorem won_eq_zero_of_due {d : Direction} {p q liquidity : Nat} (first : 0 < p) (second : 0 < q)
    (free : d.due p q liquidity = 0) : d.won p q liquidity = 0 := by
  by_cases stays : p = q
  · rw [stays, won_self]
  · have dry : liquidity = 0 := by
      by_contra liquid
      have positive := Token.amount_pos d.inputToken first second stays (Nat.pos_of_ne_zero liquid)
      exact absurd (Nat.ceil_eq_zero.mp free) (not_le.mpr positive)
    rw [won, gained, dry, Token.amount_no_liquidity, Nat.floor_zero]

theorem paid_nonneg (d : Direction) (p q liquidity : Nat) : 0 ≤ d.paid p q liquidity :=
  Token.amount_nonneg _ _ _ _

theorem gained_nonneg (d : Direction) (p q liquidity : Nat) : 0 ≤ d.gained p q liquidity :=
  Token.amount_nonneg _ _ _ _

theorem won_opposite (d : Direction) (p q liquidity : Nat) : d.opposite.won q p liquidity = ⌊d.paid p q liquidity⌋₊ := by
  rw [won, gained, paid, Token.amount_comm]
  cases d <;> rfl

theorem due_opposite (d : Direction) (p q liquidity : Nat) : d.opposite.due q p liquidity = ⌈d.gained p q liquidity⌉₊ := by
  rw [due, paid, gained, Token.amount_comm]
  cases d <;> rfl

theorem positive_of_leads {d : Direction} {p q target : Nat} (first : 0 < p) (last : 0 < target)
    (there : d.Leads p q) (further : d.Leads q target) : 0 < q := by
  cases d with
  | aToB => exact lt_of_lt_of_le last further
  | bToA => exact lt_of_lt_of_le first there

section Further

variable {d : Direction} {p q r : Nat} (liquidity : Nat) (first : 0 < p) (last : 0 < r) (there : d.Leads p q)
  (further : d.Leads q r)

include first last there further

theorem paid_add : d.paid p r liquidity = d.paid p q liquidity + d.paid q r liquidity :=
  Token.amount_add d.inputToken liquidity first last there further

theorem gained_add : d.gained p r liquidity = d.gained p q liquidity + d.gained q r liquidity :=
  Token.amount_add d.inputToken.other liquidity first last there further

theorem due_le_of_leads : d.due p q liquidity ≤ d.due p r liquidity :=
  Nat.ceil_mono (Token.amount_le_of_leads d.inputToken liquidity first last there further)

theorem won_le_of_leads : d.won p q liquidity ≤ d.won p r liquidity :=
  Nat.floor_mono (Token.amount_le_of_leads d.inputToken.other liquidity first last there further)

theorem due_le_add : d.due p r liquidity ≤ d.due p q liquidity + d.due q r liquidity := by
  rw [due, paid_add liquidity first last there further]
  exact Nat.ceil_add_le _ _

theorem won_add_le : d.won p q liquidity + d.won q r liquidity ≤ d.won p r liquidity := by
  refine (Nat.le_floor_iff (gained_nonneg _ _ _ _)).mpr ?_
  rw [Nat.cast_add, gained_add liquidity first last there further]
  exact add_le_add (Nat.floor_le (gained_nonneg _ _ _ _)) (Nat.floor_le (gained_nonneg _ _ _ _))

theorem due_add_won_back_le : d.due p q liquidity + d.opposite.won r q liquidity ≤ d.due p r liquidity := by
  rw [won_opposite, due, due, ← Nat.ceil_add_natCast (paid_nonneg _ _ _ _), paid_add liquidity first last there further]
  exact Nat.ceil_mono (add_le_add (le_refl _) (Nat.floor_le (paid_nonneg _ _ _ _)))

theorem won_le_add_due_back : d.won p r liquidity ≤ d.won p q liquidity + d.opposite.due r q liquidity := by
  rw [due_opposite, won, won, ← Nat.floor_add_natCast (gained_nonneg _ _ _ _),
    gained_add liquidity first last there further]
  exact Nat.floor_mono (add_le_add (le_refl _) (Nat.le_ceil _))

theorem won_lt_due_back (different : p ≠ q) (liquid : 0 < liquidity) :
    d.won q r liquidity < d.opposite.due r p liquidity := by
  have middle := positive_of_leads first last there further
  have positive : 0 < d.gained p q liquidity := Token.amount_pos d.inputToken.other first middle different liquid
  rw [due_opposite, Nat.lt_ceil, gained_add liquidity first last there further]
  exact lt_of_le_of_lt (Nat.floor_le (gained_nonneg _ _ _ _)) (lt_add_of_pos_left _ positive)

end Further

end Direction

namespace SwapStep

-- What an input amount pays for after the fee.
def net (feeRate amount : Nat) : Nat :=
  amount * (feeUnit - feeRate) / feeUnit

def feeOn (feeRate amount : Nat) : Nat :=
  Rounding.up.div (amount * feeRate) (feeUnit - feeRate)

def cost (feeRate amount : Nat) : Nat :=
  amount + feeOn feeRate amount

theorem fee_rate_lt (rate : BitVec 16) : rate.toNat < feeUnit :=
  lt_trans rate.isLt (by decide)

theorem le_cost (feeRate amount : Nat) : amount ≤ cost feeRate amount :=
  Nat.le_add_right amount _

theorem cost_zero (feeRate : Nat) : cost feeRate 0 = 0 := by
  simp [cost, feeOn, Rounding.div]

section Fee

variable {feeRate : Nat} (small : feeRate < feeUnit)

include small

theorem cost_le_iff (amount remaining : Nat) : cost feeRate amount ≤ remaining ↔ amount ≤ net feeRate remaining := by
  have unit : 0 < feeUnit - feeRate := by omega
  have fee := Rounding.up_div_le_iff (amount * feeRate) (feeUnit - feeRate) (remaining - amount) unit
  obtain ⟨share, total⟩ := Nat.exists_eq_add_of_lt small
  rw [net, Nat.le_div_iff_mul_le (by decide), cost, feeOn]
  by_cases within : amount ≤ remaining
  · obtain ⟨k, rfl⟩ := Nat.exists_eq_add_of_le within
    rw [Nat.add_sub_cancel_left] at fee
    rw [Nat.add_le_add_iff_left, fee]
    rw [total, show feeRate + share + 1 - feeRate = share + 1 by omega]
    constructor <;> intro le <;> nlinarith
  · constructor
    · omega
    · intro le
      have less : remaining < amount := not_le.mp within
      have narrow := Nat.mul_le_mul_left remaining (Nat.sub_le feeUnit feeRate)
      have strict := Nat.mul_lt_mul_of_pos_right less (show 0 < feeUnit by decide)
      omega

theorem cost_mono {m n : Nat} (ordered : m ≤ n) : cost feeRate m ≤ cost feeRate n := by
  have enough := (cost_le_iff small n (cost feeRate n)).mp (le_refl _)
  exact (cost_le_iff small m _).mpr (le_trans ordered enough)

theorem cost_add_le (m n : Nat) : cost feeRate (m + n) ≤ cost feeRate m + cost feeRate n := by
  have unit : 0 < feeUnit - feeRate := by omega
  have first := (Rounding.up_div_le_iff (m * feeRate) (feeUnit - feeRate) _ unit).mp (le_refl _)
  have second := (Rounding.up_div_le_iff (n * feeRate) (feeUnit - feeRate) _ unit).mp (le_refl _)
  have fee : feeOn feeRate (m + n) ≤ feeOn feeRate m + feeOn feeRate n := by
    refine (Rounding.up_div_le_iff _ _ _ unit).mpr ?_
    rw [Nat.add_mul, Nat.add_mul]
    exact Nat.add_le_add first second
  simp only [cost]
  omega

end Fee

theorem net_le (feeRate n : Nat) : net feeRate n ≤ n := by
  rw [net]
  exact Nat.div_le_of_le_mul (by rw [Nat.mul_comm feeUnit]; exact Nat.mul_le_mul_left n (Nat.sub_le _ _))

theorem narrow_ok {m n : Nat} (ok : narrow m = .ok n) : n = m := by
  unfold narrow at ok
  split at ok
  · exact (Except.ok.inj ok).symm
  · cases ok

theorem mul_div_ok {rounding : Rounding} {a b d n : Nat} (ok : mulDiv rounding a b d = .ok n) :
    n = rounding.div (a * b) d := by
  unfold mulDiv at ok
  split at ok
  · cases ok
  · simp only at ok
    split at ok
    · exact (Except.ok.inj ok).symm
    · cases ok

theorem available_input_ok {remaining feeRate n : Nat} (ok : available .input remaining feeRate = .ok n) :
    n = net feeRate remaining := by
  obtain ⟨m, product, read⟩ := bind_ok ok
  rw [narrow_ok read, mul_div_ok product]
  rfl

theorem proportional_fee_ok {amount feeRate n : Nat} (ok : proportionalFee amount feeRate = .ok n) :
    n = feeOn feeRate amount := by
  obtain ⟨m, product, read⟩ := bind_ok ok
  rw [narrow_ok read, mul_div_ok product]
  rfl

-- What an exact-input step of a trade in direction `d` from `p` toward `target` is.
structure IsInputStep (d : Direction) (remaining feeRate liquidity p target : Nat) (step : SwapStep) : Prop where
  forward : d.Leads p step.nextPrice
  short : d.Leads step.nextPrice target
  farthest : ∀ q, d.Leads p q → d.Leads q target →
    (d.Leads q step.nextPrice ↔ d.due p q liquidity ≤ net feeRate remaining)
  amountIn : step.amountIn = d.due p step.nextPrice liquidity
  amountOut : step.amountOut = d.won p step.nextPrice liquidity
  fee_whole : step.nextPrice = target → step.fee = feeOn feeRate step.amountIn
  fee_rest : step.nextPrice ≠ target → step.amountIn + step.fee = remaining

structure IsOutputStep (d : Direction) (remaining feeRate liquidity p target : Nat) (step : SwapStep) : Prop where
  forward : d.Leads p step.nextPrice
  short : d.Leads step.nextPrice target
  nearest : (d.won p target liquidity ≤ remaining ∧ step.nextPrice = target) ∨
    (remaining < d.won p target liquidity ∧ ∀ q, d.Leads p q → d.Leads q target →
      (d.Leads step.nextPrice q ↔ remaining ≤ d.won p q liquidity))
  amountIn : step.amountIn = d.due p step.nextPrice liquidity
  amountOut : step.amountOut = min (d.won p step.nextPrice liquidity) remaining
  fee : step.fee = feeOn feeRate step.amountIn

theorem liquid_of_lt_round {token : Token} (rounding : Rounding) {p q liquidity n : Nat}
    (less : n < rounding.round (token.amount p q liquidity)) : 0 < liquidity := by
  by_contra dry
  have none : liquidity = 0 := by omega
  rw [none, Token.amount_no_liquidity, Rounding.round_zero] at less
  exact Nat.not_lt_zero n less

theorem liquid_of_uncovered {token : Token} {rounding : Rounding} {p target liquidity amount : Nat} {whole : TokenDelta}
    (describes : whole.Describes (rounding.round (token.amount p target liquidity)))
    (uncovered : ¬ whole.IsAtMost amount) : 0 < liquidity := by
  have exceeds : 0 < rounding.round (token.amount p target liquidity) := by
    cases whole with
    | fits way =>
        rw [← describes.1]
        exact Nat.zero_lt_of_lt (not_le.mp uncovered)
    | tooLarge cause => exact lt_of_lt_of_le (by decide) (not_lt.mp describes)
  exact liquid_of_lt_round rounding exceeds

theorem fixed_eq_round {token : Token} {rounding : Rounding} {p next target liquidity fixed : Nat} {whole : TokenDelta}
    (describes : whole.Describes (rounding.round (token.amount p target liquidity)))
    (ok : (if next = target ∧ (!whole.isTooLarge) = true then pure whole.saturated
      else TokenDelta.exact token rounding p next liquidity) = Except.ok fixed) :
    fixed = rounding.round (token.amount p next liquidity) := by
  split at ok
  · rename_i reused
    obtain ⟨rfl, fits⟩ := reused
    cases whole with
    | fits amount =>
        have same : amount = fixed := Except.ok.inj ok
        rw [← same]
        exact describes.1
    | tooLarge cause => simp [TokenDelta.isTooLarge] at fits
  · exact TokenDelta.exact_eq_round ok

theorem fixed_fits {token : Token} {rounding : Rounding} {p next target liquidity fixed : Nat} {whole : TokenDelta}
    (between : TokenDelta.between token rounding p target liquidity = .ok whole)
    (ok : (if next = target ∧ (!whole.isTooLarge) = true then pure whole.saturated
      else TokenDelta.exact token rounding p next liquidity) = Except.ok fixed) : FitsBits 64 fixed := by
  split at ok
  · rename_i reused
    cases whole with
    | fits amount =>
        cases Except.ok.inj ok
        exact TokenDelta.delta_fits between
    | tooLarge cause => cases reused.2
  · exact TokenDelta.exact_fits ok

theorem input_price_ok {d : Direction} {amount liquidity p target next : Nat} {whole : TokenDelta}
    (start : 0 < p) (finish : 0 < target) (leads : d.Leads p target)
    (fits : whole.IsAtMost amount ↔ d.due p target liquidity ≤ amount)
    (ok : (if whole.IsAtMost amount then pure target
      else NextPrice.solve (d.token .input) .input p liquidity amount) = Except.ok next) :
    d.Leads p next ∧ d.Leads next target ∧
      ∀ q, d.Leads p q → d.Leads q target → (d.Leads q next ↔ d.due p q liquidity ≤ amount) := by
  by_cases covered : whole.IsAtMost amount
  · rw [if_pos covered] at ok
    have atTarget : target = next := Except.ok.inj ok
    subst atTarget
    refine ⟨leads, d.leads_refl target, fun q there further => ?_⟩
    have monotone := Direction.due_le_of_leads liquidity start finish there further
    exact ⟨fun _ => le_trans monotone (fits.mp covered), fun _ => further⟩
  · rw [if_neg covered] at ok
    have exceeds : amount < d.due p target liquidity := not_le.mp fun le => covered (fits.mpr le)
    have solved := (NextPrice.solve_input start (liquid_of_lt_round .up exceeds) ok).2
    rw [d.of_token_token .input] at solved
    have beyond : ¬ d.Leads target next := fun back =>
      absurd (Nat.ceil_le.mpr ((solved.2 target finish leads).mpr back)) (not_le.mpr exceeds)
    refine ⟨solved.1, (d.leads_total next target).resolve_right beyond, fun q there further => ?_⟩
    exact (solved.2 q (Direction.positive_of_leads start finish there further) there).symm.trans Nat.ceil_le.symm

theorem compute_input {d : Direction} {remaining feeRate liquidity p target : Nat} {step : SwapStep}
    (start : 0 < p) (finish : 0 < target) (leads : d.Leads p target) (small : remaining ≤ wordMax 64)
    (ok : compute d .input remaining feeRate liquidity p target = .ok step) :
    step.IsInputStep d remaining feeRate liquidity p target := by
  obtain ⟨whole, between, ok⟩ := bind_ok ok
  obtain ⟨amount, available, ok⟩ := bind_ok ok
  obtain ⟨next, reached, ok⟩ := bind_ite_ok ok
  obtain ⟨computed, exact, ok⟩ := bind_ok ok
  obtain ⟨fixed, reused, ok⟩ := bind_ite_ok ok
  dsimp only at ok
  have describes := TokenDelta.between_describes between
  have amountIn := fixed_eq_round describes reused
  have amountOut := TokenDelta.exact_eq_round exact
  rw [available_input_ok available] at reached
  have fits := TokenDelta.is_at_most_iff describes (le_trans (net_le feeRate remaining) small)
  obtain ⟨forward, short, farthest⟩ := input_price_ok start finish leads fits reached
  by_cases atTarget : next = target
  · rw [if_pos atTarget] at ok
    obtain ⟨fee, charged, ok⟩ := bind_ok ok
    have same : ⟨fixed, computed, next, fee⟩ = step := Except.ok.inj ok
    subst same
    exact ⟨forward, short, farthest, amountIn, amountOut, fun _ => proportional_fee_ok charged,
      fun away => absurd atTarget away⟩
  · rw [if_neg atTarget] at ok
    by_cases within : fixed ≤ remaining
    · rw [if_pos within] at ok
      have same : ⟨fixed, computed, next, remaining - fixed⟩ = step := Except.ok.inj ok
      subst same
      exact ⟨forward, short, farthest, amountIn, amountOut, fun there => absurd there atTarget,
        fun _ => Nat.add_sub_cancel' within⟩
    · rw [if_neg within] at ok
      cases ok

theorem output_price_ok {d : Direction} {amount liquidity p target next : Nat} {whole : TokenDelta}
    (start : 0 < p) (finish : 0 < target) (leads : d.Leads p target)
    (fits : whole.IsAtMost amount ↔ d.won p target liquidity ≤ amount)
    (ok : (if whole.IsAtMost amount then pure target
      else NextPrice.solve (d.token .output) .output p liquidity amount) = Except.ok next) :
    d.Leads p next ∧ d.Leads next target ∧ ((d.won p target liquidity ≤ amount ∧ next = target) ∨
      (amount < d.won p target liquidity ∧
        ∀ q, d.Leads p q → d.Leads q target → (d.Leads next q ↔ amount ≤ d.won p q liquidity))) := by
  by_cases covered : whole.IsAtMost amount
  · rw [if_pos covered] at ok
    have atTarget : target = next := Except.ok.inj ok
    subst atTarget
    exact ⟨leads, d.leads_refl target, .inl ⟨fits.mp covered, rfl⟩⟩
  · rw [if_neg covered] at ok
    have exceeds : amount < d.won p target liquidity := not_le.mp fun le => covered (fits.mpr le)
    have solved := (NextPrice.solve_output start (liquid_of_lt_round .down exceeds) ok).2
    rw [d.of_token_token .output] at solved
    have enough : (amount : ℚ) ≤ d.gained p target liquidity :=
      (Nat.le_floor_iff (d.gained_nonneg _ _ _)).mp (le_of_lt exceeds)
    refine ⟨solved.1, (solved.2 target finish leads).mp enough, .inr ⟨exceeds, fun q there further => ?_⟩⟩
    exact (solved.2 q (Direction.positive_of_leads start finish there further) there).symm.trans
      (Nat.le_floor_iff (d.gained_nonneg _ _ _)).symm

theorem compute_output {d : Direction} {remaining feeRate liquidity p target : Nat} {step : SwapStep}
    (start : 0 < p) (finish : 0 < target) (leads : d.Leads p target) (small : remaining ≤ wordMax 64)
    (ok : compute d .output remaining feeRate liquidity p target = .ok step) :
    step.IsOutputStep d remaining feeRate liquidity p target := by
  obtain ⟨whole, between, ok⟩ := bind_ok ok
  obtain ⟨amount, available, ok⟩ := bind_ok ok
  obtain ⟨next, reached, ok⟩ := bind_ite_ok ok
  obtain ⟨computed, exact, ok⟩ := bind_ok ok
  obtain ⟨fixed, reused, ok⟩ := bind_ite_ok ok
  obtain ⟨fee, charged, ok⟩ := bind_ok ok
  have describes := TokenDelta.between_describes between
  have fixedEq := fixed_eq_round describes reused
  have amountIn := TokenDelta.exact_eq_round exact
  have all : remaining = amount := Except.ok.inj available
  rw [← all] at reached
  obtain ⟨forward, short, nearest⟩ :=
    output_price_ok start finish leads (TokenDelta.is_at_most_iff describes small) reached
  have same : ⟨computed, min fixed remaining, next, fee⟩ = step := Except.ok.inj ok
  subst same
  have other : d.inputToken.other.other = d.inputToken := by cases d <;> rfl
  change computed = ⌈d.inputToken.other.other.amount p next liquidity⌉₊ at amountIn
  rw [other] at amountIn
  have amountOut : min fixed remaining = min (d.won p next liquidity) remaining := by
    rw [fixedEq]
    rfl
  exact ⟨forward, short, nearest, amountIn, amountOut, proportional_fee_ok charged⟩

end SwapStep

end PoolQuote
