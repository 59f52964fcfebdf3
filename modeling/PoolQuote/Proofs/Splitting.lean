import PoolQuote.Proofs.LegAmounts
import PoolQuote.Proofs.Lockstep

/-!
A swap in two parts is never better for the trader than one swap of the whole amount. The swap of the
whole amount is never behind the two parts, and what the parts round away at the price where the
first one stops, it keeps.
-/

set_option autoImplicit false

namespace PoolQuote

namespace Course

variable {c : Course}

theorem cost_due_le_add (c : Course) (liquidity : Nat) {p q r : Nat} (positive : 0 < p) (positive' : 0 < r)
    (leads : c.direction.Leads p q) (leads' : c.direction.Leads q r) :
    SwapStep.cost c.rate (c.direction.due p r liquidity) ≤
      SwapStep.cost c.rate (c.direction.due p q liquidity) + SwapStep.cost c.rate (c.direction.due q r liquidity) :=
  le_trans (SwapStep.cost_mono c.rate_lt (Direction.due_le_add liquidity positive positive' leads leads'))
    (SwapStep.cost_add_le c.rate_lt _ _)

-- The state `b` has gone on from `a`, and `a` can pay for the way to `b` and for all that `b` has left.
structure Affords (c : Course) (a b : SwapState) : Prop where
  precedes : c.Precedes a b
  enough : SwapStep.cost c.rate (c.direction.due a.price.value b.price.value a.liquidity) + b.remaining ≤ a.remaining

namespace Affords

theorem of_meets {a b : SwapState} (meets : a.Meets b) (less : b.remaining ≤ a.remaining) : c.Affords a b := by
  refine ⟨precedes_of_meets meets, ?_⟩
  rw [meets.price, Direction.due_self, SwapStep.cost_zero, Nat.zero_add]
  exact less

theorem done {a b : SwapState} (affords : c.Affords a b) (ready : c.Ready b) (done : c.IsDone a) :
    c.IsDone b ∧ c.direction.won a.price.value b.price.value a.liquidity = 0 := by
  have enough := affords.enough
  rcases done with spent | limit
  · have free := SwapStep.le_cost c.rate (c.direction.due a.price.value b.price.value a.liquidity)
    exact ⟨.inl (by omega), Direction.won_eq_zero_of_due a.price.value_pos b.price.value_pos (by omega)⟩
  · have there := affords.precedes.at_limit ready limit
    rw [limit, there, Direction.won_self]
    exact ⟨.inr there, rfl⟩

theorem leads_leg {b : SwapState} {leg : SwapLeg} (affords : c.Affords leg.before b) (input : c.side = .input)
    (step : c.IsMove leg) (ready : c.Ready b) : c.direction.Leads b.price.value leg.after.price.value := by
  have enough := affords.enough
  exact (step.input_farthest input affords.precedes.price (step.leads_target affords.precedes ready)).mpr (by omega)

section Legs

variable {legA legB : SwapLeg} (affords : c.Affords legA.before legB.before) (accepted : c.window.IsAccepted)
  (input : c.side = .input) (stepA : c.IsMove legA) (stepB : c.IsMove legB)

include affords accepted input stepA stepB

theorem leads_after : c.direction.Leads legB.after.price.value legA.after.price.value := by
  have precedes := affords.precedes
  have enough := affords.enough
  obtain ⟨forward, short⟩ := stepB.forward_short
  have paid := (stepB.input_farthest input forward short).mp (c.direction.leads_refl _)
  have through := c.cost_due_le_add legA.before.liquidity legA.before.price.value_pos legB.after.price.value_pos
    precedes.price forward
  rw [← precedes.liquidity] at paid
  rw [← stepA.same_stop stepB accepted precedes] at short
  exact (stepA.input_farthest input (Direction.leads_trans precedes.price forward) short).mpr (by omega)

theorem won_le : c.direction.won legA.before.price.value legB.before.price.value legA.before.liquidity +
    legB.step.used c.side.other ≤ legA.step.used c.side.other := by
  have forward := stepB.forward_short.1
  have first := legA.before.price.value_pos
  have gained := Direction.won_add_le legA.before.liquidity first legB.after.price.value_pos affords.precedes.price
    forward
  have more := Direction.won_le_of_leads legA.before.liquidity first legA.after.price.value_pos
    (Direction.leads_trans affords.precedes.price forward) (affords.leads_after accepted input stepA stepB)
  rw [stepA.input_counted input, stepB.input_counted input, ← affords.precedes.liquidity]
  exact le_trans gained more

variable (reached : legB.after.price.value = c.target legB.stop.index)

include reached

theorem same_price : legA.after.price = legB.after.price := by
  have further := affords.leads_after accepted input stepA stepB
  rw [← stepA.same_stop stepB accepted affords.precedes] at reached
  apply SqrtPrice.value_inj
  rw [reached] at further ⊢
  exact Direction.leads_antisymm stepA.forward_short.2 further

theorem spent_le : legA.before.remaining + legB.after.remaining ≤
    SwapStep.cost c.rate
      (c.direction.due legA.before.price.value legB.before.price.value legA.before.liquidity) +
      legB.before.remaining + legA.after.remaining := by
  have price := affords.same_price accepted input stepA stepB reached
  have wholeB := stepB.input_whole input reached
  have wholeA := stepA.input_whole input (by
    rw [price, reached, stepA.same_stop stepB accepted affords.precedes])
  have through := c.cost_due_le_add legA.before.liquidity legA.before.price.value_pos legB.after.price.value_pos
    affords.precedes.price stepB.forward_short.1
  rw [price] at wholeA
  rw [← affords.precedes.liquidity] at wholeB
  omega

end Legs

end Affords

-- The induction is on the legs of the swap that has gone on.
theorem input_behind (accepted : c.window.IsAccepted) (input : c.side = .input) {b lastB : SwapState}
    {legsB : List SwapLeg} (pathB : c.Path b legsB lastB) {a lastA : SwapState} {legsA : List SwapLeg}
    (pathA : c.Path a legsA lastA) (doneA : c.IsDone lastA) (ready : c.Ready b) (affords : c.Affords a b) :
    c.direction.won a.price.value b.price.value a.liquidity + c.counted legsB ≤ c.counted legsA := by
  induction pathB generalizing a legsA with
  | rest b =>
      cases pathA with
      | rest _ =>
          rw [(affords.done ready doneA).2]
          exact le_refl 0
      | move leg legs last step rest =>
          have more := Direction.won_le_of_leads leg.before.liquidity leg.before.price.value_pos leg.after.price.value_pos
            affords.precedes.price (affords.leads_leg input step ready)
          rw [counted_cons, step.input_counted input]
          exact le_trans more (Nat.le_add_right _ _)
  | move legB legs last stepB restB ih =>
      cases pathA with
      | rest _ => exact absurd (affords.done ready doneA).1 stepB.underWay
      | move legA legsA lastA stepA restA =>
          have more := affords.won_le accepted input stepA stepB
          have enough := affords.enough
          rw [counted_cons, counted_cons]
          by_cases reached : legB.after.price.value = c.target legB.stop.index
          · rcases arrives_or_limited reached with there | limit
            · have stop := stepA.same_stop stepB accepted affords.precedes
              have price := affords.same_price accepted input stepA stepB reached
              have spent := affords.spent_le accepted input stepA stepB reached
              have meets := stepA.meets_of_arrives stepB stop affords.precedes.liquidity price there
              have rest := ih restA stepB.ready_after (.of_meets meets (by omega))
              rw [price, Direction.won_self] at rest
              omega
            · have none := (restB.of_done (.inr limit)).1
              omega
          · have none := (restB.of_done (.inl (stepB.input_spent input reached))).1
            omega

theorem input_split (accepted : c.window.IsAccepted) (input : c.side = .input) {one last₁ two last₂ both last : SwapState}
    {legs₁ legs₂ legs : List SwapLeg} (path₁ : c.Path one legs₁ last₁) (path₂ : c.Path two legs₂ last₂)
    (path : c.Path both legs last) (done : c.IsDone last) (ready : c.Ready two) (start : both.Meets one)
    (goesOn : last₁.Meets two) (total : one.remaining + two.remaining ≤ both.remaining) :
    c.counted legs₁ + c.counted legs₂ ≤ c.counted legs := by
  induction path₁ generalizing both legs with
  | rest one =>
      have meets := start.trans goesOn
      have behind := input_behind accepted input path₂ path done ready (.of_meets meets (by omega))
      rw [meets.price, Direction.won_self] at behind
      exact behind
  | move leg₁ legs₁ last₁ step₁ rest₁ ih =>
      have affords : c.Affords both leg₁.before := .of_meets start (by omega)
      rw [counted_cons]
      by_cases reached : leg₁.after.price.value = c.target leg₁.stop.index
      · cases path with
        | rest _ => exact absurd (affords.done step₁.ready done).1 step₁.underWay
        | move leg legs last step rest =>
            have stop := step.same_stop step₁ accepted affords.precedes
            have price := affords.same_price accepted input step step₁ reached
            have spent := affords.spent_le accepted input step step₁ reached
            have won := affords.won_le accepted input step step₁
            rw [start.price, Direction.due_self, SwapStep.cost_zero] at spent
            have remaining := ih rest (step.meets_of_price step₁ stop start price) goesOn (by omega)
            rw [counted_cons]
            omega
      · obtain ⟨none, rfl⟩ := rest₁.of_done (.inl (step₁.input_spent input reached))
        obtain ⟨forward, short⟩ := step₁.forward_short
        have paid := (step₁.input_farthest input forward short).mp (c.direction.leads_refl _)
        rw [step₁.input_counted input]
        rw [← start.price, ← start.liquidity, goesOn.price] at paid ⊢
        have precedes := (step₁.precedes_short reached accepted).of_meets start goesOn
        have behind := input_behind accepted input path₂ path done ready ⟨precedes, by omega⟩
        omega

-- The state `b` has gone on from `a` and been paid what is owed for the way: `a` has at most that more to be paid.
structure Owes (c : Course) (a b : SwapState) (owed : Nat) : Prop where
  precedes : c.Precedes a b
  more : a.remaining ≤ b.remaining + owed
  covered : owed ≤ c.direction.won a.price.value b.price.value a.liquidity
  less : owed = 0 ∨ ∀ stop, c.window.IsNext a.tick stop →
    owed < c.direction.won a.price.value (c.target stop.index) a.liquidity

namespace Owes

theorem of_meets {a b : SwapState} (meets : a.Meets b) (more : a.remaining ≤ b.remaining) : c.Owes a b 0 :=
  ⟨precedes_of_meets meets, more, Nat.zero_le _, .inl rfl⟩

theorem leg_ends {b : SwapState} {leg : SwapLeg} {owed : Nat} (owes : c.Owes leg.before b owed)
    (output : c.side = .output) (step : c.IsMove leg) (ready : c.Ready b) (done : c.IsDone b) :
    c.direction.Leads leg.after.price.value b.price.value ∧ c.IsDone leg.after := by
  obtain ⟨precedes, more, covered, less⟩ := owes
  have target := step.leads_target precedes ready
  rcases done with spent | limit
  · have due : leg.before.remaining ≠ 0 := fun none => step.underWay (.inl none)
    have short : leg.before.remaining < c.most leg := by
      rcases less with none | less
      · omega
      · exact lt_of_le_of_lt (by omega) (less leg.stop step.next)
    exact ⟨step.output_leads output short precedes.price target (by omega), .inl (step.output_spent output short).2⟩
  · rw [limit] at target ⊢
    refine ⟨step.leads_limit, ?_⟩
    rcases Nat.lt_or_ge leg.before.remaining (c.most leg) with short | within
    · exact .inl (step.output_spent output short).2
    · refine .inr (SqrtPrice.value_inj (Direction.leads_antisymm step.leads_limit ?_))
      rw [(step.output_whole output within).1]
      exact target

section Legs

variable {legA legB : SwapLeg} {owed : Nat} (owes : c.Owes legA.before legB.before owed) (output : c.side = .output)
  (stepA : c.IsMove legA) (stepB : c.IsMove legB)

include owes output stepA stepB

theorem paid_le (leads : c.direction.Leads legA.after.price.value legB.after.price.value) :
    legA.step.used c.side.other ≤ SwapStep.cost c.rate
      (c.direction.due legA.before.price.value legB.before.price.value legA.before.liquidity) +
      legB.step.used c.side.other := by
  have first := legA.before.price.value_pos
  have last := legB.after.price.value_pos
  have through := c.cost_due_le_add legA.before.liquidity first last owes.precedes.price stepB.forward_short.1
  have more := Direction.due_le_of_leads legA.before.liquidity first last stepA.forward_short.1 leads
  rw [stepA.output_counted output, stepB.output_counted output, ← owes.precedes.liquidity]
  exact le_trans (SwapStep.cost_mono c.rate_lt more) through

variable (accepted : c.window.IsAccepted)

include accepted

theorem leads_after (less : legA.before.remaining < c.most legA) :
    c.direction.Leads legA.after.price.value legB.after.price.value := by
  obtain ⟨precedes, more, covered, _⟩ := owes
  have stop := stepA.same_stop stepB accepted precedes
  rcases Nat.lt_or_ge legB.before.remaining (c.most legB) with lessB | withinB
  · obtain ⟨forward, short⟩ := stepB.forward_short
    have enough := (stepB.output_spent output lessB).1
    have gained := Direction.won_add_le legA.before.liquidity legA.before.price.value_pos legB.after.price.value_pos
      precedes.price forward
    rw [← precedes.liquidity] at enough
    rw [← stop] at short
    exact stepA.output_leads output less (Direction.leads_trans precedes.price forward) short (by omega)
  · rw [(stepB.output_whole output withinB).1, ← stop]
    exact stepA.forward_short.2

theorem whole (within : c.most legA ≤ legA.before.remaining) : legA.after.price = legB.after.price ∧
    legB.after.price.value = c.target legB.stop.index ∧ legA.after.remaining ≤ legB.after.remaining := by
  obtain ⟨precedes, more, covered, _⟩ := owes
  have stop := stepA.same_stop stepB accepted precedes
  have target := stepA.leads_target precedes stepB.ready
  have split : c.direction.won legA.before.price.value legB.before.price.value legA.before.liquidity + c.most legB ≤
      c.most legA := by
    rw [most, most, ← stop, ← precedes.liquidity]
    exact Direction.won_add_le legA.before.liquidity legA.before.price.value_pos stepA.before_pos.2 precedes.price target
  obtain ⟨reachedA, wholeA⟩ := stepA.output_whole output within
  obtain ⟨reachedB, wholeB⟩ := stepB.output_whole output (by omega)
  exact ⟨SqrtPrice.value_inj (by rw [reachedA, reachedB, stop]), reachedB, by omega⟩

end Legs

end Owes

-- The swap that is owed does not pay more in than the way to `b` costs and what `b` pays in. The induction
-- is on the legs of `b`.
theorem output_behind (accepted : c.window.IsAccepted) (output : c.side = .output) {b lastB : SwapState}
    {legsB : List SwapLeg} (pathB : c.Path b legsB lastB) (doneB : c.IsDone lastB) {a lastA : SwapState}
    {legsA : List SwapLeg} (pathA : c.Path a legsA lastA) (ready : c.Ready b) {owed : Nat} (owes : c.Owes a b owed) :
    c.counted legsA ≤ SwapStep.cost c.rate (c.direction.due a.price.value b.price.value a.liquidity) +
      c.counted legsB := by
  induction pathB generalizing a legsA owed with
  | rest b =>
      cases pathA with
      | rest _ => exact Nat.zero_le _
      | move leg legs last step rest =>
          obtain ⟨leads, done⟩ := owes.leg_ends output step ready doneB
          have more := Direction.due_le_of_leads leg.before.liquidity leg.before.price.value_pos b.price.value_pos
            step.forward_short.1 leads
          rw [counted_cons, step.output_counted output, (rest.of_done done).1]
          exact le_trans (SwapStep.cost_mono c.rate_lt more) (Nat.le_add_right _ _)
  | move legB legsB lastB stepB restB ih =>
      cases pathA with
      | rest _ => exact Nat.zero_le _
      | move legA legsA lastA stepA restA =>
          rw [counted_cons, counted_cons]
          rcases Nat.lt_or_ge legA.before.remaining (c.most legA) with less | within
          · have paid := owes.paid_le output stepA stepB (owes.leads_after output stepA stepB accepted less)
            have none := (restA.of_done (.inl (stepA.output_spent output less).2)).1
            omega
          · obtain ⟨price, reached, left⟩ := owes.whole output stepA stepB accepted within
            have paid := owes.paid_le output stepA stepB (by
              rw [price]
              exact c.direction.leads_refl _)
            rcases arrives_or_limited reached with there | limit
            · have stop := stepA.same_stop stepB accepted owes.precedes
              have meets := stepA.meets_of_arrives stepB stop owes.precedes.liquidity price there
              have rest := ih doneB restA stepB.ready_after (.of_meets meets left)
              rw [price, Direction.due_self, SwapStep.cost_zero] at rest
              omega
            · have none := (restA.of_done (.inr (price.trans limit))).1
              omega

theorem output_beside (accepted : c.window.IsAccepted) (output : c.side = .output) {leg other : SwapLeg}
    {legs : List SwapLeg} {last : SwapState} (step : c.IsMove leg) (second : c.IsMove other)
    (rest : c.Path leg.after legs last) (meets : leg.before.Meets other.before)
    (reached : other.after.price.value = c.target other.stop.index) :
    c.counted (leg :: legs) ≤ other.step.used c.side.other ∨
      leg.after.Meets other.after ∧ leg.before.remaining = leg.after.remaining + c.most other ∧
        leg.step.used c.side.other = other.step.used c.side.other := by
  have stop := step.same_stop second accepted (precedes_of_meets meets)
  have same : c.most leg = c.most other := by rw [most, most, meets.price, meets.liquidity, stop]
  rw [← stop] at reached
  rw [second.output_counted output, ← meets.price, ← meets.liquidity, reached]
  rcases Nat.lt_or_ge leg.before.remaining (c.most leg) with less | within
  · obtain ⟨forward, short⟩ := step.forward_short
    refine .inl ?_
    rw [counted_cons, step.output_counted output, (rest.of_done (.inl (step.output_spent output less).2)).1]
    exact SwapStep.cost_mono c.rate_lt
      (Direction.due_le_of_leads leg.before.liquidity step.before_pos.1 step.before_pos.2 forward short)
  · obtain ⟨atTarget, whole⟩ := step.output_whole output within
    have price : leg.after.price = other.after.price := SqrtPrice.value_inj (atTarget.trans reached.symm)
    refine .inr ⟨step.meets_of_price second stop meets price, ?_, ?_⟩
    · rw [← same]
      exact whole
    · rw [step.output_counted output, atTarget]

theorem output_split (accepted : c.window.IsAccepted) (output : c.side = .output)
    {one last₁ two last₂ both last : SwapState} {legs₁ legs₂ legs : List SwapLeg} (path₁ : c.Path one legs₁ last₁)
    (done₁ : c.IsDone last₁) (path₂ : c.Path two legs₂ last₂) (done₂ : c.IsDone last₂) (path : c.Path both legs last)
    (ready : c.Ready two) (start : both.Meets one) (goesOn : last₁.Meets two)
    (total : both.remaining ≤ one.remaining + two.remaining) :
    c.counted legs ≤ c.counted legs₁ + c.counted legs₂ := by
  -- A second part that starts where a leg of the whole ends is followed from there.
  have follow : ∀ {a legsA}, c.Path a legsA last → a.Meets two → a.remaining ≤ two.remaining →
      c.counted legsA ≤ c.counted legs₂ := by
    intro a legsA pathA meets more
    have behind := output_behind accepted output path₂ done₂ pathA ready (.of_meets meets more)
    rw [meets.price, Direction.due_self, SwapStep.cost_zero, Nat.zero_add] at behind
    exact behind
  induction path₁ generalizing both legs with
  | rest one =>
      rcases done₁ with spent | limit
      · exact le_trans (follow path (start.trans goesOn) (by omega)) (Nat.le_add_left _ _)
      · rw [(path.of_done (.inr (start.price.trans limit))).1]
        exact Nat.zero_le _
  | move leg₁ legs₁ last₁ step₁ rest₁ ih =>
      rw [counted_cons]
      rcases Nat.lt_or_ge leg₁.before.remaining (c.most leg₁) with less | within
      · obtain ⟨enough, spent⟩ := step₁.output_spent output less
        obtain ⟨none, rfl⟩ := rest₁.of_done (.inl spent)
        by_cases reached : leg₁.after.price.value = c.target leg₁.stop.index
        · cases path with
          | rest _ => exact Nat.zero_le _
          | move leg legs last step rest =>
              rcases output_beside accepted output step step₁ rest start reached with ends | ⟨meets, whole, paid⟩
              · omega
              · have behind := follow rest (meets.trans goesOn) (by omega)
                rw [counted_cons]
                omega
        · have precedes := (step₁.precedes_short reached accepted).of_meets start goesOn
          have paid := step₁.output_counted output
          rw [← start.price, ← start.liquidity, goesOn.price] at paid enough
          have behind := output_behind accepted output path₂ done₂ path ready ⟨precedes, show both.remaining ≤
            two.remaining + leg₁.before.remaining by omega, enough, .inr fun stop next => by
              rw [start.tick] at next
              rw [Window.is_next_unique accepted next step₁.next (c.direction.leads_refl _) next.ahead, start.price,
                start.liquidity]
              exact less⟩
          omega
      · obtain ⟨reached, whole₁⟩ := step₁.output_whole output within
        cases path with
        | rest _ => exact Nat.zero_le _
        | move leg legs last step rest =>
            rcases output_beside accepted output step step₁ rest start reached with ends | ⟨meets, whole, paid⟩
            · omega
            · have remaining := ih done₁ rest meets goesOn (by omega)
              rw [counted_cons]
              omega

end Course

/-- The calculated amount is what an input is paid and what is paid in for an output. -/
theorem splitting_never_helps (pool : Pool) (slots : List Slot) (spacing : BitVec 16) (window : Window)
    (limit : SqrtPrice) (side : Side) (direction : Direction) (time time₁ time₂ x₁ x₂ : BitVec 64)
    (whole first second : SwapResult) (accepted : Window.ofSlots slots spacing direction = .ok window)
    (consistent : pool.IsConsistent) (limited : direction.Leads pool.sqrtPrice.toNat limit.value)
    (fits : x₁.toNat + x₂.toNat < 2 ^ 64)
    (ok : (swap pool window ⟨x₁ + x₂, limit, side, direction, time⟩ .blank).1 = .ok whole)
    (ok₁ : (swap pool window ⟨x₁, limit, side, direction, time₁⟩ .blank).1 = .ok first)
    (ok₂ : (swap (pool.movedTo first) window ⟨x₂, limit, side, direction, time₂⟩ .blank).1 = .ok second) :
    match side with
    | .input => (first.amountOf (direction.token .output)).toNat + (second.amountOf (direction.token .output)).toNat ≤
        (whole.amountOf (direction.token .output)).toNat
    | .output => (whole.amountOf (direction.token .input)).toNat ≤
        (first.amountOf (direction.token .input)).toNat + (second.amountOf (direction.token .input)).toNat := by
  obtain ⟨made, sound⟩ := Window.of_slots_ok accepted
  have aligned : direction = window.direction := by rw [made]
  obtain ⟨one, legs₁, last₁, starts₁, ready₁, path₁, done₁, reports₁, _⟩ :=
    swap_path sound aligned consistent limited ok₁
  obtain ⟨both, legs, last, starts, _, path, done, reports, _⟩ := swap_path sound aligned consistent limited ok
  have ready := path₁.ready_last ready₁
  have limited₂ : direction.Leads (pool.movedTo first).sqrtPrice.toNat limit.value := by
    have short := ready.limited
    rw [← reports₁.price] at short
    rw [aligned]
    exact short
  obtain ⟨two, legs₂, last₂, starts₂, ready₂, path₂, done₂, reports₂, _⟩ :=
    swap_path sound aligned (reports₁.moved_consistent ready pool) limited₂ ok₂
  have total : both.remaining = one.remaining + two.remaining := by
    rw [starts.remaining, starts₁.remaining, starts₂.remaining]
    exact (BitVec.toNat_add x₁ x₂).trans (Nat.mod_eq_of_lt fits)
  have start := starts.meets starts₁
  have goesOn := reports₁.meets_start starts₂
  have counted := path.calculated_eq
  have counted₁ := path₁.calculated_eq
  have counted₂ := path₂.calculated_eq
  rw [starts.calculated, Nat.zero_add, ← reports.computed] at counted
  rw [starts₁.calculated, Nat.zero_add, ← reports₁.computed] at counted₁
  rw [starts₂.calculated, Nat.zero_add, ← reports₂.computed] at counted₂
  cases side with
  | input =>
      have split := Course.input_split sound rfl path₁ path₂ path done ready₂ start goesOn (le_of_eq total.symm)
      simp only [Side.other] at counted counted₁ counted₂
      simp only [counted, counted₁, counted₂]
      exact split
  | output =>
      have split := Course.output_split sound rfl path₁ done₁ path₂ done₂ path ready₂ start goesOn (le_of_eq total)
      simp only [Side.other] at counted counted₁ counted₂
      simp only [counted, counted₁, counted₂]
      exact split

theorem splitting_never_helps_sample : ∃ whole first second,
    (swap Sample.pool (Sample.window .aToB) (Sample.order .aToB .input 1000000) .blank).1 = .ok whole ∧
      (swap Sample.pool (Sample.window .aToB) (Sample.order .aToB .input 333333) .blank).1 = .ok first ∧
      (swap (Sample.pool.movedTo first) (Sample.window .aToB) (Sample.order .aToB .input 666667) .blank).1 =
        .ok second ∧
      whole.amountB.toNat = 996005 ∧ first.amountB.toNat = 332222 ∧ second.amountB.toNat = 663782 ∧
      first.amountB.toNat + second.amountB.toNat ≤ whole.amountB.toNat := by
  have run : (swap Sample.pool (Sample.window .aToB) (Sample.order .aToB .input 1000000) .blank).1.toOption.map
      (fun result => result.amountB.toNat) = some 996005 := by decide +kernel
  have place₁ : (swap Sample.pool (Sample.window .aToB) (Sample.order .aToB .input 333333) .blank).1.toOption.map
      (fun result => (result.nextSqrtPrice, result.nextTick, result.nextLiquidity)) =
        some (18440613197053272800, .ofInt 32 (-7), 999600000) := by decide +kernel
  have paid₁ : (swap Sample.pool (Sample.window .aToB) (Sample.order .aToB .input 333333) .blank).1.toOption.map
      (fun result => result.amountB.toNat) = some 332222 := by decide +kernel
  obtain ⟨whole, ok, won⟩ := exists_result run
  obtain ⟨first, ok₁, moved⟩ := exists_place place₁
  have run₂ : (swap (Sample.pool.movedTo first) (Sample.window .aToB) (Sample.order .aToB .input 666667)
      .blank).1.toOption.map (fun result => result.amountB.toNat) = some 663782 := by
    rw [moved]
    decide +kernel
  obtain ⟨second, ok₂, won₂⟩ := exists_result run₂
  have won₁ := view_of_ok paid₁ ok₁
  exact ⟨whole, first, second, ok, ok₁, ok₂, won, won₁, won₂,
    splitting_never_helps Sample.pool (Sample.slots .aToB) 1 (Sample.window .aToB) .min .input .aToB 0 0 0 333333 666667
      whole first second (Sample.accepted .aToB) Sample.consistent (by decide) (by decide) ok ok₁ ok₂⟩

end PoolQuote
