import PoolQuote.Proofs.LegAmounts
import PoolQuote.Proofs.Lockstep

/-!
A trade that sells again what it has bought never gets back more than it has paid. The way back is
followed down the stretches of constant liquidity that the way out has crossed, and each stretch pays
out at most what was paid in for it.
-/

set_option autoImplicit false

namespace PoolQuote

-- Two windows hold the same about every tick that is in both.
def Window.Agrees (w w' : Window) : Prop :=
  ∀ t tick tick', w.Stores t tick → w'.Stores t tick' →
    tick.initialized = tick'.initialized ∧ tick.liquidityNet = tick'.liquidityNet

theorem Window.agrees_of_arrays {w w' : Window} (accepted : w.IsAccepted) (spacing : w'.spacingNat = w.spacingNat)
    (arrays : ∀ array ∈ w'.arrays, array ∈ w.arrays) : w.Agrees w' := by
  rintro t tick tick' stored ⟨array, member, k, record, index⟩
  rw [spacing] at index
  rw [Window.stores_unique accepted stored ⟨array, arrays array member, k, record, index⟩]
  exact ⟨rfl, rfl⟩

theorem Sample.agrees : (Sample.window .aToB).Agrees (Sample.window .bToA) := by
  refine Window.agrees_of_arrays (Window.of_slots_ok (Sample.accepted .aToB)).2 rfl fun array member => ?_
  rcases List.mem_cons.mp member with rfl | member
  · exact List.mem_cons_of_mem _ List.mem_cons_self
  · rcases List.mem_cons.mp member with rfl | none
    · exact List.mem_cons_self
    · cases none

theorem Window.dvd_of_stores {w : Window} (accepted : w.IsAccepted) {t : Int} {tick : Tick} (stored : w.Stores t tick) :
    (w.spacingNat : Int) ∣ t := by
  obtain ⟨n, _, rfl⟩ := (Window.stores_iff accepted t tick).mp stored
  exact Dvd.intro_left _ rfl

namespace Course

variable {c : Course}

-- The state `b` has gone on from `e` past positions of the window that hold no initialized tick.
structure Slides (c : Course) (e b : SwapState) : Prop where
  price : c.direction.Leads e.price.value b.price.value
  tick : c.direction.Leads e.tick b.tick
  liquidity : e.liquidity = b.liquidity
  dark : ∀ u, (c.window.spacingNat : Int) ∣ u → c.direction.Passes e.tick b.tick u →
    ∃ tick, c.window.Stores u tick ∧ ¬ tick.initialized

theorem slides_refl (c : Course) (e : SwapState) : c.Slides e e :=
  ⟨c.direction.leads_refl _, c.direction.leads_refl _, rfl, fun _ _ passes =>
    absurd (Direction.passes_iff.mp passes).1 (Direction.passes_iff.mp passes).2⟩

theorem Slides.of_meets {e b b' : SwapState} (slides : c.Slides e b) (meets : b.Meets b') : c.Slides e b' := by
  refine ⟨?_, ?_, slides.liquidity.trans meets.liquidity, ?_⟩
  · rw [← meets.price]
    exact slides.price
  · rw [← meets.tick]
    exact slides.tick
  · rw [← meets.tick]
    exact slides.dark

namespace IsMove

variable {leg : SwapLeg} (move : c.IsMove leg)

include move

theorem dark_before_stop {u : Int} (divides : (c.window.spacingNat : Int) ∣ u)
    (ahead : c.direction.Ahead leg.before.tick u)
    (short : c.direction.Before u leg.stop.index ∨ leg.stop.tick = none ∧ c.direction.Leads u leg.stop.index) :
    ∃ tick, c.window.Stores u tick ∧ ¬ tick.initialized := by
  have leads : c.direction.Leads u leg.stop.index := by
    rcases short with before | ⟨_, leads⟩
    · exact (Direction.before_iff.mp before).1
    · exact leads
  obtain ⟨tick, stored⟩ := move.next.covers u divides ahead leads
  refine ⟨tick, stored, fun initialized => ?_⟩
  obtain ⟨present, further⟩ := move.next.first u tick stored initialized ahead
  rcases short with before | ⟨absent, _⟩
  · exact Direction.not_leads_iff.mpr before further
  · exact present absent

theorem slides_short (empty : ¬ leg.Arrives ∨ leg.stop.tick = none) : c.Slides leg.before leg.after := by
  refine ⟨move.forward_short.1, move.tick_leads, ?_, fun u divides passes => ?_⟩
  · cases move.lands with
    | short _ _ _ liquidity => exact liquidity.symm
    | boundary _ _ _ _ liquidity => exact liquidity.symm
    | crossing record _ there _ stop _ _ _ _ _ _ =>
        rcases empty with away | absent
        · exact absurd there away
        · rw [absent] at stop
          cases stop
  · obtain ⟨ahead, behind⟩ := Direction.passes_iff.mp passes
    refine move.dark_before_stop divides ahead ?_
    by_cases there : leg.Arrives
    · have absent : leg.stop.tick = none := empty.resolve_left (not_not.mpr there)
      rw [move.tick_after there] at behind
      exact .inr ⟨absent, Direction.leads_of_not_ahead_past behind⟩
    · exact .inl (Direction.before_of_ahead behind (move.ahead_of_short there))

theorem last_at_boundary {next : SwapLeg} (there : leg.Arrives) (absent : leg.stop.tick = none)
    (second : c.IsMove next) : next.before ≠ leg.after := by
  intro goesOn
  have search := second.next
  rw [goesOn, move.tick_after there] at search
  cases found : next.stop.tick with
  | none =>
      have same : next.stop.index = leg.stop.index := by
        rw [search.ended found, move.next.ended absent]
      have ahead := search.ahead
      rw [same] at ahead
      exact c.direction.not_ahead_past _ ahead
  | some record =>
      obtain ⟨stored, initialized⟩ := search.found record found
      have ahead := Direction.ahead_of_leads (Direction.leads_past move.next.ahead) search.ahead
      exact (move.next.first _ record stored initialized ahead).1 absent

theorem crosses_or_ends (input : c.side = .input) {legs : List SwapLeg} {last : SwapState}
    (rest : c.Path leg.after legs last) : (∃ record, leg.Arrives ∧ leg.stop.tick = some record) ∨
      c.Slides leg.before leg.after ∧ last = leg.after ∧ c.counted legs = 0 := by
  by_cases there : leg.Arrives
  · cases stop : leg.stop.tick with
    | some record => exact .inl ⟨record, there, rfl⟩
    | none =>
        refine .inr ⟨move.slides_short (.inr stop), ?_⟩
        generalize goesOn : leg.after = state at rest
        cases rest with
        | rest _ => exact ⟨rfl, rfl⟩
        | move next legs last second _ => exact absurd goesOn.symm (move.last_at_boundary there stop second)
  · have done : c.IsDone leg.after := by
      by_cases reached : leg.after.price.value = c.target leg.stop.index
      · exact .inr ((arrives_or_limited reached).resolve_left there)
      · exact .inl (move.input_spent input reached)
    obtain ⟨none, final⟩ := rest.of_done done
    exact .inr ⟨move.slides_short (.inl there), final, none⟩

end IsMove

-- A swap has come from `start` by crossing ticks, and has paid and won at least so much on the way.
inductive Climb (c : Course) (start : SwapState) : SwapState → Nat → Nat → Prop
  | start : Climb c start start 0 0
  | cross (leg : SwapLeg) (record : Tick) (paid won : Nat) (below : Climb c start leg.before paid won)
      (move : c.IsMove leg) (there : leg.Arrives) (stop : leg.stop.tick = some record) :
      Climb c start leg.after
        (paid + c.direction.due leg.before.price.value leg.after.price.value leg.before.liquidity)
        (won + c.direction.won leg.before.price.value leg.after.price.value leg.before.liquidity)

theorem Path.climb (input : c.side = .input) {start state last : SwapState} {legs : List SwapLeg} {paid won : Nat}
    (path : c.Path state legs last) (below : c.Climb start state paid won) : ∃ e paid' won',
      c.Climb start e paid' won' ∧ c.Slides e last ∧
        paid' + c.direction.due e.price.value last.price.value last.liquidity + last.remaining ≤
          paid + state.remaining ∧
        won' + c.direction.won e.price.value last.price.value last.liquidity = won + c.counted legs := by
  induction path generalizing paid won with
  | rest state =>
      refine ⟨state, paid, won, below, c.slides_refl state, ?_, ?_⟩
      · rw [Direction.due_self]
        exact le_refl _
      · rw [Direction.won_self]
        rfl
  | move leg legs last move rest ih =>
      have cost := move.input_paid input
      rw [counted_cons, move.input_counted input]
      rcases move.crosses_or_ends input rest with ⟨record, there, stop⟩ | ⟨slides, rfl, none⟩
      · obtain ⟨e, paid', won', climb, slides, spent, gained⟩ := ih (.cross leg record paid won below move there stop)
        exact ⟨e, paid', won', climb, slides, by omega, by omega⟩
      · refine ⟨leg.before, paid, won, below, slides, ?_, ?_⟩
        · rw [← slides.liquidity]
          omega
        · rw [← slides.liquidity]
          omega

structure Opposes (c c' : Course) : Prop where
  accepted : c.window.IsAccepted
  accepted' : c'.window.IsAccepted
  direction : c'.direction = c.direction.opposite
  spacing : c'.window.spacingNat = c.window.spacingNat
  agrees : c.window.Agrees c'.window
  input : c'.side = .input

section Back

variable {c' : Course} (opposes : c.Opposes c') {e : SwapState} {leg : SwapLeg} (back : c'.IsMove leg)
  (slides : c.Slides e leg.before)

include opposes back

theorem back_leads : c.direction.Leads leg.after.price.value leg.before.price.value := by
  have forward := back.forward_short.1
  rw [opposes.direction] at forward
  exact Direction.leads_opposite.mp forward

theorem back_counted : leg.step.used c'.side.other =
    c.direction.opposite.won leg.before.price.value leg.after.price.value leg.before.liquidity := by
  rw [back.input_counted opposes.input, opposes.direction]

theorem back_paid : leg.after.remaining + c.direction.opposite.due leg.before.price.value leg.after.price.value
    leg.before.liquidity ≤ leg.before.remaining := by
  rw [← opposes.direction]
  exact back.input_paid opposes.input

theorem back_repaid (stays : c.direction.Leads e.price.value leg.after.price.value) :
    leg.step.used c'.side.other ≤ c.direction.due e.price.value leg.before.price.value leg.before.liquidity := by
  have repaid := Direction.due_add_won_back_le leg.before.liquidity e.price.value_pos leg.before.price.value_pos stays
    (back_leads opposes back)
  rw [back_counted opposes back]
  exact le_trans (Nat.le_add_left _ _) repaid

include slides

theorem back_crosses {record : Tick} (ready : c.Ready e) (there : leg.Arrives) (stop : leg.stop.tick = some record)
    (stays : c.direction.Leads e.price.value leg.after.price.value) : leg.after.price.value = e.price.value := by
  obtain ⟨stored, initialized⟩ := back.next.found record stop
  have behind : ¬ c.direction.Ahead leg.before.tick leg.stop.index := by
    have ahead : c'.direction.Ahead leg.before.tick leg.stop.index := back.next.ahead
    rw [opposes.direction] at ahead
    exact Direction.ahead_opposite.mp ahead
  have passed : ¬ c.direction.Ahead e.tick leg.stop.index := by
    intro ahead
    have divides := Window.dvd_of_stores opposes.accepted' stored
    rw [opposes.spacing] at divides
    obtain ⟨tick, dark, unlit⟩ := slides.dark _ divides (Direction.passes_iff.mpr ⟨ahead, behind⟩)
    rw [(opposes.agrees _ _ _ dark stored).1] at unlit
    exact unlit initialized
  have further := TickIndex.raw_price_leads ready.lies back.inside passed
  rw [← there] at further
  exact Direction.leads_antisymm further stays

theorem back_home {record : Tick} (ready : c.Ready e) (there : leg.Arrives) (stop : leg.stop.tick = some record)
    (stays : c.direction.Leads e.price.value leg.after.price.value) {won : Nat} (enough : leg.before.remaining ≤
      won + c.direction.won e.price.value leg.before.price.value leg.before.liquidity) :
    leg.after.price.value = e.price.value ∧ leg.after.remaining ≤ won := by
  have home := back_crosses opposes back slides ready there stop stays
  have left := back_paid opposes back
  have most := Direction.won_le_add_due_back leg.before.liquidity e.price.value_pos leg.before.price.value_pos stays
    (back_leads opposes back)
  rw [home, Direction.won_self] at most
  rw [home] at left
  exact ⟨home, by omega⟩

theorem back_stays_at_start (enough : leg.before.remaining ≤
      c.direction.won e.price.value leg.before.price.value leg.before.liquidity) :
    c.direction.Leads e.price.value leg.after.price.value := by
  by_contra beyond
  obtain ⟨leads, different⟩ := Direction.before_iff.mp (Direction.not_leads_iff.mp beyond)
  have due : 0 < leg.before.remaining := Nat.pos_of_ne_zero fun none => back.underWay (.inl none)
  have liquid : 0 < leg.before.liquidity := by
    by_contra dry
    have none : leg.before.liquidity = 0 := by omega
    rw [none, Direction.won, Direction.gained, Token.amount_no_liquidity, Nat.floor_zero] at enough
    omega
  have more := Direction.won_lt_due_back leg.before.liquidity leg.after.price.value_pos leg.before.price.value_pos leads
    slides.price different liquid
  have paid := back_paid opposes back
  omega

-- A tick crossed on the way out stops the way back, if the window reaches that far.
theorem back_stays_at_crossing {out : SwapLeg} {record : Tick} (move : c.IsMove out) (here : e = out.after)
    (there : out.Arrives) (stop : out.stop.tick = some record) :
    c.direction.Leads e.price.value leg.after.price.value := by
  by_contra beyond
  obtain ⟨stored, initialized⟩ := move.next.found record stop
  obtain ⟨leads, different⟩ := Direction.before_iff.mp (Direction.not_leads_iff.mp beyond)
  have short := back.leads_stop
  rw [opposes.direction] at short
  have further := Direction.leads_opposite.mp short
  rw [here, there] at leads different
  have ticks := (TickIndex.leads_raw_iff back.inside move.inside).mp (Direction.leads_trans further leads)
  have behind : ¬ c.direction.Ahead leg.before.tick out.stop.index := by
    intro ahead
    have passed := Direction.ahead_of_leads slides.tick ahead
    rw [here, move.tick_after there] at passed
    exact c.direction.not_ahead_past _ passed
  have divides := Window.dvd_of_stores opposes.accepted stored
  rw [← opposes.spacing] at divides
  have ahead : c'.direction.Ahead leg.before.tick out.stop.index := by
    rw [opposes.direction]
    exact Direction.ahead_opposite.mpr behind
  have covered : c'.direction.Leads out.stop.index leg.stop.index := by
    rw [opposes.direction]
    exact Direction.leads_opposite.mpr ticks
  obtain ⟨tick, stored'⟩ := back.next.covers _ divides ahead covered
  have initialized' : tick.initialized := by
    rw [← (opposes.agrees _ _ _ stored stored').1]
    exact initialized
  have stops : c'.direction.Leads leg.stop.index out.stop.index := (back.next.first _ _ stored' initialized' ahead).2
  rw [opposes.direction] at stops
  have same := Direction.leads_antisymm ticks (Direction.leads_opposite.mp stops)
  rw [same] at further
  exact different (Direction.leads_antisymm leads further)

end Back

theorem slides_back {c' : Course} (opposes : c.Opposes c') {out leg : SwapLeg} {record record' : Tick} (move : c.IsMove out)
    (there : out.Arrives) (stop : out.stop.tick = some record) (back : c'.IsMove leg) (there' : leg.Arrives)
    (stop' : leg.stop.tick = some record') (same : leg.stop.index = out.stop.index)
    (liquidity : out.after.liquidity = leg.before.liquidity) : c.Slides out.before leg.after := by
  have tick : leg.after.tick = c.direction.opposite.past out.stop.index := by
    rw [back.tick_after there', opposes.direction, same]
  refine ⟨?_, ?_, ?_, fun u divides passes => ?_⟩
  · have forward := move.forward_short.1
    rw [there, ← same, ← there'] at forward
    exact forward
  · rw [tick]
    exact Direction.leads_past_opposite move.next.ahead
  · have stored' := (back.next.found record' stop').1
    rw [same] at stored'
    have net := (opposes.agrees _ _ _ (move.next.found record stop).1 stored').2
    have crossed := move.liquidity_crossing there stop
    have crossed' := back.liquidity_crossing there' stop'
    rw [← liquidity, opposes.direction, ← net, crossed, Direction.along_opposite] at crossed'
    exact (Int.ofNat_inj.mp crossed').symm
  · obtain ⟨ahead, behind⟩ := Direction.passes_iff.mp passes
    rw [tick] at behind
    exact move.dark_before_stop divides ahead (.inl (Direction.before_of_not_ahead_past_opposite behind))

-- The induction goes down the ticks that were crossed on the way out. On each stretch the way back has at
-- most what was won up to there, and is paid at most what was paid up to there.
theorem Climb.back_le {c' : Course} (opposes : c.Opposes c') {start e b last : SwapState} {legs : List SwapLeg}
    {paid won : Nat} (climb : c.Climb start e paid won) (ready : c.Ready start) (slides : c.Slides e b)
    (path : c'.Path b legs last)
    (enough : b.remaining ≤ won + c.direction.won e.price.value b.price.value b.liquidity) :
    c'.counted legs ≤ paid + c.direction.due e.price.value b.price.value b.liquidity := by
  induction climb generalizing b legs with
  | start =>
      cases path with
      | rest _ => exact Nat.zero_le _
      | move leg legs last back rest =>
          have stays := back_stays_at_start opposes back slides (by omega)
          have repaid := back_repaid opposes back stays
          rw [counted_cons]
          rcases back.crosses_or_ends opposes.input rest with ⟨record, there, stop⟩ | ⟨_, _, none⟩
          · obtain ⟨_, left⟩ := back_home opposes back slides ready there stop stays enough
            have none := (rest.of_done (.inl (Nat.le_zero.mp left))).1
            omega
          · omega
  | cross out record paid won below move there stop ih =>
      cases path with
      | rest _ => exact Nat.zero_le _
      | move leg legs last back rest =>
          have stays := back_stays_at_crossing opposes back slides move rfl there stop
          have repaid := back_repaid opposes back stays
          rw [counted_cons]
          rcases back.crosses_or_ends opposes.input rest with ⟨record', there', stop'⟩ | ⟨_, _, none⟩
          · obtain ⟨home, left⟩ := back_home opposes back slides move.ready_after there' stop' stays enough
            have same : leg.stop.index = out.stop.index :=
              TickIndex.raw_price_inj back.inside move.inside (by rw [← there', ← there, home])
            have below' := slides_back opposes move there stop back there' stop' same slides.liquidity
            have rest' := ih below' rest (by
              rw [home, ← below'.liquidity]
              exact left)
            rw [home, ← below'.liquidity] at rest'
            omega
          · omega

end Course

/-- The second order sells what the first one was paid, on a pool that stands where the first one ended. The windows lie
in opposite directions, with the one tick spacing that a pool has. -/
theorem round_trip_never_profits (pool : Pool) (slots slots' : List Slot) (spacing : BitVec 16) (window window' : Window)
    (direction : Direction) (limit limit' : SqrtPrice) (time time' amount : BitVec 64) (first second : SwapResult)
    (accepted : Window.ofSlots slots spacing direction = .ok window)
    (accepted' : Window.ofSlots slots' spacing direction.opposite = .ok window') (agrees : window.Agrees window')
    (consistent : pool.IsConsistent) (limited : direction.Leads pool.sqrtPrice.toNat limit.value)
    (limited' : direction.opposite.Leads first.nextSqrtPrice.toNat limit'.value)
    (ok : (swap pool window ⟨amount, limit, .input, direction, time⟩ .blank).1 = .ok first)
    (ok' : (swap (pool.movedTo first) window'
      ⟨first.amountOf (direction.token .output), limit', .input, direction.opposite, time'⟩ .blank).1 = .ok second) :
    (second.amountOf (direction.opposite.token .output)).toNat ≤ (first.amountOf (direction.token .input)).toNat := by
  obtain ⟨made, sound⟩ := Window.of_slots_ok accepted
  obtain ⟨made', sound'⟩ := Window.of_slots_ok accepted'
  have aligned : direction = window.direction := by rw [made]
  have aligned' : direction.opposite = window'.direction := by rw [made']
  obtain ⟨start, legs, last, starts, ready, path, _, reports, _⟩ := swap_path sound aligned consistent limited ok
  have final := path.ready_last ready
  obtain ⟨start', legs', last', starts', _, path', _, reports', _⟩ :=
    swap_path sound' aligned' (reports.moved_consistent final pool) limited' ok'
  have opposes : (pool.course window ⟨amount, limit, .input, direction, time⟩).Opposes
      ((pool.movedTo first).course window'
        ⟨first.amountOf (direction.token .output), limit', .input, direction.opposite, time'⟩) := by
    refine ⟨sound, sound', ?_, by rw [made, made']; rfl, agrees, rfl⟩
    exact aligned'.symm.trans (congrArg Direction.opposite aligned)
  have meets := reports.meets_start starts'
  obtain ⟨e, paid, won, climb, slides, spent, gained⟩ := path.climb rfl .start
  have output : start'.remaining = last.calculated := starts'.remaining.trans reports.computed
  have counted := path.calculated_eq
  have counted' := path'.calculated_eq
  rw [starts.calculated, Nat.zero_add] at counted
  rw [starts'.calculated, Nat.zero_add] at counted'
  rw [meets.price, meets.liquidity] at spent gained
  have bounded := climb.back_le opposes ready (slides.of_meets meets) path' (by omega)
  have received := reports'.computed
  have specified := reports.specified
  have amountEq := starts.remaining
  simp only [Side.other] at received
  simp only at amountEq specified
  omega

theorem round_trip_never_profits_sample : ∃ first second,
    (swap Sample.pool (Sample.window .aToB) (Sample.order .aToB .input 1000000) .blank).1 = .ok first ∧
      first.amountB.toNat = 996005 ∧
      (swap (Sample.pool.movedTo first) (Sample.window .bToA) (Sample.order .bToA .input first.amountB) .blank).1 =
        .ok second ∧
      second.amountA.toNat ≤ first.amountA.toNat := by
  have run : (swap Sample.pool (Sample.window .aToB) (Sample.order .aToB .input 1000000) .blank).1.toOption.map
      (fun result => (result.amountB, Sample.pool.movedTo result)) = some (996005, { Sample.pool with
        sqrtPrice := 18428364761800255641, tickCurrent := .ofInt 32 (-20), liquidity := 999700000 }) := by
    decide +kernel
  obtain ⟨first, ok, viewed⟩ := exists_result run
  obtain ⟨sold, moved⟩ := Prod.mk.inj viewed
  have run' : (swap (Sample.pool.movedTo first) (Sample.window .bToA) (Sample.order .bToA .input first.amountB)
      .blank).1.toOption.map (fun result => result.nextTick.toInt) = some (-1) := by
    rw [moved, sold]
    decide +kernel
  obtain ⟨second, ok', _⟩ := exists_result run'
  have price : first.nextSqrtPrice = 18428364761800255641 := congrArg Pool.sqrtPrice moved
  refine ⟨first, second, ok, by rw [sold]; rfl, ok', ?_⟩
  exact round_trip_never_profits Sample.pool (Sample.slots .aToB) (Sample.slots .bToA) 1 (Sample.window .aToB)
    (Sample.window .bToA) .aToB .min .max 0 0 1000000 first second (Sample.accepted .aToB) (Sample.accepted .bToA)
    Sample.agrees Sample.consistent (by decide) (by rw [price]; decide) ok ok'

end PoolQuote
