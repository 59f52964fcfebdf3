import PoolQuote.Proofs.LoopBound

/-!
What a swap reads. A search reads the arrays from that of its entry to that of the slot where it ends, and the next
one enters at the slot after it, so that a swap that succeeds has read its arrays in order and without a gap. A window
that agrees with another one up to the last array read gives the same swap.
-/

set_option autoImplicit false

namespace PoolQuote

namespace Window

def Spans (reads : List Nat) (n m : Nat) : Prop :=
  ∀ place, place ∈ reads ↔ n / ticksPerArray ≤ place ∧ place ≤ m / ticksPerArray

theorem spans_slot (n : Nat) : Spans [n / ticksPerArray] n n := by
  intro place
  rw [List.mem_singleton, le_antisymm_iff, and_comm]

theorem Spans.append {reads further : List Nat} {n m l : Nat} (first : Spans reads n m)
    (second : Spans further (m + 1) l) (forward : n ≤ m) (later : m < l) : Spans (reads ++ further) n l := by
  intro place
  rw [List.mem_append, first place, second place]
  simp only [ticksPerArray]
  omega

-- Reads of the arrays up to the place `k`, or of none at all.
def ReadsTo (reads : List Nat) (k : Nat) : Prop :=
  (∀ place, place ∈ reads ↔ place ≤ k) ∨ reads = [] ∧ k = 0

theorem Spans.reads_to {reads : List Nat} {n m : Nat} (spans : Spans reads n m) (first : n < ticksPerArray) :
    ReadsTo reads (m / ticksPerArray) := by
  refine .inl fun place => ?_
  rw [spans place, Nat.div_eq_of_lt first]
  exact and_iff_right (Nat.zero_le place)

theorem ReadsTo.le {reads : List Nat} {k place : Nat} (reach : ReadsTo reads k) (member : place ∈ reads) :
    place ≤ k := by
  rcases reach with all | ⟨nothing, _⟩
  · exact (all place).mp member
  · rw [nothing] at member
    cases member

theorem slot_at_inj {w : Window} {m n : Nat} (same : w.slotAt m = w.slotAt n) : m = n := by
  unfold slotAt at same
  cases direction : w.direction <;> simp only [direction, Direction.along] at same <;> omega

structure EndsAt (w : Window) (reads : List Nat) (n m : Nat) (stop : Stop) : Prop where
  forward : n ≤ m
  inside : m < w.size
  spans : Spans reads n m
  found : stop.tick ≠ none → stop.index = w.slotAt m * w.spacingNat
  whole : stop.tick = none → m + 1 = w.size

theorem ends_at_entry {w : Window} {n : Nat} {stop : Stop} (inside : n < w.size)
    (found : stop.tick ≠ none → stop.index = w.slotAt n * w.spacingNat) (whole : stop.tick = none → n + 1 = w.size) :
    w.EndsAt [n / ticksPerArray] n n stop :=
  ⟨le_refl n, inside, spans_slot n, found, whole⟩

theorem EndsAt.step {w : Window} {reads : List Nat} {n m : Nat} {stop : Stop} (ends : w.EndsAt reads (n + 1) m stop) :
    w.EndsAt (n / ticksPerArray :: reads) n m stop :=
  ⟨Nat.le_of_succ_le ends.forward, ends.inside, (spans_slot n).append ends.spans (le_refl n) ends.forward, ends.found,
    ends.whole⟩

section Accepted

variable {w : Window} (accepted : w.IsAccepted)

include accepted

theorem scan_reads {count n : Nat} {stop : Stop} (room : n + (count + 1) = w.size)
    (ok : (w.scan (count + 1) (.ofNumber (w.slotAt n))).outcome = .ok stop) :
    ∃ m, w.EndsAt (w.scan (count + 1) (.ofNumber (w.slotAt n))).reads n m stop := by
  have inside : n < w.size := by omega
  induction count generalizing n with
  | zero =>
      rcases scan_succ_ok accepted inside ok with ⟨tick, lit, rfl⟩ | ⟨dark, ⟨position, moved⟩, further⟩
      · rw [scan_found accepted inside lit]
        exact ⟨n, ends_at_entry inside (fun _ => rfl) fun absent => by cases absent⟩
      · rw [scan_dark accepted inside dark moved]
        have last : n + 1 = w.size := room
        rw [last] at further
        cases boundary_ok further
        exact ⟨n, ends_at_entry inside (fun found => absurd rfl found) fun _ => last⟩
  | succ count ih =>
      rcases scan_succ_ok accepted inside ok with ⟨tick, lit, rfl⟩ | ⟨dark, ⟨position, moved⟩, further⟩
      · rw [scan_found accepted inside lit]
        exact ⟨n, ends_at_entry inside (fun _ => rfl) fun absent => by cases absent⟩
      · rw [scan_dark accepted inside dark moved]
        obtain ⟨m, ends⟩ := ih (n := n + 1) (by omega) further (by omega)
        exact ⟨m, ends.step⟩

theorem next_initialized_reads {t : Int} {stop : Stop} (ok : (w.nextInitialized t).outcome = .ok stop) :
    ∃ n m, w.slotAt n = w.entry t ∧ w.EndsAt (w.nextInitialized t).reads n m stop := by
  obtain ⟨n, inside, enters⟩ := exists_entry ok
  obtain ⟨count, left⟩ := Nat.exists_eq_add_of_lt inside
  have room : w.size - n = count + 1 := by omega
  rw [next_initialized_eq accepted inside enters, room] at ok ⊢
  obtain ⟨m, ends⟩ := scan_reads accepted (by omega) ok
  exact ⟨n, m, enters, ends⟩

theorem StartsAt.exists_slot {t : Int} (starts : w.StartsAt t) : ∃ n, n < ticksPerArray ∧ w.slotAt n = w.entry t := by
  obtain ⟨fits, first, head, contains⟩ := starts
  have found : w.arrays[0]? = some first := by rw [← List.head?_eq_getElem?]; exact head
  obtain ⟨n, atPlace, here⟩ := (contains_iff_slot accepted found _).mp contains
  refine ⟨n, Nat.lt_of_div_eq_zero (by decide) atPlace, ?_⟩
  rw [here, entry, min_eq_left fits.2]

theorem entry_past {m : Nat} (inside : TickIndex.InBounds (w.slotAt m * w.spacingNat)) :
    w.entry (w.direction.past (w.slotAt m * w.spacingNat)) = w.slotAt (m + 1) := by
  have spaced : (0 : Int) < w.spacingNat := by exact_mod_cast accepted.spaced
  have upper : w.direction.past (w.slotAt m * w.spacingNat) ≤ TickIndex.maximum := by
    have highest := inside.2
    cases w.direction <;> simp only [Direction.past] <;> omega
  rw [entry_eq upper, slot_at_succ]
  unfold searchEntry Direction.past
  cases w.direction with
  | aToB =>
      simp only [Direction.along]
      rw [Int.ediv_eq_iff_of_pos spaced, sub_mul, one_mul, sub_add_cancel]
      omega
  | bToA =>
      simp only [Direction.along]
      rw [Int.add_ediv_of_dvd_right (dvd_refl _), Int.ediv_self (ne_of_gt spaced), Int.mul_ediv_cancel _ (ne_of_gt spaced)]

end Accepted

end Window

namespace SwapSetting

variable {setting : SwapSetting}

theorem Runs.reads {state last : SwapState} {trail : SwapTrail} {n : Nat}
    (aligned : setting.order.direction = setting.window.direction) (accepted : setting.window.IsAccepted)
    (runs : setting.Runs state trail) (ending : trail.ending = .done last)
    (enters : setting.window.slotAt n = setting.window.entry state.tick) :
    trail.reads = [] ∨ ∃ m, n ≤ m ∧ m < setting.window.size ∧ Window.Spans trail.reads n m := by
  induction runs generalizing n with
  | done state finished => exact .inl rfl
  | lost state failure underWay search => cases ending
  | refused state stop cause underWay search leg => cases ending
  | turn leg rest step further ih =>
      refine .inr ?_
      obtain ⟨n', m, here, forward, inside, spans, found, _⟩ := Window.next_initialized_reads accepted step.search
      obtain rfl := Window.slot_at_inj (here.trans enters.symm)
      by_cases finished : setting.IsDone leg.after
      · cases runs_unique further (.done leg.after finished)
        rw [List.append_nil]
        exact ⟨m, forward, inside, spans⟩
      · obtain ⟨bounded, short, past⟩ := step.goes_on aligned finished
        cases absent : leg.stop.tick with
        | none =>
            obtain ⟨failure, lost⟩ := Window.search_past_end accepted step.search absent bounded short
            rw [← past] at lost
            cases runs_unique further (.lost leg.after failure finished lost)
            cases ending
        | some tick =>
            have stopped := found (by rw [absent]; exact Option.some_ne_none tick)
            rw [stopped] at bounded past
            have next := Window.entry_past accepted bounded
            rw [← past] at next
            rcases ih ending next.symm with nothing | ⟨l, later, within, rest⟩
            · rw [nothing, List.append_nil]
              exact ⟨m, forward, inside, spans⟩
            · exact ⟨l, by omega, within, spans.append rest forward (by omega)⟩

end SwapSetting

namespace Window

theorem first_array_head (w : Window) : w.firstArray =
    ((w.arrays[0]?).map fun first => first.start.toInt / (w.spacingNat : Int) / ticksPerArray).getD 0 := by
  unfold firstArray
  cases w.arrays <;> rfl

-- A window that has the arrays of another one up to the place `k`, and further ones only where the other has them.
structure AgreesTo (w : Window) (k : Nat) (other : Window) : Prop where
  spacing : other.spacing = w.spacing
  direction : other.direction = w.direction
  same : ∀ place, place ≤ k → other.arrays[place]? = w.arrays[place]?
  within : other.arrays.length ≤ w.arrays.length

namespace AgreesTo

variable {w other : Window} {k : Nat} (agrees : w.AgreesTo k other)

include agrees

theorem spacingNat : other.spacingNat = w.spacingNat :=
  congrArg BitVec.toNat agrees.spacing

theorem firstArray : other.firstArray = w.firstArray := by
  rw [first_array_head, first_array_head, agrees.same 0 (Nat.zero_le k), agrees.spacingNat]

theorem slotAt (n : Nat) : other.slotAt n = w.slotAt n := by
  simp only [Window.slotAt, opening, agrees.direction, agrees.firstArray]

theorem startsAt {t : Int} (starts : w.StartsAt t) : other.StartsAt t := by
  unfold StartsAt at *
  rw [List.head?_eq_getElem?, agrees.same 0 (Nat.zero_le k), agrees.direction, agrees.spacingNat,
    ← List.head?_eq_getElem?]
  exact starts

theorem isAccepted (accepted : w.IsAccepted) (each : ∀ (place : Nat) (array' : TickArray),
      other.arrays[place]? = some array' → array'.ticks.length = ticksPerArray ∧
        ∃ array, w.arrays[place]? = some array ∧ array'.start = array.start) : other.IsAccepted where
  spaced := by
    rw [agrees.spacingNat]
    exact accepted.spaced
  few := le_trans agrees.within accepted.few
  full := by
    intro array member
    obtain ⟨place, found⟩ := List.mem_iff_getElem?.mp member
    exact (each place array found).1
  placed := by
    intro place array' found
    obtain ⟨_, array, there, start⟩ := each place array' found
    rw [start, accepted.placed place array there, agrees.direction, agrees.firstArray, span, span, agrees.spacingNat]

theorem held {n : Nat} (near : n / ticksPerArray ≤ k) : other.held n = w.held n := by
  simp only [Window.held, agrees.same _ near, agrees.slotAt]

theorem entry (t : Int) : other.entry t = w.entry t := by
  simp only [Window.entry, agrees.direction, agrees.spacingNat]

theorem boundary (past : TickPosition) : other.boundary past = w.boundary past := by
  simp only [Window.boundary, agrees.direction, agrees.spacingNat]

theorem inside {n : Nat} (near : n / ticksPerArray ≤ k) (inside : n < w.size) : n < other.size := by
  have present : n / ticksPerArray < w.arrays.length := place_lt inside
  have there := agrees.same _ near
  rw [List.getElem?_eq_getElem present] at there
  have here := (List.getElem?_eq_some_iff.mp there).1
  simp only [size, ticksPerArray] at *
  omega

theorem size (whole : w.arrays.length ≤ k + 1) : other.size = w.size := by
  refine congrArg (· * ticksPerArray) (le_antisymm agrees.within (not_lt.mp fun less => ?_))
  have there := agrees.same other.arrays.length (by omega)
  rw [List.getElem?_eq_none (le_refl _), List.getElem?_eq_getElem less] at there
  cases there

theorem scan (accepted : w.IsAccepted) (accepted' : other.IsAccepted) {count count' n : Nat} {stop : Stop}
    (room : n + count = w.size) (room' : n + count' = other.size)
    (ok : (w.scan count (.ofNumber (w.slotAt n))).outcome = .ok stop)
    (near : ∀ place ∈ (w.scan count (.ofNumber (w.slotAt n))).reads, place ≤ k)
    (whole : count = 0 → w.arrays.length ≤ k + 1) :
    other.scan count' (.ofNumber (other.slotAt n)) = w.scan count (.ofNumber (w.slotAt n)) := by
  induction count generalizing n count' with
  | zero =>
      have size := agrees.size (whole rfl)
      obtain rfl : count' = 0 := by omega
      rw [agrees.slotAt]
      exact congrArg (Reading.mk []) (agrees.boundary _)
  | succ count ih =>
      have inside : n < w.size := by omega
      rcases scan_succ_ok accepted inside ok with ⟨tick, lit, _⟩ | ⟨dark, ⟨position, moved⟩, further⟩
      · rw [scan_found accepted inside lit] at near ⊢
        have here := near _ List.mem_cons_self
        have inside' := agrees.inside here inside
        obtain ⟨count', rfl⟩ := Nat.exists_eq_add_one_of_ne_zero (n := count') (by omega)
        rw [← agrees.held here] at lit
        rw [scan_found accepted' inside' lit, agrees.slotAt, agrees.spacingNat]
      · rw [scan_dark accepted inside dark moved] at near ⊢
        have here := near _ List.mem_cons_self
        have inside' := agrees.inside here inside
        obtain ⟨count', rfl⟩ := Nat.exists_eq_add_one_of_ne_zero (n := count') (by omega)
        rw [← agrees.held here] at dark
        rw [← agrees.slotAt, ← agrees.direction, ← agrees.spacingNat] at moved
        have next : n + 1 + count = w.size := by omega
        have next' : n + 1 + count' = other.size := by omega
        have whole' : count = 0 → w.arrays.length ≤ k + 1 := fun last => by
          simp only [Window.size, ticksPerArray] at room here
          omega
        rw [scan_dark accepted' inside' dark moved,
          ih next next' further (fun place member => near place (List.mem_cons_of_mem _ member)) whole']

theorem next_initialized (accepted : w.IsAccepted) (accepted' : other.IsAccepted) {t : Int} {stop : Stop}
    (ok : (w.nextInitialized t).outcome = .ok stop) (near : ∀ place ∈ (w.nextInitialized t).reads, place ≤ k) :
    other.nextInitialized t = w.nextInitialized t := by
  obtain ⟨n, m, enters, ends⟩ := next_initialized_reads accepted ok
  have inside : n < w.size := lt_of_le_of_lt ends.forward ends.inside
  have here : n / ticksPerArray ≤ k :=
    near _ ((ends.spans _).mpr ⟨le_refl _, Nat.div_le_div_right ends.forward⟩)
  have inside' := agrees.inside here inside
  have enters' : other.slotAt n = other.entry t := by rw [agrees.slotAt, agrees.entry, enters]
  rw [next_initialized_eq accepted inside enters] at ok near ⊢
  rw [next_initialized_eq accepted' inside' enters']
  exact agrees.scan accepted accepted' (by omega) (by omega) ok near fun none => by omega

end AgreesTo

end Window

namespace SwapSetting

variable {setting : SwapSetting} {other : Window} {k : Nat}

-- Nothing but its searches reads the window of a run.
theorem Runs.agrees {state last : SwapState} {trail : SwapTrail} (agrees : setting.window.AgreesTo k other)
    (accepted : setting.window.IsAccepted) (accepted' : other.IsAccepted) (runs : setting.Runs state trail)
    (ending : trail.ending = .done last) (near : ∀ place ∈ trail.reads, place ≤ k) :
    { setting with window := other }.Runs state trail := by
  induction runs with
  | done state finished => exact .done state finished
  | lost state failure underWay search => cases ending
  | refused state stop cause underWay search leg => cases ending
  | turn leg rest step further ih =>
      have search := agrees.next_initialized accepted accepted' step.search fun place member =>
        near place (List.mem_append_left _ member)
      have found : (other.nextInitialized leg.before.tick).outcome = .ok leg.stop := by
        rw [search]
        exact step.search
      have later := ih ending fun place member => near place (List.mem_append_right _ member)
      rw [← search]
      exact .turn leg rest ⟨step.underWay, found, step.ok⟩ later

theorem Runs.trail_limit {state : SwapState} {trail : SwapTrail} (runs : setting.Runs state trail)
    (aligned : setting.order.direction = setting.window.direction) (accepted : setting.window.IsAccepted) :
    setting.trail setting.legLimit state = trail := by
  obtain ⟨trail', runs', bound⟩ := exists_run setting aligned accepted state
  obtain rfl := runs_unique runs runs'
  exact runs.trail_eq (le_trans bound (Nat.add_le_add_right (setting.window.pending_length_le state.tick) 2))

variable {pool : Pool} {window : Window} {order : SwapOrder} {rewards : Vector RewardInfo rewardCount}
  {start last : SwapState} {trail : SwapTrail}

theorem Runs.swap_done (aligned : order.direction = window.direction) (accepted : window.IsAccepted)
    (accrued : pool.rewardsAt order.timestamp = .ok rewards) (started : SwapState.start pool order = .ok start)
    (runs : Runs ⟨pool, window, order, rewards⟩ start trail) (ending : trail.ending = .done last) (journal : Journal) :
    swap pool window order journal =
      (.ok (result ⟨pool, window, order, rewards⟩ trail last (journal.crossings + trail.crossed.length)),
        ⟨journal.reads ++ trail.reads, journal.crossings + trail.crossed.length⟩) := by
  unfold swap
  rw [accrued, started]
  dsimp only
  rw [runs.trail_limit aligned accepted, ending]

end SwapSetting

section Swap

variable {pool : Pool} {window : Window} {order : SwapOrder} {result : SwapResult}
  (aligned : order.direction = window.direction) (accepted : window.IsAccepted)
  (ok : (swap pool window order .blank).1 = .ok result)

include aligned accepted ok

theorem swap_runs : ∃ rewards start trail last, pool.rewardsAt order.timestamp = .ok rewards ∧
    SwapState.start pool order = .ok start ∧ SwapSetting.Runs ⟨pool, window, order, rewards⟩ start trail ∧
      trail.ending = .done last := by
  obtain ⟨rewards, start, last, accrued, started, _, ending, _⟩ := swap_ok ok
  obtain ⟨trail, runs, _⟩ := SwapSetting.exists_run ⟨pool, window, order, rewards⟩ aligned accepted start
  rw [runs.trail_limit aligned accepted] at ending
  exact ⟨rewards, start, trail, last, accrued, started, runs, ending⟩

-- The arrays that a swap has read are the first ones; with nothing to do it reads none.
theorem swap_reads (starts : window.StartsAt pool.tickCurrent.toInt) :
    ∃ k, k < window.arrays.length ∧ Window.ReadsTo (swap pool window order .blank).2.reads k := by
  obtain ⟨rewards, start, trail, last, accrued, started, runs, ending⟩ := swap_runs aligned accepted ok
  rw [runs.swap_done aligned accepted accrued started ending .blank]
  obtain ⟨n, first, enters⟩ := starts.exists_slot accepted
  rw [← (SwapState.start_ok started).tick] at enters
  rcases runs.reads aligned accepted ending enters with nothing | ⟨m, _, inside, spans⟩
  · refine ⟨0, ?_, .inr ⟨nothing, rfl⟩⟩
    obtain ⟨_, array, head, _⟩ := starts
    exact List.length_pos_of_mem (List.mem_of_mem_head? head)
  · exact ⟨m / ticksPerArray, Window.place_lt inside, spans.reads_to first⟩

theorem swap_agrees {other : Window} {k : Nat} (agrees : window.AgreesTo k other)
    (accepted' : other.IsAccepted) (near : ∀ place ∈ (swap pool window order .blank).2.reads, place ≤ k) :
    swap pool other order .blank = swap pool window order .blank := by
  obtain ⟨rewards, start, trail, last, accrued, started, runs, ending⟩ := swap_runs aligned accepted ok
  have here := runs.swap_done aligned accepted accrued started ending .blank
  rw [here] at near ⊢
  have short : ∀ place ∈ trail.reads, place ≤ k := fun place member => near place (List.mem_append_right _ member)
  have runs' := runs.agrees agrees accepted accepted' ending short
  exact runs'.swap_done (aligned.trans agrees.direction.symm) accepted' accrued started ending .blank

end Swap

end PoolQuote
