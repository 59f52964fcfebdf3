import PoolQuote.Proofs.Consistency
import PoolQuote.Proofs.Window

/-!
What a search for the next initialized tick finds: the first one before the trade, or the end of the
window if none is left. A search that succeeds has every position on its way in the window, and one that
reports an error has not set out.
-/

set_option autoImplicit false

namespace PoolQuote.Window

def lastIndex (w : Window) : Int :=
  match w.direction with
  | .aToB => w.slotAt w.size * w.spacingNat + w.spacingNat
  | .bToA => w.slotAt w.size * w.spacingNat - 1

-- Where a walk ends that starts at the slot `n`.
inductive Ends (w : Window) (n : Nat) (stop : Stop) : Prop
  | found (m : Nat) (tick : Tick) (later : n ≤ m) (holds : w.held m = some tick) (initialized : tick.initialized)
      (first : ∀ k other, n ≤ k → k < m → w.held k = some other → ¬ other.initialized)
      (same : stop = ⟨w.slotAt m * w.spacingNat, some tick⟩)
  | none (empty : ∀ k other, n ≤ k → w.held k = some other → ¬ other.initialized)
      (same : stop = ⟨TickIndex.clamp w.lastIndex, none⟩)

theorem Ends.of_dark {w : Window} {n : Nat} {stop : Stop} (dark : ∀ other, w.held n = some other → ¬ other.initialized)
    (ends : w.Ends (n + 1) stop) : w.Ends n stop := by
  have later : ∀ k other, n ≤ k → w.held k = some other → (n + 1 ≤ k → ¬ other.initialized) → ¬ other.initialized := by
    intro k other least holds rest
    rcases Nat.eq_or_lt_of_le least with rfl | less
    · exact dark other holds
    · exact rest less
  cases ends with
  | found m tick least holds initialized first same =>
      refine .found m tick (by omega) holds initialized (fun k other reached before held => ?_) same
      exact later k other reached held fun next => first k other next before held
  | none empty same =>
      exact .none (fun k other reached held => later k other reached held fun next => empty k other next held) same

theorem boundary_ok {w : Window} {stop : Stop} (ok : w.boundary (.ofNumber (w.slotAt w.size)) = .ok stop) :
    stop = ⟨TickIndex.clamp w.lastIndex, none⟩ := by
  obtain ⟨t, read, ok⟩ := bind_ok ok
  obtain ⟨last, held, ok⟩ := bind_ok ok
  have same : ⟨TickIndex.clamp last, none⟩ = stop := Except.ok.inj ok
  rw [← same, (or_abort_ok held).2, TickPosition.to_tick_ok read]
  rfl

theorem tick_at_slot (w : Window) (n : Nat) :
    w.tickAt? (n / ticksPerArray) (w.slotAt n % ticksPerArray) = w.held n := by
  rw [tickAt?, if_neg (not_lt.mpr (Int.emod_nonneg _ (by decide)))]
  rfl

theorem initialized_at_slot (w : Window) (n : Nat) :
    w.initializedAt? (n / ticksPerArray) (TickPosition.ofNumber (w.slotAt n)).offset =
      (w.held n).filter Tick.initialized :=
  congrArg _ (w.tick_at_slot n)

theorem remaining_slot {w : Window} {n : Nat} (inside : n < w.size) :
    n + w.remaining (n / ticksPerArray) (w.slotAt n % ticksPerArray) = w.size := by
  unfold remaining slotAt opening
  unfold size at *
  cases w.direction <;> simp only [Direction.along, ticksPerArray] at * <;> omega

theorem ahead_eq {w : Window} {array : Int} {place : Nat} (ahead : w.ahead? array = some place) :
    array = w.direction.along w.firstArray place := by
  unfold ahead? at ahead
  cases direction : w.direction with
  | aToB =>
      simp only [direction, Option.ite_none_right_eq_some, Option.some.injEq] at ahead
      simp only [Direction.along]
      omega
  | bToA =>
      simp only [direction, Option.ite_none_right_eq_some, Option.some.injEq] at ahead
      simp only [Direction.along]
      omega

theorem search_entry_bounds (d : Direction) (spacing : Nat) (t : Int) :
    t ≤ searchEntry d spacing t ∧ searchEntry d spacing t ≤ t + spacing := by
  cases d <;> simp only [searchEntry] <;> omega

theorem entry_fits (w : Window) {t : Int} (upper : t ≤ TickIndex.maximum) :
    searchEntry w.direction w.spacingNat t ≤ Signed.greatest 32 := by
  have narrow : w.spacingNat < 2 ^ 16 := w.spacing.isLt
  have top : Signed.greatest 32 = 2147483647 := by decide
  have highest : TickIndex.maximum = 443636 := rfl
  have most := (search_entry_bounds w.direction w.spacingNat t).2
  omega

theorem search_entry_near {w : Window} (spaced : 0 < w.spacingNat) (t : Int) :
    t - w.spacingNat ≤ searchEntry w.direction w.spacingNat t / w.spacingNat * w.spacingNat ∧
      searchEntry w.direction w.spacingNat t / w.spacingNat * w.spacingNat ≤ t + w.spacingNat := by
  have positive : (0 : Int) < w.spacingNat := by exact_mod_cast spaced
  have bounds := search_entry_bounds w.direction w.spacingNat t
  have cut := Int.ediv_mul_le (searchEntry w.direction w.spacingNat t) (ne_of_gt positive)
  have next := Int.lt_ediv_add_one_mul_self (searchEntry w.direction w.spacingNat t) positive
  rw [add_mul, one_mul] at next
  omega

theorem exists_slot_of_ahead {w : Window} {m : Int} {place : Nat} (ahead : w.ahead? (TickPosition.ofNumber m).array = some place)
    (present : place < w.arrays.length) : ∃ n, n < w.size ∧ w.slotAt n = m ∧
      w.remaining place (TickPosition.ofNumber m).offset + n = w.size := by
  have offset : 0 ≤ m % ticksPerArray ∧ m % ticksPerArray < ticksPerArray := by
    simp only [ticksPerArray]
    omega
  obtain ⟨n, rfl, same⟩ := w.exists_slot place (m % ticksPerArray).toNat (by omega)
  have here : w.slotAt n = m := by
    rw [slot_at_eq, same, ← ahead_eq ahead, Int.toNat_of_nonneg offset.1]
    exact Int.ediv_mul_add_emod m ticksPerArray
  subst here
  have inside : n < w.size := by
    simp only [size, ticksPerArray] at *
    omega
  exact ⟨n, inside, rfl, (Nat.add_comm _ _).trans (remaining_slot inside)⟩

section Accepted

variable {w : Window} (accepted : w.IsAccepted)

include accepted

theorem ahead_inside {n : Nat} (inside : n < w.size) :
    w.ahead? (w.slotAt n / ticksPerArray) = some (n / ticksPerArray) := by
  have few := accepted.few
  rw [ahead_slot, if_pos]
  simp only [size, ticksPerArray] at *
  omega

theorem scan_found {count n : Nat} {tick : Tick} (inside : n < w.size)
    (lit : (w.held n).filter Tick.initialized = some tick) : w.scan (count + 1) (.ofNumber (w.slotAt n)) =
      ⟨[n / ticksPerArray], ((TickPosition.ofNumber (w.slotAt n)).toTick w.spacingNat).map fun t => ⟨t, some tick⟩⟩ := by
  have reach : w.ahead? (TickPosition.ofNumber (w.slotAt n)).array = some (n / ticksPerArray) := ahead_inside accepted inside
  have here := initialized_at_slot w n
  unfold scan
  simp only [reach, here, lit]

theorem scan_stuck {count n : Nat} {failure : Failure} (inside : n < w.size)
    (dark : (w.held n).filter Tick.initialized = none)
    (stuck : (TickPosition.ofNumber (w.slotAt n)).next w.direction w.spacingNat = .error failure) :
    w.scan (count + 1) (.ofNumber (w.slotAt n)) = ⟨[n / ticksPerArray], .error failure⟩ := by
  have reach : w.ahead? (TickPosition.ofNumber (w.slotAt n)).array = some (n / ticksPerArray) := ahead_inside accepted inside
  have here := initialized_at_slot w n
  unfold scan
  simp only [reach, here, dark, stuck]

theorem scan_dark {count n : Nat} {position : TickPosition} (inside : n < w.size)
    (dark : (w.held n).filter Tick.initialized = none)
    (moved : (TickPosition.ofNumber (w.slotAt n)).next w.direction w.spacingNat = .ok position) :
    w.scan (count + 1) (.ofNumber (w.slotAt n)) =
      ⟨n / ticksPerArray :: (w.scan count (.ofNumber (w.slotAt (n + 1)))).reads,
        (w.scan count (.ofNumber (w.slotAt (n + 1)))).outcome⟩ := by
  have reach : w.ahead? (TickPosition.ofNumber (w.slotAt n)).array = some (n / ticksPerArray) := ahead_inside accepted inside
  have here := initialized_at_slot w n
  have next : position = .ofNumber (w.slotAt (n + 1)) := by
    rw [TickPosition.next_ok moved, slot_at_succ]
  subst next
  conv => lhs; unfold scan
  simp only [reach, here, dark, moved]

theorem scan_succ_ok {count n : Nat} {stop : Stop} (inside : n < w.size)
    (ok : (w.scan (count + 1) (.ofNumber (w.slotAt n))).outcome = .ok stop) :
    (∃ tick, (w.held n).filter Tick.initialized = some tick ∧ stop = ⟨w.slotAt n * w.spacingNat, some tick⟩) ∨
      (w.held n).filter Tick.initialized = none ∧
        (∃ position, (TickPosition.ofNumber (w.slotAt n)).next w.direction w.spacingNat = .ok position) ∧
        (w.scan count (.ofNumber (w.slotAt (n + 1)))).outcome = .ok stop := by
  cases lit : (w.held n).filter Tick.initialized with
  | some tick =>
      rw [scan_found accepted inside lit] at ok
      cases found : (TickPosition.ofNumber (w.slotAt n)).toTick w.spacingNat with
      | error cause => rw [found] at ok; cases ok
      | ok t =>
          rw [found, TickPosition.to_tick_ok found] at ok
          exact .inl ⟨tick, rfl, (Except.ok.inj ok).symm⟩
  | none =>
      cases moved : (TickPosition.ofNumber (w.slotAt n)).next w.direction w.spacingNat with
      | error failure => rw [scan_stuck accepted inside lit moved] at ok; cases ok
      | ok position =>
          rw [scan_dark accepted inside lit moved] at ok
          exact .inr ⟨rfl, ⟨position, rfl⟩, ok⟩

theorem scan_ok {count n : Nat} {stop : Stop} (room : n + count = w.size)
    (ok : (w.scan count (.ofNumber (w.slotAt n))).outcome = .ok stop) : w.Ends n stop := by
  induction count generalizing n with
  | zero =>
      have last : n = w.size := room
      subst last
      exact .none (fun k tick later holds => absurd (held_lt holds) (not_lt.mpr later)) (boundary_ok ok)
  | succ count ih =>
      rcases scan_succ_ok accepted (by omega) ok with ⟨tick, lit, same⟩ | ⟨dark, _, further⟩
      · obtain ⟨holds, initialized⟩ := Option.filter_eq_some_iff.mp lit
        exact .found n tick (le_refl n) holds initialized (fun k _ later before => absurd later (not_le.mpr before)) same
      · refine .of_dark (fun other holds initialized => ?_) (ih (n := n + 1) (by omega) further)
        rw [holds, Option.filter_some, if_pos initialized] at dark
        cases dark

-- The position from which a search at the tick `t` starts, which words of 32 bits cut off at their greatest value.
def entry (w : Window) (t : Int) : Int :=
  min (searchEntry w.direction w.spacingNat t) (Signed.greatest 32) / w.spacingNat

theorem next_initialized_eq {t : Int} {n : Nat} (inside : n < w.size) (enters : w.slotAt n = w.entry t) :
    w.nextInitialized t = w.scan (w.size - n) (.ofNumber (w.slotAt n)) := by
  have entered : TickPosition.ofTick w.spacingNat (min (searchEntry w.direction w.spacingNat t) (Signed.greatest 32)) =
      .ok (.ofNumber (w.slotAt n)) := by
    rw [enters]
    exact TickPosition.of_tick_eq (Nat.ne_of_gt accepted.spaced) _
  have reach : w.ahead? (TickPosition.ofNumber (w.slotAt n)).array = some (n / ticksPerArray) := ahead_inside accepted inside
  have present : ¬ w.arrays.length ≤ n / ticksPerArray :=
    not_le.mpr (place_lt inside)
  have rest : w.remaining (n / ticksPerArray) (TickPosition.ofNumber (w.slotAt n)).offset = w.size - n :=
    Nat.eq_sub_of_add_eq' (remaining_slot inside)
  unfold nextInitialized
  simp only [entered, reach, if_neg present, rest]

omit accepted in
theorem exists_entry {t : Int} {stop : Stop} (ok : (w.nextInitialized t).outcome = .ok stop) :
    ∃ n, n < w.size ∧ w.slotAt n = w.entry t := by
  unfold nextInitialized at ok
  unfold Window.entry
  dsimp only at ok
  generalize min (searchEntry w.direction w.spacingNat t) (Signed.greatest 32) = entry at ok ⊢
  cases entered : TickPosition.ofTick w.spacingNat entry with
  | error cause => rw [entered] at ok; cases ok
  | ok position =>
      have number := TickPosition.of_tick_ok entered
      subst number
      rw [entered] at ok
      simp only at ok
      generalize entry / (w.spacingNat : Int) = m at ok ⊢
      cases ahead : w.ahead? (TickPosition.ofNumber m).array with
      | none =>
          rw [ahead] at ok
          obtain ⟨_, _, ok⟩ := bind_ok ok
          cases ok
      | some place =>
          rw [ahead] at ok
          simp only at ok
          split at ok
          · cases ok
          · rename_i present
            obtain ⟨n, inside, here, _⟩ := exists_slot_of_ahead ahead (not_le.mp present)
            exact ⟨n, inside, here⟩

theorem next_initialized_ends {t : Int} {stop : Stop} (ok : (w.nextInitialized t).outcome = .ok stop) :
    ∃ n, n < w.size ∧ w.slotAt n = w.entry t ∧ w.Ends n stop := by
  obtain ⟨n, inside, enters⟩ := exists_entry ok
  rw [next_initialized_eq accepted inside enters] at ok
  exact ⟨n, inside, enters, scan_ok accepted (Nat.add_sub_cancel' (Nat.le_of_lt inside)) ok⟩

omit accepted in
theorem entry_eq {t : Int} (upper : t ≤ TickIndex.maximum) :
    w.entry t = searchEntry w.direction w.spacingNat t / w.spacingNat := by
  rw [entry, min_eq_left (entry_fits w upper)]

theorem next_initialized_ok {t : Int} {stop : Stop} (upper : t ≤ TickIndex.maximum)
    (ok : (w.nextInitialized t).outcome = .ok stop) :
    ∃ n, n < w.size ∧ w.slotAt n = searchEntry w.direction w.spacingNat t / w.spacingNat ∧ w.Ends n stop := by
  have ended := next_initialized_ends accepted ok
  rw [entry_eq upper] at ended
  exact ended

theorem next_initialized_stores {t : Int} {stop : Stop} {tick : Tick}
    (ok : (w.nextInitialized t).outcome = .ok stop) (found : stop.tick = some tick) :
    w.Stores stop.index tick ∧ tick.initialized := by
  obtain ⟨n, _, _, ends⟩ := next_initialized_ends accepted ok
  cases ends with
  | found m record _ holds initialized _ same =>
      subst same
      cases found
      exact ⟨(stores_iff accepted _ _).mpr ⟨m, holds, rfl⟩, initialized⟩
  | none _ same =>
      subst same
      cases found

theorem leads_last_iff (n : Nat) : w.direction.Leads (w.slotAt n * w.spacingNat) w.lastIndex ↔ n < w.size := by
  have spaced : (0 : Int) < w.spacingNat := by exact_mod_cast accepted.spaced
  unfold lastIndex slotAt
  cases w.direction with
  | aToB =>
      simp only [Direction.Leads, Direction.along]
      have next : ∀ m : Int, m * w.spacingNat + w.spacingNat = (m + 1) * w.spacingNat := fun m => by ring
      rw [next, mul_le_mul_iff_of_pos_right spaced]
      omega
  | bToA =>
      simp only [Direction.Leads, Direction.along]
      rw [Int.le_sub_one_iff, mul_lt_mul_iff_of_pos_right spaced]
      omega

theorem ahead_iff (t m : Int) : w.direction.Ahead t (m * w.spacingNat) ↔
    w.direction.Leads (searchEntry w.direction w.spacingNat t / w.spacingNat) m := by
  have spaced : (0 : Int) < w.spacingNat := by exact_mod_cast accepted.spaced
  unfold searchEntry
  cases w.direction with
  | aToB => exact (Int.le_ediv_iff_mul_le spaced).symm
  | bToA =>
      simp only [Direction.Ahead, Direction.Leads]
      rw [Int.add_ediv_of_dvd_right (dvd_refl _), Int.ediv_self (ne_of_gt spaced), Int.add_one_le_iff]
      exact (Int.ediv_lt_iff_lt_mul spaced).symm

end Accepted

-- Where a search from the tick `t` stops.
structure IsNext (w : Window) (t : Int) (stop : Stop) : Prop where
  ahead : w.direction.Ahead t stop.index
  covers : ∀ u, (w.spacingNat : Int) ∣ u → w.direction.Ahead t u → w.direction.Leads u stop.index →
    ∃ tick, w.Stores u tick
  first : ∀ u tick, w.Stores u tick → tick.initialized → w.direction.Ahead t u →
    stop.tick ≠ none ∧ w.direction.Leads stop.index u
  found : ∀ tick, stop.tick = some tick → w.Stores stop.index tick ∧ tick.initialized
  ended : stop.tick = none → stop.index = TickIndex.clamp w.lastIndex

section Accepted

variable {w : Window} (accepted : w.IsAccepted)

include accepted

theorem slot_ahead_iff {t : Int} {n : Nat} (entry : w.slotAt n = searchEntry w.direction w.spacingNat t / w.spacingNat)
    (k : Nat) : w.direction.Ahead t (w.slotAt k * w.spacingNat) ↔ n ≤ k := by
  rw [ahead_iff accepted, ← entry]
  exact (Direction.leads_along_iff _ _ _ _).trans Int.ofNat_le

theorem exists_slot_ahead {t u : Int} {n : Nat}
    (entry : w.slotAt n = searchEntry w.direction w.spacingNat t / w.spacingNat) (divides : (w.spacingNat : Int) ∣ u)
    (ahead : w.direction.Ahead t u) : ∃ k, u = w.slotAt k * w.spacingNat := by
  obtain ⟨m, rfl⟩ := divides
  rw [mul_comm] at ahead
  have leads := (ahead_iff accepted t m).mp ahead
  rw [← entry] at leads
  obtain ⟨j, rfl⟩ := Direction.exists_along leads
  refine ⟨n + j, ?_⟩
  rw [slotAt, slotAt, Direction.along_along, mul_comm, Nat.cast_add]

theorem stores_slot {k : Nat} (inside : k < w.size) : ∃ tick, w.Stores (w.slotAt k * w.spacingNat) tick := by
  obtain ⟨tick, held⟩ := exists_held accepted inside
  exact ⟨tick, (stores_iff accepted _ tick).mpr ⟨k, held, rfl⟩⟩

theorem leads_of_first {t : Int} {n m : Nat} (entry : w.slotAt n = searchEntry w.direction w.spacingNat t / w.spacingNat)
    (first : ∀ k other, n ≤ k → k < m → w.held k = some other → ¬ other.initialized) {u : Int} {tick : Tick}
    (stored : w.Stores u tick) (lit : tick.initialized) (ahead : w.direction.Ahead t u) :
    w.direction.Leads (w.slotAt m * w.spacingNat) u := by
  obtain ⟨k, held, rfl⟩ := (stores_iff accepted u tick).mp stored
  have least := (slot_ahead_iff accepted entry k).mp ahead
  refine (slot_leads_iff accepted m k).mpr ?_
  by_contra before
  exact first k tick least (not_le.mp before) held lit

theorem not_ahead_of_empty {t : Int} {n : Nat} (entry : w.slotAt n = searchEntry w.direction w.spacingNat t / w.spacingNat)
    (empty : ∀ k other, n ≤ k → w.held k = some other → ¬ other.initialized) {u : Int} {tick : Tick}
    (stored : w.Stores u tick) (lit : tick.initialized) : ¬ w.direction.Ahead t u := by
  obtain ⟨k, held, rfl⟩ := (stores_iff accepted u tick).mp stored
  exact fun ahead => empty k tick ((slot_ahead_iff accepted entry k).mp ahead) held lit

theorem is_next_of_ends {t : Int} {n : Nat} {stop : Stop} (room : TickIndex.HasRoom w.direction t) (inside : n < w.size)
    (entry : w.slotAt n = searchEntry w.direction w.spacingNat t / w.spacingNat) (ends : w.Ends n stop) :
    w.IsNext t stop := by
  cases ends with
  | found m tick later holds initialized first same =>
      subst same
      refine ⟨(slot_ahead_iff accepted entry m).mpr later, fun u divides ahead leads => ?_,
        fun u other stored lit ahead => ⟨by simp, leads_of_first accepted entry first stored lit ahead⟩,
        fun other read => ?_, fun absent => absurd absent (by simp)⟩
      · obtain ⟨k, rfl⟩ := exists_slot_ahead accepted entry divides ahead
        have most := (slot_leads_iff accepted k m).mp leads
        exact stores_slot accepted (lt_of_le_of_lt most (held_lt holds))
      · cases read
        exact ⟨(stores_iff accepted _ tick).mpr ⟨m, holds, rfl⟩, initialized⟩
  | none empty same =>
      subst same
      have last : w.direction.Ahead t w.lastIndex := Direction.ahead_of_ahead_leads
        ((slot_ahead_iff accepted entry n).mpr (le_refl n)) ((leads_last_iff accepted n).mpr inside)
      have clamped := TickIndex.clamp_leads room last
      refine ⟨clamped.1, fun u divides ahead leads => ?_,
        fun u other stored lit ahead => absurd ahead (not_ahead_of_empty accepted entry empty stored lit),
        fun other read => absurd read (by simp), fun _ => rfl⟩
      obtain ⟨k, rfl⟩ := exists_slot_ahead accepted entry divides ahead
      exact stores_slot accepted ((leads_last_iff accepted k).mp (Direction.leads_trans leads clamped.2))

theorem next_initialized_is_next {t : Int} {stop : Stop} (room : TickIndex.HasRoom w.direction t)
    (ok : (w.nextInitialized t).outcome = .ok stop) : w.IsNext t stop := by
  have upper : t ≤ TickIndex.maximum := by
    revert room
    cases w.direction <;> simp only [TickIndex.HasRoom] <;> omega
  obtain ⟨n, inside, entry, ends⟩ := next_initialized_ok accepted upper ok
  exact is_next_of_ends accepted room inside entry ends

-- A search from anywhere short of a stop leads to the same stop.
theorem is_next_unique {t t' : Int} {stop stop' : Stop} (next : w.IsNext t stop) (next' : w.IsNext t' stop')
    (leads : w.direction.Leads t t') (short : w.direction.Ahead t' stop.index) : stop = stop' := by
  have sameTick : stop.tick = stop'.tick → stop.index = stop'.index → stop = stop' := by
    cases stop
    cases stop'
    rintro rfl rfl
    rfl
  cases here : stop.tick with
  | none =>
      cases there : stop'.tick with
      | none => exact sameTick (by rw [here, there]) (by rw [next.ended here, next'.ended there])
      | some tick' =>
          obtain ⟨stored, initialized⟩ := next'.found tick' there
          exact absurd here (next.first _ _ stored initialized (Direction.ahead_of_leads leads next'.ahead)).1
  | some tick =>
      obtain ⟨stored, initialized⟩ := next.found tick here
      obtain ⟨present, further⟩ := next'.first _ _ stored initialized short
      obtain ⟨tick', there⟩ := Option.ne_none_iff_exists'.mp present
      obtain ⟨stored', initialized'⟩ := next'.found tick' there
      have nearer := (next.first _ _ stored' initialized' (Direction.ahead_of_leads leads next'.ahead)).2
      have index := Direction.leads_antisymm nearer further
      rw [← index] at stored'
      exact sameTick (by rw [here, there, stores_unique accepted stored stored']) index

end Accepted

end PoolQuote.Window

namespace PoolQuote

namespace TickPosition

theorem to_tick_ne_error (spacing : Nat) (position : TickPosition) (cause : QuoteError) :
    position.toTick spacing ≠ .error (.error cause) :=
  bind_ne_error (or_abort_ne_error _ _ cause) fun _ _ =>
    bind_ne_error (or_abort_ne_error _ _ cause) fun _ _ => or_abort_ne_error _ _ cause

theorem next_ne_error (d : Direction) (spacing : Nat) (position : TickPosition) (cause : QuoteError) :
    position.next d spacing ≠ .error (.error cause) :=
  bind_ne_error (to_tick_ne_error spacing position cause) fun _ _ =>
    bind_ne_error (or_abort_ne_error _ _ cause) fun _ _ => or_abort_ne_error _ _ cause

end TickPosition

namespace Window

variable (w : Window)

theorem boundary_ne_error (past : TickPosition) (cause : QuoteError) : w.boundary past ≠ .error (.error cause) :=
  bind_ne_error (past.to_tick_ne_error _ cause) fun _ _ => bind_ne_error (or_abort_ne_error _ _ cause) fun _ _ => ok_ne_error

theorem scan_ne_error (n : Nat) (position : TickPosition) (cause : QuoteError) :
    (w.scan n position).outcome ≠ .error (.error cause) := by
  induction n generalizing position with
  | zero => exact w.boundary_ne_error position cause
  | succ n ih =>
      unfold scan
      split
      · exact w.boundary_ne_error position cause
      · split
        · cases read : position.toTick w.spacingNat with
          | ok t => exact ok_ne_error
          | error failure =>
              intro fails
              cases fails
              exact position.to_tick_ne_error _ cause read
        · split
          · rename_i failure moved
            intro fails
            cases fails
            exact position.next_ne_error _ _ cause moved
          · exact ih _

theorem next_initialized_error {t : Int} {cause : QuoteError}
    (fails : (w.nextInitialized t).outcome = .error (.error cause)) :
    (∃ u, cause = .invalidSequence (.searchOutside u)) ∨ ∃ place, cause = .tickArrayAbsent place := by
  unfold nextInitialized at fails
  dsimp only at fails
  split at fails
  · rename_i failure read
    cases fails
    exact absurd read (or_abort_ne_error _ _ cause)
  · rename_i position _
    split at fails
    · cases read : position.toTick w.spacingNat with
      | ok u =>
          rw [read] at fails
          cases fails
          exact .inl ⟨u, rfl⟩
      | error failure =>
          rw [read] at fails
          cases fails
          exact absurd read (position.to_tick_ne_error _ cause)
    · split at fails
      · cases fails
        exact .inr ⟨_, rfl⟩
      · exact absurd fails (w.scan_ne_error _ _ cause)

end Window

end PoolQuote
