import PoolQuote.Error

/-!
What a computation that succeeds has gone through, which failures it cannot end in, and when two computations
end alike.
-/

set_option autoImplicit false

namespace PoolQuote

theorem bind_ok {ε α β : Type} {x : Except ε α} {f : α → Except ε β} {r : β} (ok : x >>= f = .ok r) :
    ∃ value, x = .ok value ∧ f value = .ok r := by
  cases x with
  | error cause => cases ok
  | ok value => exact ⟨value, rfl, ok⟩

theorem bind_ite_ok {ε α β : Type} {c : Prop} [Decidable c] {x y : Except ε α} {f : α → Except ε β} {r : β}
    (ok : (if c then x >>= f else y >>= f) = .ok r) :
    ∃ value, (if c then x else y) = .ok value ∧ f value = .ok r := by
  split at ok
  · rename_i yes
    rw [if_pos yes]
    exact bind_ok ok
  · rename_i no
    rw [if_neg no]
    exact bind_ok ok

theorem guard_ok {ε α β : Type} {c : Prop} [Decidable c] {cause : ε} {f : β → Except ε α} {x : Except ε α} {r : α}
    (ok : (if c then (throw cause >>= f) else x) = .ok r) : ¬ c ∧ x = .ok r := by
  split at ok
  · cases ok
  · rename_i passed
    exact ⟨passed, ok⟩

theorem else_ok {ε α : Type} {c : Prop} [Decidable c] {cause : ε} {x : Except ε α} {r : α}
    (ok : (if c then .error cause else x) = .ok r) : ¬ c ∧ x = .ok r := by
  split at ok
  · cases ok
  · rename_i passed
    exact ⟨passed, ok⟩

theorem then_ok {ε α : Type} {c : Prop} [Decidable c] {cause : ε} {x : Except ε α} {r : α}
    (ok : (if c then x else .error cause) = .ok r) : c ∧ x = .ok r := by
  split at ok
  · rename_i holds
    exact ⟨holds, ok⟩
  · cases ok

theorem or_abort_ok {α : Type} {p : Prop} [Decidable p] {value result : α} (ok : orAbort p value = .ok result) :
    p ∧ result = value := by
  unfold orAbort at ok
  split at ok
  · rename_i holds
    exact ⟨holds, (Except.ok.inj ok).symm⟩
  · cases ok

theorem lift_ok {α : Type} {x : Except QuoteError α} {value : α} (ok : (liftM x : Outcome α) = .ok value) :
    x = .ok value := by
  cases x with
  | error cause => cases ok
  | ok result => exact congrArg Except.ok (Except.ok.inj ok)

theorem bind_of_ok {ε α β : Type} {x : Except ε α} {f : α → Except ε β} {value : α} {r : Except ε β}
    (first : x = .ok value) (rest : f value = r) : x >>= f = r := by
  rw [first]
  exact rest

theorem lift_of_ok {α : Type} {x : Except QuoteError α} {value : α} (ok : x = .ok value) :
    (liftM x : Outcome α) = .ok value := by
  rw [ok]
  rfl

theorem bind_error {ε α β : Type} {x : Except ε α} {f : α → Except ε β} {cause : ε} (fails : x >>= f = .error cause) :
    x = .error cause ∨ ∃ value, x = .ok value ∧ f value = .error cause := by
  cases x with
  | error other => exact .inl (congrArg Except.error (Except.error.inj fails))
  | ok value => exact .inr ⟨value, rfl, fails⟩

theorem bind_ite_error {ε α β : Type} {c : Prop} [Decidable c] {x y : Except ε α} {f : α → Except ε β} {cause : ε}
    (fails : (if c then x >>= f else y >>= f) = .error cause) :
    (if c then x else y) = .error cause ∨ ∃ value, (if c then x else y) = .ok value ∧ f value = .error cause := by
  rw [← apply_ite (fun z : Except ε α => z >>= f)] at fails
  exact bind_error fails

theorem exists_ok {ε α β : Type} {x : Except ε α} {view : α → β} {seen : β} (run : x.toOption.map view = some seen) :
    ∃ value, x = .ok value ∧ view value = seen := by
  cases x with
  | error cause => cases run
  | ok value => exact ⟨value, rfl, Option.some.inj run⟩

theorem view_of_ok {ε α β : Type} {x : Except ε α} {value : α} {view : α → β} {seen : β}
    (run : x.toOption.map view = some seen) (ok : x = .ok value) : view value = seen := by
  rw [ok] at run
  exact Option.some.inj run

section Cause

variable {ε α β : Type} {cause : ε}

theorem ok_ne_error {value : α} : (Except.ok value : Except ε α) ≠ .error cause := by
  simp

theorem bind_ne_error {x : Except ε α} {f : α → Except ε β} (first : x ≠ .error cause)
    (rest : ∀ value, x = .ok value → f value ≠ .error cause) : x >>= f ≠ .error cause := by
  cases x with
  | error other => exact fun same => first (congrArg Except.error (Except.error.inj same))
  | ok value => exact rest value rfl

theorem ite_ne_error {c : Prop} [Decidable c] {x y : Except ε α} (first : x ≠ .error cause)
    (second : y ≠ .error cause) : (if c then x else y) ≠ .error cause := by
  split
  · exact first
  · exact second

theorem bind_ite_ne_error {c : Prop} [Decidable c] {x y : Except ε α} {f : α → Except ε β}
    (first : (if c then x else y) ≠ .error cause)
    (rest : ∀ value, (if c then x else y) = .ok value → f value ≠ .error cause) :
    (if c then x >>= f else y >>= f) ≠ .error cause := by
  rw [← apply_ite (fun z : Except ε α => z >>= f)]
  exact bind_ne_error first rest

theorem guard_ne_error {c : Prop} [Decidable c] {raised : ε} {f : β → Except ε α} {x : Except ε α}
    (other : c → raised ≠ cause) (passed : ¬ c → x ≠ .error cause) :
    (if c then (throw raised >>= f) else x) ≠ .error cause := by
  split
  · rename_i refused
    exact fun same => other refused (Except.error.inj same)
  · rename_i holds
    exact passed holds

end Cause

section Lift

variable {α β : Type}

-- A computation on words that does what one on numbers does, step by step.
theorem bind_eq_lift {x : Except QuoteError α} {y : Outcome α} {f : α → Except QuoteError β} {g : α → Outcome β}
    (first : y = liftM x) (rest : ∀ value, x = .ok value → g value = liftM (f value)) : y >>= g = liftM (x >>= f) := by
  subst first
  cases x with
  | error cause => rfl
  | ok value => exact rest value rfl

theorem bind_ite_eq_lift {c : Prop} [Decidable c] {x x' : Except QuoteError α} {y y' : Outcome α}
    {f : α → Except QuoteError β} {g : α → Outcome β} (first : c → y = liftM x) (second : ¬ c → y' = liftM x')
    (rest : ∀ value, (if c then x else x') = .ok value → g value = liftM (f value)) :
    (if c then y >>= g else y' >>= g) = liftM (if c then x >>= f else x' >>= f) := by
  by_cases holds : c
  · rw [if_pos holds] at rest
    rw [if_pos holds, if_pos holds]
    exact bind_eq_lift (first holds) rest
  · rw [if_neg holds] at rest
    rw [if_neg holds, if_neg holds]
    exact bind_eq_lift (second holds) rest

theorem guard_eq_lift {c : Prop} [Decidable c] {cause : QuoteError} {f : β → Except QuoteError α} {g : β → Outcome α}
    {x : Except QuoteError α} {y : Outcome α} (rest : ¬ c → y = liftM x) :
    (if c then (throw (.error cause) >>= g) else y) = liftM (if c then (throw cause >>= f) else x) := by
  by_cases holds : c
  · rw [if_pos holds, if_pos holds]
    rfl
  · rw [if_neg holds, if_neg holds]
    exact rest holds

theorem bind_congr_ok {ε : Type} {x : Except ε α} {f g : α → Except ε β} (rest : ∀ value, x = .ok value → f value = g value) :
    x >>= f = x >>= g := by
  cases x with
  | error cause => rfl
  | ok value => exact rest value rfl

theorem guard_congr {ε : Type} {c : Prop} [Decidable c] {cause : ε} {f g : β → Except ε α} {x y : Except ε α}
    (rest : ¬ c → x = y) : (if c then (throw cause >>= f) else x) = (if c then (throw cause >>= g) else y) := by
  split
  · rfl
  · rename_i passed
    exact rest passed

theorem ok_bind {ε : Type} {value : α} {f : α → Except ε β} : (Except.ok value >>= f) = f value :=
  rfl

theorem or_abort_bind {p : Prop} [Decidable p] {value : α} {f : α → Outcome β} (holds : p) :
    orAbort p value >>= f = f value := by
  rw [orAbort, if_pos holds]
  rfl

end Lift

theorem lift_ne_abort {α : Type} (x : Except QuoteError α) : (liftM x : Outcome α) ≠ .error .abort := by
  cases x <;> exact fun aborts => by cases aborts

theorem lift_ne_error {α : Type} {x : Except QuoteError α} {cause : QuoteError} (other : x ≠ .error cause) :
    (liftM x : Outcome α) ≠ .error (.error cause) := by
  cases x with
  | error raised => exact fun same => other (congrArg Except.error (Failure.error.inj (Except.error.inj same)))
  | ok value => exact ok_ne_error

theorem or_abort_ne_error {α : Type} (p : Prop) [Decidable p] (value : α) (cause : QuoteError) :
    orAbort p value ≠ .error (.error cause) :=
  ite_ne_error ok_ne_error (by simp)

-- Two computations that fail with the same cause or end in values that are related.
inductive Matches {ε α β : Type} (related : α → β → Prop) : Except ε α → Except ε β → Prop
  | error (cause : ε) : Matches related (.error cause) (.error cause)
  | ok (value : α) (other : β) (both : related value other) : Matches related (.ok value) (.ok other)

namespace Matches

variable {ε α β γ δ : Type} {related : α → β → Prop} {next : γ → δ → Prop}

theorem self {both : α → α → Prop} (each : ∀ value, both value value) (x : Except ε α) : Matches both x x := by
  cases x with
  | error cause => exact .error cause
  | ok value => exact .ok value value (each value)

theorem refl (x : Except ε α) : Matches Eq x x :=
  self (fun _ => rfl) x

theorem of_eq {x y : Except ε α} (same : x = y) : Matches Eq x y := by
  subst same
  exact refl x

theorem eq {x y : Except ε α} (both : Matches Eq x y) : x = y := by
  cases both with
  | error cause => rfl
  | ok value other same => rw [same]

theorem of_error {cause : ε} {y : Except ε β} (both : Matches related (.error cause) y) : y = .error cause := by
  cases both
  rfl

theorem of_ok {value : α} {y : Except ε β} (both : Matches related (.ok value) y) :
    ∃ other, y = .ok other ∧ related value other := by
  cases both with
  | ok _ other same => exact ⟨other, rfl, same⟩

theorem bind {x : Except ε α} {y : Except ε β} {f : α → Except ε γ} {g : β → Except ε δ}
    (first : Matches related x y) (rest : ∀ value other, related value other → Matches next (f value) (g other)) :
    Matches next (x >>= f) (y >>= g) := by
  cases first with
  | error cause => exact .error cause
  | ok value other both => exact rest value other both

theorem with_ok {x : Except ε α} {y : Except ε β} (both : Matches related x y) :
    Matches (fun value other => related value other ∧ x = .ok value ∧ y = .ok other) x y := by
  cases both with
  | error cause => exact .error cause
  | ok value other same => exact .ok value other ⟨same, rfl, rfl⟩

theorem guard {c c' : Prop} [Decidable c] [Decidable c'] {cause : ε} {f : α → Except ε γ} {g : β → Except ε δ}
    {x : Except ε γ} {y : Except ε δ} (same : c ↔ c') (rest : Matches next x y) :
    Matches next (if c then (throw cause >>= f) else x) (if c' then (throw cause >>= g) else y) := by
  by_cases holds : c
  · rw [if_pos holds, if_pos (same.mp holds)]
    exact .error cause
  · rw [if_neg holds, if_neg (fun other => holds (same.mpr other))]
    exact rest

theorem lift {x : Except QuoteError α} {y : Except QuoteError β} (both : Matches related x y) :
    Matches related (liftM x : Outcome α) (liftM y : Outcome β) := by
  cases both with
  | error cause => exact .error (Failure.error cause)
  | ok value other same => exact .ok value other same

end Matches

end PoolQuote
