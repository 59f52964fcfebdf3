import PoolQuote.Direction
import Mathlib.Order.MinMax

/-!
The order in which a trade meets prices and ticks. A trade from `a` to `b` goes down, one from `b`
to `a` goes up; both are laws of one relation, so that nothing later is proved twice.
-/

set_option autoImplicit false

namespace PoolQuote.Direction

-- A trade in direction `d` that stands at `x` has `y` before it or is there.
def Leads {α : Type} [LE α] (d : Direction) (x y : α) : Prop :=
  match d with
  | aToB => y ≤ x
  | bToA => x ≤ y

instance {α : Type} [LE α] [DecidableLE α] (d : Direction) (x y : α) : Decidable (d.Leads x y) :=
  match d with
  | aToB => inferInstanceAs (Decidable (y ≤ x))
  | bToA => inferInstanceAs (Decidable (x ≤ y))

def Before {α : Type} [LT α] (d : Direction) (x y : α) : Prop :=
  match d with
  | aToB => y < x
  | bToA => x < y

-- A price at tick `t` lies between the ticks `t` and `t + 1`: going down it meets `t` next, going up `t + 1`.
def Ahead (d : Direction) (t u : Int) : Prop :=
  match d with
  | aToB => u ≤ t
  | bToA => t < u

instance (d : Direction) (t u : Int) : Decidable (Ahead d t u) :=
  match d with
  | aToB => inferInstanceAs (Decidable (u ≤ t))
  | bToA => inferInstanceAs (Decidable (t < u))

def past (d : Direction) (u : Int) : Int :=
  match d with
  | aToB => u - 1
  | bToA => u

def Passes (d : Direction) (t t' u : Int) : Prop :=
  match d with
  | aToB => t' < u ∧ u ≤ t
  | bToA => t < u ∧ u ≤ t'

instance (d : Direction) (t t' u : Int) : Decidable (d.Passes t t' u) :=
  match d with
  | aToB => inferInstanceAs (Decidable (t' < u ∧ u ≤ t))
  | bToA => inferInstanceAs (Decidable (t < u ∧ u ≤ t'))

def along (d : Direction) (x n : Int) : Int :=
  match d with
  | aToB => x - n
  | bToA => x + n

def nearer {α : Type} [LinearOrder α] (d : Direction) (x y : α) : α :=
  match d with
  | aToB => max x y
  | bToA => min x y

section Order

variable {α : Type} [PartialOrder α]

theorem leads_refl (d : Direction) (x : α) : d.Leads x x := by
  cases d <;> exact le_refl x

theorem leads_trans {d : Direction} {x y z : α} (first : d.Leads x y) (second : d.Leads y z) :
    d.Leads x z := by
  cases d with
  | aToB => exact le_trans second first
  | bToA => exact le_trans first second

theorem leads_antisymm {d : Direction} {x y : α} (there : d.Leads x y) (back : d.Leads y x) : x = y := by
  cases d with
  | aToB => exact le_antisymm back there
  | bToA => exact le_antisymm there back

theorem before_iff {d : Direction} {x y : α} : d.Before x y ↔ d.Leads x y ∧ x ≠ y := by
  cases d with
  | aToB => exact lt_iff_le_and_ne.trans (and_congr_right' ne_comm)
  | bToA => exact lt_iff_le_and_ne

theorem leads_opposite {d : Direction} {x y : α} : d.opposite.Leads x y ↔ d.Leads y x := by
  cases d <;> exact Iff.rfl

end Order

theorem leads_total {α : Type} [LinearOrder α] (d : Direction) (x y : α) :
    d.Leads x y ∨ d.Leads y x := by
  cases d with
  | aToB => exact le_total y x
  | bToA => exact le_total x y

theorem leads_nearer_iff {α : Type} [LinearOrder α] {d : Direction} {x y z : α} :
    d.Leads x (d.nearer y z) ↔ d.Leads x y ∧ d.Leads x z := by
  cases d with
  | aToB => exact max_le_iff
  | bToA => exact le_min_iff

theorem nearer_leads {α : Type} [LinearOrder α] (d : Direction) (x y : α) :
    d.Leads (d.nearer x y) x ∧ d.Leads (d.nearer x y) y :=
  leads_nearer_iff.mp (d.leads_refl _)

theorem nearer_eq {α : Type} [LinearOrder α] (d : Direction) (x y : α) : d.nearer x y = x ∨ d.nearer x y = y := by
  cases d with
  | aToB => exact max_choice x y
  | bToA => exact min_choice x y

theorem not_leads_iff {α : Type} [LinearOrder α] {d : Direction} {x y : α} : ¬ d.Leads x y ↔ d.Before y x := by
  cases d <;> exact not_le

theorem ahead_opposite {d : Direction} {t u : Int} : d.opposite.Ahead t u ↔ ¬ d.Ahead t u := by
  cases d <;> simp only [opposite, Ahead] <;> omega

theorem ahead_of_leads {d : Direction} {t t' u : Int} (leads : d.Leads t t') (ahead : d.Ahead t' u) :
    d.Ahead t u := by
  cases d <;> simp only [Leads, Ahead] at * <;> omega

theorem ahead_of_ahead_leads {d : Direction} {t u v : Int} (ahead : d.Ahead t u) (leads : d.Leads u v) :
    d.Ahead t v := by
  cases d <;> simp only [Leads, Ahead] at * <;> omega

theorem before_of_ahead {d : Direction} {t u v : Int} (behind : ¬ d.Ahead t u) (ahead : d.Ahead t v) : d.Before u v := by
  cases d <;> simp only [Before, Ahead] at * <;> omega

theorem leads_past {d : Direction} {t u : Int} (ahead : d.Ahead t u) : d.Leads t (d.past u) := by
  cases d <;> simp only [Leads, Ahead, past] at * <;> omega

theorem not_ahead_past (d : Direction) (u : Int) : ¬ d.Ahead (d.past u) u := by
  cases d <;> simp only [Ahead, past] <;> omega

theorem leads_of_not_ahead_past {d : Direction} {u v : Int} (behind : ¬ d.Ahead (d.past u) v) :
    d.Leads v u := by
  cases d <;> simp only [Ahead, past, Leads] at * <;> omega

theorem leads_past_opposite {d : Direction} {t u : Int} (ahead : d.Ahead t u) : d.Leads t (d.opposite.past u) := by
  cases d <;> simp only [opposite, Leads, Ahead, past] at * <;> omega

theorem before_of_not_ahead_past_opposite {d : Direction} {u v : Int} (behind : ¬ d.Ahead (d.opposite.past u) v) :
    d.Before v u := by
  cases d <;> simp only [opposite, Before, Ahead, past] at * <;> omega

theorem along_opposite (d : Direction) (x n : Int) : d.opposite.along (d.along x n) n = x := by
  cases d <;> simp only [opposite, along] <;> omega

theorem passes_iff {d : Direction} {t t' u : Int} : d.Passes t t' u ↔ d.Ahead t u ∧ ¬ d.Ahead t' u := by
  cases d <;> simp only [Passes, Ahead] <;> omega

theorem passes_trans {d : Direction} {t t' t'' u : Int} (first : d.Leads t t') (second : d.Leads t' t'') :
    d.Passes t t'' u ↔ d.Passes t t' u ∨ d.Passes t' t'' u := by
  cases d <;> simp only [Passes, Leads] at * <;> omega

theorem along_zero (d : Direction) (x : Int) : d.along x 0 = x := by
  cases d <;> simp only [along] <;> omega

theorem along_along (d : Direction) (x m n : Int) : d.along (d.along x m) n = d.along x (m + n) := by
  cases d <;> simp only [along] <;> omega

theorem along_mul (d : Direction) (x n k : Int) : d.along (x * k) (n * k) = d.along x n * k := by
  cases d with
  | aToB => exact (Int.sub_mul x n k).symm
  | bToA => exact (Int.add_mul x n k).symm

theorem leads_ediv {d : Direction} {x y span : Int} (wide : 0 < span) (leads : d.Leads x y) :
    d.Leads (x / span) (y / span) := by
  cases d <;> exact Int.ediv_le_ediv wide leads

theorem leads_along_iff (d : Direction) (x m n : Int) : d.Leads (d.along x m) (d.along x n) ↔ m ≤ n := by
  cases d <;> simp only [Leads, along] <;> omega

theorem exists_along {d : Direction} {x y : Int} (leads : d.Leads x y) : ∃ n : Nat, y = d.along x n := by
  cases d with
  | aToB => exact ⟨(x - y).toNat, by simp only [Leads, along] at *; omega⟩
  | bToA => exact ⟨(y - x).toNat, by simp only [Leads, along] at *; omega⟩

theorem of_token_token (d : Direction) (side : Side) : Direction.ofToken (d.token side) side = d := by
  cases d <;> cases side <;> rfl

end PoolQuote.Direction
