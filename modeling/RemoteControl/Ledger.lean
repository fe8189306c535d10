import Mathlib.Algebra.Group.Pi.Basic
import Mathlib.Algebra.GroupWithZero.Nat

/-!
# Ledgers: what was taken and what was given back

Bookkeeping for resources that are acquired and released: references,
registrations, connections. A ledger counts, for every resource `r : ρ`, how
often it was taken and how often it was given back. Counting both, instead of
the difference, is what makes "given back exactly once" a statement.
-/

variable {ρ : Type} [DecidableEq ρ]

/-- How often each resource was taken, and how often it was given back. -/
@[ext] structure Ledger (ρ : Type) where
  /-- the acquisitions -/
  taken : ρ → ℕ
  /-- the releases -/
  given : ρ → ℕ

namespace Ledger

omit [DecidableEq ρ] in
/-- Nothing has happened yet. -/
def blank : Ledger ρ := ⟨fun _ => 0, fun _ => 0⟩

/-- Acquire `r` once more. -/
def take (l : Ledger ρ) (r : ρ) : Ledger ρ :=
  { l with taken := l.taken + Pi.single r 1 }

/-- Give `r` back once. -/
def give (l : Ledger ρ) (r : ρ) : Ledger ρ :=
  { l with given := l.given + Pi.single r 1 }

/-- Every acquisition has been given back, and no more than that. -/
def Balanced (l : Ledger ρ) : Prop :=
  l.taken = l.given

/-- Exactly the resources in `rs` are held, each as often as it is listed. -/
def Holds (l : Ledger ρ) (rs : List ρ) : Prop :=
  l.taken = l.given + (rs.map fun r => Pi.single r 1).sum

@[simp] theorem taken_take (l : Ledger ρ) (r : ρ) :
    (l.take r).taken = l.taken + Pi.single r 1 := rfl

@[simp] theorem given_take (l : Ledger ρ) (r : ρ) : (l.take r).given = l.given := rfl

@[simp] theorem taken_give (l : Ledger ρ) (r : ρ) : (l.give r).taken = l.taken := rfl

@[simp] theorem given_give (l : Ledger ρ) (r : ρ) :
    (l.give r).given = l.given + Pi.single r 1 := rfl

omit [DecidableEq ρ] in
theorem blank_balanced : (blank : Ledger ρ).Balanced := rfl

@[simp] theorem holds_nil {l : Ledger ρ} : l.Holds [] ↔ l.Balanced := by
  simp [Holds, Balanced]

/-- What is held, resource by resource. -/
theorem Holds.taken_eq {l : Ledger ρ} {rs : List ρ} (h : l.Holds rs) (r : ρ) :
    l.taken r = l.given r + rs.count r := by
  have hsum : ∀ rs : List ρ, (rs.map fun r => (Pi.single r 1 : ρ → ℕ)).sum r = rs.count r := by
    intro rs
    induction rs with
    | nil => rfl
    | cons r' rs ih =>
      rw [List.map_cons, List.sum_cons, Pi.add_apply, ih]
      by_cases hr : r' = r
      · rw [hr, Pi.single_eq_same, List.count_cons_self, Nat.add_comm]
      · rw [Pi.single_eq_of_ne' hr, List.count_cons_of_ne hr, Nat.zero_add]
  rw [show l.taken = _ from h, Pi.add_apply, hsum]

/-- What is listed as held is held. -/
theorem Holds.lt {l : Ledger ρ} {rs : List ρ} (h : l.Holds rs) {r : ρ} (hr : r ∈ rs) :
    l.given r < l.taken r := by
  rw [h.taken_eq]
  exact Nat.lt_add_of_pos_right (List.count_pos_iff.mpr hr)

theorem Balanced.take {l : Ledger ρ} (h : l.Balanced) (r : ρ) : (l.take r).Holds [r] := by
  simp [Holds, show l.taken = l.given from h]

theorem Holds.give {l : Ledger ρ} {r : ρ} (h : l.Holds [r]) : (l.give r).Balanced := by
  simpa [Holds, Balanced] using h

end Ledger
