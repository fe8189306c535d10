import Mathlib.Data.List.Nodup

/-!
# Rosters: who is subscribed, in order of subscription

The abstract meaning of a list of listeners. A `Roster` is a list without
repetitions, and the invariant is a field: joining twice or leaving twice is
harmless *by construction*, and no later proof has to re-establish it. A history
of joins and leaves determines the roster (`Roster.after`), which is what "the
subscribers at that moment" means independently of any implementation.
-/

variable {ν : Type}

/-- The subscribers, each once, in the order in which they joined. -/
@[ext] structure Roster (ν : Type) where
  /-- the subscribers, oldest first -/
  members : List ν
  /-- nobody is subscribed twice -/
  nodup : members.Nodup

namespace Roster

/-- Nobody is subscribed. -/
def empty : Roster ν := ⟨[], List.nodup_nil⟩

variable [DecidableEq ν]

/-- Subscribe at the end; a no-op for a subscriber. -/
def join (r : Roster ν) (n : ν) : Roster ν :=
  if h : n ∈ r.members then r
  else ⟨r.members ++ [n], List.nodup_append.mpr
    ⟨r.nodup, List.nodup_singleton n, fun a ha b hb => by
      obtain rfl := List.mem_singleton.mp hb
      exact fun hab => h (hab ▸ ha)⟩⟩

/-- Unsubscribe; a no-op for a stranger. -/
def leave (r : Roster ν) (n : ν) : Roster ν :=
  ⟨r.members.erase n, r.nodup.erase n⟩

theorem join_of_mem {r : Roster ν} {n : ν} (h : n ∈ r.members) : r.join n = r := by
  rw [join, dif_pos h]

theorem members_join_of_not_mem {r : Roster ν} {n : ν} (h : n ∉ r.members) :
    (r.join n).members = r.members ++ [n] := by
  rw [join, dif_neg h]

@[simp] theorem members_leave (r : Roster ν) (n : ν) :
    (r.leave n).members = r.members.erase n := rfl

/-- One entry of a subscription history. -/
inductive Change (ν : Type) where
  /-- somebody joins -/
  | join (n : ν) : Change ν
  /-- somebody leaves -/
  | leave (n : ν) : Change ν
  /-- everybody is dismissed -/
  | clear : Change ν

/-- The effect of one entry. -/
def change (r : Roster ν) : Change ν → Roster ν
  | .join n => r.join n
  | .leave n => r.leave n
  | .clear => empty

/-- The roster after a history of changes, from an empty start. -/
def after (history : List (Change ν)) : Roster ν :=
  history.foldl change empty

@[simp] theorem after_nil : after ([] : List (Change ν)) = empty := rfl

theorem after_append (history more : List (Change ν)) :
    after (history ++ more) = more.foldl change (after history) := by
  rw [after, List.foldl_append, after]

end Roster
