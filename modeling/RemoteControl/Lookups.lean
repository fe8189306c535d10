import Mathlib.Algebra.Group.Nat.Defs
import Mathlib.Data.Int.Notation
import Mathlib.Tactic.Common
import RemoteControl.Searching

/-!
# Looking up a text without regard to case

The helpers that look for a string in another one, and compare strings, up to the case
of their characters. All of them ask one search, whose answer for "not found" is the end
of the string.

* `find_substr_ci`, `contains`, `equal`, `stringContains`.
* `lookups_right_iff` — they answer what they should of all strings, except of two that
  are both empty: there the place found is the end, and is taken for "not found".
-/

namespace RemoteControl.Utils

open Searching

variable {α : Type} [DecidableEq α] (toupper : α → α)

/-- The characters are the same in upper case: `loc_equal`. -/
def loc_equal (ch1 ch2 : α) : Prop := toupper ch1 = toupper ch2

instance : DecidableRel (loc_equal toupper) :=
  fun ch1 ch2 => inferInstanceAs (Decidable (toupper ch1 = toupper ch2))

/-- `find_substr_ci`. The difference of two iterators is narrowed to an `int`. -/
def find_substr_ci (string substring : List α) : ℤ :=
  let it := search (loc_equal toupper) substring string
  if it ≠ string.length then (it : ℤ).bmod (2 ^ 32) else -1

/-- `contains`. -/
def contains (string substring : List α) : Bool :=
  let pos := find_substr_ci toupper string substring
  pos ≠ -1

/-- `equal`. -/
def equal (string string2 : List α) : Bool :=
  let pos := find_substr_ci toupper string string2
  pos = 0 ∧ string.length = string2.length

/-- `stringContains`. -/
def stringContains (s1 s2 : List α) : Bool :=
  search (loc_equal toupper) s2 s1 ≠ s1.length

variable {toupper}

/-- What the helpers should answer of two strings. -/
structure LookupsRight (toupper : α → α) (a b : List α) : Prop where
  /-- equality is equality in upper case -/
  equal_iff : equal toupper a b ↔ List.Forall₂ (loc_equal toupper) a b
  /-- to contain is to contain somewhere -/
  contains_iff : contains toupper a b ↔ ∃ i, OccursAt (loc_equal toupper) a b i
  /-- the position is the least one -/
  find_iff : ∀ i : ℕ, find_substr_ci toupper a b = i ↔
    OccursAt (loc_equal toupper) a b i ∧ ∀ j < i, ¬ OccursAt (loc_equal toupper) a b j
  /-- `-1` is for no position -/
  find_none : find_substr_ci toupper a b = -1 ↔ ∀ i, ¬ OccursAt (loc_equal toupper) a b i
  /-- the other implementation agrees -/
  stringContains_eq : stringContains toupper a b = contains toupper a b

/-! ## The answers -/

section

variable {a b : List α}

omit [DecidableEq α] in
/-- Strings are equal but for case if they are equal in upper case. -/
theorem forall₂_loc_equal :
    List.Forall₂ (loc_equal toupper) a b ↔ a.map toupper = b.map toupper := by
  rw [← List.forall₂_eq_eq_eq, List.forall₂_map_left_iff, List.forall₂_map_right_iff]
  rfl

/-- A place in a string that is not too long is not changed by the narrowing. -/
theorem find_substr_ci_eq (ha : a.length < 2 ^ 31) :
    find_substr_ci toupper a b =
      if search (loc_equal toupper) b a ≠ a.length then (search (loc_equal toupper) b a : ℤ)
      else -1 := by
  have hle : search (loc_equal toupper) b a ≤ a.length := search_le b a
  have hmod : (search (loc_equal toupper) b a : ℤ).bmod (2 ^ 32) =
      search (loc_equal toupper) b a := by
    apply Int.bmod_eq_of_le <;> omega
  simp only [find_substr_ci, hmod]

/-- `-1` is the end of the string. -/
theorem find_substr_ci_eq_neg_one (ha : a.length < 2 ^ 31) :
    find_substr_ci toupper a b = -1 ↔ search (loc_equal toupper) b a = a.length := by
  rw [find_substr_ci_eq ha]
  constructor
  · intro h
    by_contra hne
    rw [if_pos hne] at h
    omega
  · intro h
    rw [if_neg (not_not.mpr h)]

/-- Any other answer is a place. -/
theorem find_substr_ci_eq_natCast (ha : a.length < 2 ^ 31) (i : ℕ) :
    find_substr_ci toupper a b = i ↔
      search (loc_equal toupper) b a ≠ a.length ∧ search (loc_equal toupper) b a = i := by
  rw [find_substr_ci_eq ha]
  by_cases h : search (loc_equal toupper) b a = a.length
  · rw [if_neg (not_not.mpr h)]
    refine iff_of_false (by omega) fun hi => hi.1 h
  · rw [if_pos h, Int.natCast_inj, and_iff_right h]

theorem contains_iff_search (ha : a.length < 2 ^ 31) :
    contains toupper a b ↔ search (loc_equal toupper) b a ≠ a.length := by
  rw [contains, decide_eq_true_iff, ne_eq, find_substr_ci_eq_neg_one ha]

/-- The two implementations agree, whatever they answer. -/
theorem stringContains_eq_contains (ha : a.length < 2 ^ 31) :
    stringContains toupper a b = contains toupper a b := by
  rw [Bool.eq_iff_iff, contains_iff_search ha, stringContains, decide_eq_true_iff]

/-- Strings that are equal but for case are found at the start, unless they are empty. -/
theorem equal_iff_forall₂ (ha : a.length < 2 ^ 31) :
    equal toupper a b ↔ a ≠ [] ∧ List.Forall₂ (loc_equal toupper) a b := by
  rw [equal, decide_eq_true_iff, ← Int.natCast_zero, find_substr_ci_eq_natCast ha]
  constructor
  · rintro ⟨⟨hne, hzero⟩, hlength⟩
    have hfound := occursAt_search hne
    rw [hzero, occursAt_zero] at hfound
    obtain ⟨middle, after, rfl, hsame⟩ := hfound
    -- a match at the start that is as long as the text leaves nothing after it
    have hafter : after = [] := by
      rw [List.length_append, hsame.length_eq] at hlength
      exact List.length_eq_zero_iff.mp (by omega)
    rw [hafter, List.append_nil] at hne hzero ⊢
    refine ⟨fun hempty => hne ?_, hsame⟩
    rw [hzero, hempty, List.length_nil]
  · rintro ⟨hne, hsame⟩
    have hzero : search (loc_equal toupper) b a = 0 := by
      have hstart : OccursAt (loc_equal toupper) a b 0 :=
        occursAt_zero.mpr ⟨a, [], (List.append_nil a).symm, hsame⟩
      exact Nat.le_zero.mp (search_le_of_occursAt hstart)
    rw [hzero]
    exact ⟨⟨fun hlen => hne (List.length_eq_zero_iff.mp hlen.symm), rfl⟩, hsame.length_eq⟩

end

/-- Of strings that are not both empty, the helpers answer what they should. -/
theorem LookupsRight.of_nonempty {a b : List α} (ha : a.length < 2 ^ 31)
    (hne : ¬ (a = [] ∧ b = [])) : LookupsRight toupper a b := by
  have hnone : search (loc_equal toupper) b a = a.length ↔
      ∀ i, ¬ OccursAt (loc_equal toupper) a b i := by
    rw [search_eq_length_iff, or_iff_left hne]
  refine ⟨?_, ?_, fun i => ?_, ?_, stringContains_eq_contains ha⟩
  · rw [equal_iff_forall₂ ha]
    refine and_iff_right_of_imp fun hsame hempty => hne ⟨hempty, ?_⟩
    rw [hempty] at hsame
    exact List.forall₂_nil_left_iff.mp hsame
  · rw [contains_iff_search ha, ne_eq, hnone, not_forall_not]
  · rw [find_substr_ci_eq_natCast ha]
    constructor
    · rintro ⟨hfound, rfl⟩
      exact ⟨occursAt_search hfound, fun j hj hoccurs =>
        absurd (search_le_of_occursAt hoccurs) (Nat.not_le.mpr hj)⟩
    · rintro ⟨hoccurs, hleast⟩
      have hfound : search (loc_equal toupper) b a ≠ a.length := fun h => hnone.mp h i hoccurs
      refine ⟨hfound, Nat.le_antisymm (search_le_of_occursAt hoccurs) ?_⟩
      by_contra hlt
      exact hleast _ (Nat.not_le.mp hlt) (occursAt_search hfound)
  · rw [find_substr_ci_eq_neg_one ha, hnone]

/-- An empty string occurs in itself, which is not found. -/
theorem not_lookupsRight_nil : ¬ LookupsRight toupper ([] : List α) [] := by
  intro h
  have hfound : contains toupper [] [] := h.contains_iff.mpr ⟨0, occursAt_nil (Nat.le_refl _)⟩
  cases hfound

/-- The helpers answer what they should exactly of strings that are not both empty; `equal`
is reflexive but for the empty string, and it is symmetric and transitive. -/
theorem lookups_right_iff (toupper : α → α) (a b : List α) (ha : a.length < 2 ^ 31)
    (hb : b.length < 2 ^ 31) :
    (LookupsRight toupper a b ↔ ¬ (a = [] ∧ b = [])) ∧
      (equal toupper a a ↔ a ≠ []) ∧ (equal toupper a b → equal toupper b a) ∧
      ∀ c, c.length < 2 ^ 31 → equal toupper a b → equal toupper b c → equal toupper a c := by
  refine ⟨⟨?_, LookupsRight.of_nonempty ha⟩, ?_, ?_, ?_⟩
  · rintro h ⟨rfl, rfl⟩
    exact not_lookupsRight_nil h
  · rw [equal_iff_forall₂ ha, forall₂_loc_equal, and_iff_left rfl]
  · rw [equal_iff_forall₂ ha, equal_iff_forall₂ hb, forall₂_loc_equal, forall₂_loc_equal]
    rintro ⟨hne, hab⟩
    refine ⟨?_, hab.symm⟩
    rintro rfl
    exact hne (List.map_eq_nil_iff.mp hab)
  · intro c _
    rw [equal_iff_forall₂ ha, equal_iff_forall₂ hb, equal_iff_forall₂ ha, forall₂_loc_equal,
      forall₂_loc_equal, forall₂_loc_equal]
    rintro ⟨hne, hab⟩ ⟨-, hbc⟩
    exact ⟨hne, hab.trans hbc⟩

/-- A match in the middle of a longer string. -/
theorem lookups_right_iff_remote :
    LookupsRight Char.toUpper "Remote".toList "MOT".toList ∧
      find_substr_ci Char.toUpper "Remote".toList "MOT".toList = 2 := by
  obtain ⟨hright, -⟩ := lookups_right_iff Char.toUpper "Remote".toList "MOT".toList (by decide)
    (by decide)
  exact ⟨hright.mpr (by decide), by decide⟩

/-- The empty string is not equal to itself, and not contained in itself. -/
theorem nil_not_equal_nil :
    equal Char.toUpper [] [] = false ∧ contains Char.toUpper [] [] = false ∧
      OccursAt (loc_equal Char.toUpper) [] [] 0 ∧ ¬ LookupsRight Char.toUpper [] [] :=
  ⟨by decide, by decide, occursAt_nil (Nat.le_refl _), not_lookupsRight_nil⟩

end RemoteControl.Utils
