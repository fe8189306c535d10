import Mathlib.Data.List.Forall2

/-!
# Searching a text

The search for the first place in a text where a pattern occurs, up to a relation of
characters. It goes through the places from left to right; at each it compares character
by character, and it ends when the text does before the pattern.

* `OccursAt` — what it is to occur at a place.
* `search` — the search. The end of the text is the answer that there is no such place.
* `search_le_of_occursAt`, `search_eq_length_iff` — the first place if there is one, the end
  if there is none. For an empty pattern in an empty text the two are the same.
-/

namespace Searching

universe u

variable {α : Type u}

/-! ## Occurrences -/

/-- The pattern occurs in the text after the first `i` characters. -/
def OccursAt (same : α → α → Prop) (text pattern : List α) (i : ℕ) : Prop :=
  ∃ before middle after, text = before ++ middle ++ after ∧ before.length = i ∧
    List.Forall₂ same middle pattern

variable {same : α → α → Prop}

/-- A pattern fits in the text where it occurs. -/
theorem OccursAt.le {text pattern : List α} {i : ℕ} (h : OccursAt same text pattern i) :
    i + pattern.length ≤ text.length := by
  obtain ⟨before, middle, after, rfl, rfl, hsame⟩ := h
  rw [List.length_append, List.length_append, hsame.length_eq]
  omega

/-- An empty pattern occurs everywhere. -/
theorem occursAt_nil {text : List α} {i : ℕ} (h : i ≤ text.length) : OccursAt same text [] i :=
  ⟨text.take i, [], text.drop i, by simp, List.length_take_of_le h, .nil⟩

/-- To occur later is to occur in what is left. -/
theorem occursAt_succ {x : α} {text pattern : List α} {i : ℕ} :
    OccursAt same (x :: text) pattern (i + 1) ↔ OccursAt same text pattern i := by
  constructor
  · rintro ⟨_ | ⟨y, before⟩, middle, after, htext, hi, hsame⟩
    · cases hi
    · obtain ⟨-, rfl⟩ := List.cons.inj htext
      exact ⟨before, middle, after, rfl, Nat.succ.inj hi, hsame⟩
  · rintro ⟨before, middle, after, rfl, rfl, hsame⟩
    exact ⟨x :: before, middle, after, rfl, rfl, hsame⟩

/-- To occur at the start. -/
theorem occursAt_zero {text pattern : List α} :
    OccursAt same text pattern 0 ↔
      ∃ middle after, text = middle ++ after ∧ List.Forall₂ same middle pattern := by
  constructor
  · rintro ⟨before, middle, after, rfl, hbefore, hsame⟩
    obtain rfl := List.length_eq_zero_iff.mp hbefore
    exact ⟨middle, after, rfl, hsame⟩
  · rintro ⟨middle, after, rfl, hsame⟩
    exact ⟨[], middle, after, rfl, rfl, hsame⟩

/-- Character by character. -/
theorem occursAt_zero_cons {x y : α} {text pattern : List α} :
    OccursAt same (x :: text) (y :: pattern) 0 ↔ same x y ∧ OccursAt same text pattern 0 := by
  rw [occursAt_zero, occursAt_zero]
  constructor
  · rintro ⟨_ | ⟨z, middle⟩, after, htext, hsame⟩
    · cases hsame
    · obtain ⟨rfl, rfl⟩ := List.cons.inj htext
      obtain ⟨hxy, hsame⟩ := List.forall₂_cons.mp hsame
      exact ⟨hxy, middle, after, rfl, hsame⟩
  · rintro ⟨hxy, middle, after, rfl, hsame⟩
    exact ⟨x :: middle, after, rfl, .cons hxy hsame⟩

/-! ## The search -/

/-- How the comparison at a place ends. -/
inductive Probe where
  /-- at the end of the pattern -/
  | found
  /-- at the end of the text -/
  | exhausted
  /-- at two characters that are not the same -/
  | mismatch
  deriving DecidableEq

variable [DecidableRel same]

/-- The comparison at the first place. -/
def probe (same : α → α → Prop) [DecidableRel same] : List α → List α → Probe
  | _, [] => .found
  | [], _ :: _ => .exhausted
  | x :: text, y :: pattern => if same x y then probe same text pattern else .mismatch

/-- The first place where the pattern occurs, or the end of the text. -/
def search (same : α → α → Prop) [DecidableRel same] (pattern : List α) : List α → ℕ
  | [] => 0
  | x :: text =>
    match probe same (x :: text) pattern with
    | .found => 0
    -- no later place leaves more of the text
    | .exhausted => text.length + 1
    | .mismatch => search same pattern text + 1

theorem probe_found {text pattern : List α} :
    probe same text pattern = .found ↔ OccursAt same text pattern 0 := by
  fun_induction probe same text pattern with
  | case1 text => exact iff_of_true rfl (occursAt_nil (Nat.zero_le _))
  | case2 y pattern =>
    refine iff_of_false Probe.noConfusion fun h => ?_
    have hle := h.le
    simp at hle
  | case3 x text y pattern hxy ih => rw [ih, occursAt_zero_cons, and_iff_right hxy]
  | case4 x text y pattern hxy =>
    exact iff_of_false Probe.noConfusion fun h => hxy (occursAt_zero_cons.mp h).1

/-- A text that ends first is too short for the pattern. -/
theorem lt_of_probe_exhausted {text pattern : List α} (h : probe same text pattern = .exhausted) :
    text.length < pattern.length := by
  fun_induction probe same text pattern with
  | case1 text => cases h
  | case2 y pattern => exact Nat.succ_pos _
  | case3 x text y pattern hxy ih => exact Nat.succ_lt_succ (ih h)
  | case4 x text y pattern hxy => cases h

theorem search_le (pattern text : List α) : search same pattern text ≤ text.length := by
  fun_induction search same pattern text with
  | case1 => exact Nat.le_refl 0
  | case2 => exact Nat.zero_le _
  | case3 => exact Nat.le_refl _
  | case4 x text hprobe ih => exact Nat.succ_le_succ ih

/-- Where the pattern occurs, the search goes no further. -/
theorem search_le_of_occursAt {pattern text : List α} {i : ℕ} (h : OccursAt same text pattern i) :
    search same pattern text ≤ i := by
  fun_induction search same pattern text generalizing i with
  | case1 => exact Nat.zero_le _
  | case2 => exact Nat.zero_le _
  | case3 x text hprobe =>
    have hlt := lt_of_probe_exhausted hprobe
    have hle := h.le
    omega
  | case4 x text hprobe ih =>
    rcases i with _ | i
    · rw [probe_found.mpr h] at hprobe
      cases hprobe
    · exact Nat.succ_le_succ (ih (occursAt_succ.mp h))

/-- Where the search stops before the end, the pattern occurs. -/
theorem occursAt_search {pattern text : List α} (h : search same pattern text ≠ text.length) :
    OccursAt same text pattern (search same pattern text) := by
  fun_induction search same pattern text with
  | case1 => exact absurd rfl h
  | case2 x text hprobe => exact probe_found.mp hprobe
  | case3 => exact absurd rfl h
  | case4 x text hprobe ih => exact occursAt_succ.mpr (ih fun heq => h (congrArg Nat.succ heq))

/-- The search stops at the end if the pattern occurs nowhere, and in one case more. -/
theorem search_eq_length_iff {pattern text : List α} :
    search same pattern text = text.length ↔
      (∀ i, ¬ OccursAt same text pattern i) ∨ (text = [] ∧ pattern = []) := by
  constructor
  · intro h
    by_cases hempty : text = [] ∧ pattern = []
    · exact .inr hempty
    · refine .inl fun i hi => hempty ?_
      have hle := search_le_of_occursAt hi
      have hfits := hi.le
      obtain rfl := List.length_eq_zero_iff.mp (show pattern.length = 0 by omega)
      -- an empty pattern is found at the start, so the start is the end
      have hstart : OccursAt same text [] 0 := occursAt_nil (Nat.zero_le _)
      have hzero := search_le_of_occursAt hstart
      exact ⟨List.length_eq_zero_iff.mp (by omega), rfl⟩
  · rintro (hnone | ⟨rfl, rfl⟩)
    · by_contra hne
      exact hnone _ (occursAt_search hne)
    · rfl

/-- A match that begins within a place that does not match. -/
example : search (· = ·) [1, 1, 2] [1, 1, 1, 2] = 1 := by decide

end Searching
