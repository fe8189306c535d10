import Mathlib.Data.List.Destutter
import Mathlib.Data.List.SplitBy
import Mathlib.Data.List.TakeWhile
import Mathlib.Tactic.Common

/-!
# Squeezing the runs of an element

`squeeze c l` replaces every maximal run of `c` in a list by a single `c`.

* `squeeze_cons_of_ne`, `squeeze_cons_self` — from left to right: another element stays, a
  run is dropped up to its end.
* `squeeze_eq_destutter` — the elements that remain are those that `List.destutter` keeps.
* `squeeze_squeeze` — squeezed once is squeezed for good.
-/

namespace Squeezing

universe u

variable {α : Type u} [DecidableEq α]

/-- Two neighbours in a run of `c`. -/
def inRun (c a b : α) : Bool := a = c ∧ b = c

/-- Every maximal run of `c` replaced by one `c`. -/
def squeeze (c : α) (l : List α) : List α :=
  (l.splitBy (inRun c)).flatMap fun run => if c ∈ run then [c] else run

@[simp] theorem squeeze_nil (c : α) : squeeze c [] = [] := rfl

/-- An element that is not in a run is one for itself. -/
theorem squeeze_cons_of_ne {c a : α} (h : a ≠ c) (l : List α) :
    squeeze c (a :: l) = a :: squeeze c l := by
  have hsplit : (a :: l).splitBy (inRun c) = [a].splitBy (inRun c) ++ l.splitBy (inRun c) :=
    List.splitBy_append (l := [a]) (by simp [inRun, h])
  have hne : ¬ c ∈ [a] := by simpa using Ne.symm h
  rw [squeeze, hsplit, List.splitBy_of_isChain (List.cons_ne_nil a []) (List.isChain_singleton a),
    List.flatMap_append, List.flatMap_singleton, if_neg hne]
  rfl

/-- A run goes up to the first other element. -/
theorem squeeze_cons_self (c : α) (l : List α) :
    squeeze c (c :: l) = c :: squeeze c (l.dropWhile (· = c)) := by
  have hrun : ∀ x ∈ c :: l.takeWhile (· = c), x = c := by
    intro x hx
    rcases List.mem_cons.mp hx with rfl | hx
    · rfl
    · simpa using List.mem_takeWhile_imp hx
  have hchain : (c :: l.takeWhile (· = c)).IsChain fun x y => inRun c x y := by
    rw [List.eq_replicate_of_mem hrun]
    exact List.isChain_replicate_of_rel _ (by simp [inRun])
  have hend : ∀ x ∈ (c :: l.takeWhile (· = c)).getLast?, ∀ y ∈ (l.dropWhile (· = c)).head?,
      inRun c x y = false := by
    intro x _ y hy
    have hnot := List.head?_dropWhile_not (· = c) l
    rw [Option.mem_def.mp hy] at hnot
    simpa [inRun] using fun _ => hnot
  have hsplit : (c :: l).splitBy (inRun c) =
      (c :: l.takeWhile (· = c)) :: (l.dropWhile (· = c)).splitBy (inRun c) := by
    conv_lhs => rw [← List.takeWhile_append_dropWhile (p := (· = c)) (l := l), ← List.cons_append]
    rw [List.splitBy_append hend, List.splitBy_of_isChain (List.cons_ne_nil _ _) hchain]
    rfl
  rw [squeeze, hsplit, List.flatMap_cons, if_pos (List.mem_cons_self ..)]
  rfl

/-- What `List.destutter` keeps of a run. -/
theorem destutter'_run (c : α) (l : List α) :
    l.destutter' (fun a b => inRun c a b = false) c =
      c :: (l.dropWhile (· = c)).destutter fun a b => inRun c a b = false := by
  induction l with
  | nil => simp
  | cons b l ih =>
    by_cases hb : b = c
    · subst hb
      rw [List.destutter'_cons_neg _ (by simp [inRun]), ih]
      simp
    · rw [List.destutter'_cons_pos _ (by simp [inRun, hb]),
        List.dropWhile_cons_of_neg (by simpa using hb), List.destutter_cons']

/-- What is kept are the elements that do not prolong a run. -/
theorem squeeze_eq_destutter (c : α) (l : List α) :
    squeeze c l = l.destutter fun a b => inRun c a b = false := by
  match l with
  | [] => rfl
  | a :: l =>
    by_cases ha : a = c
    · subst ha
      rw [squeeze_cons_self, squeeze_eq_destutter, List.destutter_cons', destutter'_run]
    · rw [squeeze_cons_of_ne ha, squeeze_eq_destutter, List.destutter_cons']
      rcases l with _ | ⟨b, l⟩
      · simp
      · rw [List.destutter'_cons_pos _ (by simp [inRun, ha]), List.destutter_cons']
termination_by l.length
decreasing_by
  · exact Nat.lt_succ_of_le (List.dropWhile_sublist _).length_le
  · exact Nat.lt_succ_self _

/-- Squeezed once is squeezed for good. -/
theorem squeeze_squeeze (c : α) (l : List α) : squeeze c (squeeze c l) = squeeze c l := by
  rw [squeeze_eq_destutter c l, squeeze_eq_destutter, List.destutter_idem]

theorem squeeze_eq_nil {c : α} {l : List α} : squeeze c l = [] ↔ l = [] := by
  rw [squeeze_eq_destutter, List.destutter_eq_nil]

/-- Nothing is added. -/
theorem squeeze_sublist (c : α) (l : List α) : (squeeze c l).Sublist l := by
  rw [squeeze_eq_destutter]
  exact List.destutter_sublist _ l

end Squeezing
