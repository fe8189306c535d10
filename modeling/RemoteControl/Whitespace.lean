import Mathlib.Algebra.Group.Nat.Defs
import RemoteControl.Squeezing

/-!
# Removing extra whitespace

`removeExtraWhitespaces` goes through a string with an index of type `int`, and looks one
character ahead within a run of spaces. It finds the end by the terminator that a string
has behind its last character, and of which a string may contain more. It appends to
`out_str`, which it does not clear.

* `charAt` — reading at an index. Behind the terminator there is nothing to read.
* `skipSpaces`, `removeFrom` — the loops.
* `removeExtraWhitespaces_squeezes` — what is appended is the string with its runs of
  spaces squeezed.
-/

namespace RemoteControl.Utils

open Squeezing

/-- The terminator of a string. -/
def nul : Char := '\x00'

/-- `in_str[idx]`; `none` if that is behind the terminator. -/
def charAt (in_str : List Char) (idx : ℕ) : Option Char := (in_str ++ [nul])[idx]?

/-- `idx + 1` for an `int`; `none` if it overflows. -/
def increment (idx : ℕ) : Option ℕ := if idx + 1 < 2 ^ 31 then some (idx + 1) else none

theorem lt_of_charAt {in_str : List Char} {idx : ℕ} {c : Char} (h : charAt in_str idx = some c) :
    idx < in_str.length + 1 := by
  obtain ⟨hlt, -⟩ := List.getElem?_eq_some_iff.mp h
  simpa using hlt

theorem increment_eq_some {idx next : ℕ} (h : increment idx = some next) : next = idx + 1 := by
  simp only [increment, Option.ite_none_right_eq_some, Option.some.injEq] at h
  exact h.2.symm

/-! ## The loops -/

/-- `while (in_str[idx+1] == ' ') idx++`. -/
def skipSpaces (in_str : List Char) (idx : ℕ) : Option ℕ :=
  match _hnext : increment idx with
  | none => none
  | some next =>
    match _hc : charAt in_str next with
    | none => none
    | some c => if c = ' ' then skipSpaces in_str next else some idx
termination_by in_str.length + 1 - idx
decreasing_by
  obtain rfl := increment_eq_some _hnext
  have hlt := lt_of_charAt _hc
  omega

theorem le_of_skipSpaces {in_str : List Char} {idx idx' : ℕ}
    (h : skipSpaces in_str idx = some idx') : idx ≤ idx' := by
  fun_induction skipSpaces in_str idx with
  | case1 => cases h
  | case2 => cases h
  | case3 idx next hnext hc ih =>
    obtain rfl := increment_eq_some hnext
    exact Nat.le_of_succ_le (ih h)
  | case4 => exact Nat.le_of_eq (Option.some.inj h)

/-- `if (in_str[idx] == ' ')` around the inner loop, where `in_str[idx]` is `c`. -/
def skipRun (in_str : List Char) (idx : ℕ) (c : Char) : Option ℕ :=
  if c = ' ' then skipSpaces in_str idx else some idx

theorem le_of_skipRun {in_str : List Char} {idx idx' : ℕ} {c : Char}
    (h : skipRun in_str idx c = some idx') : idx ≤ idx' := by
  unfold skipRun at h
  split at h
  · exact le_of_skipSpaces h
  · exact Nat.le_of_eq (Option.some.inj h)

/-- `while (in_str[idx] != '\0')`, with what `out_str` is then. -/
def removeFrom (in_str : List Char) (idx : ℕ) (out_str : List Char) : Option (List Char) :=
  match _hc : charAt in_str idx with
  | none => none
  | some c =>
    if c = nul then some out_str
    else
      match _hskip : skipRun in_str idx c with
      | none => none
      | some idx' =>
        match _hnext : increment idx' with
        | none => none
        | some next => removeFrom in_str next (out_str ++ [c])
termination_by in_str.length + 1 - idx
decreasing_by
  obtain rfl := increment_eq_some _hnext
  have hlt := lt_of_charAt _hc
  have hle := le_of_skipRun _hskip
  omega

/-- `removeExtraWhitespaces(in_str, out_str)`: what it returns, and `out_str` after it.
`none` stands for an access behind the terminator or an overflow. -/
def removeExtraWhitespaces (in_str out_str : List Char) : Option (Bool × List Char) :=
  if in_str.isEmpty then some (false, out_str)
  else (removeFrom in_str 0 out_str).map (true, ·)

/-! ## What the loops do -/

/-- What is read is the terminator at the end, and the next character before it. -/
theorem charAt_cases {in_str : List Char} {idx : ℕ} {c : Char}
    (h : charAt in_str idx = some c) :
    idx = in_str.length ∧ c = nul ∨
      idx < in_str.length ∧ in_str.drop idx = c :: in_str.drop (idx + 1) := by
  rcases Nat.lt_or_ge idx in_str.length with hlt | hge
  · obtain rfl : in_str[idx] = c := by
      rw [charAt, List.getElem?_append_left hlt, List.getElem?_eq_getElem hlt] at h
      exact Option.some.inj h
    exact .inr ⟨hlt, List.drop_eq_getElem_cons hlt⟩
  · obtain rfl : idx = in_str.length := Nat.le_antisymm (Nat.le_of_lt_succ (lt_of_charAt h)) hge
    refine .inl ⟨rfl, ?_⟩
    rw [charAt, List.getElem?_concat_length] at h
    exact (Option.some.inj h).symm

theorem charAt_ne_none {in_str : List Char} {idx : ℕ} (h : idx ≤ in_str.length) :
    charAt in_str idx ≠ none := by
  rw [charAt, Ne, List.getElem?_eq_none_iff, List.length_append, List.length_singleton]
  omega

theorem increment_ne_none {idx : ℕ} (h : idx + 1 < 2 ^ 31) : increment idx ≠ none := by
  rw [increment, if_pos h]
  exact Option.some_ne_none _

/-- Within a run of spaces the loop goes on to the last of them. -/
theorem skipSpaces_eq {in_str : List Char} (hsize : in_str.length < 2 ^ 31) {idx : ℕ}
    (hlt : idx < in_str.length) :
    skipSpaces in_str idx =
      some (idx + ((in_str.drop (idx + 1)).takeWhile (· = ' ')).length) := by
  fun_induction skipSpaces in_str idx with
  | case1 idx hnone => exact absurd hnone (increment_ne_none (by omega))
  | case2 idx next hnext hnone =>
    obtain rfl := increment_eq_some hnext
    exact absurd hnone (charAt_ne_none hlt)
  | case3 idx next hnext hc ih =>
    obtain rfl := increment_eq_some hnext
    rcases charAt_cases hc with ⟨-, hnul⟩ | ⟨hin, hdrop⟩
    · cases hnul
    · rw [ih hin, hdrop, List.takeWhile_cons_of_pos (by simp), List.length_cons]
      congr 1
      omega
  | case4 idx next hnext c hc hne =>
    obtain rfl := increment_eq_some hnext
    rcases charAt_cases hc with ⟨hend, -⟩ | ⟨-, hdrop⟩
    · rw [hend, List.drop_length]
      rfl
    · rw [hdrop, List.takeWhile_cons_of_neg (by simpa using hne)]
      rfl

/-- At a character the index moves to the end of its run, and what is left is squeezed
after it. -/
theorem skipRun_spec {in_str : List Char} (hsize : in_str.length < 2 ^ 31) {idx : ℕ} {c : Char}
    (hlt : idx < in_str.length) (hdrop : in_str.drop idx = c :: in_str.drop (idx + 1)) :
    ∃ idx', skipRun in_str idx c = some idx' ∧ idx' < in_str.length ∧
      squeeze ' ' (in_str.drop idx) = c :: squeeze ' ' (in_str.drop (idx' + 1)) := by
  by_cases hc : c = ' '
  · subst hc
    have hrun := List.takeWhile_append_dropWhile (p := (· = ' ')) (l := in_str.drop (idx + 1))
    have hlen := congrArg List.length hrun
    rw [List.length_append, List.length_drop] at hlen
    refine ⟨_, by rw [skipRun, if_pos rfl, skipSpaces_eq hsize hlt], by omega, ?_⟩
    have hafter := (congrArg (List.drop _) hrun).symm.trans List.drop_left
    have hbehind : ∀ n, in_str.drop (idx + n + 1) = (in_str.drop (idx + 1)).drop n := by
      intro n
      rw [List.drop_drop, Nat.add_right_comm]
    rw [hdrop, squeeze_cons_self, hbehind, hafter]
  · exact ⟨idx, if_neg hc, hlt, by rw [hdrop, squeeze_cons_of_ne hc]⟩

/-- What is left of the string is appended with its runs of spaces squeezed. -/
theorem removeFrom_eq {in_str : List Char} (hsize : in_str.length < 2 ^ 31)
    (hnul : nul ∉ in_str) {idx : ℕ} {out_str : List Char} (hle : idx ≤ in_str.length) :
    removeFrom in_str idx out_str = some (out_str ++ squeeze ' ' (in_str.drop idx)) := by
  fun_induction removeFrom in_str idx out_str with
  | case1 idx out_str hnone => exact absurd hnone (charAt_ne_none hle)
  | case2 idx out_str hc =>
    rcases charAt_cases hc with ⟨hend, -⟩ | ⟨-, hdrop⟩
    · rw [hend, List.drop_length, squeeze_nil, List.append_nil]
    -- before the end there is no terminator
    · have hmem : nul ∈ in_str.drop idx := by
        rw [hdrop]
        exact List.mem_cons_self ..
      exact absurd (List.mem_of_mem_drop hmem) hnul
  | case3 idx out_str c hc hne hnone =>
    rcases charAt_cases hc with ⟨-, hend⟩ | ⟨hlt, hdrop⟩
    · exact absurd hend hne
    · obtain ⟨idx', hskip, -⟩ := skipRun_spec hsize hlt hdrop
      rw [hskip] at hnone
      cases hnone
  | case4 idx out_str c hc hne idx' hskip hnone =>
    rcases charAt_cases hc with ⟨-, hend⟩ | ⟨hlt, hdrop⟩
    · exact absurd hend hne
    · obtain ⟨j, hj, hin, -⟩ := skipRun_spec hsize hlt hdrop
      obtain rfl : j = idx' := Option.some.inj (hj.symm.trans hskip)
      exact absurd hnone (increment_ne_none (by omega))
  | case5 idx out_str c hc hne idx' hskip next hnext ih =>
    obtain rfl := increment_eq_some hnext
    rcases charAt_cases hc with ⟨-, hend⟩ | ⟨hlt, hdrop⟩
    · exact absurd hend hne
    · obtain ⟨j, hj, hin, hsqueeze⟩ := skipRun_spec hsize hlt hdrop
      obtain rfl : j = idx' := Option.some.inj (hj.symm.trans hskip)
      rw [ih hin, hsqueeze, List.append_assoc, List.singleton_append]

/-- What the function appends, for a string without terminators of its own. -/
theorem removeExtraWhitespaces_eq {in_str : List Char} (hsize : in_str.length < 2 ^ 31)
    (hnul : nul ∉ in_str) (out_str : List Char) :
    removeExtraWhitespaces in_str out_str =
      some (decide (in_str ≠ []), out_str ++ squeeze ' ' in_str) := by
  unfold removeExtraWhitespaces
  rcases in_str with _ | ⟨c, rest⟩
  · simp
  · rw [removeFrom_eq hsize hnul (Nat.zero_le _), List.drop_zero]
    simp

/-- **`removeExtraWhitespaces`**: it ends without reading behind the terminator, appends
the string with its runs of spaces squeezed, and returns whether there was anything. What
it makes of its output, from an empty `out_str`, is that output. -/
theorem removeExtraWhitespaces_squeezes {in_str : List Char} (hsize : in_str.length < 2 ^ 31)
    (hnul : nul ∉ in_str) (out_str : List Char) :
    removeExtraWhitespaces in_str out_str =
        some (decide (in_str ≠ []), out_str ++ squeeze ' ' in_str) ∧
      ∀ r out, removeExtraWhitespaces in_str [] = some (r, out) →
        removeExtraWhitespaces out [] = some (r, out) := by
  refine ⟨removeExtraWhitespaces_eq hsize hnul out_str, fun r out h => ?_⟩
  rw [removeExtraWhitespaces_eq hsize hnul] at h
  obtain ⟨rfl, rfl⟩ := Prod.mk.inj (Option.some.inj h)
  have hsub := squeeze_sublist ' ' in_str
  rw [List.nil_append, removeExtraWhitespaces_eq (Nat.lt_of_le_of_lt hsub.length_le hsize)
    fun hmem => hnul (hsub.subset hmem), squeeze_squeeze, List.nil_append]
  simp only [ne_eq, squeeze_eq_nil]

/-- Runs at the start, within and at the end, behind a space that was there before. -/
theorem removeExtraWhitespaces_squeezes_runs :
    let in_str := [' ', ' ', 'a', ' ', 'b', ' ', ' ', ' ']
    nul ∉ in_str ∧
      removeExtraWhitespaces in_str [' '] = some (true, [' ', ' ', 'a', ' ', 'b', ' ']) ∧
      removeExtraWhitespaces [' ', 'a', ' ', 'b', ' '] [] =
        some (true, [' ', 'a', ' ', 'b', ' ']) := by
  intro in_str
  have hnul : nul ∉ in_str := by decide
  obtain ⟨hspace, -⟩ := removeExtraWhitespaces_squeezes (by decide) hnul [' ']
  obtain ⟨hempty, hagain⟩ := removeExtraWhitespaces_squeezes (by decide) hnul []
  exact ⟨hnul, hspace, hagain _ _ hempty⟩

end RemoteControl.Utils
