import Mathlib.Algebra.Group.Nat.Defs
import Mathlib.Tactic.Common

/-!
# Splitting a string at delimiters

`split` cuts a string at every delimiter. It works with positions of type `size_t`, of
which the last one, `npos`, stands for "none": as the position before the first one, and
as the answer that no delimiter is left.

* `StdString` — a string, which is shorter than `npos`. The width of `size_t` is open.
* `split` — the loop. A `substr` that starts behind the end would end it by an exception.
* `split_pieces` — the pieces, between which the delimiters were.
-/

namespace RemoteControl.Utils

/-- `std::string::npos`, which is `-1` as a `size_t`. -/
def npos (w : ℕ) : BitVec w := -1#w

/-- A `std::string` of characters `α`, where a `size_t` has `w` bits. -/
structure StdString (w : ℕ) (α : Type) where
  /-- the characters -/
  chars : List α
  /-- `size()` is less than `npos` -/
  size_lt : chars.length < (npos w).toNat

namespace StdString

variable {w : ℕ} {α : Type} [DecidableEq α]

/-- `find_first_of(delimiters, pos)`. -/
def find_first_of (s delimiters : StdString w α) (pos : BitVec w) : BitVec w :=
  match (s.chars.drop pos.toNat).findIdx? (· ∈ delimiters.chars) with
  | some i => pos + BitVec.ofNat w i
  | none => npos w

omit [DecidableEq α] in
/-- `substr(pos, n)`; `none` is the exception `std::out_of_range`. -/
def substr (s : StdString w α) (pos n : BitVec w) : Option (StdString w α) :=
  if pos.toNat ≤ s.chars.length then
    some ⟨(s.chars.drop pos.toNat).take n.toNat, by
      have hsize := s.size_lt
      rw [List.length_take, List.length_drop]
      omega⟩
  else none

/-! ### Positions -/

theorem npos_toNat : (npos w).toNat = 2 ^ w - 1 := by
  rw [npos, BitVec.neg_one_eq_allOnes, BitVec.toNat_allOnes]

/-- The position after `npos` is the first one. -/
theorem npos_add_one : npos w + 1#w = 0#w := by
  rw [npos, BitVec.add_left_neg]

theorem toNat_add_one {pos : BitVec w} (h : pos.toNat < (npos w).toNat) :
    (pos + 1#w).toNat = pos.toNat + 1 := by
  rw [npos_toNat] at h
  have hw : w ≠ 0 := by
    rintro rfl
    simp at h
  have hone : (1#w).toNat = 1 := BitVec.toNat_one (Nat.pos_of_ne_zero hw)
  rw [BitVec.toNat_add_of_lt (by omega), hone]

/-- `find_first_of` answers `npos` if no delimiter is left, and the position of the first
one otherwise. -/
theorem find_first_of_cases (s delimiters : StdString w α) (pos : BitVec w) :
    (s.find_first_of delimiters pos = npos w ∧
        ∀ c ∈ s.chars.drop pos.toNat, c ∉ delimiters.chars) ∨
      ∃ piece sep rest, s.chars.drop pos.toNat = piece ++ sep :: rest ∧
        (∀ c ∈ piece, c ∉ delimiters.chars) ∧ sep ∈ delimiters.chars ∧
        (s.find_first_of delimiters pos).toNat = pos.toNat + piece.length ∧
        pos.toNat + piece.length < s.chars.length := by
  unfold find_first_of
  split
  · rename_i i hi
    obtain ⟨hlt, hsep, hbefore⟩ := List.findIdx?_eq_some_iff_getElem.mp hi
    have hpiece : ((s.chars.drop pos.toNat).take i).length = i :=
      List.length_take_of_le (Nat.le_of_lt hlt)
    have hin : pos.toNat + i < s.chars.length := by
      rw [List.length_drop] at hlt
      omega
    refine .inr ⟨(s.chars.drop pos.toNat).take i, (s.chars.drop pos.toNat)[i],
      (s.chars.drop pos.toNat).drop (i + 1), ?_, ?_, of_decide_eq_true hsep, ?_, ?_⟩
    · rw [← List.drop_eq_getElem_cons hlt, List.take_append_drop]
    · intro c hc hmem
      obtain ⟨j, hj, rfl⟩ := List.getElem_of_mem hc
      rw [hpiece] at hj
      rw [List.getElem_take] at hmem
      exact hbefore j hj (decide_eq_true hmem)
    · have hsize := s.size_lt
      rw [npos_toNat] at hsize
      have hmod : (BitVec.ofNat w i).toNat = i := by
        rw [BitVec.toNat_ofNat, Nat.mod_eq_of_lt (by omega)]
      rw [BitVec.toNat_add_of_lt (by omega), hmod, hpiece]
    · rwa [hpiece]
  · rename_i hnone
    refine .inl ⟨rfl, fun c hc hmem => ?_⟩
    have hnot := List.findIdx?_eq_none_iff.mp hnone c hc
    rw [decide_eq_true hmem] at hnot
    cases hnot

omit [DecidableEq α] in
/-- What `substr` takes up to a position. -/
theorem substr_eq {s : StdString w α} {pos next : BitVec w} {piece : List α}
    (hpos : pos.toNat ≤ s.chars.length) (hle : pos ≤ next)
    (hpiece : (s.chars.drop pos.toNat).take (next.toNat - pos.toNat) = piece) :
    ∃ p, s.substr pos (next - pos) = some p ∧ p.chars = piece := by
  rw [← BitVec.toNat_sub_of_le hle] at hpiece
  rw [substr, if_pos hpos]
  exact ⟨_, rfl, hpiece⟩

end StdString

open StdString

/-! ## The loop -/

section

variable {w : ℕ} {α : Type} [DecidableEq α]

/-- The positions that the loop goes through grow up to the end. -/
theorem next_lt {s delimiters : StdString w α} {next : BitVec w}
    (h : s.find_first_of delimiters (next + 1#w) ≠ npos w) :
    s.chars.length - (s.find_first_of delimiters (next + 1#w) + 1#w).toNat <
      s.chars.length - (next + 1#w).toNat := by
  rcases find_first_of_cases s delimiters (next + 1#w) with
    ⟨hnone, -⟩ | ⟨piece, sep, rest, -, -, -, hnext, hin⟩
  · exact absurd hnone h
  · have hsize := s.size_lt
    rw [toNat_add_one (by omega), hnext]
    omega

/-- The `do … while` of `split` from a `next` on, with what `stringList` is then. -/
def splitFrom (s delimiters : StdString w α) (next : BitVec w)
    (stringList : List (StdString w α)) : Option (List (StdString w α)) :=
  -- the first time around this is `npos + 1`
  let current := next + 1#w
  let next' := s.find_first_of delimiters current
  match s.substr current (next' - current) with
  | none => none
  | some piece =>
    if next' ≠ npos w then splitFrom s delimiters next' (stringList ++ [piece])
    else some (stringList ++ [piece])
termination_by s.chars.length - (next + 1#w).toNat
decreasing_by exact next_lt ‹_›

/-- `split`: the vector, and the string, after it. -/
def split (stringList : List (StdString w α)) (s delimiters : StdString w α) :
    Option (List (StdString w α) × StdString w α) :=
  (splitFrom s delimiters (npos w) stringList).map (·, s)

/-- From a position within the string the loop cuts what is left at the delimiters. -/
theorem splitFrom_eq (s delimiters : StdString w α) (next : BitVec w)
    (stringList : List (StdString w α)) (hcurrent : (next + 1#w).toNat ≤ s.chars.length) :
    ∃ pieces, splitFrom s delimiters next stringList = some (stringList ++ pieces) ∧
      pieces.map StdString.chars =
        (s.chars.drop (next + 1#w).toNat).splitOnP (· ∈ delimiters.chars) := by
  have hsize := s.size_lt
  rcases find_first_of_cases s delimiters (next + 1#w) with
    ⟨hnext, hnone⟩ | ⟨piece, sep, rest, hdrop, hpiece, hsep, hnext, hin⟩
  · -- the length `npos - current` reaches behind the end
    have hle : next + 1#w ≤ npos w := by
      rw [BitVec.le_def]
      omega
    obtain ⟨p, hp, hchars⟩ := substr_eq hcurrent hle
      (List.take_of_length_le (by rw [List.length_drop]; omega))
    refine ⟨[p], ?_, ?_⟩
    · unfold splitFrom
      simp only [hnext, hp, ne_eq, not_true_eq_false, if_false]
    · rw [List.map_singleton, hchars, List.splitOnP_eq_singleton]
      intro c hc
      exact decide_eq_false (hnone c hc)
  · have hle : next + 1#w ≤ s.find_first_of delimiters (next + 1#w) := by
      rw [BitVec.le_def]
      omega
    obtain ⟨p, hp, hchars⟩ := substr_eq hcurrent hle
      (by rw [hdrop, hnext, Nat.add_sub_cancel_left, List.take_left])
    have hmore : s.find_first_of delimiters (next + 1#w) ≠ npos w := by
      intro heq
      rw [heq] at hnext
      omega
    have hafter : (s.find_first_of delimiters (next + 1#w) + 1#w).toNat =
        (next + 1#w).toNat + (piece.length + 1) := by
      rw [toNat_add_one (by omega), hnext, Nat.add_assoc]
    obtain ⟨pieces, hpieces, hmap⟩ := splitFrom_eq s delimiters
      (s.find_first_of delimiters (next + 1#w)) (stringList ++ [p]) (by omega)
    refine ⟨p :: pieces, ?_, ?_⟩
    · unfold splitFrom
      simp only [hp, if_pos hmore, hpieces, List.append_assoc, List.singleton_append]
    · have hrest : s.chars.drop (s.find_first_of delimiters (next + 1#w) + 1#w).toNat = rest := by
        rw [hafter, ← List.drop_drop, hdrop, List.drop_length_add_append]
        rfl
      rw [List.map_cons, hchars, hmap, hrest, hdrop,
        List.splitOnP_append_cons_of_forall_mem (fun c hc => decide_eq_false (hpiece c hc)) sep
          (decide_eq_true hsep)]
termination_by s.chars.length - (next + 1#w).toNat
decreasing_by exact next_lt ‹_›

/-! ## The pieces -/

omit [DecidableEq α] in
theorem length_splitOnP (p : α → Bool) (l : List α) :
    (l.splitOnP p).length = l.countP p + 1 := by
  induction l with
  | nil => rfl
  | cons a l ih =>
    rw [List.splitOnP_cons_eq_if_modifyHead, List.countP_cons]
    by_cases ha : p a
    · rw [if_pos ha, if_pos ha, List.length_cons, ih]
    · rw [if_neg ha, if_neg ha, List.length_modifyHead, ih, Nat.add_zero]

omit [DecidableEq α] in
/-- No piece contains what was split at. -/
theorem not_of_mem_splitOnP {p : α → Bool} {l piece : List α} (h : piece ∈ l.splitOnP p) :
    ∀ c ∈ piece, ¬ p c := by
  induction l generalizing piece with
  | nil =>
    obtain rfl := List.mem_singleton.mp h
    exact fun c hc => absurd hc List.not_mem_nil
  | cons a l ih =>
    rw [List.splitOnP_cons_eq_if_modifyHead] at h
    by_cases ha : p a
    · rw [if_pos ha] at h
      rcases List.mem_cons.mp h with rfl | h
      · exact fun c hc => absurd hc List.not_mem_nil
      · exact ih h
    · rw [if_neg ha] at h
      obtain ⟨first, rest, hpieces⟩ := List.exists_cons_of_ne_nil (List.splitOnP_ne_nil p l)
      rw [hpieces, List.modifyHead_cons] at h
      rw [hpieces] at ih
      rcases List.mem_cons.mp h with rfl | h
      · intro c hc
        rcases List.mem_cons.mp hc with rfl | hc
        · exact ha
        · exact ih (List.mem_cons_self ..) c hc
      · exact ih (List.mem_cons_of_mem _ h)

/-- Pieces with a delimiter after each but the last. -/
def interleave : List (List α) → List α → List α
  | piece :: pieces, delimiter :: delimiters =>
    piece ++ delimiter :: interleave pieces delimiters
  | pieces, [] => pieces.flatten
  | [], _ :: _ => []

omit [DecidableEq α] in
theorem interleave_cons (a : α) (piece : List α) (pieces : List (List α)) (delimiters : List α) :
    interleave ((a :: piece) :: pieces) delimiters =
      a :: interleave (piece :: pieces) delimiters := by
  cases delimiters <;> simp [interleave]

omit [DecidableEq α] in
/-- With what it was split at between its pieces, a list is itself again. -/
theorem interleave_splitOnP (p : α → Bool) (l : List α) :
    interleave (l.splitOnP p) (l.filter p) = l := by
  induction l with
  | nil => rfl
  | cons a l ih =>
    rw [List.splitOnP_cons_eq_if_modifyHead]
    by_cases ha : p a
    · rw [if_pos ha, List.filter_cons_of_pos ha, interleave, ih, List.nil_append]
    · obtain ⟨first, rest, hpieces⟩ := List.exists_cons_of_ne_nil (List.splitOnP_ne_nil p l)
      rw [hpieces] at ih
      rw [if_neg ha, List.filter_cons_of_neg ha, hpieces, List.modifyHead_cons, interleave_cons, ih]

/-- `split` ends without an exception. It appends the pieces between the delimiters, one more
than there are delimiters, to what was in the vector, and leaves the string as it was. -/
theorem split_pieces (stringList : List (StdString w α)) (s delimiters : StdString w α) :
    ∃ pieces, split stringList s delimiters = some (stringList ++ pieces, s) ∧
      pieces.length = s.chars.countP (· ∈ delimiters.chars) + 1 ∧
      (∀ piece ∈ pieces, ∀ c ∈ piece.chars, c ∉ delimiters.chars) ∧
      interleave (pieces.map StdString.chars) (s.chars.filter (· ∈ delimiters.chars)) =
        s.chars := by
  have hstart : (npos w + 1#w).toNat = 0 := by
    rw [npos_add_one, BitVec.toNat_zero]
  obtain ⟨pieces, hsplit, hpieces⟩ := splitFrom_eq s delimiters (npos w) stringList
    (by rw [hstart]; exact Nat.zero_le _)
  rw [hstart, List.drop_zero] at hpieces
  refine ⟨pieces, ?_, ?_, fun piece hpiece c hc hmem => ?_, ?_⟩
  · rw [split, hsplit, Option.map_some]
  · rw [← length_splitOnP, ← hpieces, List.length_map]
  · have hin : piece.chars ∈ s.chars.splitOnP (· ∈ delimiters.chars) := by
      rw [← hpieces]
      exact List.mem_map_of_mem hpiece
    exact not_of_mem_splitOnP hin c hc (decide_eq_true hmem)
  · rw [hpieces, interleave_splitOnP]

end

end RemoteControl.Utils
