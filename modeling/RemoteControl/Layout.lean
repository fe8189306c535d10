import Mathlib.Algebra.GroupWithZero.Nat
import Mathlib.Data.List.SplitLengths
import Mathlib.Data.Nat.Notation
import Mathlib.Tactic.Common

/-!
# Lines and columns

A text is made of lines, each with a newline at its end, and perhaps of something behind
the last newline. Lines can be laid out in columns: each column takes the next few lines,
and they are read row by row.

* `splitLines`, `unlines` — a text and its lines.
* `columns` — as many lines to each column as to every other one, the first ones taking one
  more where that does not come out even.
* `cells` — the lines of some columns row by row, each with the number of its column.
* `cells_perm`, `getElem?_cells` — which lines these are, and where each of them is.
-/

namespace Layout

universe u

variable {α β : Type u}

/-! ## Lines -/

/-- Lines put together, each with a newline at its end. -/
def unlines (nl : α) (lines : List (List α)) : List α := lines.flatMap (· ++ [nl])

@[simp] theorem unlines_nil (nl : α) : unlines nl [] = [] := rfl

@[simp] theorem unlines_cons (nl : α) (line : List α) (lines : List (List α)) :
    unlines nl (line :: lines) = line ++ nl :: unlines nl lines := by
  simp [unlines]

theorem unlines_append (nl : α) (lines more : List (List α)) :
    unlines nl (lines ++ more) = unlines nl lines ++ unlines nl more :=
  List.flatMap_append

variable [DecidableEq α]

/-- The lines of a text, and what is behind the last newline. -/
def splitLines (nl : α) : List α → List (List α) × List α
  | [] => ([], [])
  | c :: text =>
    match splitLines nl text with
    | (lines, rest) =>
      if c = nl then ([] :: lines, rest)
      else
        match lines with
        | [] => ([], c :: rest)
        | line :: lines => ((c :: line) :: lines, rest)

/-- A text is its lines, without newlines of their own, and what is behind them. -/
theorem splitLines_spec (nl : α) (text : List α) :
    unlines nl (splitLines nl text).1 ++ (splitLines nl text).2 = text ∧
      (∀ line ∈ (splitLines nl text).1, nl ∉ line) ∧ nl ∉ (splitLines nl text).2 := by
  induction text with
  | nil => simp [splitLines]
  | cons c text ih =>
    rw [splitLines]
    rcases h : splitLines nl text with ⟨lines, rest⟩
    rw [h] at ih
    obtain ⟨hwhole, hlines, hrest⟩ := ih
    dsimp only at hwhole hlines hrest ⊢
    by_cases hc : c = nl
    · subst hc
      rw [if_pos rfl]
      refine ⟨?_, ?_, hrest⟩
      · simpa using hwhole
      · simpa using hlines
    · rw [if_neg hc]
      rcases lines with _ | ⟨line, lines⟩
      · refine ⟨?_, by simp, ?_⟩
        · simpa using hwhole
        · simpa using ⟨Ne.symm hc, hrest⟩
      · obtain ⟨hline, hlines⟩ := List.forall_mem_cons.mp hlines
        refine ⟨?_, ?_, hrest⟩
        · simpa using hwhole
        · refine List.forall_mem_cons.mpr ⟨?_, hlines⟩
          simpa using ⟨Ne.symm hc, hline⟩

/-- There are as many lines as newlines. -/
theorem length_splitLines (nl : α) (text : List α) :
    (splitLines nl text).1.length = text.count nl := by
  induction text with
  | nil => rfl
  | cons c text ih =>
    rw [splitLines, List.count_cons, ← ih]
    rcases splitLines nl text with ⟨lines, rest⟩
    dsimp only
    by_cases hc : c = nl
    · simp [hc]
    · rw [if_neg hc]
      rcases lines with _ | ⟨line, lines⟩ <;> simp [hc]

/-! ## Columns -/

/-- How many of `n` lines each of `m` columns takes. -/
def heights (n m : ℕ) : List ℕ :=
  (List.range m).map fun column => n / m + if column < n % m then 1 else 0

/-- Lines in `m` columns. -/
def columns (m : ℕ) (lines : List β) : List (List β) :=
  (heights lines.length m).splitLengths lines

/-- The next row of some columns, the first of which has the number `column`. -/
def rowCells : ℕ → List (List β) → List (ℕ × β)
  | _, [] => []
  | column, [] :: rest => rowCells (column + 1) rest
  | column, (line :: _) :: rest => (column, line) :: rowCells (column + 1) rest

/-- So many rows of some columns. -/
def cells : ℕ → List (List β) → List (ℕ × β)
  | 0, _ => []
  | rows + 1, cols => rowCells 0 cols ++ cells rows (cols.map List.tail)

/-- A row takes the first line of each column that has one. -/
theorem rowCells_perm (cols : List (List β)) : ∀ column : ℕ,
    ((rowCells column cols).map Prod.snd ++ (cols.map List.tail).flatten).Perm cols.flatten := by
  induction cols with
  | nil => exact fun _ => .nil
  | cons col cols ih =>
    intro column
    rcases col with _ | ⟨line, col⟩
    · exact ih (column + 1)
    -- the first line of the column, the others after those of the row
    · have hrow := ih (column + 1)
      simp only [rowCells, List.map_cons, List.tail_cons, List.flatten_cons, List.cons_append]
      exact .cons line ((List.perm_append_comm_assoc _ _ _).trans (hrow.append_left col))

/-- When there are enough rows, they have all the lines. -/
theorem cells_perm {rows : ℕ} : ∀ {cols : List (List β)}, (∀ col ∈ cols, col.length ≤ rows) →
    ((cells rows cols).map Prod.snd).Perm cols.flatten := by
  induction rows with
  | zero =>
    intro cols h
    have hnil : cols.flatten = [] := by
      rw [List.flatten_eq_nil_iff]
      exact fun col hcol => List.length_eq_zero_iff.mp (Nat.le_zero.mp (h col hcol))
    rw [hnil]
    exact .nil
  | succ rows ih =>
    intro cols h
    have htails : ∀ col ∈ cols.map List.tail, col.length ≤ rows := by
      intro col hcol
      obtain ⟨col, hmem, rfl⟩ := List.mem_map.mp hcol
      have hle := h col hmem
      rw [List.length_tail]
      omega
    rw [cells, List.map_append]
    exact ((ih htails).append_left _).trans (rowCells_perm cols 0)

/-- Up to the first column that is used up, a row has a cell from each column. -/
theorem getElem?_rowCells {count : ℕ} : ∀ {cols : List (List β)} {column : ℕ},
    (∀ j < count, ∃ line rest, cols[j]? = some (line :: rest)) → ∀ j < count,
      (rowCells column cols)[j]? = (cols[j]?.bind List.head?).map (column + j, ·) := by
  induction count with
  | zero => exact fun _ j hj => absurd hj (Nat.not_lt_zero j)
  | succ count ih =>
    intro cols column h j hj
    obtain ⟨line, rest, hfirst⟩ := h 0 (Nat.succ_pos count)
    rcases cols with _ | ⟨col, cols⟩
    · cases hfirst
    · obtain rfl : col = line :: rest := Option.some.inj hfirst
      rcases j with _ | j
      · rfl
      · have hnext : (rowCells (column + 1) cols)[j]? = _ :=
          ih (fun j hj => h (j + 1) (Nat.succ_lt_succ hj)) j (Nat.lt_of_succ_lt_succ hj)
        rw [rowCells, List.getElem?_cons_succ, List.getElem?_cons_succ, hnext, Nat.add_assoc,
          Nat.add_comm 1 j]

theorem length_rowCells {cols : List (List β)} : ∀ {column : ℕ}, (∀ col ∈ cols, col ≠ []) →
    (rowCells column cols).length = cols.length := by
  induction cols with
  | nil => exact fun _ => rfl
  | cons col cols ih =>
    intro column h
    obtain ⟨hcol, hcols⟩ := List.forall_mem_cons.mp h
    rcases col with _ | ⟨line, rest⟩
    · exact absurd rfl hcol
    · rw [rowCells, List.length_cons, List.length_cons, ih hcols]

/-- Columns with `low` lines each, the first `extra` of them with one more. -/
def Shaped (low extra : ℕ) (cols : List (List β)) : Prop :=
  ∀ j col, cols[j]? = some col → col.length = low + if j < extra then 1 else 0

/-- Behind the first row there is a line less in each column. -/
theorem Shaped.tails {low extra : ℕ} {cols : List (List β)} (h : Shaped (low + 1) extra cols) :
    Shaped low extra (cols.map List.tail) := by
  intro j col hcol
  rw [List.getElem?_map] at hcol
  obtain ⟨whole, hwhole, rfl⟩ := Option.map_eq_some_iff.mp hcol
  rw [List.length_tail, h j whole hwhole]
  omega

/-- While no column is used up, a row has a cell from each. -/
theorem Shaped.length_rowCells {low extra column : ℕ} {cols : List (List β)}
    (h : Shaped (low + 1) extra cols) : (rowCells column cols).length = cols.length := by
  apply Layout.length_rowCells
  intro col hcol
  obtain ⟨j, hj, rfl⟩ := List.getElem_of_mem hcol
  rw [Ne, ← List.length_eq_zero_iff, h j _ (List.getElem?_eq_getElem hj)]
  omega

/-- The first row has a cell from each column that is not used up: from all of them, or from
those with one more line. -/
theorem Shaped.firstRow {low extra count : ℕ} {cols : List (List β)} (h : Shaped low extra cols)
    (hcount : count ≤ cols.length) (hsome : 0 < low ∨ count ≤ extra) {i : ℕ} (hi : i < count) :
    i < (rowCells 0 cols).length ∧
      (rowCells 0 cols)[i]? = (cols[i]?.bind (·[0]?)).map (i, ·) := by
  have hlines : ∀ j < count, ∃ line rest, cols[j]? = some (line :: rest) := by
    intro j hj
    have hcol := List.getElem?_eq_getElem (show j < cols.length by omega)
    have hlen := h j _ hcol
    have hne : cols[j] ≠ [] := by
      rw [Ne, ← List.length_eq_zero_iff, hlen]
      split <;> omega
    obtain ⟨line, rest, hcons⟩ := List.exists_cons_of_ne_nil hne
    exact ⟨line, rest, by rw [hcol, hcons]⟩
  have hrow : (rowCells 0 cols)[i]? = _ := getElem?_rowCells hlines i hi
  obtain ⟨line, rest, hcol⟩ := hlines i hi
  rw [hcol, Nat.zero_add] at hrow
  rw [hcol]
  exact ⟨(List.getElem?_eq_some_iff.mp hrow).1, hrow⟩

/-- Of `m` columns, the first `extra` of them with one more line than the others, the `i`-th
cell is in row `i / m`. -/
theorem getElem?_cells {m low extra : ℕ} (hextra : extra ≤ m) : ∀ {rows : ℕ}
    {cols : List (List β)}, cols.length = m → Shaped low extra cols →
    (low + if 0 < extra then 1 else 0) ≤ rows → ∀ i < low * m + extra,
      (cells rows cols)[i]? = (cols[i % m]?.bind (·[i / m]?)).map (i % m, ·) := by
  induction low with
  | zero =>
    intro rows cols hm hshape hrows i hi
    rw [Nat.zero_mul, Nat.zero_add] at hi
    rw [if_pos (Nat.zero_lt_of_lt hi)] at hrows
    obtain ⟨rows, rfl⟩ : ∃ r, rows = r + 1 := ⟨rows - 1, by omega⟩
    obtain ⟨hlt, hcell⟩ := hshape.firstRow (by omega) (.inr (Nat.le_refl extra)) hi
    rw [cells, List.getElem?_append_left hlt, hcell, Nat.mod_eq_of_lt (by omega),
      Nat.div_eq_of_lt (by omega)]
  | succ low ih =>
    intro rows cols hm hshape hrows i hi
    have hmpos : 0 < m := by
      rcases Nat.eq_zero_or_pos m with rfl | hpos
      · rw [Nat.mul_zero] at hi
        omega
      · exact hpos
    obtain ⟨rows, rfl⟩ : ∃ r, rows = r + 1 := ⟨rows - 1, by omega⟩
    rw [cells]
    by_cases him : i < m
    · obtain ⟨hlt, hcell⟩ := hshape.firstRow (by omega) (.inl (Nat.succ_pos low)) him
      rw [List.getElem?_append_left hlt, hcell, Nat.mod_eq_of_lt him, Nat.div_eq_of_lt him]
    -- behind the first row it is a cell of what the columns have left
    · have hfull : (rowCells 0 cols).length = m := hshape.length_rowCells.trans hm
      have hi' : i - m < low * m + extra := by
        rw [Nat.succ_mul] at hi
        omega
      have hnext : (cells rows (cols.map List.tail))[i - m]? = _ :=
        ih (by rw [List.length_map, hm]) hshape.tails (by omega) (i - m) hi'
      have hmod : (i - m) % m = i % m := (Nat.mod_eq_sub_mod (by omega)).symm
      have hdiv : i / m = (i - m) / m + 1 := Nat.div_eq_sub_div (by omega) (by omega)
      rw [List.getElem?_append_right (by omega), hfull, hnext, hmod, hdiv, List.getElem?_map]
      rcases cols[i % m]? with _ | col
      · rfl
      · simp [List.getElem?_tail]

/-! ## Where the lines are -/

/-- The line in a row and a column, when lines are laid out in `m` columns. -/
def lineAt (m : ℕ) (lines : List β) (row column : ℕ) : Option β :=
  lines[column * (lines.length / m) + min column (lines.length % m) + row]?

/-- How many rows there are. -/
def rowCount (n m : ℕ) : ℕ := n / m + if 0 < n % m then 1 else 0

theorem sum_heights (low extra j : ℕ) :
    ((List.range j).map fun column => low + if column < extra then 1 else 0).sum =
      j * low + min j extra := by
  induction j with
  | zero => simp
  | succ j ih =>
    rw [List.range_succ, List.map_append, List.sum_append_nat, ih, Nat.succ_mul]
    simp only [List.map_singleton, List.sum_singleton]
    split <;> omega

theorem getElem?_splitLengths (sizes : List ℕ) : ∀ (lines : List β) (j : ℕ),
    (sizes.splitLengths lines)[j]? =
      sizes[j]?.map fun n => (lines.drop (sizes.take j).sum).take n := by
  induction sizes with
  | nil => simp
  | cons n sizes ih =>
    intro lines j
    rcases j with _ | j
    · simp
    · simp [ih]

theorem length_columns {m : ℕ} {lines : List β} : (columns m lines).length = m := by
  simp [columns, heights]

/-- The column `j` has the lines from where those before it end. -/
theorem getElem?_columns {m j : ℕ} (hj : j < m) (lines : List β) :
    (columns m lines)[j]? = some
      ((lines.drop (j * (lines.length / m) + min j (lines.length % m))).take
        (lines.length / m + if j < lines.length % m then 1 else 0)) := by
  have hheight : (heights lines.length m)[j]? =
      some (lines.length / m + if j < lines.length % m then 1 else 0) := by
    simp [heights, hj]
  have hbefore : ((heights lines.length m).take j).sum =
      j * (lines.length / m) + min j (lines.length % m) := by
    rw [heights, ← List.map_take, List.take_range, Nat.min_eq_left (Nat.le_of_lt hj), sum_heights]
  rw [columns, getElem?_splitLengths, hheight, hbefore]
  rfl

/-- All lines have a column. -/
theorem sum_heights_eq {m : ℕ} (hm : 0 < m) (n : ℕ) : (heights n m).sum = n := by
  have hmod := Nat.mod_lt n hm
  rw [heights, sum_heights, Nat.min_eq_right (Nat.le_of_lt hmod), Nat.div_add_mod]

theorem length_column {m : ℕ} (hm : 0 < m) {lines : List β} {j : ℕ} {col : List β}
    (h : (columns m lines)[j]? = some col) :
    col.length = lines.length / m + if j < lines.length % m then 1 else 0 := by
  have hj : j < m := by
    rw [← @length_columns _ m lines]
    exact (List.getElem?_eq_some_iff.mp h).1
  have hlengths : (columns m lines).map List.length = heights lines.length m :=
    List.map_splitLengths_length _ _ (Nat.le_of_eq (sum_heights_eq hm _))
  have hcol := congrArg (·[j]?) hlengths
  simpa [h, heights, hj] using hcol

theorem flatten_columns {m : ℕ} (hm : 0 < m) (lines : List β) :
    (columns m lines).flatten = lines :=
  List.flatten_splitLengths _ _ (Nat.le_of_eq (sum_heights_eq hm _).symm)

/-- Row by row, the columns have all the lines. -/
theorem cells_columns_perm {m : ℕ} (hm : 0 < m) (lines : List β) :
    ((cells (rowCount lines.length m) (columns m lines)).map Prod.snd).Perm lines := by
  have hrows : ∀ col ∈ columns m lines, col.length ≤ rowCount lines.length m := by
    intro col hcol
    obtain ⟨j, hj⟩ := List.getElem?_of_mem hcol
    rw [length_column hm hj, rowCount]
    split <;> split <;> omega
  have hperm := cells_perm hrows
  rwa [flatten_columns hm] at hperm

/-- The `i`-th of them is the one in row `i / m` and column `i % m`. -/
theorem getElem?_cells_columns {m : ℕ} (hm : 0 < m) {lines : List β} {i : ℕ}
    (hi : i < lines.length) : (cells (rowCount lines.length m) (columns m lines))[i]? =
      (lineAt m lines (i / m) (i % m)).map (i % m, ·) := by
  have hmod := Nat.mod_lt i hm
  have hwhole := Nat.div_add_mod lines.length m
  have hplace := Nat.div_add_mod i m
  have hcell : (cells (rowCount lines.length m) (columns m lines))[i]? = _ :=
    getElem?_cells (Nat.le_of_lt (Nat.mod_lt lines.length hm)) length_columns
      (fun j col => length_column hm) (Nat.le_refl _) i
      (by rwa [Nat.mul_comm, hwhole])
  -- the column reaches down to this row
  have hreach : i / m < lines.length / m + if i % m < lines.length % m then 1 else 0 := by
    have hle : i / m ≤ lines.length / m := Nat.div_le_div_right (Nat.le_of_lt hi)
    rcases Nat.lt_or_eq_of_le hle with hlt | heq
    · omega
    · rw [heq] at hplace
      rw [if_pos (by omega)]
      omega
  rw [hcell, getElem?_columns hmod, Option.bind_some, List.getElem?_take, if_pos hreach,
    List.getElem?_drop, lineAt]

end Layout
