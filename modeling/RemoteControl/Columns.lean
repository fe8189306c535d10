import RemoteControl.Display
import RemoteControl.Layout

/-!
# The blocks of a response in columns

`formatColumns` copies a response character by character. Behind `remoteData` it takes each
opening brace for the start of a block, whose lines, up to the next closing brace, it lays out
in columns.

* `transcribe` — the copying, with the loops for a block in the order of the code.
* `segments` — the text apart from the blocks, and the blocks with their lines.
* `formatColumns_eq` — the result is made of these: the text as it is, the lines of each block
  row by row.
-/

namespace RemoteControl.Display

open Layout

/-- `colsize`. -/
def colsize : ℕ := 52

/-- `numcols`, for a console of the given width. -/
def numcols (width : UInt16) : ℕ := min (width.toNat / colsize) 4

/-- `str.find("remoteData")`. -/
def findRemoteData (str : List Char) : Option ℕ :=
  let pattern := ['r', 'e', 'm', 'o', 't', 'e', 'D', 'a', 't', 'a']
  let i := Searching.search (· = ·) pattern str
  if i < str.length then some i else none

/-! ## A block -/

/-- `do { inidx++; outstr.push_back(str[inidx]); } while (str[inidx] != '\n'); inidx++;`. To
read the terminator is a fault here, since the loop goes on behind it. -/
def openBlock (str : List Char) (inidx : ℕ) (outstr : List Char) :
    Except Fault (ℕ × List Char) :=
  if h : inidx + 1 < str.length then
    if str[inidx + 1] = '\n' then .ok (inidx + 2, outstr ++ [str[inidx + 1]])
    else openBlock str (inidx + 1) (outstr ++ [str[inidx + 1]])
  else .error .outOfBounds
termination_by str.length - inidx

/-- Count the lines of `rest` up to the next closing brace. -/
def countLines : List Char → ℕ → Except Fault ℕ
  | [], totallines => .ok totallines
  | c :: rest, totallines =>
    if c = '\n' then
      if totallines + 1 < 2 ^ 31 then countLines rest (totallines + 1) else .error .overflow
    else if c = '}' then .ok totallines
    else countLines rest totallines

/-- `collines`, for the columns that are left and the lines that are left over. -/
def allocate (baselines : ℕ) : ℕ → ℕ → List ℕ
  | 0, _ => []
  | columns + 1, xtra =>
    (baselines + if 0 < xtra then 1 else 0) :: allocate baselines columns (xtra - 1)

/-- Load `collines` lines into a column: `inidx` after that, and the column. -/
def loadColumn (str : List Char) (collines inidx : ℕ) (colstr : List Char) : ℕ × List Char :=
  if h : inidx < str.length then
    if 0 < collines then
      loadColumn str (if str[inidx] = '\n' then collines - 1 else collines) (inidx + 1)
        (colstr ++ [str[inidx]])
    else (inidx, colstr)
  else (inidx, colstr)
termination_by str.length - inidx

/-- Load the columns. -/
def loadColumns (str : List Char) : List ℕ → ℕ → ℕ × List (List Char)
  | [], inidx => (inidx, [])
  | collines :: more, inidx =>
    let column := loadColumn str collines inidx []
    let columns := loadColumns str more column.1
    (columns.1, column.2 :: columns.2)

/-- `pad`, for a line of length `idx`. -/
def padding (idx : ℕ) : Except Fault ℕ :=
  if idx ≤ colsize then .ok (colsize - idx) else .error .wrapped

/-- The next line of the column `j`: what it adds to `outline`, what is left of the column, and
`totallines` after it. -/
def takeLine (numcols j : ℕ) (colstr : List Char) (totallines : ℕ) :
    Except Fault (List Char × List Char × ℕ) :=
  if colstr ≠ [] ∧ 0 < totallines then
    match colstr.findIdx? (· = '\n') with
    | none => .ok ([], colstr, totallines)
    | some idx =>
      let line := colstr.take (idx + 1)
      let left := colstr.drop (idx + 1)
      if j < numcols - 1 ∧ 0 < totallines - 1 then
        (padding idx).map fun pad =>
          (line.dropLast ++ List.replicate pad ' ', left, totallines - 1)
      else .ok (line, left, totallines - 1)
  else .ok ([], colstr, totallines)

/-- `outline`, from the column `j` on. -/
def buildRow (numcols : ℕ) : ℕ → List (List Char) → ℕ →
    Except Fault (List Char × List (List Char) × ℕ)
  | _, [], totallines => .ok ([], [], totallines)
  | j, colstr :: more, totallines =>
    match takeLine numcols j colstr totallines with
    | .error fault => .error fault
    | .ok (text, left, totallines) =>
      (buildRow numcols (j + 1) more totallines).map fun row =>
        (text ++ row.1, left :: row.2.1, row.2.2)

/-- All the rows. -/
def buildRows (numcols : ℕ) : ℕ → List (List Char) → ℕ → Except Fault (List Char)
  | 0, _, _ => .ok []
  | outlines + 1, colstr, totallines =>
    match buildRow numcols 0 colstr totallines with
    | .error fault => .error fault
    | .ok (outline, colstr, totallines) =>
      (buildRows numcols outlines colstr totallines).map (outline ++ ·)

/-- A block, from its opening brace at `inidx` on. -/
def layBlock (numcols : ℕ) (str : List Char) (inidx : ℕ) (outstr : List Char) :
    Except Fault (ℕ × List Char) :=
  match openBlock str inidx outstr with
  | .error fault => .error fault
  | .ok (inidx, outstr) =>
    match countLines (str.drop inidx) 0 with
    | .error fault => .error fault
    | .ok totallines =>
      let baselines := totallines / numcols
      let xtra := totallines % numcols
      let outlines := baselines + if 0 < xtra then 1 else 0
      let loaded := loadColumns str (allocate baselines numcols xtra) inidx
      -- back to the final newline
      (buildRows numcols outlines loaded.2 totallines).map fun rows =>
        (loaded.1 - 1, outstr ++ rows)

/-! ## The copying -/

theorem lt_of_openBlock {str outstr outstr' : List Char} {inidx inidx' : ℕ}
    (h : openBlock str inidx outstr = .ok (inidx', outstr')) : inidx + 1 < inidx' := by
  fun_induction openBlock str inidx outstr with
  | case1 inidx outstr hlt hnl =>
    obtain ⟨rfl, -⟩ := Prod.mk.inj (Except.ok.inj h)
    exact Nat.lt_succ_self _
  | case2 inidx outstr hlt hnl ih => exact Nat.lt_of_succ_lt (ih h)
  | case3 inidx outstr hge => cases h

theorem le_loadColumn (str : List Char) (collines inidx : ℕ) (colstr : List Char) :
    inidx ≤ (loadColumn str collines inidx colstr).1 := by
  fun_induction loadColumn str collines inidx colstr with
  | case1 collines inidx colstr hlt hpos ih => exact Nat.le_of_succ_le ih
  | case2 => exact Nat.le_refl _
  | case3 => exact Nat.le_refl _

theorem le_loadColumns (str : List Char) : ∀ (collines : List ℕ) (inidx : ℕ),
    inidx ≤ (loadColumns str collines inidx).1 := by
  intro collines
  induction collines with
  | nil => exact fun inidx => Nat.le_refl inidx
  | cons n more ih => exact fun inidx => Nat.le_trans (le_loadColumn str n inidx []) (ih _)

/-- A block is left behind its opening brace. -/
theorem lt_of_layBlock {numcols inidx inidx' : ℕ} {str outstr outstr' : List Char}
    (h : layBlock numcols str inidx outstr = .ok (inidx', outstr')) : inidx < inidx' := by
  rw [layBlock] at h
  split at h
  · cases h
  · rename_i start outstr₁ hopen
    have hstart := lt_of_openBlock hopen
    split at h
    · cases h
    · rename_i totallines hcount
      have hload := le_loadColumns str
        (allocate (totallines / numcols) numcols (totallines % numcols)) start
      dsimp only at h
      rcases hrows : buildRows numcols _ _ totallines with fault | rows
      · rw [hrows] at h
        cases h
      · rw [hrows] at h
        obtain ⟨rfl, -⟩ := Prod.mk.inj (Except.ok.inj h)
        omega

/-- The loop that copies, from `inidx` on. -/
def transcribe (numcols idxRemoteData : ℕ) (str : List Char) (inidx : ℕ)
    (outstr : List Char) : Except Fault (List Char) :=
  if h : inidx < str.length then
    let outstr := outstr ++ [str[inidx]]
    if idxRemoteData < inidx ∧ str[inidx] = '{' then
      match _h : layBlock numcols str inidx outstr with
      | .error fault => .error fault
      | .ok (inidx', outstr') => transcribe numcols idxRemoteData str (inidx' + 1) outstr'
    else transcribe numcols idxRemoteData str (inidx + 1) outstr
  else .ok outstr
termination_by str.length - inidx
decreasing_by
  · have hlt := lt_of_layBlock _h
    omega
  · omega

/-- `formatColumns(str)` on a console of the given width. -/
def formatColumns (width : UInt16) (str : List Char) : Except Fault (List Char) :=
  if numcols width < 2 then .ok str
  else
    match findRemoteData str with
    | none => .ok str
    | some idxRemoteData => transcribe (numcols width) idxRemoteData str 0 []

/-! ## Text and blocks -/

/-- A part of a response. -/
inductive Segment where
  /-- what is copied as it is -/
  | text (chars : List Char)
  /-- the lines of a block -/
  | block (lines : List (List Char))
  deriving DecidableEq

/-- The characters of a part. -/
def Segment.chars : Segment → List Char
  | .text chars => chars
  | .block lines => unlines '\n' lines

/-- The lines up to the next closing brace. -/
def blockLines (body : List Char) : List (List Char) :=
  (splitLines '\n' (body.takeWhile (· ≠ '}'))).1

/-- The parts behind `remoteData`. An opening brace and the newline behind it are not in
the block. -/
def blocksOf : List Char → List Segment
  | [] => []
  | c :: rest =>
    if c = '{' then
      let lines := blockLines (rest.drop 1)
      .text (c :: rest.take 1) :: .block lines ::
        blocksOf ((rest.drop 1).drop (unlines '\n' lines).length)
    else .text [c] :: blocksOf rest
termination_by rest => rest.length

/-- The parts of a response. -/
def segments (width : UInt16) (str : List Char) : List Segment :=
  if numcols width < 2 then [.text str]
  else
    match findRemoteData str with
    | none => [.text str]
    | some idxRemoteData =>
      .text (str.take (idxRemoteData + 1)) :: blocksOf (str.drop (idxRemoteData + 1))

/-- What is laid out of a line in the column `j` when `totallines` lines are left with it: the
line padded, unless it is in the last column or the last line. -/
def laidLine (numcols totallines j : ℕ) (line : List Char) : Except Fault (List Char) :=
  if j < numcols - 1 ∧ 0 < totallines - 1 then
    (padding line.length).map fun pad => line ++ List.replicate pad ' '
  else .ok (line ++ ['\n'])

/-- One text behind another, unless there is a fault. -/
def followedBy (first more : Except Fault (List Char)) : Except Fault (List Char) :=
  match first with
  | .error fault => .error fault
  | .ok text => more.map (text ++ ·)

/-- Lines laid out one after the other, each with its column. -/
def lay (numcols : ℕ) : ℕ → List (ℕ × List Char) → Except Fault (List Char)
  | _, [] => .ok []
  | totallines, (j, line) :: more =>
    followedBy (laidLine numcols totallines j line) (lay numcols (totallines - 1) more)

/-- What is copied of a part. -/
def Segment.laid (numcols : ℕ) : Segment → Except Fault (List Char)
  | .text chars => .ok chars
  | .block lines =>
    if lines.length < 2 ^ 31 then
      lay numcols lines.length (cells (rowCount lines.length numcols) (columns numcols lines))
    else .error .overflow

/-- What is copied of all parts. -/
def laidOut (numcols : ℕ) : List Segment → Except Fault (List Char)
  | [] => .ok []
  | segment :: more => followedBy (segment.laid numcols) (laidOut numcols more)

theorem followedBy_eq_ok {first more : Except Fault (List Char)} {out : List Char} :
    followedBy first more = .ok out ↔
      ∃ text rest, first = .ok text ∧ more = .ok rest ∧ out = text ++ rest := by
  rcases first with fault | text
  · simp [followedBy]
  · rcases more with fault | rest
    · simp [followedBy, Except.map]
    · simp [followedBy, Except.map, eq_comm]

/-- There is a result exactly when there are both texts. -/
theorem exists_followedBy {first more : Except Fault (List Char)} :
    (∃ out, followedBy first more = .ok out) ↔
      (∃ text, first = .ok text) ∧ ∃ rest, more = .ok rest := by
  simp only [followedBy_eq_ok]
  constructor
  · rintro ⟨_, text, rest, htext, hrest, -⟩
    exact ⟨⟨text, htext⟩, rest, hrest⟩
  · rintro ⟨⟨text, htext⟩, rest, hrest⟩
    exact ⟨_, text, rest, htext, hrest, rfl⟩

theorem followedBy_assoc (first second third : Except Fault (List Char)) :
    followedBy (followedBy first second) third = followedBy first (followedBy second third) := by
  rcases first with fault | text
  · rfl
  · rcases second with fault | text'
    · rfl
    · rcases third with fault | text''
      · rfl
      · simp [followedBy, Except.map]

@[simp] theorem nil_followedBy (more : Except Fault (List Char)) :
    followedBy (.ok []) more = more := by
  rcases more with fault | text
  · rfl
  · rfl

/-! ### The loops for a block -/

theorem openBlock_eq {str outstr : List Char} {inidx : ℕ}
    (h : str[inidx + 1]? = some '\n') :
    openBlock str inidx outstr = .ok (inidx + 2, outstr ++ ['\n']) := by
  obtain ⟨hlt, hnl⟩ := List.getElem?_eq_some_iff.mp h
  rw [openBlock, dif_pos hlt, if_pos hnl, hnl]

theorem countLines_eq (rest : List Char) : ∀ totallines : ℕ, totallines < 2 ^ 31 →
    countLines rest totallines =
      if totallines + (blockLines rest).length < 2 ^ 31 then
        .ok (totallines + (blockLines rest).length)
      else .error .overflow := by
  have hcons : ∀ c rest, (blockLines (c :: rest)).length =
      if c = '\n' then (blockLines rest).length + 1
      else if c = '}' then 0 else (blockLines rest).length := by
    intro c rest
    simp only [blockLines, length_splitLines]
    by_cases hnl : c = '\n'
    · subst hnl
      simp
    · by_cases hclose : c = '}'
      · simp [hclose]
      · simp [hnl, hclose]
  induction rest with
  | nil =>
    intro totallines h
    exact (if_pos h).symm
  | cons c rest ih =>
    intro totallines h
    rw [countLines, hcons]
    by_cases hnl : c = '\n'
    · rw [if_pos hnl, if_pos hnl]
      by_cases hfits : totallines + 1 < 2 ^ 31
      · rw [if_pos hfits, ih _ hfits, Nat.add_assoc, Nat.add_comm 1]
      · rw [if_neg hfits, if_neg (by omega)]
    · rw [if_neg hnl, if_neg hnl]
      by_cases hclose : c = '}'
      · rw [if_pos hclose, if_pos hclose, Nat.add_zero, if_pos h]
      · rw [if_neg hclose, if_neg hclose, ih _ h]

theorem allocate_eq (baselines : ℕ) : ∀ columns xtra : ℕ,
    allocate baselines columns xtra =
      (List.range columns).map fun column => baselines + if column < xtra then 1 else 0 := by
  intro columns
  induction columns with
  | zero => exact fun _ => rfl
  | succ columns ih =>
    intro xtra
    rw [allocate, ih, List.range_succ_eq_map, List.map_cons, List.map_map]
    congr 2
    funext column
    exact congrArg (baselines + ·) (if_congr (by omega) rfl rfl)

/-- What is read where a string goes on. -/
theorem of_drop_eq_cons {str rest : List Char} {i : ℕ} {c : Char}
    (h : str.drop i = c :: rest) : ∃ hi : i < str.length, str[i] = c ∧ str.drop (i + 1) = rest := by
  have hi : i < str.length := by
    rw [← List.drop_eq_nil_iff.not.trans Nat.not_le, h]
    exact List.cons_ne_nil _ _
  rw [List.drop_eq_getElem_cons hi] at h
  obtain ⟨hc, hrest⟩ := List.cons.inj h
  exact ⟨hi, hc, hrest⟩

theorem loadColumn_zero (str : List Char) (inidx : ℕ) (colstr : List Char) :
    loadColumn str 0 inidx colstr = (inidx, colstr) := by
  rw [loadColumn]
  split
  · rfl
  · rfl

/-- One line is loaded up to its newline. -/
theorem loadColumn_line {str : List Char} {collines : ℕ} {line rest : List Char}
    (hline : '\n' ∉ line) : ∀ {inidx : ℕ} {colstr : List Char},
      str.drop inidx = line ++ '\n' :: rest → loadColumn str (collines + 1) inidx colstr =
        loadColumn str collines (inidx + (line.length + 1)) (colstr ++ (line ++ ['\n'])) := by
  induction line with
  | nil =>
    intro inidx colstr hdrop
    obtain ⟨hi, hc, -⟩ := of_drop_eq_cons hdrop
    rw [loadColumn, dif_pos hi, if_pos (Nat.succ_pos collines), hc]
    rfl
  | cons c line ih =>
    intro inidx colstr hdrop
    obtain ⟨hi, hc, hnext⟩ := of_drop_eq_cons hdrop
    obtain ⟨hne, hline⟩ := not_or.mp (List.mem_cons.not.mp hline)
    rw [loadColumn, dif_pos hi, if_pos (Nat.succ_pos collines), hc, if_neg (Ne.symm hne),
      ih hline hnext]
    simp [Nat.add_assoc, Nat.add_comm 1]

theorem loadColumn_lines {str rest : List Char} {lines : List (List Char)} :
    (∀ line ∈ lines, '\n' ∉ line) → ∀ {inidx : ℕ} {colstr : List Char},
      str.drop inidx = unlines '\n' lines ++ rest → loadColumn str lines.length inidx colstr =
        (inidx + (unlines '\n' lines).length, colstr ++ unlines '\n' lines) := by
  induction lines with
  | nil =>
    intro _ inidx colstr _
    simp [loadColumn_zero]
  | cons line lines ih =>
    intro hlines inidx colstr hdrop
    obtain ⟨hline, hlines⟩ := List.forall_mem_cons.mp hlines
    rw [unlines_cons, List.append_assoc, List.cons_append] at hdrop
    have hnext : str.drop (inidx + (line.length + 1)) = unlines '\n' lines ++ rest := by
      rw [← List.drop_drop, hdrop]
      simp
    rw [List.length_cons, loadColumn_line hline hdrop, ih hlines hnext]
    simp [Nat.add_assoc, Nat.add_comm 1]

/-- The columns are loaded with the next lines, as many as each is to have. -/
theorem loadColumns_eq {str : List Char} : ∀ {sizes : List ℕ} {lines : List (List Char)}
    {inidx : ℕ} {rest : List Char}, sizes.sum = lines.length → (∀ line ∈ lines, '\n' ∉ line) →
      str.drop inidx = unlines '\n' lines ++ rest → loadColumns str sizes inidx =
        (inidx + (unlines '\n' lines).length,
          (sizes.splitLengths lines).map (unlines '\n')) := by
  intro sizes
  induction sizes with
  | nil =>
    intro lines inidx rest hsum _ _
    obtain rfl := List.length_eq_zero_iff.mp hsum.symm
    rfl
  | cons size sizes ih =>
    intro lines inidx rest hsum hlines hdrop
    rw [List.sum_cons] at hsum
    -- the lines of the first column, and those of the others
    obtain ⟨first, others, rfl, hfirst⟩ : ∃ first others, lines = first ++ others ∧
        first.length = size :=
      ⟨lines.take size, lines.drop size, (List.take_append_drop size lines).symm,
        List.length_take_of_le (by omega)⟩
    obtain ⟨hlines₁, hlines₂⟩ := List.forall_mem_append.mp hlines
    rw [unlines_append, List.append_assoc] at hdrop
    have hnext : str.drop (inidx + (unlines '\n' first).length) =
        unlines '\n' others ++ rest := by
      rw [← List.drop_drop, hdrop, List.drop_left]
    have hcolumn : loadColumn str size inidx [] = _ :=
      hfirst ▸ loadColumn_lines hlines₁ hdrop
    have hsizes : sizes.sum = others.length := by
      rw [List.length_append] at hsum
      omega
    rw [loadColumns, hcolumn, ih hsizes hlines₂ hnext, List.splitLengths_cons, ← hfirst,
      List.take_left, List.drop_left, unlines_append]
    simp [Nat.add_assoc]

/-! ### The rows of a block -/

theorem takeLine_nil (numcols j totallines : ℕ) :
    takeLine numcols j [] totallines = .ok ([], [], totallines) := by
  simp [takeLine]

/-- What the next line of a column adds to the row. -/
theorem takeLine_cons {numcols j totallines : ℕ} {line : List Char} (more : List (List Char))
    (hline : '\n' ∉ line) (hpos : 0 < totallines) :
    takeLine numcols j (unlines '\n' (line :: more)) totallines =
      (laidLine numcols totallines j line).map fun text =>
        (text, unlines '\n' more, totallines - 1) := by
  have hnone : line.findIdx? (· = '\n') = none := by
    rw [List.findIdx?_eq_none_iff]
    intro c hc
    refine decide_eq_false fun heq => hline ?_
    rwa [heq] at hc
  have hfind : (line ++ '\n' :: unlines '\n' more).findIdx? (· = '\n') = some line.length := by
    simp [List.findIdx?_append, hnone, List.findIdx?_cons]
  have htake : (line ++ '\n' :: unlines '\n' more).take (line.length + 1) = line ++ ['\n'] := by
    rw [List.take_length_add_append]
    rfl
  have hdrop : (line ++ '\n' :: unlines '\n' more).drop (line.length + 1) =
      unlines '\n' more := by
    rw [List.drop_length_add_append]
    rfl
  have hne : line ++ '\n' :: unlines '\n' more ≠ [] := by simp
  rw [takeLine, unlines_cons, if_pos ⟨hne, hpos⟩, hfind]
  simp only [htake, hdrop, List.dropLast_concat, laidLine]
  by_cases hpad : j < numcols - 1 ∧ 0 < totallines - 1
  · rw [if_pos hpad, if_pos hpad]
    rcases padding line.length with fault | pad
    · rfl
    · rfl
  · rw [if_neg hpad, if_neg hpad]
    rfl

theorem lay_append (numcols : ℕ) (cells more : List (ℕ × List Char)) : ∀ totallines : ℕ,
    lay numcols totallines (cells ++ more) =
      followedBy (lay numcols totallines cells)
        (lay numcols (totallines - cells.length) more) := by
  induction cells with
  | nil => exact fun totallines => (nil_followedBy _).symm
  | cons cell cells ih =>
    intro totallines
    rw [List.cons_append, lay, lay, ih, followedBy_assoc, List.length_cons, Nat.sub_sub,
      Nat.add_comm 1]

/-- A row lays out the next line of each column that has one. -/
theorem buildRow_eq (numcols : ℕ) : ∀ {cols : List (List (List Char))},
    (∀ col ∈ cols, ∀ line ∈ col, '\n' ∉ line) → ∀ {j totallines : ℕ},
      (rowCells j cols).length ≤ totallines →
        buildRow numcols j (cols.map (unlines '\n')) totallines =
          (lay numcols totallines (rowCells j cols)).map fun text =>
            (text, (cols.map List.tail).map (unlines '\n'),
              totallines - (rowCells j cols).length) := by
  intro cols
  induction cols with
  | nil => exact fun _ _ _ _ => rfl
  | cons col cols ih =>
    intro hcols j totallines hle
    obtain ⟨hcol, hmore⟩ := List.forall_mem_cons.mp hcols
    rcases col with _ | ⟨line, col⟩
    · have hnext : buildRow numcols (j + 1) (cols.map (unlines '\n')) totallines = _ :=
        ih hmore hle
      rw [List.map_cons, unlines_nil, buildRow, takeLine_nil]
      simp only [hnext, rowCells, List.map_cons, List.tail_nil, unlines_nil, List.nil_append]
      rcases lay numcols totallines (rowCells (j + 1) cols) with fault | text
      · rfl
      · rfl
    · rw [rowCells, List.length_cons] at hle
      have hnext : buildRow numcols (j + 1) (cols.map (unlines '\n')) (totallines - 1) = _ :=
        ih hmore (by omega)
      have hline := hcol line (List.mem_cons_self ..)
      rw [List.map_cons, buildRow, takeLine_cons col hline (by omega), rowCells, lay]
      rcases laidLine numcols totallines j line with fault | text
      · rfl
      · simp only [Except.map, hnext]
        rcases lay numcols (totallines - 1) (rowCells (j + 1) cols) with fault | text'
        · rfl
        · simp [followedBy, Except.map, Nat.sub_sub, Nat.add_comm 1]

/-- All the rows lay out all the cells. -/
theorem buildRows_eq (numcols : ℕ) {rows : ℕ} : ∀ {cols : List (List (List Char))},
    (∀ col ∈ cols, ∀ line ∈ col, '\n' ∉ line) → ∀ {totallines : ℕ},
      (cells rows cols).length ≤ totallines →
        buildRows numcols rows (cols.map (unlines '\n')) totallines =
          lay numcols totallines (cells rows cols) := by
  induction rows with
  | zero => exact fun _ _ _ => rfl
  | succ rows ih =>
    intro cols hcols totallines hle
    have htails : ∀ col ∈ cols.map List.tail, ∀ line ∈ col, '\n' ∉ line := by
      intro col hcol line hline
      obtain ⟨whole, hwhole, rfl⟩ := List.mem_map.mp hcol
      exact hcols whole hwhole line (List.mem_of_mem_tail hline)
    rw [cells, List.length_append] at hle
    have hnext : buildRows numcols rows ((cols.map List.tail).map (unlines '\n'))
        (totallines - (rowCells 0 cols).length) = _ := ih htails (by omega)
    rw [buildRows, buildRow_eq numcols hcols (by omega), cells, lay_append]
    rcases lay numcols totallines (rowCells 0 cols) with fault | text
    · rfl
    · simp only [Except.map, hnext]
      rfl

/-! ### All of it -/

/-- The lines of a block are the next ones of the text, without newlines of their own. -/
theorem blockLines_spec (body : List Char) :
    (∃ rest, body = unlines '\n' (blockLines body) ++ rest) ∧
      ∀ line ∈ blockLines body, '\n' ∉ line := by
  obtain ⟨hwhole, hlines, -⟩ := splitLines_spec '\n' (body.takeWhile (· ≠ '}'))
  have hbody := List.takeWhile_append_dropWhile (p := (· ≠ '}')) (l := body)
  refine ⟨⟨(splitLines '\n' (body.takeWhile (· ≠ '}'))).2 ++ body.dropWhile (· ≠ '}'), ?_⟩,
    hlines⟩
  rw [blockLines, ← List.append_assoc, hwhole, hbody]

theorem mem_of_mem_columns {m : ℕ} (hm : 0 < m) {lines col : List (List Char)}
    {line : List Char} (hcol : col ∈ columns m lines) (hline : line ∈ col) : line ∈ lines := by
  rw [← flatten_columns hm lines]
  exact List.mem_flatten_of_mem hcol hline

/-- A block is laid out with its lines in columns. -/
theorem layBlock_eq {m : ℕ} (hm : 0 < m) {str body : List Char} {inidx : ℕ}
    (hdrop : str.drop (inidx + 1) = '\n' :: body) (outstr : List Char) :
    layBlock m str inidx outstr = ((Segment.block (blockLines body)).laid m).map fun text =>
      (inidx + 1 + (unlines '\n' (blockLines body)).length, outstr ++ ['\n'] ++ text) := by
  obtain ⟨hi, hnl, hbody⟩ := of_drop_eq_cons hdrop
  have hopen : openBlock str inidx outstr = _ :=
    openBlock_eq (hnl ▸ List.getElem?_eq_getElem hi)
  obtain ⟨⟨rest, hrest⟩, hlines⟩ := blockLines_spec body
  rw [layBlock, hopen]
  simp only [Segment.laid]
  rw [show inidx + 2 = inidx + 1 + 1 from rfl, hbody, countLines_eq body 0 (by decide),
    Nat.zero_add]
  by_cases hfits : (blockLines body).length < 2 ^ 31
  · simp only [if_pos hfits]
    have hsizes := sum_heights_eq hm (blockLines body).length
    have hload := loadColumns_eq hsizes hlines (hbody.trans hrest)
    have hcells := (cells_columns_perm hm (blockLines body)).length_eq
    rw [List.length_map] at hcells
    rw [allocate_eq, ← heights, hload, ← rowCount, ← columns,
      buildRows_eq m (fun col hcol line hline => hlines line (mem_of_mem_columns hm hcol hline))
        (Nat.le_of_eq hcells)]
    rcases lay m _ _ with fault | text
    · rfl
    · simp only [Except.map]
      congr 2
      omega
  · simp only [if_neg hfits]
    rfl

theorem blocksOf_open (body : List Char) :
    blocksOf ('{' :: '\n' :: body) = .text ['{', '\n'] :: .block (blockLines body) ::
      blocksOf (body.drop (unlines '\n' (blockLines body)).length) := by
  rw [blocksOf]
  rfl

theorem blocksOf_plain {c : Char} (hc : c ≠ '{') (rest : List Char) :
    blocksOf (c :: rest) = .text [c] :: blocksOf rest := by
  rw [blocksOf, if_neg hc]

/-- At an opening brace: the newline behind it, and the block. -/
theorem OpensLine.body {str : List Char} {inidx : ℕ} (h : OpensLine (str.drop inidx))
    (hlt : inidx < str.length) (hc : str[inidx] = '{') : ∃ body,
      str.drop inidx = '{' :: '\n' :: body ∧ str.drop (inidx + 1) = '\n' :: body := by
  rw [List.drop_eq_getElem_cons hlt, hc] at h
  obtain ⟨hhead, -⟩ := h
  obtain ⟨body, hbody⟩ := List.head?_eq_some_iff.mp (hhead rfl)
  exact ⟨body, by rw [List.drop_eq_getElem_cons hlt, hc, hbody], hbody⟩

/-- Behind `remoteData` the text is copied and the blocks are laid out. -/
theorem transcribe_blocks {m idxRemoteData : ℕ} (hm : 0 < m) {str : List Char} {inidx : ℕ}
    {outstr : List Char} (hidx : idxRemoteData < inidx) (hopens : OpensLine (str.drop inidx)) :
    transcribe m idxRemoteData str inidx outstr =
      (laidOut m (blocksOf (str.drop inidx))).map (outstr ++ ·) := by
  fun_induction transcribe m idxRemoteData str inidx outstr with
  | case1 inidx outstr hlt out hblock fault hfault =>
    obtain ⟨body, hdrop, hnext⟩ := hopens.body hlt hblock.2
    rw [layBlock_eq hm hnext] at hfault
    rw [hdrop, blocksOf_open, laidOut, laidOut]
    rcases hlaid : (Segment.block (blockLines body)).laid m with fault' | text
    · rw [hlaid] at hfault
      obtain rfl := Except.error.inj hfault
      rfl
    · rw [hlaid] at hfault
      cases hfault
  | case2 inidx outstr hlt out hblock inidx' outstr' hok ih =>
    obtain ⟨body, hdrop, hnext⟩ := hopens.body hlt hblock.2
    rw [layBlock_eq hm hnext] at hok
    rw [hdrop, blocksOf_open, laidOut, laidOut]
    rcases hlaid : (Segment.block (blockLines body)).laid m with fault' | text
    · rw [hlaid] at hok
      cases hok
    · rw [hlaid] at hok
      obtain ⟨rfl, rfl⟩ := Prod.mk.inj (Except.ok.inj hok)
      -- the copying goes on behind the last line
      have hafter : str.drop (inidx + 1 + (unlines '\n' (blockLines body)).length + 1) =
          body.drop (unlines '\n' (blockLines body)).length := by
        rw [Nat.add_right_comm, ← List.drop_drop, ← List.drop_drop, hnext]
        rfl
      have hrest : OpensLine (body.drop (unlines '\n' (blockLines body)).length) := by
        rw [hdrop] at hopens
        exact OpensLine.drop hopens.2.2 _
      rw [ih (by omega) (hafter ▸ hrest), hafter]
      rcases laidOut m (blocksOf (body.drop _)) with fault | more
      · rfl
      · simp [followedBy, Except.map, Segment.laid, out, hblock.2]
  | case3 inidx outstr hlt out hplain ih =>
    have hc : str[inidx] ≠ '{' := fun hc => hplain ⟨hidx, hc⟩
    rw [List.drop_eq_getElem_cons hlt] at hopens
    rw [ih (by omega) hopens.2, List.drop_eq_getElem_cons hlt, blocksOf_plain hc, laidOut]
    simp only [Segment.laid, out]
    rcases laidOut m (blocksOf (str.drop (inidx + 1))) with fault | text
    · rfl
    · simp [followedBy, Except.map]
  | case4 inidx outstr hge =>
    rw [List.drop_of_length_le (by omega), blocksOf]
    simp [laidOut, Except.map]

/-- Up to `remoteData` it is only copied. -/
theorem transcribe_copy {m idxRemoteData : ℕ} {str : List Char}
    (hidx : idxRemoteData < str.length) : ∀ {n inidx : ℕ} {outstr : List Char},
      inidx + n = idxRemoteData + 1 → transcribe m idxRemoteData str inidx outstr =
        transcribe m idxRemoteData str (idxRemoteData + 1)
          (outstr ++ (str.drop inidx).take n) := by
  intro n
  induction n with
  | zero =>
    intro inidx outstr h
    obtain rfl : inidx = idxRemoteData + 1 := h
    simp
  | succ n ih =>
    intro inidx outstr h
    have hlt : inidx < str.length := by omega
    have hnot : ¬ (idxRemoteData < inidx ∧ str[inidx] = '{') := by
      rintro ⟨hbehind, -⟩
      omega
    rw [transcribe, dif_pos hlt, if_neg hnot, ih (by omega), List.drop_eq_getElem_cons hlt,
      List.take_succ_cons]
    simp

/-- `formatColumns` lays out the parts of the response. -/
theorem formatColumns_eq {width : UInt16} {str : List Char} (hopens : OpensLine str) :
    formatColumns width str = laidOut (numcols width) (segments width str) := by
  have hwhole : laidOut (numcols width) [.text str] = .ok str := by
    simp [laidOut, Segment.laid, followedBy, Except.map]
  rw [formatColumns, segments]
  by_cases hnarrow : numcols width < 2
  · rw [if_pos hnarrow, if_pos hnarrow, hwhole]
  · rw [if_neg hnarrow, if_neg hnarrow]
    rcases hfind : findRemoteData str with _ | idxRemoteData
    · exact hwhole.symm
    · have hidx : idxRemoteData < str.length := by
        simp only [findRemoteData, Option.ite_none_right_eq_some, Option.some.injEq] at hfind
        omega
      dsimp only
      rw [transcribe_copy hidx (Nat.zero_add _), transcribe_blocks (by omega) (Nat.lt_succ_self _)
        (hopens.drop _)]
      rfl

end RemoteControl.Display
