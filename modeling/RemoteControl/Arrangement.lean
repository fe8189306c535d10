import Mathlib.Data.List.Forall2
import RemoteControl.Columns

/-!
# What columns do to a response

A line is padded to the width of its column. That is no loss where the line fits; where it
does not, the padding wraps, and there is no result at all.

* `Arranged` — what may become of a part of a response: of text nothing, of a block its lines
  in another order, each with a newline or with spaces behind it.
* `Narrow` — the lines that are padded fit.
* `formatColumns_rearranges_iff` — a response that is displayed is rearranged so, and nothing
  of it is lost, exactly when the lines of its blocks are narrow.
-/

namespace RemoteControl.Display

open Layout

/-! ## Lines that fit -/

/-- The lines that are padded when a block is laid out: the `i`-th one laid out, in row
`i / numcols`, if it is neither the last one nor in the last column. They fit. -/
def Narrow (numcols : ℕ) (lines : List (List Char)) : Prop :=
  ∀ i < lines.length - 1, i % numcols < numcols - 1 →
    ∀ line ∈ lineAt numcols lines (i / numcols) (i % numcols), line.length ≤ colsize

theorem laidLine_ok_iff {numcols totallines j : ℕ} {line : List Char} :
    (∃ text, laidLine numcols totallines j line = .ok text) ↔
      (j < numcols - 1 → 0 < totallines - 1 → line.length ≤ colsize) := by
  rw [laidLine, padding]
  by_cases hpad : j < numcols - 1 ∧ 0 < totallines - 1
  · rw [if_pos hpad]
    by_cases hfits : line.length ≤ colsize
    · simp [hfits, Except.map]
    · simp [hfits, hpad, Except.map]
  · rw [if_neg hpad]
    constructor
    · exact fun _ hj hmore => absurd ⟨hj, hmore⟩ hpad
    · exact fun _ => ⟨_, rfl⟩

/-- Lines are laid out to the end exactly when those that are padded fit. -/
theorem lay_ok_iff {numcols : ℕ} {cells : List (ℕ × List Char)} : ∀ {totallines : ℕ},
    (∃ text, lay numcols totallines cells = .ok text) ↔
      ∀ i j line, cells[i]? = some (j, line) → j < numcols - 1 → 0 < totallines - i - 1 →
        line.length ≤ colsize := by
  induction cells with
  | nil => simp [lay]
  | cons cell cells ih =>
    intro totallines
    obtain ⟨j, line⟩ := cell
    rw [lay, exists_followedBy, laidLine_ok_iff, ih]
    constructor
    · rintro ⟨hfirst, hmore⟩ (_ | i) j' line' hcell hj htotal
      · obtain ⟨rfl, rfl⟩ := Prod.mk.inj (Option.some.inj hcell)
        exact hfirst hj htotal
      · exact hmore i j' line' hcell hj (by omega)
    · intro h
      refine ⟨h 0 j line rfl, fun i j' line' hcell hj htotal => ?_⟩
      exact h (i + 1) j' line' hcell hj (by omega)

/-- A block is laid out exactly when its lines can be counted and are narrow. -/
theorem laid_block_iff {numcols : ℕ} (hpos : 0 < numcols) {lines : List (List Char)} :
    (∃ text, (Segment.block lines).laid numcols = .ok text) ↔
      lines.length < 2 ^ 31 ∧ Narrow numcols lines := by
  rw [Segment.laid]
  by_cases hfits : lines.length < 2 ^ 31
  · rw [if_pos hfits, lay_ok_iff, and_iff_right hfits]
    constructor
    · intro h i hi hj line hline
      have hcell : (cells (rowCount lines.length numcols) (columns numcols lines))[i]? = _ :=
        getElem?_cells_columns hpos (by omega)
      rw [Option.mem_def.mp hline] at hcell
      exact h i _ line hcell hj (by omega)
    · intro h i j line hcell hj htotal
      rw [getElem?_cells_columns hpos (by omega)] at hcell
      obtain ⟨line', hline, heq⟩ := Option.map_eq_some_iff.mp hcell
      obtain ⟨rfl, rfl⟩ := Prod.mk.inj heq
      exact h i (by omega) hj line' hline
  · rw [if_neg hfits]
    refine ⟨?_, fun h => absurd h.1 hfits⟩
    rintro ⟨text, htext⟩
    cases htext

/-- The parts are laid out exactly when each of them is. -/
theorem laidOut_ok_iff {numcols : ℕ} {segs : List Segment} :
    (∃ out, laidOut numcols segs = .ok out) ↔
      ∀ seg ∈ segs, ∃ text, seg.laid numcols = .ok text := by
  induction segs with
  | nil => simp [laidOut]
  | cons seg segs ih =>
    rw [laidOut, exists_followedBy, List.forall_mem_cons, ih]

/-! ## What is laid out -/

/-- What may be laid out of a line: a newline comes behind it, or spaces. -/
def Piece (line piece : List Char) : Prop :=
  ∃ behind, piece = line ++ behind ∧ (behind = ['\n'] ∨ ∃ n, behind = List.replicate n ' ')

/-- What may become of a part of a response. -/
inductive Arranged : Segment → List Char → Prop where
  /-- text stays as it is -/
  | text (chars : List Char) : Arranged (.text chars) chars
  /-- the lines of a block come in some order, each of them once -/
  | block {lines order pieces : List (List Char)} : order.Perm lines →
      List.Forall₂ Piece order pieces → Arranged (.block lines) pieces.flatten

theorem laidLine_piece {numcols totallines j : ℕ} {line text : List Char}
    (h : laidLine numcols totallines j line = .ok text) : Piece line text := by
  rw [laidLine] at h
  split at h
  · rcases hpad : padding line.length with fault | pad
    · rw [hpad] at h
      cases h
    · rw [hpad] at h
      exact ⟨_, (Except.ok.inj h).symm, .inr ⟨pad, rfl⟩⟩
  · exact ⟨_, (Except.ok.inj h).symm, .inl rfl⟩

theorem lay_pieces {numcols : ℕ} {cells : List (ℕ × List Char)} :
    ∀ {totallines : ℕ} {text : List Char}, lay numcols totallines cells = .ok text →
      ∃ pieces, List.Forall₂ Piece (cells.map Prod.snd) pieces ∧ text = pieces.flatten := by
  induction cells with
  | nil =>
    intro totallines text h
    exact ⟨[], .nil, (Except.ok.inj h).symm⟩
  | cons cell cells ih =>
    intro totallines text h
    obtain ⟨j, line⟩ := cell
    obtain ⟨first, rest, hfirst, hrest, rfl⟩ := followedBy_eq_ok.mp h
    obtain ⟨pieces, hpieces, rfl⟩ := ih hrest
    exact ⟨first :: pieces, .cons (laidLine_piece hfirst) hpieces, rfl⟩

theorem laid_arranged {numcols : ℕ} {seg : Segment} {text : List Char}
    (hpos : ∀ lines, seg = .block lines → 0 < numcols) (h : seg.laid numcols = .ok text) :
    Arranged seg text := by
  cases seg with
  | text chars =>
    obtain rfl := Except.ok.inj h
    exact .text chars
  | block lines =>
    rw [Segment.laid] at h
    split at h
    · obtain ⟨pieces, hpieces, rfl⟩ := lay_pieces h
      exact .block (cells_columns_perm (hpos lines rfl) lines) hpieces
    · cases h

theorem laidOut_arranged {numcols : ℕ} {segs : List Segment} :
    (∀ lines, .block lines ∈ segs → 0 < numcols) → ∀ {out : List Char},
      laidOut numcols segs = .ok out →
        ∃ outs, List.Forall₂ Arranged segs outs ∧ out = outs.flatten := by
  induction segs with
  | nil => exact fun _ _ h => ⟨[], .nil, (Except.ok.inj h).symm⟩
  | cons seg segs ih =>
    intro hpos out h
    obtain ⟨text, rest, htext, hrest, rfl⟩ := followedBy_eq_ok.mp h
    have hseg : ∀ lines, seg = .block lines → 0 < numcols := by
      rintro lines rfl
      exact hpos lines (List.mem_cons_self ..)
    obtain ⟨outs, houts, rfl⟩ :=
      ih (fun lines hmem => hpos lines (List.mem_cons_of_mem _ hmem)) hrest
    exact ⟨text :: outs, .cons (laid_arranged hseg htext) houts, rfl⟩

/-! ## What is kept -/

/-- The characters that are neither spaces nor newlines. -/
def ink (c : Char) : Bool := c ≠ ' ' && c ≠ '\n'

/-- What is kept of a text: all that is neither space nor newline, every space, and no more
newlines than there were. -/
structure Kept (text out : List Char) : Prop where
  ink : (out.filter ink).Perm (text.filter ink)
  spaces : text.count ' ' ≤ out.count ' '
  newlines : out.count '\n' ≤ text.count '\n'

theorem Kept.refl (text : List Char) : Kept text text := ⟨.rfl, Nat.le_refl _, Nat.le_refl _⟩

theorem Kept.append {text text' out out' : List Char} (h : Kept text out)
    (h' : Kept text' out') : Kept (text ++ text') (out ++ out') where
  ink := by
    rw [List.filter_append, List.filter_append]
    exact h.ink.append h'.ink
  spaces := by
    rw [List.count_append, List.count_append]
    exact Nat.add_le_add h.spaces h'.spaces
  newlines := by
    rw [List.count_append, List.count_append]
    exact Nat.add_le_add h.newlines h'.newlines

theorem Piece.kept {line piece : List Char} (h : Piece line piece) :
    Kept (line ++ ['\n']) piece := by
  obtain ⟨behind, rfl, rfl | ⟨n, rfl⟩⟩ := h
  · exact .refl _
  · refine (Kept.refl line).append ⟨?_, ?_, ?_⟩
    · simp [Display.ink]
    · simp
    · simp [List.count_replicate]

theorem kept_of_pieces {lines pieces : List (List Char)} (h : List.Forall₂ Piece lines pieces) :
    Kept (unlines '\n' lines) pieces.flatten := by
  induction h with
  | nil => exact .refl _
  | cons hpiece _ ih =>
    have hboth := hpiece.kept.append ih
    simpa using hboth

/-- The order of the lines does not matter for that. -/
theorem Kept.of_perm {lines order : List (List Char)} {out : List Char}
    (h : Kept (unlines '\n' order) out) (hperm : order.Perm lines) :
    Kept (unlines '\n' lines) out := by
  have hchars : (unlines '\n' order).Perm (unlines '\n' lines) := hperm.flatMap_right _
  exact ⟨h.ink.trans (hchars.filter _), hchars.count_eq ' ' ▸ h.spaces,
    hchars.count_eq '\n' ▸ h.newlines⟩

theorem Arranged.kept {seg : Segment} {out : List Char} (h : Arranged seg out) :
    Kept seg.chars out := by
  cases h with
  | text => exact .refl _
  | block hperm hpieces => exact (kept_of_pieces hpieces).of_perm hperm

/-- What becomes of a response: its parts are arranged one after the other, and so nothing of
it is lost. -/
structure Rearranged (segs : List Segment) (str out : List Char) : Prop where
  /-- the parts are those of the response -/
  whole : segs.flatMap Segment.chars = str
  /-- each is arranged -/
  arranged : ∃ outs, List.Forall₂ Arranged segs outs ∧ out = outs.flatten
  /-- its characters are there -/
  kept : Kept str out

theorem kept_of_arranged {segs : List Segment} {outs : List (List Char)}
    (h : List.Forall₂ Arranged segs outs) : Kept (segs.flatMap Segment.chars) outs.flatten := by
  induction h with
  | nil => exact .refl _
  | cons hseg _ ih =>
    have hboth := hseg.kept.append ih
    simpa using hboth

/-- The parts behind `remoteData` are all of the text. -/
theorem blocksOf_whole (text : List Char) : (blocksOf text).flatMap Segment.chars = text := by
  fun_induction blocksOf text with
  | case1 => rfl
  | case2 rest lines ih =>
    obtain ⟨⟨left, hleft⟩, -⟩ := blockLines_spec (rest.drop 1)
    have hbody : unlines '\n' lines ++ (rest.drop 1).drop (unlines '\n' lines).length =
        rest.drop 1 := by
      conv_lhs => rw [hleft]
      rw [List.drop_left]
      exact hleft.symm
    simp only [List.flatMap_cons, Segment.chars, ih]
    rw [hbody, List.cons_append, List.take_append_drop]
  | case3 c rest hc ih =>
    simp only [List.flatMap_cons, Segment.chars, ih]
    rfl

theorem segments_whole (width : UInt16) (str : List Char) :
    (segments width str).flatMap Segment.chars = str := by
  rw [segments]
  split
  · simp [Segment.chars]
  · split
    · simp [Segment.chars]
    · simp [Segment.chars, blocksOf_whole]

/-- There are blocks only where there are columns. -/
theorem pos_of_block_mem {width : UInt16} {str : List Char} {lines : List (List Char)}
    (h : .block lines ∈ segments width str) : 0 < numcols width := by
  rw [segments] at h
  split at h
  · simp at h
  · omega

theorem followedBy_ne_error {first more : Except Fault (List Char)} {fault : Fault}
    (hfirst : first ≠ .error fault) (hmore : more ≠ .error fault) :
    followedBy first more ≠ .error fault := by
  rcases first with fault' | text
  · exact hfirst
  · rcases more with fault' | rest
    · exact hmore
    · simp [followedBy, Except.map]

theorem lay_inBounds {numcols : ℕ} {cells : List (ℕ × List Char)} : ∀ {totallines : ℕ},
    lay numcols totallines cells ≠ .error .outOfBounds := by
  induction cells with
  | nil => simp [lay]
  | cons cell cells ih =>
    intro totallines
    obtain ⟨j, line⟩ := cell
    refine followedBy_ne_error ?_ ih
    rw [laidLine, padding]
    split
    · split <;> simp [Except.map]
    · simp

/-- Whatever is displayed, `formatColumns` stays within the string. -/
theorem formatColumns_inBounds {s str : List Char} (h : formatForDisplay s = .ok str)
    (width : UInt16) : formatColumns width str ≠ .error .outOfBounds := by
  rw [formatForDisplay_eq] at h
  rw [formatColumns_eq (opensLine_displayed h)]
  induction segments width str with
  | nil => simp [laidOut]
  | cons seg segs ih =>
    refine followedBy_ne_error ?_ ih
    cases seg with
    | text chars => simp [Segment.laid]
    | block lines =>
      rw [Segment.laid]
      split
      · exact lay_inBounds
      · simp

/-- **`formatColumns` behind `formatForDisplay`**: it ends with all of the response, its blocks
rearranged, exactly when each block has less than 2³¹ lines, and those of them that are padded
have at most 52 characters. -/
theorem formatColumns_rearranges_iff {s str : List Char} (h : formatForDisplay s = .ok str)
    (width : UInt16) :
    (∃ out, formatColumns width str = .ok out ∧ Rearranged (segments width str) str out) ↔
      ∀ lines, .block lines ∈ segments width str →
        lines.length < 2 ^ 31 ∧ Narrow (numcols width) lines := by
  rw [formatForDisplay_eq] at h
  rw [formatColumns_eq (opensLine_displayed h)]
  constructor
  · rintro ⟨out, hout, -⟩ lines hlines
    exact (laid_block_iff (pos_of_block_mem hlines)).mp (laidOut_ok_iff.mp ⟨out, hout⟩ _ hlines)
  · intro hblocks
    have hlaid : ∀ seg ∈ segments width str, ∃ text, seg.laid (numcols width) = .ok text := by
      intro seg hseg
      cases seg with
      | text chars => exact ⟨chars, rfl⟩
      | block lines => exact (laid_block_iff (pos_of_block_mem hseg)).mpr (hblocks lines hseg)
    obtain ⟨out, hout⟩ := laidOut_ok_iff.mpr hlaid
    obtain ⟨outs, harranged, rfl⟩ :=
      laidOut_arranged (fun lines hlines => pos_of_block_mem hlines) hout
    have hkept := kept_of_arranged harranged
    rw [segments_whole] at hkept
    exact ⟨_, hout, segments_whole width str, ⟨outs, harranged, rfl⟩, hkept⟩

/-- Three short lines, on a console that is wide enough for two columns. -/
theorem formatColumns_rearranges_iff_short :
    ∃ str out, formatForDisplay "remoteData\x7ba,b,c\x7d".toList = .ok str ∧
      formatColumns 104 str = .ok out ∧ Rearranged (segments 104 str) str out := by
  have hdisplay : formatForDisplay "remoteData\x7ba,b,c\x7d".toList =
      .ok "remoteData\x7b\n    a,\n    b,\n    c\n\x7d".toList := by
    rw [formatForDisplay_eq]
    decide +kernel
  have hsegs : segments 104 "remoteData\x7b\n    a,\n    b,\n    c\n\x7d".toList =
      "remoteData".toList.map (fun c => .text [c]) ++ [.text ['{', '\n'],
        .block ["    a,".toList, "    b,".toList, "    c".toList], .text ['}']] := by
    decide +kernel
  have hnarrow : ["    a,".toList, "    b,".toList, "    c".toList].length < 2 ^ 31 ∧
      Narrow (numcols 104) ["    a,".toList, "    b,".toList, "    c".toList] := by
    refine ⟨by decide, ?_⟩
    rw [Narrow]
    decide +kernel
  obtain ⟨out, hout⟩ := (formatColumns_rearranges_iff hdisplay 104).mpr fun lines hlines => by
    rw [hsegs] at hlines
    obtain rfl : lines = ["    a,".toList, "    b,".toList, "    c".toList] := by
      simpa using hlines
    exact hnarrow
  exact ⟨_, out, hdisplay, hout⟩

/-- A response with a name in it that is longer than a column is wide. -/
def longName : List Char :=
  ("\"remoteData\":[\x7b\"name\":\"A remote control with a name of some length\"," ++
    "\"id\":1\x7d]").toList

/-- The same response as it is displayed. -/
def longNameDisplayed : List Char :=
  ("\"remoteData\":[\x7b\n    \"name\":\"A remote control with a name of some length\",\n" ++
    "    \"id\":1\n\x7d]").toList

/-- The padding wraps behind the long line, and nothing of the response comes out. -/
theorem formatColumns_wraps : formatForDisplay longName = .ok longNameDisplayed ∧
    formatColumns 104 longNameDisplayed = .error .wrapped ∧
    ¬ ∃ out, formatColumns 104 longNameDisplayed = .ok out ∧
      Rearranged (segments 104 longNameDisplayed) longNameDisplayed out := by
  have hfault : formatColumns 104 longNameDisplayed = .error .wrapped := by
    decide +kernel
  refine ⟨?_, hfault, ?_⟩
  · rw [formatForDisplay_eq]
    decide +kernel
  · rintro ⟨out, hout, -⟩
    rw [hfault] at hout
    cases hout

end RemoteControl.Display
