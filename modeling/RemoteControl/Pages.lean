import Mathlib.Data.List.Basic
import Mathlib.Data.Nat.Notation

/-!
# Pages: texts laid out in indented lines

A text is cut into lines, and each line but the first gets a level. `Page.render` prints the
lines, indented by their levels; `strip` reads a printed page back, by leaving out the line
breaks and the blanks behind them. Nothing is lost if the lines themselves have no line
breaks and do not begin with blanks.
-/

namespace Pages

variable {α : Type}

/-- A text in lines. -/
structure Page (α : Type) where
  /-- the first line -/
  first : List α
  /-- the further lines, each with its level -/
  lines : List (ℕ × List α)

namespace Page

/-- The text, without its layout. -/
def content (p : Page α) : List α := p.first ++ p.lines.flatMap Prod.snd

/-- The printed page: a line break before each further line, and `indent` blanks for each
level. -/
def render (nl blank : α) (indent : ℕ) (p : Page α) : List α :=
  p.first ++ p.lines.flatMap fun line =>
    nl :: (List.replicate (line.1 * indent) blank ++ line.2)

/-- A page with one line. -/
def single (text : List α) : Page α := ⟨text, []⟩

/-- The page with one more character in front. -/
def push (c : α) (p : Page α) : Page α := ⟨c :: p.first, p.lines⟩

/-- The page with one more line in front; its first line gets a level. -/
def startLine (text : List α) (level : ℕ) (p : Page α) : Page α :=
  ⟨text, (level, p.first) :: p.lines⟩

variable (nl blank c : α) (indent level : ℕ) (text : List α) (p : Page α)

@[simp] theorem content_single : (single text).content = text := by simp [content, single]

@[simp] theorem content_push : (p.push c).content = c :: p.content := rfl

@[simp] theorem content_startLine : (p.startLine text level).content = text ++ p.content := rfl

@[simp] theorem render_single : (single text).render nl blank indent = text := by
  simp [render, single]

@[simp] theorem render_push :
    (p.push c).render nl blank indent = c :: p.render nl blank indent := rfl

@[simp] theorem render_startLine : (p.startLine text level).render nl blank indent =
    text ++ nl :: (List.replicate (level * indent) blank ++ p.render nl blank indent) := by
  simp [render, Page.startLine]

end Page

/-! ## Reading a page back -/

variable [DecidableEq α]

/-- Leave out the line breaks, and the blanks behind them; `skips` if there may be some. -/
def strip (nl blank : α) (skips : Bool) : List α → List α
  | [] => []
  | c :: rest =>
    if c = nl then strip nl blank true rest
    else if skips ∧ c = blank then strip nl blank true rest
    else c :: strip nl blank false rest

variable {nl blank : α}

/-- Before a line break or at the end nothing is skipped. -/
theorem strip_eq_of_head {text : List α} (h : text.head? = none ∨ text.head? = some nl)
    (skips skips' : Bool) : strip nl blank skips text = strip nl blank skips' text := by
  cases text with
  | nil => rfl
  | cons c rest =>
    obtain rfl : c = nl := by simpa using h
    simp [strip]

/-- A line is kept. -/
theorem strip_append {line : List α} (hnl : nl ∉ line) (rest : List α) :
    strip nl blank false (line ++ rest) = line ++ strip nl blank false rest := by
  induction line with
  | nil => rfl
  | cons c line ih =>
    obtain ⟨hc, hline⟩ := not_or.mp (mt List.mem_cons.mpr hnl)
    simp [strip, Ne.symm hc, ih hline]

/-- The blanks behind a line break are not. -/
theorem strip_replicate (hne : blank ≠ nl) (n : ℕ) (rest : List α) :
    strip nl blank true (List.replicate n blank ++ rest) = strip nl blank true rest := by
  induction n with
  | zero => rfl
  | succ n ih => simp [List.replicate_succ, strip, hne, ih]

/-- A line that does not begin with a blank is kept behind a line break, too. -/
theorem strip_line {line rest : List α} (hnl : nl ∉ line) (hblank : line.head? ≠ some blank)
    (hrest : rest.head? = none ∨ rest.head? = some nl) :
    strip nl blank true (line ++ rest) = line ++ strip nl blank false rest := by
  cases line with
  | nil => exact strip_eq_of_head hrest true false
  | cons c line =>
    obtain ⟨hc, hline⟩ := not_or.mp (mt List.mem_cons.mpr hnl)
    have hc' : c ≠ blank := by simpa using hblank
    simp [strip, Ne.symm hc, hc', strip_append hline]

/-- **Round trip.** -/
theorem strip_render (hne : blank ≠ nl) (indent : ℕ) {p : Page α} (hnl : nl ∉ p.content)
    (hblank : ∀ line ∈ p.lines, line.2.head? ≠ some blank) :
    strip nl blank false (p.render nl blank indent) = p.content := by
  obtain ⟨first, lines⟩ := p
  obtain ⟨hfirst, hlines⟩ := not_or.mp (mt List.mem_append.mpr hnl)
  rw [Page.render, Page.content, strip_append hfirst]
  congr 1
  clear hfirst hnl
  induction lines with
  | nil => rfl
  | cons line lines ih =>
    rw [List.flatMap_cons, List.flatMap_cons]
    obtain ⟨hline, hmore⟩ := not_or.mp (mt List.mem_append.mpr hlines)
    obtain ⟨hfirst, hblank⟩ := List.forall_mem_cons.mp hblank
    have hhead : ∀ more : List (ℕ × List α), (more.flatMap fun line =>
        nl :: (List.replicate (line.1 * indent) blank ++ line.2)).head? = none ∨
          (more.flatMap fun line =>
            nl :: (List.replicate (line.1 * indent) blank ++ line.2)).head? = some nl := by
      rintro (_ | _) <;> simp
    rw [List.cons_append, strip, if_pos rfl, List.append_assoc, strip_replicate hne,
      strip_line hline hfirst (hhead lines), ih hblank hmore]

end Pages
