import Mathlib.Algebra.Group.Nat.Defs
import Mathlib.Tactic.Common
import RemoteControl.Searching

/-!
# Displaying a response

The test client shows a response after two functions have rewritten it.

* `formatForDisplay` — goes through the string and inserts, at commas and curly braces,
  newlines and the spaces that indent what follows.
* `formatColumns` — lays the lines of each block after `remoteData` out in up to four
  columns of 52 characters, if the console is wide enough.

Both are loops over positions. What can go wrong in them is a `Fault`.
-/

namespace RemoteControl.Display

/-- What a function can end in instead of its result. -/
inductive Fault where
  /-- a position that is not within the string -/
  | outOfBounds
  /-- an `int` overflows -/
  | overflow
  /-- the padding `colsize - idx` wraps, and `append` throws `std::length_error` -/
  | wrapped
  deriving DecidableEq

/-! ## `formatForDisplay` -/

/-- `indent`. -/
def indent : ℕ := 4

/-- `str.insert(pos, n, c)`. -/
def insert (str : List Char) (pos n : ℕ) (c : Char) : Except Fault (List Char) :=
  if pos ≤ str.length then .ok (str.take pos ++ List.replicate n c ++ str.drop pos)
  else .error .outOfBounds

/-- `level * indent`. -/
def indentation (level : ℕ) : Except Fault ℕ :=
  if level * indent < 2 ^ 31 then .ok (level * indent) else .error .overflow

/-- Insert a newline at `pos`, and behind it the indentation of `level`. -/
def insertNewline (str : List Char) (pos level : ℕ) : Except Fault (List Char) := do
  let str ← insert str pos 1 '\n'
  if 0 < level then
    insert str (pos + 1) (← indentation level) ' '
  else
    return str

/-- The body of the loop, where `str[i]` is `c`: the string, `i` and `level` after it. -/
def displayStep (str : List Char) (i level : ℕ) (c : Char) :
    Except Fault (List Char × ℕ × ℕ) := do
  if c = ',' then
    return (← insertNewline str (i + 1) level, i, level)
  else if c = '}' then
    -- `level--`, and back to `0` if that is negative
    return (← insertNewline str i (level - 1), i + ((← indentation (level - 1)) + 1), level - 1)
  else if c = '{' then
    return (← insertNewline str (i + 1) (level + 1), i, level + 1)
  else
    return (str, i, level)

/-- A newline, with the indentation of `level` behind it. -/
def newline (level : ℕ) : Except Fault (List Char) :=
  (indentation level).map fun n => '\n' :: List.replicate n ' '

/-- What is inserted before and after a character, and the level after it. -/
def marks (level : ℕ) (c : Char) : Except Fault (List Char × List Char × ℕ) :=
  if c = ',' then (newline level).map fun text => ([], text, level)
  else if c = '}' then (newline (level - 1)).map fun text => (text, [], level - 1)
  else if c = '{' then (newline (level + 1)).map fun text => ([], text, level + 1)
  else .ok ([], [], level)

theorem insert_append (pre post : List Char) (n : ℕ) (c : Char) :
    insert (pre ++ post) pre.length n c = .ok (pre ++ List.replicate n c ++ post) := by
  rw [insert, if_pos (by simp), List.take_left, List.drop_left]

theorem newline_eq_ok {level : ℕ} {text : List Char} (h : newline level = .ok text) :
    text = '\n' :: List.replicate (level * indent) ' ' ∧
      indentation level = .ok (level * indent) := by
  rw [newline, indentation] at h
  rw [indentation]
  split at h
  · rename_i hfits
    exact ⟨(Except.ok.inj h).symm, if_pos hfits⟩
  · cases h

theorem insertNewline_append (pre post : List Char) (level : ℕ) :
    insertNewline (pre ++ post) pre.length level =
      (newline level).map fun text => pre ++ text ++ post := by
  have hsecond : ∀ n, insert (pre ++ ['\n'] ++ post) (pre.length + 1) n ' ' =
      .ok (pre ++ '\n' :: List.replicate n ' ' ++ post) := by
    intro n
    have hlen : (pre ++ ['\n']).length = pre.length + 1 := by simp
    rw [← hlen, insert_append]
    simp
  rw [insertNewline, insert_append, newline]
  by_cases hpos : 0 < level
  · simp only [if_pos hpos]
    rcases indentation level with fault | n
    · rfl
    · exact hsecond n
  · obtain rfl : level = 0 := by omega
    simp only [if_neg hpos]
    simp [indentation, Except.map, pure, Except.pure, bind, Except.bind]

/-- The step at a position inserts the marks of the character there. -/
theorem displayStep_append (pre rest : List Char) (c : Char) (level : ℕ) :
    displayStep (pre ++ c :: rest) pre.length level c = (marks level c).map fun m =>
      (pre ++ m.1 ++ c :: (m.2.1 ++ rest), pre.length + m.1.length, m.2.2) := by
  have hbefore := insertNewline_append pre (c :: rest)
  have hafter : ∀ level, insertNewline (pre ++ c :: rest) (pre.length + 1) level =
      (newline level).map fun text => pre ++ c :: (text ++ rest) := by
    intro level
    have h := insertNewline_append (pre ++ [c]) rest level
    have hlen : (pre ++ [c]).length = pre.length + 1 := by simp
    rw [hlen, List.append_assoc] at h
    simpa using h
  rw [displayStep, marks]
  by_cases hcomma : c = ','
  · rw [if_pos hcomma, if_pos hcomma, hafter]
    rcases newline level with fault | text
    · rfl
    · simp [Except.map, pure, Except.pure, bind, Except.bind]
  · rw [if_neg hcomma, if_neg hcomma]
    by_cases hclose : c = '}'
    · rw [if_pos hclose, if_pos hclose, hbefore]
      rcases h : newline (level - 1) with fault | text
      · rfl
      -- the index follows the brace behind the newline and the indentation
      · obtain ⟨rfl, hindentation⟩ := newline_eq_ok h
        simp [Except.map, pure, Except.pure, bind, Except.bind, hindentation]
    · rw [if_neg hclose, if_neg hclose]
      by_cases hopen : c = '{'
      · rw [if_pos hopen, if_pos hopen, hafter]
        rcases newline (level + 1) with fault | text
        · rfl
        · simp [Except.map, pure, Except.pure, bind, Except.bind]
      · rw [if_neg hopen, if_neg hopen]
        simp [Except.map, pure, Except.pure]

/-- The characters at which something is inserted. -/
def special (c : Char) : Bool := c = ',' || c = '}' || c = '{'

/-- What there is to insert at a character. -/
theorem marks_cases {level level' : ℕ} {c : Char} {before after : List Char}
    (h : marks level c = .ok (before, after, level')) :
    (c = ',' ∧ before = [] ∧ newline level = .ok after ∧ level' = level) ∨
      (c = '}' ∧ newline (level - 1) = .ok before ∧ after = [] ∧ level' = level - 1) ∨
      (c = '{' ∧ before = [] ∧ newline (level + 1) = .ok after ∧ level' = level + 1) ∨
      (special c = false ∧ before = [] ∧ after = [] ∧ level' = level) := by
  have htext : ∀ {level f}, (newline level).map f = .ok (before, after, level') →
      ∃ text, newline level = .ok text ∧ f text = (before, after, level') := by
    intro level f h
    rcases htext : newline level with fault | text
    · rw [htext] at h
      cases h
    · rw [htext] at h
      exact ⟨text, rfl, Except.ok.inj h⟩
  rw [marks] at h
  by_cases hcomma : c = ','
  · rw [if_pos hcomma] at h
    obtain ⟨text, hnewline, heq⟩ := htext h
    obtain ⟨rfl, rfl, rfl⟩ : [] = before ∧ text = after ∧ level = level' := by simpa using heq
    exact .inl ⟨hcomma, rfl, hnewline, rfl⟩
  · rw [if_neg hcomma] at h
    by_cases hclose : c = '}'
    · rw [if_pos hclose] at h
      obtain ⟨text, hnewline, heq⟩ := htext h
      obtain ⟨rfl, rfl, rfl⟩ : text = before ∧ [] = after ∧ level - 1 = level' := by
        simpa using heq
      exact .inr (.inl ⟨hclose, hnewline, rfl, rfl⟩)
    · rw [if_neg hclose] at h
      by_cases hopen : c = '{'
      · rw [if_pos hopen] at h
        obtain ⟨text, hnewline, heq⟩ := htext h
        obtain ⟨rfl, rfl, rfl⟩ : [] = before ∧ text = after ∧ level + 1 = level' := by
          simpa using heq
        exact .inr (.inr (.inl ⟨hopen, rfl, hnewline, rfl⟩))
      · rw [if_neg hopen] at h
        obtain ⟨rfl, rfl, rfl⟩ : [] = before ∧ [] = after ∧ level = level' := by
          simpa using Except.ok.inj h
        refine .inr (.inr (.inr ⟨?_, rfl, rfl, rfl⟩))
        simp [special, hcomma, hclose, hopen]

theorem countP_newline {level : ℕ} {text : List Char} (h : newline level = .ok text) :
    text.countP special = 0 := by
  obtain ⟨rfl, -⟩ := newline_eq_ok h
  simp [special, List.countP_replicate]

/-- Nothing special is inserted. -/
theorem countP_marks {level level' : ℕ} {c : Char} {before after : List Char}
    (h : marks level c = .ok (before, after, level')) :
    before.countP special = 0 ∧ after.countP special = 0 := by
  rcases marks_cases h with ⟨-, rfl, htext, -⟩ | ⟨-, htext, rfl, -⟩ | ⟨-, rfl, htext, -⟩ |
    ⟨-, rfl, rfl, -⟩
  · exact ⟨rfl, countP_newline htext⟩
  · exact ⟨countP_newline htext, rfl⟩
  · exact ⟨rfl, countP_newline htext⟩
  · exact ⟨rfl, rfl⟩

/-- What is left to do grows smaller: there is less that is special, or as much and the
rest is shorter. -/
theorem displayStep_decreases {str str' : List Char} {i i' level level' : ℕ}
    (hi : i < str.length) (h : displayStep str i level str[i] = .ok (str', i', level')) :
    (str'.drop (i' + 1)).countP special < (str.drop i).countP special ∨
      (str'.drop (i' + 1)).countP special = (str.drop i).countP special ∧
        str'.length - (i' + 1) < str.length - i := by
  obtain ⟨pre, c, rest, hstr, hpre, hc⟩ : ∃ pre c rest, str = pre ++ c :: rest ∧
      pre.length = i ∧ str[i] = c :=
    ⟨str.take i, str[i], str.drop (i + 1), by simp, List.length_take_of_le (by omega), rfl⟩
  rw [hc] at h
  subst hstr hpre
  rw [displayStep_append] at h
  rcases hmarks : marks level c with fault | ⟨before, after, level''⟩
  · rw [hmarks] at h
    cases h
  · rw [hmarks] at h
    obtain ⟨rfl, rfl, rfl⟩ : pre ++ before ++ c :: (after ++ rest) = str' ∧
        pre.length + before.length = i' ∧ level'' = level' := by
      simpa [Except.map] using h
    have hdrop : (pre ++ before ++ c :: (after ++ rest)).drop
        (pre.length + before.length + 1) = after ++ rest := by
      rw [← List.length_append, ← List.drop_drop, List.drop_left]
      rfl
    rw [hdrop, List.drop_left, List.countP_append, (countP_marks hmarks).2, Nat.zero_add,
      List.countP_cons]
    rcases marks_cases hmarks with ⟨rfl, -⟩ | ⟨rfl, -⟩ | ⟨rfl, -⟩ | ⟨hplain, rfl, rfl, -⟩
    · exact .inl (Nat.lt_succ_self _)
    · exact .inl (Nat.lt_succ_self _)
    · exact .inl (Nat.lt_succ_self _)
    · refine .inr ⟨by simp [hplain], ?_⟩
      simp only [List.append_nil, List.nil_append, List.length_append, List.length_cons,
        List.length_nil]
      omega

/-- The loop from the position `i` on. -/
def displayFrom (str : List Char) (i level : ℕ) : Except Fault (List Char) :=
  if hi : i < str.length then
    match _h : displayStep str i level str[i] with
    | .error fault => .error fault
    | .ok (str', i', level') => displayFrom str' (i' + 1) level'
  else .ok str
termination_by ((str.drop i).countP special, str.length - i)
decreasing_by
  rcases displayStep_decreases hi _h with hlt | ⟨heq, hlt⟩
  · exact Prod.Lex.left _ _ hlt
  · rw [heq]
    exact Prod.Lex.right _ hlt

/-- `formatForDisplay(str)`. -/
def formatForDisplay (str : List Char) : Except Fault (List Char) := displayFrom str 0 0

/-! ## What `formatForDisplay` makes of a text -/

/-- The text with all that is inserted. -/
def displayed (level : ℕ) : List Char → Except Fault (List Char)
  | [] => .ok []
  | c :: rest =>
    match marks level c with
    | .error fault => .error fault
    | .ok (before, after, level') =>
      (displayed level' rest).map fun text => before ++ c :: (after ++ text)

theorem displayFrom_cons (pre rest : List Char) (c : Char) (level : ℕ) :
    displayFrom (pre ++ c :: rest) pre.length level =
      match marks level c with
      | .error fault => .error fault
      | .ok (before, after, level') =>
        displayFrom ((pre ++ before ++ [c]) ++ (after ++ rest)) (pre ++ before ++ [c]).length
          level' := by
  have hi : pre.length < (pre ++ c :: rest).length := by simp
  have hc : (pre ++ c :: rest)[pre.length] = c := by simp
  have hstep := displayStep_append pre rest c level
  rw [displayFrom, dif_pos hi]
  rcases hmarks : marks level c with fault | ⟨before, after, level'⟩
  · rw [hmarks] at hstep
    split
    · rename_i fault' h
      rw [hc, hstep] at h
      exact congrArg _ (Except.error.inj h).symm
    · rename_i h
      rw [hc, hstep] at h
      cases h
  · rw [hmarks] at hstep
    split
    · rename_i h
      rw [hc, hstep] at h
      cases h
    · rename_i str' i' level'' h
      rw [hc, hstep] at h
      obtain ⟨rfl, rfl, rfl⟩ : pre ++ before ++ c :: (after ++ rest) = str' ∧
          pre.length + before.length = i' ∧ level' = level'' := by
        simpa [Except.map] using h
      simp [Nat.add_assoc]

/-- Where there is nothing special the loop goes on. -/
theorem displayFrom_plain (plain : List Char) : plain.countP special = 0 →
    ∀ (pre rest : List Char) (level : ℕ),
      displayFrom (pre ++ (plain ++ rest)) pre.length level =
        displayFrom (pre ++ (plain ++ rest)) (pre ++ plain).length level := by
  induction plain with
  | nil => simp
  | cons c plain ih =>
    intro h pre rest level
    have hc : special c = false := by
      by_contra hc
      simp [List.countP_cons, hc] at h
    have hmarks : marks level c = .ok ([], [], level) := by
      simp only [special, Bool.or_eq_false_iff, decide_eq_false_iff_not] at hc
      simp [marks, hc]
    have hcount : plain.countP special = 0 := by
      simpa [List.countP_cons, hc] using h
    have hnext := ih hcount (pre ++ [c]) rest level
    rw [List.cons_append, displayFrom_cons, hmarks]
    simpa using hnext

/-- From a position on the loop inserts what there is to insert behind it. -/
theorem displayFrom_append (rest : List Char) : ∀ (pre : List Char) (level : ℕ),
    displayFrom (pre ++ rest) pre.length level = (displayed level rest).map (pre ++ ·) := by
  induction rest with
  | nil =>
    intro pre level
    rw [displayFrom]
    simp [displayed, Except.map]
  | cons c rest ih =>
    intro pre level
    rw [displayFrom_cons, displayed]
    rcases hmarks : marks level c with fault | ⟨before, after, level'⟩
    · rfl
    -- the loop goes through what was inserted behind the character
    · have hnext := ih (pre ++ before ++ [c] ++ after) level'
      simp only
      rw [displayFrom_plain after (countP_marks hmarks).2, ← List.append_assoc, hnext]
      rcases displayed level' rest with fault | text
      · rfl
      · simp [Except.map]

/-- `formatForDisplay` inserts what there is to insert. -/
theorem formatForDisplay_eq (str : List Char) : formatForDisplay str = displayed 0 str := by
  have h := displayFrom_append str [] 0
  rw [formatForDisplay]
  rw [List.nil_append, List.length_nil] at h
  rw [h]
  rcases displayed 0 str with fault | text
  · rfl
  · rfl

/-- Every opening brace is followed by a newline. -/
def OpensLine : List Char → Prop
  | [] => True
  | c :: rest => (c = '{' → rest.head? = some '\n') ∧ OpensLine rest

theorem OpensLine.of_append {pre post : List Char} (h : OpensLine (pre ++ post)) :
    OpensLine post := by
  induction pre with
  | nil => exact h
  | cons c pre ih => exact ih h.2

theorem OpensLine.drop {text : List Char} (h : OpensLine text) (n : ℕ) :
    OpensLine (text.drop n) := by
  rw [← List.take_append_drop n text] at h
  exact h.of_append

/-- Before a text without opening braces. -/
theorem OpensLine.append {plain post : List Char} (hplain : '{' ∉ plain) (h : OpensLine post) :
    OpensLine (plain ++ post) := by
  induction plain with
  | nil => exact h
  | cons c plain ih =>
    refine ⟨fun hc => ?_, ih fun hmem => hplain (List.mem_cons_of_mem _ hmem)⟩
    exact absurd (hc ▸ List.mem_cons_self ..) hplain

theorem not_mem_newline {level : ℕ} {text : List Char} (h : newline level = .ok text) :
    '{' ∉ text := by
  obtain ⟨rfl, -⟩ := newline_eq_ok h
  simp

/-- The text that is displayed is of this kind. -/
theorem opensLine_displayed {rest : List Char} : ∀ {level : ℕ} {text : List Char},
    displayed level rest = .ok text → OpensLine text := by
  induction rest with
  | nil =>
    intro level text h
    obtain rfl := Except.ok.inj h
    trivial
  | cons c rest ih =>
    intro level text h
    rw [displayed] at h
    rcases hmarks : marks level c with fault | ⟨before, after, level'⟩
    · rw [hmarks] at h
      cases h
    · rcases hrest : displayed level' rest with fault | text'
      · rw [hmarks] at h
        simp only [hrest] at h
        cases h
      · rw [hmarks] at h
        simp only [hrest] at h
        obtain rfl := Except.ok.inj h
        have hlater := ih hrest
        rcases marks_cases hmarks with ⟨rfl, rfl, hafter, -⟩ | ⟨rfl, hbefore, rfl, -⟩ |
          ⟨rfl, rfl, hafter, -⟩ | ⟨hplain, rfl, rfl, -⟩
        · exact ⟨nofun, hlater.append (not_mem_newline hafter)⟩
        · exact OpensLine.append (not_mem_newline hbefore) ⟨nofun, hlater⟩
        -- this is the newline after the brace
        · obtain ⟨rfl, -⟩ := newline_eq_ok hafter
          exact ⟨fun _ => rfl, hlater.append (not_mem_newline hafter)⟩
        · refine ⟨fun hc => ?_, hlater⟩
          subst hc
          cases hplain

end RemoteControl.Display
