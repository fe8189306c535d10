import RemoteControl.Display
import RemoteControl.Pages

/-!
# Indentation: the page that `formatForDisplay` prints

`formatForDisplay` breaks a text after every comma and opening brace and before every
closing one, and indents the lines by four blanks for each brace that is open. So its
output is a printed page (`Pages`), whose content is the text.

* `page` — the page, read off the text.
* `displayed_eq` — what is inserted into the text are its line breaks and blanks; only a
  level whose blanks cannot be counted stops the function.
* `LaidOut` — where the lines break, and what their levels are.
* `formatForDisplay_lays_out` — all of it, and the way back.
-/

namespace RemoteControl.Display

open Pages

/-- The lines of a text behind `level` open braces. -/
def page (level : ℕ) : List Char → Page Char
  | [] => .single []
  | c :: rest =>
    if c = ',' then (page level rest).startLine [c] level
    else if c = '}' then ((page (level - 1) rest).push c).startLine [] (level - 1)
    else if c = '{' then (page (level + 1) rest).startLine [c] (level + 1)
    else (page level rest).push c

/-- The blanks of every line can be counted by an `int`. -/
def fits (p : Page Char) : Bool := p.lines.all fun line => line.1 * indent < 2 ^ 31

/-! ## The output is the printed page -/

theorem content_page (text : List Char) : ∀ level, (page level text).content = text := by
  induction text with
  | nil => exact fun _ => rfl
  | cons c rest ih =>
    intro level
    rw [page]
    by_cases hcomma : c = ','
    · rw [if_pos hcomma, Page.content_startLine, ih, List.singleton_append]
    · rw [if_neg hcomma]
      by_cases hclose : c = '}'
      · rw [if_pos hclose, Page.content_startLine, Page.content_push, ih, List.nil_append]
      · rw [if_neg hclose]
        by_cases hopen : c = '{'
        · rw [if_pos hopen, Page.content_startLine, ih, List.singleton_append]
        · rw [if_neg hopen, Page.content_push, ih]

/-- The printed page, if every line can be indented. -/
def output (p : Page Char) : Except Fault (List Char) :=
  if fits p then .ok (p.render '\n' ' ' indent) else .error .overflow

theorem output_push (c : Char) (p : Page Char) : output (p.push c) = (output p).map (c :: ·) := by
  have hfits : fits (p.push c) = fits p := rfl
  rw [output, output, hfits]
  by_cases h : fits p = true
  · rw [if_pos h, if_pos h]
    rfl
  · rw [if_neg h, if_neg h]
    rfl

theorem newline_of_lt {level : ℕ} (h : level * indent < 2 ^ 31) :
    newline level = .ok ('\n' :: List.replicate (level * indent) ' ') := by
  rw [newline, indentation, if_pos h]
  rfl

theorem newline_of_not_lt {level : ℕ} (h : ¬ level * indent < 2 ^ 31) :
    newline level = .error .overflow := by
  rw [newline, indentation, if_neg h]
  rfl

/-- A line break, and the page behind it. -/
theorem output_startLine (text : List Char) (level : ℕ) (p : Page Char) :
    output (p.startLine text level) =
      match newline level with
      | .error fault => .error fault
      | .ok line => (output p).map fun rest => text ++ (line ++ rest) := by
  have hfits : fits (p.startLine text level) = (decide (level * indent < 2 ^ 31) && fits p) := rfl
  rw [output, output, hfits]
  by_cases hlevel : level * indent < 2 ^ 31
  · rw [decide_eq_true hlevel, Bool.true_and, newline_of_lt hlevel]
    by_cases h : fits p = true
    · rw [if_pos h, if_pos h, Page.render_startLine]
      rfl
    · rw [if_neg h, if_neg h]
      rfl
  · rw [decide_eq_false hlevel, Bool.false_and, if_neg Bool.false_ne_true,
      newline_of_not_lt hlevel]

/-- The text with all that is inserted is the printed page. -/
theorem displayed_eq (text : List Char) : ∀ level, displayed level text =
    output (page level text) := by
  induction text with
  | nil => exact fun _ => rfl
  | cons c rest ih =>
    intro level
    rw [displayed, page, marks]
    by_cases hcomma : c = ','
    · rw [if_pos hcomma, if_pos hcomma, output_startLine]
      rcases newline level with fault | line
      · rfl
      · simp [Except.map, ih]
    · rw [if_neg hcomma, if_neg hcomma]
      by_cases hclose : c = '}'
      · rw [if_pos hclose, if_pos hclose, output_startLine, output_push]
        rcases newline (level - 1) with fault | line
        · rfl
        · simp only [Except.map, ih]
          rcases output (page (level - 1) rest) with fault | text
          · rfl
          · simp
      · rw [if_neg hclose, if_neg hclose]
        by_cases hopen : c = '{'
        · rw [if_pos hopen, if_pos hopen, output_startLine]
          rcases newline (level + 1) with fault | line
          · rfl
          · simp [Except.map, ih]
        · rw [if_neg hopen, if_neg hopen, output_push, ← ih]
          rfl

/-! ## The lines -/

/-- How many braces are open behind a text; a closing brace too many closes nothing. -/
def depth (level : ℕ) (text : List Char) : ℕ :=
  text.foldl (fun level c => if c = '{' then level + 1 else if c = '}' then level - 1 else level)
    level

theorem depth_append (level : ℕ) (text text' : List Char) :
    depth level (text ++ text') = depth (depth level text) text' :=
  List.foldl_append

theorem depth_cons_of_plain {c : Char} (h : special c = false) (level : ℕ) (text : List Char) :
    depth level (c :: text) = depth level text := by
  obtain ⟨⟨-, hclose⟩, hopen⟩ : (c ≠ ',' ∧ c ≠ '}') ∧ c ≠ '{' := by simpa [special] using h
  rw [depth, List.foldl_cons, if_neg hopen, if_neg hclose]
  rfl

/-- The text ends with a comma or an opening brace. -/
def EndsOpen (text : List Char) : Prop := ∃ pre, text = pre ++ [','] ∨ text = pre ++ ['{']

/-- Nothing special but perhaps a comma or an opening brace at the end. -/
def Body (text : List Char) : Prop :=
  ∃ plain stop, text = plain ++ stop ∧ plain.countP special = 0 ∧
    (stop = [] ∨ stop = [','] ∨ stop = ['{'])

/-- A line behind `before`: it begins with a closing brace, which counts for its own level,
or else the line before it ended with a comma or an opening brace. -/
def Line (level : ℕ) (before : List Char) (line : ℕ × List Char) : Prop :=
  (∃ body, line.2 = '}' :: body ∧ Body body ∧ line.1 = depth level (before ++ ['}'])) ∨
    (Body line.2 ∧ line.1 = depth level before ∧ EndsOpen before)

/-- Where the lines of a page break, and what their levels are. -/
structure LaidOut (level : ℕ) (p : Page Char) : Prop where
  /-- the first line -/
  first : Body p.first
  /-- the further lines -/
  lines : ∀ pre line post, p.lines = pre ++ line :: post →
    Line level (p.first ++ pre.flatMap Prod.snd) line

theorem body_nil : Body [] := ⟨[], [], rfl, rfl, .inl rfl⟩

theorem Body.cons {c : Char} (h : special c = false) {text : List Char} (ht : Body text) :
    Body (c :: text) := by
  obtain ⟨plain, stop, rfl, hplain, hstop⟩ := ht
  refine ⟨c :: plain, stop, rfl, ?_, hstop⟩
  rw [List.countP_cons_of_neg (by simp [h]), hplain]

theorem EndsOpen.cons {text : List Char} (h : EndsOpen text) (c : Char) :
    EndsOpen (c :: text) := by
  obtain ⟨pre, rfl | rfl⟩ := h
  · exact ⟨c :: pre, .inl rfl⟩
  · exact ⟨c :: pre, .inr rfl⟩

/-- What a line is does not depend on what lies further in front, but for its level. -/
theorem Line.cons {level level' : ℕ} {c : Char} {before : List Char} {line : ℕ × List Char}
    (h : Line level' before line) (hlevel : depth level [c] = level') :
    Line level (c :: before) line := by
  have hdepth : ∀ text, depth level (c :: text) = depth level' text := fun text => by
    rw [← hlevel, ← depth_append, List.singleton_append]
  rcases h with ⟨body, hline, hbody, heq⟩ | ⟨hbody, heq, hends⟩
  · exact .inl ⟨body, hline, hbody, by rw [List.cons_append, hdepth, heq]⟩
  · exact .inr ⟨hbody, by rw [hdepth, heq], hends.cons c⟩

/-- A plain character more on the first line. -/
theorem LaidOut.push {level : ℕ} {c : Char} (h : special c = false) {p : Page Char}
    (hp : LaidOut level p) : LaidOut level (p.push c) where
  first := hp.first.cons h
  lines := fun pre line post heq =>
    (hp.lines pre line post heq).cons (depth_cons_of_plain h level [])

/-- A line that ends with `c`, and then the page. -/
theorem LaidOut.startLine {level level' : ℕ} {c : Char} (hc : c = ',' ∨ c = '{') {p : Page Char}
    (hp : LaidOut level' p) (hlevel : depth level [c] = level') :
    LaidOut level (p.startLine [c] level') where
  first := ⟨[], [c], rfl, rfl, .inr (by rcases hc with rfl | rfl <;> simp)⟩
  lines := by
    rintro (_ | ⟨l, pre⟩) line post heq
    · obtain ⟨rfl, rfl⟩ : (level', p.first) = line ∧ p.lines = post := by
        simpa [Page.startLine] using heq
      refine .inr ⟨hp.first, hlevel.symm, [], ?_⟩
      rcases hc with rfl | rfl
      · exact .inl rfl
      · exact .inr rfl
    · obtain ⟨rfl, hlines⟩ : (level', p.first) = l ∧ p.lines = pre ++ line :: post := by
        simpa [Page.startLine] using heq
      exact (hp.lines pre line post hlines).cons hlevel

/-- A closing brace on a line of its own, and then the page. -/
theorem LaidOut.close {level : ℕ} {p : Page Char} (hp : LaidOut (level - 1) p) :
    LaidOut level ((p.push '}').startLine [] (level - 1)) where
  first := body_nil
  lines := by
    have hlevel : depth level ['}'] = level - 1 := rfl
    rintro (_ | ⟨l, pre⟩) line post heq
    · obtain ⟨rfl, rfl⟩ : (level - 1, (p.push '}').first) = line ∧ p.lines = post := by
        simpa [Page.startLine, Page.push] using heq
      exact .inl ⟨p.first, rfl, hp.first, hlevel.symm⟩
    · obtain ⟨rfl, hlines⟩ : (level - 1, (p.push '}').first) = l ∧
          p.lines = pre ++ line :: post := by
        simpa [Page.startLine, Page.push] using heq
      exact (hp.lines pre line post hlines).cons hlevel

theorem laidOut_page (text : List Char) : ∀ level, LaidOut level (page level text) := by
  induction text with
  | nil => exact fun _ => ⟨body_nil, by simp [page, Page.single]⟩
  | cons c rest ih =>
    intro level
    rw [page]
    by_cases hcomma : c = ','
    · rw [if_pos hcomma]
      exact (ih level).startLine (.inl hcomma) (by rw [hcomma]; rfl)
    · rw [if_neg hcomma]
      by_cases hclose : c = '}'
      · rw [if_pos hclose, hclose]
        exact (ih (level - 1)).close
      · rw [if_neg hclose]
        by_cases hopen : c = '{'
        · rw [if_pos hopen]
          exact (ih (level + 1)).startLine (.inr hopen) (by rw [hopen]; rfl)
        · rw [if_neg hopen]
          exact (ih level).push (by simp [special, hcomma, hclose, hopen])

/-- No blank follows a comma or an opening brace: the text has no layout of its own. -/
def Compact (text : List Char) : Prop :=
  '\n' ∉ text ∧ ∀ pre post, EndsOpen pre → text ≠ pre ++ ' ' :: post

/-- No line of a compact text begins with a blank. -/
theorem LaidOut.head?_ne {level : ℕ} {p : Page Char} (hp : LaidOut level p)
    (h : Compact p.content) : ∀ line ∈ p.lines, line.2.head? ≠ some ' ' := by
  intro line hline hblank
  obtain ⟨pre, post, hsplit⟩ := List.append_of_mem hline
  obtain ⟨rest, hrest⟩ := List.head?_eq_some_iff.mp hblank
  rcases hp.lines pre line post hsplit with ⟨body, hbody, -, -⟩ | ⟨-, -, hends⟩
  · rw [hbody] at hrest
    simp at hrest
  · refine h.2 _ (rest ++ post.flatMap Prod.snd) hends ?_
    rw [Page.content, hsplit, List.flatMap_append, List.flatMap_cons, hrest]
    simp

/-- **The layout.** `formatForDisplay` prints the text in lines: each begins with a closing
brace or follows a comma or an opening brace, and there is nothing special inside of it; it
is indented by four blanks for every brace that is open, and a brace it begins with is
closed already. The function fails exactly if these blanks cannot be counted. And if the
text has no layout of its own, leaving out line breaks and indentation gives it back. -/
theorem formatForDisplay_lays_out (text : List Char) :
    ∃ p : Page Char, p.content = text ∧ LaidOut 0 p ∧
      formatForDisplay text =
        (if fits p then .ok (p.render '\n' ' ' indent) else .error .overflow) ∧
      (Compact text → ∀ out, formatForDisplay text = .ok out →
        strip '\n' ' ' false out = text) := by
  have hcontent := content_page text 0
  have hlaid := laidOut_page text 0
  have hformat : formatForDisplay text = output (page 0 text) := by
    rw [formatForDisplay_eq, displayed_eq]
  refine ⟨page 0 text, hcontent, hlaid, hformat, fun hcompact out hout => ?_⟩
  rw [hformat, output] at hout
  by_cases hfits : fits (page 0 text) = true
  · rw [if_pos hfits] at hout
    rw [← hcontent] at hcompact
    rw [← Except.ok.inj hout, strip_render (by decide) indent hcompact.1 (hlaid.head?_ne hcompact),
      hcontent]
  · rw [if_neg hfits] at hout
    cases hout

/-- A status, as the plugin answers it. -/
def shortStatus : List Char := "\x7b\"status\":\x7b\"a\":1,\"b\":2\x7d\x7d".toList

theorem formatForDisplay_lays_out_shortStatus :
    ∃ out, formatForDisplay shortStatus = .ok out ∧ out =
        ("\x7b\n    \"status\":\x7b\n        \"a\":1,\n" ++
          "        \"b\":2\n    \x7d\n\x7d").toList ∧
      strip '\n' ' ' false out = shortStatus := by
  have hformat : formatForDisplay shortStatus =
      .ok ("\x7b\n    \"status\":\x7b\n        \"a\":1,\n" ++
        "        \"b\":2\n    \x7d\n\x7d").toList := by
    rw [formatForDisplay_eq]
    decide +kernel
  have hblank : ' ' ∉ shortStatus := by decide +kernel
  have hcompact : Compact shortStatus := by
    refine ⟨by decide +kernel, fun pre post _ heq => hblank ?_⟩
    rw [heq]
    simp
  obtain ⟨p, -, -, -, hback⟩ := formatForDisplay_lays_out shortStatus
  exact ⟨_, hformat, rfl, hback hcompact _ hformat⟩

end RemoteControl.Display
