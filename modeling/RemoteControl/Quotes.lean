import RemoteControl.Display

/-!
# Quotes: what `removeJsonQuotes` makes of an event's parameters

The parameters of an event reach the test client as a JSON string: between quotation marks,
and with a backslash before each one inside. `removeJsonQuotes` takes both away.

* `removeJsonQuotes` — the function, with its loop over positions; the first character of an
  empty string, or an empty string's last one to remove, is a `Fault`.
* `unescaped` — what the loop makes of a text.
* `removeJsonQuotes_unquotes` — it undoes `quote`, leaves alone what is not in quotation
  marks, and faults on two strings.
-/

namespace RemoteControl.Display

/-! ## The function -/

/-- `str.front()`. -/
def front : List Char → Except Fault Char
  | [] => .error .outOfBounds
  | c :: _ => .ok c

/-- `str.back()`. -/
def back (str : List Char) : Except Fault Char :=
  match str.getLast? with
  | none => .error .outOfBounds
  | some c => .ok c

/-- `str.erase(pos, n)`. -/
def erase (str : List Char) (pos n : ℕ) : Except Fault (List Char) :=
  if pos ≤ str.length then .ok (str.take pos ++ str.drop (pos + n)) else .error .outOfBounds

/-- `str.pop_back()`. -/
def popBack (str : List Char) : Except Fault (List Char) :=
  if str = [] then .error .outOfBounds else .ok str.dropLast

/-- The body of the loop: `str` after it. -/
def unescapeStep (str : List Char) (i : ℕ) : List Char :=
  if i < str.length - 1 ∧ str[i]? = some '\\' ∧ str[i + 1]? = some '"' then
    str.take i ++ str.drop (i + 1)
  else str

theorem length_unescapeStep_le (str : List Char) (i : ℕ) :
    (unescapeStep str i).length ≤ str.length := by
  rw [unescapeStep]
  split
  · simp only [List.length_append, List.length_take, List.length_drop]
    omega
  · exact Nat.le_refl _

/-- The loop from the position `i` on. -/
def unescapeFrom (str : List Char) (i : ℕ) : List Char :=
  if i < str.length then unescapeFrom (unescapeStep str i) (i + 1) else str
termination_by str.length - i
decreasing_by
  have := length_unescapeStep_le str i
  omega

/-- `removeJsonQuotes(str)`. -/
def removeJsonQuotes (str : List Char) : Except Fault (List Char) := do
  if (← front str) = '"' then
    if (← back str) = '"' then
      let str ← erase str 0 1
      let str ← popBack str
      return unescapeFrom str 0
  return str

/-! ## What the loop does -/

/-- The text without the backslashes before quotation marks. -/
def unescaped : List Char → List Char
  | '\\' :: '"' :: rest => '"' :: unescaped rest
  | c :: rest => c :: unescaped rest
  | [] => []

/-- The step at a position. -/
theorem unescapeStep_append (pre rest : List Char) (c : Char) :
    unescapeStep (pre ++ c :: rest) pre.length =
      if c = '\\' ∧ rest.head? = some '"' then pre ++ rest else pre ++ c :: rest := by
  have hc : (pre ++ c :: rest)[pre.length]? = some c := by simp
  have hnext : (pre ++ c :: rest)[pre.length + 1]? = rest.head? := by
    rw [List.getElem?_append_right (by omega), List.head?_eq_getElem?]
    simp
  have herase : (pre ++ c :: rest).take pre.length ++ (pre ++ c :: rest).drop (pre.length + 1) =
      pre ++ rest := by
    simp
  rw [unescapeStep, hc, hnext, herase]
  cases rest with
  | nil => simp
  | cons d rest => simp

/-- The loop takes the backslashes away. -/
theorem unescapeFrom_append (rest : List Char) : ∀ pre : List Char,
    unescapeFrom (pre ++ rest) pre.length = pre ++ unescaped rest := by
  have hstep : ∀ pre c (rest : List Char), unescapeFrom (pre ++ c :: rest) pre.length =
      unescapeFrom (unescapeStep (pre ++ c :: rest) pre.length) (pre.length + 1) := by
    intro pre c rest
    rw [unescapeFrom, if_pos (by simp)]
  fun_induction unescaped rest with
  | case1 rest ih =>
    intro pre
    have h := ih (pre ++ ['"'])
    rw [hstep, unescapeStep_append, if_pos ⟨rfl, rfl⟩]
    simpa using h
  | case2 c rest hne ih =>
    intro pre
    have h := ih (pre ++ [c])
    have hnot : ¬ (c = '\\' ∧ rest.head? = some '"') := by
      rintro ⟨rfl, hhead⟩
      obtain ⟨rest, rfl⟩ := List.head?_eq_some_iff.mp hhead
      exact hne rest rfl rfl
    rw [hstep, unescapeStep_append, if_neg hnot]
    simpa using h
  | case3 =>
    intro pre
    rw [unescapeFrom, if_neg (by simp)]

/-! ## Quoting -/

/-- A backslash before every quotation mark. -/
def escape (text : List Char) : List Char :=
  text.flatMap fun c => if c = '"' then ['\\', '"'] else [c]

/-- The text as a JSON string, if there is no backslash in it. -/
def quote (text : List Char) : List Char := '"' :: escape text ++ ['"']

/-- Every quotation mark has a backslash before it. -/
def Escaped (text : List Char) : Prop :=
  ∀ pre post, text = pre ++ '"' :: post → ∃ pre', pre = pre' ++ ['\\']

theorem escape_cons_of_ne {c : Char} (h : c ≠ '"') (text : List Char) :
    escape (c :: text) = c :: escape text := by
  rw [escape, List.flatMap_cons, if_neg h, List.singleton_append, ← escape]

/-- An escaped text does not begin with a quotation mark. -/
theorem head?_escape_ne (text : List Char) : (escape text).head? ≠ some '"' := by
  cases text with
  | nil => simp [escape]
  | cons c text =>
    by_cases hc : c = '"'
    · simp [escape, hc]
    · simpa [escape_cons_of_ne hc] using hc

/-- What is not before a quotation mark stays. -/
theorem unescaped_cons {c : Char} {text : List Char}
    (h : ¬ (c = '\\' ∧ text.head? = some '"')) :
    unescaped (c :: text) = c :: unescaped text := by
  rw [unescaped]
  rintro rest rfl rfl
  exact h ⟨rfl, rfl⟩

/-- **Removing undoes quoting.** -/
theorem unescaped_escape (text : List Char) : unescaped (escape text) = text := by
  induction text with
  | nil => rfl
  | cons c text ih =>
    by_cases hc : c = '"'
    · rw [hc]
      exact congrArg ('"' :: ·) ih
    · rw [escape_cons_of_ne hc, unescaped_cons (fun h => head?_escape_ne text h.2), ih]

/-- The rest of an escaped text is escaped, unless it is cut off behind a backslash. -/
theorem Escaped.of_append (front rest : List Char) (h : Escaped (front ++ rest))
    (hne : rest.head? = some '"' → front.getLast? ≠ some '\\') : Escaped rest := by
  rintro pre post rfl
  obtain ⟨pre', hpre'⟩ := h (front ++ pre) post (List.append_assoc ..).symm
  rcases List.eq_nil_or_concat pre with rfl | ⟨pre, d, rfl⟩
  · rw [List.append_nil] at hpre'
    exact absurd (by rw [hpre', List.getLast?_concat]) (hne rfl)
  · rw [List.concat_eq_append, ← List.append_assoc] at hpre'
    obtain ⟨-, hd⟩ := List.append_inj' hpre' rfl
    exact ⟨pre, List.concat_eq_append.trans (congrArg (pre ++ ·) hd)⟩

/-- And quoting undoes removing, where every quotation mark was escaped. -/
theorem escape_unescaped (text : List Char) : Escaped text → escape (unescaped text) = text := by
  fun_induction unescaped text with
  | case1 rest ih =>
    intro h
    have hrest : Escaped rest := Escaped.of_append ['\\', '"'] rest h (by simp)
    exact congrArg (['\\', '"'] ++ ·) (ih hrest)
  | case2 c rest hne ih =>
    intro h
    have hnot : ¬ (c = '\\' ∧ rest.head? = some '"') := by
      rintro ⟨rfl, hhead⟩
      obtain ⟨rest, rfl⟩ := List.head?_eq_some_iff.mp hhead
      exact hne rest rfl rfl
    have hc : c ≠ '"' := by
      rintro rfl
      obtain ⟨pre, hpre⟩ := h [] rest rfl
      simp at hpre
    have hrest : Escaped rest := Escaped.of_append [c] rest h fun hhead hlast =>
      hnot ⟨by simpa using hlast, hhead⟩
    rw [escape_cons_of_ne hc, ih hrest]
  | case3 => exact fun _ => rfl

/-! ## What the function does -/

/-- Between quotation marks. -/
theorem removeJsonQuotes_quoted (text : List Char) :
    removeJsonQuotes ('"' :: text ++ ['"']) = .ok (unescaped text) := by
  have hback : back ('"' :: text ++ ['"']) = .ok '"' := by
    rw [back, List.getLast?_concat]
  have herase : erase ('"' :: text ++ ['"']) 0 1 = .ok (text ++ ['"']) := by simp [erase]
  have hpop : popBack (text ++ ['"']) = .ok text := by simp [popBack]
  have hloop : unescapeFrom text 0 = unescaped text := unescapeFrom_append text []
  simp only [removeJsonQuotes, List.cons_append, front] at hback herase ⊢
  simp [hback, herase, hpop, hloop, bind, Except.bind, pure, Except.pure]

/-- Not between quotation marks. -/
theorem removeJsonQuotes_unquoted {str : List Char} (h : str ≠ [])
    (hnot : ¬ (str.head? = some '"' ∧ str.getLast? = some '"')) :
    removeJsonQuotes str = .ok str := by
  obtain ⟨c, rest, rfl⟩ := List.exists_cons_of_ne_nil h
  by_cases hc : c = '"'
  · subst hc
    obtain ⟨d, hd⟩ := Option.ne_none_iff_exists'.mp (mt List.getLast?_eq_none_iff.mp h)
    have hback : back ('"' :: rest) = .ok d := by rw [back, hd]
    have hdne : d ≠ '"' := fun heq => hnot ⟨rfl, by rw [hd, heq]⟩
    simp [removeJsonQuotes, front, hback, hdne, bind, Except.bind, pure, Except.pure]
  · simp [removeJsonQuotes, front, hc, bind, Except.bind, pure, Except.pure]

/-- A string begins and ends with a quotation mark only if it is one or is between two. -/
theorem quoted_cases {str : List Char} (hfirst : str.head? = some '"')
    (hlast : str.getLast? = some '"') : str = ['"'] ∨ ∃ inner, str = '"' :: inner ++ ['"'] := by
  obtain ⟨rest, rfl⟩ := List.head?_eq_some_iff.mp hfirst
  rcases List.eq_nil_or_concat rest with rfl | ⟨inner, c, rfl⟩
  · exact .inl rfl
  · rw [List.concat_eq_append, ← List.cons_append, List.getLast?_concat] at hlast
    exact .inr ⟨inner, by rw [Option.some.inj hlast, List.concat_eq_append]; rfl⟩

/-- **`removeJsonQuotes`**: it undoes quoting, and of what is between quotation marks, and
escaped, it undoes nothing else; what is not between quotation marks it leaves alone; and it
goes beyond the string exactly when this is empty or a single quotation mark. -/
theorem removeJsonQuotes_unquotes (str : List Char) :
    ((∃ fault, removeJsonQuotes str = .error fault) ↔ str = [] ∨ str = ['"']) ∧
      (str ≠ [] → ¬ (str.head? = some '"' ∧ str.getLast? = some '"') →
        removeJsonQuotes str = .ok str) ∧
      (∀ text, str = quote text → removeJsonQuotes str = .ok text) ∧
      ∀ inner text, str = '"' :: inner ++ ['"'] → Escaped inner →
        (removeJsonQuotes str = .ok text ↔ str = quote text) := by
  have hquote : ∀ text, removeJsonQuotes (quote text) = .ok text := fun text => by
    rw [quote, removeJsonQuotes_quoted, unescaped_escape]
  refine ⟨⟨?_, ?_⟩, removeJsonQuotes_unquoted, fun text h => h ▸ hquote text, ?_⟩
  · rintro ⟨fault, hfault⟩
    by_cases hnil : str = []
    · exact .inl hnil
    · by_cases hquoted : str.head? = some '"' ∧ str.getLast? = some '"'
      · rcases quoted_cases hquoted.1 hquoted.2 with hone | ⟨inner, rfl⟩
        · exact .inr hone
        · rw [removeJsonQuotes_quoted] at hfault
          cases hfault
      · rw [removeJsonQuotes_unquoted hnil hquoted] at hfault
        cases hfault
  · rintro (rfl | rfl)
    · exact ⟨.outOfBounds, rfl⟩
    · exact ⟨.outOfBounds, rfl⟩
  · rintro inner text rfl hinner
    rw [removeJsonQuotes_quoted]
    constructor
    · intro h
      rw [quote, ← Except.ok.inj h, escape_unescaped inner hinner]
    · intro h
      rw [← removeJsonQuotes_quoted, h, hquote]

/-- The parameters of an event without a backslash in it. -/
theorem removeJsonQuotes_unquotes_status :
    removeJsonQuotes "\"\x7b\\\"netType\\\":1\x7d\"".toList =
      .ok "\x7b\"netType\":1\x7d".toList := by
  obtain ⟨-, -, hquote, -⟩ :=
    removeJsonQuotes_unquotes "\"\x7b\\\"netType\\\":1\x7d\"".toList
  exact hquote _ (by decide +kernel)

end RemoteControl.Display
