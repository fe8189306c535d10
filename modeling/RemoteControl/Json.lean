import Mathlib.Data.UInt

/-!
# JSON, as the plugin uses it

The JSON classes belong to the framework and are not part of this repository.
`JsonLib` lists what the plugin calls of them, under their names; everything
about ctrlm is stated for an arbitrary one. `treeJson` is a plain one to evaluate
the code with: values are trees, texts are printed and read without blanks.

A `String` stands for a `std::string`, a `Char` for one of its bytes.
-/

namespace RemoteControl

/-- `JsonObject`, `JsonValue` and `JsonArray`. -/
structure JsonLib where
  /-- `JsonObject` -/
  Object : Type
  /-- `JsonValue`, which is `Core::JSON::Variant` -/
  Variant : Type
  /-- `JsonArray` -/
  Arr : Type
  /-- `JsonObject()` -/
  emptyObject : Object
  /-- `object.HasLabel(label)` -/
  hasLabel : Object → String → Bool
  /-- `object[label]`, read -/
  get : Object → String → Variant
  /-- `object[label] = value` -/
  set : Object → String → Variant → Object
  /-- `object.ToString(text)` -/
  toString : Object → String
  /-- what `object.FromString(text)` makes of a fresh object -/
  fromString : String → Object
  /-- `JsonArray()` -/
  emptyArr : Arr
  /-- `array.Add(value)` -/
  add : Arr → Variant → Arr
  /-- the values `array.Elements()` goes through -/
  elements : Arr → List Variant
  /-- `array.Length()` -/
  length : Arr → UInt16
  /-- `array[i]` -/
  index : Arr → UInt16 → Variant
  /-- a variant holding a `uint32_t` -/
  ofUint32 : UInt32 → Variant
  /-- a variant holding a `bool` -/
  ofBool : Bool → Variant
  /-- a variant holding a string -/
  ofString : String → Variant
  /-- a variant holding an array -/
  ofArray : Arr → Variant
  /-- `value.Number()` -/
  number : Variant → Int64
  /-- `value.Boolean()` -/
  boolean : Variant → Bool
  /-- `value.String()` -/
  string : Variant → String
  /-- `value.Object()` -/
  object : Variant → Object
  /-- `value.Array()` -/
  array : Variant → Arr

namespace JsonLib

variable (J : JsonLib) {α : Type}

/-- `object.HasLabel(label) ? read(object[label]) : defaultValue`. -/
def fieldOr (object : J.Object) (label : String) (read : J.Variant → α) (defaultValue : α) : α :=
  if J.hasLabel object label then read (J.get object label) else defaultValue

theorem fieldOr_of_has {object : J.Object} {label : String} (h : J.hasLabel object label = true)
    (read : J.Variant → α) (defaultValue : α) :
    J.fieldOr object label read defaultValue = read (J.get object label) := if_pos h

theorem fieldOr_of_not_has {object : J.Object} {label : String}
    (h : ¬ J.hasLabel object label = true) (read : J.Variant → α) (defaultValue : α) :
    J.fieldOr object label read defaultValue = defaultValue := if_neg h

/-- `if (optional.IsSet()) params[label] = optional.Value();` -/
def setIfSet (params : J.Object) (label : String) (write : α → J.Variant) :
    Option α → J.Object
  | some value => J.set params label (write value)
  | none => params

/-- `if (!text.empty()) params[label] = text;` -/
def setIfNonEmpty (params : J.Object) (label text : String) : J.Object :=
  if text.isEmpty then params else J.set params label (J.ofString text)

/-- `for (const auto& text : texts) array.Add(Variant(text));` -/
def addStrings (array : J.Arr) (texts : List String) : J.Arr :=
  texts.foldl (fun array text => J.add array (J.ofString text)) array

/-- A 16-bit index below a 16-bit length does not wrap when it is incremented. -/
theorem toNat_succ_of_lt {i length : UInt16} (h : i < length) :
    (i + 1).toNat = i.toNat + 1 := by
  have hlt : i.toNat < length.toNat := UInt16.lt_iff_toNat_lt.mp h
  have hbound : length.toNat < 2 ^ 16 := length.toNat_lt
  rw [UInt16.toNat_add]
  apply Nat.mod_eq_of_lt
  simp only [UInt16.toNat_one]
  omega

/-- An index loop over a 16-bit length comes closer to its end. -/
theorem remaining_lt {i length : UInt16} (h : i < length) :
    length.toNat - (i + 1).toNat < length.toNat - i.toNat := by
  have hlt : i.toNat < length.toNat := UInt16.lt_iff_toNat_lt.mp h
  rw [toNat_succ_of_lt h]
  omega

/-- `for (; i < array.Length(); i++) list.push_back(array[i].String());`, with the
16-bit index of the source. -/
def pushStrings (array : J.Arr) (i : UInt16) (list : List String) : List String :=
  if _h : i < J.length array then
    pushStrings array (i + 1) (list ++ [J.string (J.index array i)])
  else list
termination_by (J.length array).toNat - i.toNat
decreasing_by exact remaining_lt _h

/-- The same loop with the further condition `list.size() < limit`. -/
def pushStringsUpTo (limit : ℕ) (array : J.Arr) (i : UInt16) (list : List String) :
    List String :=
  if _h : i < J.length array ∧ list.length < limit then
    pushStringsUpTo limit array (i + 1) (list ++ [J.string (J.index array i)])
  else list
termination_by (J.length array).toNat - i.toNat
decreasing_by exact remaining_lt _h.1

/-! ### What the loops read

`Length()` and `array[i]` are another way to the elements that `Elements()` goes
through. -/

variable {J}

/-- `Length()` is the number of elements, as a `uint16_t`, and `array[i]` is the
`i`-th of them. -/
structure Indexed (J : JsonLib) : Prop where
  /-- the number of elements -/
  length : ∀ array, J.length array = UInt16.ofNat (J.elements array).length
  /-- the elements -/
  index : ∀ array (i : UInt16), i.toNat < (J.elements array).length →
    (J.elements array)[i.toNat]? = some (J.index array i)

/-- The loop condition, on an array whose length fits in 16 bits. -/
theorem Indexed.lt_length_iff (hJ : J.Indexed) {array : J.Arr}
    (hlen : (J.elements array).length < 2 ^ 16) {i : UInt16} :
    i < J.length array ↔ i.toNat < (J.elements array).length := by
  rw [hJ.length, UInt16.lt_iff_toNat_lt, UInt16.toNat_ofNat_of_lt' hlen]

/-- The elements from the index on, at an index inside. -/
theorem Indexed.drop_eq_cons (hJ : J.Indexed) {array : J.Arr} {i : UInt16}
    (h : i.toNat < (J.elements array).length) :
    (J.elements array).drop i.toNat =
      J.index array i :: (J.elements array).drop (i.toNat + 1) := by
  obtain ⟨_, hget⟩ := List.getElem?_eq_some_iff.mp (hJ.index array i h)
  rw [List.drop_eq_getElem_cons h, hget]

/-- **The index loop** reads every element, in order. -/
theorem pushStrings_eq (hJ : J.Indexed) {array : J.Arr}
    (hlen : (J.elements array).length < 2 ^ 16) (i : UInt16) (list : List String) :
    J.pushStrings array i list =
      list ++ ((J.elements array).drop i.toNat).map J.string := by
  fun_induction J.pushStrings array i list with
  | case1 i list h ih =>
    have hi := (hJ.lt_length_iff hlen).mp h
    rw [ih, toNat_succ_of_lt h, hJ.drop_eq_cons hi, List.map_cons, List.append_assoc,
      List.singleton_append]
  | case2 i list h =>
    have hi : (J.elements array).length ≤ i.toNat :=
      Nat.le_of_not_lt fun hlt => h ((hJ.lt_length_iff hlen).mpr hlt)
    rw [List.drop_eq_nil_of_le hi, List.map_nil, List.append_nil]

/-- **The index loop with a limit** reads as many as still fit, in order. -/
theorem pushStringsUpTo_eq (hJ : J.Indexed) {limit : ℕ} {array : J.Arr}
    (hlen : (J.elements array).length < 2 ^ 16) (i : UInt16) (list : List String) :
    J.pushStringsUpTo limit array i list =
      list ++ (((J.elements array).drop i.toNat).take (limit - list.length)).map J.string := by
  fun_induction J.pushStringsUpTo limit array i list with
  | case1 i list h ih =>
    have hi := (hJ.lt_length_iff hlen).mp h.1
    obtain ⟨n, hn⟩ := Nat.exists_eq_add_of_lt h.2
    have hroom : limit - list.length = n + 1 := by omega
    rw [ih, toNat_succ_of_lt h.1, hJ.drop_eq_cons hi, hroom, List.take_succ_cons, List.map_cons,
      List.append_assoc, List.singleton_append, List.length_append, List.length_singleton,
      show limit - (list.length + 1) = n by omega]
  | case2 i list h =>
    rcases Nat.lt_or_ge list.length limit with hroom | hfull
    · have hi : (J.elements array).length ≤ i.toNat :=
        Nat.le_of_not_lt fun hlt => h ⟨(hJ.lt_length_iff hlen).mpr hlt, hroom⟩
      rw [List.drop_eq_nil_of_le hi, List.take_nil, List.map_nil, List.append_nil]
    · rw [Nat.sub_eq_zero_of_le hfull, List.take_zero, List.map_nil, List.append_nil]

/-! ### Objects as what was written into them -/

/-- A value that was written is read back, under its label and under no other. -/
structure Lawful (J : JsonLib) : Prop where
  /-- a fresh object has no labels -/
  hasLabel_emptyObject : ∀ label, J.hasLabel J.emptyObject label = false
  /-- writing adds the label -/
  hasLabel_set : ∀ object label value label', J.hasLabel (J.set object label value) label' =
    (decide (label' = label) || J.hasLabel object label')
  /-- and its value -/
  get_set : ∀ object label value label', J.get (J.set object label value) label' =
    if label' = label then value else J.get object label'
  /-- a `uint32_t` -/
  number_ofUint32 : ∀ n, J.number (J.ofUint32 n) = n.toUInt64.toInt64
  /-- a `bool` -/
  boolean_ofBool : ∀ b, J.boolean (J.ofBool b) = b
  /-- a string -/
  string_ofString : ∀ s, J.string (J.ofString s) = s
  /-- an array -/
  elements_ofArray : ∀ a, J.elements (J.array (J.ofArray a)) = J.elements a
  /-- a fresh array has no elements -/
  elements_emptyArr : J.elements J.emptyArr = []
  /-- `Add` appends -/
  elements_add : ∀ a v, J.elements (J.add a v) = J.elements a ++ [v]

/-- Reading the label that was just written. -/
theorem Lawful.fieldOr_set_self (hJ : J.Lawful) (object : J.Object) (label : String)
    (value : J.Variant) (read : J.Variant → α) (defaultValue : α) :
    J.fieldOr (J.set object label value) label read defaultValue = read value := by
  rw [fieldOr, hJ.hasLabel_set, hJ.get_set, decide_eq_true rfl, Bool.true_or, if_pos rfl,
    if_pos rfl]

/-- Reading another label. -/
theorem Lawful.fieldOr_set_ne (hJ : J.Lawful) (object : J.Object) {label label' : String}
    (h : label' ≠ label) (value : J.Variant) (read : J.Variant → α) (defaultValue : α) :
    J.fieldOr (J.set object label value) label' read defaultValue =
      J.fieldOr object label' read defaultValue := by
  rw [fieldOr, fieldOr, hJ.hasLabel_set, hJ.get_set, decide_eq_false h, Bool.false_or, if_neg h]

/-- Reading a fresh object. -/
theorem Lawful.fieldOr_emptyObject (hJ : J.Lawful) (label : String) (read : J.Variant → α)
    (defaultValue : α) : J.fieldOr J.emptyObject label read defaultValue = defaultValue := by
  rw [fieldOr, hJ.hasLabel_emptyObject, if_neg Bool.false_ne_true]

/-- The strings added to an array. -/
theorem Lawful.elements_addStrings (hJ : J.Lawful) (array : J.Arr) (texts : List String) :
    (J.elements (J.addStrings array texts)).map J.string =
      (J.elements array).map J.string ++ texts := by
  induction texts generalizing array with
  | nil => exact (List.append_nil _).symm
  | cons text texts ih =>
    have hadd := ih (J.add array (J.ofString text))
    rw [hJ.elements_add, List.map_append, List.map_singleton, hJ.string_ofString,
      List.append_assoc, List.singleton_append] at hadd
    exact hadd

end JsonLib

/-! ## A plain library -/

/-- JSON values as trees. -/
inductive Json where
  /-- `null`, also what a missing label yields -/
  | null
  /-- `true` and `false` -/
  | boolean (b : Bool)
  /-- a number -/
  | number (n : Int64)
  /-- a string -/
  | string (s : String)
  /-- an array -/
  | array (elements : List Json)
  /-- an object -/
  | object (fields : List (String × Json))

namespace Json

/-- Replace the value of a label, or append the label. -/
def setField (label : String) (value : Json) :
    List (String × Json) → List (String × Json)
  | [] => [(label, value)]
  | (l, v) :: rest => if l = label then (l, value) :: rest else (l, v) :: setField label value rest

/-- The value of a label. -/
def getField (label : String) (fields : List (String × Json)) : Json :=
  ((fields.find? fun field => field.1 = label).map Prod.snd).getD null

/-- `Number()`. -/
def toNumber : Json → Int64
  | number n => n
  | _ => 0

/-- `Boolean()`. -/
def toBoolean : Json → Bool
  | boolean b => b
  | _ => false

/-- `String()`. -/
def toText : Json → String
  | string s => s
  | _ => ""

/-- `Object()`. -/
def toFields : Json → List (String × Json)
  | object fields => fields
  | _ => []

/-- `Array()`. -/
def toElements : Json → List Json
  | array elements => elements
  | _ => []

/-- A quoted string. -/
def quote (s : String) : List Char :=
  '"' :: s.toList.flatMap (fun c => if c = '"' ∨ c = '\\' then ['\\', c] else [c]) ++ ['"']

mutual

/-- The text of a value. -/
def print : Json → List Char
  | null => "null".toList
  | boolean true => "true".toList
  | boolean false => "false".toList
  | number n => (toString n).toList
  | string s => quote s
  | array elements => '[' :: printElements elements ++ [']']
  | object fields => '{' :: printFields fields ++ ['}']

/-- The texts of the elements of an array, separated by commas. -/
def printElements : List Json → List Char
  | [] => []
  | [v] => v.print
  | v :: rest => v.print ++ ',' :: printElements rest

/-- The labels and values of an object, separated by commas. -/
def printFields : List (String × Json) → List Char
  | [] => []
  | [(l, v)] => quote l ++ ':' :: v.print
  | (l, v) :: rest => quote l ++ ':' :: v.print ++ ',' :: printFields rest

end

/-- The rest of a quoted string. -/
def readQuoted : List Char → Option (List Char × List Char)
  | [] => none
  | '"' :: cs => some ([], cs)
  | '\\' :: c :: cs => (readQuoted cs).map fun r => (c :: r.1, r.2)
  | c :: cs => (readQuoted cs).map fun r => (c :: r.1, r.2)

/-- A number in decimal. -/
def readNumber (cs : List Char) : Option (Json × List Char) :=
  let digits := fun cs : List Char =>
    (cs.takeWhile Char.isDigit).foldl (fun n c => n * 10 + (c.toNat - '0'.toNat)) 0
  match cs with
  | '-' :: cs => some (number (Int64.ofInt (-(digits cs : ℕ))), cs.dropWhile Char.isDigit)
  | cs => some (number (Int64.ofInt (digits cs : ℕ)), cs.dropWhile Char.isDigit)

mutual

/-- A value, from nested brackets no deeper than the fuel. -/
def readValue : ℕ → List Char → Option (Json × List Char)
  | 0, _ => none
  | _ + 1, 'n' :: 'u' :: 'l' :: 'l' :: cs => some (null, cs)
  | _ + 1, 't' :: 'r' :: 'u' :: 'e' :: cs => some (boolean true, cs)
  | _ + 1, 'f' :: 'a' :: 'l' :: 's' :: 'e' :: cs => some (boolean false, cs)
  | _ + 1, '"' :: cs => (readQuoted cs).map fun r => (string (String.ofList r.1), r.2)
  | _ + 1, '[' :: ']' :: cs => some (array [], cs)
  | n + 1, '[' :: cs => (readElements n cs).map fun r => (array r.1, r.2)
  | _ + 1, '{' :: '}' :: cs => some (object [], cs)
  | n + 1, '{' :: cs => (readFields n cs).map fun r => (object r.1, r.2)
  | _ + 1, cs => readNumber cs

/-- The elements of an array that is not empty, up to its end. -/
def readElements : ℕ → List Char → Option (List Json × List Char)
  | 0, _ => none
  | n + 1, cs => do
    let (v, cs) ← readValue n cs
    match cs with
    | ',' :: cs => do
      let (vs, cs) ← readElements n cs
      return (v :: vs, cs)
    | ']' :: cs => return ([v], cs)
    | _ => none

/-- The labels and values of an object that is not empty, up to its end. -/
def readFields : ℕ → List Char → Option (List (String × Json) × List Char)
  | 0, _ => none
  | n + 1, cs => do
    let '"' :: cs := cs | none
    let (l, cs) ← readQuoted cs
    let ':' :: cs := cs | none
    let (v, cs) ← readValue n cs
    match cs with
    | ',' :: cs => do
      let (fields, cs) ← readFields n cs
      return ((String.ofList l, v) :: fields, cs)
    | '}' :: cs => return ([(String.ofList l, v)], cs)
    | _ => none

end

/-- The object a text stands for; a text that is no object gives no labels. -/
def readObject (text : String) : List (String × Json) :=
  match readValue text.length text.toList with
  | some (v, _) => v.toFields
  | none => []

mutual

/-- Equality of values, decided. -/
def same : Json → Json → Bool
  | null, null => true
  | boolean a, boolean b => a == b
  | number a, number b => a == b
  | string a, string b => a == b
  | array as, array bs => sameElements as bs
  | object as, object bs => sameFields as bs
  | _, _ => false

/-- Equality of lists of elements. -/
def sameElements : List Json → List Json → Bool
  | [], [] => true
  | a :: as, b :: bs => same a b && sameElements as bs
  | _, _ => false

/-- Equality of lists of fields. -/
def sameFields : List (String × Json) → List (String × Json) → Bool
  | [], [] => true
  | (l, a) :: as, (k, b) :: bs => l == k && same a b && sameFields as bs
  | _, _ => false

end

mutual

theorem eq_of_same : ∀ {a b : Json}, same a b = true → a = b
  | null, null, _ => rfl
  | boolean _, boolean _, h => congrArg boolean (eq_of_beq h)
  | number _, number _, h => congrArg number (eq_of_beq h)
  | string _, string _, h => congrArg string (eq_of_beq h)
  | array _, array _, h => congrArg array (eq_of_sameElements h)
  | object _, object _, h => congrArg object (eq_of_sameFields h)

theorem eq_of_sameElements : ∀ {as bs : List Json}, sameElements as bs = true → as = bs
  | [], [], _ => rfl
  | _ :: _, _ :: _, h => by
    obtain ⟨hhead, htail⟩ := Bool.and_eq_true_iff.mp h
    rw [eq_of_same hhead, eq_of_sameElements htail]

theorem eq_of_sameFields : ∀ {as bs : List (String × Json)}, sameFields as bs = true → as = bs
  | [], [], _ => rfl
  | (_, _) :: _, (_, _) :: _, h => by
    obtain ⟨hhead, htail⟩ := Bool.and_eq_true_iff.mp h
    obtain ⟨hlabel, hvalue⟩ := Bool.and_eq_true_iff.mp hhead
    rw [eq_of_beq hlabel, eq_of_same hvalue, eq_of_sameFields htail]

end

end Json

/-- The plain library. -/
def treeJson : JsonLib where
  Object := List (String × Json)
  Variant := Json
  Arr := List Json
  emptyObject := []
  hasLabel fields label := fields.any fun field => field.1 = label
  get fields label := Json.getField label fields
  set fields label value := Json.setField label value fields
  toString fields := String.ofList (Json.object fields).print
  fromString := Json.readObject
  emptyArr := []
  add elements value := elements ++ [value]
  elements := id
  length elements := UInt16.ofNat elements.length
  index elements i := elements.getD i.toNat .null
  ofUint32 n := .number n.toUInt64.toInt64
  ofBool := .boolean
  ofString := .string
  ofArray := .array
  number := Json.toNumber
  boolean := Json.toBoolean
  string := Json.toText
  object := Json.toFields
  array := Json.toElements

namespace Json

theorem any_setField (label : String) (value : Json) (fields : List (String × Json))
    (label' : String) :
    ((setField label value fields).any fun field => field.1 = label') =
      (decide (label' = label) || fields.any fun field => field.1 = label') := by
  induction fields with
  | nil => simp [setField, eq_comm]
  | cons field rest ih =>
    obtain ⟨l, v⟩ := field
    by_cases hl : l = label
    · subst hl
      by_cases hl' : l = label'
      · simp [setField, hl']
      · simp [setField, eq_comm]
    · rw [setField, if_neg hl, List.any_cons, List.any_cons, ih, Bool.or_left_comm]

theorem getField_setField (label : String) (value : Json) (fields : List (String × Json))
    (label' : String) :
    getField label' (setField label value fields) =
      if label' = label then value else getField label' fields := by
  induction fields with
  | nil =>
    by_cases hl : label = label'
    · simp [setField, getField, hl]
    · simp [setField, getField, hl, Ne.symm hl]
  | cons field rest ih =>
    obtain ⟨l, v⟩ := field
    unfold getField at ih ⊢
    by_cases hl : l = label
    · subst hl
      by_cases hl' : l = label'
      · simp [setField, hl']
      · simp [setField, hl', Ne.symm hl']
    · by_cases hl' : l = label'
      · simp [setField, hl', show ¬ label' = label from hl' ▸ hl]
      · rw [setField, if_neg hl, List.find?_cons_of_neg (by simpa using hl'), ih,
          List.find?_cons_of_neg (by simpa using hl')]

/-- A label that is not there reads as `null`. -/
theorem getField_of_not_any {label : String} {fields : List (String × Json)}
    (h : (fields.any fun field => field.1 = label) = false) : getField label fields = null := by
  rw [getField, List.find?_eq_none.mpr (by simpa using h)]
  rfl

end Json

theorem treeJson_lawful : treeJson.Lawful where
  hasLabel_emptyObject _ := rfl
  hasLabel_set fields label value label' := Json.any_setField label value fields label'
  get_set fields label value label' := Json.getField_setField label value fields label'
  number_ofUint32 _ := rfl
  boolean_ofBool _ := rfl
  string_ofString _ := rfl
  elements_ofArray _ := rfl
  elements_emptyArr := rfl
  elements_add _ _ := rfl

theorem treeJson_indexed : treeJson.Indexed where
  length _ := rfl
  index (elements : List Json) i h := by
    have hi : i.toNat < elements.length := h
    show elements[i.toNat]? = some (elements.getD i.toNat .null)
    rw [List.getD_eq_getElem?_getD, List.getElem?_eq_getElem hi, Option.getD_some]

end RemoteControl
