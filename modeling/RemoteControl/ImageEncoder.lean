import RemoteControl.Base64

/-!
# The image encoder

`imageEncoder` appends the base64 encoding of an array of bytes to a string. It goes
through the bytes one by one; its state is how many bytes of the group it has seen, and
which of their bits are not written yet.

* `imageEncoder` — the loop, and what is written after it.
* `writes_group` — three rounds write one group.
* `imageEncoder_encodes` — the text it appends is the encoding, and can be decoded.
-/

namespace RemoteControl

/-- `base64_chars`. -/
def base64_chars : List Char :=
  "ABCDEFGHIJKLMNOPQRSTUVWXYZabcdefghijklmnopqrstuvwxyz0123456789+/".toList

/-- The variables of `imageEncoder` that its loop changes, without the index. -/
structure ImageEncoder where
  state : UInt8
  lastStuff : UInt8
  result : String
  deriving DecidableEq

namespace ImageEncoder

/-- The body of the loop on `object[index]`; `none` is a read out of `base64_chars`. -/
def round (e : ImageEncoder) (byte : UInt8) : Option ImageEncoder :=
  if e.state = 0 then do
    let c ← base64_chars[((byte &&& 0xFC) >>> 2).toNat]?
    return ⟨1, (byte &&& 0x03) <<< 4, e.result.push c⟩
  else if e.state = 1 then do
    let c ← base64_chars[(((byte &&& 0xF0) >>> 4) ||| e.lastStuff).toNat]?
    return ⟨2, (byte &&& 0x0F) <<< 2, e.result.push c⟩
  else if e.state = 2 then do
    let c ← base64_chars[(((byte &&& 0xC0) >>> 6) ||| e.lastStuff).toNat]?
    let d ← base64_chars[(byte &&& 0x3F).toNat]?
    return ⟨0, e.lastStuff, (e.result.push c).push d⟩
  else return e

/-- An index that is in bounds can be counted up. -/
theorem toNat_succ {index length : UInt32} (h : index < length) :
    (index + 1).toNat = index.toNat + 1 := by
  have hlt := UInt32.lt_iff_toNat_lt.mp h
  have hbound := length.toNat_lt
  rw [UInt32.toNat_add, UInt32.toNat_one, Nat.mod_eq_of_lt (by omega)]

/-- The loop from `index` on; `none` is also a read out of `object`. -/
def loop (object : List UInt8) (length index : UInt32) (e : ImageEncoder) : Option ImageEncoder :=
  if h : index < length then do
    let byte ← object[index.toNat]?
    let e ← e.round byte
    loop object length (index + 1) e
  else return e
termination_by length.toNat - index.toNat
decreasing_by
  have hlt := UInt32.lt_iff_toNat_lt.mp h
  rw [toNat_succ h]
  omega

/-- What is written after the loop. -/
def finish (e : ImageEncoder) (padding : Bool) : Option String :=
  if e.state ≠ 0 then do
    let c ← base64_chars[e.lastStuff.toNat]?
    let result := e.result.push c
    if padding then
      if e.state = 1 then return result ++ "==" else return result ++ "="
    else return result
  else return e.result

end ImageEncoder

/-- `imageEncoder`: what it leaves in `result`. -/
def imageEncoder (object : List UInt8) (length : UInt32) (padding : Bool) (result : String) :
    Option String := do
  let e ← ImageEncoder.loop object length 0 ⟨0, 0, result⟩
  e.finish padding

namespace ImageEncoder

open Base64

/-! ## The loop -/

/-- The loop goes through the bytes that are left, one round each. -/
theorem loop_eq_foldlM {object : List UInt8} {length index : UInt32} {e : ImageEncoder}
    (h : length.toNat = object.length) :
    loop object length index e = (object.drop index.toNat).foldlM round e := by
  fun_induction loop object length index e with
  | case1 index e hlt ih =>
    have hin : index.toNat < object.length := by
      rw [← h]
      exact UInt32.lt_iff_toNat_lt.mp hlt
    rw [List.drop_eq_getElem_cons hin, List.foldlM_cons, List.getElem?_eq_getElem hin,
      Option.bind_eq_bind, Option.bind_some]
    congr 1
    funext e'
    rw [ih, toNat_succ hlt]
  | case2 index e hge =>
    have hout : object.length ≤ index.toNat := by
      rw [← h]
      exact UInt32.not_lt.mp hge
    rw [List.drop_eq_nil_of_le hout, List.foldlM_nil]

/-! ## The bits -/

/-- What holds of every octet is checked on all of them. -/
theorem forall_octet {p : UInt8 → Prop} (h : ∀ n < 256, p (UInt8.ofNat n)) (b : UInt8) : p b := by
  have hb := h b.toNat b.toNat_lt
  rwa [UInt8.ofNat_toNat] at hb

theorem high_six : ∀ b : UInt8, ((b &&& 0xFC) >>> 2).toNat = b.toNat / 4 :=
  forall_octet (by decide +kernel)

theorem high_four : ∀ b : UInt8, ((b &&& 0xF0) >>> 4).toNat = b.toNat / 16 :=
  forall_octet (by decide +kernel)

theorem high_two : ∀ b : UInt8, ((b &&& 0xC0) >>> 6).toNat = b.toNat / 64 :=
  forall_octet (by decide +kernel)

theorem low_two : ∀ b : UInt8, ((b &&& 0x03) <<< 4).toNat = 2 ^ 4 * (b.toNat % 4) :=
  forall_octet (by decide +kernel)

theorem low_four : ∀ b : UInt8, ((b &&& 0x0F) <<< 2).toNat = 2 ^ 2 * (b.toNat % 16) :=
  forall_octet (by decide +kernel)

theorem low_six : ∀ b : UInt8, (b &&& 0x3F).toNat = b.toNat % 64 :=
  forall_octet (by decide +kernel)

section

variable (a b c : UInt8)

theorem first_digit :
    ((a &&& 0xFC) >>> 2).toNat = Fin.ofNat 64 (group a b c / 2 ^ 18) := by
  have hb := b.toNat_lt
  have hc := c.toNat_lt
  have ha := a.toNat_lt
  rw [high_six]
  simp only [group, Fin.ofNat]
  omega

/-- The bits left of one octet and those of the next do not overlap. -/
theorem second_digit : (((b &&& 0xF0) >>> 4) ||| ((a &&& 0x03) <<< 4)).toNat =
    Fin.ofNat 64 (group a b c / 2 ^ 12) := by
  have hb := b.toNat_lt
  have hc := c.toNat_lt
  have hlow : b.toNat / 16 < 2 ^ 4 := by omega
  rw [UInt8.toNat_or, high_four, low_two, Nat.or_comm, ← Nat.two_pow_add_eq_or_of_lt hlow]
  simp only [group, Fin.ofNat]
  omega

theorem third_digit : (((c &&& 0xC0) >>> 6) ||| ((b &&& 0x0F) <<< 2)).toNat =
    Fin.ofNat 64 (group a b c / 2 ^ 6) := by
  have hc := c.toNat_lt
  have hlow : c.toNat / 64 < 2 ^ 2 := by omega
  rw [UInt8.toNat_or, high_two, low_four, Nat.or_comm, ← Nat.two_pow_add_eq_or_of_lt hlow]
  simp only [group, Fin.ofNat]
  omega

theorem fourth_digit : (c &&& 0x3F).toNat = Fin.ofNat 64 (group a b c) := by
  rw [low_six]
  simp only [group, Fin.ofNat]
  omega

end

/-- A read of `base64_chars` at a digit is the character of the digit. -/
theorem base64_chars_get {n : ℕ} {d : Fin 64} (h : n = d) : base64_chars[n]? = some (char d) := by
  rw [h]
  exact List.getElem?_eq_getElem (d.cast length_alphabet.symm).isLt

/-! ## The rounds -/

/-- The first round of a group keeps two bits. -/
theorem round_first (a b c : UInt8) (last : UInt8) (result : String) :
    round ⟨0, last, result⟩ a = some ⟨1, (a &&& 0x03) <<< 4,
      result.push (char (Fin.ofNat 64 (group a b c / 2 ^ 18)))⟩ := by
  simp only [round, if_true, base64_chars_get (first_digit a b c)]
  rfl

/-- The second one writes them, and keeps four. -/
theorem round_second (a b c : UInt8) (result : String) :
    round ⟨1, (a &&& 0x03) <<< 4, result⟩ b = some ⟨2, (b &&& 0x0F) <<< 2,
      result.push (char (Fin.ofNat 64 (group a b c / 2 ^ 12)))⟩ := by
  simp only [round, show (1 : UInt8) ≠ 0 by decide, if_false, if_true,
    base64_chars_get (second_digit a b c)]
  rfl

/-- The third one writes all there is. -/
theorem round_third (a b c : UInt8) (result : String) :
    round ⟨2, (b &&& 0x0F) <<< 2, result⟩ c = some ⟨0, (b &&& 0x0F) <<< 2,
      (result.push (char (Fin.ofNat 64 (group a b c / 2 ^ 6)))).push
        (char (Fin.ofNat 64 (group a b c)))⟩ := by
  simp only [round, show (2 : UInt8) ≠ 0 by decide, show (2 : UInt8) ≠ 1 by decide, if_false,
    if_true, base64_chars_get (third_digit a b c), base64_chars_get (fourth_digit a b c)]
  rfl

/-- Three rounds write one group, and begin the next. -/
theorem writes_group (a b c : UInt8) (rest : List UInt8) (last : UInt8) (result : String) :
    (a :: b :: c :: rest).foldlM round ⟨0, last, result⟩ = rest.foldlM round
      ⟨0, (b &&& 0x0F) <<< 2, result ++ String.ofList ((sextets (group a b c)).map char)⟩ := by
  have htext : result ++ String.ofList ((sextets (group a b c)).map char) =
      (((result.push (char (Fin.ofNat 64 (group a b c / 2 ^ 18)))).push
        (char (Fin.ofNat 64 (group a b c / 2 ^ 12)))).push
          (char (Fin.ofNat 64 (group a b c / 2 ^ 6)))).push
            (char (Fin.ofNat 64 (group a b c))) := by
    rw [← String.toList_inj]
    simp [sextets]
  simp only [List.foldlM_cons, round_first a b c, round_second a b c, round_third a b c,
    Option.bind_eq_bind, Option.bind_some, htext]

/-- The rounds on all bytes and what is written after them append the encoding. -/
theorem finish_foldlM (bytes : List UInt8) (padding : Bool) (last : UInt8) (result : String) :
    ((bytes.foldlM round ⟨0, last, result⟩).bind fun e => e.finish padding) =
      some (result ++ String.ofList (encode padding bytes)) := by
  induction bytes using digits.induct generalizing last result with
  | case1 =>
    have hnil : encode padding [] = [] := by cases padding <;> rfl
    rw [hnil, String.ofList_nil, String.append_empty]
    rfl
  | case2 a =>
    -- the bits left over are the digit whose other bits are zero
    have hdigit : ((a &&& 0x03) <<< 4).toNat = Fin.ofNat 64 (group a 0 0 / 2 ^ 12) := by
      rw [← second_digit a 0 0, UInt8.zero_and, UInt8.zero_shiftRight, UInt8.zero_or]
    rw [List.foldlM_cons, round_first a 0 0, Option.bind_eq_bind, Option.bind_some,
      List.foldlM_nil]
    simp only [pure, Option.bind_some, finish, base64_chars_get hdigit]
    cases padding <;> simp [← String.toList_inj, encode, digits, sextets, pads, pad]
  | case3 a b =>
    have hdigit : ((b &&& 0x0F) <<< 2).toNat = Fin.ofNat 64 (group a b 0 / 2 ^ 6) := by
      rw [← third_digit a b 0, UInt8.zero_and, UInt8.zero_shiftRight, UInt8.zero_or]
    rw [List.foldlM_cons, round_first a b 0, Option.bind_eq_bind, Option.bind_some,
      List.foldlM_cons, round_second a b 0, Option.bind_eq_bind, Option.bind_some,
      List.foldlM_nil]
    simp only [pure, Option.bind_some, finish, base64_chars_get hdigit]
    cases padding <;> simp [← String.toList_inj, encode, digits, sextets, pads, pad]
  | case4 a b c rest ih =>
    rw [writes_group, ih, String.append_assoc, ← String.ofList_append, encode_cons₃]

theorem imageEncoder_eq {object : List UInt8} {length : UInt32}
    (hlength : length.toNat = object.length) (padding : Bool) (result : String) :
    imageEncoder object length padding result =
      some (result ++ String.ofList (encode padding object)) := by
  rw [imageEncoder, loop_eq_foldlM hlength, UInt32.toNat_zero, List.drop_zero]
  exact finish_foldlM object padding 0 result

end ImageEncoder

open Base64 ImageEncoder

/-- What `imageEncoder` appends is the base64 encoding of the bytes: it reads within its
arrays, and the text can be decoded, is padded if it should be, and is the text of no other
bytes. -/
theorem imageEncoder_encodes (object : List UInt8) (length : UInt32)
    (hlength : length.toNat = object.length) (padding : Bool) (result : String) :
    imageEncoder object length padding result =
        some (result ++ String.ofList (encode padding object)) ∧
      decode (encode padding object) = some object ∧
      (encode padding object).count '=' =
        (if padding then (3 - object.length % 3) % 3 else 0) ∧
      (padding → (encode padding object).length = 4 * (object.length ⌈/⌉ 3)) ∧
      ∀ object' length' padding', length'.toNat = object'.length → object' ≠ object →
        imageEncoder object' length' padding' result ≠
          imageEncoder object length padding result := by
  refine ⟨imageEncoder_eq hlength padding result, decode_encode padding object,
    count_pad_encode padding object, ?_, ?_⟩
  · rintro rfl
    exact length_encode object
  · intro object' length' padding' hlength' hne heq
    rw [imageEncoder_eq hlength, imageEncoder_eq hlength', Option.some_inj,
      ← String.toList_inj, String.toList_append, String.toList_append, String.toList_ofList,
      String.toList_ofList] at heq
    exact hne (encode_injective (List.append_cancel_left heq))

/-- Two bytes, which leave out one digit. -/
theorem imageEncoder_encodes_two :
    imageEncoder [0x4D, 0x61] 2 true "data:" = some "data:TWE=" ∧
      decode ['T', 'W', 'E', '='] = some [0x4D, 0x61] := by
  obtain ⟨hresult, hdecode, -⟩ := imageEncoder_encodes [0x4D, 0x61] 2 rfl true "data:"
  have htext : encode true [0x4D, 0x61] = ['T', 'W', 'E', '='] := by decide
  rw [htext] at hresult hdecode
  exact ⟨hresult, hdecode⟩

end RemoteControl
