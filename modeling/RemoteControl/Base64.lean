import Mathlib.Data.List.TakeWhile
import Mathlib.Algebra.Order.Floor.Div
import Mathlib.Tactic.Common

/-!
# Base64

The encoding of RFC 4648, section 4: a group of three octets is a number of 24 bits,
read as four digits of six bits, and each digit is a character of the alphabet. A group
at the end that is short of octets is filled up with zero bits and leaves out the
digits that none of its octets reaches; padding says how many were left out.

* `encode`, `decode` — the encoding with and without padding, and one decoder for both.
* `decode_encode` — decoding gives the octets back.
* `length_encode` — with padding there are four characters for each group.
-/

namespace Base64

/-! ## Digits -/

/-- The number of 24 bits that three octets are. -/
def group (a b c : UInt8) : ℕ := a.toNat * 2 ^ 16 + b.toNat * 2 ^ 8 + c.toNat

/-- Its four digits of six bits. -/
def sextets (v : ℕ) : List (Fin 64) :=
  [Fin.ofNat 64 (v / 2 ^ 18), Fin.ofNat 64 (v / 2 ^ 12), Fin.ofNat 64 (v / 2 ^ 6), Fin.ofNat 64 v]

/-- Its three octets. -/
def octets (v : ℕ) : List UInt8 :=
  [UInt8.ofNat (v / 2 ^ 16), UInt8.ofNat (v / 2 ^ 8), UInt8.ofNat v]

/-- The digits of octets, group by group. -/
def digits : List UInt8 → List (Fin 64)
  | [] => []
  | [a] => (sextets (group a 0 0)).take 2
  | [a, b] => (sextets (group a b 0)).take 3
  | a :: b :: c :: rest => sextets (group a b c) ++ digits rest

/-- The number of 24 bits that four digits are. -/
def ungroup (x y z w : Fin 64) : ℕ := x * 2 ^ 18 + y * 2 ^ 12 + z * 2 ^ 6 + w

/-- The octets of digits; one digit alone is no octet. -/
def undigits : List (Fin 64) → Option (List UInt8)
  | [] => some []
  | [_] => none
  | [x, y] => some ((octets (ungroup x y 0 0)).take 1)
  | [x, y, z] => some ((octets (ungroup x y z 0)).take 2)
  | x :: y :: z :: w :: rest => (undigits rest).map (octets (ungroup x y z w) ++ ·)

theorem octets_group (a b c : UInt8) : octets (group a b c) = [a, b, c] := by
  have ha := a.toNat_lt
  have hb := b.toNat_lt
  have hc := c.toNat_lt
  simp only [octets, group, List.cons.injEq, and_true, ← UInt8.toNat_inj, UInt8.toNat_ofNat']
  omega

theorem group_lt (a b c : UInt8) : group a b c < 2 ^ 24 := by
  have ha := a.toNat_lt
  have hb := b.toNat_lt
  have hc := c.toNat_lt
  simp only [group]
  omega

/-- The digits of a number of 24 bits determine it. -/
theorem ungroup_sextets {v : ℕ} (hv : v < 2 ^ 24) :
    ungroup (Fin.ofNat 64 (v / 2 ^ 18)) (Fin.ofNat 64 (v / 2 ^ 12)) (Fin.ofNat 64 (v / 2 ^ 6))
      (Fin.ofNat 64 v) = v := by
  simp only [ungroup, Fin.ofNat]
  omega

/-- The digits left out are zero. -/
theorem ofNat_eq_zero {v : ℕ} (h : 64 ∣ v) : Fin.ofNat 64 v = 0 := by
  simp only [Fin.ofNat, Fin.ext_iff, Fin.val_zero]
  omega

/-- Octets are given back by their digits. -/
theorem undigits_digits (bytes : List UInt8) : undigits (digits bytes) = some bytes := by
  induction bytes using digits.induct with
  | case1 => rfl
  | case2 a =>
    have hgroup := ungroup_sextets (group_lt a 0 0)
    have hthird : Fin.ofNat 64 (group a 0 0 / 2 ^ 6) = 0 := ofNat_eq_zero (by simp [group]; omega)
    have hfourth : Fin.ofNat 64 (group a 0 0) = 0 := ofNat_eq_zero (by simp [group]; omega)
    rw [hthird, hfourth] at hgroup
    simp only [digits, sextets, List.take, undigits, hgroup, octets_group]
  | case3 a b =>
    have hgroup := ungroup_sextets (group_lt a b 0)
    have hfourth : Fin.ofNat 64 (group a b 0) = 0 := ofNat_eq_zero (by simp [group]; omega)
    rw [hfourth] at hgroup
    simp only [digits, sextets, List.take, undigits, hgroup, octets_group]
  | case4 a b c rest ih =>
    have hgroup := ungroup_sextets (group_lt a b c)
    simp only [digits, sextets, List.cons_append, List.nil_append, undigits, hgroup, octets_group,
      ih, Option.map_some]

theorem length_digits (bytes : List UInt8) :
    (digits bytes).length + (3 - bytes.length % 3) % 3 = 4 * (bytes.length ⌈/⌉ 3) := by
  induction bytes using digits.induct with
  | case1 => rfl
  | case2 a => simp [digits, sextets, Nat.ceilDiv_eq_add_pred_div]
  | case3 a b => simp [digits, sextets, Nat.ceilDiv_eq_add_pred_div]
  | case4 a b c rest ih =>
    rw [Nat.ceilDiv_eq_add_pred_div] at ih ⊢
    simp only [digits, sextets, List.length_append, List.length_cons, List.length_nil]
    omega

/-! ## Characters -/

/-- The characters of the digits, in their order. -/
def alphabet : List Char :=
  "ABCDEFGHIJKLMNOPQRSTUVWXYZabcdefghijklmnopqrstuvwxyz0123456789+/".toList

theorem length_alphabet : alphabet.length = 64 := by decide

/-- The character of a digit. -/
def char (d : Fin 64) : Char := alphabet.get (d.cast length_alphabet.symm)

/-- The digit of a character of the alphabet. -/
def value (c : Char) : Option (Fin 64) := (List.finRange 64).find? (char · = c)

/-- The character of padding. -/
def pad : Char := '='

theorem value_char : ∀ d, value (char d) = some d := by decide +kernel

theorem char_ne_pad : ∀ d, char d ≠ pad := by decide +kernel

/-! ## Texts -/

/-- How many digits the last group leaves out. -/
def pads (bytes : List UInt8) : ℕ := (3 - bytes.length % 3) % 3

/-- The encoding of octets, with padding or without. -/
def encode (padding : Bool) (bytes : List UInt8) : List Char :=
  (digits bytes).map char ++ if padding then List.replicate (pads bytes) pad else []

/-- A group is encoded on its own. -/
theorem encode_cons₃ (padding : Bool) (a b c : UInt8) (rest : List UInt8) :
    encode padding (a :: b :: c :: rest) =
      (sextets (group a b c)).map char ++ encode padding rest := by
  have hpads : pads (a :: b :: c :: rest) = pads rest := by
    simp only [pads, List.length_cons, Nat.add_assoc, Nat.add_mod_right]
  rw [encode, encode, hpads, digits, List.map_append, List.append_assoc]

/-- Only padding may follow the digits. -/
def decode (text : List Char) : Option (List UInt8) :=
  if (text.dropWhile (· ≠ pad)).all (· = pad) then
    ((text.takeWhile (· ≠ pad)).mapM value).bind undigits
  else none

section

variable (padding : Bool) (bytes : List UInt8)

/-- What follows the digits. -/
theorem ending_eq_replicate :
    (if padding then List.replicate (pads bytes) pad else []) =
      List.replicate (if padding then pads bytes else 0) pad := by
  cases padding <;> rfl

theorem mapM_value (ds : List (Fin 64)) : (ds.map char).mapM value = some ds := by
  induction ds with
  | nil => rfl
  | cons d ds ih =>
    rw [List.map_cons, List.mapM_cons, value_char, ih]
    rfl

/-- Decoding gives back what was encoded, padding or not. -/
theorem decode_encode : decode (encode padding bytes) = some bytes := by
  have hchars : ∀ c ∈ (digits bytes).map char, decide (c ≠ pad) = true := by
    intro c hc
    obtain ⟨d, -, rfl⟩ := List.mem_map.mp hc
    exact decide_eq_true (char_ne_pad d)
  rw [decode, encode, ending_eq_replicate, List.takeWhile_append_of_pos hchars,
    List.dropWhile_append_of_pos hchars]
  generalize (if padding then pads bytes else 0) = n
  have htake : (List.replicate n pad).takeWhile (· ≠ pad) = [] := by
    cases n <;> simp [List.replicate_succ]
  have hdrop : (List.replicate n pad).dropWhile (· ≠ pad) = List.replicate n pad := by
    cases n <;> simp [List.replicate_succ]
  rw [htake, hdrop, List.append_nil, mapM_value, if_pos (by simp), Option.bind_some,
    undigits_digits]

/-- Different octets have different texts. -/
theorem encode_injective {padding padding' : Bool} {bytes bytes' : List UInt8}
    (h : encode padding bytes = encode padding' bytes') : bytes = bytes' := by
  have hdecode := decode_encode padding bytes
  rw [h, decode_encode] at hdecode
  exact (Option.some.inj hdecode).symm

/-- Padding is what the last group is short of, and is nowhere else. -/
theorem count_pad_encode :
    (encode padding bytes).count pad = if padding then pads bytes else 0 := by
  have hdigits : ((digits bytes).map char).count pad = 0 := by
    rw [List.count_eq_zero]
    intro hmem
    obtain ⟨d, -, hd⟩ := List.mem_map.mp hmem
    exact char_ne_pad d hd
  rw [encode, ending_eq_replicate, List.count_append, hdigits, List.count_replicate_self,
    Nat.zero_add]

/-- With padding, every group is four characters. -/
theorem length_encode : (encode true bytes).length = 4 * (bytes.length ⌈/⌉ 3) := by
  rw [encode, if_pos rfl, List.length_append, List.length_map, List.length_replicate, pads,
    length_digits]

example : encode true [0x66, 0x6F, 0x6F, 0x62] = "Zm9vYg==".toList := by decide

end

end Base64
