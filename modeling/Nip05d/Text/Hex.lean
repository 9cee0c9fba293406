import Nip05d.Text.Case

/-!
# Hexadecimal text

Encoding writes two lower-case digits a byte. Decoding accepts exactly the
even-length strings of ASCII hexadecimal digits, in either letter case, so a
byte string has one lower-case spelling (`decode_lower`).
-/

namespace Text.Hex

/-- The value of an ASCII hexadecimal digit. -/
def digitVal (c : Char) : Option Nat :=
  if c.isDigit then some (c.toNat - 48)
  else if 'a' ≤ c ∧ c ≤ 'f' then some (c.toNat - 87)
  else if 'A' ≤ c ∧ c ≤ 'F' then some (c.toNat - 55)
  else none

/-- The lower-case digit of a value below 16. -/
def digit (n : Nat) : Char := Char.ofNat (if n < 10 then n + 48 else n + 87)

def encodeChars : List UInt8 → List Char
  | [] => []
  | b :: rest => digit (b.toNat / 16) :: digit (b.toNat % 16) :: encodeChars rest

def decodeChars : List Char → Option (List UInt8)
  | [] => some []
  | [_] => none
  | c :: d :: rest => do
    let high ← digitVal c
    let low ← digitVal d
    let bytes ← decodeChars rest
    return UInt8.ofNat (16 * high + low) :: bytes

/-- Bytes as lower-case hexadecimal text. -/
def encode (bytes : List UInt8) : String := String.ofList (encodeChars bytes)

/-- The bytes of a hexadecimal text. -/
def decode (s : String) : Option (List UInt8) := decodeChars (chars s)

theorem digitVal_cases {c : Char} {n : Nat} (h : digitVal c = some n) :
    (48 ≤ c.toNat ∧ c.toNat ≤ 57 ∧ n = c.toNat - 48) ∨
    (97 ≤ c.toNat ∧ c.toNat ≤ 102 ∧ n = c.toNat - 87) ∨
    (65 ≤ c.toNat ∧ c.toNat ≤ 70 ∧ n = c.toNat - 55) := by
  unfold digitVal at h
  split at h
  · rename_i digit
    simp only [Char.isDigit, Bool.and_eq_true, decide_eq_true_eq] at digit
    exact .inl ⟨digit.1, digit.2, (Option.some.inj h).symm⟩
  · split at h
    · rename_i lower
      exact .inr (.inl ⟨lower.1, lower.2, (Option.some.inj h).symm⟩)
    · split at h
      · rename_i upper
        exact .inr (.inr ⟨upper.1, upper.2, (Option.some.inj h).symm⟩)
      · cases h

theorem digitVal_lt {c : Char} {n : Nat} (h : digitVal c = some n) : n < 16 := by
  rcases digitVal_cases h with ⟨_, _, _⟩ | ⟨_, _, _⟩ | ⟨_, _, _⟩ <;> omega

theorem digitVal_ascii {c : Char} {n : Nat} (h : digitVal c = some n) : c.toNat < 128 := by
  rcases digitVal_cases h with ⟨_, _, _⟩ | ⟨_, _, _⟩ | ⟨_, _, _⟩ <;> omega

/-- The digit of a value is the lower case of any digit with that value. -/
theorem digit_digitVal {c : Char} {n : Nat} (h : digitVal c = some n) : digit n = c.toLower := by
  have char_eq : ∀ m, c.toLower.toNat = m → Char.ofNat m = c.toLower := by
    rintro _ rfl
    exact Char.ofNat_toNat _
  unfold digit
  symm
  rcases digitVal_cases h with ⟨low, high, rfl⟩ | ⟨low, high, rfl⟩ | ⟨low, high, rfl⟩
  · have plain : c.isUpper = false := isUpper_eq_false.2 (by omega)
    rw [if_pos (by omega), show c.toNat - 48 + 48 = c.toNat by omega]
    exact (char_eq _ (by rw [toLower_of_not_upper plain])).symm
  · have plain : c.isUpper = false := isUpper_eq_false.2 (by omega)
    rw [if_neg (by omega), show c.toNat - 87 + 87 = c.toNat by omega]
    exact (char_eq _ (by rw [toLower_of_not_upper plain])).symm
  · have upper : c.isUpper = true := isUpper_iff.2 (by omega)
    rw [if_neg (by omega)]
    exact (char_eq _ (by rw [toLower_toNat upper]; omega)).symm

theorem digitVal_digit {n : Nat} (small : n < 16) : digitVal (digit n) = some n := by
  have table : ∀ m : Fin 16, digitVal (digit m) = some m.val := by decide
  exact table ⟨n, small⟩

/-- Decoding undoes encoding. -/
theorem decodeChars_encodeChars (bytes : List UInt8) :
    decodeChars (encodeChars bytes) = some bytes := by
  induction bytes with
  | nil => rfl
  | cons b rest ih =>
    have bound := b.toNat_lt
    have whole : 16 * (b.toNat / 16) + b.toNat % 16 = b.toNat := by omega
    simp only [encodeChars, decodeChars, ih, digitVal_digit (show b.toNat / 16 < 16 by omega),
      digitVal_digit (show b.toNat % 16 < 16 by omega), Option.bind_eq_bind, Option.bind_some, whole,
      UInt8.ofNat_toNat, Option.pure_def]

theorem encode_inj {a b : List UInt8} : encode a = encode b ↔ a = b := by
  constructor
  · intro same
    have chars_ : encodeChars a = encodeChars b := by
      rw [← chars_ofList (encodeChars a), ← chars_ofList (encodeChars b)]
      exact congrArg chars same
    exact Option.some.inj ((decodeChars_encodeChars a).symm.trans
      (chars_ ▸ decodeChars_encodeChars b))
  · rintro rfl
    rfl

/-- Decoded text is the encoding of its bytes, up to letter case. -/
theorem decodeChars_lower : ∀ {cs : List Char} {bytes : List UInt8},
    decodeChars cs = some bytes → cs.map Char.toLower = encodeChars bytes
  | [], bytes, h => by cases h; rfl
  | [_], bytes, h => by cases h
  | c :: d :: rest, bytes, h => by
    simp only [decodeChars, Option.bind_eq_bind, Option.bind_eq_some_iff, Option.pure_def,
      Option.some.injEq] at h
    obtain ⟨high, hc, low, hd, more, tail, rfl⟩ := h
    have hi := digitVal_lt hc
    have lo := digitVal_lt hd
    have value : (UInt8.ofNat (16 * high + low)).toNat = 16 * high + low := by
      rw [UInt8.toNat_ofNat']
      exact Nat.mod_eq_of_lt (by omega)
    rw [encodeChars, value, show (16 * high + low) / 16 = high by omega,
      show (16 * high + low) % 16 = low by omega, digit_digitVal hc, digit_digitVal hd,
      ← decodeChars_lower tail]
    rfl

theorem decodeChars_ascii : ∀ {cs : List Char} {bytes : List UInt8},
    decodeChars cs = some bytes → ∀ c ∈ cs, c.toNat < 128
  | [], _, _ => by nofun
  | [_], _, h => by cases h
  | c :: d :: rest, bytes, h => by
    simp only [decodeChars, Option.bind_eq_bind, Option.bind_eq_some_iff] at h
    obtain ⟨high, hc, low, hd, more, tail, -⟩ := h
    intro e member
    rcases List.mem_cons.1 member with rfl | member
    · exact digitVal_ascii hc
    · rcases List.mem_cons.1 member with rfl | member
      · exact digitVal_ascii hd
      · exact decodeChars_ascii tail e member

/-- **Canonical spelling.** Lower-casing hexadecimal text gives the encoding of
the bytes it stands for. -/
theorem decode_lower {u : CaseData} {s : String} {bytes : List UInt8}
    (h : decode s = some bytes) : toLowercase u s = encode bytes := by
  apply chars_inj.1
  rw [toLowercase_of_ascii (decodeChars_ascii h), decodeChars_lower h, encode,
    chars_ofList]

/-- Text that is already lower case is the encoding of its bytes. -/
theorem decode_settled {u : CaseData} {s : String} {bytes : List UInt8}
    (settled : ∀ c ∈ chars s, Settled u c) (h : decode s = some bytes) : s = encode bytes := by
  apply chars_inj.1
  rw [encode, chars_ofList, ← decodeChars_lower h]
  have fixed : (chars s).map Char.toLower = (chars s).map id :=
    List.map_congr_left fun c member => toLower_of_not_upper (settled c member).not_upper
  rw [fixed, List.map_id]

end Text.Hex
