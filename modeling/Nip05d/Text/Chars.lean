import Mathlib.Algebra.Group.Int.Defs
import Mathlib.Algebra.Group.Nat.Defs
import Mathlib.Data.List.Basic

/-!
# The characters of a string

A string is kept as UTF-8 bytes, and the library's `String.toList` decodes them
by well-founded recursion, which does not evaluate well. `chars` decodes by
structural recursion on the bytes; the two agree (`chars_eq`).
-/

namespace Text

/-- The characters that UTF-8 bytes encode. -/
def fromUtf8 : List UInt8 → List Char
  | [] => []
  | b :: rest =>
    if b.toNat < 0x80 then Char.ofNat b.toNat :: fromUtf8 rest
    else if b.toNat < 0xE0 then
      match rest with
      | c :: rest => Char.ofNat ((b.toNat - 0xC0) * 0x40 + (c.toNat - 0x80)) :: fromUtf8 rest
      | _ => []
    else if b.toNat < 0xF0 then
      match rest with
      | c :: d :: rest =>
        Char.ofNat ((b.toNat - 0xE0) * 0x1000 + (c.toNat - 0x80) * 0x40 + (d.toNat - 0x80)) ::
          fromUtf8 rest
      | _ => []
    else
      match rest with
      | c :: d :: e :: rest =>
        Char.ofNat ((b.toNat - 0xF0) * 0x40000 + (c.toNat - 0x80) * 0x1000 +
          (d.toNat - 0x80) * 0x40 + (e.toNat - 0x80)) :: fromUtf8 rest
      | _ => []

/-- The characters of a string. -/
def chars (s : String) : List Char := fromUtf8 s.toUTF8.data.toList

/-- Decoding reads back one encoded character, by its number of bytes. -/
theorem fromUtf8_encode (c : Char) (rest : List UInt8) :
    fromUtf8 (String.utf8EncodeChar c ++ rest) = c :: fromUtf8 rest := by
  have scalar : c.val.toNat < 0x110000 := by
    have valid := c.valid
    simp only [UInt32.isValidChar, Nat.isValidChar] at valid
    omega
  have back : ∀ n, n = c.val.toNat → Char.ofNat n = c := by
    rintro n rfl
    exact Char.ofNat_toNat c
  have byte : ∀ n, n < 256 → (UInt8.ofNat n).toNat = n := fun n small => by
    rw [UInt8.toNat_ofNat']
    exact Nat.mod_eq_of_lt small
  unfold String.utf8EncodeChar
  simp only
  generalize c.val.toNat = v at scalar back
  split
  · rw [List.cons_append, List.nil_append, fromUtf8.eq_def]
    simp only [byte v (by omega)]
    rw [if_pos (by omega), back v rfl]
  · have tail : ∀ k, (UInt8.ofNat (k % 0x40 + 0x80)).toNat = k % 0x40 + 0x80 :=
      fun k => byte _ (by omega)
    split
    · simp only [List.cons_append, List.nil_append]
      rw [fromUtf8.eq_def]
      simp only [tail, byte _ (show v / 64 % 0x20 + 0xc0 < 256 by omega)]
      rw [if_neg (by omega), if_pos (by omega), back _ (by omega)]
    · split
      · simp only [List.cons_append, List.nil_append]
        rw [fromUtf8.eq_def]
        simp only [tail, byte _ (show v / 4096 % 0x10 + 0xe0 < 256 by omega)]
        rw [if_neg (by omega), if_neg (by omega), if_pos (by omega), back _ (by omega)]
      · simp only [List.cons_append, List.nil_append]
        rw [fromUtf8.eq_def]
        simp only [tail, byte _ (show v / 262144 % 0x08 + 0xf0 < 256 by omega)]
        rw [if_neg (by omega), if_neg (by omega), if_neg (by omega), back _ (by omega)]

@[simp] theorem chars_ofList (cs : List Char) : chars (String.ofList cs) = cs := by
  have bytes : (String.ofList cs).toUTF8.data.toList = cs.flatMap String.utf8EncodeChar := by
    simp [String.toUTF8, List.utf8Encode]
  rw [chars, bytes]
  induction cs with
  | nil => rfl
  | cons c cs ih => rw [List.flatMap_cons, fromUtf8_encode, ih (by simp [String.toUTF8, List.utf8Encode])]

theorem chars_eq (s : String) : chars s = s.toList := by
  have same := chars_ofList s.toList
  rwa [String.ofList_toList] at same

@[simp] theorem ofList_chars (s : String) : String.ofList (chars s) = s := by
  rw [chars_eq, String.ofList_toList]

theorem chars_append (s t : String) : chars (s ++ t) = chars s ++ chars t := by
  rw [chars_eq, chars_eq, chars_eq, String.toList_append]

theorem chars_inj {s t : String} : chars s = chars t ↔ s = t := by
  rw [chars_eq, chars_eq, String.toList_inj]

/-- ASCII text has as many bytes as characters. -/
theorem utf8ByteSize_of_ascii {s : String} (ascii : ∀ c ∈ chars s, c.toNat < 128) :
    s.utf8ByteSize = (chars s).length := by
  rw [← ofList_chars s, chars_ofList]
  generalize chars s = cs at ascii
  induction cs with
  | nil => rfl
  | cons c rest ih =>
    have one : c.utf8Size = 1 := by
      have low : c.toNat < 128 := ascii c List.mem_cons_self
      rw [Char.utf8Size, if_pos]
      exact UInt32.le_iff_toNat_le.2 (Nat.le_of_lt_succ low)
    rw [← List.singleton_append, String.ofList_append, String.utf8ByteSize_append,
      ih fun d member => ascii d (List.mem_cons_of_mem _ member), List.length_append]
    simp [one]

end Text
