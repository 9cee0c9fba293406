import Nip05d.Text.Hex

/-!
# Names and public keys

Validity of names and keys, the reserved list, and the folding of look-alikes
onto reserved terms.
-/

namespace Nip05d.Names

open Text

/-- Built-in reserved names. -/
def reserved : List String :=
  ["admin", "administrator", "root", "support", "help", "info", "mail", "email", "www", "relay",
   "nostr", "pay", "payment", "payments", "wallet", "official", "security", "abuse", "postmaster",
   "hostmaster", "webmaster", "contact", "team", "staff", "mod", "moderator", "moderators",
   "system", "bot", "api", "app", "dev", "developer", "test", "testing", "anonymous", "anon",
   "null", "void", "owner", "ceo", "register", "registration", "account", "accounts", "verify",
   "verified", "billing", "donate", "treasury", "faucet", "exchange", "swap", "bank", "money",
   "cash", "fees", "fee", "node", "miner", "mining", "explorer", "status", "blog", "news", "docs",
   "wiki", "store", "shop"]

def isAsciiLowercase (c : Char) : Bool := 'a' ≤ c && c ≤ 'z'

def isAsciiDigit (c : Char) : Bool := '0' ≤ c && c ≤ '9'

def isAsciiHexdigit (c : Char) : Bool :=
  isAsciiDigit c || ('a' ≤ c && c ≤ 'f') || ('A' ≤ c && c ≤ 'F')

def okChar (c : Char) : Bool :=
  isAsciiLowercase c || isAsciiDigit c || c == '.' || c == '_' || c == '-'

/-- Length bounds and character rules of a name: lower-case letters, digits and
`. _ -`, with a letter or digit at both ends. -/
def validName (name : String) (nameMin nameMax : Nat) : Bool :=
  let cs := chars name
  if nameMin ≤ cs.length && cs.length ≤ nameMax then
    if cs.all okChar then
      match cs.head?, cs.getLast? with
      | some first, some last =>
        (isAsciiLowercase first || isAsciiDigit first) &&
          (isAsciiLowercase last || isAsciiDigit last)
      -- the source indexes an empty slice here; a configuration with
      -- `nameMin = 0` is refused at startup
      | _, _ => false
    else false
  else false

/-- What a character folds to; `none` for a separator. -/
def foldChar : Char → Option Char
  | '.' => none
  | '_' => none
  | '-' => none
  | '0' => some 'o'
  | '1' => some 'i'
  | '3' => some 'e'
  | '4' => some 'a'
  | '5' => some 's'
  | '7' => some 't'
  | '8' => some 'b'
  | '9' => some 'g'
  | c => some c

/-- A name with separators dropped and digits read as letters. -/
def foldLookalike (name : String) : String := String.ofList ((chars name).filterMap foldChar)

/-- A name is reserved outright or folds onto a reserved term. -/
def isReserved (name : String) (extra : List String) : Bool :=
  if reserved.contains name || extra.any (· == name) then true
  else
    let folded := foldLookalike name
    reserved.any (foldLookalike · == folded) || extra.any (foldLookalike · == folded)

/-- The labels of a domain that nobody may register: all but the last, or the
only one. -/
def domainReserved (u : CaseData) (domain : String) : List String :=
  let labels := (((chars (trimEndMatches (trim domain) '.')).splitOn '.').filter (· ≠ [])).map
    String.ofList
  let keep := if 1 < labels.length then labels.dropLast else labels
  keep.map (toLowercase u)

/-- Sixty-four lower-case hexadecimal digits. -/
def validPubkeyHex (pk : String) : Bool :=
  pk.utf8ByteSize == 64 && (chars pk).all fun c => isAsciiHexdigit c && !c.isUpper

/-! ## What a valid key is -/

def LowerHexdigit (c : Char) : Prop := ('0' ≤ c ∧ c ≤ '9') ∨ ('a' ≤ c ∧ c ≤ 'f')

/-- Sixty-four characters, each a lower-case hexadecimal digit. -/
def LowerHex64 (pk : String) : Prop := (chars pk).length = 64 ∧ ∀ c ∈ chars pk, LowerHexdigit c

theorem lowerHexdigit_iff (c : Char) :
    (isAsciiHexdigit c && !c.isUpper) = true ↔ LowerHexdigit c := by
  have range : ∀ low high : Char, (low ≤ c ∧ c ≤ high) ↔ low.toNat ≤ c.toNat ∧ c.toNat ≤ high.toNat :=
    fun low high => Iff.rfl
  rw [Bool.and_eq_true, Bool.not_eq_true', isUpper_eq_false]
  simp only [isAsciiHexdigit, isAsciiDigit, LowerHexdigit, Bool.or_eq_true, Bool.and_eq_true,
    decide_eq_true_eq, range]
  have codes : '0'.toNat = 48 ∧ '9'.toNat = 57 ∧ 'a'.toNat = 97 ∧ 'f'.toNat = 102 ∧
      'A'.toNat = 65 ∧ 'F'.toNat = 70 := by decide
  omega

/-- The check of a key counts bytes; in a valid key these are its characters. -/
theorem validPubkeyHex_iff (pk : String) : validPubkeyHex pk = true ↔ LowerHex64 pk := by
  simp only [validPubkeyHex, Bool.and_eq_true (_ == _), beq_iff_eq, List.all_eq_true, lowerHexdigit_iff]
  refine and_congr_left fun digits => ?_
  rw [utf8ByteSize_of_ascii fun c member => ?_]
  rcases digits c member with ⟨-, high⟩ | ⟨-, high⟩
  · exact Nat.lt_of_le_of_lt high (by decide)
  · exact Nat.lt_of_le_of_lt high (by decide)

theorem lowerHexdigit_digit {n : Nat} (small : n < 16) : LowerHexdigit (Hex.digit n) := by
  have table : ∀ m : Fin 16, ('0' ≤ Hex.digit m ∧ Hex.digit m ≤ '9') ∨
      ('a' ≤ Hex.digit m ∧ Hex.digit m ≤ 'f') := by decide
  exact table ⟨n, small⟩

/-- The text of thirty-two bytes is a valid key. -/
theorem lowerHex64_encode {bytes : List UInt8} (length : bytes.length = 32) :
    LowerHex64 (Hex.encode bytes) := by
  have spelled : ∀ bs : List UInt8, (Hex.encodeChars bs).length = 2 * bs.length ∧
      ∀ c ∈ Hex.encodeChars bs, LowerHexdigit c := by
    intro bs
    induction bs with
    | nil => exact ⟨rfl, nofun⟩
    | cons b rest ih =>
      have byte := b.toNat_lt
      rw [Hex.encodeChars, List.length_cons, List.length_cons, List.length_cons, ih.1]
      refine ⟨by omega, List.forall_mem_cons.2 ⟨lowerHexdigit_digit (by omega), ?_⟩⟩
      exact List.forall_mem_cons.2 ⟨lowerHexdigit_digit (by omega), ih.2⟩
  rw [LowerHex64, Hex.encode, chars_ofList, (spelled bytes).1, length]
  exact ⟨rfl, (spelled bytes).2⟩

end Nip05d.Names
