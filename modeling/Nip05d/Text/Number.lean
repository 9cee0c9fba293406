import Nip05d.Text.Chars
import Mathlib.Data.Int.Basic

/-!
# Machine integers and decimal text

`u64` and `i64` values are naturals and integers; the casts between them and
the arithmetic that can leave the range wrap modulo `2 ^ 64`, as a release
build does. The parsers accept an optional sign and ASCII digits, and refuse
values out of range.
-/

namespace Text

/-- An integer as an `i64`: the representative of its class modulo `2 ^ 64`. -/
def wrapI64 (x : Int) : Int := Int.bmod x (2 ^ 64)

/-- A `u64` as an `i64`. -/
def u64AsI64 (n : Nat) : Int := wrapI64 n

/-- A `u64` of the chain as an `i64`. -/
def heightAsI64 (n : UInt64) : Int := u64AsI64 n.toNat

/-- An integer as a `u64`. -/
def wrapU64 (x : Int) : Nat := (x % 2 ^ 64).toNat

/-- The range of an `i64`. -/
def InI64 (x : Int) : Prop := -2 ^ 63 ≤ x ∧ x < 2 ^ 63

instance (x : Int) : Decidable (InI64 x) := inferInstanceAs (Decidable (_ ∧ _))

theorem wrapI64_of_range {x : Int} (h : InI64 x) : wrapI64 x = x := by
  unfold wrapI64 InI64 at *
  rw [Int.bmod_def]
  omega

theorem wrapI64_range (x : Int) : InI64 (wrapI64 x) := by
  unfold wrapI64 InI64
  rw [Int.bmod_def]
  omega

theorem u64AsI64_range (n : Nat) : InI64 (u64AsI64 n) := wrapI64_range _

/-- A height that is not negative as an `i64` is kept. -/
theorem heightAsI64_of_nonneg {n : UInt64} (h : 0 ≤ heightAsI64 n) : heightAsI64 n = n.toNat := by
  have bound := n.toNat_lt
  unfold heightAsI64 u64AsI64 wrapI64 at *
  rw [Int.bmod_def] at *
  omega

/-- A wrapped value differs by a multiple of `2 ^ 64`. -/
theorem wrapI64_eq (x : Int) : ∃ k, wrapI64 x = x + 2 ^ 64 * k := by
  unfold wrapI64
  rw [Int.bmod_def]
  split
  · exact ⟨-(x / 2 ^ 64), by omega⟩
  · exact ⟨-(x / 2 ^ 64) - 1, by omega⟩

/-- An `i64` that is not negative is kept as a `u64`. -/
theorem wrapU64_of_nonneg {x : Int} (nonneg : 0 ≤ x) (range : InI64 x) : (wrapU64 x : Int) = x := by
  unfold wrapU64 InI64 at *
  omega

/-- A `u64` is kept as an `i64` exactly below half of its range. -/
theorem u64AsI64_eq {n : Nat} (range : n < 2 ^ 64) : u64AsI64 n = n ↔ n < 2 ^ 63 := by
  unfold u64AsI64 wrapI64
  rw [Int.bmod_def]
  omega

/-- A nonempty string of ASCII digits as a number. -/
def parseDigits (cs : List Char) : Option Nat :=
  if cs ≠ [] ∧ cs.all Char.isDigit then
    some (cs.foldl (fun n c => 10 * n + (c.toNat - 48)) 0)
  else none

/-- A decimal number with an optional plus sign. -/
def parseUnsigned : List Char → Option Nat
  | '+' :: rest => parseDigits rest
  | cs => parseDigits cs

/-- A decimal number with an optional sign. -/
def parseSigned : List Char → Option Int
  | '-' :: rest => (parseDigits rest).map fun n => -Int.ofNat n
  | cs => (parseUnsigned cs).map Int.ofNat

/-- The value of a decimal `u64`. -/
def parseU64 (s : String) : Option Nat := (parseUnsigned (chars s)).filter (· < 2 ^ 64)

/-- The value of a decimal `i64`. -/
def parseI64 (s : String) : Option Int := (parseSigned (chars s)).filter (InI64 ·)

theorem parseU64_lt {s : String} {n : Nat} (h : parseU64 s = some n) : n < 2 ^ 64 := by
  simpa using (Option.filter_eq_some_iff.1 h).2

end Text
