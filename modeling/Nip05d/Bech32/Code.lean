import Nip05d.Bech32.Bits
import Nip05d.Text.Case

/-!
# The bech32 code

A bech32 text is a human-readable prefix, the separator `1`, symbols of five
bits in the character set, and six symbols of checksum. Two checksum constants
are in use; `decode` reports which one matched. A text without capital letters
is the encoding of what it decodes to (`decode_eq_encode`): a difference
confined to the last six symbols shows unchanged in the checksum state
(`feed_xor`), so the checksum of a prefix and data is unique.
-/

namespace Bech32

/-- A five-bit symbol. -/
abbrev U5 := Fin 32

inductive Variant where
  | bech32
  | bech32m
  deriving DecidableEq, Repr

def Variant.constant : Variant → Nat
  | .bech32 => 1
  | .bech32m => 0x2bc830a3

/-! ## The checksum -/

def generators : List Nat := [0x3b6a57b2, 0x26508e6d, 0x1ea119fa, 0x3d4233dd, 0x2a1462b3]

/-- Add the generators of the set bits of `b`. -/
def addGenerators (b chk : Nat) : Nat :=
  generators.zipIdx.foldl (fun chk g => if (b >>> g.2) % 2 = 1 then chk ^^^ g.1 else chk) chk

/-- The checksum state after one more symbol. -/
def feed (chk v : Nat) : Nat :=
  addGenerators (chk >>> 25) (((chk &&& 0x1ffffff) <<< 5) ^^^ v)

def polymod (values : List Nat) : Nat := values.foldl feed 1

/-- The prefix as symbols: the high bits, zero, the low bits. -/
def hrpExpand (hrp : List Char) : List Nat :=
  hrp.map (fun c => c.toNat >>> 5) ++ [0] ++ hrp.map (fun c => c.toNat &&& 0x1f)

def verifyChecksum (hrp : List Char) (data : List U5) : Option Variant :=
  let chk := polymod (hrpExpand hrp ++ data.map Fin.val)
  if chk = Variant.bech32.constant then some .bech32
  else if chk = Variant.bech32m.constant then some .bech32m
  else none

/-! ## Text -/

def charset : List Char := Text.chars "qpzry9x8gf2tvdw0s3jn54khce6mua7l"

def symbol (v : U5) : Char := charset.get ⟨v.val, v.isLt⟩

/-- The symbol a character stands for, in either case. -/
def charVal (c : Char) : Option U5 := (List.finRange 32).find? fun v => symbol v == c.toLower

/-- The letter case of a text so far. -/
inductive LetterCase where
  | upper
  | lower
  | none
  deriving DecidableEq, Repr

def checkHrp (hrp : List Char) : Option LetterCase :=
  if hrp ≠ [] ∧ hrp.length ≤ 83 ∧ hrp.all (fun c => 33 ≤ c.toNat && c.toNat ≤ 126) then
    match hrp.any Char.isUpper, hrp.any Char.isLower with
    | true, true => Option.none
    | true, false => some .upper
    | false, true => some .lower
    | false, false => some .none
  else Option.none

/-- The case of a text after one more character; `none` when cases mix. -/
def LetterCase.join (k : LetterCase) (c : Char) : Option LetterCase :=
  if c.isLower then if k = .upper then Option.none else some .lower
  else if c.isUpper then if k = .lower then Option.none else some .upper
  else some k

def decodeData : LetterCase → List Char → Option (List U5)
  | _, [] => some []
  | k, c :: rest => do
    let k ← k.join c
    let v ← charVal c
    let vs ← decodeData k rest
    return v :: vs

/-- Split at the last separator. -/
def splitLast (s : List Char) : Option (List Char × List Char) :=
  match s.reverse.dropWhile (· != '1') with
  | [] => none
  | _ :: front => some (front.reverse, (s.reverse.takeWhile (· != '1')).reverse)

/-- The prefix in lower case, the data without its checksum, and the variant. -/
def decode (s : String) : Option (String × List U5 × Variant) := do
  let (rawHrp, rawData) ← splitLast (Text.chars s)
  let k ← checkHrp rawHrp
  let hrp := if k = .upper then rawHrp.map Char.toLower else rawHrp
  let data ← decodeData k rawData
  if data.length < 6 then none
  else do
    let variant ← verifyChecksum hrp data
    return (String.ofList hrp, data.take (data.length - 6), variant)

/-- Symbols as bytes; left-over bits must be fewer than five and zero. -/
def fromBase32 (data : List U5) : Option (List UInt8) :=
  (convertBits (data.map Fin.val) 5 8 false).map (List.map UInt8.ofNat)

/-- Bytes as symbols; the last one is filled up with zero bits. -/
def toBase32 (bytes : List UInt8) : List U5 :=
  ((convertBits (bytes.map UInt8.toNat) 8 5 true).getD []).map (Fin.ofNat 32)

/-- The six checksum symbols of a checksum state. -/
def checksumOf (plm : Nat) : List U5 :=
  (List.range 6).map fun p => Fin.ofNat 32 (plm >>> (5 * (5 - p)))

def createChecksum (hrp : List Char) (data : List U5) (variant : Variant) : List U5 :=
  checksumOf
    (polymod (hrpExpand hrp ++ data.map Fin.val ++ List.replicate 6 0) ^^^ variant.constant)

/-- The text of a prefix and data. -/
def encode (hrp : String) (data : List U5) (variant : Variant) : String :=
  String.ofList
    (Text.chars hrp ++ '1' :: (data ++ createChecksum (Text.chars hrp) data variant).map symbol)

/-! ## Linearity of the checksum -/

theorem addGenerators_xor (b c d : Nat) :
    addGenerators b (c ^^^ d) = addGenerators b c ^^^ d := by
  unfold addGenerators
  generalize generators.zipIdx = gens
  induction gens generalizing c with
  | nil => rfl
  | cons g gens ih =>
    simp only [List.foldl_cons]
    split
    · rw [Nat.xor_assoc, Nat.xor_comm d, ← Nat.xor_assoc]; exact ih _
    · exact ih _

/-- A difference below the top symbol moves up by one symbol, and the
difference of the symbols fed joins it. -/
theorem feed_xor (x : Nat) {d : Nat} (low : d < 2 ^ 25) (v w : Nat) :
    feed (x ^^^ d) (v ^^^ w) = feed x v ^^^ (d <<< 5 ^^^ w) := by
  have high : (x ^^^ d) >>> 25 = x >>> 25 := by
    rw [Nat.shiftRight_xor_distrib, Nat.shiftRight_eq_div_pow d, Nat.div_eq_of_lt low,
      Nat.xor_zero]
  have kept : (x ^^^ d) &&& 0x1ffffff = (x &&& 0x1ffffff) ^^^ d := by
    have mask : 0x1ffffff = 2 ^ 25 - 1 := rfl
    rw [mask, Nat.and_two_pow_sub_one_eq_mod, Nat.and_two_pow_sub_one_eq_mod,
      Nat.xor_mod_two_pow, Nat.mod_eq_of_lt low]
  unfold feed
  rw [high, kept, Nat.shiftLeft_xor_distrib, ← addGenerators_xor]
  congr 1
  ac_rfl

/-- The number that symbols of five bits stand for. -/
theorem value_lt (vs : List U5) : value 5 (vs.map Fin.val) < 2 ^ (5 * vs.length) := by
  induction vs using List.reverseRecOn with
  | nil => simp [value]
  | append_singleton vs v ih =>
    have digit := v.isLt
    rw [List.map_append, List.map_singleton, value_snoc, List.length_append,
      List.length_singleton, Nat.mul_add, Nat.pow_add]
    have : (value 5 (vs.map Fin.val) + 1) * 2 ^ 5 ≤ 2 ^ (5 * vs.length) * 2 ^ 5 :=
      Nat.mul_le_mul_right _ ih
    omega

/-- **Superposition.** Up to six symbols show in the state as their value,
beside the state that as many zeros give. -/
theorem feed_symbols (x : Nat) (vs : List U5) (few : vs.length ≤ 6) :
    (vs.map Fin.val).foldl feed x =
      (List.replicate vs.length 0).foldl feed x ^^^ value 5 (vs.map Fin.val) := by
  induction vs using List.reverseRecOn with
  | nil => simp [value]
  | append_singleton vs v ih =>
    rw [List.length_append, List.length_singleton] at few
    have low : value 5 (vs.map Fin.val) < 2 ^ 25 :=
      Nat.lt_of_lt_of_le (value_lt vs) (Nat.pow_le_pow_right (by decide) (by omega))
    have digit : v.val < 2 ^ 5 := v.isLt
    rw [List.map_append, List.map_singleton, List.foldl_append, ih (by omega), List.length_append,
      List.length_singleton, List.replicate_add, List.foldl_append, value_snoc]
    simp only [List.foldl_cons, List.foldl_nil, List.replicate_one]
    have := feed_xor ((List.replicate vs.length 0).foldl feed x) low 0 v.val
    rw [Nat.zero_xor] at this
    rw [this, ← Nat.shiftLeft_eq, Nat.shiftLeft_add_eq_or_of_lt digit]
    congr 1
    apply Nat.eq_of_testBit_eq
    intro i
    simp only [Nat.testBit_xor, Nat.testBit_or, Nat.testBit_shiftLeft]
    by_cases h : 5 ≤ i
    · rw [Nat.testBit_lt_two_pow (Nat.lt_of_lt_of_le digit (Nat.pow_le_pow_right (by decide) h))]
      simp
    · simp [h]

/-- Six symbols are the checksum of their value. -/
theorem checksumOf_value (vs : List U5) (six : vs.length = 6) :
    checksumOf (value 5 (vs.map Fin.val)) = vs := by
  match vs, six with
  | [a, b, c, d, e, f], _ =>
    have ha := a.isLt
    have hb := b.isLt
    have hc := c.isLt
    have hd := d.isLt
    have he := e.isLt
    have hf := f.isLt
    simp only [checksumOf, value, List.range_succ_eq_map, List.range_zero, List.map_cons,
      List.map_nil, List.foldl_cons, List.foldl_nil, Nat.shiftRight_eq_div_pow, Fin.ofNat,
      List.cons.injEq, Fin.ext_iff, Nat.succ_eq_add_one, Nat.reduceAdd, Nat.reduceSub,
      Nat.reduceMul, Nat.reducePow]
    refine ⟨?_, ?_, ?_, ?_, ?_, ?_, trivial⟩ <;> omega

/-- **The checksum is unique.** -/
theorem verifyChecksum_eq {hrp : List Char} {data : List U5} {variant : Variant}
    (long : 6 ≤ data.length) (verified : verifyChecksum hrp data = some variant) :
    data = data.take (data.length - 6) ++
      createChecksum hrp (data.take (data.length - 6)) variant := by
  have constant : polymod (hrpExpand hrp ++ data.map Fin.val) = variant.constant := by
    simp only [verifyChecksum] at verified
    split at verified
    · cases verified; assumption
    · split at verified
      · cases verified; assumption
      · cases verified
  generalize front : data.take (data.length - 6) = body
  obtain ⟨sum, split, six⟩ : ∃ sum, data = body ++ sum ∧ sum.length = 6 :=
    ⟨data.drop (data.length - 6), by rw [← front, List.take_append_drop], by simp; omega⟩
  rw [split]
  congr 1
  rw [split, List.map_append, ← List.append_assoc, polymod, List.foldl_append,
    feed_symbols _ _ (by omega), six, ← List.foldl_append] at constant
  rw [createChecksum, polymod, ← constant, ← Nat.xor_assoc, Nat.xor_self, Nat.zero_xor,
    checksumOf_value sum six]

/-! ## Decoding and encoding -/

/-- Symbols are determined by the bytes they stand for. -/
theorem fromBase32_inj {a b : List U5} {bytes : List UInt8} (ha : fromBase32 a = some bytes)
    (hb : fromBase32 b = some bytes) : a = b := by
  simp only [fromBase32, Option.map_eq_some_iff] at ha hb
  obtain ⟨outA, convertedA, rfl⟩ := ha
  obtain ⟨outB, convertedB, same⟩ := hb
  have exact_ : outB = outA := by
    have back : ∀ out : List Nat, (∀ d ∈ out, d < 2 ^ 8) →
        (out.map UInt8.ofNat).map UInt8.toNat = out := by
      intro out digits
      rw [List.map_map]
      refine (List.map_congr_left fun d member => ?_).trans (List.map_id out)
      rw [Function.comp_apply, UInt8.toNat_ofNat', Nat.mod_eq_of_lt (digits d member), id]
    rw [← back outB (convertBits_digits convertedB), same, back outA (convertBits_digits convertedA)]
  rw [exact_] at convertedB
  have values := convertBits_inj (by decide) (by decide) convertedA convertedB
  exact List.map_injective_iff.2 (fun _ _ => Fin.ext) values

theorem charVal_symbol {c : Char} {v : U5} (plain : c.isUpper = false)
    (found : charVal c = some v) : symbol v = c := by
  have hit := List.find?_some found
  rw [Text.toLower_of_not_upper plain] at hit
  simpa using hit

theorem decodeData_symbols {k : LetterCase} {cs : List Char} {vs : List U5}
    (plain : ∀ c ∈ cs, c.isUpper = false) (decoded : decodeData k cs = some vs) :
    vs.map symbol = cs := by
  induction cs generalizing k vs with
  | nil => cases decoded; rfl
  | cons c rest ih =>
    simp only [decodeData, Option.bind_eq_bind, Option.bind_eq_some_iff, Option.pure_def,
      Option.some.injEq] at decoded
    obtain ⟨k', -, v, here, more, there, rfl⟩ := decoded
    rw [List.map_cons, charVal_symbol (plain c List.mem_cons_self) here,
      ih (fun d member => plain d (List.mem_cons_of_mem _ member)) there]

theorem splitLast_eq {s front back : List Char} (h : splitLast s = some (front, back)) :
    s = front ++ '1' :: back := by
  unfold splitLast at h
  split at h
  · cases h
  · rename_i c rest found
    cases h
    have one : c = '1' := by
      have miss := List.head?_dropWhile_not (· != '1') s.reverse
      rw [found] at miss
      simpa using miss
    have all : s.reverse.takeWhile (· != '1') ++ s.reverse.dropWhile (· != '1') = s.reverse :=
      List.takeWhile_append_dropWhile
    rw [found, one] at all
    have := congrArg List.reverse all
    simpa using this.symm

/-- **Canonical text.** A text without capital letters is the encoding of what
it decodes to. -/
theorem decode_eq_encode {s hrp : String} {data : List U5} {variant : Variant}
    (plain : ∀ c ∈ Text.chars s, c.isUpper = false) (decoded : decode s = some (hrp, data, variant)) :
    s = encode hrp data variant := by
  simp only [decode, Option.bind_eq_bind, Option.bind_eq_some_iff] at decoded
  obtain ⟨⟨rawHrp, rawData⟩, split, k, checked, all, symbols, rest⟩ := decoded
  dsimp only at checked symbols rest
  split at rest
  · cases rest
  · rename_i long
    simp only [Option.bind_eq_some_iff, Option.pure_def, Option.some.injEq, Prod.mk.injEq] at rest
    obtain ⟨variant', verified, same, body, rfl⟩ := rest
    have shape := splitLast_eq split
    have notUpper : k ≠ .upper := by
      rintro rfl
      have none_ : rawHrp.any Char.isUpper = false := by
        rw [List.any_eq_false]
        intro c member
        rw [plain c (by rw [shape]; exact List.mem_append_left _ member)]
        exact Bool.false_ne_true
      simp only [checkHrp, none_] at checked
      split at checked <;> [split at checked; skip] <;> simp_all
    rw [if_neg notUpper] at same verified
    have letters := decodeData_symbols
      (fun c member => plain c (by rw [shape]; simp [member])) symbols
    have sum := verifyChecksum_eq (Nat.not_lt.1 long) verified
    rw [body] at sum
    apply Text.chars_inj.1
    rw [encode, Text.chars_ofList, ← same, Text.chars_ofList, ← sum, letters, shape]

/-! ## Decoding undoes encoding -/

/-- **Bytes come back.** -/
theorem fromBase32_toBase32 (bytes : List UInt8) : fromBase32 (toBase32 bytes) = some bytes := by
  have small : ∀ v ∈ bytes.map UInt8.toNat, v < 2 ^ 8 := by
    intro v member
    obtain ⟨b, -, rfl⟩ := List.mem_map.1 member
    exact b.toNat_lt
  have five : 0 < 5 := by decide
  obtain ⟨out, pad, converted, few, length, same, digits⟩ :=
    convertBits_pad five (by decide) small
  have symbols : (toBase32 bytes).map Fin.val = out := by
    rw [toBase32, converted, Option.getD_some, List.map_map]
    refine (List.map_congr_left fun d member => ?_).trans (List.map_id out)
    exact Nat.mod_eq_of_lt (digits d member)
  rw [fromBase32, symbols,
    convertBits_back (by decide) (by decide) digits small few (by omega) length same,
    Option.map_some, List.map_map]
  refine congrArg some ((List.map_congr_left fun b _ => ?_).trans (List.map_id bytes))
  exact UInt8.ofNat_toNat

theorem addGenerators_lt (b : Nat) {chk : Nat} (low : chk < 2 ^ 30) :
    addGenerators b chk < 2 ^ 30 := by
  have gens : ∀ g ∈ generators.zipIdx, g.1 < 2 ^ 30 := by decide
  unfold addGenerators
  generalize generators.zipIdx = list at gens
  induction list generalizing chk with
  | nil => exact low
  | cons g list ih =>
    rw [List.foldl_cons]
    refine ih ?_ fun g' member => gens g' (List.mem_cons_of_mem _ member)
    split
    · exact Nat.xor_lt_two_pow low (gens g List.mem_cons_self)
    · exact low

/-- The checksum state has thirty bits. -/
theorem feed_lt (chk : Nat) {v : Nat} (digit : v < 32) : feed chk v < 2 ^ 30 := by
  refine addGenerators_lt _ (Nat.xor_lt_two_pow ?_ (Nat.lt_trans digit (by decide)))
  have masked : chk &&& 0x1ffffff < 2 ^ 25 := Nat.lt_of_le_of_lt Nat.and_le_right (by decide)
  rw [Nat.shiftLeft_eq]
  omega

theorem polymod_lt {values : List Nat} (digits : ∀ v ∈ values, v < 32) :
    polymod values < 2 ^ 30 := by
  induction values using List.reverseRecOn with
  | nil => decide
  | append_singleton values v _ =>
    rw [polymod, List.foldl_append]
    exact feed_lt _ (digits v (by simp))

theorem value_checksumOf {x : Nat} (low : x < 2 ^ 30) :
    value 5 ((checksumOf x).map Fin.val) = x := by
  simp only [checksumOf, value, List.range_succ_eq_map, List.range_zero, List.map_cons,
    List.map_nil, List.foldl_cons, List.foldl_nil, Nat.shiftRight_eq_div_pow, Fin.ofNat,
    Nat.succ_eq_add_one, Nat.reduceAdd, Nat.reduceSub, Nat.reduceMul, Nat.reducePow]
  omega

/-- The symbols of an ASCII prefix. -/
theorem hrpExpand_lt {hrp : List Char} (ascii : ∀ c ∈ hrp, c.toNat < 128) :
    ∀ v ∈ hrpExpand hrp, v < 32 := by
  intro v member
  simp only [hrpExpand, List.mem_append, List.mem_map, List.mem_singleton] at member
  obtain (⟨c, there, rfl⟩ | rfl) | ⟨c, -, rfl⟩ := member
  · have low := ascii c there
    rw [Nat.shiftRight_eq_div_pow]
    omega
  · decide
  · exact Nat.lt_of_le_of_lt Nat.and_le_right (by decide)

/-- The checksum that is created is the one that is verified. -/
theorem verifyChecksum_create {hrp : List Char} (ascii : ∀ c ∈ hrp, c.toNat < 128)
    (data : List U5) (variant : Variant) :
    verifyChecksum hrp (data ++ createChecksum hrp data variant) = some variant := by
  have constant : variant.constant < 2 ^ 30 := by cases variant <;> decide
  have state : polymod (hrpExpand hrp ++ data.map Fin.val ++ List.replicate 6 0) < 2 ^ 30 := by
    refine polymod_lt fun v member => ?_
    simp only [List.mem_append, List.mem_map, List.mem_replicate] at member
    obtain (prefix_ | ⟨d, -, rfl⟩) | ⟨-, rfl⟩ := member
    · exact hrpExpand_lt ascii v prefix_
    · exact d.isLt
    · decide
  have sum : polymod (hrpExpand hrp ++ (data ++ createChecksum hrp data variant).map Fin.val) =
      variant.constant := by
    have six : (createChecksum hrp data variant).length = 6 := by simp [createChecksum, checksumOf]
    rw [List.map_append, ← List.append_assoc, polymod, List.foldl_append,
      feed_symbols _ _ (by omega), six, ← List.foldl_append, ← polymod, createChecksum,
      value_checksumOf (Nat.xor_lt_two_pow state constant), ← Nat.xor_assoc, Nat.xor_self,
      Nat.zero_xor]
  simp only [verifyChecksum, sum]
  cases variant <;> decide

theorem charVal_of_symbol (v : U5) : charVal (symbol v) = some v := by
  revert v
  decide

theorem symbol_plain (v : U5) : (symbol v).isUpper = false ∧ symbol v ≠ '1' := by
  revert v
  decide

theorem LetterCase.join_plain {k : LetterCase} {c : Char} (lower : k ≠ .upper)
    (plain : c.isUpper = false) : ∃ k', k.join c = some k' ∧ k' ≠ .upper := by
  unfold join
  by_cases small : c.isLower = true
  · rw [if_pos small, if_neg lower]
    exact ⟨.lower, rfl, nofun⟩
  · rw [if_neg small, if_neg (by rw [plain]; exact Bool.false_ne_true)]
    exact ⟨k, rfl, lower⟩

theorem decodeData_of_symbols {k : LetterCase} (lower : k ≠ .upper) (vs : List U5) :
    decodeData k (vs.map symbol) = some vs := by
  induction vs generalizing k with
  | nil => rfl
  | cons v vs ih =>
    obtain ⟨k', joined, lower'⟩ := LetterCase.join_plain lower (symbol_plain v).1
    rw [List.map_cons, decodeData, joined]
    simp [charVal_of_symbol, ih lower']

theorem splitLast_of_plain {front back : List Char} (plain : '1' ∉ back) :
    splitLast (front ++ '1' :: back) = some (front, back) := by
  have other : ∀ c ∈ back.reverse, (c != '1') = true := by
    intro c member
    rw [bne_iff_ne]
    rintro rfl
    exact plain (List.mem_reverse.1 member)
  have reversed : (front ++ '1' :: back).reverse = back.reverse ++ '1' :: front.reverse := by simp
  rw [splitLast, reversed, List.dropWhile_append_of_pos other, List.takeWhile_append_of_pos other]
  simp

theorem checkHrp_ascii {hrp : List Char} {k : LetterCase} (checked : checkHrp hrp = some k) :
    ∀ c ∈ hrp, c.toNat < 128 := by
  unfold checkHrp at checked
  split at checked
  · rename_i valid
    intro c member
    have range := List.all_eq_true.1 valid.2.2 c member
    rw [Bool.and_eq_true, decide_eq_true_eq, decide_eq_true_eq] at range
    omega
  · cases checked

/-- **Round trip.** Decoding undoes encoding for prefixes without capital letters. -/
theorem decode_encode {hrp : String} {k : LetterCase} (checked : checkHrp (Text.chars hrp) = some k)
    (lower : k ≠ .upper) (data : List U5) (variant : Variant) :
    decode (encode hrp data variant) = some (hrp, data, variant) := by
  have six : (createChecksum (Text.chars hrp) data variant).length = 6 := by
    simp [createChecksum, checksumOf]
  have separator : '1' ∉ (data ++ createChecksum (Text.chars hrp) data variant).map symbol := by
    intro member
    obtain ⟨v, -, same⟩ := List.mem_map.1 member
    exact (symbol_plain v).2 same
  rw [decode, encode, Text.chars_ofList, splitLast_of_plain separator]
  simp only [Option.bind_eq_bind, Option.bind_some, checked, if_neg lower,
    decodeData_of_symbols lower, List.length_append, six, Nat.add_sub_cancel]
  rw [if_neg (by omega), verifyChecksum_create (checkHrp_ascii checked)]
  simp

end Bech32
