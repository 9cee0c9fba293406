import Mathlib.Data.Nat.Bitwise
import Mathlib.Data.List.Induction

/-!
# Regrouping bits

`convertBits` reads digits of `source` bits and writes digits of `target` bits,
most significant first, through a 32-bit accumulator. Without padding the
left-over bits must be fewer than one digit read and all zero, so the digits
read can be recovered from the digits written (`convertBits_inj`).
-/

namespace Bech32

/-- The accumulator, the number of its low bits not yet written, and what has
been written. -/
structure Regroup where
  acc : Nat
  bits : Nat
  out : List Nat

/-- Write digits while there are enough bits for one. -/
def Regroup.drain (target : Nat) : Nat → Regroup → Regroup
  | 0, r => r
  | fuel + 1, r =>
    if target ≤ r.bits then
      drain target fuel
        { r with
          bits := r.bits - target
          out := r.out ++ [r.acc >>> (r.bits - target) % 2 ^ target] }
    else r

/-- Read one digit. -/
def Regroup.read (source target : Nat) (r : Regroup) (v : Nat) : Regroup :=
  Regroup.drain target (r.bits + source)
    { r with
      acc := (r.acc <<< source) % 2 ^ 32 ||| v
      bits := r.bits + source }

/-- Regroup digits of `source` bits into digits of `target` bits. -/
def convertBits (data : List Nat) (source target : Nat) (pad : Bool) : Option (List Nat) :=
  if data.all (· < 2 ^ source) then
    let r := data.foldl (Regroup.read source target) ⟨0, 0, []⟩
    let rest := (r.acc <<< (target - r.bits)) % 2 ^ target
    if pad then
      some (if 0 < r.bits then r.out ++ [rest] else r.out)
    else if source ≤ r.bits ∨ rest ≠ 0 then none
    else some r.out
  else none

/-- The number that digits of `w` bits stand for. -/
def value (w : Nat) (digits : List Nat) : Nat := digits.foldl (fun n d => n * 2 ^ w + d) 0

theorem value_snoc (w : Nat) (digits : List Nat) (d : Nat) :
    value w (digits ++ [d]) = value w digits * 2 ^ w + d := by
  simp [value]

/-- Digits are determined by their number and their value. -/
theorem value_inj {w : Nat} {a b : List Nat} (length : a.length = b.length)
    (ha : ∀ d ∈ a, d < 2 ^ w) (hb : ∀ d ∈ b, d < 2 ^ w) (same : value w a = value w b) :
    a = b := by
  induction a using List.reverseRecOn generalizing b with
  | nil => exact (List.length_eq_zero_iff.1 length.symm).symm
  | append_singleton a d ih =>
    obtain ⟨b, e, rfl⟩ : ∃ b' e, b = b' ++ [e] := by
      refine ⟨b.dropLast, b.getLast ?_, (List.dropLast_concat_getLast _).symm⟩
      rintro rfl
      simp at length
    simp only [value_snoc] at same
    have hd : d < 2 ^ w := ha d (by simp)
    have he : e < 2 ^ w := hb e (by simp)
    have last : d = e := by
      have h := congrArg (· % 2 ^ w) same
      simpa [Nat.mul_add_mod_of_lt, Nat.mod_eq_of_lt, hd, he] using h
    have front : value w a = value w b := by
      subst last
      exact Nat.eq_of_mul_eq_mul_right (Nat.two_pow_pos w) (Nat.add_right_cancel same)
    have h := ih (by simpa using length) (fun x m => ha x (by simp [m]))
      (fun x m => hb x (by simp [m])) front
    rw [h, last]

/-- The bits read so far are the digits written followed by the bits pending. -/
def Regroup.value (target : Nat) (r : Regroup) : Nat :=
  Bech32.value target r.out * 2 ^ r.bits + r.acc % 2 ^ r.bits

/-- Splitting off the high digit of the pending bits. -/
theorem mod_split (a b t : Nat) (h : t ≤ b) :
    a % 2 ^ b = a >>> (b - t) % 2 ^ t * 2 ^ (b - t) + a % 2 ^ (b - t) := by
  have pow : 2 ^ b = 2 ^ (b - t) * 2 ^ t := by rw [← Nat.pow_add]; congr 1; omega
  rw [Nat.shiftRight_eq_div_pow, pow, Nat.mod_mul, Nat.mul_comm (_ % _), Nat.add_comm]

/-- Writing digits keeps the value and the number of bits, and leaves fewer
bits than a digit. -/
theorem Regroup.drain_spec {target : Nat} (positive : 0 < target) (fuel : Nat) (r : Regroup)
    (enough : r.bits ≤ fuel) :
    (drain target fuel r).value target = r.value target ∧
    target * (drain target fuel r).out.length + (drain target fuel r).bits =
      target * r.out.length + r.bits ∧
    (drain target fuel r).bits < target ∧ (drain target fuel r).acc = r.acc := by
  induction fuel generalizing r with
  | zero => exact ⟨rfl, rfl, by simp only [drain]; omega, rfl⟩
  | succ fuel ih =>
    by_cases full : target ≤ r.bits
    · rw [drain, if_pos full]
      obtain ⟨value, length, bound, acc⟩ := ih
        { r with
          bits := r.bits - target
          out := r.out ++ [r.acc >>> (r.bits - target) % 2 ^ target] }
        (by simp only; omega)
      have pow : 2 ^ r.bits = 2 ^ target * 2 ^ (r.bits - target) := by
        rw [← Nat.pow_add]; congr 1; omega
      refine ⟨?_, ?_, bound, acc⟩
      · rw [value]
        simp only [Regroup.value, value_snoc]
        rw [mod_split r.acc r.bits target full, pow, Nat.add_mul, Nat.mul_assoc, Nat.add_assoc]
      · rw [length, List.length_append, List.length_singleton, Nat.mul_add]
        dsimp only
        omega
    · rw [drain, if_neg full]
      exact ⟨rfl, rfl, by omega, rfl⟩

/-- Shifting in one digit within the width of the accumulator. -/
theorem shift_in {acc source bits v : Nat} (digit : v < 2 ^ source) (room : bits + source ≤ 32) :
    ((acc <<< source) % 2 ^ 32 ||| v) % 2 ^ (bits + source) =
      acc % 2 ^ bits * 2 ^ source + v := by
  have width : 2 ^ 32 = 2 ^ (32 - source) * 2 ^ source := by
    rw [← Nat.pow_add]; congr 1; omega
  have kept : (acc <<< source) % 2 ^ 32 = (acc % 2 ^ (32 - source)) <<< source := by
    rw [Nat.shiftLeft_eq, Nat.shiftLeft_eq, width, Nat.mul_mod_mul_right]
  rw [kept, ← Nat.shiftLeft_add_eq_or_of_lt digit, Nat.shiftLeft_eq, Nat.pow_add,
    Nat.mul_comm (2 ^ bits), Nat.mod_mul, Nat.mul_add_mod_self_right, Nat.mod_eq_of_lt digit,
    Nat.mul_comm (acc % _) (2 ^ source), Nat.mul_add_div (Nat.two_pow_pos source),
    Nat.div_eq_of_lt digit, Nat.add_zero, Nat.mod_mod_of_dvd _ (Nat.pow_dvd_pow 2 (by omega)),
    Nat.add_comm, Nat.mul_comm]

section

variable {source target : Nat}

/-- Reading digits keeps the value and the number of bits. -/
theorem read_spec (positive : 0 < target) (room : target + source ≤ 32) (data : List Nat)
    (digits : ∀ v ∈ data, v < 2 ^ source) :
    let r := data.foldl (Regroup.read source target) ⟨0, 0, []⟩
    r.value target = value source data ∧
      target * r.out.length + r.bits = source * data.length ∧ r.bits < target := by
  induction data using List.reverseRecOn with
  | nil => exact ⟨by simp [Regroup.value, value, Nat.mod_one], by simp, positive⟩
  | append_singleton data v ih =>
    obtain ⟨same, length, bound⟩ := ih fun x member => digits x (by simp [member])
    simp only [List.foldl_append, List.foldl_cons, List.foldl_nil]
    generalize data.foldl (Regroup.read source target) ⟨0, 0, []⟩ = r at same length bound
    obtain ⟨drained, count, rest, -⟩ := Regroup.drain_spec positive (r.bits + source)
      { r with
        acc := (r.acc <<< source) % 2 ^ 32 ||| v
        bits := r.bits + source } (by simp)
    refine ⟨?_, ?_, rest⟩
    · rw [Regroup.read, drained, value_snoc, ← same]
      simp only [Regroup.value]
      rw [shift_in (digits v (by simp)) (by omega), Nat.pow_add, Nat.add_mul, Nat.mul_assoc,
        Nat.add_assoc]
    · rw [Regroup.read, count]
      simp only [List.length_append, List.length_singleton, Nat.mul_add]
      omega

theorem Regroup.drain_digits {fuel : Nat} {r : Regroup} (digits : ∀ d ∈ r.out, d < 2 ^ target) :
    ∀ d ∈ (drain target fuel r).out, d < 2 ^ target := by
  induction fuel generalizing r with
  | zero => exact digits
  | succ fuel ih =>
    rw [drain]
    split
    · refine ih fun d member => ?_
      rcases List.mem_append.1 member with old | new
      · exact digits d old
      · rw [List.mem_singleton.1 new]
        exact Nat.mod_lt _ (Nat.two_pow_pos target)
    · exact digits

theorem read_digits {data : List Nat} {r : Regroup} (digits : ∀ d ∈ r.out, d < 2 ^ target) :
    ∀ d ∈ (data.foldl (Regroup.read source target) r).out, d < 2 ^ target := by
  induction data generalizing r with
  | nil => exact digits
  | cons v data ih => exact ih (Regroup.drain_digits digits)

/-- Regrouping without padding writes digits of the target width. -/
theorem convertBits_digits {data out : List Nat}
    (converted : convertBits data source target false = some out) : ∀ d ∈ out, d < 2 ^ target := by
  simp only [convertBits, Bool.false_eq_true, if_false] at converted
  split at converted
  · split at converted
    · cases converted
    · cases converted
      exact read_digits (by nofun)
  · cases converted

/-- Left-over bits that are shifted out as zero are zero. -/
theorem pending_zero {acc bits : Nat} (bound : bits < target)
    (zero : (acc <<< (target - bits)) % 2 ^ target = 0) : acc % 2 ^ bits = 0 := by
  have width : 2 ^ target = 2 ^ bits * 2 ^ (target - bits) := by
    rw [← Nat.pow_add]; congr 1; omega
  rw [Nat.shiftLeft_eq, width, Nat.mul_mod_mul_right] at zero
  exact (Nat.mul_eq_zero.1 zero).resolve_right (Nat.two_pow_pos _).ne'

/-- Regrouping without padding appends fewer zero bits than one digit. -/
theorem convertBits_value (positive : 0 < target) (room : target + source ≤ 32)
    {data out : List Nat} (converted : convertBits data source target false = some out) :
    (∀ v ∈ data, v < 2 ^ source) ∧ ∃ bits, bits < source ∧
      source * data.length = target * out.length + bits ∧
      value source data = value target out * 2 ^ bits := by
  simp only [convertBits] at converted
  split at converted
  · rename_i small
    have digits : ∀ v ∈ data, v < 2 ^ source := by simpa using small
    obtain ⟨same, length, bound⟩ := read_spec positive room data digits
    simp only [Bool.false_eq_true, if_false] at converted
    split at converted
    · cases converted
    · rename_i exact_
      cases converted
      rw [not_or, not_le, not_not] at exact_
      refine ⟨digits, _, exact_.1, length.symm, ?_⟩
      rw [← same, Regroup.value, pending_zero bound exact_.2, Nat.add_zero]
  · cases converted

/-- **Regrouping loses nothing.** -/
theorem convertBits_inj (positive : 0 < target) (room : target + source ≤ 32)
    {a b out : List Nat} (ha : convertBits a source target false = some out)
    (hb : convertBits b source target false = some out) : a = b := by
  obtain ⟨da, i, hi, la, va⟩ := convertBits_value positive room ha
  obtain ⟨db, j, hj, lb, vb⟩ := convertBits_value positive room hb
  have same : a.length = b.length := by
    by_contra differ
    rcases Nat.lt_or_gt_of_ne differ with less | less
    · have := Nat.mul_le_mul_left source less
      rw [Nat.mul_succ] at this
      omega
    · have := Nat.mul_le_mul_left source less
      rw [Nat.mul_succ] at this
      omega
  have bits : i = j := by rw [same] at la; omega
  exact value_inj same da db (by rw [va, vb, bits])

/-- Left-over bits in the high bits of a digit. -/
theorem pending_shift {acc bits : Nat} (bound : bits ≤ target) :
    (acc <<< (target - bits)) % 2 ^ target = acc % 2 ^ bits * 2 ^ (target - bits) := by
  have width : 2 ^ target = 2 ^ bits * 2 ^ (target - bits) := by
    rw [← Nat.pow_add]; congr 1; omega
  rw [Nat.shiftLeft_eq, width, Nat.mul_mod_mul_right]

/-- Regrouping with padding appends fewer zero bits than one digit written. -/
theorem convertBits_pad (positive : 0 < target) (room : target + source ≤ 32) {data : List Nat}
    (digits : ∀ v ∈ data, v < 2 ^ source) : ∃ out pad,
      convertBits data source target true = some out ∧ pad < target ∧
      target * out.length = source * data.length + pad ∧
      value target out = value source data * 2 ^ pad ∧ ∀ d ∈ out, d < 2 ^ target := by
  obtain ⟨same, length, bound⟩ := read_spec positive room data digits
  have small : data.all (· < 2 ^ source) = true := by simpa using digits
  have written : ∀ d ∈ (data.foldl (Regroup.read source target) ⟨0, 0, []⟩).out, d < 2 ^ target :=
    read_digits (by nofun)
  simp only [convertBits, small, if_true]
  generalize data.foldl (Regroup.read source target) ⟨0, 0, []⟩ = r at *
  by_cases left : 0 < r.bits
  · rw [if_pos left]
    refine ⟨_, target - r.bits, rfl, by omega, ?_, ?_, ?_⟩
    · rw [List.length_append, List.length_singleton, Nat.mul_add]
      omega
    · have width : 2 ^ target = 2 ^ r.bits * 2 ^ (target - r.bits) := by
        rw [← Nat.pow_add]; congr 1; omega
      rw [value_snoc, pending_shift (Nat.le_of_lt bound), width, ← same, Regroup.value,
        Nat.add_mul, Nat.mul_assoc]
    · intro d member
      rw [List.mem_append, List.mem_singleton] at member
      rcases member with old | rfl
      · exact written d old
      · exact Nat.mod_lt _ (Nat.two_pow_pos target)
  · rw [if_neg left]
    have none_ : r.bits = 0 := by omega
    refine ⟨_, 0, rfl, positive, by omega, ?_, written⟩
    rw [← same, Regroup.value, none_, Nat.pow_zero, Nat.mod_one, Nat.add_zero,
      Nat.mul_one, Nat.mul_one]

/-- **Regrouping back** gives the digits that were regrouped with padding. -/
theorem convertBits_back (positive : 0 < target) (room : target + source ≤ 32) {data out : List Nat}
    {bits : Nat} (digits : ∀ v ∈ data, v < 2 ^ source) (digits' : ∀ d ∈ out, d < 2 ^ target)
    (few : bits < source) (fits : bits < target)
    (length : source * data.length = target * out.length + bits)
    (same : value source data = value target out * 2 ^ bits) :
    convertBits data source target false = some out := by
  obtain ⟨total, count, bound⟩ := read_spec positive room data digits
  have small : data.all (· < 2 ^ source) = true := by simpa using digits
  have written : ∀ d ∈ (data.foldl (Regroup.read source target) ⟨0, 0, []⟩).out, d < 2 ^ target :=
    read_digits (by nofun)
  simp only [convertBits, small, if_true, Bool.false_eq_true, if_false]
  generalize data.foldl (Regroup.read source target) ⟨0, 0, []⟩ = r at *
  have lengths : r.out.length = out.length := by
    have sums : target * r.out.length + r.bits = target * out.length + bits := count.trans length
    have quotient := congrArg (· / target) sums
    simpa [Nat.mul_add_div positive, Nat.div_eq_of_lt bound, Nat.div_eq_of_lt fits] using quotient
  have left : r.bits = bits := by rw [lengths] at count; omega
  rw [same, Regroup.value, left] at total
  have zero : r.acc % 2 ^ bits = 0 := by
    have rest := congrArg (· % 2 ^ bits) total
    simpa [Nat.mul_add_mod_self_right] using rest
  rw [zero, Nat.add_zero] at total
  have values := Nat.eq_of_mul_eq_mul_right (Nat.two_pow_pos bits) total
  rw [if_neg, value_inj lengths written digits' values]
  rw [not_or, not_le, not_not, left, pending_shift (Nat.le_of_lt fits), zero, Nat.zero_mul]
  exact ⟨few, rfl⟩

end

end Bech32
