import Nip05d.Text.Chars
import Mathlib.Data.List.DropRight
import Mathlib.Data.List.Forall2

/-!
# Case folding and trimming of text

`toLowercase` is the lower-casing of a whole string: character by character
with the Unicode lowercase mapping, except that a capital sigma at the end of a
word becomes the final small sigma. The character tables are a parameter
(`CaseData`) together with the facts that hold of every Unicode version; the
algorithm is the standard one. ASCII text is lower-cased letter by letter.
-/

namespace Text

/-- The Unicode White_Space property. -/
def isWhitespace (c : Char) : Bool :=
  let n := c.toNat
  (0x9 ≤ n && n ≤ 0xD) || n == 0x20 || n == 0x85 || n == 0xA0 || n == 0x1680 ||
    (0x2000 ≤ n && n ≤ 0x200A) || n == 0x2028 || n == 0x2029 || n == 0x202F || n == 0x205F ||
    n == 0x3000

/-- The character tables that lower-casing reads. -/
structure CaseData where
  lower : Char → List Char
  cased : Char → Bool
  caseIgnorable : Char → Bool
  ascii : ∀ c, c.toNat < 128 → lower c = [c.toLower]
  nonempty : ∀ c, lower c ≠ []
  settled : ∀ c, ∀ d ∈ lower c, lower d = [d]
  space : ∀ c, isWhitespace c = false → ∀ d ∈ lower c, isWhitespace d = false
  sigma : lower 'Σ' = ['σ']
  finalSigma : lower 'ς' = ['ς']

/-- The first character that is not case-ignorable is a letter with case. -/
def ignorableThenCased (u : CaseData) (cs : List Char) : Bool :=
  match cs.dropWhile u.caseIgnorable with
  | c :: _ => u.cased c
  | [] => false

/-- The lower case of one character between `before` (latest first) and `rest`. -/
def lowerAt (u : CaseData) (before : List Char) (c : Char) (rest : List Char) : List Char :=
  if c = 'Σ' then
    [if ignorableThenCased u before && !ignorableThenCased u rest then 'ς' else 'σ']
  else u.lower c

def lowerFrom (u : CaseData) : List Char → List Char → List Char
  | _, [] => []
  | before, c :: rest => lowerAt u before c rest ++ lowerFrom u (c :: before) rest

/-- Lower case of a string. -/
def toLowercase (u : CaseData) (s : String) : String := String.ofList (lowerFrom u [] (chars s))

def trimChars (cs : List Char) : List Char :=
  (cs.dropWhile isWhitespace).rdropWhile isWhitespace

/-- A string without its leading and trailing white space. -/
def trim (s : String) : String := String.ofList (trimChars (chars s))

/-- A string without the trailing characters `c`. -/
def trimEndMatches (s : String) (c : Char) : String :=
  String.ofList ((chars s).rdropWhile (· == c))

/-- Equality up to the case of ASCII letters. -/
def eqIgnoreAsciiCase (s t : String) : Bool :=
  (chars s).map Char.toLower == (chars t).map Char.toLower

/-! ## ASCII letters -/

/-- The upper-case ASCII letters by their codes. -/
theorem isUpper_iff {c : Char} : c.isUpper = true ↔ 65 ≤ c.toNat ∧ c.toNat ≤ 90 := by
  change decide (c.val ≥ 'A'.val ∧ c.val ≤ 'Z'.val) = true ↔ _
  rw [decide_eq_true_eq]
  exact Iff.rfl

theorem isUpper_eq_false {c : Char} : c.isUpper = false ↔ ¬ (65 ≤ c.toNat ∧ c.toNat ≤ 90) := by
  rw [← Bool.not_eq_true, isUpper_iff]

theorem isUpper_lt {c : Char} (upper : c.isUpper = true) : c.toNat < 128 :=
  Nat.lt_of_le_of_lt (isUpper_iff.1 upper).2 (by decide)

theorem toLower_of_not_upper {c : Char} (h : c.isUpper = false) : c.toLower = c :=
  dif_neg (isUpper_eq_false.1 h)

theorem toLower_toNat {c : Char} (upper : c.isUpper = true) : c.toLower.toNat = c.toNat + 32 := by
  have range := isUpper_iff.1 upper
  have high : c.val.toNat ≤ 90 := range.2
  rw [show c.toLower = _ from dif_pos range]
  change (c.val + 32).toNat = c.val.toNat + 32
  rw [UInt32.toNat_add]
  exact Nat.mod_eq_of_lt (by change c.val.toNat + 32 < 2 ^ 32; omega)

theorem toLower_not_upper (c : Char) : c.toLower.isUpper = false := by
  cases upper : c.isUpper with
  | false => rw [toLower_of_not_upper upper]; exact upper
  | true =>
    have sum := toLower_toNat upper
    rw [isUpper_iff] at upper
    rw [isUpper_eq_false]
    omega

/-- Tables in which only ASCII letters and sigma have case. -/
def CaseData.asciiOnly : CaseData where
  lower c := if c = 'Σ' then ['σ'] else [c.toLower]
  cased c := c.isAlpha || c == 'Σ' || c == 'σ' || c == 'ς'
  caseIgnorable _ := false
  ascii c low := if_neg fun same => absurd low (by rw [same]; decide)
  nonempty c := by split <;> exact List.cons_ne_nil _ _
  settled c d member := by
    split at member
    · rw [List.mem_singleton] at member
      subst member
      decide
    · rename_i other
      rw [List.mem_singleton] at member
      subst member
      have still := toLower_of_not_upper (toLower_not_upper c)
      rw [still, if_neg]
      intro same
      cases upper : c.isUpper with
      | false => exact other ((toLower_of_not_upper upper).symm.trans same)
      | true =>
        have sum := toLower_toNat upper
        have low := isUpper_lt upper
        rw [same] at sum
        have big : 'Σ'.toNat = 931 := by decide
        omega
  space c visible d member := by
    split at member
    · rw [List.mem_singleton] at member
      subst member
      decide
    · rw [List.mem_singleton] at member
      subst member
      cases upper : c.isUpper with
      | false => rw [toLower_of_not_upper upper]; exact visible
      | true =>
        have sum := toLower_toNat upper
        rw [isUpper_iff] at upper
        simp only [isWhitespace, sum, Bool.or_eq_false_iff, Bool.and_eq_false_iff,
          decide_eq_false_iff_not, beq_eq_false_iff_ne]
        omega
  sigma := by decide
  finalSigma := by decide

/-! ## Lower-cased text -/

variable {u : CaseData}

/-- Characters that lower-casing produces and no longer changes. -/
structure Settled (u : CaseData) (d : Char) : Prop where
  fixed : u.lower d = [d]
  notSigma : d ≠ 'Σ'

theorem Settled.not_upper {d : Char} (h : Settled u d) : d.isUpper = false := by
  cases upper : d.isUpper with
  | false => rfl
  | true =>
    have same := u.ascii d (isUpper_lt upper)
    rw [h.fixed, List.cons.injEq] at same
    have lowered := toLower_not_upper d
    rw [← same.1, upper] at lowered
    cases lowered

theorem lower_settled {c d : Char} (member : d ∈ u.lower c) : Settled u d := by
  refine ⟨u.settled c d member, ?_⟩
  rintro rfl
  have same := u.settled c _ member
  rw [u.sigma] at same
  exact absurd same (by decide)

theorem lowerAt_settled {before rest : List Char} {c d : Char}
    (member : d ∈ lowerAt u before c rest) : Settled u d := by
  unfold lowerAt at member
  split at member
  · rw [List.mem_singleton] at member
    subst member
    split
    · exact ⟨u.finalSigma, by decide⟩
    · have small : 'σ' ∈ u.lower 'Σ' := by simp [u.sigma]
      exact lower_settled small
  · exact lower_settled member

theorem lowerFrom_settled {before cs : List Char} {d : Char} (member : d ∈ lowerFrom u before cs) :
    Settled u d := by
  induction cs generalizing before with
  | nil => cases member
  | cons c rest ih =>
    rw [lowerFrom, List.mem_append] at member
    rcases member with here | later
    · exact lowerAt_settled here
    · exact ih later

/-- Lower-casing leaves settled characters alone. -/
theorem lowerFrom_of_settled {before cs : List Char} (settled : ∀ c ∈ cs, Settled u c) :
    lowerFrom u before cs = cs := by
  induction cs generalizing before with
  | nil => rfl
  | cons c rest ih =>
    have here := settled c List.mem_cons_self
    rw [lowerFrom, lowerAt, if_neg here.notSigma, here.fixed,
      ih fun d member => settled d (List.mem_cons_of_mem _ member)]
    rfl

/-- ASCII text is lower-cased letter by letter. -/
theorem lowerFrom_of_ascii {before cs : List Char} (ascii : ∀ c ∈ cs, c.toNat < 128) :
    lowerFrom u before cs = cs.map Char.toLower := by
  induction cs generalizing before with
  | nil => rfl
  | cons c rest ih =>
    have here := ascii c List.mem_cons_self
    have notSigma : c ≠ 'Σ' := by rintro rfl; exact absurd here (by decide)
    rw [lowerFrom, lowerAt, if_neg notSigma, u.ascii c here,
      ih fun d member => ascii d (List.mem_cons_of_mem _ member)]
    rfl

theorem chars_toLowercase (s : String) : chars (toLowercase u s) = lowerFrom u [] (chars s) := by
  simp [toLowercase]

theorem mem_toLowercase {s : String} {d : Char} (member : d ∈ chars (toLowercase u s)) :
    Settled u d := by
  rw [chars_toLowercase] at member
  exact lowerFrom_settled member

theorem toLowercase_of_ascii {s : String} (ascii : ∀ c ∈ chars s, c.toNat < 128) :
    chars (toLowercase u s) = (chars s).map Char.toLower := by
  rw [chars_toLowercase, lowerFrom_of_ascii ascii]

theorem toLowercase_idem (s : String) : toLowercase u (toLowercase u s) = toLowercase u s := by
  rw [toLowercase, lowerFrom_of_settled fun c member => mem_toLowercase member, ofList_chars]

/-! ## Trimming -/

/-- No white space at either end. -/
structure Trimmed (cs : List Char) : Prop where
  head : ∀ c ∈ cs.head?, isWhitespace c = false
  last : ∀ c ∈ cs.getLast?, isWhitespace c = false

theorem Trimmed.eq {cs : List Char} (h : Trimmed cs) : trimChars cs = cs := by
  have front : cs.dropWhile isWhitespace = cs := by
    cases cs with
    | nil => rfl
    | cons c rest => exact List.dropWhile_cons_of_neg (by simp [h.head c rfl])
  rw [trimChars, front, List.rdropWhile_eq_self_iff]
  intro nonempty
  rw [h.last _ (List.getLast?_eq_some_getLast nonempty)]
  exact Bool.false_ne_true

theorem trimChars_trimmed (cs : List Char) : Trimmed (trimChars cs) := by
  constructor
  · intro c first
    obtain ⟨rest, split⟩ := List.rdropWhile_prefix isWhitespace (cs.dropWhile isWhitespace)
    have front : (cs.dropWhile isWhitespace).head? = some c := by
      rw [← split, List.head?_append]
      change (trimChars cs).head?.or _ = some c
      rw [show (trimChars cs).head? = some c from first]
      rfl
    have miss := List.head?_dropWhile_not isWhitespace cs
    rw [front] at miss
    exact miss
  · intro c last
    have nonempty : trimChars cs ≠ [] := by
      rintro empty
      rw [empty] at last
      cases last
    have miss := List.rdropWhile_last_not isWhitespace (cs.dropWhile isWhitespace) nonempty
    have same : (trimChars cs).getLast nonempty = c := by
      rw [List.getLast?_eq_some_getLast nonempty] at last
      exact Option.some.inj last
    change ¬ isWhitespace ((trimChars cs).getLast nonempty) = true at miss
    rw [same] at miss
    simpa using miss

/-- Trailing characters are dropped from the end of a text with another one. -/
theorem rdropWhile_append_of_exists {α : Type} {p : α → Bool} {front back : List α}
    (other : ∃ c ∈ back, p c = false) :
    (front ++ back).rdropWhile p = front ++ back.rdropWhile p := by
  have rest : ¬ (back.reverse.dropWhile p).isEmpty = true := by
    rw [List.isEmpty_iff, List.dropWhile_eq_nil_iff]
    intro all
    obtain ⟨c, member, miss⟩ := other
    rw [all c (List.mem_reverse.2 member)] at miss
    cases miss
  rw [List.rdropWhile, List.reverse_append, List.dropWhile_append, if_neg rest, List.reverse_append,
    List.reverse_reverse, List.rdropWhile]

/-- They are dropped whole, and from the text before them. -/
theorem rdropWhile_append_of_forall {α : Type} {p : α → Bool} {front back : List α}
    (all : ∀ c ∈ back, p c = true) : (front ++ back).rdropWhile p = front.rdropWhile p := by
  have none : back.reverse.dropWhile p = [] :=
    List.dropWhile_eq_nil_iff.2 fun c member => all c (List.mem_reverse.1 member)
  rw [List.rdropWhile, List.reverse_append, List.dropWhile_append, none, if_pos List.isEmpty_nil,
    List.rdropWhile]

/-- After a common front, dropping them tells texts apart as before it. -/
theorem rdropWhile_append_inj {α : Type} {p : α → Bool} {front back back' : List α} :
    (front ++ back).rdropWhile p = (front ++ back').rdropWhile p ↔
      back.rdropWhile p = back'.rdropWhile p := by
  have shorter : (front.rdropWhile p).length ≤ front.length := (List.rdropWhile_prefix p front).length_le
  have split : ∀ cs : List α, cs.rdropWhile p = [] ∧ (front ++ cs).rdropWhile p = front.rdropWhile p ∨
      cs.rdropWhile p ≠ [] ∧ (front ++ cs).rdropWhile p = front ++ cs.rdropWhile p := by
    intro cs
    by_cases all : ∀ c ∈ cs, p c = true
    · exact .inl ⟨List.rdropWhile_eq_nil_iff.2 all, rdropWhile_append_of_forall all⟩
    · refine .inr ⟨fun none => all (List.rdropWhile_eq_nil_iff.1 none), ?_⟩
      refine rdropWhile_append_of_exists ?_
      simpa only [not_forall, Bool.not_eq_true, exists_prop] using all
  have longer : ∀ cs : List α, cs ≠ [] → front ++ cs ≠ front.rdropWhile p := by
    intro cs nonempty same
    have length := congrArg List.length same
    have positive := List.length_pos_of_ne_nil nonempty
    rw [List.length_append] at length
    omega
  rcases split back with ⟨none, left⟩ | ⟨some, left⟩ <;>
    rcases split back' with ⟨none', right⟩ | ⟨some', right⟩
  · rw [none, none', left, right]
    exact iff_of_true rfl rfl
  · rw [none, left, right]
    exact iff_of_false (fun same => longer _ some' same.symm) fun same => some' same.symm
  · rw [none', left, right]
    exact iff_of_false (longer _ some) some
  · rw [left, right, List.append_cancel_left_eq]

theorem lowerAt_space {before rest : List Char} {c d : Char} (visible : isWhitespace c = false)
    (member : d ∈ lowerAt u before c rest) : isWhitespace d = false := by
  unfold lowerAt at member
  split at member
  · rw [List.mem_singleton] at member
    subst member
    split <;> decide
  · exact u.space c visible d member

theorem lowerAt_ne_nil (u : CaseData) (before : List Char) (c : Char) (rest : List Char) :
    lowerAt u before c rest ≠ [] := by
  unfold lowerAt
  split
  · exact List.cons_ne_nil _ _
  · exact u.nonempty c

theorem lowerFrom_ne_nil {before cs : List Char} (h : cs ≠ []) : lowerFrom u before cs ≠ [] := by
  cases cs with
  | nil => exact absurd rfl h
  | cons c rest => simp [lowerFrom, lowerAt_ne_nil]

/-- The last character of lower-cased text comes from the last character. -/
theorem lowerFrom_last {before cs : List Char} {d : Char}
    (last : d ∈ (lowerFrom u before cs).getLast?) :
    ∃ c ∈ cs.getLast?, ∃ before rest, d ∈ lowerAt u before c rest := by
  induction cs generalizing before with
  | nil => cases last
  | cons c rest ih =>
    rw [lowerFrom] at last
    cases rest with
    | nil =>
      simp only [lowerFrom, List.append_nil] at last
      exact ⟨c, rfl, before, [], List.mem_of_getLast? last⟩
    | cons e more =>
      have nonempty : lowerFrom u (c :: before) (e :: more) ≠ [] :=
        lowerFrom_ne_nil (List.cons_ne_nil e more)
      rw [List.getLast?_append_of_ne_nil _ nonempty] at last
      obtain ⟨c', final, from_⟩ := ih last
      exact ⟨c', by rw [List.getLast?_cons_cons]; exact final, from_⟩

/-- Lower-casing does not bring white space to the ends of trimmed text. -/
theorem Trimmed.lowerFrom {cs : List Char} (h : Trimmed cs) : Trimmed (lowerFrom u [] cs) := by
  constructor
  · intro d first
    cases cs with
    | nil => cases first
    | cons c rest =>
      obtain ⟨e, more, shape⟩ := List.exists_cons_of_ne_nil (lowerAt_ne_nil u [] c rest)
      rw [Text.lowerFrom, shape] at first
      cases first
      exact lowerAt_space (h.head c rfl) (shape ▸ List.mem_cons_self)
  · intro d last
    obtain ⟨c, final, before, rest, member⟩ := lowerFrom_last last
    exact lowerAt_space (h.last c final) member

/-- Trimming and lower-casing once is enough. -/
theorem toLowercase_trim_idem (s : String) :
    toLowercase u (trim (toLowercase u (trim s))) = toLowercase u (trim s) := by
  have trimmed : Trimmed (lowerFrom u [] (chars (trim s))) := by
    simp only [trim, chars_ofList]
    exact (trimChars_trimmed (chars s)).lowerFrom
  have once : trim (toLowercase u (trim s)) = toLowercase u (trim s) := by
    rw [trim, chars_toLowercase, trimmed.eq, ← chars_toLowercase, ofList_chars]
  rw [once, toLowercase_idem]

/-! ## Letter case -/

/-- The same character, or the same letter in another case; white space is no
letter. -/
def SameLetter (u : CaseData) (c d : Char) : Prop :=
  c = d ∨ isWhitespace c = false ∧ isWhitespace d = false ∧ u.lower c = u.lower d

/-- The same text in any letter case. -/
def SameLetters (u : CaseData) (s t : String) : Prop :=
  List.Forall₂ (SameLetter u) (chars s) (chars t)

theorem SameLetter.space {c d : Char} (same : SameLetter u c d) :
    isWhitespace c = isWhitespace d := by
  rcases same with rfl | ⟨visible, visible', -⟩
  · rfl
  · rw [visible, visible']

theorem forall₂_dropWhile {R : Char → Char → Prop} {p : Char → Bool} {cs ds : List Char}
    (agree : ∀ c d, R c d → p c = p d) (same : List.Forall₂ R cs ds) :
    List.Forall₂ R (cs.dropWhile p) (ds.dropWhile p) := by
  induction same with
  | nil => exact .nil
  | @cons c d cs ds here rest ih =>
    rw [List.dropWhile_cons, List.dropWhile_cons, agree c d here]
    split
    · exact ih
    · exact .cons here rest

theorem trimChars_sameLetter {cs ds : List Char} (same : List.Forall₂ (SameLetter u) cs ds) :
    List.Forall₂ (SameLetter u) (trimChars cs) (trimChars ds) := by
  have agree : ∀ c d, SameLetter u c d → isWhitespace c = isWhitespace d :=
    fun _ _ => SameLetter.space
  have front := forall₂_dropWhile agree same
  have back := forall₂_dropWhile agree (List.forall₂_reverse_iff.2 front)
  exact List.forall₂_reverse_iff.2 back

/-- Text whose lower case is ASCII has the same lower case in any letter case. -/
theorem lowerFrom_sameLetter {before before' cs ds : List Char}
    (same : List.Forall₂ (SameLetter u) cs ds)
    (ascii : ∀ d ∈ lowerFrom u before' ds, d.toNat < 128) :
    lowerFrom u before cs = lowerFrom u before' ds := by
  have small : ¬ 'σ'.toNat < 128 := by decide
  have final : ¬ 'ς'.toNat < 128 := by decide
  induction same generalizing before before' with
  | nil => rfl
  | @cons c d cs ds here rest ih =>
    rw [lowerFrom] at ascii
    have notSigma : d ≠ 'Σ' := by
      rintro rfl
      rw [lowerAt, if_pos rfl] at ascii
      have first := ascii _ List.mem_cons_self
      split at first
      · exact final first
      · exact small first
    rw [lowerAt, if_neg notSigma] at ascii
    have lowered : u.lower c = u.lower d := by
      rcases here with rfl | ⟨-, -, lowered⟩
      · rfl
      · exact lowered
    have notSigma' : c ≠ 'Σ' := by
      rintro rfl
      rw [u.sigma] at lowered
      exact small (ascii 'σ' (List.mem_append_left _ (lowered ▸ List.mem_cons_self)))
    rw [lowerFrom, lowerFrom, lowerAt, lowerAt, if_neg notSigma, if_neg notSigma', lowered,
      ih fun d member => ascii d (List.mem_append_right _ member)]

/-- Trimming and lower-casing forget the letter case of ASCII. -/
theorem toLowercase_trim_sameLetters {s t : String} (same : SameLetters u s t)
    (ascii : ∀ c ∈ chars (toLowercase u (trim t)), c.toNat < 128) :
    toLowercase u (trim s) = toLowercase u (trim t) := by
  rw [chars_toLowercase] at ascii
  simp only [trim, chars_ofList] at ascii
  simp only [toLowercase, trim, chars_ofList]
  rw [lowerFrom_sameLetter (trimChars_sameLetter same) ascii]

end Text
