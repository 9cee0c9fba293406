import Nip05d.Text.Case

/-!
# Splitting text

The lines of a text, and its trimmed pieces between separators. A stretch
between separators is a piece (`mem_splitOn`), and splitting keeps every
character that does not separate (`flatten_splitOnP`).
-/

namespace Text

/-- The pieces between separators, trimmed, without the empty ones. -/
def trimmedPieces (separates : Char → Bool) (s : String) : List String :=
  (((chars s).splitOnP separates).map fun piece => trim (String.ofList piece)).filter (· ≠ "")

/-- A line without the carriage return before its line feed. -/
def stripReturn (line : List Char) : List Char :=
  if line.getLast? = some '\r' then line.dropLast else line

/-- The lines of a text, without their ends; nothing follows the last end. -/
def lines (s : String) : List String :=
  let parts := (chars s).splitOn '\n'
  (parts.dropLast.map stripReturn ++ parts.getLast?.toList.filter (· ≠ [])).map String.ofList

/-- A stretch of a text between line feeds or ends. -/
structure Line (text : String) (line : List Char) : Prop where
  found : ∃ before after, chars text = before ++ line ++ after ∧
    (before = [] ∨ ∃ front, before = front ++ ['\n']) ∧ (after = [] ∨ ∃ back, after = '\n' :: back)
  unbroken : '\n' ∉ line

/-! ## Pieces -/

theorem flatten_splitOnP {α : Type} (p : α → Bool) (xs : List α) :
    (xs.splitOnP p).flatten = xs.filter (! p ·) := by
  induction xs with
  | nil => rfl
  | cons x xs ih =>
    rw [List.splitOnP_cons_eq_if_modifyHead]
    by_cases separates : p x = true
    · rw [if_pos separates, List.flatten_cons, List.nil_append, ih,
        List.filter_cons_of_neg (by simp [separates])]
    · rw [if_neg separates, List.filter_cons_of_pos (by simpa using separates), ← ih]
      cases split : xs.splitOnP p with
      | nil => exact absurd split (List.splitOnP_ne_nil _ _)
      | cons piece rest => rfl

theorem mem_splitOn {α : Type} [DecidableEq α] {a : α} {before piece after : List α}
    (whole : a ∉ piece) (starts : before = [] ∨ ∃ front, before = front ++ [a])
    (ends : after = [] ∨ ∃ back, after = a :: back) :
    piece ∈ (before ++ piece ++ after).splitOn a := by
  have first : piece ∈ (piece ++ after).splitOn a := by
    rcases ends with rfl | ⟨back, rfl⟩
    · rw [List.append_nil, List.splitOn_eq_singleton whole]
      exact List.mem_singleton_self _
    · rw [List.splitOn_append_cons_self, List.splitOn_eq_singleton whole]
      exact List.mem_cons_self
  rcases starts with rfl | ⟨front, rfl⟩
  · exact first
  · rw [List.append_assoc, List.append_assoc, List.singleton_append, List.splitOn_append_cons_self]
    exact List.mem_append_right _ first

theorem trimChars_eq_nil {cs : List Char} :
    trimChars cs = [] ↔ ∀ c ∈ cs, isWhitespace c = true := by
  rw [trimChars, List.rdropWhile_eq_nil_iff]
  constructor
  · intro blank
    rw [← List.dropWhile_eq_nil_iff]
    by_contra left
    have first := List.head_dropWhile_not isWhitespace left
    rw [blank _ (List.head_mem left)] at first
    cases first
  · exact fun blank c member => blank c ((List.dropWhile_sublist _).mem member)

/-- Trimming removes white space only. -/
theorem mem_trimChars {cs : List Char} {c : Char} (member : c ∈ cs) :
    c ∈ trimChars cs ∨ isWhitespace c = true := by
  rw [← List.takeWhile_append_dropWhile (p := isWhitespace) (l := cs), List.mem_append] at member
  rcases member with front | member
  · exact .inr (List.mem_takeWhile_imp front)
  rw [← List.rdropWhile_append_rtakeWhile (p := isWhitespace) (l := cs.dropWhile isWhitespace),
    List.mem_append] at member
  exact member.imp_right List.mem_rtakeWhile_imp

/-- There are no pieces when there are separators and white space only. -/
theorem trimmedPieces_eq_nil {separates : Char → Bool} {s : String} :
    trimmedPieces separates s = [] ↔ ∀ c ∈ chars s, separates c = true ∨ isWhitespace c = true := by
  have blank : ∀ piece : List Char, trim (String.ofList piece) = "" ↔
      ∀ c ∈ piece, isWhitespace c = true := by
    intro piece
    rw [trim, chars_ofList, ← trimChars_eq_nil]
    rw [← String.ofList_inj]
  have pieces : trimmedPieces separates s = [] ↔
      ∀ c ∈ ((chars s).splitOnP separates).flatten, isWhitespace c = true := by
    simp only [trimmedPieces, List.filter_eq_nil_iff, List.forall_mem_map, decide_not,
      Bool.not_eq_true', decide_eq_false_iff_not, not_not, blank, List.forall_mem_flatten]
  rw [pieces, flatten_splitOnP]
  simp only [List.mem_filter, Bool.not_eq_true', and_imp]
  refine forall₂_congr fun c _ => ?_
  cases separates c <;> simp

/-! ## Lines -/

theorem trimChars_concat {c : Char} (space : isWhitespace c = true) (cs : List Char) :
    trimChars (cs ++ [c]) = trimChars cs := by
  rw [trimChars, trimChars, List.dropWhile_append]
  split
  · rename_i none
    rw [List.isEmpty_iff.1 none, List.dropWhile_cons_of_pos space, List.dropWhile_nil]
  · rw [List.rdropWhile_concat_pos _ _ _ space]

theorem trimChars_stripReturn (line : List Char) :
    trimChars (stripReturn line) = trimChars line := by
  unfold stripReturn
  split
  · rename_i last
    obtain ⟨front, rfl⟩ := List.getLast?_eq_some_iff.1 last
    rw [List.dropLast_concat, trimChars_concat (by decide)]
  · rfl

/-- A line that is not blank is among the lines, up to white space around it. -/
theorem Line.mem {text : String} {line : List Char} (here : Line text line)
    (visible : trimChars line ≠ []) :
    ∃ l ∈ lines text, trim l = String.ofList (trimChars line) := by
  obtain ⟨⟨before, after, split, starts, ends⟩, unbroken⟩ := here
  have part : line ∈ (chars text).splitOn '\n' := split ▸ mem_splitOn unbroken starts ends
  unfold lines
  generalize (chars text).splitOn '\n' = parts at part ⊢
  obtain ⟨front, last, rfl⟩ : ∃ front last, parts = front ++ [last] :=
    (List.eq_nil_or_concat' parts).resolve_left fun none => by simp [none] at part
  rw [List.mem_append, List.mem_singleton] at part
  simp only [List.dropLast_concat, List.getLast?_concat, Option.toList_some]
  rcases part with ended | rfl
  · refine ⟨String.ofList (stripReturn line), ?_, ?_⟩
    · exact List.mem_map_of_mem (List.mem_append_left _ (List.mem_map_of_mem ended))
    · rw [trim, chars_ofList, trimChars_stripReturn]
  · refine ⟨String.ofList line, List.mem_map_of_mem (List.mem_append_right _ ?_), ?_⟩
    · rw [List.mem_filter]
      refine ⟨List.mem_singleton_self _, decide_eq_true ?_⟩
      rintro rfl
      exact visible rfl
    · rw [trim, chars_ofList]

end Text
