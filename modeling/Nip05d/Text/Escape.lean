import Mathlib.Data.List.Basic

/-!
# Escaping

Characters are escaped by replacing one after the other, each in the result of
the last. When no replacement brings in a character that is still to come, this
is one substitution (`replaceAll_eq_substitute`). When the replacements also
start with a marker, which is escaped itself, and none is the start of another,
the text can be read back (`substitute_injective`).
-/

namespace Escape

variable {α : Type} [DecidableEq α]

/-- Every occurrence of a character, replaced by a text. -/
def replace (c : α) (text xs : List α) : List α := xs.flatMap fun x => if x = c then text else [x]

/-- The replacements of a table, one after the other. -/
def replaceAll (table : List (α × List α)) (xs : List α) : List α :=
  table.foldl (fun xs e => replace e.1 e.2 xs) xs

/-- What a table puts for a character. -/
def image (table : List (α × List α)) (x : α) : List α :=
  match table with
  | [] => [x]
  | e :: rest => if x = e.1 then e.2 else image rest x

/-- The replacements of a table at once. -/
def substitute (table : List (α × List α)) (xs : List α) : List α := xs.flatMap (image table)

/-- No replacement brings in a character that is still to be replaced. -/
def Layered (table : List (α × List α)) : Prop := table.Pairwise fun a b => b.1 ∉ a.2

/-- Every replacement starts with a marker, which is replaced itself, and none is
the start of another. -/
structure Marked (marker : α) (table : List (α × List α)) : Prop where
  escaped : ∃ e ∈ table, e.1 = marker
  starts : ∀ e ∈ table, e.2.head? = some marker
  apart : ∀ e ∈ table, ∀ e' ∈ table, e.2 <+: e'.2 → e.1 = e'.1

variable {table : List (α × List α)} {marker x y : α} {xs ys : List α}

/-! ## One substitution -/

theorem image_fresh (fresh : ∀ e ∈ table, e.1 ≠ x) : image table x = [x] := by
  induction table with
  | nil => rfl
  | cons e rest ih =>
    rw [image, if_neg (fresh e List.mem_cons_self).symm]
    exact ih fun e' member => fresh e' (List.mem_cons_of_mem _ member)

theorem substitute_fresh (fresh : ∀ x ∈ xs, ∀ e ∈ table, e.1 ≠ x) : substitute table xs = xs := by
  induction xs with
  | nil => rfl
  | cons x xs ih =>
    rw [substitute, List.flatMap_cons, image_fresh (fresh x List.mem_cons_self)]
    exact congrArg (x :: ·) (ih fun x' member => fresh x' (List.mem_cons_of_mem _ member))

/-- **Replacing in turn is one substitution.** -/
theorem replaceAll_eq_substitute (layered : Layered table) (xs : List α) :
    replaceAll table xs = substitute table xs := by
  induction table generalizing xs with
  | nil => exact (substitute_fresh fun x _ => List.forall_mem_nil _).symm
  | cons e rest ih =>
    obtain ⟨first, later⟩ := List.pairwise_cons.1 layered
    change replaceAll rest (replace e.1 e.2 xs) = _
    rw [ih later, substitute, replace, List.flatMap_assoc, substitute]
    refine List.flatMap_congr fun x _ => ?_
    rw [image]
    split
    · exact substitute_fresh fun y there e' member same => first e' member (same ▸ there)
    · exact List.flatMap_singleton _ _

/-! ## Reading back -/

/-- What is put for a character is in the table, or the character itself. -/
theorem image_cases (table : List (α × List α)) (x : α) :
    (∃ e ∈ table, e.1 = x ∧ image table x = e.2) ∨ (∀ e ∈ table, e.1 ≠ x) ∧ image table x = [x] := by
  induction table with
  | nil => exact .inr ⟨List.forall_mem_nil _, rfl⟩
  | cons e rest ih =>
    by_cases same : x = e.1
    · exact .inl ⟨e, List.mem_cons_self, same.symm, by rw [image, if_pos same]⟩
    · rw [image, if_neg same]
      rcases ih with ⟨e', member, key, put⟩ | ⟨fresh, put⟩
      · exact .inl ⟨e', List.mem_cons_of_mem _ member, key, put⟩
      · refine .inr ⟨fun e' member => ?_, put⟩
        rcases List.mem_cons.1 member with rfl | old
        · exact Ne.symm same
        · exact fresh e' old

theorem Marked.image_ne_nil (marked : Marked marker table) (x : α) : image table x ≠ [] := by
  rcases image_cases table x with ⟨e, member, -, put⟩ | ⟨-, put⟩
  · intro empty
    have starts := marked.starts e member
    rw [← put, empty] at starts
    cases starts
  · rw [put]
    exact List.cons_ne_nil _ _

/-- What is put for a character starts what is put for no other. -/
theorem Marked.image_prefix (marked : Marked marker table) (starts : image table x <+: image table y) :
    x = y := by
  obtain ⟨m, known, escaped⟩ := marked.escaped
  rcases image_cases table x with ⟨e, member, rfl, put⟩ | ⟨fresh, put⟩
  · rcases image_cases table y with ⟨e', member', rfl, put'⟩ | ⟨fresh', put'⟩
    · exact marked.apart e member e' member' (put ▸ put' ▸ starts)
    · -- a replacement would be a character that stands for itself
      rw [put, put'] at starts
      obtain ⟨text, same⟩ : ∃ text, e.2 = marker :: text := by
        have head := marked.starts e member
        cases whole : e.2 with
        | nil => simp [whole] at head
        | cons a text => exact ⟨text, by simpa [whole] using head⟩
      rw [same] at starts
      have here := (List.cons_prefix_cons.1 starts).1
      exact absurd (escaped.trans here) (fresh' m known)
  · rcases image_cases table y with ⟨e', member', rfl, put'⟩ | ⟨-, put'⟩
    · rw [put, put'] at starts
      have head := marked.starts e' member'
      cases whole : e'.2 with
      | nil => simp [whole] at head
      | cons a text =>
        rw [whole] at starts head
        have here := (List.cons_prefix_cons.1 starts).1
        rw [List.head?_cons, Option.some.injEq] at head
        exact absurd (escaped.trans (here.trans head).symm) (fresh m known)
    · rw [put, put'] at starts
      exact (List.cons_prefix_cons.1 starts).1

/-- **A substituted text can be read back.** -/
theorem substitute_injective (marked : Marked marker table)
    (same : substitute table xs = substitute table ys) : xs = ys := by
  induction xs generalizing ys with
  | nil =>
    cases ys with
    | nil => rfl
    | cons y ys =>
      have empty := (List.append_eq_nil_iff.1 same.symm).1
      exact absurd empty (marked.image_ne_nil y)
  | cons x xs ih =>
    cases ys with
    | nil =>
      have empty := (List.append_eq_nil_iff.1 same).1
      exact absurd empty (marked.image_ne_nil x)
    | cons y ys =>
      have whole : image table x ++ substitute table xs = image table y ++ substitute table ys := same
      have first : image table x <+: image table y ++ substitute table ys :=
        whole ▸ List.prefix_append _ _
      obtain rfl : x = y := by
        rcases List.prefix_or_prefix_of_prefix first (List.prefix_append _ _) with starts | starts
        · exact marked.image_prefix starts
        · exact (marked.image_prefix starts).symm
      rw [ih (List.append_cancel_left whole)]

/-- Escaping leaves no escaped character but the marker. -/
theorem not_mem_substitute {c : α} (escaped : ∃ e ∈ table, e.1 = c) (gone : ∀ e ∈ table, c ∉ e.2) :
    c ∉ substitute table xs := by
  intro there
  obtain ⟨x, -, there⟩ := List.mem_flatMap.1 there
  rcases image_cases table x with ⟨e, member, -, put⟩ | ⟨fresh, put⟩
  · exact gone e member (put ▸ there)
  · rw [put, List.mem_singleton] at there
    obtain ⟨e, member, same⟩ := escaped
    exact fresh e member (same.trans there)

end Escape
