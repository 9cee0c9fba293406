import Nip05d.Names
import Mathlib.Logic.Relation

/-!
# Look-alikes of reserved terms

A name is reserved exactly when its fold is the fold of a reserved term, so no
sequence of edits that the fold does not see leads off the reserved list. The
labels of the operator's domain are on that list.
-/

namespace Nip05d.Names

open Text

/-- One edit that makes a look-alike: a separator is inserted or deleted, or a
character gives way to another that folds to the same letter. -/
inductive Edit : List Char → List Char → Prop
  | insert (front back : List Char) (c : Char) (sep : c ∈ ['.', '_', '-']) :
      Edit (front ++ back) (front ++ c :: back)
  | delete (front back : List Char) (c : Char) (sep : c ∈ ['.', '_', '-']) :
      Edit (front ++ c :: back) (front ++ back)
  | exchange (front back : List Char) {c d letter : Char} (left : foldChar c = some letter)
      (right : foldChar d = some letter) : Edit (front ++ c :: back) (front ++ d :: back)

/-- A name results from another by any number of edits. -/
def Lookalike (n m : String) : Prop := Relation.ReflTransGen Edit (chars n) (chars m)

/-- A label that the domain keeps to itself: a nonempty stretch without dots
between dots or ends, which is followed by another label or is the only one. -/
structure KeptLabel (domain label : String) (before after : List Char) : Prop where
  found : chars (trimEndMatches (trim domain) '.') = before ++ chars label ++ after
  nonempty : chars label ≠ []
  undotted : '.' ∉ chars label
  starts : before = [] ∨ ∃ front, before = front ++ ['.']
  ends : after = [] ∨ ∃ back, after = '.' :: back
  kept : (∃ c ∈ after, c ≠ '.') ∨ ∀ c ∈ before ++ after, c = '.'

/-! ## What folding sees -/

theorem foldChar_separator {c : Char} (sep : c ∈ ['.', '_', '-']) : foldChar c = none := by
  rcases List.mem_cons.1 sep with rfl | sep
  · rfl
  · rcases List.mem_cons.1 sep with rfl | sep
    · rfl
    · cases List.mem_singleton.1 sep
      rfl

/-- An edit keeps the fold. -/
theorem Edit.fold {cs ds : List Char} (edit : Edit cs ds) :
    cs.filterMap foldChar = ds.filterMap foldChar := by
  cases edit with
  | insert front back c sep =>
    rw [List.filterMap_append, List.filterMap_append,
      List.filterMap_cons_none (foldChar_separator sep)]
  | delete front back c sep =>
    rw [List.filterMap_append, List.filterMap_append,
      List.filterMap_cons_none (foldChar_separator sep)]
  | exchange front back left right =>
    rw [List.filterMap_append, List.filterMap_append, List.filterMap_cons_some left,
      List.filterMap_cons_some right]

/-- Any number of edits keep the fold. -/
theorem edits_fold {cs ds : List Char} (edits : Relation.ReflTransGen Edit cs ds) :
    cs.filterMap foldChar = ds.filterMap foldChar := by
  induction edits with
  | refl => rfl
  | tail _ edit ih => rw [ih, edit.fold]

theorem Lookalike.fold {n m : String} (alike : Lookalike n m) :
    foldLookalike n = foldLookalike m :=
  congrArg String.ofList (edits_fold alike)

/-- A name is reserved exactly when a reserved term has its fold. -/
theorem isReserved_iff {name : String} {extra : List String} :
    isReserved name extra = true ↔ ∃ r ∈ reserved ++ extra, foldLookalike r = foldLookalike name := by
  have folded : ∀ rs : List String, rs.any (foldLookalike · == foldLookalike name) = true ↔
      ∃ r ∈ rs, foldLookalike r = foldLookalike name := by
    intro rs
    simp only [List.any_eq_true, beq_iff_eq]
  have listed : (reserved.contains name || extra.any (· == name)) = true →
      ∃ r ∈ reserved ++ extra, foldLookalike r = foldLookalike name := by
    intro exact
    refine ⟨name, List.mem_append.2 ?_, rfl⟩
    rw [Bool.or_eq_true, List.contains_iff_mem, List.any_eq_true] at exact
    refine exact.imp_right fun ⟨r, member, same⟩ => ?_
    exact beq_iff_eq.1 same ▸ member
  have either : (reserved.any (foldLookalike · == foldLookalike name) ||
      extra.any (foldLookalike · == foldLookalike name)) = true ↔
      ∃ r ∈ reserved ++ extra, foldLookalike r = foldLookalike name := by
    rw [← List.any_append, folded]
  unfold isReserved
  split
  · rename_i exact
    exact iff_of_true rfl (listed exact)
  · exact either

theorem isReserved_of_fold {n m : String} (same : foldLookalike n = foldLookalike m)
    (extra : List String) : isReserved n extra = isReserved m extra := by
  rw [Bool.eq_iff_iff, isReserved_iff, isReserved_iff, same]

/-! ## The labels of a domain -/

/-- The nonempty labels of a domain. -/
def labels (cs : List Char) : List (List Char) := (cs.splitOn '.').filter (· ≠ [])

theorem labels_dot (front back : List Char) :
    labels (front ++ '.' :: back) = labels front ++ labels back := by
  rw [labels, List.splitOn_append_cons_self, List.filter_append, labels, labels]

theorem labels_of_undotted {label : List Char} (nonempty : label ≠ []) (undotted : '.' ∉ label) :
    labels label = [label] := by
  rw [labels, List.splitOn_eq_singleton undotted, List.filter_cons_of_pos (by simpa using nonempty),
    List.filter_nil]

/-- Only dots have no label. -/
theorem labels_eq_nil {cs : List Char} : labels cs = [] ↔ ∀ c ∈ cs, c = '.' := by
  induction cs with
  | nil => exact iff_of_true rfl (List.forall_mem_nil _)
  | cons c rest ih =>
    rw [List.forall_mem_cons]
    by_cases dot : c = '.'
    · rw [dot, ← List.nil_append ('.' :: rest), labels_dot, labels, List.splitOn_nil,
        List.filter_cons_of_neg (by decide), List.filter_nil, List.nil_append, ih]
      exact (and_iff_right rfl).symm
    · refine iff_of_false ?_ fun dots => dot dots.1
      rw [labels, List.splitOn_cons_eq_if_modifyHead, if_neg (by simpa using dot)]
      cases split : rest.splitOn '.' with
      | nil => exact absurd split (List.splitOn_ne_nil _ _)
      | cons head tail =>
        rw [List.modifyHead_cons, List.filter_cons_of_pos (by simp)]
        exact List.cons_ne_nil _ _

/-- A label stands in the list of labels where it stands in the domain. -/
theorem KeptLabel.labels {domain label : String} {before after : List Char}
    (kept : KeptLabel domain label before after) :
    labels (chars (trimEndMatches (trim domain) '.')) =
      labels before ++ chars label :: labels after := by
  have single := labels_of_undotted kept.nonempty kept.undotted
  have back : Names.labels (chars label ++ after) = chars label :: Names.labels after := by
    rcases kept.ends with rfl | ⟨rest, rfl⟩
    · rw [List.append_nil, single]
      rfl
    · rw [labels_dot, single, ← List.nil_append ('.' :: rest), labels_dot]
      rfl
  rw [kept.found, List.append_assoc]
  rcases kept.starts with rfl | ⟨front, rfl⟩
  · rw [List.nil_append, back]
    rfl
  · have dotted : Names.labels (front ++ ['.']) = Names.labels front := by
      rw [labels_dot]
      exact List.append_nil _
    rw [List.append_assoc, List.singleton_append, labels_dot, back, dotted]

/-- A kept label is reserved in lower case. -/
theorem KeptLabel.reserved {u : CaseData} {domain label : String} {before after : List Char}
    (kept : KeptLabel domain label before after) :
    toLowercase u label ∈ domainReserved u domain := by
  have parts := congrArg (List.map String.ofList) kept.labels
  rw [List.map_append, List.map_cons, ofList_chars, Names.labels] at parts
  simp only [domainReserved]
  refine List.mem_map_of_mem ?_
  rw [parts]
  by_cases last : Names.labels after = []
  · have only : Names.labels before = [] := by
      rw [labels_eq_nil] at last ⊢
      rcases kept.kept with ⟨c, member, other⟩ | dots
      · exact absurd (last c member) other
      · exact fun c member => dots c (List.mem_append_left _ member)
    rw [last, only]
    exact List.mem_singleton_self _
  · have follows : (Names.labels after).map String.ofList ≠ [] := fun none =>
      last (List.map_eq_nil_iff.1 none)
    rw [List.length_append, List.length_cons, if_pos (by
      have := List.length_pos_of_ne_nil follows
      omega), List.dropLast_append_of_ne_nil (List.cons_ne_nil _ _),
      List.dropLast_cons_of_ne_nil follows]
    exact List.mem_append_right _ List.mem_cons_self

/-- **Look-alike edits never escape the reserved list.** Edits keep what the list
says of a name, and every look-alike of a kept label of the domain is reserved. -/
theorem lookalikes_reserved (extra : List String) :
    (∀ n m, Lookalike n m → isReserved n extra = isReserved m extra) ∧
    ∀ u domain label before after m, KeptLabel domain label before after →
      Lookalike (toLowercase u label) m → isReserved m (domainReserved u domain ++ extra) = true := by
  refine ⟨fun n m alike => isReserved_of_fold alike.fold extra, ?_⟩
  intro u domain label before after m kept alike
  exact isReserved_iff.2 ⟨toLowercase u label,
    List.mem_append_right _ (List.mem_append_left _ kept.reserved), alike.fold⟩

/-- Swapped and separated spellings of a built-in term and of a domain's brand. -/
theorem lookalikes_goblin :
    isReserved "admin" ["ada"] = isReserved "4dmin" ["ada"] ∧
    isReserved "g-0blin" (domainReserved .asciiOnly "goblin.st" ++ ["ada"]) = true := by
  have swapped : Lookalike "admin" "4dmin" := .single (
    .exchange [] ['d', 'm', 'i', 'n'] rfl rfl)
  have kept : KeptLabel "goblin.st" "goblin" [] ['.', 's', 't'] := {
    found := by decide
    nonempty := by decide
    undotted := by decide
    starts := .inl rfl
    ends := .inr ⟨['s', 't'], rfl⟩
    kept := .inl ⟨'s', by decide, by decide⟩ }
  have separated : Lookalike (toLowercase .asciiOnly "goblin") "g-0blin" := by
    refine .tail (.single (.insert ['g'] ['o', 'b', 'l', 'i', 'n'] '-' (by decide))) ?_
    exact .exchange ['g', '-'] ['b', 'l', 'i', 'n'] rfl rfl
  have alike := lookalikes_reserved ["ada"]
  exact ⟨alike.1 "admin" "4dmin" swapped,
    alike.2 .asciiOnly "goblin.st" "goblin" [] ['.', 's', 't'] "g-0blin" kept separated⟩

end Nip05d.Names
