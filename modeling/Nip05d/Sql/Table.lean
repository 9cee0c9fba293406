import Mathlib.Data.List.Pairwise

/-!
# Tables with unique indexes

A table is a list of rows in which no two rows share a value of any unique
index. An index is a partial key: rows whose key is `none` lie outside it, so
the same definition covers a primary key, a UNIQUE column and a partial unique
index (`WHERE` on the index). A statement that would break an index is refused
as a whole: `insert` and `update` answer `none` and there is no new table.
-/

namespace Sql

variable {ρ κ : Type}

/-- Two rows do not meet in an index. -/
def Apart (key : ρ → Option κ) (a b : ρ) : Prop := key a = none ∨ key a ≠ key b

instance [DecidableEq κ] (key : ρ → Option κ) (a b : ρ) : Decidable (Apart key a b) :=
  inferInstanceAs (Decidable (_ ∨ _))

theorem Apart.symm {key : ρ → Option κ} {a b : ρ} (h : Apart key a b) : Apart key b a := by
  rcases h with outside | differ
  · cases same : key b with
    | none => exact .inl same
    | some k => exact .inr (by rw [same, outside]; nofun)
  · exact .inr differ.symm

/-- No two rows meet in any of the indexes. -/
def Unique (keys : List (ρ → Option κ)) (rows : List ρ) : Prop :=
  rows.Pairwise fun a b => ∀ key ∈ keys, Apart key a b

instance [DecidableEq κ] (keys : List (ρ → Option κ)) (rows : List ρ) :
    Decidable (Unique keys rows) :=
  inferInstanceAs (Decidable (List.Pairwise _ _))

/-- Rows that satisfy the unique indexes `keys`. -/
structure Table (keys : List (ρ → Option κ)) where
  rows : List ρ
  unique : Unique keys rows

/-- Why a statement was refused. -/
inductive Error where
  | constraint
  | other
  deriving DecidableEq, Repr

/-- Rewrite the rows a WHERE clause selects. -/
def rewrite (where' : ρ → Bool) (set : ρ → ρ) (r : ρ) : ρ := if where' r then set r else r

theorem rewrite_hit {where' : ρ → Bool} {set : ρ → ρ} {r : ρ} (hit : where' r = true) :
    rewrite where' set r = set r := if_pos hit

theorem rewrite_miss {where' : ρ → Bool} {set : ρ → ρ} {r : ρ} (miss : where' r = false) :
    rewrite where' set r = r := by simp [rewrite, miss]

/-- A row after an update is a row that was hit, rewritten, or one that was
missed. -/
theorem mem_map_rewrite {where' : ρ → Bool} {set : ρ → ρ} {rows : List ρ} {r' : ρ} :
    r' ∈ rows.map (rewrite where' set) ↔
      ∃ r ∈ rows, (where' r = true ∧ r' = set r) ∨ (where' r = false ∧ r' = r) := by
  rw [List.mem_map]
  refine exists_congr fun r => and_congr_right fun _ => ?_
  cases hit : where' r with
  | true => simp [rewrite_hit hit, eq_comm]
  | false => simp [rewrite_miss hit, eq_comm]

namespace Table

variable {keys : List (ρ → Option κ)}

/-- The table with no rows. -/
def empty : Table keys := ⟨[], List.Pairwise.nil⟩

/-- The number of rows a WHERE clause selects. -/
def hits (t : Table keys) (where' : ρ → Bool) : Nat := t.rows.countP where'

/-- SELECT of one row. -/
def select (t : Table keys) (where' : ρ → Bool) : Option ρ := t.rows.find? where'

/-- An index value belongs to at most one row. -/
theorem eq_of_key (t : Table keys) (key : ρ → Option κ) (index : key ∈ keys) {a b : ρ} {k : κ}
    (ha : a ∈ t.rows) (hb : b ∈ t.rows) (ka : key a = some k) (kb : key b = some k) : a = b := by
  by_contra differ
  have : Std.Symm fun a b : ρ => ∀ key ∈ keys, Apart key a b :=
    ⟨fun _ _ apart key index => (apart key index).symm⟩
  have apart : Apart key a b := t.unique.forall ha hb differ key index
  rcases apart with outside | ne
  · rw [ka] at outside; cases outside
  · exact ne (ka.trans kb.symm)

/-- Selecting by an index value finds the row that has it. -/
theorem select_eq_some (t : Table keys) (key : ρ → Option κ) (index : key ∈ keys)
    {where' : ρ → Bool} {k : κ} (keyed : ∀ r, where' r = true → key r = some k) {row : ρ} :
    t.select where' = some row ↔ row ∈ t.rows ∧ where' row = true := by
  constructor
  · intro found
    exact ⟨List.mem_of_find?_eq_some found, List.find?_some found⟩
  · rintro ⟨member, hit⟩
    cases found : t.select where' with
    | none => exact absurd hit (by simpa using List.find?_eq_none.1 found row member)
    | some other =>
      congr 1
      exact t.eq_of_key key index (List.mem_of_find?_eq_some found) member
        (keyed other (List.find?_some found)) (keyed row hit)

theorem select_eq_none (t : Table keys) {where' : ρ → Bool} :
    t.select where' = none ↔ ∀ row ∈ t.rows, where' row = false := by
  simp [select, List.find?_eq_none]

/-- A WHERE clause on an index value hits one row or none. -/
theorem hits_eq_one (t : Table keys) (key : ρ → Option κ) (index : key ∈ keys)
    {where' : ρ → Bool} {k : κ} (keyed : ∀ r, where' r = true → key r = some k) :
    t.hits where' = 1 ↔ ∃ row ∈ t.rows, where' row = true := by
  have atMost : t.hits where' ≤ 1 := by
    unfold hits
    rw [List.countP_eq_length_filter]
    have apart := t.unique.filter where'
    match found : t.rows.filter where' with
    | [] => simp
    | [_] => simp
    | a :: b :: rest =>
      rw [found] at apart
      have ha : where' a = true := (List.mem_filter.1 (found ▸ List.mem_cons_self)).2
      have hb : where' b = true :=
        (List.mem_filter.1 (found ▸ List.mem_cons_of_mem _ List.mem_cons_self)).2
      have meet := (List.pairwise_cons.1 apart).1 b List.mem_cons_self key index
      simp [Apart, keyed a ha, keyed b hb] at meet
  have some_ : 0 < t.hits where' ↔ ∃ row ∈ t.rows, where' row = true := List.countP_pos_iff
  rw [← some_]
  omega

section

variable [DecidableEq κ]

/-- The table with the given rows, unless they break an index. -/
def ofRows (rows : List ρ) : Option (Table keys) :=
  if unique : Unique keys rows then some ⟨rows, unique⟩ else none

/-- INSERT of one row. -/
def insert (t : Table keys) (row : ρ) : Option (Table keys) := ofRows (row :: t.rows)

/-- UPDATE of the rows a WHERE clause selects. -/
def update (t : Table keys) (where' : ρ → Bool) (set : ρ → ρ) : Option (Table keys) :=
  ofRows (t.rows.map (rewrite where' set))

theorem ofRows_eq_some {rows : List ρ} {t : Table keys} : ofRows rows = some t ↔ t.rows = rows := by
  unfold ofRows
  constructor
  · intro h
    split at h
    · cases h; rfl
    · cases h
  · rintro rfl
    exact dif_pos t.unique

theorem insert_eq_some {t t' : Table keys} {row : ρ} :
    t.insert row = some t' ↔ t'.rows = row :: t.rows := ofRows_eq_some

theorem update_eq_some {t t' : Table keys} {where' : ρ → Bool} {set : ρ → ρ} :
    t.update where' set = some t' ↔ t'.rows = t.rows.map (rewrite where' set) := ofRows_eq_some

/-- A row inserted next to others shares no index value with any of them. -/
theorem insert_fresh {t t' : Table keys} {row r : ρ} (inserted : t.insert row = some t')
    (member : r ∈ t.rows) (key : ρ → Option κ) (index : key ∈ keys) {k : κ}
    (here : key row = some k) : key r ≠ some k := by
  have unique := t'.unique
  rw [insert_eq_some.1 inserted] at unique
  rcases (List.pairwise_cons.1 unique).1 r member key index with outside | ne
  · rw [here] at outside; cases outside
  · exact fun there => ne (here.trans there.symm)

/-- A row that meets no other in any index is inserted. -/
theorem insert_works (t : Table keys) (row : ρ)
    (apart : ∀ r ∈ t.rows, ∀ key ∈ keys, Apart key row r) : ∃ t', t.insert row = some t' := by
  have unique : Unique keys (row :: t.rows) := List.pairwise_cons.2 ⟨apart, t.unique⟩
  exact ⟨⟨_, unique⟩, insert_eq_some.2 rfl⟩

/-- An update of the row of one index value is not refused when the new row
meets no other in any index. -/
theorem update_works (t : Table keys) (key : ρ → Option κ) (index : key ∈ keys)
    {where' : ρ → Bool} (set : ρ → ρ) {k : κ} (keyed : ∀ r, where' r = true → key r = some k)
    (apart : ∀ a ∈ t.rows, ∀ b ∈ t.rows, where' a = true → where' b = false →
      ∀ key ∈ keys, Apart key (set a) b) : ∃ t', t.update where' set = some t' := by
  have unique : Unique keys (t.rows.map (rewrite where' set)) := by
    refine List.pairwise_map.2 (t.unique.imp_of_mem ?_)
    intro a b ha hb old key' index'
    cases hitA : where' a with
    | true =>
      cases hitB : where' b with
      | true =>
        rcases old key index with outside | differ
        · rw [keyed a hitA] at outside
          cases outside
        · exact absurd ((keyed a hitA).trans (keyed b hitB).symm) differ
      | false =>
        rw [rewrite_hit hitA, rewrite_miss hitB]
        exact apart a ha b hb hitA hitB key' index'
    | false =>
      rw [rewrite_miss hitA]
      cases hitB : where' b with
      | true =>
        rw [rewrite_hit hitB]
        exact (apart b hb a ha hitB hitA key' index').symm
      | false =>
        rw [rewrite_miss hitB]
        exact old key' index'
  exact ⟨⟨_, unique⟩, update_eq_some.2 rfl⟩

/-- An update that keeps index values or takes rows out of an index is never
refused. -/
theorem update_of_keys (t : Table keys) (where' : ρ → Bool) (set : ρ → ρ)
    (same : ∀ key ∈ keys, ∀ r, key (set r) = none ∨ key (set r) = key r) :
    ∃ t', t.update where' set = some t' := by
  have keep : ∀ key ∈ keys, ∀ r,
      key (rewrite where' set r) = none ∨ key (rewrite where' set r) = key r := by
    intro key index r
    cases hit : where' r with
    | true => rw [rewrite_hit hit]; exact same key index r
    | false => rw [rewrite_miss hit]; exact .inr rfl
  have unique : Unique keys (t.rows.map (rewrite where' set)) := by
    refine List.pairwise_map.2 (t.unique.imp ?_)
    intro a b apart key index
    by_cases outside : key (rewrite where' set a) = none
    · exact .inl outside
    · right
      intro meet
      have keptA := (keep key index a).resolve_left outside
      have keptB := (keep key index b).resolve_left (meet ▸ outside)
      rcases apart key index with none_ | differ
      · exact outside (keptA.trans none_)
      · exact differ (keptA.symm.trans (meet.trans keptB))
  exact ⟨⟨_, unique⟩, update_eq_some.2 rfl⟩

end

end Table

end Sql
