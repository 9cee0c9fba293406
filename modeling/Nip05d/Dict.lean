import Mathlib.Data.List.Nodup

/-!
# Dictionaries

A finite map from strings as a list of entries with distinct keys.
-/

/-- Entries with distinct keys. -/
structure Dict (α : Type) where
  entries : List (String × α)
  nodup : (entries.map Prod.fst).Nodup

namespace Dict

variable {α : Type}

def empty : Dict α := ⟨[], List.nodup_nil⟩

def get (d : Dict α) (k : String) : Option α := (d.entries.find? (·.1 == k)).map Prod.snd

def size (d : Dict α) : Nat := d.entries.length

/-- Keep the entries that satisfy a predicate. -/
def retain (d : Dict α) (p : String → α → Bool) : Dict α :=
  ⟨d.entries.filter fun e => p e.1 e.2, d.nodup.sublist (List.filter_sublist.map _)⟩

/-- Put a value at a key. -/
def set (d : Dict α) (k : String) (v : α) : Dict α where
  entries := (k, v) :: d.entries.filter (·.1 != k)
  nodup := by
    rw [List.map_cons, List.nodup_cons]
    refine ⟨fun member => ?_, d.nodup.sublist (List.filter_sublist.map _)⟩
    obtain ⟨e, kept, same⟩ := List.mem_map.1 member
    simp [same] at kept

theorem get_eq_some {d : Dict α} {k : String} {v : α} :
    d.get k = some v ↔ (k, v) ∈ d.entries := by
  simp only [get, Option.map_eq_some_iff]
  constructor
  · rintro ⟨e, found, rfl⟩
    have key : e.1 = k := by simpa using List.find?_some found
    exact key ▸ List.mem_of_find?_eq_some found
  · intro member
    cases found : d.entries.find? (·.1 == k) with
    | none =>
      have miss := List.find?_eq_none.1 found _ member
      simp at miss
    | some e =>
      have key : e.1 = k := by simpa using List.find?_some found
      have same := List.inj_on_of_nodup_map d.nodup (List.mem_of_find?_eq_some found) member key
      exact ⟨e, rfl, by rw [same]⟩

@[simp] theorem get_empty (k : String) : (empty : Dict α).get k = none := rfl

theorem get_set (d : Dict α) (k : String) (v : α) (k' : String) :
    (d.set k v).get k' = if k = k' then some v else d.get k' := by
  apply Option.ext
  intro w
  rw [get_eq_some]
  split
  · rename_i same
    subst same
    simp [set, eq_comm]
  · rename_i differ
    rw [get_eq_some]
    simp only [set, List.mem_cons, Prod.mk.injEq, List.mem_filter, bne_iff_ne]
    constructor
    · rintro (⟨rfl, -⟩ | ⟨member, -⟩)
      · exact absurd rfl differ
      · exact member
    · intro member
      exact .inr ⟨member, fun same => differ same.symm⟩

theorem get_retain (d : Dict α) (p : String → α → Bool) (k : String) :
    (d.retain p).get k = (d.get k).filter (p k) := by
  apply Option.ext
  intro w
  rw [get_eq_some, Option.filter_eq_some_iff, get_eq_some, retain, List.mem_filter]

theorem size_retain (d : Dict α) (p : String → α → Bool) : (d.retain p).size ≤ d.size :=
  List.length_filter_le _ _

theorem size_set_le (d : Dict α) (k : String) (v : α) : (d.set k v).size ≤ d.size + 1 := by
  rw [size, set, List.length_cons]
  exact Nat.succ_le_succ (List.length_filter_le _ _)

/-- A value at a new key. -/
theorem size_set_new {d : Dict α} {k : String} (v : α) (missing : d.get k = none) :
    (d.set k v).size = d.size + 1 := by
  have others : d.entries.filter (·.1 != k) = d.entries := by
    rw [List.filter_eq_self]
    intro e member
    rw [bne_iff_ne]
    rintro rfl
    rw [get_eq_some.2 member] at missing
    cases missing
  rw [size, set, List.length_cons, others]
  rfl

end Dict
