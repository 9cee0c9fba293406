import Mathlib.Data.List.Basic
import Mathlib.Logic.Function.Basic

/-!
# Registers of exclusive holdings

A register says who holds which name; nobody holds two. It changes by moves:
each finds its name with one holder and leaves it with another. What a log of
moves says about one name is a chain of custody (`Replayed.linked`): every move
finds the name where the one before left it. So a name is granted again only
after it was freed (`Replayed.freed_between`), and a holder is given a name again
only after it lost the one it had (`Replayed.lost_between`).
-/

/-- Who holds which name, with at most one name for a holder. -/
structure Registry (N K : Type) where
  holder : N → Option K
  single : ∀ {m n k}, holder m = some k → holder n = some k → m = n

namespace Registry

variable {N K : Type}

/-- Nobody holds a name. -/
def empty : Registry N K where
  holder _ := none
  single held := by cases held

theorem ext_holder {a b : Registry N K} (same : a.holder = b.holder) : a = b := by
  cases a
  cases b
  cases same
  rfl

/-- One name goes from a holder to another; `none` is nobody. -/
structure Move (N K : Type) where
  name : N
  source : Option K
  target : Option K
  deriving DecidableEq

/-- The name is where the move finds it, and who gets it holds no other. -/
structure Move.Allowed (m : Move N K) (r : Registry N K) : Prop where
  source : r.holder m.name = m.source
  single : ∀ k, m.target = some k → ∀ n, r.holder n = some k → n = m.name

/-- The moves of one name link up from a holder to a holder. -/
def Linked (start : Option K) : List (Move N K) → Option K → Prop
  | [], last => start = last
  | m :: later, last => m.source = start ∧ Linked m.target later last

theorem Linked.append {start last : Option K} {xs ys : List (Move N K)}
    (linked : Linked start (xs ++ ys) last) : ∃ mid, Linked start xs mid ∧ Linked mid ys last := by
  induction xs generalizing start with
  | nil => exact ⟨start, rfl, linked⟩
  | cons x xs ih =>
    obtain ⟨mid, first, second⟩ := ih linked.2
    exact ⟨mid, ⟨linked.1, first⟩, second⟩

/-- A name that somebody held and nobody holds was freed. -/
theorem Linked.freed {start : Option K} {moves : List (Move N K)}
    (linked : Linked start moves none) (held : start ≠ none) :
    ∃ f ∈ moves, f.source ≠ none ∧ f.target = none := by
  induction moves generalizing start with
  | nil => exact absurd linked held
  | cons m later ih =>
    cases left : m.target with
    | none => exact ⟨m, List.mem_cons_self, linked.1 ▸ held, left⟩
    | some k =>
      obtain ⟨f, member, freed⟩ := ih linked.2 (by rw [left]; exact Option.some_ne_none k)
      exact ⟨f, List.mem_cons_of_mem _ member, freed⟩

variable [DecidableEq N]

/-- The register after a move. -/
def move (r : Registry N K) (m : Move N K) (allowed : m.Allowed r) : Registry N K where
  holder := Function.update r.holder m.name m.target
  single := by
    intro a b k first second
    by_cases hereA : a = m.name
    · by_cases hereB : b = m.name
      · rw [hereA, hereB]
      · subst hereA
        rw [Function.update_self] at first
        rw [Function.update_of_ne hereB] at second
        exact absurd (allowed.single k first b second) hereB
    · rw [Function.update_of_ne hereA] at first
      by_cases hereB : b = m.name
      · subst hereB
        rw [Function.update_self] at second
        exact absurd (allowed.single k second a first) hereA
      · rw [Function.update_of_ne hereB] at second
        exact r.single first second

@[simp] theorem move_holder (r : Registry N K) (m : Move N K) (allowed : m.Allowed r) :
    (r.move m allowed).holder = Function.update r.holder m.name m.target := rfl

/-- A register that differs in the target of one name comes from an allowed
move. -/
theorem moved {r r' : Registry N K} {m : Move N K} (source : r.holder m.name = m.source)
    (after : r'.holder = Function.update r.holder m.name m.target) :
    ∃ allowed : m.Allowed r, r' = r.move m allowed := by
  refine ⟨⟨source, fun k target n held => ?_⟩, ext_holder after⟩
  by_contra other
  have here : r'.holder m.name = some k := by rw [after, Function.update_self, target]
  have there : r'.holder n = some k := by rw [after, Function.update_of_ne other, held]
  exact other (r'.single there here)

/-- A log of moves leads from one register to another. -/
inductive Replayed : Registry N K → List (Move N K) → Registry N K → Prop where
  | nil {r : Registry N K} : Replayed r [] r
  | cons {r r' : Registry N K} {m : Move N K} {log : List (Move N K)} (allowed : m.Allowed r) :
      Replayed (r.move m allowed) log r' → Replayed r (m :: log) r'

namespace Replayed

variable {a b c : Registry N K} {m x y : Move N K} {log xs ys first between later : List (Move N K)}

theorem snoc (ran : Replayed a log b) (allowed : m.Allowed b) :
    Replayed a (log ++ [m]) (b.move m allowed) := by
  induction ran with
  | nil => exact .cons allowed .nil
  | cons here _ ih => exact .cons here (ih allowed)

theorem of_append (ran : Replayed a (xs ++ ys) c) : ∃ b, Replayed a xs b ∧ Replayed b ys c := by
  induction xs generalizing a with
  | nil => exact ⟨a, .nil, ran⟩
  | cons x xs ih =>
    cases ran with
    | cons allowed rest =>
      obtain ⟨b, start, last⟩ := ih rest
      exact ⟨b, .cons allowed start, last⟩

/-- **A name's moves are a chain of custody.** -/
theorem linked (ran : Replayed a log b) (n : N) :
    Linked (a.holder n) (log.filter (·.name = n)) (b.holder n) := by
  induction ran with
  | nil => exact rfl
  | @cons r r' m log allowed _ ih =>
    by_cases here : m.name = n
    · subst here
      rw [List.filter_cons_of_pos (by simp)]
      refine ⟨allowed.source.symm, ?_⟩
      rwa [move_holder, Function.update_self] at ih
    · rw [List.filter_cons_of_neg (by simp [here])]
      rwa [move_holder, Function.update_of_ne (Ne.symm here)] at ih

/-- Who holds a name keeps it until it is taken. -/
theorem keeps (ran : Replayed a log b) {n : N} {k : K} (held : a.holder n = some k)
    (kept : ∀ m ∈ log, m.source ≠ some k) : b.holder n = some k := by
  induction ran with
  | nil => exact held
  | @cons r r' m log allowed _ ih =>
    rw [List.forall_mem_cons] at kept
    refine ih ?_ kept.2
    have other : n ≠ m.name := by
      rintro rfl
      exact kept.1 (allowed.source.symm.trans held)
    rw [move_holder, Function.update_of_ne other]
    exact held

/-- Between two grants of a name it is freed. -/
theorem freed_between (ran : Replayed a (first ++ x :: (between ++ y :: later)) b)
    (same : x.name = y.name) (given : x.target ≠ none) (granted : y.source = none) :
    ∃ f ∈ between, f.name = x.name ∧ f.source ≠ none ∧ f.target = none := by
  have linked := ran.linked x.name
  rw [List.filter_append, List.filter_cons_of_pos (by simp), List.filter_append,
    List.filter_cons_of_pos (by simp [same])] at linked
  obtain ⟨_, -, -, linked⟩ := linked.append
  obtain ⟨mid, middle, found, -⟩ := linked.append
  rw [granted] at found
  subst found
  obtain ⟨f, member, freed⟩ := middle.freed given
  rw [List.mem_filter, decide_eq_true_eq] at member
  exact ⟨f, member.1, member.2, freed⟩

/-- Between two moves to a holder it loses a name, or the second gives it what
it has. -/
theorem lost_between {k : K} (ran : Replayed a (first ++ x :: (between ++ y :: later)) b)
    (given : x.target = some k) (again : y.target = some k) :
    (∃ f ∈ between, f.source = some k) ∨ y.source = some k := by
  by_cases lost : ∃ f ∈ between, f.source = some k
  · exact .inl lost
  refine .inr ?_
  obtain ⟨r, -, ran⟩ := ran.of_append
  cases ran with
  | cons allowed ran =>
    obtain ⟨r', middle, ran⟩ := ran.of_append
    have held : (r.move x allowed).holder x.name = some k := by
      rw [move_holder, Function.update_self, given]
    have still := middle.keeps held fun f member source => lost ⟨f, member, source⟩
    cases ran with
    | cons allowed' _ =>
      have same := allowed'.single k again x.name still
      rw [← allowed'.source, ← same]
      exact still

end Replayed

end Registry
