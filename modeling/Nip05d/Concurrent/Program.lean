import Mathlib.Logic.Relation

/-!
# Programs of atomic sections

A request handler that shares its state with other handlers is a resumption: it
either has its answer, or runs one atomic section on the shared state and goes
on from what the section saw. The section carries a tag that names what it
does, so that a schedule can be described by the sections about to run.

The weakest precondition `wp` is rely-guarantee: before every section the
history may grow by a rely `R`, every section meets a guarantee `G` of its tag,
and the answer meets the postcondition. It speaks about histories, so that a
guarantee can say what an earlier state of the same run looked like.
-/

namespace Concurrent

/-- A program over the shared state `S` with section tags `T` and answers `α`. -/
inductive Prog (S T α : Type) : Type where
  | ret (answer : α)
  | step (tag : T) (update : S → S) (next : S → Prog S T α)

/-- The states a run has gone through: the present one and the earlier ones,
the latest first. -/
structure Hist (S : Type) where
  now : S
  past : List S

variable {S T α β : Type}

namespace Hist

/-- The history after a section or the environment has moved the state. -/
def push (h : Hist S) (s : S) : Hist S := ⟨s, h.now :: h.past⟩

/-- All states of the history, the present one first. -/
def states (h : Hist S) : List S := h.now :: h.past

@[simp] theorem push_now (h : Hist S) (s : S) : (h.push s).now = s := rfl

@[simp] theorem states_push (h : Hist S) (s : S) : (h.push s).states = s :: h.states := rfl

theorem now_mem (h : Hist S) : h.now ∈ h.states := List.mem_cons_self

/-- Every state of a history is a state of any history that extends it. -/
theorem mem_of_suffix {h h' : Hist S} (suffix : h.states <:+ h'.states) {s : S}
    (member : s ∈ h.states) : s ∈ h'.states := suffix.subset member

end Hist

namespace Prog

/-- Continue with the answer of a program. -/
def bind : Prog S T α → (α → Prog S T β) → Prog S T β
  | .ret a, k => k a
  | .step t u n, k => .step t u fun s => (n s).bind k

instance : Monad (Prog S T) where
  pure := .ret
  bind := bind

/-- One atomic section: an answer and a new state from the present state. -/
def atomic (tag : T) (f : S → α × S) : Prog S T α :=
  .step tag (fun s => (f s).2) fun s => .ret (f s).1

/-- One atomic section that only looks at the state. -/
def observe (tag : T) (f : S → α) : Prog S T α := .step tag id fun s => .ret (f s)

/-- The tag of the section a program runs next. -/
def tag? : Prog S T α → Option T
  | .ret _ => none
  | .step t _ _ => some t

/-- The answer of a finished program. -/
def answer? : Prog S T α → Option α
  | .ret a => some a
  | .step .. => none

/-- A program that has its answer is finished. -/
theorem ret_of_answer {p : Prog S T α} {a : α} (answer : p.answer? = some a) : p = .ret a := by
  cases p with
  | ret b =>
    cases answer
    rfl
  | step => cases answer

/-- Rely-guarantee weakest precondition. -/
def wp (R : Hist S → Hist S → Prop) (G : T → Hist S → S → Prop) :
    Prog S T α → (α → Hist S → Prop) → Hist S → Prop
  | .ret a, Q, h => Q a h
  | .step t u n, Q, h =>
    ∀ h', R h h' → G t h' (u h'.now) ∧ wp R G (n h'.now) Q (h'.push (u h'.now))

variable {R : Hist S → Hist S → Prop} {G : T → Hist S → S → Prop}

/-- The precondition of a sequence, by induction on the first program. -/
theorem wp_bind (p : Prog S T α) (k : α → Prog S T β) (Q : β → Hist S → Prop) (h : Hist S) :
    wp R G (p >>= k) Q h ↔ wp R G p (fun a h' => wp R G (k a) Q h') h := by
  change wp R G (p.bind k) Q h ↔ _
  induction p generalizing h with
  | ret a => exact Iff.rfl
  | step t u n ih =>
    simp only [bind, wp]
    constructor
    · intro pre h' interfered
      exact ⟨(pre h' interfered).1, (ih _ _).1 (pre h' interfered).2⟩
    · intro pre h' interfered
      exact ⟨(pre h' interfered).1, (ih _ _).2 (pre h' interfered).2⟩

theorem wp_atomic (tag : T) (f : S → α × S) (Q : α → Hist S → Prop) (h : Hist S) :
    wp R G (atomic tag f) Q h ↔
      ∀ h', R h h' → G tag h' (f h'.now).2 ∧ Q (f h'.now).1 (h'.push (f h'.now).2) := Iff.rfl

theorem wp_observe (tag : T) (f : S → α) (Q : α → Hist S → Prop) (h : Hist S) :
    wp R G (observe tag f) Q h ↔
      ∀ h', R h h' → G tag h' h'.now ∧ Q (f h'.now) (h'.push h'.now) := Iff.rfl

/-! ## A program on its own -/

/-- Run a program to its end with nothing in between. -/
def alone : Prog S T α → Hist S → α × Hist S
  | .ret a, h => (a, h)
  | .step _ u n, h => (n h.now).alone (h.push (u h.now))

/-- Every section of a program run on its own starts in a state that satisfies
`ok` with its tag. -/
def Along (ok : T → S → Prop) : Prog S T α → Hist S → Prop
  | .ret _, _ => True
  | .step t u n, h => ok t h.now ∧ (n h.now).Along ok (h.push (u h.now))

instance Along.decidable (ok : T → S → Prop) [∀ t s, Decidable (ok t s)] :
    (p : Prog S T α) → (h : Hist S) → Decidable (p.Along ok h)
  | .ret _, _ => .isTrue trivial
  | .step t u n, h =>
    have := Along.decidable ok (n h.now) (h.push (u h.now))
    inferInstanceAs (Decidable (ok t h.now ∧ (n h.now).Along ok (h.push (u h.now))))

theorem alone_bind (p : Prog S T α) (k : α → Prog S T β) (h : Hist S) :
    (p >>= k).alone h = (k (p.alone h).1).alone (p.alone h).2 := by
  change (p.bind k).alone h = _
  induction p generalizing h with
  | ret a => rfl
  | step t u n ih => exact ih _ _

theorem along_true (p : Prog S T α) (h : Hist S) : p.Along (fun _ _ => True) h := by
  induction p generalizing h with
  | ret a => trivial
  | step t u n ih => exact ⟨trivial, ih _ _⟩

/-- The sections that a program on its own goes through, each with the history
it starts from. -/
def trace : Prog S T α → Hist S → List (T × Hist S)
  | .ret _, _ => []
  | .step t u n, h => (t, h) :: (n h.now).trace (h.push (u h.now))

/-- A program run on its own keeps what its sections keep about the sections so
far, and its answer meets the postcondition. `K` follows what is left of the
program. Only the reflexive instance of the rely is used. -/
theorem alone_trace {p : Prog S T α} {Q : α → Hist S → Prop} {h : Hist S} {ok : T → S → Prop}
    (K : Prog S T α → Hist S → Prop) (I : List (T × Hist S) → Hist S → Prop) (refl : ∀ h, R h h)
    (advance : ∀ t u n h, K (.step t u n) h → ok t h.now → K (n h.now) (h.push (u h.now)))
    (keeps : ∀ seen t u n h, K (.step t u n) h → I seen h → ok t h.now → G t h (u h.now) →
      I (seen ++ [(t, h)]) (h.push (u h.now)))
    (pre : wp R G p Q h) (along : p.Along ok h) (known : K p h) (seen : List (T × Hist S))
    (inv : I seen h) : I (seen ++ p.trace h) (p.alone h).2 ∧ Q (p.alone h).1 (p.alone h).2 := by
  induction p generalizing h seen with
  | ret a =>
    rw [trace, List.append_nil]
    exact ⟨inv, pre⟩
  | step t u n ih =>
    obtain ⟨meets, rest⟩ := pre h (refl h)
    rw [trace, List.append_cons]
    exact ih _ rest along.2 (advance t u n h known along.1) _
      (keeps seen t u n h known inv along.1 meets)

end Prog

end Concurrent
