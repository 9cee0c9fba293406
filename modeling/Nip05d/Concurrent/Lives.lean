import Nip05d.Concurrent.Paths

/-!
# Lives of a system

A system runs until its process ends, at any point of a run, and is started
again, with other parameters, from what the restart leaves of its state; the
programs that were under way are gone. `Deployment.Lives` are such lives in a
row. A property of all steps so far, of all lives, is proved by one induction
(`Lives.invariant`): a restart keeps it, and a step of any life keeps it.

A life starts from any state, so the rely-guarantee rules are used on the
system that starts there (`System.rooted`).
-/

namespace Concurrent

variable {A S T Req Env α : Type}

namespace System

/-- The system, started from a given state. -/
def rooted (sys : System S T Req Env α) (s : S) : System S T Req Env α :=
  { sys with init := (· = s) }

variable {sys : System S T Req Env α} {s : S} {R : Hist S → Hist S → Prop}
  {G : Req → T → Hist S → S → Prop} {Q : Req → Hist S → α → Hist S → Prop}

/-- What may happen does not depend on the start. -/
theorem rooted_rely (rely : Rely sys R G) : Rely (sys.rooted s) R G :=
  ⟨rely.refl, rely.trans, rely.env, rely.runs⟩

/-- What handles a request does not depend on the start. -/
theorem rooted_handled (handled : Handled sys R G Q) : Handled (sys.rooted s) R G Q := handled

/-- A run reaches its configurations from where it starts. -/
theorem rooted_reach {c : Conf S T Req α} {steps : List (Transition S T Req Env α)}
    (run : Run sys (.start s) steps c) : Reachable (sys.rooted s) c := by
  induction run with
  | nil => exact .start rfl
  | snoc _ next ih => exact .step ih (meets_true _ _) next

end System

/-- The systems of a process with its parameters, the state before anything has
run, and what a restart leaves. -/
structure Deployment (A S T Req Env α : Type) where
  system : A → System S T Req Env α
  blank : S → Prop
  restart : A → S → S → Prop

/-- One life: its parameters, its run, and where it ends. -/
structure Life (A S T Req Env α : Type) where
  params : A
  start : S
  steps : List (Transition S T Req Env α)
  last : Conf S T Req α

/-- A step of a life, with the number of the life. -/
structure Entry (A S T Req Env α : Type) where
  life : Nat
  params : A
  step : Transition S T Req Env α

/-- The steps of a life. -/
def Life.entries (life : Life A S T Req Env α) (n : Nat) : List (Entry A S T Req Env α) :=
  life.steps.map fun s => ⟨n, life.params, s⟩

/-- The steps of all lives, in order. -/
def entries (lives : List (Life A S T Req Env α)) : List (Entry A S T Req Env α) :=
  lives.zipIdx.flatMap fun q => q.1.entries q.2

/-- Lives in a row, and the state that they leave. -/
inductive Deployment.Lives (dep : Deployment A S T Req Env α) :
    List (Life A S T Req Env α) → S → Prop where
  | blank {s : S} : dep.blank s → Lives dep [] s
  | life {earlier : List (Life A S T Req Env α)} {s s' : S} {a : A}
      {steps : List (Transition S T Req Env α)} {c : Conf S T Req α} :
      Lives dep earlier s → dep.restart a s s' → Run (dep.system a) (.start s') steps c →
      Lives dep (earlier ++ [⟨a, s', steps, c⟩]) c.hist.now

theorem entries_snoc (lives : List (Life A S T Req Env α)) (life : Life A S T Req Env α) :
    entries (lives ++ [life]) = entries lives ++ life.entries lives.length := by
  simp [entries, List.zipIdx_append]

theorem mem_entries {lives : List (Life A S T Req Env α)} {e : Entry A S T Req Env α} :
    e ∈ entries lives ↔ ∃ life, lives[e.life]? = some life ∧ e.params = life.params ∧
      e.step ∈ life.steps := by
  simp only [entries, List.mem_flatMap, Life.entries, List.mem_map, Prod.exists,
    List.mem_zipIdx_iff_getElem?]
  constructor
  · rintro ⟨life, n, found, s, member, rfl⟩
    exact ⟨life, found, rfl, member⟩
  · rintro ⟨life, found, params, member⟩
    exact ⟨life, e.life, found, e.step, member, by rw [← params]⟩

variable {dep : Deployment A S T Req Env α} {lives : List (Life A S T Req Env α)} {s : S}

/-- **The invariant rule for lives.** -/
theorem Deployment.Lives.invariant (run : dep.Lives lives s)
    (J : List (Entry A S T Req Env α) → S → Prop) (blank : ∀ s, dep.blank s → J [] s)
    (restart : ∀ log a s s', J log s → dep.restart a s s' → J log s')
    (keeps : ∀ log n a s c e c', J log c.hist.now → Reachable ((dep.system a).rooted s) c →
      (dep.system a).step c e = some c' → J (log ++ [⟨n, a, ⟨c, e, c'⟩⟩]) c'.hist.now) :
    J (entries lives) s := by
  induction run with
  | blank start => exact blank _ start
  | @life earlier s s' a steps c _ again run ih =>
    rw [entries_snoc]
    have from_ := restart _ a s s' ih again
    clear ih
    induction run with
    | nil => simpa [Life.entries, Conf.start] using from_
    | @snoc steps d d' e first next ih =>
      have kept := keeps _ earlier.length a s' d e d' ih (System.rooted_reach first) next
      simpa [Life.entries] using kept

/-- Every life is a run from what was left to it. -/
theorem Deployment.Lives.run_mem (run : dep.Lives lives s) {n : Nat}
    {life : Life A S T Req Env α} (found : lives[n]? = some life) :
    Run (dep.system life.params) (.start life.start) life.steps life.last := by
  induction run with
  | blank => simp at found
  | @life earlier s s' a steps c _ _ here ih =>
    rcases Nat.lt_trichotomy n earlier.length with before | rfl | after
    · rw [List.getElem?_append_left before] at found
      exact ih found
    · rw [List.getElem?_append_right (Nat.le_refl _), Nat.sub_self, List.getElem?_cons_zero,
        Option.some.injEq] at found
      exact found ▸ here
    · rw [List.getElem?_eq_none (by simp; omega)] at found
      cases found

end Concurrent
