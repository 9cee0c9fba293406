import Nip05d.Concurrent.Program
import Mathlib.Data.List.Induction

/-!
# A pool of programs over one state

Requests arrive at any time and are handled by programs that interleave section
by section; between any two sections the environment may move the state as
well. `System.step` is the one definition for replay (`replay`) and for proof
(`Reach`, `Run`).

The soundness theorem of the rely-guarantee rules is `Reach.guarantee`: when
every handler meets its precondition and every guarantee is part of the rely,
every section that runs in a reachable configuration meets its guarantee. The
invariant rule `Reach.invariant` is the form clients use. `Served` is the
special case of requests that are handled one after the other.
-/

namespace Concurrent

/-- What arrives, what handles it, and what the environment may do. -/
structure System (S T Req Env α : Type) where
  handler : Req → Prog S T α
  env : Env → S → Option S
  init : S → Prop

/-- The history of the shared state and the requests that have arrived, each
with what is left of its handler. -/
structure Conf (S T Req α : Type) where
  hist : Hist S
  procs : List (Req × Prog S T α)

inductive Event (Req Env : Type) where
  | arrive (r : Req)
  | run (i : Nat)
  | env (e : Env)

variable {S T Req Env α : Type}

/-- Nothing has arrived yet. -/
def Conf.start (s : S) : Conf S T Req α := ⟨⟨s, []⟩, []⟩

namespace System

variable (sys : System S T Req Env α)

/-- One event: an arrival, the next section of a request, or the environment. -/
def step (c : Conf S T Req α) : Event Req Env → Option (Conf S T Req α)
  | .arrive r => some { c with procs := c.procs ++ [(r, sys.handler r)] }
  | .run i =>
    match c.procs[i]? with
    | some (r, .step _ u n) =>
      some ⟨c.hist.push (u c.hist.now), c.procs.set i (r, n c.hist.now)⟩
    | _ => none
  | .env e => (sys.env e c.hist.now).map fun s => { c with hist := c.hist.push s }

/-- Replay events; `none` when one of them cannot happen. -/
def replay (c : Conf S T Req α) : List (Event Req Env) → Option (Conf S T Req α)
  | [] => some c
  | e :: es => (sys.step c e).bind fun c' => replay c' es

end System

/-- The request whose section `.run i` runs, and the tag of that section. -/
def Conf.due (c : Conf S T Req α) (i : Nat) : Option (Req × T) :=
  c.procs[i]?.bind fun q => q.2.tag?.map (Prod.mk q.1)

theorem Conf.due_eq_some {c : Conf S T Req α} {i : Nat} {r : Req} {t : T} :
    c.due i = some (r, t) ↔ ∃ u n, c.procs[i]? = some (r, .step t u n) := by
  simp only [due, Option.bind_eq_some_iff, Option.map_eq_some_iff, Prod.mk.injEq]
  constructor
  · rintro ⟨⟨r', p⟩, found, t', tag, rfl, rfl⟩
    cases p with
    | ret a => cases tag
    | step t u n =>
      cases tag
      exact ⟨u, n, found⟩
  · rintro ⟨u, n, found⟩
    exact ⟨_, found, t, rfl, rfl, rfl⟩

/-- The section that an event runs starts in a state that satisfies `ok` with
the request and the section's tag. -/
def Conf.Meets (ok : Req → T → S → Prop) (c : Conf S T Req α) : Event Req Env → Prop
  | .run i => ∀ q ∈ c.due i, ok q.1 q.2 c.hist.now
  | _ => True

instance (ok : Req → T → S → Prop) [∀ r t s, Decidable (ok r t s)] (c : Conf S T Req α)
    (e : Event Req Env) : Decidable (c.Meets ok e) :=
  match e with
  | .arrive _ => .isTrue trivial
  | .env _ => .isTrue trivial
  | .run i => inferInstanceAs (Decidable (∀ q ∈ c.due i, ok q.1 q.2 c.hist.now))

/-- Replay events whose sections all satisfy `ok`. -/
def System.replayMeeting (sys : System S T Req Env α) (ok : Req → T → S → Prop)
    [∀ r t s, Decidable (ok r t s)] (c : Conf S T Req α) :
    List (Event Req Env) → Option (Conf S T Req α)
  | [] => some c
  | e :: es =>
    if c.Meets ok e then (sys.step c e).bind fun c' => sys.replayMeeting ok c' es else none

/-- Configurations reached by events whose sections all satisfy `ok`. -/
inductive Reach (sys : System S T Req Env α) (ok : Req → T → S → Prop) :
    Conf S T Req α → Prop where
  | start {s : S} : sys.init s → Reach sys ok (.start s)
  | step {c c' : Conf S T Req α} {e : Event Req Env} :
      Reach sys ok c → c.Meets ok e → sys.step c e = some c' → Reach sys ok c'

/-- Configurations reached by any events. -/
abbrev Reachable (sys : System S T Req Env α) : Conf S T Req α → Prop :=
  Reach sys fun _ _ _ => True

variable {sys : System S T Req Env α} {ok : Req → T → S → Prop} {c c' : Conf S T Req α}

theorem meets_true (c : Conf S T Req α) (e : Event Req Env) : c.Meets (fun _ _ _ => True) e := by
  cases e <;> simp [Conf.Meets]

theorem Reach.replayMeeting [∀ r t s, Decidable (ok r t s)] (h : Reach sys ok c)
    {es : List (Event Req Env)} (run : sys.replayMeeting ok c es = some c') : Reach sys ok c' := by
  induction es generalizing c with
  | nil => simp only [System.replayMeeting, Option.some.injEq] at run; exact run ▸ h
  | cons e es ih =>
    simp only [System.replayMeeting] at run
    split at run
    · rename_i meets
      obtain ⟨mid, next, rest⟩ := Option.bind_eq_some_iff.1 run
      exact ih (.step h meets next) rest
    · cases run

/-- What one event does: nothing to the state, a section of a request, or a
move of the environment. -/
theorem System.step_cases {e : Event Req Env} (next : sys.step c e = some c') :
    (∃ r, e = .arrive r ∧ c'.hist = c.hist ∧ c'.procs = c.procs ++ [(r, sys.handler r)]) ∨
    (∃ i r t u n, e = .run i ∧ c.procs[i]? = some (r, .step t u n) ∧
      c'.hist = c.hist.push (u c.hist.now) ∧ c'.procs = c.procs.set i (r, n c.hist.now)) ∨
    (∃ v s, e = .env v ∧ sys.env v c.hist.now = some s ∧ c'.hist = c.hist.push s ∧
      c'.procs = c.procs) := by
  cases e with
  | arrive r =>
    simp only [step, Option.some.injEq] at next
    subst next
    exact .inl ⟨r, rfl, rfl, rfl⟩
  | run i =>
    simp only [step] at next
    split at next
    · rename_i r t u n found
      simp only [Option.some.injEq] at next
      subst next
      exact .inr (.inl ⟨i, r, t, u, n, rfl, found, rfl, rfl⟩)
    · cases next
  | env v =>
    simp only [step, Option.map_eq_some_iff] at next
    obtain ⟨s, moved, rfl⟩ := next
    exact .inr (.inr ⟨v, s, rfl, moved, rfl, rfl⟩)

/-! ## Rely and guarantee -/

/-- A rely for a system and guarantees `G`: a preorder that contains the moves
of the environment and every guaranteed section. -/
structure Rely (sys : System S T Req Env α) (R : Hist S → Hist S → Prop)
    (G : Req → T → Hist S → S → Prop) : Prop where
  refl : ∀ h, R h h
  trans : ∀ {a b d}, R a b → R b d → R a d
  env : ∀ {h e s}, sys.env e h.now = some s → R h (h.push s)
  runs : ∀ {r t h s}, G r t h s → R h (h.push s)

/-- Every handler meets its guarantee under the rely, from any history; the
postcondition relates the answer to the history at the arrival. -/
def Handled (sys : System S T Req Env α) (R : Hist S → Hist S → Prop)
    (G : Req → T → Hist S → S → Prop) (Q : Req → Hist S → α → Hist S → Prop) : Prop :=
  ∀ r h, (sys.handler r).wp R (G r) (Q r h) h

variable {R : Hist S → Hist S → Prop} {G : Req → T → Hist S → S → Prop}
  {Q : Req → Hist S → α → Hist S → Prop}

/-- What is left of a handler still meets its precondition, at some earlier
point of the history that the rely connects to the present one. -/
def Pending (R : Hist S → Hist S → Prop) (G : Req → T → Hist S → S → Prop)
    (Q : Req → Hist S → α → Hist S → Prop) (c : Conf S T Req α) : Prop :=
  ∀ q ∈ c.procs, ∃ start h, R start h ∧ R h c.hist ∧ q.2.wp R (G q.1) (Q q.1 start) h

theorem Pending.later {d : Conf S T Req α} (rely : Rely sys R G) (pending : Pending R G Q c)
    (procs : ∀ q ∈ d.procs, q ∈ c.procs) (later : R c.hist d.hist) : Pending R G Q d := by
  intro q member
  obtain ⟨start, h, own, since, pre⟩ := pending q (procs q member)
  exact ⟨start, h, own, rely.trans since later, pre⟩

/-- The pool invariant: one event keeps every pending precondition, and a
section meets its guarantee. -/
theorem Pending.step {e : Event Req Env} (rely : Rely sys R G) (handled : Handled sys R G Q)
    (pending : Pending R G Q c) (next : sys.step c e = some c') :
    Pending R G Q c' ∧ ∀ i r t u n, e = .run i → c.procs[i]? = some (r, .step t u n) →
      G r t c.hist (u c.hist.now) := by
  obtain ⟨r, rfl, hist, procs⟩ | ⟨i, r, t, u, n, rfl, found, hist, procs⟩ |
    ⟨v, s, rfl, moved, hist, procs⟩ := System.step_cases next
  · refine ⟨?_, fun _ _ _ _ _ e => by cases e⟩
    intro q member
    rw [procs, List.mem_append, List.mem_singleton] at member
    rcases member with old | rfl
    · rw [hist]; exact pending q old
    · exact ⟨c'.hist, c'.hist, rely.refl _, rely.refl _, handled r _⟩
  · obtain ⟨start, h, own, since, pre⟩ := pending _ (List.mem_of_getElem? found)
    obtain ⟨meets, rest⟩ := pre c.hist since
    have later : R c.hist c'.hist := hist ▸ rely.runs meets
    constructor
    · intro q member
      rw [procs] at member
      rcases List.mem_or_eq_of_mem_set member with old | rfl
      · obtain ⟨start, h, own, since, pre⟩ := pending q old
        exact ⟨start, h, own, rely.trans since later, pre⟩
      · exact ⟨start, _, rely.trans own (rely.trans since (rely.runs meets)),
          hist ▸ rely.refl _, rest⟩
    · intro i' r' t' u' n' same found'
      cases same
      rw [found] at found'
      cases found'
      exact meets
  · refine ⟨pending.later rely (fun q => by simp [procs]) (hist ▸ rely.env moved), ?_⟩
    intro _ _ _ _ _ e
    cases e

theorem Reach.pending (rely : Rely sys R G) (handled : Handled sys R G Q)
    (h : Reach sys ok c) : Pending R G Q c := by
  induction h with
  | start _ => intro q member; cases member
  | step _ _ next ih => exact (ih.step rely handled next).1

/-- **Soundness.** A section that runs in a reachable configuration meets the
guarantee of its request. -/
theorem Reach.guarantee (rely : Rely sys R G) (handled : Handled sys R G Q)
    (h : Reach sys ok c) {i : Nat} {r : Req} {t : T} {u : S → S} {n : S → Prog S T α}
    (found : c.procs[i]? = some (r, .step t u n)) : G r t c.hist (u c.hist.now) := by
  have next : sys.step c (.run i) =
      some ⟨c.hist.push (u c.hist.now), c.procs.set i (r, n c.hist.now)⟩ := by
    simp only [System.step, found]
  exact ((h.pending rely handled).step rely handled next).2 i r t u n rfl found

/-- What one event does to the history, in a reachable configuration. -/
theorem Reach.step_hist (rely : Rely sys R G) (handled : Handled sys R G Q) (h : Reach sys ok c)
    {e : Event Req Env} (next : sys.step c e = some c') :
    c'.hist = c.hist ∨
    (∃ i r t s, e = .run i ∧ c.due i = some (r, t) ∧ G r t c.hist s ∧ c'.hist = c.hist.push s) ∨
    (∃ v s, e = .env v ∧ sys.env v c.hist.now = some s ∧ c'.hist = c.hist.push s) := by
  obtain ⟨r, rfl, hist, -⟩ | ⟨i, r, t, u, n, rfl, found, hist, -⟩ | ⟨v, s, rfl, moved, hist, -⟩ :=
    System.step_cases next
  · exact .inl hist
  · exact .inr (.inl ⟨i, r, t, _, rfl, Conf.due_eq_some.2 ⟨u, n, found⟩,
      h.guarantee rely handled found, hist⟩)
  · exact .inr (.inr ⟨v, s, rfl, moved, hist⟩)

/-- One event stays within the rely, in a reachable configuration. -/
theorem Reach.step_rely (rely : Rely sys R G) (handled : Handled sys R G Q) (h : Reach sys ok c)
    {e : Event Req Env} (next : sys.step c e = some c') : R c.hist c'.hist := by
  obtain same | ⟨i, r, t, s, -, -, guaranteed, hist⟩ | ⟨v, s, -, moved, hist⟩ :=
    h.step_hist rely handled next
  · exact same ▸ rely.refl _
  · exact hist ▸ rely.runs guaranteed
  · exact hist ▸ rely.env moved

/-- **The invariant rule.** A property of histories that holds at the start and
that the environment and every guaranteed section keep, from the configurations
that are reached, holds in all of these. -/
theorem Reach.invariant (rely : Rely sys R G) (handled : Handled sys R G Q) (I : Hist S → Prop)
    (start : ∀ s, sys.init s → I ⟨s, []⟩)
    (env : ∀ h e s, I h → sys.env e h.now = some s → I (h.push s))
    (keeps : ∀ d r t s, Reach sys ok d → I d.hist → ok r t d.hist.now → G r t d.hist s →
      I (d.hist.push s))
    (h : Reach sys ok c) : I c.hist := by
  induction h with
  | start i => exact start _ i
  | step reach meets next ih =>
    obtain same | ⟨i, r, t, s, rfl, due, guaranteed, hist⟩ | ⟨v, s, -, moved, hist⟩ :=
      reach.step_hist rely handled next
    · exact same ▸ ih
    · exact hist ▸ keeps _ r t s reach ih (meets _ due) guaranteed
    · exact hist ▸ env _ v s ih moved

/-! ## Runs -/

/-- One step of a run. -/
structure Transition (S T Req Env α : Type) where
  before : Conf S T Req α
  event : Event Req Env
  after : Conf S T Req α

/-- A run between two configurations with its transitions in order. -/
inductive Run (sys : System S T Req Env α) (c : Conf S T Req α) :
    List (Transition S T Req Env α) → Conf S T Req α → Prop where
  | nil : Run sys c [] c
  | snoc {steps : List (Transition S T Req Env α)} {d d' : Conf S T Req α} {e : Event Req Env} :
      Run sys c steps d → sys.step d e = some d' → Run sys c (steps ++ [⟨d, e, d'⟩]) d'

theorem Run.reach {steps : List (Transition S T Req Env α)} (run : Run sys c steps c')
    (reach : Reach sys ok c) (meets : ∀ s ∈ steps, s.before.Meets ok s.event) :
    Reach sys ok c' := by
  induction run with
  | nil => exact reach
  | @snoc earlier d d' e _ next ih =>
    exact .step (ih fun s member => meets s (List.mem_append_left _ member))
      (meets ⟨d, e, d'⟩ (by simp)) next

/-- A property that a run begins without and ends with appears in one of its
steps. -/
theorem Run.appears {steps : List (Transition S T Req Env α)} (run : Run sys c steps c')
    (P : Conf S T Req α → Prop) (reach : Reachable sys c) (start : ¬ P c) (end_ : P c') :
    ∃ s ∈ steps, Reachable sys s.before ∧ sys.step s.before s.event = some s.after ∧
      ¬ P s.before ∧ P s.after := by
  induction run with
  | nil => exact absurd end_ start
  | @snoc earlier d d' e first next ih =>
    by_cases already : P d
    · obtain ⟨s, member, rest⟩ := ih already
      exact ⟨s, List.mem_append_left _ member, rest⟩
    · exact ⟨⟨d, e, d'⟩, by simp, first.reach reach fun s _ => meets_true _ _, next, already, end_⟩

/-- Every step of a run is one of a reachable configuration, and what comes after
it stays within the rely. -/
theorem Run.mem {steps : List (Transition S T Req Env α)} (rely : Rely sys R G)
    (handled : Handled sys R G Q) (run : Run sys c steps c') (reach : Reach sys ok c)
    (meets : ∀ s ∈ steps, s.before.Meets ok s.event) : ∀ s ∈ steps, Reach sys ok s.before ∧
      sys.step s.before s.event = some s.after ∧ R s.after.hist c'.hist := by
  induction run with
  | nil => nofun
  | @snoc earlier d d' e first next ih =>
    have before : ∀ s ∈ earlier, s.before.Meets ok s.event :=
      fun s member => meets s (List.mem_append_left _ member)
    have reached := first.reach reach before
    intro s member
    rw [List.mem_append, List.mem_singleton] at member
    rcases member with old | rfl
    · obtain ⟨there, step, since⟩ := ih before s old
      exact ⟨there, step, rely.trans since (reached.step_rely rely handled next)⟩
    · exact ⟨reached, next, rely.refl _⟩

/-- The steps of a run follow each other. -/
theorem Run.ordered {steps : List (Transition S T Req Env α)} (rely : Rely sys R G)
    (handled : Handled sys R G Q) (run : Run sys c steps c') (reach : Reachable sys c) :
    steps.Pairwise fun s s' => R s.after.hist s'.before.hist := by
  induction run with
  | nil => exact List.Pairwise.nil
  | @snoc earlier d d' e first next ih =>
    rw [List.pairwise_append]
    refine ⟨ih, List.pairwise_singleton _ _, fun s old last same => ?_⟩
    rw [List.mem_singleton] at same
    subst same
    exact (first.mem rely handled reach (fun s _ => meets_true _ _) s old).2.2

/-- A condition on single steps is exact for a property of single steps as soon
as it is exact at each step that starts in a configuration the condition allows. -/
theorem Run.forall_iff {steps : List (Transition S T Req Env α)} (run : Run sys c steps c')
    (P : Transition S T Req Env α → Prop) (reach : Reach sys ok c)
    (exact_ : ∀ d e d', Reach sys ok d → sys.step d e = some d' →
      (P ⟨d, e, d'⟩ ↔ d.Meets ok e)) :
    (∀ s ∈ steps, P s) ↔ ∀ s ∈ steps, s.before.Meets ok s.event := by
  induction run with
  | nil => simp
  | @snoc earlier d d' e first next ih =>
    simp only [List.mem_append, List.mem_singleton, or_imp, forall_and, forall_eq, ih]
    constructor
    · rintro ⟨before, last⟩
      exact ⟨before, (exact_ d e d' (first.reach reach before) next).1 last⟩
    · rintro ⟨before, last⟩
      exact ⟨before, (exact_ d e d' (first.reach reach before) next).2 last⟩

theorem Run.cons {steps : List (Transition S T Req Env α)} {d : Conf S T Req α}
    {e : Event Req Env} (next : sys.step c e = some d) (run : Run sys d steps c') :
    Run sys c (⟨c, e, d⟩ :: steps) c' := by
  induction run with
  | nil => exact .snoc .nil next
  | snoc _ last ih => exact .snoc ih last

/-- A replay is a run. -/
theorem Run.replayMeeting [∀ r t s, Decidable (ok r t s)] {es : List (Event Req Env)}
    (replayed : sys.replayMeeting ok c es = some c') :
    ∃ steps, Run sys c steps c' ∧ steps.map Transition.event = es ∧
      ∀ s ∈ steps, s.before.Meets ok s.event := by
  induction es generalizing c with
  | nil =>
    simp only [System.replayMeeting, Option.some.injEq] at replayed
    exact ⟨[], replayed ▸ .nil, rfl, nofun⟩
  | cons e es ih =>
    simp only [System.replayMeeting] at replayed
    split at replayed
    · rename_i meets
      obtain ⟨mid, next, rest⟩ := Option.bind_eq_some_iff.1 replayed
      obtain ⟨steps, run, events, all⟩ := ih rest
      exact ⟨⟨c, e, mid⟩ :: steps, .cons next run, by rw [List.map_cons, events],
        List.forall_mem_cons.2 ⟨meets, all⟩⟩
    · cases replayed

/-- Replay events and keep the transitions. -/
def System.record (sys : System S T Req Env α) (c : Conf S T Req α) :
    List (Event Req Env) → Option (List (Transition S T Req Env α) × Conf S T Req α)
  | [] => some ([], c)
  | e :: es => (sys.step c e).bind fun d =>
    (sys.record d es).map fun q => (⟨c, e, d⟩ :: q.1, q.2)

theorem Run.record {es : List (Event Req Env)} {steps : List (Transition S T Req Env α)}
    (recorded : sys.record c es = some (steps, c')) : Run sys c steps c' := by
  induction es generalizing c steps with
  | nil =>
    cases recorded
    exact .nil
  | cons e es ih =>
    simp only [System.record, Option.bind_eq_some_iff, Option.map_eq_some_iff,
      Prod.mk.injEq] at recorded
    obtain ⟨d, next, ⟨rest, last⟩, later, rfl, rfl⟩ := recorded
    exact .cons next (ih later)

theorem record_events {es : List (Event Req Env)} {steps : List (Transition S T Req Env α)}
    (recorded : sys.record c es = some (steps, c')) : steps.map Transition.event = es := by
  induction es generalizing c steps with
  | nil =>
    cases recorded
    rfl
  | cons e es ih =>
    simp only [System.record, Option.bind_eq_some_iff, Option.map_eq_some_iff,
      Prod.mk.injEq] at recorded
    obtain ⟨d, next, ⟨rest, last⟩, later, rfl, rfl⟩ := recorded
    rw [List.map_cons, ih later]

/-! ## One request after the other -/

/-- Histories of a system that handles complete requests one after the other,
each with nothing in between, its sections satisfying `ok`. The requests are
listed in order, each with the history it was handled from. -/
inductive Serves (sys : System S T Req Env α) (ok : Req → T → S → Prop) :
    Hist S → List (Req × Hist S) → Hist S → Prop where
  | refl {h : Hist S} : Serves sys ok h [] h
  | env {h h' : Hist S} {served : List (Req × Hist S)} {e : Env} {s : S} :
      Serves sys ok h served h' → sys.env e h'.now = some s → Serves sys ok h served (h'.push s)
  | serve {h h' : Hist S} {served : List (Req × Hist S)} (r : Req) :
      Serves sys ok h served h' → (sys.handler r).Along (ok r) h' →
      Serves sys ok h (served ++ [(r, h')]) ((sys.handler r).alone h').2

/-- Handle requests and moves of the environment in order, every section
satisfying `ok`. -/
def System.serve (sys : System S T Req Env α) (ok : Req → T → S → Prop)
    [∀ r t s, Decidable (ok r t s)] (served : List (Req × Hist S)) (h : Hist S) :
    List (Req ⊕ Env) → Option (List (Req × Hist S) × Hist S)
  | [] => some (served, h)
  | .inl r :: rest =>
    if (sys.handler r).Along (ok r) h then
      sys.serve ok (served ++ [(r, h)]) ((sys.handler r).alone h).2 rest
    else none
  | .inr e :: rest => (sys.env e h.now).bind fun s => sys.serve ok served (h.push s) rest

theorem Serves.serve_run [∀ r t s, Decidable (ok r t s)] {a b d : Hist S}
    {served served' : List (Req × Hist S)} {todo : List (Req ⊕ Env)}
    (serves : Serves sys ok a served b) (run : sys.serve ok served b todo = some (served', d)) :
    Serves sys ok a served' d := by
  induction todo generalizing served b with
  | nil =>
    simp only [System.serve, Option.some.injEq, Prod.mk.injEq] at run
    exact run.1 ▸ run.2 ▸ serves
  | cons next rest ih =>
    cases next with
    | inl r =>
      simp only [System.serve] at run
      split at run
      · exact ih (.serve r serves (by assumption)) run
      · cases run
    | inr e =>
      simp only [System.serve, Option.bind_eq_some_iff] at run
      obtain ⟨s, moved, run⟩ := run
      exact ih (.env serves moved) run

/-- Histories from the start of the system. -/
def Served (sys : System S T Req Env α) (ok : Req → T → S → Prop)
    (served : List (Req × Hist S)) (h : Hist S) : Prop :=
  ∃ s, sys.init s ∧ Serves sys ok ⟨s, []⟩ served h

/-- A configuration that is reached whose last request has a program left. -/
def Left (sys : System S T Req Env α) (ok : Req → T → S → Prop) (r : Req) (p : Prog S T α)
    (h : Hist S) : Prop := ∃ procs, Reach sys ok ⟨h, procs ++ [(r, p)]⟩

theorem Left.advance {r : Req} {t : T} {u : S → S} {n : S → Prog S T α} {h : Hist S}
    (left : Left sys ok r (.step t u n) h) (allowed : ok r t h.now) :
    Left sys ok r (n h.now) (h.push (u h.now)) := by
  obtain ⟨procs, reach⟩ := left
  have found : (procs ++ [(r, Prog.step t u n)])[procs.length]? = some (r, .step t u n) := by
    simp
  have meets : Conf.Meets ok ⟨h, procs ++ [(r, .step t u n)]⟩
      (.run procs.length : Event Req Env) := by
    intro q due
    rw [Option.mem_def, Conf.due_eq_some.2 ⟨u, n, found⟩] at due
    cases due
    exact allowed
  exact ⟨procs, .step reach meets (by simp [System.step])⟩

/-- The last request of a pool can run to its end. -/
theorem Left.alone {r : Req} {p : Prog S T α} {h : Hist S} (left : Left sys ok r p h)
    (along : p.Along (ok r) h) : ∃ procs, Reach sys ok ⟨(p.alone h).2, procs⟩ := by
  induction p generalizing h with
  | ret a =>
    obtain ⟨procs, reach⟩ := left
    exact ⟨_, reach⟩
  | step t u n ih => exact ih h.now (left.advance along.1) along.2

theorem Left.arrive {h : Hist S} {procs : List (Req × Prog S T α)} (r : Req)
    (reach : Reach sys ok ⟨h, procs⟩) : Left sys ok r (sys.handler r) h := by
  have next : sys.step ⟨h, procs⟩ (.arrive r) = some ⟨h, procs ++ [(r, sys.handler r)]⟩ := rfl
  exact ⟨procs, .step reach (by trivial) next⟩

/-- **Complete requests are a special interleaving.** -/
theorem Serves.reach {a b : Hist S} {served : List (Req × Hist S)}
    (serves : Serves sys ok a served b) (start : ∃ procs, Reach sys ok ⟨a, procs⟩) :
    ∃ procs, Reach sys ok ⟨b, procs⟩ := by
  induction serves with
  | refl => exact start
  | @env h' _ e s' _ moved ih =>
    obtain ⟨procs, reach⟩ := ih
    have next : sys.step ⟨h', procs⟩ (.env e) = some ⟨h'.push s', procs⟩ := by
      simp [System.step, moved]
    exact ⟨procs, .step reach (by trivial) next⟩
  | @serve h' _ r _ along ih =>
    obtain ⟨procs, reach⟩ := ih
    exact (Left.arrive r reach).alone along

theorem Served.reach {served : List (Req × Hist S)} {h : Hist S}
    (run : Served sys ok served h) : ∃ procs, Reach sys ok ⟨h, procs⟩ := by
  obtain ⟨s, init, serves⟩ := run
  exact serves.reach ⟨[], .start init⟩

theorem Serves.mem {a b h : Hist S} {r : Req} {served : List (Req × Hist S)}
    (serves : Serves sys ok a served b) (member : (r, h) ∈ served) :
    (∃ first, Serves sys ok a first h) ∧ (sys.handler r).Along (ok r) h ∧
      ∃ second, Serves sys ok ((sys.handler r).alone h).2 second b := by
  induction serves with
  | refl => cases member
  | env _ moved ih =>
    obtain ⟨before, along, second, after⟩ := ih member
    exact ⟨before, along, second, .env after moved⟩
  | @serve h' earlier r' before along' ih =>
    rw [List.mem_append, List.mem_singleton, Prod.mk.injEq] at member
    rcases member with old | ⟨rfl, rfl⟩
    · obtain ⟨start, along, second, after⟩ := ih old
      exact ⟨start, along, _, .serve r' after along'⟩
    · exact ⟨⟨_, before⟩, along', [], .refl⟩

/-- A request that is handled alone meets its postcondition. -/
theorem Handled.answer (handled : Handled sys R G Q) (refl : ∀ h, R h h) (r : Req) (h : Hist S) :
    Q r h ((sys.handler r).alone h).1 ((sys.handler r).alone h).2 :=
  (Prog.alone_trace (fun _ _ => True) (fun _ _ => True) refl (fun _ _ _ _ _ _ => trivial)
    (fun _ _ _ _ _ _ _ _ _ => trivial) (handled r h) (Prog.along_true _ h) trivial [] trivial).2

/-- The sections of complete requests in the order in which they ran. -/
def System.sections (sys : System S T Req Env α) (served : List (Req × Hist S)) :
    List (Req × T × Hist S) :=
  served.flatMap fun q => ((sys.handler q.1).trace q.2).map (Prod.mk q.1)

/-- **The invariant rule for complete requests.** A property of the sections so
far and of the history; a handler only needs the rely that nothing happens in
between. -/
theorem Serves.invariant {a b : Hist S} {served : List (Req × Hist S)} (refl : ∀ h, R h h)
    (handled : Handled sys R G Q) (I : List (Req × T × Hist S) → Hist S → Prop)
    (env : ∀ seen h e s, I seen h → sys.env e h.now = some s → I seen (h.push s))
    (keeps : ∀ seen d r t s, Reach sys ok d → I seen d.hist → ok r t d.hist.now → G r t d.hist s →
      I (seen ++ [(r, t, d.hist)]) (d.hist.push s))
    (serves : Serves sys ok a served b) (reach : ∃ procs, Reach sys ok ⟨a, procs⟩)
    (start : I [] a) : I (sys.sections served) b := by
  induction serves with
  | refl => exact start
  | env _ moved ih => exact env _ _ _ _ ih moved
  | @serve h' earlier r before along ih =>
    obtain ⟨procs, reached⟩ := before.reach reach
    have all := Prog.alone_trace (Left sys ok r)
      (fun seen => I (sys.sections earlier ++ seen.map (Prod.mk r))) refl
      (fun t u n h left => left.advance)
      (fun seen t u n h left inv allowed meets => by
        obtain ⟨procs, reached⟩ := left
        rw [List.map_append, ← List.append_assoc]
        exact keeps _ _ r t _ reached inv allowed meets)
      (handled r _) along (.arrive r reached) []
      (by rw [List.map_nil, List.append_nil]; exact ih)
    rw [System.sections, List.flatMap_append, List.flatMap_singleton]
    exact all.1

/-- Complete requests stay within the rely. -/
theorem Serves.rely {a b : Hist S} {served : List (Req × Hist S)} (rely : Rely sys R G)
    (handled : Handled sys R G Q) (serves : Serves sys ok a served b)
    (reach : ∃ procs, Reach sys ok ⟨a, procs⟩) : R a b :=
  serves.invariant rely.refl handled (fun _ h => R a h)
    (fun _ _ _ _ since moved => rely.trans since (rely.env moved))
    (fun _ _ _ _ _ _ since _ meets => rely.trans since (rely.runs meets)) reach (rely.refl a)

/-- A complete request of a run leaves a configuration that is reached, and the
run goes on from there. -/
theorem Served.mem {h h' : Hist S} {r : Req} {served : List (Req × Hist S)}
    (run : Served sys ok served h) (member : (r, h') ∈ served) :
    ∃ second, (∃ procs, Reach sys ok ⟨((sys.handler r).alone h').2, procs⟩) ∧
      Serves sys ok ((sys.handler r).alone h').2 second h := by
  obtain ⟨s, init, serves⟩ := run
  obtain ⟨⟨first, before⟩, along, second, after⟩ := serves.mem member
  obtain ⟨procs, reach⟩ := before.reach ⟨[], .start init⟩
  exact ⟨second, (Left.arrive r reach).alone along, after⟩

end Concurrent
