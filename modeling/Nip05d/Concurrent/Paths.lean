import Nip05d.Concurrent.Pool

/-!
# The sections of one process

Between two sections of a process anything may happen, so what holds of its
sections is what holds on every path of its program: `Prog.Paths` follows the
sections that the program has run, with the state that each of them saw. In a
run of the system the sections of a process are a path of its program
(`Run.paths`, `Run.paths_start`).
-/

namespace Concurrent

variable {S T Req Env α β : Type}

namespace Prog

/-- On every path, the sections so far allow the next one and the answer. -/
def Paths (due : List (T × S) → T → Prop) (done : List (T × S) → α → Prop) :
    Prog S T α → List (T × S) → Prop
  | .ret a, seen => done seen a
  | .step t _ n, seen => due seen t ∧ ∀ s, (n s).Paths due done (seen ++ [(t, s)])

variable {due : List (T × S) → T → Prop} {done done' : List (T × S) → α → Prop}
  {seen : List (T × S)}

theorem paths_trivial (p : Prog S T α) (holds : ∀ seen a, done seen a) :
    p.Paths (fun _ _ => True) done seen := by
  induction p generalizing seen with
  | ret a => exact holds seen a
  | step t u n ih => exact ⟨trivial, fun s => ih s⟩

theorem Paths.mono {p : Prog S T α} (paths : p.Paths due done seen)
    (weaker : ∀ seen a, done seen a → done' seen a) : p.Paths due done' seen := by
  induction p generalizing seen with
  | ret a => exact weaker seen a paths
  | step t u n ih => exact ⟨paths.1, fun s => ih s (paths.2 s)⟩

/-- What was seen at some point of a program stays seen. -/
theorem Paths.kept {p : Prog S T α}
    (paths : p.Paths due (fun later a => seen <+: later → done later a) seen) :
    p.Paths due done seen := by
  have kept : ∀ later, seen <+: later →
      p.Paths due (fun later a => seen <+: later → done later a) later →
      p.Paths due done later := by
    clear paths
    induction p with
    | ret a => exact fun later before answered => answered before
    | step t u n ih =>
      intro later before paths
      exact ⟨paths.1, fun s => ih s _ (before.trans (List.prefix_append _ _)) (paths.2 s)⟩
  exact kept seen List.prefix_rfl paths

/-- A program that runs on its own runs one of its paths. -/
theorem Paths.alone {p : Prog S T α} (paths : p.Paths due done seen) (h : Hist S) :
    done (seen ++ (p.trace h).map fun q => (q.1, q.2.now)) (p.alone h).1 := by
  induction p generalizing seen h with
  | ret a => rwa [trace, List.map_nil, List.append_nil]
  | step t u n ih =>
    rw [trace, List.map_cons, List.append_cons]
    exact ih _ (paths.2 h.now) _

end Prog

/-! ## Runs -/

variable {sys : System S T Req Env α} {c c' : Conf S T Req α} {i : Nat} {r : Req}
  {steps : List (Transition S T Req Env α)}

/-- The section of a process that a step runs, with the state it runs on. -/
def Transition.ran (i : Nat) (s : Transition S T Req Env α) : Option (T × S) :=
  match s.event with
  | .run j => if j = i then (s.before.due i).map fun q => (q.2, s.before.hist.now) else none
  | _ => none

theorem Transition.ran_eq_some {s : Transition S T Req Env α} {t : T} {w : S} :
    s.ran i = some (t, w) ↔
      s.event = .run i ∧ (∃ r, s.before.due i = some (r, t)) ∧ s.before.hist.now = w := by
  unfold ran
  split
  · rename_i j event
    rw [event]
    by_cases same : j = i
    · subst same
      simp [and_comm]
    · simp [same]
  · rename_i other
    refine ⟨nofun, fun ⟨event, _⟩ => absurd event (other i)⟩

/-- The sections that a process has run. -/
def own (i : Nat) (steps : List (Transition S T Req Env α)) : List (T × S) :=
  steps.filterMap (Transition.ran i)

theorem mem_own {t : T} {w : S} : (t, w) ∈ own i steps ↔ ∃ s ∈ steps, s.event = .run i ∧
    (∃ r, s.before.due i = some (r, t)) ∧ s.before.hist.now = w := by
  simp only [own, List.mem_filterMap, Transition.ran_eq_some]

/-- Two sections of a process are run by two steps, in their order. -/
theorem own_pair {q₀ q : T × S} (pair : [q₀, q].Sublist (own i steps)) :
    ∃ s₀ s, [s₀, s].Sublist steps ∧ s₀.event = .run i ∧ s.event = .run i ∧
      s₀.before.hist.now = q₀.2 ∧ s.before.hist.now = q.2 := by
  obtain ⟨first, second, split, member₀, member⟩ := List.cons_sublist_iff.1 pair
  obtain ⟨steps₀, steps', rfl, rfl, rfl⟩ := List.filterMap_eq_append_iff.1 split
  obtain ⟨s₀, earlier, event₀, -, now₀⟩ := mem_own.1 member₀
  obtain ⟨s, later, event, -, now⟩ := mem_own.1 (List.singleton_sublist.1 member)
  exact ⟨s₀, s, (List.singleton_sublist.2 earlier).append (List.singleton_sublist.2 later),
    event₀, event, now₀, now⟩

theorem own_append (first second : List (Transition S T Req Env α)) :
    own i (first ++ second) = own i first ++ own i second := List.filterMap_append

theorem own_snoc (s : Transition S T Req Env α) :
    own i (steps ++ [s]) = own i steps ++ (s.ran i).toList := by
  rw [own_append]
  cases ran : s.ran i <;> simp [own, ran]

/-- A step runs the next section of a process, or leaves the process alone. -/
theorem System.step_proc {e : Event Req Env} {p : Prog S T α} (next : sys.step c e = some c')
    (found : c.procs[i]? = some (r, p)) :
    (Transition.ran i ⟨c, e, c'⟩ = none ∧ c'.procs[i]? = some (r, p)) ∨
      ∃ t u n, p = .step t u n ∧ Transition.ran i ⟨c, e, c'⟩ = some (t, c.hist.now) ∧
        c'.procs[i]? = some (r, n c.hist.now) := by
  have bound : i < c.procs.length := (List.getElem?_eq_some_iff.1 found).1
  obtain ⟨r', rfl, -, procs⟩ | ⟨j, r', t, u, n, rfl, there, -, procs⟩ | ⟨v, s, rfl, -, -, procs⟩ :=
    System.step_cases next
  · refine .inl ⟨rfl, ?_⟩
    rw [procs, List.getElem?_append_left bound]
    exact found
  · by_cases same : j = i
    · subst same
      rw [there] at found
      cases found
      refine .inr ⟨t, u, n, rfl, Transition.ran_eq_some.2 ⟨rfl, ?_, rfl⟩, ?_⟩
      · exact ⟨r, Conf.due_eq_some.2 ⟨u, n, there⟩⟩
      · rw [procs, List.getElem?_set_self bound]
    · refine .inl ⟨by simp [Transition.ran, same], ?_⟩
      rw [procs, List.getElem?_set_ne same]
      exact found
  · exact .inl ⟨rfl, procs ▸ found⟩

/-- A process that a step adds is what handles its request. -/
theorem System.step_new {e : Event Req Env} (next : sys.step c e = some c')
    (missing : c.procs[i]? = none) : Transition.ran i ⟨c, e, c'⟩ = none ∧
      ∀ r q, c'.procs[i]? = some (r, q) → q = sys.handler r := by
  have bound : c.procs.length ≤ i := List.getElem?_eq_none_iff.1 missing
  obtain ⟨r', rfl, -, procs⟩ | ⟨j, r', t, u, n, rfl, there, -, procs⟩ | ⟨v, s, rfl, -, -, procs⟩ :=
    System.step_cases next
  · refine ⟨rfl, fun r q found => ?_⟩
    rw [procs, List.getElem?_append_right bound] at found
    have member := List.mem_of_getElem? found
    rw [List.mem_singleton] at member
    cases member
    rfl
  · have apart : j ≠ i := by
      rintro rfl
      rw [missing] at there
      cases there
    refine ⟨by simp [Transition.ran, apart], fun r q found => ?_⟩
    rw [procs, List.getElem?_set_ne apart, missing] at found
    cases found
  · refine ⟨rfl, fun r q found => ?_⟩
    rw [procs, missing] at found
    cases found

variable {due : List (T × S) → T → Prop} {done : List (T × S) → α → Prop} {seen : List (T × S)}

theorem Prog.Paths.step {p : Prog S T α} {e : Event Req Env} (paths : p.Paths due done seen)
    (next : sys.step c e = some c') (found : c.procs[i]? = some (r, p)) :
    ∃ q, c'.procs[i]? = some (r, q) ∧
      q.Paths due done (seen ++ (Transition.ran i ⟨c, e, c'⟩).toList) := by
  obtain ⟨ran, still⟩ | ⟨t, u, n, rfl, ran, after⟩ := System.step_proc next found
  · rw [ran]
    exact ⟨p, still, by simpa using paths⟩
  · rw [ran]
    exact ⟨_, after, paths.2 c.hist.now⟩

/-- In a run, what is left of a process goes on with the paths of its program. -/
theorem Run.paths {p : Prog S T α} (run : Run sys c steps c') (found : c.procs[i]? = some (r, p))
    (paths : p.Paths due done seen) :
    ∃ q, c'.procs[i]? = some (r, q) ∧ q.Paths due done (seen ++ own i steps) := by
  induction run with
  | nil => exact ⟨p, found, by simpa [own] using paths⟩
  | @snoc earlier d d' e first next ih =>
    obtain ⟨q, there, left⟩ := ih
    obtain ⟨q', after, left⟩ := left.step next there
    exact ⟨q', after, by rwa [own_snoc, ← List.append_assoc]⟩

/-- In a run from the start, the sections of a process are a path of what
handles its request. -/
theorem Run.paths_start {w : S} {due : Req → List (T × S) → T → Prop}
    {done : Req → List (T × S) → α → Prop} (run : Run sys (.start w) steps c)
    (handlers : ∀ r, (sys.handler r).Paths (due r) (done r) []) {q : Prog S T α}
    (found : c.procs[i]? = some (r, q)) : q.Paths (due r) (done r) (own i steps) := by
  have arrived : (c.procs[i]? = none → own i steps = []) ∧
      ∀ r q, c.procs[i]? = some (r, q) → q.Paths (due r) (done r) (own i steps) := by
    clear found
    induction run with
    | nil => exact ⟨fun _ => rfl, fun r q found => by simp [Conf.start] at found⟩
    | @snoc earlier d d' e first next ih =>
      rw [own_snoc]
      cases before : d.procs[i]? with
      | none =>
        obtain ⟨ran, handles⟩ := System.step_new next before
        rw [ran, ih.1 before]
        exact ⟨fun _ => rfl, fun r q found => handles r q found ▸ handlers r⟩
      | some old =>
        obtain ⟨q', after, left⟩ := (ih.2 _ _ before).step next before
        rw [after]
        refine ⟨nofun, fun r q found => ?_⟩
        cases found
        exact left
  exact arrived.2 r q found

/-- A finished process stays as it is. -/
theorem Run.finished {a : α} (run : Run sys c steps c') (found : c.procs[i]? = some (r, .ret a)) :
    own i steps = [] ∧ c'.procs[i]? = some (r, .ret a) := by
  induction run with
  | nil => exact ⟨rfl, found⟩
  | @snoc earlier d d' e first next ih =>
    rw [own_snoc, ih.1]
    obtain ⟨ran, still⟩ | ⟨t, u, n, step, -⟩ := System.step_proc next ih.2
    · rw [ran]
      exact ⟨rfl, still⟩
    · cases step

/-- A process answers once. -/
theorem Run.same_answer {a b : α} (run : Run sys c steps c')
    (found : c.procs[i]? = some (r, .ret a)) (done : c'.procs[i]? = some (r, .ret b)) : a = b := by
  have still := (run.finished found).2
  rw [done] at still
  cases still
  rfl

/-- A process waits for its next section. -/
theorem Run.waits {p : Prog S T α} (run : Run sys c steps c')
    (found : c.procs[i]? = some (r, p)) :
    (own i steps = [] ∧ c'.procs[i]? = some (r, p)) ∨
      ∃ earlier s later, steps = earlier ++ s :: later ∧ own i earlier = [] ∧
        s.event = .run i ∧ s.before.procs[i]? = some (r, p) := by
  induction run with
  | nil => exact .inl ⟨rfl, found⟩
  | @snoc earlier d d' e first next ih =>
    obtain ⟨none_, still⟩ | ⟨before, s, after, rfl, rest⟩ := ih
    · obtain ⟨ran, same⟩ | ⟨t, u, n, rfl, ran, -⟩ := System.step_proc next still
      · exact .inl ⟨by rw [own_snoc, none_, ran]; rfl, same⟩
      · exact .inr ⟨earlier, ⟨d, e, d'⟩, [], rfl, none_, (Transition.ran_eq_some.1 ran).1, still⟩
    · exact .inr ⟨before, s, after ++ [⟨d, e, d'⟩], by simp, rest⟩

/-- A process that finishes a sequence has answered its first program, and gone
on from there. -/
theorem Run.passes {p : Prog S T β} {k : β → Prog S T α} {a : α} (run : Run sys c steps c')
    (found : c.procs[i]? = some (r, p >>= k)) (done : c'.procs[i]? = some (r, .ret a)) :
    ∃ b earlier later d, steps = earlier ++ later ∧ Run sys c earlier d ∧ Run sys d later c' ∧
      d.procs[i]? = some (r, k b) := by
  have reached : (∃ q : Prog S T β, c'.procs[i]? = some (r, q >>= k)) ∨
      ∃ b earlier later d, steps = earlier ++ later ∧ Run sys c earlier d ∧ Run sys d later c' ∧
        d.procs[i]? = some (r, k b) := by
    clear done
    induction run with
    | nil => exact .inl ⟨p, found⟩
    | @snoc earlier d d' e first next ih =>
      obtain ⟨q, here⟩ | ⟨b, before, after, mid, rfl, start, rest, there⟩ := ih
      · cases q with
        | ret b => exact .inr ⟨b, earlier, _, d, rfl, first, .snoc .nil next, here⟩
        | step t u n =>
          obtain ⟨-, same⟩ | ⟨t', u', n', step, -, after⟩ := System.step_proc next here
          · exact .inl ⟨_, same⟩
          · cases step
            exact .inl ⟨n d.hist.now, after⟩
      · exact .inr ⟨b, before, _, mid, (List.append_assoc ..), start, .snoc rest next, there⟩
  obtain ⟨q, here⟩ | passed := reached
  · rw [done] at here
    cases q with
    | ret b => exact ⟨b, steps, [], c', (List.append_nil _).symm, run, .nil, done.trans here⟩
    | step t u n => cases here
  · exact passed

theorem Run.of_nil (run : Run sys c [] c') : c' = c := by
  generalize all : ([] : List (Transition S T Req Env α)) = list at run
  cases run with
  | nil => rfl
  | snoc => simp at all

/-- The last step of a run. -/
theorem Run.of_snoc {s : Transition S T Req Env α} (run : Run sys c (steps ++ [s]) c') :
    Run sys c steps s.before ∧ sys.step s.before s.event = some s.after ∧ s.after = c' := by
  generalize all : steps ++ [s] = list at run
  cases run with
  | nil => simp at all
  | snoc first next =>
    obtain ⟨rfl, last⟩ := List.append_inj' all rfl
    cases last
    exact ⟨first, next, rfl⟩

/-- A run goes through the configuration between two parts of its steps. -/
theorem Run.of_append {first second : List (Transition S T Req Env α)}
    (run : Run sys c (first ++ second) c') :
    ∃ d, Run sys c first d ∧ Run sys d second c' := by
  induction second using List.reverseRecOn generalizing c' with
  | nil => exact ⟨c', by rwa [List.append_nil] at run, .nil⟩
  | append_singleton second s ih =>
    rw [← List.append_assoc] at run
    obtain ⟨before, next, rfl⟩ := run.of_snoc
    obtain ⟨d, start, rest⟩ := ih before
    exact ⟨d, start, .snoc rest next⟩

/-- The first step of a run. -/
theorem Run.of_cons {s : Transition S T Req Env α} {later : List (Transition S T Req Env α)}
    (run : Run sys c (s :: later) c') :
    s.before = c ∧ sys.step s.before s.event = some s.after ∧ Run sys s.after later c' := by
  rw [← List.singleton_append] at run
  obtain ⟨d, first, rest⟩ := run.of_append
  rw [← List.nil_append [s]] at first
  obtain ⟨none_, next, rfl⟩ := first.of_snoc
  exact ⟨none_.of_nil, next, rest⟩

/-- A step of a process runs a section of it. -/
theorem Run.ran {s : Transition S T Req Env α} (run : Run sys c steps c') (member : s ∈ steps)
    (event : s.event = .run i) : ∃ t, (t, s.before.hist.now) ∈ own i steps := by
  obtain ⟨earlier, later, rfl⟩ := List.append_of_mem member
  obtain ⟨d, -, rest⟩ := run.of_append
  obtain ⟨rfl, next, -⟩ := rest.of_cons
  rw [event] at next
  obtain ⟨_, ⟨⟩, -⟩ | ⟨_, r, t, u, n, ⟨⟩, found, -⟩ | ⟨_, _, ⟨⟩, -⟩ := System.step_cases next
  exact ⟨t, mem_own.2 ⟨s, member, event, ⟨r, Conf.due_eq_some.2 ⟨u, n, found⟩⟩, rfl⟩⟩

/-- A process with a section left goes on before it is finished. -/
theorem Run.unfinished {a : α} {t : T} {r' : Req} (run : Run sys c steps c')
    (due : c.due i = some (r, t)) (done : c'.procs[i]? = some (r', .ret a)) : own i steps ≠ [] := by
  intro none_
  obtain ⟨u, n, found⟩ := Conf.due_eq_some.1 due
  obtain ⟨-, still⟩ | ⟨earlier, s, later, rfl, -, event, here⟩ := run.waits found
  · rw [done] at still
    cases still
  · have ran : (t, s.before.hist.now) ∈ own i (earlier ++ s :: later) :=
      mem_own.2 ⟨s, by simp, event, ⟨r, Conf.due_eq_some.2 ⟨u, n, here⟩⟩, rfl⟩
    rw [none_] at ran
    cases ran

/-- A process begins as what handles its request. -/
theorem Run.arrives {w : S} {q : Prog S T α} (run : Run sys (.start w) steps c)
    (found : c.procs[i]? = some (r, q)) : ∃ earlier later d, steps = earlier ++ later ∧
      Run sys (.start w) earlier d ∧ Run sys d later c ∧ d.procs[i]? = some (r, sys.handler r) := by
  induction run generalizing q with
  | nil => simp [Conf.start] at found
  | @snoc before d d' e first next ih =>
    cases there : d.procs[i]? with
    | none =>
      obtain rfl := (System.step_new next there).2 r q found
      exact ⟨before ++ [⟨d, e, d'⟩], [], d', (List.append_nil _).symm, .snoc first next, .nil, found⟩
    | some old =>
      obtain ⟨r', p⟩ := old
      have same : r' = r := by
        obtain ⟨-, still⟩ | ⟨t, u, n, -, -, after⟩ := System.step_proc next there
        · rw [found] at still
          cases still
          rfl
        · rw [found] at after
          cases after
          rfl
      subst same
      obtain ⟨earlier, later, mid, rfl, start, rest, arrived⟩ := ih there
      exact ⟨earlier, later ++ [⟨d, e, d'⟩], mid, List.append_assoc .., start, .snoc rest next,
        arrived⟩

/-- A process that runs its last section answers what this section gives. -/
theorem Run.last_section {t : T} {u : S → S} {f : S → α} {a : α} {s : Transition S T Req Env α}
    (run : Run sys c steps c') (member : s ∈ steps) (event : s.event = .run i)
    (found : s.before.procs[i]? = some (r, .step t u fun w => .ret (f w)))
    (done : c'.procs[i]? = some (r, .ret a)) : a = f s.before.hist.now := by
  obtain ⟨earlier, later, rfl⟩ := List.append_of_mem member
  obtain ⟨d, -, rest⟩ := run.of_append
  obtain ⟨rfl, next, rest⟩ := rest.of_cons
  obtain ⟨ran, -⟩ | ⟨t', u', n, same, -, after⟩ := System.step_proc next found
  · have here : (s.ran i).isSome := by
      rw [Transition.ran_eq_some.2 ⟨event, ⟨r, Conf.due_eq_some.2 ⟨u, _, found⟩⟩, rfl⟩]
      rfl
    rw [show s.ran i = none from ran] at here
    cases here
  · cases same
    exact (rest.same_answer after done).symm

/-- A run stays within the rely. -/
theorem Run.rely {R : Hist S → Hist S → Prop} {G : Req → T → Hist S → S → Prop}
    {Q : Req → Hist S → α → Hist S → Prop} (rely : Rely sys R G) (handled : Handled sys R G Q)
    (run : Run sys c steps c') (reach : Reachable sys c) : R c.hist c'.hist := by
  induction run with
  | nil => exact rely.refl _
  | @snoc earlier d d' e first next ih =>
    have reached := first.reach reach fun s _ => meets_true _ _
    exact rely.trans ih (reached.step_rely rely handled next)

/-- A section that runs is allowed by the earlier ones of its process. -/
theorem Run.section_due {w : S} {due : Req → List (T × S) → T → Prop}
    {done : Req → List (T × S) → α → Prop} (run : Run sys (.start w) steps c)
    (handlers : ∀ r, (sys.handler r).Paths (due r) (done r) []) {t : T}
    (here : c.due i = some (r, t)) : due r (own i steps) t := by
  obtain ⟨u, n, found⟩ := Conf.due_eq_some.1 here
  exact (run.paths_start handlers found).1

end Concurrent
