import Nip05d.Concurrent.Paths

/-!
# What a program emits

Some sections are events of an abstract object: `observe` says which, from the
tag of the section and the state it runs on. `Prog.Emits` is a postcondition of
the events of a program and its answer, whatever happens between its sections;
it goes through sequences (`Emits.bind`), and it holds of the events and the
answer of a finished process of any run (`Run.emitted`).
-/

namespace Concurrent

variable {S T Req Env α β E : Type}

namespace Prog

/-- On every path, the events of a program allow its answer. -/
def Emits (observe : T → S → Option E) : Prog S T α → (List E → α → Prop) → Prop
  | .ret a, Q => Q [] a
  | .step t _ n, Q => ∀ s, (n s).Emits observe fun es a => Q ((observe t s).toList ++ es) a

variable {observe : T → S → Option E} {Q Q' : List E → α → Prop}

theorem Emits.mono {p : Prog S T α} (emits : p.Emits observe Q)
    (weaker : ∀ es a, Q es a → Q' es a) : p.Emits observe Q' := by
  induction p generalizing Q Q' with
  | ret a => exact weaker [] a emits
  | step t u n ih => exact fun s => ih s (emits s) fun es a => weaker _ a

theorem emits_trivial (p : Prog S T α) (holds : ∀ es a, Q es a) : p.Emits observe Q := by
  induction p generalizing Q with
  | ret a => exact holds [] a
  | step t u n ih => exact fun s => ih s fun es a => holds _ a

theorem Emits.bind {p : Prog S T α} {k : α → Prog S T β} {Q : List E → β → Prop}
    (emits : p.Emits observe fun es a => (k a).Emits observe fun es' b => Q (es ++ es') b) :
    (p >>= k).Emits observe Q := by
  change (p.bind k).Emits observe Q
  induction p generalizing Q with
  | ret a => exact emits
  | step t u n ih =>
    intro s
    refine ih s ((emits s).mono fun es a rest => ?_)
    exact rest.mono fun es' b holds => by rwa [← List.append_assoc]

/-- What a program emits is told by the sections of each of its paths. -/
theorem Emits.paths {p : Prog S T α} {seen : List (T × S)} (emits : p.Emits observe Q) :
    p.Paths (fun _ _ => True) (fun later a => ∃ es,
      later.filterMap (fun q => observe q.1 q.2) =
        seen.filterMap (fun q => observe q.1 q.2) ++ es ∧ Q es a) seen := by
  induction p generalizing seen Q with
  | ret a => exact ⟨[], (List.append_nil _).symm, emits⟩
  | step t u n ih =>
    refine ⟨trivial, fun s => (ih s (emits s)).mono fun later a ⟨es, told, holds⟩ => ?_⟩
    refine ⟨(observe t s).toList ++ es, ?_, holds⟩
    rw [told, List.filterMap_append, List.append_assoc]
    cases seen_ : observe t s <;> simp [seen_]

end Prog

variable {sys : System S T Req Env α} {c : Conf S T Req α} {i : Nat} {r : Req} {a : α}
  {steps : List (Transition S T Req Env α)}

/-- The sections of a process are of its request. -/
theorem Run.same_request {c' : Conf S T Req α} {q : Prog S T α} (run : Run sys c steps c')
    {s : Transition S T Req Env α} (member : s ∈ steps) {r' : Req} {t : T}
    (due : s.before.due i = some (r', t)) (found : c'.procs[i]? = some (r, q)) : r' = r := by
  obtain ⟨earlier, later, rfl⟩ := List.append_of_mem member
  obtain ⟨d, -, rest⟩ := run.of_append
  obtain ⟨rfl, -, -⟩ := rest.of_cons
  obtain ⟨u, n, there⟩ := Conf.due_eq_some.1 due
  have any : (Prog.step t u n).Paths (fun _ _ => True) (fun _ _ => True) [] :=
    Prog.paths_trivial _ fun _ _ => trivial
  obtain ⟨q', still, -⟩ := rest.paths there any
  rw [found] at still
  cases still
  rfl

/-- The events of a process. -/
def emitted (observe : T → S → Option E) (i : Nat) (steps : List (Transition S T Req Env α)) :
    List E :=
  (own i steps).filterMap fun q => observe q.1 q.2

/-- A finished process has emitted what its program emits with its answer. -/
theorem Run.emitted {observe : T → S → Option E} {Q : Req → List E → α → Prop} {w : S}
    (run : Run sys (.start w) steps c) (handlers : ∀ r, (sys.handler r).Emits observe (Q r))
    (done : c.procs[i]? = some (r, .ret a)) : Q r (emitted observe i steps) a := by
  have unseen : ∀ r, (sys.handler r).Paths (fun _ _ => True) (fun later a => ∃ es,
      later.filterMap (fun q => observe q.1 q.2) =
        ([] : List (T × S)).filterMap (fun q => observe q.1 q.2) ++ es ∧ Q r es a) [] :=
    fun r => (handlers r).paths
  obtain ⟨es, told, holds⟩ := run.paths_start unseen done
  rw [List.filterMap_nil, List.nil_append] at told
  rw [Concurrent.emitted, told]
  exact holds

end Concurrent
