import Nip05d.Concurrent.Emits

/-!
# The footprint of a program

Which sections a program may run at all, whatever it sees. `Prog.Only` goes
through sequences (`Only.bind`, and `Only.before` where something else follows),
what a program emits comes from sections of its kind (`Only.emits`), and a
process of a run never comes to another section (`Run.only`).
-/

namespace Concurrent

variable {S T Req Env α β : Type}

namespace Prog

/-- Every section on every path of a program is of a kind. -/
def Only (kind : T → Prop) : Prog S T α → Prop
  | .ret _ => True
  | .step t _ n => kind t ∧ ∀ s, (n s).Only kind

variable {kind : T → Prop}

theorem only_any (p : Prog S T α) (any : ∀ t, kind t) : p.Only kind := by
  induction p with
  | ret a => trivial
  | step t u n ih => exact ⟨any t, ih⟩

theorem Only.bind {p : Prog S T α} {k : α → Prog S T β} (first : p.Only kind)
    (next : ∀ a, (k a).Only kind) : (p >>= k).Only kind := by
  change (p.bind k).Only kind
  induction p with
  | ret a => exact next a
  | step t u n ih => exact ⟨first.1, fun s => ih s (first.2 s)⟩

theorem Only.mono {kind' : T → Prop} {p : Prog S T α} (only : p.Only kind)
    (weaker : ∀ t, kind t → kind' t) : p.Only kind' := by
  induction p with
  | ret a => trivial
  | step t u n ih => exact ⟨weaker t only.1, fun s => ih s (only.2 s)⟩

theorem Only.paths {due : List (T × S) → T → Prop} {p : Prog S T α} {seen : List (T × S)}
    (only : p.Only kind) (always : ∀ seen t, kind t → due seen t) :
    p.Paths due (fun _ _ => True) seen := by
  induction p generalizing seen with
  | ret a => trivial
  | step t u n ih => exact ⟨always seen t only.1, fun s => ih s (only.2 s)⟩

/-- Sections of a kind that is always due come before anything else. -/
theorem Only.before {due : List (T × S) → T → Prop} {done : List (T × S) → β → Prop}
    {p : Prog S T α} {k : α → Prog S T β} {seen : List (T × S)} (only : p.Only kind)
    (always : ∀ seen t, kind t → due seen t)
    (next : ∀ a more, (k a).Paths due done (seen ++ more)) : (p >>= k).Paths due done seen := by
  change (p.bind k).Paths due done seen
  induction p generalizing seen with
  | ret a => exact List.append_nil seen ▸ next a []
  | step t u n ih =>
    refine ⟨always seen t only.1, fun s => ih s (only.2 s) fun a more => ?_⟩
    rw [List.append_assoc]
    exact next a _

/-- The events of a program are those of sections of the kind. -/
theorem Only.emits {E : Type} {observe : T → S → Option E} {such : E → Prop} {p : Prog S T α}
    (only : p.Only kind) (events : ∀ t s e, kind t → observe t s = some e → such e) :
    p.Emits observe fun es _ => ∀ e ∈ es, such e := by
  induction p with
  | ret a => exact List.forall_mem_nil such
  | step t u n ih =>
    refine fun s => (ih s (only.2 s)).mono fun es a each e member => ?_
    rw [List.mem_append, Option.mem_toList] at member
    rcases member with here | later
    · exact events t s e only.1 here
    · exact each e later

end Prog

variable {sys : System S T Req Env α} {c : Conf S T Req α} {steps : List (Transition S T Req Env α)}

/-- A section that is due is of the kind of its request. -/
theorem Run.only {w : S} {kind : Req → T → Prop} (run : Run sys (.start w) steps c)
    (handlers : ∀ r, (sys.handler r).Only (kind r)) {i : Nat} {r : Req} {t : T}
    (due : c.due i = some (r, t)) : kind r t :=
  run.section_due (fun r => (handlers r).paths fun _ _ => id) due

end Concurrent
