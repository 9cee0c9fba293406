import Nip05d.Expiry
import Nip05d.Prices
import Nip05d.Revocations

/-!
# What readers of offers see

A read settles an offer that has run out before it shows it: it looks at the row,
marks it, and looks again, with other requests in between. What it shows is
nevertheless an offer as it stood at one of its own steps, as its seller signed
it, and never a live one whose time had passed.
-/

namespace Concurrent

variable {S T Req Env α : Type} {i : Nat}

/-- A section of a process is run by a step, the sections before and after it by
the steps before and after. -/
theorem own_split {steps : List (Transition S T Req Env α)} {front back : List (T × S)} {q : T × S}
    (mine : own i steps = front ++ q :: back) : ∃ before s after, steps = before ++ s :: after ∧
      s.ran i = some q ∧ own i before = front ∧ own i after = back := by
  obtain ⟨first, rest, rfl, front_, mine⟩ := List.filterMap_eq_append_iff.1 mine
  obtain ⟨idle, s, after, rfl, idle_, ran, back_⟩ := List.filterMap_eq_cons_iff.1 mine
  refine ⟨first ++ idle, s, after, by simp, ran, ?_, back_⟩
  rw [own_append, own, front_, own, List.filterMap_eq_nil_iff.2 idle_, List.append_nil]

end Concurrent

namespace Nip05d

open Auth Concurrent Handlers

/-- The answer that shows an offer. -/
def shownOffer (app : App) (o : OfferRow) : Response :=
  publicRead [("offer", (app.crates.valueFromStr o.eventJson).getD .null),
    ("status", .string (OfferStatus.text o.status))]

/-- The sections of a read that shows an offer. -/
inductive ReadPath (app : App) (offerId : String) : List (Stmt × World) → Response → Prop
  | current {front : List (Stmt × World)} {w₀ w₁ : World} {o : OfferRow} :
      w₀.query (·.getOffer offerId) = some o → (o.status ≠ .live ∨ w₁.unixNow ≤ o.expiration) →
      ReadPath app offerId (front ++ [(.look, w₀), (.look, w₁)]) (shownOffer app o)
  | settled {front : List (Stmt × World)} {w₀ w₁ w₂ w₃ w₄ : World} {o : OfferRow} :
      w₀.query (·.getOffer offerId) = some o →
      ReadPath app offerId (front ++ [(.look, w₀), (.look, w₁), (.look, w₂),
        (.markOfferDead o.offerId .expired w₂.tipHeight w₁.unixNow, w₃), (.look, w₄)])
        (shownOffer app ((w₄.query (·.getOffer o.offerId)).getD o))

section

variable {app : App} {offerId : String} {headers : Headers} {i : Nat} {steps : List Step} {w : World}
  {c : Conf World Stmt Request Response} {response : Response}

theorem readOffer_paths (app : App) (headers : Headers) (offerId : String) (seen : List (Stmt × World)) :
    (readOffer app headers offerId).Paths (fun _ _ => True)
      (fun seen response => response.status = 200 → ReadPath app offerId seen response) seen := by
  refine paths_timed fun allowed more => ?_
  split
  · exact fun shown => absurd shown (by decide)
  refine paths_look trivial fun w₀ => ?_
  split
  · exact fun shown => absurd shown (by decide)
  rename_i o found
  refine paths_look trivial fun w₁ => ?_
  unfold settleExpiry
  split
  · rename_i current
    intro _
    rw [List.append_assoc]
    exact .current found current
  · refine ⟨trivial, fun w₂ => ⟨trivial, fun w₃ => ⟨trivial, fun w₄ _ => ?_⟩⟩⟩
    rw [List.append_assoc, List.append_assoc, List.append_assoc, List.append_assoc]
    exact .settled found

theorem handlers_read (r : Request) : ((authority app).handler r).Paths (fun _ _ => True)
    (fun seen response => ∀ headers offerId, r = .readOffer headers offerId →
      response.status = 200 → ReadPath app offerId seen response) [] := by
  cases r with
  | readOffer headers offerId =>
    change (mounted app (readOffer app headers offerId)).Paths _ _ _
    unfold mounted
    split
    · refine (readOffer_paths app headers offerId []).mono fun seen response reads _ _ same => ?_
      cases same
      exact reads
    · exact fun _ _ _ shown => absurd shown (by decide)
  | _ => exact Prog.paths_trivial _ fun _ _ _ _ same => by cases same

/-- The offer that a process read is still there at its later steps. -/
theorem read_again {q : Stmt × World} {s₀ s : Step} {later : List Step} {o : OfferRow}
    (reach : Reachable (authority app) s₀.before)
    (run : Run (authority app) s₀.before (s₀ :: later) c) (member : s ∈ s₀ :: later)
    (ran : s.ran i = some q) (found : s₀.before.hist.now.db.getOffer offerId = some o) :
    ∃ o', q.2.db.getOffer offerId = some o' ∧ o.Becomes o' := by
  obtain ⟨-, -, now⟩ := Transition.ran_eq_some.1 ran
  obtain ⟨-, -, o', there, becomes⟩ := row_later reach run found member
  exact ⟨o', now ▸ there, becomes⟩

/-- An offer that has been marked is not live any more. -/
theorem marked_settled {s₃ s₄ : Step} {before after : List Step} {w₃ w₄ : World} {o : OfferRow}
    {endHeight : Option Int} {now : Int} (reach : Reachable (authority app) s₃.before)
    (run : Run (authority app) s₃.before (s₃ :: (before ++ s₄ :: after)) c)
    (marks : s₃.ran i = some (.markOfferDead offerId .expired endHeight now, w₃))
    (working : w₃.fault = none) (found : w₃.db.getOffer offerId = some o)
    (ran : s₄.ran i = some (.look, w₄)) :
    ∃ o', w₄.db.getOffer offerId = some o' ∧ o'.status ≠ .live := by
  obtain ⟨event, ⟨r, due⟩, now₃⟩ := Transition.ran_eq_some.1 marks
  obtain ⟨-, -, now₄⟩ := Transition.ran_eq_some.1 ran
  obtain ⟨-, next, rest⟩ := run.of_cons
  have reached : Reachable (authority app) s₃.after := .step reach (meets_true _ _) next
  have effect := next
  rw [event] at effect
  have hist := step_due reach effect due
  obtain ⟨member, rfl⟩ := Db.getOffer_eq_some.1 found
  subst now₃
  obtain ⟨marked, there, id, dead⟩ := marked_dead app.cfg .expired endHeight now working member
  obtain ⟨d, upTo, last⟩ := rest.of_append
  obtain ⟨rfl, -, -⟩ := last.of_cons
  have since := upTo.rely (rely app) (handled (Later.views app.cfg)) reached
  rw [← Hist.push_now s₃.before.hist (Stmt.apply app.cfg _ s₃.before.hist.now), ← hist] at there
  obtain ⟨o', there', becomes⟩ := since.db.offers marked there
  rw [← now₄]
  exact ⟨o', Db.getOffer_eq_some.2 ⟨there', becomes.offerId.trans id⟩, (becomes.settled dead).1⟩

/-- **Readers see offers as they stand.** A read that is answered 200 while the
database answers it shows an offer that was stored at one of its own steps, and
that its seller signed; an offer that it shows as live had not run out at one of
its own steps. -/
theorem reads_truthful (fresh : w.Fresh) (run : Run (authority app) (.start w) steps c)
    (done : c.procs[i]? = some (.readOffer headers offerId, .ret response))
    (shown : response.status = 200)
    (working : ∀ s ∈ steps, s.event = .run i → s.before.hist.now.fault = none) :
    ∃ s ∈ steps, s.event = .run i ∧ ∃ o event, s.before.hist.now.db.getOffer offerId = some o ∧
      Signed app o event ∧ response = shownOffer app o ∧
      (o.status = .live → ∃ s' ∈ steps, s'.event = .run i ∧ s'.before.hist.now.unixNow ≤ o.expiration) := by
  have path : ReadPath app offerId (own i steps) response :=
    run.paths_start handlers_read done headers offerId rfl shown
  have signed : ∀ s ∈ steps, ∀ o, s.before.hist.now.db.getOffer offerId = some o →
      ∃ event, Signed app o event := by
    intro s member o found
    obtain ⟨reached, -⟩ := run.mem (rely app) (handled (Later.views app.cfg)) (.start fresh)
      (fun s _ => meets_true _ _) s member
    exact (lodged reached o (Db.getOffer_eq_some.1 found).1).signed
  generalize mine : own i steps = sections at path
  cases path with
  | @current front w₀ w₁ o found fresh_ =>
    obtain ⟨before, s₀, later, rfl, ran, -, mine⟩ := own_split mine
    obtain ⟨before', s₁, later', rfl, ran', -, -⟩ := own_split (show _ = [] ++ _ from mine)
    obtain ⟨event, -, rfl⟩ := Transition.ran_eq_some.1 ran
    obtain ⟨event', -, rfl⟩ := Transition.ran_eq_some.1 ran'
    have stored := (World.query_eq_some.1 found).2
    obtain ⟨e, signed⟩ := signed s₀ (by simp) o stored
    refine ⟨s₀, by simp, event, o, e, stored, signed, rfl, fun live => ⟨s₁, by simp, event', ?_⟩⟩
    exact fresh_.resolve_left (not_not.2 live)
  | @settled front w₀ w₁ w₂ w₃ w₄ o found =>
    obtain ⟨before, s₀, later, rfl, ran, -, mine⟩ := own_split mine
    obtain ⟨b, s₃, a, rfl, ran₃, -, mine⟩ :=
      own_split (show _ = [(Stmt.look, w₁), (Stmt.look, w₂)] ++ _ from mine)
    obtain ⟨b', s₄, a', rfl, ran₄, -, -⟩ := own_split (show _ = [] ++ _ from mine)
    obtain ⟨event₃, -, now₃⟩ := Transition.ran_eq_some.1 ran₃
    obtain ⟨event₄, -, now₄⟩ := Transition.ran_eq_some.1 ran₄
    obtain ⟨-, -, now₀⟩ := Transition.ran_eq_some.1 ran
    obtain ⟨-, stored⟩ := World.query_eq_some.1 found
    rw [← now₀] at stored
    obtain rfl := (Db.getOffer_eq_some.1 stored).2
    -- the row is there when it is marked, and still when it is read again
    obtain ⟨reach₀, rest⟩ := from_first_read fresh run
    obtain ⟨o₃, there₃, -⟩ := read_again reach₀ rest (s := s₃) (by simp) ran₃ stored
    have marks : Run (authority app) (.start w) ((before ++ s₀ :: b) ++ s₃ :: (b' ++ s₄ :: a')) c := by
      simpa using run
    obtain ⟨reach₃, marking⟩ := from_first_read fresh marks
    obtain ⟨o₄, there₄, dead⟩ := marked_settled reach₃ marking ran₃
      (now₃ ▸ working s₃ (by simp) event₃) there₃ ran₄
    have again : w₄.query (·.getOffer o.offerId) = some o₄ :=
      World.query_eq_some.2 ⟨now₄ ▸ working s₄ (by simp) event₄, there₄⟩
    rw [again, Option.getD_some]
    rw [← now₄] at there₄
    obtain ⟨e, signed⟩ := signed s₄ (by simp) o₄ there₄
    exact ⟨s₄, by simp, event₄, o₄, e, there₄, signed, rfl, fun live => absurd live dead⟩

end

namespace Scripted

/-- An offer has run out, and is sold within the grace period while it is read. -/
def readWhileSold : List (Concurrent.Event Request Around) :=
  .arrive registerAda :: sections 0 10 ++ .arrive lodgeOne :: sections 1 10 ++
    .env (.advance expired) :: .arrive readOne :: sections 2 3 ++
    .arrive claimOne :: sections 3 16 ++ sections 2 4

/-- The reader, who found the offer live, is shown the sale. -/
theorem read_sold : ∃ steps c response s o, Run (authority app) (.start world) steps c ∧
    steps.map Transition.event = readWhileSold ∧
    c.procs[2]? = some (readOne, .ret response) ∧ s ∈ steps ∧ s.event = .run 2 ∧
    s.before.hist.now.db.getOffer (offerId 101) = some o ∧ response = shownOffer app o ∧
    o.status = .consumed := by
  have replayed : ((authority app).replayMeeting (fun _ _ w => w.fault.isNone = true)
      (.start world) readWhileSold).any (fun c => c.procs[2]?.any fun q => q.1 == readOne &&
        q.2.answer?.any fun r => r.status == 200 &&
          (r.body.get "status").bind Json.Value.asStr == some "consumed") = true := by
    decide +kernel
  obtain ⟨c, run, found⟩ := (Option.any_eq_true _ _).1 replayed
  obtain ⟨response, there, status⟩ := answered_of_any found
  rw [Bool.and_eq_true, beq_iff_eq, beq_iff_eq] at status
  obtain ⟨steps, run, events, meets⟩ := Run.replayMeeting run
  have working : ∀ s ∈ steps, s.event = .run 2 → s.before.hist.now.fault = none := by
    intro s member event
    obtain ⟨reached, next, -⟩ := run.mem (rely app) (handled (Later.views app.cfg))
      (.start world_fresh) (fun s _ => meets_true _ _) s member
    obtain ⟨r, t, due, -, -⟩ := section_of_step reached next event
    have here := meets s member
    rw [event] at here
    exact Option.isNone_iff_eq_none.1 (here (r, t) due)
  obtain ⟨s, member, event, o, -, stored, -, rfl, -⟩ :=
    reads_truthful world_fresh run there status.1 working
  have text : some (OfferStatus.text o.status) = some "consumed" := status.2
  refine ⟨steps, c, _, s, o, run, events, there, member, event, stored, rfl, ?_⟩
  cases shown : o.status with
  | consumed => rfl
  | live | revoked | expired => rw [shown] at text; exact absurd text (by decide)

end Scripted

end Nip05d
