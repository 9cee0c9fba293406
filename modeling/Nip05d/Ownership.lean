import Nip05d.Lodged
import Nip05d.Scripted

/-!
# Who takes a name away

A name leaves its active owner in two sections: the UPDATE of a release and the
transaction of a claim. The transaction looks at the owner again; the UPDATE
does not, so it takes the name from whoever holds it by then. A run takes names
by their owners exactly when every release finds its name free or owned by the
key that signed it.
-/

namespace Nip05d

open Auth Concurrent Handlers

/-- A release finds its name free or owned by the key that signed it. -/
def releasesOwn (app : App) (r : Request) (t : Stmt) (w : World) : Bool :=
  match t with
  | .releaseName name =>
    w.fault.isSome || w.db.lookup name == none || w.db.lookup name == r.signer app
  | _ => true

/-- A step takes a name from its active owner. -/
def Takes (s : Step) (name p : String) : Prop :=
  s.before.hist.now.db.lookup name = some p ∧ s.after.hist.now.db.lookup name ≠ some p

/-- A step is of a release authenticated as a key, or is the transaction of a
claim on an offer of that key, which the key has signed. -/
inductive ByOwner (app : App) (p : String) (s : Step) : Prop where
  | release {i headers raw t} : s.event = .run i →
      s.before.due i = some (.unregister headers raw, t) →
      Authenticated app Later (.unregister headers raw) p s.before.hist → ByOwner app p s
  | sale {i headers body offer excessHex kernelHeight now row event} : s.event = .run i →
      s.before.due i = some (.claim headers body, .claimTxn offer excessHex kernelHeight now) →
      row ∈ s.before.hist.now.db.offers.rows → row.offerId = offer.offerId →
      row.sellerPubkey = p → Signed app row event → ByOwner app p s

section

variable {app : App} {ok : Request → Stmt → World → Prop}
  {c c' : Conf World Stmt Request Response}

/-- A section that finds its release its own takes names by their owners. -/
theorem section_by_owner (reach : Reach (authority app) ok c) {i : Nat} {r : Request} {t : Stmt}
    (due : c.due i = some (r, t)) (own : releasesOwn app r t c.hist.now = true) {name p : String}
    (owned : c.hist.now.db.lookup name = some p)
    (taken : (t.apply app.cfg c.hist.now).db.lookup name ≠ some p) :
    ByOwner app p ⟨c, .run i, c'⟩ := by
  have because := because_due reach due
  cases owners_after app.cfg t c.hist.now with
  | same unchanged => rw [unchanged] at taken; exact absurd owned taken
  | @registered name' pubkey _ free after =>
    rw [after] at taken
    split at taken
    · rename_i same
      rw [same, free] at owned
      cases owned
    · exact absurd owned taken
  | @released name' tag working after =>
    rw [after] at taken
    split at taken
    · rename_i same
      subst same tag
      simp only [releasesOwn, working, owned, Option.isSome_none, Bool.false_or, beq_iff_eq,
        Bool.or_eq_true, reduceCtorEq, false_or] at own
      cases because with
      | release authenticated _ _ =>
        have key := authenticated.signer.symm.trans own.symm
        exact .release rfl due (Option.some.inj key ▸ authenticated)
    · exact absurd owned taken
  | @claimed offer excessHex kernelHeight now tag _ claimed =>
    rw [claimed.lookup] at taken
    split at taken
    · rename_i same
      subst same tag
      cases because with
      | claim grounds =>
        obtain ⟨row, member, becomes⟩ := grounds.row
        obtain ⟨event, signed⟩ := (lodged reach row member).signed
        refine .sale rfl due member becomes.offerId ?_ signed
        exact becomes.sellerPubkey.trans (Option.some.inj (claimed.owned.symm.trans owned))
    · exact absurd owned taken

/-- A working release of an owned name takes it. -/
theorem release_takes (cfg : Config) {w : World} {name p : String} (working : w.fault = none) :
    ((Stmt.releaseName name).apply cfg w).db.lookup name ≠ some p := by
  obtain ⟨m, db, ok⟩ := w.db.releaseName_works name w.unixNow
  have after : ((Stmt.releaseName name).apply cfg w).db = db := by
    simp [Stmt.apply, World.execute, working, ok]
  rw [after, Db.lookup_release ok, if_pos rfl]
  exact (Option.some_ne_none p).symm

/-- The owner's release is signed by the owner. -/
theorem release_by_owner {i : Nat} {r : Request} {name p : String}
    (due : c.due i = some (r, .releaseName name)) (owner : ByOwner app p ⟨c, .run i, c'⟩) :
    r.signer app = some p := by
  cases owner with
  | release event here authenticated =>
    cases event
    rw [due] at here
    cases here
    exact authenticated.signer
  | sale event here =>
    cases event
    rw [due] at here
    cases here

/-- **Names are taken by their owners exactly as long as releases are.** -/
theorem taken_by_owner {w : World} (fresh : w.Fresh) {steps : List Step}
    (run : Run (authority app) (.start w) steps c) :
    (∀ s ∈ steps, ∀ name p, Takes s name p → ByOwner app p s) ↔
      ∀ s ∈ steps, s.before.Meets (fun r t w => releasesOwn app r t w = true) s.event := by
  refine run.forall_iff (fun s => ∀ name p, Takes s name p → ByOwner app p s) (.start fresh) ?_
  intro d e d' reach next
  constructor
  · intro owners
    cases e with
    | arrive => trivial
    | env => trivial
    | run i =>
      rintro ⟨r, t⟩ due
      cases t with
      | releaseName name =>
        simp only
        rw [releasesOwn, Bool.or_assoc, Bool.or_eq_true, Bool.or_eq_true, beq_iff_eq, beq_iff_eq]
        by_contra other
        simp only [not_or, Bool.not_eq_true, Option.isSome_eq_false_iff,
          Option.isNone_iff_eq_none] at other
        obtain ⟨working, owned, foreign⟩ := other
        obtain ⟨p, owned⟩ := Option.ne_none_iff_exists'.1 owned
        have taken : d'.hist.now.db.lookup name ≠ some p := by
          rw [step_due reach next due]
          exact release_takes app.cfg working
        have signed := release_by_owner due (owners name p ⟨owned, taken⟩)
        exact foreign (owned.trans signed.symm)
      | _ => rfl
  · intro meets name p ⟨owned, taken⟩
    obtain hist | ⟨i, r, t, rfl, due, hist⟩ | ⟨v, s, rfl, moved, hist⟩ := step_cases reach next
    · exact absurd owned (hist ▸ taken)
    · rw [hist] at taken
      exact section_by_owner reach due (meets _ due) owned taken
    · rw [hist, Hist.push_now, (Around.move_frame moved).1] at taken
      exact absurd owned taken

end

namespace Scripted

/-- Ada's seller lodges, and starts a release that has looked up the owner when
the buyer's claim commits. -/
def soldDuringRelease : List (Concurrent.Event Request Around) :=
  .arrive registerAda :: sections 0 10 ++ .arrive lodgeOne :: sections 1 10 ++
    .arrive releaseAda :: sections 2 6 ++ .arrive claimOne :: sections 3 12

/-- The release that goes on takes the name from the buyer. -/
theorem taken_by_seller : ∃ steps c, Run (authority app) (.start world) steps c ∧
    steps.map Transition.event = soldDuringRelease ++ [.run 2] ∧
    ∃ s ∈ steps, Takes s "ada" buyer.toHex ∧ ¬ ByOwner app buyer.toHex s := by
  have replayed : (((authority app).replayMeeting (fun _ _ _ => True) (.start world)
      soldDuringRelease).any fun c => c.hist.now.db.lookup "ada" == some buyer.toHex &&
        c.due 2 == some (releaseAda, .releaseName "ada") &&
        ((authority app).step c (.run 2)).any fun c' => c'.hist.now.db.lookup "ada" == none) =
      true := by
    decide +kernel
  obtain ⟨c, run, found⟩ := (Option.any_eq_true _ _).1 replayed
  rw [Bool.and_eq_true, Bool.and_eq_true, beq_iff_eq, Option.any_eq_true] at found
  obtain ⟨⟨owned, due⟩, c', next, taken⟩ := found
  obtain ⟨steps, run, events, -⟩ := Run.replayMeeting run
  refine ⟨_, _, .snoc run next, by rw [List.map_append, events]; rfl, ⟨c, .run 2, c'⟩, by simp,
    ⟨owned, by simp [beq_iff_eq.1 taken]⟩, fun owner => ?_⟩
  have signed := release_by_owner (beq_iff_eq.1 due) owner
  revert signed
  decide +kernel

/-- A release before the sale takes the name by its owner. -/
theorem released_by_seller : ∃ steps c, Run (authority app) (.start world) steps c ∧
    steps.map Transition.event = .arrive registerAda :: sections 0 10 ++
      .arrive releaseAda :: sections 1 8 ∧
    ∀ s ∈ steps, ∀ name p, Takes s name p → ByOwner app p s := by
  have replayed : ((authority app).replayMeeting (fun r t w => releasesOwn app r t w = true)
      (.start world) (.arrive registerAda :: sections 0 10 ++
        .arrive releaseAda :: sections 1 8)).isSome = true := by
    decide +kernel
  obtain ⟨c, replayed⟩ := Option.isSome_iff_exists.1 replayed
  obtain ⟨steps, run, events, meets⟩ := Run.replayMeeting replayed
  exact ⟨steps, c, run, events, (taken_by_owner world_fresh run).2 meets⟩

end Scripted

end Nip05d
