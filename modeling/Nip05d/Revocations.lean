import Nip05d.Refusals

/-!
# Confirmed revocations

A revocation reads the offer, reads the clock and the chain tip, and updates
the row; it answers 200 whatever its update finds. The guarded update of an
offer that was read live revokes nothing when the offer has expired or was sold
in between, and the unguarded one of an expired offer overwrites a sale. A
revocation is real exactly when its update finds neither.
-/

namespace Nip05d

open Auth Concurrent Handlers

/-- A revocation after its authorization: what it does from its first read of
the offer on. -/
def revocation (app : App) (offerId authPubkey : String) : Handler Response := do
  match ← Handler.getOffer offerId with
  | none => return err 404 "not found"
  | some offer =>
    if authPubkey ≠ offer.sellerPubkey then return err 403 "not the owner"
    if offer.status = .consumed then return err 409 "offer_consumed"
    if offer.status = .revoked then return revokedAnswer offerId
    revokeRead app.cfg offerId offer

theorem revokeOffer_eq (app : App) (headers : Headers) (offerId : String) :
    revokeOffer app headers offerId = authorized app "transfer" headers .delete
      ("/api/v1/transfer/offer/" ++ offerId) [] (revocation app offerId) := rfl

/-- A revocation begins in a step with its first read of the offer. -/
def FirstRead (app : App) (i : Nat) (headers : Headers) (offerId key : String) (s : Step) : Prop :=
  s.event = .run i ∧
    s.before.procs[i]? = some (.revokeOffer headers offerId, revocation app offerId key)

/-- The status that is stored for an offer. -/
def Stands (c : Conf World Stmt Request Response) (offerId : String) (status : OfferStatus) :
    Prop :=
  ∃ o, c.hist.now.db.getOffer offerId = some o ∧ o.status = status

/-- An answer to the revocation that process `i` begins with the first of the
given steps is true. -/
structure Truthful (i : Nat) (offerId key : String) (s₀ : Step) (later : List Step)
    (response : Response) : Prop where
  /-- Confirmed, the offer was revoked at some moment up to the answer. -/
  real : response.status = 200 → Stands s₀.before offerId .revoked ∨
    ∃ s ∈ later, (s.before.due i).isSome ∧
      (Stands s.before offerId .revoked ∨ Stands s.after offerId .revoked)
  /-- Confirmed, no sale was overwritten. -/
  kept : response.status = 200 → ∀ s ∈ s₀ :: later, s.event = .run i →
    Stands s.before offerId .consumed → Stands s.after offerId .consumed
  /-- A sale that came first is reported. -/
  sold : (∃ s ∈ s₀ :: later, ∃ r t, s.event = .run i ∧ s.before.due i = some (r, t) ∧
      (s = s₀ ∨ ¬ t.Passive) ∧ ∃ o, s.before.hist.now.db.getOffer offerId = some o ∧
        o.status = .consumed ∧ o.sellerPubkey = key) →
    response = err 409 "offer_consumed"

/-- The update of a revocation finds an offer that it revokes without
overwriting a sale. -/
def FindsRevocable (q : Stmt × World) : Prop :=
  match q.1 with
  | .markOfferDead offerId .revoked _ _ =>
    ∀ o ∈ q.2.db.getOffer offerId, o.status = .live ∨ o.status = .revoked
  | .revokeExpired offerId => ∀ o ∈ q.2.db.getOffer offerId, o.status ≠ .consumed
  | _ => True

instance (q : Stmt × World) : Decidable (FindsRevocable q) := by
  unfold FindsRevocable
  split <;> infer_instance

section

variable {app : App} {offerId key : String} {i : Nat} {headers : Headers}
  {steps earlier later : List Step} {s₀ : Step} {response : Response} {w : World}
  {c d : Conf World Stmt Request Response}

/-! ## The paths of a revocation -/

/-- What a revocation does on its own, by what its first read finds. -/
inductive RevocationPath (offerId key : String) : List (Stmt × World) → Response → Prop
  | missing {w₀ : World} : w₀.query (·.getOffer offerId) = none →
      RevocationPath offerId key [(.look, w₀)] (err 404 "not found")
  | foreign {w₀ : World} {o : OfferRow} : w₀.query (·.getOffer offerId) = some o →
      key ≠ o.sellerPubkey → RevocationPath offerId key [(.look, w₀)] (err 403 "not the owner")
  | consumed {w₀ : World} {o : OfferRow} : w₀.query (·.getOffer offerId) = some o →
      o.status = .consumed → RevocationPath offerId key [(.look, w₀)] (err 409 "offer_consumed")
  | revoked {w₀ : World} {o : OfferRow} : w₀.query (·.getOffer offerId) = some o →
      o.status = .revoked → RevocationPath offerId key [(.look, w₀)] (revokedAnswer offerId)
  | live {w₀ w₁ w₂ w₃ : World} {o : OfferRow} : w₀.query (·.getOffer offerId) = some o →
      o.sellerPubkey = key → o.status = .live →
      RevocationPath offerId key [(.look, w₀), (.look, w₁), (.look, w₂),
        (.markOfferDead o.offerId .revoked w₂.tipHeight w₁.unixNow, w₃)] (revokedAnswer offerId)
  | expired {w₀ w₁ w₂ : World} {o : OfferRow} : w₀.query (·.getOffer offerId) = some o →
      o.sellerPubkey = key → o.status = .expired →
      RevocationPath offerId key [(.look, w₀), (.look, w₁), (.revokeExpired o.offerId, w₂)]
        (revokedAnswer offerId)

section

variable {α β : Type} {due : List (Stmt × World) → Stmt → Prop}
  {done : List (Stmt × World) → β → Prop} {seen : List (Stmt × World)} {k : α → Handler β}

theorem paths_look {f : World → α} (here : due seen .look)
    (next : ∀ w, (k (f w)).Paths due done (seen ++ [(.look, w)])) :
    (Handler.look f >>= k).Paths due done seen := ⟨here, next⟩

theorem paths_exec {cfg : Config} {t : Stmt} {f : World → α} (here : due seen t)
    (next : ∀ w, (k (f w)).Paths due done (seen ++ [(t, w)])) :
    (Handler.exec cfg t f >>= k).Paths due done seen := ⟨here, next⟩

end

theorem revocation_paths (app : App) (offerId key : String) :
    (revocation app offerId key).Paths (fun _ _ => True) (RevocationPath offerId key) [] := by
  refine paths_look trivial fun w₀ => ?_
  split
  · rename_i missing
    exact .missing missing
  rename_i o found
  split
  · rename_i foreign
    exact .foreign found foreign
  rename_i own_
  replace own_ := (not_not.1 own_).symm
  split
  · rename_i consumed
    exact .consumed found consumed
  rename_i open_
  split
  · rename_i revoked
    exact .revoked found revoked
  rename_i unrevoked
  refine paths_look trivial fun w₁ => ?_
  split
  · rename_i live
    refine paths_look trivial fun w₂ => ?_
    exact paths_exec trivial fun w₃ => .live found own_ live
  · rename_i dead
    have expired : o.status = .expired := by
      cases status : o.status with
      | live => exact absurd status dead
      | consumed => exact absurd status open_
      | revoked => exact absurd status unrevoked
      | expired => rfl
    exact paths_exec trivial fun w₂ => .expired found own_ expired

/-- The sections of an answered revocation from its first read on. -/
theorem revocation_path (run : Run (authority app) s₀.before (s₀ :: later) c)
    (first : FirstRead app i headers offerId key s₀)
    (done : c.procs[i]? = some (.revokeOffer headers offerId, .ret response)) :
    RevocationPath offerId key (own i (s₀ :: later)) response := by
  obtain ⟨q, there, path⟩ := run.paths first.2 (revocation_paths app offerId key)
  rw [done] at there
  cases there
  exact path

theorem FirstRead.due (first : FirstRead app i headers offerId key s₀) :
    s₀.before.due i = some (.revokeOffer headers offerId, .look) :=
  Conf.due_eq_some.2 ⟨_, _, first.2⟩

theorem FirstRead.own (first : FirstRead app i headers offerId key s₀) :
    own i (s₀ :: later) = (.look, s₀.before.hist.now) :: own i later :=
  List.filterMap_cons_some (Transition.ran_eq_some.2 ⟨first.1, ⟨_, first.due⟩, rfl⟩)

/-! ## What happens to the offer meanwhile -/

/-- What a step does to the offer with an id. -/
theorem step_row {s : Step} (reach : Reachable (authority app) s.before)
    (next : (authority app).step s.before s.event = some s.after) {o : OfferRow}
    (found : s.before.hist.now.db.getOffer offerId = some o) :
    ∃ o', s.after.hist.now.db.getOffer offerId = some o' ∧ (o' = o ∨ ∃ i r t, s.event = .run i ∧
      s.before.due i = some (r, t) ∧ OfferStep app.cfg t s.before.hist.now o o') := by
  obtain ⟨member, rfl⟩ := Db.getOffer_eq_some.1 found
  obtain hist | ⟨i, r, t, event, due, hist⟩ | ⟨v, s', -, moved, hist⟩ := step_cases reach next
  · exact ⟨o, hist ▸ found, .inl rfl⟩
  · obtain ⟨o', there, step⟩ := offer_step app.cfg t member
    refine ⟨o', ?_, .inr ⟨i, r, t, event, due, step⟩⟩
    rw [hist]
    exact Db.getOffer_eq_some.2 ⟨there, step.becomes.offerId⟩
  · refine ⟨o, ?_, .inl rfl⟩
    rw [hist, Hist.push_now, (Around.move_frame moved).1]
    exact found

/-- An offer that was revoked or sold does not expire any more. -/
theorem settled_stays (reach : Reachable (authority app) c) (run : Run (authority app) c steps d)
    {o : OfferRow} (found : c.hist.now.db.getOffer offerId = some o)
    (settled : o.status = .revoked ∨ o.status = .consumed) :
    ∃ o', d.hist.now.db.getOffer offerId = some o' ∧
      (o'.status = .revoked ∨ o'.status = .consumed) := by
  induction run with
  | nil => exact ⟨o, found, settled⟩
  | @snoc before d d' e first next ih =>
    obtain ⟨o₁, there, settled⟩ := ih
    have reached := first.reach reach fun s _ => meets_true _ _
    obtain ⟨o₂, after, rfl | ⟨i, r, t, -, -, step⟩⟩ := step_row (s := ⟨d, e, d'⟩) reached next there
    · exact ⟨o₂, after, settled⟩
    · refine ⟨o₂, after, ?_⟩
      cases step with
      | same => exact settled
      | died _ live => rcases settled with status | status <;> rw [live] at status <;> cases status
      | revoked => exact .inl rfl
      | consumed => exact .inr rfl

/-- After its last section a process has none left. -/
theorem finished_after {s : Step} {r : Request} (run : Run (authority app) c steps d)
    (done : d.procs[i]? = some (r, .ret response)) (last : own i steps = []) (member : s ∈ steps) :
    s.before.due i = none := by
  by_contra some_
  obtain ⟨⟨r', t⟩, due⟩ := Option.ne_none_iff_exists'.1 some_
  obtain ⟨before, after, rfl⟩ := List.append_of_mem member
  obtain ⟨d', -, rest⟩ := run.of_append
  obtain ⟨rfl, -⟩ := rest.of_cons
  rw [own_append] at last
  exact rest.unfinished due done (List.append_eq_nil_iff.1 last).2

theorem last_of_append {β : Type} {xs ys zs : List β} {a b : β} (same : xs ++ a :: ys = zs ++ [b])
    (apart : a ∉ zs) : ys = [] := by
  rcases List.eq_nil_or_concat ys with rfl | ⟨ys', y, rfl⟩
  · rfl
  · rw [List.concat_eq_append, ← List.cons_append, ← List.append_assoc] at same
    have front := (List.append_inj' same rfl).1
    exact absurd (front ▸ List.mem_append_right xs List.mem_cons_self) apart

/-! ## The update of a revocation -/

/-- The steps from the first read on. -/
theorem from_first_read (fresh : w.Fresh)
    (run : Run (authority app) (.start w) (earlier ++ s₀ :: later) c) :
    Reachable (authority app) s₀.before ∧ Run (authority app) s₀.before (s₀ :: later) c := by
  have reach : Reachable (authority app) (.start w) := .start fresh
  obtain ⟨d, before, rest⟩ := run.of_append
  obtain ⟨rfl, -⟩ := rest.of_cons
  exact ⟨before.reach reach fun s _ => meets_true _ _, rest⟩

/-- The offer that was read is still stored at every later step. -/
theorem row_later (reach : Reachable (authority app) s₀.before)
    (run : Run (authority app) s₀.before (s₀ :: later) c) {o : OfferRow}
    (found : s₀.before.hist.now.db.getOffer offerId = some o) {s : Step}
    (member : s ∈ s₀ :: later) : Reachable (authority app) s.before ∧
      (authority app).step s.before s.event = some s.after ∧
      ∃ o', s.before.hist.now.db.getOffer offerId = some o' ∧ o.Becomes o' := by
  obtain ⟨before, after, same⟩ := List.append_of_mem member
  rw [same] at run
  obtain ⟨d, start, rest⟩ := run.of_append
  obtain ⟨rfl, next, -⟩ := rest.of_cons
  have since := start.rely (rely app) (handled (Later.views app.cfg)) reach
  obtain ⟨old, rfl⟩ := Db.getOffer_eq_some.1 found
  obtain ⟨o', there, becomes⟩ := since.db.offers o old
  exact ⟨start.reach reach fun s _ => meets_true _ _, next, o',
    Db.getOffer_eq_some.2 ⟨there, becomes.offerId⟩, becomes⟩

/-- What the update of a revocation does to the offers it may find. -/
structure Updates (offerId : String) (s : Step) (q : Stmt × World) : Prop where
  revocable : FindsRevocable q → ∀ o, s.before.hist.now.db.getOffer offerId = some o →
    o.status ≠ .consumed ∧ (o.status = .revoked ∨ Stands s.after offerId .revoked)
  other : ¬ FindsRevocable q → ∀ o, s.before.hist.now.db.getOffer offerId = some o →
    o.status = .consumed ∨ o.status = .expired ∧ ¬ Stands s.after offerId .revoked

/-- The section of a process that a step runs. -/
theorem section_of_step {s : Step} (reach : Reachable (authority app) s.before)
    (next : (authority app).step s.before s.event = some s.after) (event : s.event = .run i) :
    ∃ r t, s.before.due i = some (r, t) ∧ s.ran i = some (t, s.before.hist.now) ∧
      s.after.hist = s.before.hist.push (t.apply app.cfg s.before.hist.now) := by
  rw [event] at next
  have due : ∃ r t, s.before.due i = some (r, t) := by
    simp only [System.step] at next
    split at next
    · rename_i r t u n found
      exact ⟨r, t, Conf.due_eq_some.2 ⟨u, n, found⟩⟩
    · cases next
  obtain ⟨r, t, due⟩ := due
  exact ⟨r, t, due, Transition.ran_eq_some.2 ⟨event, ⟨r, due⟩, rfl⟩, step_due reach next due⟩

/-- An offer that is seen revoked at a step stays revoked or sold. -/
theorem settled_since (reach : Reachable (authority app) c) (run : Run (authority app) c steps d)
    {s : Step} (member : s ∈ steps)
    (moment : Stands s.before offerId .revoked ∨ Stands s.after offerId .revoked) :
    ∃ o, d.hist.now.db.getOffer offerId = some o ∧ (o.status = .revoked ∨ o.status = .consumed) := by
  obtain ⟨before, after, rfl⟩ := List.append_of_mem member
  obtain ⟨d', start, rest⟩ := run.of_append
  obtain ⟨rfl, next, rest'⟩ := rest.of_cons
  have reached := start.reach reach fun s _ => meets_true _ _
  rcases moment with ⟨o, found, revoked⟩ | ⟨o, found, revoked⟩
  · exact settled_stays reached rest found (.inl revoked)
  · exact settled_stays (.step reached (meets_true _ _) next) rest' found (.inl revoked)

/-- A revocation that comes to its update is true exactly when the update finds
an offer it may revoke. -/
theorem truthful_iff_update (reach : Reachable (authority app) s₀.before)
    (run : Run (authority app) s₀.before (s₀ :: later) c)
    (first : FirstRead app i headers offerId key s₀)
    (done : c.procs[i]? = some (.revokeOffer headers offerId, .ret (revokedAnswer offerId)))
    {o : OfferRow} (found : s₀.before.hist.now.db.getOffer offerId = some o)
    (owner : o.sellerPubkey = key) (unrevoked : o.status ≠ .revoked)
    (unsold : o.status ≠ .consumed) {looks : List (Stmt × World)} {q : Stmt × World}
    (sections : own i later = looks ++ [q]) (quiet : ∀ p ∈ looks, p.1 = .look)
    (update : ¬ q.1.Passive)
    (updates : ∀ s ∈ later, s.ran i = some q → Updates offerId s q) :
    Truthful i offerId key s₀ later (revokedAnswer offerId) ↔ FindsRevocable q := by
  have stands₀ : ∀ {status}, Stands s₀.before offerId status → status = o.status := by
    rintro status ⟨o', found', same⟩
    rw [found] at found'
    cases found'
    exact same.symm
  have last : q ∈ own i later := by rw [sections]; simp
  obtain ⟨s₃, member₃, event₃, ⟨r₃, due₃⟩, now₃⟩ := mem_own.1 last
  have ran₃ : s₃.ran i = some q := Transition.ran_eq_some.2 ⟨event₃, ⟨r₃, due₃⟩, now₃⟩
  have effect := updates s₃ member₃ ran₃
  obtain ⟨reach₃, next₃, o₃, found₃, becomes₃⟩ :=
    row_later reach run found (List.mem_cons_of_mem _ member₃)
  constructor
  · intro truthful
    by_contra other
    rcases effect.other other o₃ found₃ with sold | ⟨expired, never⟩
    · have refused := truthful.sold ⟨s₃, List.mem_cons_of_mem _ member₃, r₃, q.1, event₃, due₃,
        .inr update, o₃, found₃, sold, becomes₃.sellerPubkey.trans owner⟩
      have status : (200 : Nat) = 409 := congrArg Response.status refused
      omega
    rcases truthful.real rfl with stands | ⟨s, member, left, moment⟩
    · exact unrevoked (stands₀ stands).symm
    obtain ⟨before, after, rfl⟩ := List.append_of_mem member₃
    rw [← List.cons_append] at run
    obtain ⟨d, upTo, rest⟩ := run.of_append
    obtain ⟨rfl, -, rest⟩ := rest.of_cons
    rw [List.mem_append, List.mem_cons] at member
    rcases member with old | rfl | new
    · obtain ⟨o', found', settled⟩ := settled_since reach upTo (List.mem_cons_of_mem _ old) moment
      rw [found₃] at found'
      cases found'
      rcases settled with status | status <;> rw [expired] at status <;> cases status
    · rcases moment with ⟨o', found', revoked⟩ | revoked
      · rw [found₃] at found'
        cases found'
        rw [expired] at revoked
        cases revoked
      · exact never revoked
    · have none_ : own i after = [] := by
        rw [own_append, own, own, List.filterMap_cons_some ran₃] at sections
        exact last_of_append sections fun member => update (quiet q member ▸ trivial)
      rw [finished_after rest done none_ new] at left
      cases left
  · intro revocable
    have sold₀ : ¬ Stands s₀.before offerId .consumed := fun stands => unsold (stands₀ stands).symm
    -- an own section that finds the offer sold is not the update
    have looks_ : ∀ s ∈ later, ∀ t, s.ran i = some (t, s.before.hist.now) →
        Stands s.before offerId .consumed → t = .look := by
      rintro s member t ran ⟨o', found', sold⟩
      have there : (t, s.before.hist.now) ∈ own i later := List.mem_filterMap.2 ⟨s, member, ran⟩
      rw [sections, List.mem_append, List.mem_singleton] at there
      rcases there with quiet_ | rfl
      · exact quiet _ quiet_
      · exact absurd sold ((updates s member ran).revocable revocable o' found').1
    refine ⟨fun _ => .inr ⟨s₃, member₃, by rw [due₃]; rfl, ?_⟩, fun _ s member event stands => ?_, ?_⟩
    · obtain ⟨-, revoked | revoked⟩ := effect.revocable revocable o₃ found₃
      · exact .inl ⟨o₃, found₃, revoked⟩
      · exact .inr revoked
    · rcases List.mem_cons.1 member with rfl | new
      · exact absurd stands sold₀
      · obtain ⟨reached, next, -⟩ := row_later reach run found member
        obtain ⟨r, t, -, ran, hist⟩ := section_of_step reached next event
        obtain rfl := looks_ s new t ran stands
        rw [Stands, hist]
        exact stands
    · rintro ⟨s, member, r, t, event, due, active, o', found', sold, -⟩
      have stands : Stands s.before offerId .consumed := ⟨o', found', sold⟩
      rcases List.mem_cons.1 member with rfl | new
      · exact absurd stands sold₀
      · have look := looks_ s new t (Transition.ran_eq_some.2 ⟨event, ⟨r, due⟩, rfl⟩) stands
        rcases active with rfl | active
        · exact absurd stands sold₀
        · exact absurd (look ▸ trivial) active

/-- A revocation that is answered by its first read alone. -/
theorem truthful_at_once (reach : Reachable (authority app) s₀.before)
    (run : Run (authority app) s₀.before (s₀ :: later) c)
    (first : FirstRead app i headers offerId key s₀) (sections : own i later = [])
    (real : response.status = 200 → Stands s₀.before offerId .revoked)
    (sold : ∀ o, s₀.before.hist.now.db.getOffer offerId = some o → o.status = .consumed →
      o.sellerPubkey = key → response = err 409 "offer_consumed") :
    Truthful i offerId key s₀ later response := by
  have mine : ∀ s ∈ later, s.event ≠ .run i := by
    intro s member event
    obtain ⟨before, after, rfl⟩ := List.append_of_mem member
    obtain ⟨d, start, rest⟩ := (List.cons_append ▸ run :
      Run (authority app) s₀.before ((s₀ :: before) ++ s :: after) c).of_append
    obtain ⟨rfl, next, -⟩ := rest.of_cons
    obtain ⟨r, t, -, ran, -⟩ :=
      section_of_step (start.reach reach fun s _ => meets_true _ _) next event
    rw [own_append, own, own, List.filterMap_cons_some ran] at sections
    simp at sections
  obtain ⟨-, next, -⟩ := run.of_cons
  refine ⟨fun confirmed => .inl (real confirmed), fun _ s member event stands => ?_, ?_⟩
  · rcases List.mem_cons.1 member with rfl | new
    · obtain ⟨r, t, due, -, hist⟩ := section_of_step reach next event
      rw [first.due] at due
      cases due
      rw [Stands, hist]
      exact stands
    · exact absurd event (mine s new)
  · rintro ⟨s, member, r, t, event, -, -, o, found, status, owner⟩
    rcases List.mem_cons.1 member with rfl | new
    · exact sold o found status owner
    · exact absurd event (mine s new)

/-- A working guarded update revokes a live offer. -/
theorem mark_revokes (cfg : Config) {o : OfferRow} (endHeight : Option Int) (at_ : Int)
    (working : w.fault = none) (found : w.db.getOffer offerId = some o) (live : o.status = .live) :
    ∃ o', ((Stmt.markOfferDead offerId .revoked endHeight at_).apply cfg w).db.getOffer offerId =
      some o' ∧ o'.status = .revoked := by
  obtain ⟨member, rfl⟩ := Db.getOffer_eq_some.1 found
  obtain ⟨n, db, ok⟩ := w.db.markOfferDead_works o.offerId .revoked endHeight at_
  have after : ((Stmt.markOfferDead o.offerId .revoked endHeight at_).apply cfg w).db = db := by
    simp [Stmt.apply, World.execute, working, ok]
  refine ⟨{ o with status := .revoked, endHeight, stateChangedAt := some at_ }, ?_, rfl⟩
  rw [after, Db.getOffer_eq_some, (Db.markOfferDead_ok ok).2.2]
  exact ⟨Sql.mem_map_rewrite.2 ⟨o, member, .inl ⟨by simp [live], rfl⟩⟩, rfl⟩

/-- A working unguarded update revokes any offer. -/
theorem revoke_revokes (cfg : Config) {o : OfferRow} (working : w.fault = none)
    (found : w.db.getOffer offerId = some o) :
    ∃ o', ((Stmt.revokeExpired offerId).apply cfg w).db.getOffer offerId = some o' ∧
      o'.status = .revoked := by
  obtain ⟨member, rfl⟩ := Db.getOffer_eq_some.1 found
  obtain ⟨n, db, ok⟩ := w.db.revokeExpired_works o.offerId
  have after : ((Stmt.revokeExpired o.offerId).apply cfg w).db = db := by
    simp [Stmt.apply, World.execute, working, ok]
  refine ⟨{ o with status := .revoked }, ?_, rfl⟩
  rw [after, Db.getOffer_eq_some, (Db.revokeExpired_ok ok).2.2]
  exact ⟨Sql.mem_map_rewrite.2 ⟨o, member, .inl ⟨by simp, rfl⟩⟩, rfl⟩

/-- The guarded update, at a step that runs it. -/
theorem mark_updates {s : Step} {endHeight : Option Int} {at_ : Int}
    (reach : Reachable (authority app) s.before)
    (next : (authority app).step s.before s.event = some s.after)
    (working : s.before.hist.now.fault = none)
    (ran : s.ran i = some (.markOfferDead offerId .revoked endHeight at_, w)) :
    Updates offerId s (.markOfferDead offerId .revoked endHeight at_, w) := by
  obtain ⟨event, ⟨r, due⟩, rfl⟩ := Transition.ran_eq_some.1 ran
  rw [event] at next
  have hist := step_due reach next due
  constructor
  · intro revocable o found
    rcases revocable o found with live | revoked
    · refine ⟨by rw [live]; nofun, .inr ?_⟩
      rw [Stands, hist]
      exact mark_revokes app.cfg endHeight at_ working found live
    · exact ⟨by rw [revoked]; nofun, .inl revoked⟩
  · intro other o found
    have missed : ¬ (o.status = .live ∨ o.status = .revoked) := by
      intro either
      refine other fun o' found' => ?_
      rw [Option.mem_def, found] at found'
      cases found'
      exact either
    rw [not_or] at missed
    cases status : o.status with
    | live => exact absurd status missed.1
    | revoked => exact absurd status missed.2
    | consumed => exact .inl rfl
    | expired =>
      refine .inr ⟨rfl, ?_⟩
      rintro ⟨o', there, revoked⟩
      rw [← event] at next
      obtain ⟨o'', there', rfl | ⟨j, r', t, event', due', step⟩⟩ := step_row reach next found
      · rw [there] at there'
        cases there'
        rw [status] at revoked
        cases revoked
      · rw [there] at there'
        cases there'
        cases event.symm.trans event'
        rw [due] at due'
        cases due'
        cases step with
        | same => rw [status] at revoked; cases revoked
        | died _ live => rw [status] at live; cases live
        | revoked tag => cases tag
        | consumed tag => cases tag

/-- The unguarded update, at a step that runs it. -/
theorem revoke_updates {s : Step} (reach : Reachable (authority app) s.before)
    (next : (authority app).step s.before s.event = some s.after)
    (working : s.before.hist.now.fault = none)
    (ran : s.ran i = some (.revokeExpired offerId, w)) :
    Updates offerId s (.revokeExpired offerId, w) := by
  obtain ⟨event, ⟨r, due⟩, rfl⟩ := Transition.ran_eq_some.1 ran
  rw [event] at next
  have hist := step_due reach next due
  constructor
  · intro revocable o found
    refine ⟨revocable o found, .inr ?_⟩
    rw [Stands, hist]
    exact revoke_revokes app.cfg working found
  · intro other o found
    refine .inl ?_
    by_contra unsold
    refine other fun o' found' => ?_
    rw [Option.mem_def, found] at found'
    cases found'
    exact unsold

/-- **A revocation is true exactly when its update finds an offer that it may
revoke.** -/
theorem revocation_truthful (fresh : w.Fresh)
    (run : Run (authority app) (.start w) (earlier ++ s₀ :: later) c)
    (first : FirstRead app i headers offerId key s₀)
    (working : ∀ s ∈ s₀ :: later, s.event = .run i → s.before.hist.now.fault = none)
    (done : c.procs[i]? = some (.revokeOffer headers offerId, .ret response)) :
    Truthful i offerId key s₀ later response ↔ ∀ q ∈ own i later, FindsRevocable q := by
  obtain ⟨reach, rest⟩ := from_first_read fresh run
  have path := revocation_path rest first done
  have read : ∀ {w₀ : World} {o : OfferRow}, w₀.query (·.getOffer offerId) = some o →
      w₀ = s₀.before.hist.now → s₀.before.hist.now.db.getOffer offerId = some o :=
    fun found same => same ▸ (World.query_eq_some.1 found).2
  have steps : ∀ s ∈ later, ∀ q, s.ran i = some q → Reachable (authority app) s.before ∧
      (authority app).step s.before s.event = some s.after ∧ s.before.hist.now.fault = none := by
    intro s member q ran
    obtain ⟨reached, next, -⟩ := run.mem (rely app) (handled (Later.views app.cfg)) (.start fresh)
      (fun s _ => meets_true _ _) s (List.mem_append_right _ (List.mem_cons_of_mem _ member))
    have event := (Transition.ran_eq_some.1 ran).1
    exact ⟨reached, next, working s (List.mem_cons_of_mem _ member) event⟩
  rw [first.own] at path
  generalize mine : own i later = sections at path
  generalize now₀ : s₀.before.hist.now = w₀ at path
  have at_once : sections = [] → Truthful i offerId key s₀ later response →
      (Truthful i offerId key s₀ later response ↔ ∀ q ∈ sections, FindsRevocable q) := by
    rintro rfl truthful
    exact ⟨fun _ q member => absurd member List.not_mem_nil, fun _ => truthful⟩
  cases path with
  | missing missing =>
    refine at_once rfl (truthful_at_once reach rest first mine (fun confirmed => ?_) ?_)
    · cases confirmed
    · intro o found
      rw [World.query_eq_some.2 ⟨?_, now₀ ▸ found⟩] at missing
      · cases missing
      · exact now₀ ▸ working s₀ List.mem_cons_self first.1
  | foreign found foreign =>
    refine at_once rfl (truthful_at_once reach rest first mine (fun confirmed => ?_) ?_)
    · cases confirmed
    · intro o found' _ owner
      rw [read found now₀.symm] at found'
      cases found'
      exact absurd owner.symm foreign
  | consumed found sold =>
    refine at_once rfl (truthful_at_once reach rest first mine (fun confirmed => ?_) ?_)
    · cases confirmed
    · exact fun _ _ _ _ => rfl
  | revoked found revoked =>
    refine at_once rfl (truthful_at_once reach rest first mine (fun _ => ?_) ?_)
    · exact ⟨_, read found now₀.symm, revoked⟩
    · intro o found' sold
      rw [read found now₀.symm] at found'
      cases found'
      rw [revoked] at sold
      cases sold
  | @live w₀ w₁ w₂ w₃ o found owner live =>
    have found := read found now₀.symm
    have same := (Db.getOffer_eq_some.1 found).2
    rw [truthful_iff_update reach rest first done found owner (by rw [live]; nofun)
      (by rw [live]; nofun) (show _ = [(.look, w₁), (.look, w₂)] ++ [_] from mine) (by simp)
      (fun h => h)]
    · simp [FindsRevocable]
    · intro s member ran
      obtain ⟨reached, next, working⟩ := steps s member _ ran
      rw [same] at ran ⊢
      exact mark_updates reached next working ran
  | @expired w₀ w₁ w₂ o found owner expired =>
    have found := read found now₀.symm
    have same := (Db.getOffer_eq_some.1 found).2
    rw [truthful_iff_update reach rest first done found owner (by rw [expired]; nofun)
      (by rw [expired]; nofun) (show _ = [(.look, w₁)] ++ [_] from mine) (by simp) (fun h => h)]
    · simp [FindsRevocable]
    · intro s member ran
      obtain ⟨reached, next, working⟩ := steps s member _ ran
      rw [same] at ran ⊢
      exact revoke_updates reached next working ran

/-- The route of a request that does not end with 404 is mounted. -/
theorem mounted_passes {handler : Handler Response} {r : Request}
    (run : Run (authority app) d later c) (found : d.procs[i]? = some (r, mounted app handler))
    (done : c.procs[i]? = some (r, .ret response)) (success : response.status < 400) :
    d.procs[i]? = some (r, handler) := by
  unfold mounted at found
  split at found
  · exact found
  · have same := run.same_answer found done
    rw [← same] at success
    exact absurd success (show ¬ 404 < 400 by decide)

/-- A write request that does not fail goes on from its entry checks. -/
theorem authorized_passes {bucket urlPath : String} {method : Method} {body : Bytes}
    {next : String → Handler Response} {r : Request} (run : Run (authority app) d later c)
    (found : d.procs[i]? = some (r, authorized app bucket headers method urlPath body next))
    (done : c.procs[i]? = some (r, .ret response)) (success : response.status < 400) :
    ∃ key entry rest d', later = entry ++ rest ∧ Run (authority app) d' rest c ∧
      d'.procs[i]? = some (r, next key) := by
  have other : ∀ {d : Conf World Stmt Request Response} {later : List Step} {answer : Response},
      Run (authority app) d later c → 400 ≤ answer.status → d.procs[i]? ≠ some (r, .ret answer) := by
    intro d later answer rest refused here
    rw [rest.same_answer here done] at refused
    omega
  rw [authorized] at found
  obtain ⟨allowed, e₁, l₁, d₁, rfl, -, rest, found⟩ := run.passes found done
  split at found
  · exact absurd found (other rest (by decide))
  obtain ⟨now, e₂, l₂, d₂, rfl, -, rest, found⟩ := rest.passes found done
  split at found
  · rename_i code msg refused
    have unauthorized : code = 401 := verifyNip98_refusal refused
    exact absurd found (other rest (by change 400 ≤ code; omega))
  rename_i key id verified
  obtain ⟨fresh, e₃, l₃, d₃, rfl, -, rest, found⟩ := rest.passes found done
  split at found
  · exact absurd found (other rest (by decide))
  · exact ⟨key, e₁ ++ (e₂ ++ e₃), l₃, d₃, by simp, rest, found⟩

/-- A confirmed revocation has read the offer. -/
theorem confirmed_reads (run : Run (authority app) (.start w) steps c)
    (done : c.procs[i]? = some (.revokeOffer headers offerId, .ret response))
    (confirmed : response.status = 200) : ∃ earlier s₀ later key, steps = earlier ++ s₀ :: later ∧
      FirstRead app i headers offerId key s₀ := by
  have success : response.status < 400 := by omega
  obtain ⟨earlier, later, d, rfl, -, rest, found⟩ := run.arrives done
  have found := mounted_passes rest found done success
  rw [revokeOffer_eq] at found
  obtain ⟨key, entry, later, d₁, rfl, rest, found⟩ := authorized_passes rest found done success
  obtain ⟨-, still⟩ | ⟨before, s₀, later, rfl, -, event, here⟩ := rest.waits found
  · rw [done] at still
    cases still
  · exact ⟨earlier ++ (entry ++ before), s₀, later, key, by simp, event, here⟩

/-- **Confirmed revocations are real exactly when their updates are.** -/
theorem revocations_real (fresh : w.Fresh) (run : Run (authority app) (.start w) steps c)
    (done : c.procs[i]? = some (.revokeOffer headers offerId, .ret response)) :
    (response.status = 200 → ∃ earlier s₀ later key, steps = earlier ++ s₀ :: later ∧
      FirstRead app i headers offerId key s₀) ∧
    ∀ earlier s₀ later key, steps = earlier ++ s₀ :: later →
      FirstRead app i headers offerId key s₀ →
      (∀ s ∈ s₀ :: later, s.event = .run i → s.before.hist.now.fault = none) →
      (Truthful i offerId key s₀ later response ↔ ∀ q ∈ own i later, FindsRevocable q) := by
  refine ⟨confirmed_reads run done, ?_⟩
  rintro earlier s₀ later key rfl first working
  exact revocation_truthful fresh run first working done

end

namespace Scripted

/-- No section meets a failing database or an offer that cannot be revoked. -/
def revocable (_ : Request) (t : Stmt) (w : World) : Bool :=
  w.fault.isNone && decide (FindsRevocable (t, w))

/-- A revocation is confirmed while the offer is read. -/
theorem revoked_really : ∃ steps c response, Run (authority app) (.start world) steps c ∧
    steps.map Transition.event = readWhileRevoked ∧
    c.procs[2]? = some (revokeOne, .ret response) ∧ response.status = 200 ∧
    ∃ earlier s₀ later key, steps = earlier ++ s₀ :: later ∧
      FirstRead app 2 (headers "revoke O1") (offerId 101) key s₀ ∧
      Truthful 2 (offerId 101) key s₀ later response := by
  have replayed : ((authority app).replayMeeting (fun r t w => revocable r t w = true)
      (.start world) readWhileRevoked).any (fun c => c.procs[2]?.any fun q =>
        q.1 == revokeOne && q.2.answer?.any (·.status == 200)) = true := by
    decide +kernel
  obtain ⟨c, run, found⟩ := (Option.any_eq_true _ _).1 replayed
  obtain ⟨response, there, status⟩ := answered_of_any found
  rw [beq_iff_eq] at status
  obtain ⟨steps, run, events, meets⟩ := Run.replayMeeting run
  obtain ⟨reads, truthful⟩ := revocations_real world_fresh run there
  obtain ⟨earlier, s₀, later, key, rfl, first⟩ := reads status
  refine ⟨_, c, response, run, events, there, status, earlier, s₀, later, key, rfl, first, ?_⟩
  have met : ∀ s ∈ s₀ :: later, ∀ q, s.ran 2 = some q →
      s.before.hist.now.fault = none ∧ FindsRevocable q := by
    intro s member q ran
    obtain ⟨event, ⟨r, due⟩, now⟩ := Transition.ran_eq_some.1 ran
    have here := meets s (List.mem_append_right _ member)
    rw [event] at here
    have meets_ := here (r, q.1) due
    simp only [revocable, Bool.and_eq_true, Option.isNone_iff_eq_none, decide_eq_true_eq] at meets_
    have found := meets_.2
    rw [now] at found
    exact ⟨meets_.1, found⟩
  refine (truthful earlier s₀ later key rfl first fun s member event => ?_).2 fun q mine => ?_
  · obtain ⟨reached, next, -⟩ := run.mem (rely app) (handled (Later.views app.cfg))
      (.start world_fresh) (fun s _ => meets_true _ _) s (List.mem_append_right _ member)
    obtain ⟨r, t, -, ran, -⟩ := section_of_step reached next event
    exact (met s member _ ran).1
  · obtain ⟨s, member, ran⟩ := List.mem_filterMap.1 mine
    exact (met s (List.mem_cons_of_mem _ member) q ran).2

/-- The buyer's claim commits between the revocation's first read and its
update. -/
def soldWhileRevoked : List (Concurrent.Event Request Around) :=
  .arrive registerAda :: sections 0 10 ++ .arrive lodgeOne :: sections 1 10 ++
    .arrive revokeOne :: sections 2 8 ++ .arrive claimOne :: sections 3 13

/-- The seller is told that the offer is revoked. -/
theorem confirmed_after_sale : ∃ steps c response, Run (authority app) (.start world) steps c ∧
    steps.map Transition.event = soldWhileRevoked ++ [.run 2] ∧
    c.procs[2]? = some (revokeOne, .ret response) ∧ response.status = 200 ∧
    ∃ earlier s₀ later key, steps = earlier ++ s₀ :: later ∧
      FirstRead app 2 (headers "revoke O1") (offerId 101) key s₀ ∧
      (∀ s ∈ s₀ :: later, s.event = .run 2 → s.before.hist.now.fault = none) ∧
      ¬ Truthful 2 (offerId 101) key s₀ later response := by
  have replayed : ((authority app).replayMeeting (fun _ _ w => w.fault.isNone = true)
      (.start world) soldWhileRevoked).any (fun d => d.hist.now.fault.isNone &&
        ((d.due 2).any fun q => !decide (FindsRevocable (q.2, d.hist.now))) &&
        ((authority app).step d (.run 2)).any fun c => c.procs[2]?.any fun q =>
          q.1 == revokeOne && q.2.answer?.any (·.status == 200)) = true := by
    decide +kernel
  obtain ⟨d, run, found⟩ := (Option.any_eq_true _ _).1 replayed
  rw [Bool.and_eq_true, Bool.and_eq_true, Option.isNone_iff_eq_none, Option.any_eq_true,
    Option.any_eq_true] at found
  obtain ⟨⟨working, ⟨r, t⟩, due, missed⟩, c, next, found⟩ := found
  rw [Bool.not_eq_true', decide_eq_false_iff_not] at missed
  obtain ⟨response, there, status⟩ := answered_of_any found
  rw [beq_iff_eq] at status
  obtain ⟨steps, run, events, meets⟩ := Run.replayMeeting run
  have whole := Run.snoc run next
  obtain ⟨earlier, s₀, later, key, same, first⟩ := confirmed_reads whole there status
  have works : ∀ s ∈ steps ++ [⟨d, .run 2, c⟩], s.event = .run 2 → s.before.hist.now.fault = none := by
    intro s member event
    rw [List.mem_append, List.mem_singleton] at member
    rcases member with old | rfl
    · obtain ⟨reached, step, -⟩ := run.mem (rely app) (handled (Later.views app.cfg))
        (.start world_fresh) (fun s _ => meets_true _ _) s old
      obtain ⟨r', t', due', -, -⟩ := section_of_step reached step event
      have here := meets s old
      rw [event] at here
      exact Option.isNone_iff_eq_none.1 (here (r', t') due')
    · exact working
  have working' : ∀ s ∈ s₀ :: later, s.event = .run 2 → s.before.hist.now.fault = none :=
    fun s member => works s (same ▸ List.mem_append_right _ member)
  rw [same] at whole
  refine ⟨_, c, response, same ▸ whole, by rw [List.map_append, events]; rfl, there, status, earlier,
    s₀, later, key, same, first, working', fun truthful => missed ?_⟩
  refine (revocation_truthful world_fresh whole first working' there).1 truthful (t, d.hist.now) ?_
  rcases List.eq_nil_or_concat later with rfl | ⟨later', s, rfl⟩
  · obtain ⟨-, last⟩ := List.append_inj' same rfl
    cases last
    have look := first.due.symm.trans due
    cases look
    exact absurd trivial missed
  · rw [List.concat_eq_append, ← List.cons_append, ← List.append_assoc] at same
    obtain ⟨-, last⟩ := List.append_inj' same rfl
    cases last
    exact mem_own.2 ⟨⟨d, .run 2, c⟩, by simp, rfl, ⟨r, due⟩, rfl⟩

end Scripted

end Nip05d
