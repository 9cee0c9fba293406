import Nip05d.Expiry
import Nip05d.Swap

/-!
# Live offers

A lodge request looks for other live offers of the name and of the address, and
inserts its own in a later section. Two that interleave both find nothing, so
the two rules hold of a run exactly when no insertion finds a live offer of its
name or address any more (`one_live`).

When requests are handled one after the other a live offer is of a name that
its seller owns, as long as no release and no late claim takes the name away
from under it (`live_offers_backed`).
-/

namespace Nip05d

open Auth Concurrent Handlers

/-- At most one live offer for a name and for an address, from now on. -/
def OneLive (w : World) : Prop :=
  ∀ t, w.unixNow ≤ t → ∀ o ∈ w.db.offers.rows, ∀ o' ∈ w.db.offers.rows,
    o.offerId ≠ o'.offerId → o.LiveAt t → o'.LiveAt t →
      o.name ≠ o'.name ∧ o.proofAddress ≠ o'.proofAddress

/-- An insertion finds no live offer of its name or address, is of an offer that
has expired by then, or is refused. -/
def LodgesAlone (t : Stmt) (w : World) : Prop :=
  match t with
  | .insertOffer o _ =>
    w.fault.isSome ∨ o.expiration < w.unixNow ∨
      (∃ r ∈ w.db.offers.rows, r.offerId = o.offerId) ∨
      ∀ r ∈ w.db.offers.rows, r.LiveAt w.unixNow →
        r.name ≠ o.name ∧ r.proofAddress ≠ o.proofAddress
  | _ => True

instance (t : Stmt) (w : World) : Decidable (LodgesAlone t w) :=
  match t with
  | .insertOffer _ _ => inferInstanceAs (Decidable (_ ∨ _ ∨ (∃ r ∈ w.db.offers.rows, _) ∨
      ∀ r ∈ w.db.offers.rows, r.LiveAt w.unixNow → _ ∧ _))
  | .look | .allow .. | .authEventFresh .. | .cooldownActive .. | .recordOp .. | .registerName ..
  | .releaseName .. | .markOfferDead .. | .revokeExpired .. | .claimTxn .. => .isTrue trivial

/-- Every live offer is of a name that its seller owns, from now on. -/
def Backed (w : World) : Prop :=
  ∀ t, w.unixNow ≤ t → ∀ o ∈ w.db.offers.rows, o.LiveAt t →
    w.db.lookup o.name = some o.sellerPubkey

/-- A release finds no live offer of its name, and a claim that commits finds no
live offer of its name but its own. -/
def LeavesBacked (t : Stmt) (w : World) : Prop :=
  match t with
  | .releaseName name =>
    w.fault.isSome ∨ ∀ o ∈ w.db.offers.rows, o.LiveAt w.unixNow → o.name ≠ name
  | .claimTxn offer excessHex _ _ =>
    w.fault.isSome ∨ ¬ w.db.Claimable offer excessHex ∨
      ∀ o ∈ w.db.offers.rows, o.LiveAt w.unixNow → o.name = offer.name → o.offerId = offer.offerId
  | _ => True

instance (t : Stmt) (w : World) : Decidable (LeavesBacked t w) := by
  unfold LeavesBacked
  split <;> infer_instance

section

variable {app : App} {cfg : Config} {ok : Request → Stmt → World → Prop} {t : Stmt} {w : World}
  {c : Conf World Stmt Request Response} {log : List (Request × Hist World)} {h : Hist World}

/-- An offer that is live later is live now. -/
theorem OfferRow.LiveAt.earlier {o : OfferRow} {a b : Int} (live : o.LiveAt b) (order : a ≤ b) :
    o.LiveAt a := ⟨live.1, Int.le_trans order live.2⟩

/-- A live offer after a section was live before it, or is a fresh one. -/
theorem live_after {o : OfferRow} (member : o ∈ (t.apply cfg w).db.offers.rows)
    (live : o.status = .live) : o ∈ w.db.offers.rows ∨
    ∃ n createdAt, t = .insertOffer n createdAt ∧ o = n.row createdAt ∧ w.fault = none ∧
      ∀ r ∈ w.db.offers.rows, r.offerId ≠ n.offerId := by
  obtain ⟨o₀, old, step⟩ | fresh := offers_after member
  · cases step with
    | same => exact .inl old
    | @died status => cases status <;> cases live
    | revoked => cases live
    | consumed => cases live
  · exact .inr fresh

/-- The insertion of a fresh offer id works. -/
theorem inserted (cfg : Config) {n : NewOffer} (createdAt : Int) (working : w.fault = none)
    (fresh : ∀ r ∈ w.db.offers.rows, r.offerId ≠ n.offerId) :
    ((Stmt.insertOffer n createdAt).apply cfg w).db.offers.rows =
      n.row createdAt :: w.db.offers.rows := by
  obtain ⟨db, ok⟩ := Db.insertOffer_works createdAt fresh
  have after : ((Stmt.insertOffer n createdAt).apply cfg w).db = db := by
    simp [Stmt.apply, World.execute, working, ok]
  rw [after]
  exact (Db.insertOffer_ok ok).2.2.1

theorem insertOffer_lookup (n : NewOffer) (createdAt : Int) :
    ((Stmt.insertOffer n createdAt).apply cfg w).db.lookup = w.db.lookup := by
  cases owners_after cfg (.insertOffer n createdAt) w with
  | same same => exact same
  | registered tag => cases tag
  | released tag => cases tag
  | claimed tag => cases tag

/-! ## One live offer for a name and for an address -/

theorem OneLive.section_ (one : OneLive w) (alone : LodgesAlone t w) : OneLive (t.apply cfg w) := by
  intro time now o member o' member' differ live live'
  rw [t.apply_unixNow] at now
  have meets : ∀ {n : NewOffer} {createdAt : Int} {r : OfferRow}, t = .insertOffer n createdAt →
      w.fault = none → (∀ r ∈ w.db.offers.rows, r.offerId ≠ n.offerId) →
      (n.row createdAt).LiveAt time → r ∈ w.db.offers.rows → r.LiveAt time →
      r.name ≠ n.name ∧ r.proofAddress ≠ n.proofAddress := by
    rintro n createdAt r rfl working fresh alive old live
    obtain fails | expired | ⟨r', there, same⟩ | apart := alone
    · rw [working] at fails
      cases fails
    · have still : time ≤ n.expiration := alive.2
      omega
    · exact absurd same (fresh r' there)
    · exact apart r old (live.earlier now)
  obtain old | ⟨n, createdAt, tag, rfl, working, fresh⟩ := live_after member live.1
  · obtain old' | ⟨n, createdAt, tag, rfl, working, fresh⟩ := live_after member' live'.1
    · exact one time now o old o' old' differ live live'
    · exact meets tag working fresh live' old live
  · obtain old' | ⟨n', createdAt', tag', rfl, -, -⟩ := live_after member' live'.1
    · obtain ⟨name, address⟩ := meets tag working fresh live old' live'
      exact ⟨name.symm, address.symm⟩
    · cases tag.symm.trans tag'
      exact absurd rfl differ

/-- An insertion that finds a live offer of its name or address leaves two. -/
theorem lodges_alone {n : NewOffer} {createdAt : Int}
    (one : OneLive ((Stmt.insertOffer n createdAt).apply cfg w)) :
    LodgesAlone (.insertOffer n createdAt) w := by
  by_contra meets
  simp only [LodgesAlone, not_or, Int.not_lt] at meets
  obtain ⟨working, open_, new, meets⟩ := meets
  rw [Option.isSome_iff_ne_none, not_not] at working
  have fresh : ∀ r ∈ w.db.offers.rows, r.offerId ≠ n.offerId :=
    fun r member same => new ⟨r, member, same⟩
  refine meets fun r member live => ?_
  have rows := inserted cfg createdAt working fresh
  refine one w.unixNow ?_ r ?_ (n.row createdAt) ?_ (fresh r member) live ⟨rfl, open_⟩
  · exact Int.le_of_eq (Stmt.apply_unixNow ..)
  · rw [rows]
    exact List.mem_cons_of_mem _ member
  · exact rows ▸ List.mem_cons_self

theorem OneLive.around {e : Around} {s : World} (one : OneLive w) (moved : e.move w = some s) :
    OneLive s := by
  obtain ⟨db, -, -, later⟩ := Around.move_frame moved
  intro time now
  rw [db]
  exact one time (Int.le_trans (World.unixNow_mono later) now)

theorem one_live_reached (reach : Reach (authority app) (fun _ t w => LodgesAlone t w) c) :
    OneLive c.hist.now := by
  refine interleaved reach (fun h => OneLive h.now) ?_ ?_ ?_
  · intro w fresh time _ o member
    rw [fresh.db] at member
    cases member
  · intro h e s inv moved
    exact inv.around moved
  · intro d r t _ inv alone _
    exact inv.section_ alone

/-- **There is one live offer for a name and for an address exactly as long as
no insertion finds another.** -/
theorem one_live {w : World} (fresh : w.Fresh) {steps : List Step}
    (run : Run (authority app) (.start w) steps c) :
    (∀ s ∈ steps, OneLive s.after.hist.now) ↔
      ∀ s ∈ steps, s.before.Meets (fun _ t w => LodgesAlone t w) s.event := by
  refine run.forall_iff (fun s => OneLive s.after.hist.now) (.start fresh) ?_
  intro d e d' reach next
  constructor
  · intro one
    cases e with
    | arrive => trivial
    | env => trivial
    | run i =>
      rintro ⟨r, t⟩ due
      cases t with
      | insertOffer n createdAt =>
        rw [step_due reach next due, Hist.push_now] at one
        exact lodges_alone one
      | _ => trivial
  · intro meets
    exact one_live_reached (reach.step meets next)

/-! ## Live offers are of owned names -/

theorem Backed.around {e : Around} {s : World} (backed : Backed w) (moved : e.move w = some s) :
    Backed s := by
  obtain ⟨db, -, -, later⟩ := Around.move_frame moved
  intro time now
  rw [db]
  exact backed time (Int.le_trans (World.unixNow_mono later) now)

/-- A section that does not change who owns the names of live offers. -/
theorem Backed.section_ (backed : Backed w) (leaves : LeavesBacked t w)
    (owned : ∀ n createdAt, t = .insertOffer n createdAt →
      w.db.lookup n.name = some n.sellerPubkey) : Backed (t.apply cfg w) := by
  intro time now o member live
  rw [t.apply_unixNow] at now
  have alive := live.earlier now
  obtain old | ⟨n, createdAt, tag, rfl, -, -⟩ := live_after member live.1
  · have owner := backed time now o old live
    cases owners_after cfg t w with
    | same same => rw [same]; exact owner
    | registered _ free after =>
      rw [after]
      split
      · rename_i taken
        rw [taken, free] at owner
        cases owner
      · exact owner
    | released tag working after =>
      subst tag
      rcases leaves with fails | away
      · rw [working] at fails
        cases fails
      · rw [after, if_neg (away o old alive)]
        exact owner
    | @claimed offer excessHex kernelHeight at_ tag working claimed =>
      subst tag
      rw [claimed.lookup]
      split
      · rename_i sold
        rcases leaves with fails | refused | own
        · rw [working] at fails
          cases fails
        · exact absurd claimed.claimable refused
        · -- its own offer is consumed
          have consumed := claimed.consumed member (own o old alive sold)
          rw [live.1] at consumed
          cases consumed
      · exact owner
  · subst tag
    rw [insertOffer_lookup]
    exact owned n createdAt rfl

/-- A claim answered `owner_changed` is not on a live offer. -/
def LiveNotOwnerChanged (app : App) (h : Hist World) : Prop :=
  ∀ headers body, answered app (.claim headers body) h = err 409 "owner_changed" →
    ∀ offerId proof row, claimBody app body = .ok (offerId, proof) →
      h.now.db.getOffer offerId = some row → ¬ row.LiveAt h.now.unixNow

/-- A lodge request answered `offer_exists` to the owner of the name met an
offer of that owner: a live one of the name, or the same event lodged before. -/
def ExistsIsOwn (app : App) (h : Hist World) : Prop :=
  ∀ headers body, answered app (.lodgeOffer headers body) h = err 409 "offer_exists" →
    ∃ event o row, offerEvent app body = some event ∧ offerColumns app event = some o ∧
      h.now.db.lookup o.name = some o.sellerPubkey ∧ row ∈ h.now.db.offers.rows ∧
      row.sellerPubkey = o.sellerPubkey ∧
      (row.LiveAt h.now.unixNow ∧ row.name = o.name ∨ row.offerId = o.offerId)

theorem backed_reached (run : Served (authority app) (fun _ t w => LeavesBacked t w) log h) :
    ∀ w ∈ h.states, Backed w := by
  refine one_by_one run (fun _ h => ∀ w ∈ h.states, Backed w) ?_ ?_ ?_
  · intro w fresh w' member time _ o there
    rw [Hist.states, List.mem_singleton] at member
    rw [member, fresh.db] at there
    cases there
  · intro _ h e s inv moved
    rw [Hist.states_push, List.forall_mem_cons]
    exact ⟨(inv h.now h.now_mem).around moved, inv⟩
  · intro _ d r t _ inv leaves because
    rw [Hist.states_push, List.forall_mem_cons]
    refine ⟨(inv d.hist.now d.hist.now_mem).section_ leaves ?_, inv⟩
    rintro n createdAt rfl
    cases because with
    | lodge grounds =>
      obtain ⟨h₀, quiet, owner⟩ := grounds.owner
      rw [quiet.db]
      exact (World.query_eq_some.1 owner).2

/-- Alone, a claim on a live offer finds its seller the owner. -/
theorem live_not_ownerChanged (backed : Backed h.now) : LiveNotOwnerChanged app h := by
  intro headers body refused offerId proof row parsed found live
  obtain ⟨offerId', proof', offer, now, h₀, parsed', settled, own, clock, other⟩ :=
    (answer_alone app (.claim headers body) h).2 refused
  rw [parsed] at parsed'
  cases parsed'
  cases settled with
  | @kept h₁ first found' _ quiet =>
    obtain ⟨working, found'⟩ := World.query_eq_some.1 found'
    have same : h₀.now.db = h.now.db := quiet.db.trans first.db
    have here : offer = row := by
      rw [first.db, found] at found'
      exact (Option.some.inj found').symm
    refine other (World.query_eq_some.2 ⟨quiet.own.fault.trans working, ?_⟩)
    rw [same, here]
    exact backed h.now.unixNow (Int.le_refl _) row (Db.getOffer_eq_some.1 found).1 live
  | @reread h₁ h₂ h₃ before endHeight first found' _ stale _ _ _ _ =>
    have same := (World.query_eq_some.1 found').2
    rw [first.db, found] at same
    cases same
    rw [clock.own, own.unixNow] at stale
    exact absurd live.2 (Int.not_le.2 stale)

/-- Alone, an owner's lodge request meets only that owner's offers. -/
theorem exists_is_own (bind : app.crates.IdsBind) (backed : Backed h.now)
    (signed : ∀ o ∈ h.now.db.offers.rows, ∃ event, Signed app o event) : ExistsIsOwn app h := by
  intro headers body refused
  obtain ⟨event, o, now, h₀, h₁, found, columns, to₀, owner, to₁, clock, met⟩ :=
    answer_alone app (.lodgeOffer headers body) h refused
  have owner' : h.now.db.lookup o.name = some o.sellerPubkey :=
    to₀.db ▸ (World.query_eq_some.1 owner).2
  have time : now = h.now.unixNow := clock.own.trans to₁.own.unixNow
  rw [World.holds, to₁.db] at met
  rcases met with live | refused
  · have met : h.now.db.liveOfferForName o.name now = true := by
      split at live
      · cases live
      · exact live
    rw [← Bool.not_eq_false, Db.liveOfferForName_eq_false] at met
    simp only [not_forall, not_not] at met
    obtain ⟨row, member, live, name⟩ := met
    rw [time] at live
    have backs := backed h.now.unixNow (Int.le_refl _) row member live
    rw [name, owner', Option.some.injEq] at backs
    exact ⟨event, o, row, found, columns, owner', member, backs.symm, .inl ⟨live, name⟩⟩
  · have met : ∃ row ∈ h.now.db.offers.rows, row.offerId = o.offerId := by
      by_contra fresh
      obtain ⟨db, ok⟩ := Db.insertOffer_works now fun r member same => fresh ⟨r, member, same⟩
      rw [ok] at refused
      cases refused
    obtain ⟨row, member, same⟩ := met
    obtain ⟨event', signed⟩ := signed row member
    obtain ⟨tags, price, lodging⟩ := offerColumns_eq_some columns
    have ids : event'.id = event.id := by
      refine Bytes32.toHex_inj.1 (signed.id.trans (same.trans ?_))
      exact congrArg NewOffer.offerId lodging.columns
    have hashed := bind event' event signed.verified (offerEvent_verified found).1 ids
    have author : event'.pubkey = event.pubkey := congrArg Prod.fst hashed
    refine ⟨event, o, row, found, columns, owner', member, ?_, .inr same⟩
    rw [← signed.seller, author]
    exact (congrArg NewOffer.sellerPubkey lodging.columns).symm

/-- **Live offers are backed by ownership** in every run of complete requests
that takes no name away from under a live offer. -/
theorem live_offers_backed (bind : app.crates.IdsBind)
    (run : Served (authority app) (fun _ t w => LeavesBacked t w) log h) :
    (∀ w ∈ h.states, Backed w) ∧ LiveNotOwnerChanged app h ∧ ExistsIsOwn app h := by
  have backed := backed_reached run
  obtain ⟨procs, reach⟩ := run.reach
  exact ⟨backed, live_not_ownerChanged (backed h.now h.now_mem),
    exists_is_own bind (backed h.now h.now_mem) fun o member => (lodged reach o member).signed⟩

end

namespace Scripted

/-- Two offers of ada are lodged by requests that interleave: both have looked
for live offers when the first is inserted. -/
def lodgedTwice : List (Concurrent.Event Request Around) :=
  .arrive registerAda :: sections 0 10 ++ .arrive lodgeOne :: sections 1 9 ++
    .arrive lodgeTwo :: sections 2 10 ++ sections 1 1

theorem two_live : ∃ steps c, Run (authority app) (.start world) steps c ∧
    steps.map Transition.event = lodgedTwice ∧ ¬ OneLive c.hist.now := by
  have replayed : ((authority app).replayMeeting (fun _ _ _ => True) (.start world)
      lodgedTwice).any (fun c => c.hist.now.db.offers.rows.any fun o =>
        c.hist.now.db.offers.rows.any fun o' => o.offerId != o'.offerId && o.name == o'.name &&
          decide (o.LiveAt c.hist.now.unixNow) && decide (o'.LiveAt c.hist.now.unixNow)) = true := by
    decide +kernel
  obtain ⟨c, run, found⟩ := (Option.any_eq_true _ _).1 replayed
  obtain ⟨steps, run, events, -⟩ := Run.replayMeeting run
  simp only [List.any_eq_true, Bool.and_eq_true, bne_iff_ne, beq_iff_eq, decide_eq_true_eq] at found
  obtain ⟨o, member, o', member', ⟨⟨differ, same⟩, live⟩, live'⟩ := found
  exact ⟨steps, c, run, events, fun one =>
    (one _ (Int.le_refl _) o member o' member' differ live live').1 same⟩

theorem one_live_after_another : ∃ steps c, Run (authority app) (.start world) steps c ∧
    steps.map Transition.event = .arrive registerAda :: sections 0 10 ++
      .arrive lodgeOne :: sections 1 10 ++ .arrive lodgeTwo :: sections 2 8 ∧
    ∀ s ∈ steps, OneLive s.after.hist.now := by
  have replayed : ((authority app).replayMeeting (fun _ t w => LodgesAlone t w)
      (.start world) (.arrive registerAda :: sections 0 10 ++
        .arrive lodgeOne :: sections 1 10 ++ .arrive lodgeTwo :: sections 2 8)).isSome = true := by
    decide +kernel
  obtain ⟨c, replayed⟩ := Option.isSome_iff_exists.1 replayed
  obtain ⟨steps, run, events, meets⟩ := Run.replayMeeting replayed
  exact ⟨steps, c, run, events, (one_live world_fresh run).2 meets⟩

/-- A name is released while an offer of it is live. -/
theorem released_under_offer : ∃ log h, Served (authority app) (fun _ _ _ => True) log h ∧
    log.map Prod.fst = [registerAda, lodgeOne, releaseAda] ∧ ¬ Backed h.now := by
  have run : ((serve (fun _ _ _ => True) [.inl registerAda, .inl lodgeOne, .inl releaseAda]).any
      fun q => q.1.map Prod.fst == [registerAda, lodgeOne, releaseAda] &&
        q.2.now.db.offers.rows.any fun o => decide (o.LiveAt q.2.now.unixNow) &&
          q.2.now.db.lookup o.name == none) = true := by
    decide +kernel
  obtain ⟨⟨log, h⟩, run, found⟩ := (Option.any_eq_true _ _).1 run
  simp only [Bool.and_eq_true, beq_iff_eq, List.any_eq_true, decide_eq_true_eq] at found
  obtain ⟨requests, o, member, live, gone⟩ := found
  refine ⟨log, h, serve_served run, requests, fun backed => ?_⟩
  have owner := backed h.now.unixNow (Int.le_refl _) o member live
  rw [gone] at owner
  cases owner

/-- An offer is lodged, sold, and another one of the name refused. -/
theorem sold_backed : ∃ log h, serve (fun _ t w => LeavesBacked t w)
      [.inl registerAda, .inl lodgeOne, .inl claimOne] = some (log, h) ∧
    (∀ w ∈ h.states, Backed w) ∧ LiveNotOwnerChanged app h ∧ ExistsIsOwn app h := by
  have run : (serve (fun _ t w => LeavesBacked t w)
      [.inl registerAda, .inl lodgeOne, .inl claimOne]).isSome = true := by
    decide +kernel
  obtain ⟨⟨log, h⟩, run⟩ := Option.isSome_iff_exists.1 run
  exact ⟨log, h, run, live_offers_backed (crates_idsBind (by decide +kernel)) (serve_served run)⟩

end Scripted

end Nip05d
