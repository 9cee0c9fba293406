import Nip05d.Lodged
import Nip05d.Scripted

/-!
# Consumed offers and the ledger

Four statements write the status of an offer. The transaction of a claim
consumes it and records the transfer in one section; marking an offer dead
looks at the status again; the UPDATE that revokes an expired offer does not,
and takes a consumed offer back out of `consumed`. The statuses agree with the
ledger along a run exactly when no such UPDATE meets a consumed offer.
-/

namespace Nip05d

open Auth Concurrent Handlers

/-- The UPDATE that revokes an expired offer finds it not consumed. -/
def revokesUnconsumed (_ : Request) (t : Stmt) (w : World) : Bool :=
  match t with
  | .revokeExpired offerId =>
    w.fault.isSome || (w.db.getOffer offerId).all (·.status != .consumed)
  | _ => true

/-- A transfer of an offer is on record. -/
def Db.Recorded (db : Db) (offerId : String) : Prop :=
  ∃ t ∈ db.transfers.rows, t.offerId = offerId

/-- The consumed offers are those of the recorded transfers. -/
structure Db.Agrees (db : Db) : Prop where
  consumed : ∀ o ∈ db.offers.rows, o.status = .consumed ↔ db.Recorded o.offerId
  lodged : ∀ t ∈ db.transfers.rows, ∃ o ∈ db.offers.rows, o.offerId = t.offerId

/-- A step leaves statuses and ledger in agreement, and every consumed offer
consumed. -/
structure Final (s : Step) : Prop where
  agrees : ∀ o ∈ s.after.hist.now.db.offers.rows,
    o.status = .consumed ↔ s.after.hist.now.db.Recorded o.offerId
  stays : ∀ o ∈ s.before.hist.now.db.offers.rows, o.status = .consumed →
    ∀ o' ∈ s.after.hist.now.db.offers.rows, o'.offerId = o.offerId → o'.status = .consumed

section

variable {app : App} {cfg : Config} {t : Stmt} {w : World} {r : Request}
  {c c' : Conf World Stmt Request Response}

/-- A consumed offer stays consumed, except for the UPDATE of a revocation. -/
theorem OfferStep.stays {o o' : OfferRow} (step : OfferStep cfg t w o o')
    (member : o ∈ w.db.offers.rows) (consumed : o.status = .consumed)
    (allowed : revokesUnconsumed r t w = true) : o'.status = .consumed := by
  cases step with
  | same => exact consumed
  | died _ live => rw [consumed] at live; cases live
  | revoked tag working =>
    have found : w.db.getOffer o.offerId = some o := Db.getOffer_eq_some.2 ⟨member, rfl⟩
    simp [tag, revokesUnconsumed, working, found, consumed] at allowed
  | consumed => rfl

/-- A section that meets the condition keeps the agreement. -/
theorem Db.Agrees.section_ (agrees : w.db.Agrees) (allowed : revokesUnconsumed r t w = true)
    (claims : ∀ offer excessHex kernelHeight now,
      t = .claimTxn offer excessHex kernelHeight now →
      ∃ row ∈ w.db.offers.rows, row.offerId = offer.offerId) :
    (t.apply cfg w).db.Agrees := by
  have evolves := t.apply_evolves cfg w
  refine ⟨fun o' member => ⟨fun consumed => ?_, fun recorded => ?_⟩, fun row member => ?_⟩
  · obtain ⟨o, old, step⟩ | ⟨n, createdAt, -, rfl, -, -⟩ := offers_after member
    · have before : o.status = .consumed → (t.apply cfg w).db.Recorded o.offerId := by
        intro earlier
        obtain ⟨row, there, same⟩ := (agrees.consumed o old).1 earlier
        exact ⟨row, evolves.transfers row there, same⟩
      cases step with
      | same => exact before consumed
      | @died status => cases status <;> cases consumed
      | revoked => cases consumed
      | @consumed offer excessHex kernelHeight now _ same claimed =>
        exact ⟨_, claimed.transfers ▸ List.mem_cons_self, same⟩
    · cases consumed
  · obtain ⟨row, there, same⟩ := recorded
    obtain old | ⟨offer, excessHex, kernelHeight, now, -, claimed, rfl⟩ := transfers_after there
    · obtain ⟨o, lodged, id_⟩ := agrees.lodged row old
      have consumed := (agrees.consumed o lodged).2 ⟨row, old, id_.symm⟩
      obtain ⟨o₁, old₁, step⟩ | ⟨n, createdAt, -, rfl, -, fresh⟩ := offers_after member
      · have here : o₁ = o :=
          Db.offer_eq old₁ lodged (step.becomes.offerId.symm.trans (same.symm.trans id_.symm))
        exact step.stays old₁ (here ▸ consumed) allowed
      · exact absurd (id_.trans same) (fresh o lodged)
    · exact claimed.consumed member same.symm
  · obtain old | ⟨offer, excessHex, kernelHeight, now, tag, -, rfl⟩ := transfers_after member
    · obtain ⟨o, lodged, same⟩ := agrees.lodged row old
      obtain ⟨o', after, becomes⟩ := evolves.offers o lodged
      exact ⟨o', after, becomes.offerId.trans same⟩
    · obtain ⟨o, lodged, same⟩ := claims offer excessHex kernelHeight now tag
      obtain ⟨o', after, becomes⟩ := evolves.offers o lodged
      exact ⟨o', after, becomes.offerId.trans same⟩

/-- Statuses and ledger agree in every configuration that is reached. -/
theorem agrees (reach : Reach (authority app) (fun r t w => revokesUnconsumed r t w = true) c) :
    c.hist.now.db.Agrees := by
  refine interleaved reach (fun h => h.now.db.Agrees) ?_ ?_ ?_
  · intro w fresh
    rw [fresh.db]
    exact ⟨nofun, nofun⟩
  · intro h e s inv moved
    rw [Hist.push_now, (Around.move_frame moved).1]
    exact inv
  · intro d r t _ inv allowed because
    refine inv.section_ allowed fun offer excessHex kernelHeight now tag => ?_
    subst tag
    cases because with
    | claim grounds =>
      obtain ⟨row, member, becomes⟩ := grounds.row
      exact ⟨row, member, becomes.offerId⟩

/-- A working revocation takes its offer to `revoked`. -/
theorem revokeExpired_revokes (cfg : Config) {offerId : String} {o : OfferRow} (working : w.fault = none)
    (member : o ∈ w.db.offers.rows) (same : o.offerId = offerId) :
    ∃ o' ∈ ((Stmt.revokeExpired offerId).apply cfg w).db.offers.rows,
      o'.offerId = offerId ∧ o'.status = .revoked := by
  obtain ⟨m, db, ok⟩ := w.db.revokeExpired_works offerId
  have after : ((Stmt.revokeExpired offerId).apply cfg w).db = db := by
    simp [Stmt.apply, World.execute, working, ok]
  rw [after, (Db.revokeExpired_ok ok).2.2]
  refine ⟨{ o with status := .revoked }, Sql.mem_map_rewrite.2 ⟨o, member, .inl ⟨?_, rfl⟩⟩, same, rfl⟩
  simpa using same

/-- **Consumed is final, and agrees with the ledger, exactly as long as no
revocation of an expired offer meets a consumed one.** -/
theorem consumed_is_final {w : World} (fresh : w.Fresh) {steps : List Step}
    (run : Run (authority app) (.start w) steps c) :
    (∀ s ∈ steps, Final s) ↔
      ∀ s ∈ steps, s.before.Meets (fun r t w => revokesUnconsumed r t w = true) s.event := by
  refine run.forall_iff Final (.start fresh) ?_
  intro d e d' reach next
  constructor
  · intro final
    cases e with
    | arrive => trivial
    | env => trivial
    | run i =>
      rintro ⟨r, t⟩ due
      cases t with
      | revokeExpired offerId =>
        by_contra meets
        simp only [revokesUnconsumed, Bool.or_eq_true, not_or, Bool.not_eq_true,
          Option.isSome_eq_false_iff, Option.isNone_iff_eq_none, Option.all_eq_false,
          bne_eq_false_iff_eq] at meets
        obtain ⟨working, o, here, consumed⟩ := meets
        obtain ⟨member, same⟩ := Db.getOffer_eq_some.1 here
        obtain ⟨o', there, id_, revoked⟩ := revokeExpired_revokes app.cfg working member same
        have stays := final.stays o member consumed o' (by
          rw [step_due reach next due]
          exact there) (id_.trans same.symm)
        rw [revoked] at stays
        cases stays
      | _ => rfl
  · intro meets
    have before := agrees reach
    have after := agrees (reach.step meets next)
    refine ⟨after.consumed, fun o member consumed o' member' same => ?_⟩
    have later := reach.step_rely (rely app) (handled (Later.views app.cfg)) next
    obtain ⟨row, there, recorded⟩ := (before.consumed o member).1 consumed
    exact (after.consumed o' member').2 ⟨row, later.db.transfers row there, recorded.trans same.symm⟩

end

namespace Scripted

/-- An offer is read after its expiration; its seller's revocation has read it
as expired when the buyer's late claim commits. -/
def soldDuringRevocation : List (Concurrent.Event Request Around) :=
  .arrive registerAda :: sections 0 10 ++ .arrive lodgeOne :: sections 1 10 ++
    .env (.advance expired) :: .arrive readOne :: sections 2 7 ++
    .arrive revokeOne :: sections 3 7 ++ .arrive claimOne :: sections 4 12

/-- The revocation that goes on takes the offer out of `consumed`. -/
theorem consumed_then_revoked : ∃ steps c, Run (authority app) (.start world) steps c ∧
    steps.map Transition.event = soldDuringRevocation ++ [.run 3] ∧ ∃ s ∈ steps, ¬ Final s := by
  have replayed : (((authority app).replayMeeting (fun _ _ _ => True) (.start world)
      soldDuringRevocation).any fun c =>
        (c.hist.now.db.getOffer (offerId 101)).any (·.status == .consumed) &&
        ((authority app).step c (.run 3)).any fun c' =>
          (c'.hist.now.db.getOffer (offerId 101)).any (·.status == .revoked)) = true := by
    decide +kernel
  obtain ⟨c, run, found⟩ := (Option.any_eq_true _ _).1 replayed
  rw [Bool.and_eq_true, Option.any_eq_true, Option.any_eq_true] at found
  obtain ⟨⟨o, there, consumed⟩, c', next, revoked⟩ := found
  obtain ⟨o', there', revoked⟩ := (Option.any_eq_true _ _).1 revoked
  obtain ⟨steps, run, events, -⟩ := Run.replayMeeting run
  obtain ⟨member, same⟩ := Db.getOffer_eq_some.1 there
  obtain ⟨member', same'⟩ := Db.getOffer_eq_some.1 there'
  refine ⟨_, _, .snoc run next, by rw [List.map_append, events]; rfl, ⟨c, .run 3, c'⟩, by simp,
    fun final => ?_⟩
  have stays := final.stays o member (beq_iff_eq.1 consumed) o' member' (same'.trans same.symm)
  rw [beq_iff_eq.1 revoked] at stays
  cases stays

/-- A sale and an attempt to revoke the sold offer. -/
def soldThenRevoked : List (Concurrent.Event Request Around) :=
  .arrive registerAda :: sections 0 10 ++ .arrive lodgeOne :: sections 1 10 ++
    .arrive claimOne :: sections 2 13 ++ .arrive revokeOne :: sections 3 6

theorem consumed_stays : ∃ steps c, Run (authority app) (.start world) steps c ∧
    steps.map Transition.event = soldThenRevoked ∧ ∀ s ∈ steps, Final s := by
  have replayed : ((authority app).replayMeeting (fun r t w => revokesUnconsumed r t w = true)
      (.start world) soldThenRevoked).isSome = true := by
    decide +kernel
  obtain ⟨c, replayed⟩ := Option.isSome_iff_exists.1 replayed
  obtain ⟨steps, run, events, meets⟩ := Run.replayMeeting replayed
  exact ⟨steps, c, run, events, (consumed_is_final world_fresh run).2 meets⟩

end Scripted

end Nip05d
