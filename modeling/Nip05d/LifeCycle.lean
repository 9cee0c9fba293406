import Nip05d.Payments

/-!
# The life cycle of an offer

A row is stored once, live and without a death record. Its columns stay. Its
status leaves `live` once, at the request of the seller or of the buyer or past
its expiration, and the step that takes it from `live` to `revoked` or
`expired` is the only one that writes the record.
-/

namespace Nip05d

open Auth Concurrent Handlers

/-- A step runs a section of a request that is authenticated as a key. -/
def StepBy (app : App) (s : Step) (r : Request) (key : String) : Prop :=
  (∃ i t, s.event = .run i ∧ s.before.due i = some (r, t)) ∧
    Authenticated app Later r key s.before.hist

/-- A step stores the offer of an event. -/
def Lodges (app : App) (s : Step) (event : Event) : Prop :=
  ∃ i headers body n createdAt m, s.event = .run i ∧
    s.before.due i = some (.lodgeOffer headers body, .insertOffer n createdAt) ∧
    offerEvent app body = some event ∧
    (s.before.hist.now.execute (·.insertOffer n createdAt)).1 = .ok m

/-- Nothing is recorded about the death of an offer. -/
def OfferRow.Unrecorded (o : OfferRow) : Prop := o.stateChangedAt = none ∧ o.endHeight = none

/-- What a step makes of a stored offer. -/
structure OfferLife (app : App) (s : Step) (o o' : OfferRow) : Prop where
  columns : o'.columns = o.columns
  createdAt : o'.createdAt = o.createdAt
  left : o.status ≠ .live → o'.status ≠ .live
  revoked : o'.status = .revoked → o'.status ≠ o.status →
    ∃ headers, StepBy app s (.revokeOffer headers o.offerId) o.sellerPubkey
  consumed : o'.status = .consumed → o'.status ≠ o.status →
    ∃ headers body proof, claimBody app body = .ok (o.offerId, proof) ∧
      StepBy app s (.claim headers body) o.buyerPubkey
  expired : o'.status = .expired → o'.status ≠ o.status →
    o.expiration < s.before.hist.now.unixNow
  died : o.status = .live → o'.Dead → o.Unrecorded ∧ ∃ d h₁, o'.stateChangedAt = some d ∧
    ClockRead Later d s.before.hist ∧ Later h₁ s.before.hist ∧ o'.endHeight = h₁.now.tipHeight
  record : ¬ (o.status = .live ∧ o'.Dead) →
    o'.stateChangedAt = o.stateChangedAt ∧ o'.endHeight = o.endHeight

section

variable {app : App} {ok : Request → Stmt → World → Prop}
  {c c' : Conf World Stmt Request Response} {steps : List Step} {w : World}

/-! ## One section -/

/-- What becomes of a stored offer in a section. -/
theorem offer_step (cfg : Config) (t : Stmt) {o : OfferRow} (member : o ∈ w.db.offers.rows) :
    ∃ o' ∈ (t.apply cfg w).db.offers.rows, OfferStep cfg t w o o' := by
  obtain ⟨o', there, becomes⟩ := (t.apply_evolves cfg w).offers o member
  refine ⟨o', there, ?_⟩
  obtain ⟨o₀, old, step⟩ | ⟨n, createdAt, -, rfl, -, apart⟩ := offers_after there
  · rwa [Db.offer_eq member old (becomes.offerId.symm.trans step.becomes.offerId)]
  · exact absurd becomes.offerId.symm (apart o member)

/-- The row of an offer that a request has read. -/
theorem becomes_of_read {offerId : String} {offer o : OfferRow} {h₀ h : Hist World}
    (found : h₀.now.query (·.getOffer offerId) = some offer) (later : Later h₀ h)
    (member : o ∈ h.now.db.offers.rows) (same : offer.offerId = o.offerId) :
    o.offerId = offerId ∧ offer.Becomes o := by
  obtain ⟨id_, row, there, becomes⟩ := row_of_read found later
  rw [Db.offer_eq member there (same.symm.trans becomes.offerId.symm)]
  exact ⟨becomes.offerId.trans id_, becomes⟩

theorem ClockRead.past {now : Int} {h : Hist World} (clock : ClockRead Later now h) :
    now ≤ h.now.unixNow := by
  obtain ⟨h₀, earlier, rfl⟩ := clock
  exact World.unixNow_mono earlier.clock

/-- A live offer has no death record. -/
theorem live_unrecorded (reach : Reach (authority app) ok c) :
    ∀ o ∈ c.hist.now.db.offers.rows, o.status = .live → o.Unrecorded := by
  refine interleaved reach
    (fun h => ∀ o ∈ h.now.db.offers.rows, o.status = .live → o.Unrecorded) ?_ ?_ ?_
  · intro w fresh o member
    rw [fresh.db] at member
    cases member
  · intro h e s inv moved
    rw [Hist.push_now, (Around.move_frame moved).1]
    exact inv
  · intro d r t _ inv _ _ o member live
    obtain old | ⟨n, createdAt, -, rfl, -, -⟩ := live_after member live
    · exact inv o old live
    · exact ⟨rfl, rfl⟩

theorem Death.dead (status : Death) (o : OfferRow) (endHeight at_ : Option Int) :
    OfferRow.Dead { o with status := status.status, endHeight, stateChangedAt := at_ } := by
  cases status
  · exact .inl rfl
  · exact .inr rfl

/-- Why an offer is marked dead: it was read past its expiration, or its seller
asks for it. -/
theorem Because.death {r : Request} {h : Hist World} {offerId : String} {status : Death}
    {endHeight : Option Int} {at_ : Int}
    (because : Because app Later Later r (.markOfferDead offerId status endHeight at_) h) :
    ClockRead Later at_ h ∧ (∃ h₁, Later h₁ h ∧ endHeight = h₁.now.tipHeight) ∧
      ∃ h₀ readId offer, Later h₀ h ∧ h₀.now.query (·.getOffer readId) = some offer ∧
        offer.offerId = offerId ∧
        (status = .expired ∧ offer.expiration < at_ ∨
          status = .revoked ∧ ∃ headers, r = .revokeOffer headers readId ∧
            Authenticated app Later r offer.sellerPubkey h) := by
  cases because with
  | expire since found _ past clock tip =>
    exact ⟨clock, ⟨_, tip, rfl⟩, _, _, _, since, found, rfl, .inl ⟨rfl, past⟩⟩
  | revoke authenticated since found _ clock tip =>
    exact ⟨clock, ⟨_, tip, rfl⟩, _, _, _, since, found, rfl, .inr ⟨rfl, _, rfl, authenticated⟩⟩

/-- Why an expired offer is revoked: its seller asks for it. -/
theorem Because.flip {r : Request} {h : Hist World} {offerId : String}
    (because : Because app Later Later r (.revokeExpired offerId) h) :
    ∃ h₀ readId offer headers, Later h₀ h ∧ h₀.now.query (·.getOffer readId) = some offer ∧
      offer.offerId = offerId ∧ offer.status = .expired ∧ r = .revokeOffer headers readId ∧
      Authenticated app Later r offer.sellerPubkey h := by
  cases because with
  | revokeExpired authenticated since found expired =>
    exact ⟨_, _, _, _, since, found, rfl, expired, rfl, authenticated⟩

theorem OfferLife.refl (s : Step) (o : OfferRow) : OfferLife app s o o where
  columns := rfl
  createdAt := rfl
  left := id
  revoked _ differ := absurd rfl differ
  consumed _ differ := absurd rfl differ
  expired _ differ := absurd rfl differ
  died live dead := by rcases dead with dead | dead <;> rw [live] at dead <;> cases dead
  record _ := ⟨rfl, rfl⟩

/-- A section that is due makes of an offer what its request may. -/
theorem OfferStep.life {i : Nat} {r : Request} {t : Stmt} {o o' : OfferRow}
    (reach : Reach (authority app) ok c) (due : c.due i = some (r, t))
    (member : o ∈ c.hist.now.db.offers.rows) (step : OfferStep app.cfg t c.hist.now o o') :
    OfferLife app ⟨c, .run i, c'⟩ o o' := by
  have because := because_due reach due
  cases step with
  | same => exact .refl _ o
  | @died status endHeight at_ tag live =>
    subst tag
    obtain ⟨clock, ⟨h₁, tip, rfl⟩, h₀, readId, offer, since, found, same, grounds⟩ := because.death
    obtain ⟨rfl, becomes⟩ := becomes_of_read found since member same
    have unrecorded := live_unrecorded reach o member live
    refine {
      columns := rfl, createdAt := rfl, left := fun gone => absurd live gone
      revoked := ?_, consumed := ?_, expired := ?_
      died := fun _ _ => ⟨unrecorded, at_, h₁, rfl, clock, tip, rfl⟩
      record := fun other => absurd ⟨live, Death.dead status o _ _⟩ other }
    · intro revoked _
      obtain ⟨rfl, -⟩ | ⟨-, headers, rfl, authenticated⟩ := grounds
      · cases revoked
      · exact ⟨headers, ⟨i, _, rfl, due⟩, becomes.sellerPubkey ▸ authenticated⟩
    · intro consumed
      cases status <;> cases consumed
    · intro expired _
      obtain ⟨-, past⟩ | ⟨rfl, -⟩ := grounds
      · change o.expiration < c.hist.now.unixNow
        rw [becomes.expiration]
        exact Int.lt_of_lt_of_le past clock.past
      · cases expired
  | revoked tag working =>
    subst tag
    obtain ⟨h₀, readId, offer, headers, since, found, same, expired, rfl, authenticated⟩ :=
      because.flip
    obtain ⟨rfl, becomes⟩ := becomes_of_read found since member same
    have gone : o.status ≠ .live := (becomes.settled (by rw [expired]; nofun)).1
    exact {
      columns := rfl, createdAt := rfl
      left := fun _ => nofun
      revoked := fun _ _ =>
        ⟨headers, ⟨i, _, rfl, due⟩, becomes.sellerPubkey ▸ authenticated⟩
      consumed := nofun
      expired := nofun
      died := fun live => absurd live gone
      record := fun _ => ⟨rfl, rfl⟩ }
  | @consumed offer excessHex kernelHeight now tag same claimed =>
    subst tag
    cases because with
    | @claim start headers body _ _ _ _ _ grounds =>
      obtain ⟨row, there, becomes⟩ := grounds.row
      obtain rfl : row = o := Db.offer_eq there member (becomes.offerId.trans same)
      obtain ⟨offerId, proof, parsed, -, -, settled⟩ := grounds.proof
      obtain ⟨h₀, earlier, found⟩ := settled.read (Later.views app.cfg)
      obtain ⟨rfl, -⟩ := becomes_of_read found earlier member same
      exact {
        columns := rfl, createdAt := rfl
        left := fun _ => nofun
        revoked := nofun
        consumed := fun _ _ => ⟨headers, body, proof, parsed, ⟨i, _, rfl, due⟩,
          becomes.buyerPubkey ▸ grounds.authenticated⟩
        expired := nofun
        died := fun _ dead => by rcases dead with dead | dead <;> cases dead
        record := fun _ => ⟨rfl, rfl⟩ }

/-! ## Steps -/

/-- A step that lodges an event finds no row with its id, and stores one. -/
theorem Lodges.stores {s : Step} {event : Event} (lodges : Lodges app s event)
    (reach : Reachable (authority app) s.before)
    (next : (authority app).step s.before s.event = some s.after) :
    (∀ o ∈ s.before.hist.now.db.offers.rows, o.offerId ≠ event.id.toHex) ∧
      ∃ o ∈ s.after.hist.now.db.offers.rows, o.offerId = event.id.toHex := by
  obtain ⟨i, headers, body, n, createdAt, m, here, due, found, done⟩ := lodges
  have offerId : n.offerId = event.id.toHex := by
    cases because_due reach due with
    | lodge grounds =>
      obtain ⟨event', found', columns⟩ := grounds.event
      rw [found] at found'
      cases found'
      obtain ⟨tags, price, signed⟩ := offerColumns_eq_some columns
      exact congrArg NewOffer.offerId signed.columns
  rw [here] at next
  have hist := step_due reach next due
  obtain ⟨db, -, ok, same⟩ := World.execute_ok done
  obtain ⟨-, -, rows, fresh⟩ := Db.insertOffer_ok ok
  rw [← offerId]
  refine ⟨fresh, n.row createdAt, ?_, rfl⟩
  rw [hist, Hist.push_now, Stmt.apply, same, rows]
  exact List.mem_cons_self

/-! ## Runs -/

end

namespace Scripted

/-- An offer is read while its revocation is under way. -/
def readWhileRevoked : List (Concurrent.Event Request Around) :=
  .arrive registerAda :: sections 0 10 ++ .arrive lodgeOne :: sections 1 10 ++
    .arrive revokeOne :: sections 2 7 ++ .arrive readOne :: sections 3 4 ++ sections 2 2

end Scripted

end Nip05d
