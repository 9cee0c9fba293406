import Nip05d.Effects

/-!
# Where offers come from

Every offers row of a reachable store was lodged: at some earlier point of the
run a request inserted its columns from a verified event of its seller, after
reading the seller as the owner of the name.
-/

namespace Nip05d

open Auth Concurrent Handlers

variable {app : App} {ok : Request → Stmt → World → Prop}
  {c : Conf World Stmt Request Response}

/-- A lodge request with its grounds has inserted the columns of an offer. -/
def Lodged (app : App) (o : OfferRow) (h : Hist World) : Prop :=
  ∃ headers body h₀, Later h₀ h ∧
    LodgeGrounds app Later Later (.lodgeOffer headers body) body o.columns o.createdAt h₀

theorem Lodged.later {o o' : OfferRow} {h h' : Hist World} (lodged : Lodged app o h)
    (becomes : o.Becomes o') (later : Later h h') : Lodged app o' h' := by
  obtain ⟨headers, body, h₀, earlier, grounds⟩ := lodged
  exact ⟨headers, body, h₀, earlier.trans later,
    becomes.columns ▸ becomes.createdAt ▸ grounds⟩

/-- **Every offer was lodged.** -/
theorem lodged (reach : Reach (authority app) ok c) :
    ∀ o ∈ c.hist.now.db.offers.rows, Lodged app o c.hist := by
  refine interleaved reach (fun h => ∀ o ∈ h.now.db.offers.rows, Lodged app o h) ?_ ?_ ?_
  · intro w fresh o member
    rw [fresh.db] at member
    cases member
  · intro h e s inv moved o member
    rw [Hist.push_now, (Around.move_frame moved).1] at member
    exact (inv o member).later (.refl o) (Later.around moved)
  · intro d r t _ inv _ because o member
    have later := Later.section_ app.cfg d.hist t
    obtain ⟨o₀, old, step⟩ | ⟨n, createdAt, rfl, rfl, -, -⟩ := offers_after member
    · exact (inv o₀ old).later step.becomes later
    · cases because with
      | @lodge headers body _ _ _ grounds => exact ⟨headers, body, _, later, grounds⟩

/-- An offer was signed: its id, its seller and its columns are those of a
verified offer event for this domain. -/
structure Signed (app : App) (o : OfferRow) (event : Event) : Prop where
  verified : app.crates.eventVerify event = true
  kind : event.kind = offerKind
  domain : lastTag event "domain" = some app.cfg.domain
  columns : offerColumns app event = some o.columns
  id : event.id.toHex = o.offerId
  seller : event.pubkey.toHex = o.sellerPubkey

theorem Lodged.signed {o : OfferRow} {h : Hist World} (lodged : Lodged app o h) :
    ∃ event, Signed app o event := by
  obtain ⟨headers, body, h₀, -, grounds⟩ := lodged
  obtain ⟨event, found, columns⟩ := grounds.event
  obtain ⟨tags, price, signed⟩ := offerColumns_eq_some columns
  obtain ⟨verified, kind⟩ := offerEvent_verified found
  have domain : lastTag event "domain" = some tags.domain := by
    have extracted := signed.extracted
    simp only [extractOfferTags, Option.bind_eq_bind, Option.bind_eq_some_iff, Option.pure_def,
      Option.some.injEq] at extracted
    obtain ⟨_, -, domain, tagged, _, -, _, -, _, -, _, -, rfl⟩ := extracted
    exact tagged
  exact ⟨event, verified, kind, by rw [domain, signed.domain], columns,
    (congrArg NewOffer.offerId signed.columns).symm,
    (congrArg NewOffer.sellerPubkey signed.columns).symm⟩

/-- An offer that a request has read still has its row, with the same columns. -/
theorem row_of_read {offerId : String} {offer : OfferRow} {h₀ h : Hist World}
    (found : h₀.now.query (·.getOffer offerId) = some offer) (later : Later h₀ h) :
    offer.offerId = offerId ∧ ∃ row ∈ h.now.db.offers.rows, offer.Becomes row := by
  obtain ⟨member, same⟩ := Db.getOffer_eq_some.1 (World.query_eq_some.1 found).2
  exact ⟨same, later.db.offers offer member⟩

/-- The offer that a claim settles on has its row, with the same columns. -/
theorem ClaimGrounds.row {r : Request} {body : Bytes} {offer : OfferRow} {excessHex : String}
    {kernelHeight : Option Int} {now : Int} {start h : Hist World}
    (grounds : ClaimGrounds app Later Later start r body offer excessHex kernelHeight now h) :
    ∃ row ∈ h.now.db.offers.rows, offer.Becomes row := by
  obtain ⟨offerId, proof, -, -, -, settled⟩ := grounds.proof
  obtain ⟨h₀, later, found⟩ := settled.read (Later.views app.cfg)
  exact (row_of_read found later).2

end Nip05d
