import Nip05d.Views

/-!
# Why a section runs

`Because` lists every section that the handler of a request can run, each with
what the request has seen before it. `Guarantee` is the guarantee of a section:
its effect, and its grounds. `Answer` says what an answer tells about the run.
-/

namespace Nip05d

open Auth Concurrent Handlers Proof

/-- What the entry check of a write endpoint looks at. -/
structure Entry where
  bucket : String
  headers : Headers
  method : Method
  urlPath : String
  body : Bytes

namespace Request

/-- The entry check of a request; public reads have none. -/
def entry (app : App) : Request → Option Entry
  | .register headers body => some ⟨"reg", headers, .post, "/api/v1/register", body⟩
  | .unregister headers name =>
    some ⟨"unreg", headers, .delete, "/api/v1/register/" ++ app.toLowercase name, []⟩
  | .lodgeOffer headers body => some ⟨"transfer", headers, .post, "/api/v1/transfer/offer", body⟩
  | .revokeOffer headers offerId =>
    some ⟨"transfer", headers, .delete, "/api/v1/transfer/offer/" ++ offerId, []⟩
  | .claim headers body => some ⟨"transfer", headers, .post, "/api/v1/transfer/claim", body⟩
  | _ => none

/-- The key that signed a request's Authorization header. -/
def signer (app : App) (r : Request) : Option String :=
  (r.entry app).bind fun e => Auth.signer app e.headers

end Request

/-- The authorization of an entry at the time of a world. -/
def Entry.verify (app : App) (e : Entry) (w : World) : Except Refusal (String × String) :=
  verifyNip98 app e.headers e.method e.urlPath e.body w.unixNow

section

variable (app : App) (L R : Hist World → Hist World → Prop)

/-- The request passed `verify_nip98` for a key and its event was fresh. -/
def Authenticated (r : Request) (key : String) (h : Hist World) : Prop :=
  ∃ e id now h₀ h₁, r.entry app = some e ∧ L h₀ h ∧ e.verify app h₀.now = .ok (key, id) ∧
    L h₁ h ∧ (RateLimit.authEventFresh app.cfg h₁.now.seenAuth id now).1 = true

/-- A time that was read from the clock. -/
def ClockRead (now : Int) (h : Hist World) : Prop := ∃ h₀, L h₀ h ∧ now = h₀.now.unixNow

/-- What `settle_expiry` has made of an offer that a request read after `start`:
it was kept, or marked expired and read again. -/
inductive Settled (start : Hist World) (offerId : String) (now : Int) (offer : OfferRow)
    (h : Hist World) : Prop where
  | kept {h₀ : Hist World} :
      R start h₀ → h₀.now.query (·.getOffer offerId) = some offer →
      (offer.status ≠ .live ∨ now ≤ offer.expiration) → R h₀ h → Settled start offerId now offer h
  | reread {h₀ h₁ h₂ : Hist World} {before : OfferRow} {endHeight : Option Int} :
      R start h₀ → h₀.now.query (·.getOffer offerId) = some before →
      before.status = .live → before.expiration < now → R h₀ h₁ →
      R (h₁.push ((Stmt.markOfferDead before.offerId .expired endHeight now).apply app.cfg h₁.now))
        h₂ →
      offer = (h₂.now.query (·.getOffer before.offerId)).getD before → R h₂ h →
      Settled start offerId now offer h

/-- What a lodge request has seen when it inserts. -/
structure LodgeGrounds (r : Request) (body : Bytes) (o : NewOffer) (now : Int)
    (h : Hist World) : Prop where
  authenticated : Authenticated app L r o.sellerPubkey h
  event : ∃ event, offerEvent app body = some event ∧ offerColumns app event = some o
  clock : ClockRead L now h
  expiry : expiryAllowed app.cfg o.expiration now = true
  owner : ∃ h₀, R h₀ h ∧ h₀.now.query (·.lookup o.name) = some o.sellerPubkey
  sameName : ∃ h₀, R h₀ h ∧ h₀.now.holds (·.liveOfferForName o.name now) = false
  sameAddress : ∃ h₀, R h₀ h ∧ h₀.now.holds (·.liveOfferBinding o.proofAddress now) = false

/-- What a claim that arrived at `start` has seen when it runs its transaction. -/
structure ClaimGrounds (start : Hist World) (r : Request) (body : Bytes) (offer : OfferRow) (excessHex : String)
    (kernelHeight : Option Int) (now : Int) (h : Hist World) : Prop where
  authenticated : Authenticated app L r offer.buyerPubkey h
  clock : ClockRead L now h
  proof : ∃ offerId proof, claimBody app body = .ok (offerId, proof) ∧
    proof.excessHex = excessHex ∧ checkPayment app offer proof = .ok () ∧
    Settled app R start offerId now offer h
  unconsumed : offer.status ≠ .consumed
  gate : ∃ endHeight, deathGate app.cfg offer now = .ok endHeight ∧
    settledBelow endHeight kernelHeight = true
  owner : ∃ h₀, R h₀ h ∧ h₀.now.query (·.lookup offer.name) = some offer.sellerPubkey
  kernel : ∃ h₀ k, R h₀ h ∧ h₀.now.kernel excessHex = .ok k ∧ k.found = true ∧
    app.cfg.transferMinConf ≤ k.confirmations.toNat ∧
    kernelHeight = k.height.map Text.heightAsI64
  unused : ∃ h₀, R h₀ h ∧ h₀.now.holds (·.excessUsed excessHex) = false
  free : ∃ h₀, R h₀ h ∧ h₀.now.query (·.nameOf offer.buyerPubkey) = none

/-- Every section of every request, with its grounds. -/
inductive Because : Request → Stmt → Hist World → Prop where
  | look {r h} : Because r .look h
  | allow {r bucket ip max window now h} : Because r (.allow bucket ip max window now) h
  | cooldownActive {r bucket key window now h} : Because r (.cooldownActive bucket key window now) h
  | recordOp {r bucket key h} : Because r (.recordOp bucket key) h
  | authEventFresh {r : Request} {e : Entry} {key id : String} {h₀ h₁ h : Hist World} :
      r.entry app = some e → R h₀ h → e.verify app h₀.now = .ok (key, id) → R h₁ h →
      Because r (.authEventFresh id h₁.now.clock.nanos) h
  | register {headers body name pubkey h₀ h₁} {h : Hist World} :
      Authenticated app L (.register headers body) pubkey h →
      checkRegistration app pubkey body = .ok (name, pubkey) →
      R h₀ h → h₀.now.query (·.lookup name) = none →
      R h₁ h → h₁.now.query (·.nameOf pubkey) = none →
      Because (.register headers body) (.registerName name pubkey) h
  | release {headers raw key h₀} {h : Hist World} :
      Authenticated app L (.unregister headers raw) key h →
      R h₀ h → h₀.now.query (·.lookup (app.toLowercase raw)) = some key →
      Because (.unregister headers raw) (.releaseName (app.toLowercase raw)) h
  | lodge {headers body o now h} :
      LodgeGrounds app L R (.lodgeOffer headers body) body o now h →
      Because (.lodgeOffer headers body) (.insertOffer o now) h
  | expire {r offerId offer now h₀ h₁} {h : Hist World} :
      R h₀ h → h₀.now.query (·.getOffer offerId) = some offer → offer.status = .live →
      offer.expiration < now → ClockRead L now h → R h₁ h →
      Because r (.markOfferDead offer.offerId .expired h₁.now.tipHeight now) h
  | revoke {headers offerId offer now h₀ h₁} {h : Hist World} :
      Authenticated app L (.revokeOffer headers offerId) offer.sellerPubkey h →
      R h₀ h → h₀.now.query (·.getOffer offerId) = some offer → offer.status = .live →
      ClockRead L now h → R h₁ h →
      Because (.revokeOffer headers offerId)
        (.markOfferDead offer.offerId .revoked h₁.now.tipHeight now) h
  | revokeExpired {headers offerId offer h₀} {h : Hist World} :
      Authenticated app L (.revokeOffer headers offerId) offer.sellerPubkey h →
      R h₀ h → h₀.now.query (·.getOffer offerId) = some offer → offer.status = .expired →
      Because (.revokeOffer headers offerId) (.revokeExpired offer.offerId) h
  | claim {start headers body offer excessHex kernelHeight now h} :
      ClaimGrounds app L R start (.claim headers body) body offer excessHex kernelHeight now h →
      Because (.claim headers body) (.claimTxn offer excessHex kernelHeight now) h

/-- The guarantee of a section: what it does, and why it runs. -/
structure Guarantee (r : Request) (t : Stmt) (h : Hist World) (s : World) : Prop where
  effect : s = t.apply app.cfg h.now
  because : Because app L R r t h

/-- What an answer tells, for a request that arrived at `start`. -/
def Answer (r : Request) (start : Hist World) (response : Response) (h : Hist World) : Prop :=
  match r with
  | .claim headers body =>
    (response.status = 201 → ∃ offer excessHex kernelHeight now h₀,
      ClaimGrounds app L R start (.claim headers body) body offer excessHex kernelHeight now h₀ ∧
      L start h₀ ∧ L h₀ h ∧ (h₀.now.claimTxn offer excessHex kernelHeight now).1 = .ok ()) ∧
    (response = err 409 "owner_changed" → ∃ offerId proof offer now h₀,
      claimBody app body = .ok (offerId, proof) ∧ Settled app R start offerId now offer h₀ ∧
      L start h₀ ∧ ClockRead L now h₀ ∧
      h₀.now.query (·.lookup offer.name) ≠ some offer.sellerPubkey)
  | .lodgeOffer _ body =>
    response = err 409 "offer_exists" → ∃ event o now h₀ h₁,
      offerEvent app body = some event ∧ offerColumns app event = some o ∧
      R start h₀ ∧ h₀.now.query (·.lookup o.name) = some o.sellerPubkey ∧
      R start h₁ ∧ ClockRead L now h₁ ∧
      (h₁.now.holds (·.liveOfferForName o.name now) = true ∨
        h₁.now.db.insertOffer o now = .error .constraint)
  | .readOffer _ offerId =>
    response.status = 200 → ∃ offer now,
      Settled app R start offerId now offer h ∧ L start h ∧ ClockRead L now h
  | _ => True

end

section

variable {app : App} {L R : Hist World → Hist World → Prop} {r : Request} {h : Hist World}

/-- A death is dated by the clock. -/
theorem Because.died {offerId : String} {status : Death} {endHeight : Option Int} {at_ : Int}
    (because : Because app L R r (.markOfferDead offerId status endHeight at_) h) :
    ClockRead L at_ h := by
  cases because with
  | expire _ _ _ _ clock _ => exact clock
  | revoke _ _ _ _ clock _ => exact clock

/-- Only an offer that was read as expired is revoked whatever its status. -/
theorem Because.revoked {offerId : String} (because : Because app L R r (.revokeExpired offerId) h) :
    ∃ h₀ readId offer, R h₀ h ∧ h₀.now.query (·.getOffer readId) = some offer ∧
      offer.offerId = offerId ∧ offer.status = .expired := by
  cases because with
  | revokeExpired _ since found expired => exact ⟨_, _, _, since, found, rfl, expired⟩

end

end Nip05d
