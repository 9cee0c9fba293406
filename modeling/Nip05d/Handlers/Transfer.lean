import Nip05d.Handlers.Http
import Nip05d.Names
import Nip05d.Proof

/-!
# Name transfers

A seller lodges a signed offer; anyone reads it; the seller revokes it; the
buyer claims the name with a payment proof. Each handler is cut where its
sections fall: pure checks are functions of their own.
-/

namespace Nip05d.Handlers

open Auth Names Proof Text

/-- The offer event kind. -/
def offerKind : Nat := 3402

/-- The six required tags of an offer. -/
structure OfferTags where
  name : String
  domain : String
  buyer : String
  price : String
  proofAddress : String
  expiration : String

/-- The value of the last tag with a key; a tag without a value unsets it. -/
def lastTag (event : Event) (key : String) : Option String :=
  event.tags.foldl (fun acc parts =>
    match parts with
    | [] => acc
    | k :: rest => if k = key then rest.head? else acc) none

def extractOfferTags (event : Event) : Option OfferTags := do
  return {
    name := ← lastTag event "name"
    domain := ← lastTag event "domain"
    buyer := ← lastTag event "p"
    price := ← lastTag event "price"
    proofAddress := ← lastTag event "proof_address"
    expiration := ← lastTag event "expiration" }

/-- Success body shared by a fresh claim and its idempotent retry. -/
def claimSuccess (status : Nat) (name domain buyer : String) : Response :=
  respond status
    [("name", .string name), ("nip05", .string (name ++ "@" ++ domain)), ("pubkey", .string buyer)]

/-- Settle an offer that is `live` in the store but past its expiration: record
the chain tip and the time of this observation. The offer as it now stands. -/
def settleExpiry (cfg : Config) (offer : OfferRow) (now : Int) : Handler OfferRow := do
  if offer.status ≠ .live ∨ now ≤ offer.expiration then return offer
  let endHeight ← Handler.tipHeight
  let _ ← Handler.markOfferDead cfg offer.offerId .expired endHeight now
  let settled ← Handler.getOffer offer.offerId
  return settled.getD offer

/-! ## Lodging -/

/-- The event of a lodge body, verified. -/
def offerEvent (app : App) (body : Bytes) : Option Event := do
  let req ← app.crates.valueFromSlice body
  let offerVal ← req.get "offer"
  let event ← app.crates.eventFromJson (utf8 (app.crates.valueToString offerVal))
  if ¬ app.crates.eventVerify event then none
  else if event.kind ≠ offerKind then none
  else return event

/-- The columns of an offer as its event gives them. -/
def offerColumns (app : App) (event : Event) : Option NewOffer := do
  let tags ← extractOfferTags event
  if ¬ validName tags.name app.cfg.nameMin app.cfg.nameMax then none
  else if tags.domain ≠ app.cfg.domain then none
  else do
    let buyer := app.toLowercase tags.buyer
    if ¬ validPubkeyHex buyer then none
    else do
      let price ← parseU64 (trim tags.price)
      let proofAddress := normalizeGrinAddress app tags.proofAddress
      if (decodeGrinAddress app proofAddress).isNone then none
      else do
        let expiration ← parseI64 (trim tags.expiration)
        return {
          offerId := event.id.toHex
          eventJson := app.crates.eventAsJson event
          name := tags.name
          sellerPubkey := event.pubkey.toHex
          buyerPubkey := buyer
          priceNanogrin := u64AsI64 price
          proofAddress
          expiration }

theorem offerEvent_verified {app : App} {body : Bytes} {event : Event}
    (found : offerEvent app body = some event) :
    app.crates.eventVerify event = true ∧ event.kind = offerKind := by
  simp only [offerEvent, Option.bind_eq_bind, Option.bind_eq_some_iff] at found
  obtain ⟨_, -, _, -, event', -, found⟩ := found
  split at found
  · cases found
  rename_i verified
  split at found
  · cases found
  rename_i kind
  cases found
  exact ⟨by simpa using verified, not_not.1 kind⟩

/-- What a valid offer's tags say, and the columns they give. -/
structure SignedOffer (app : App) (event : Event) (tags : OfferTags) (price : Nat)
    (o : NewOffer) : Prop where
  extracted : extractOfferTags event = some tags
  validName : validName tags.name app.cfg.nameMin app.cfg.nameMax = true
  domain : tags.domain = app.cfg.domain
  validBuyer : validPubkeyHex (app.toLowercase tags.buyer) = true
  parsed : parseU64 (trim tags.price) = some price
  validAddress :
    (decodeGrinAddress app (normalizeGrinAddress app tags.proofAddress)).isSome = true
  expiration : parseI64 (trim tags.expiration) = some o.expiration
  columns : o = {
    offerId := event.id.toHex
    eventJson := app.crates.eventAsJson event
    name := tags.name
    sellerPubkey := event.pubkey.toHex
    buyerPubkey := app.toLowercase tags.buyer
    priceNanogrin := u64AsI64 price
    proofAddress := normalizeGrinAddress app tags.proofAddress
    expiration := o.expiration }

theorem offerColumns_eq_some {app : App} {event : Event} {o : NewOffer}
    (columns : offerColumns app event = some o) :
    ∃ tags price, SignedOffer app event tags price o := by
  simp only [offerColumns, Option.bind_eq_bind, Option.bind_eq_some_iff] at columns
  obtain ⟨tags, extracted, columns⟩ := columns
  split at columns
  · cases columns
  rename_i name
  split at columns
  · cases columns
  rename_i domain
  split at columns
  · cases columns
  rename_i buyer
  obtain ⟨price, parsed, columns⟩ := Option.bind_eq_some_iff.1 columns
  split at columns
  · cases columns
  rename_i address
  obtain ⟨expiration, parsed', columns⟩ := Option.bind_eq_some_iff.1 columns
  cases columns
  refine ⟨tags, price, extracted, by simpa using name, not_not.1 domain, by simpa using buyer,
    parsed, ?_, parsed', rfl⟩
  simpa [Option.isSome_iff_ne_none, Option.isNone_iff_eq_none] using address

/-- Expiry is in the future and at most the longest time-to-live out. -/
def expiryAllowed (cfg : Config) (expiration now : Int) : Bool :=
  now < expiration && expiration ≤ wrapI64 (now + cfg.transferMaxOfferTtl)

/-- The answer to an attempt to insert an offer. -/
def lodged (o : NewOffer) : Except Sql.Error Nat → Response
  | .ok _ =>
    respond 201
      [("offer_id", .string o.offerId), ("name", .string o.name),
        ("expires_at", .number (.posInt o.expiration.toNat))]
  | .error .constraint => err 409 "offer_exists"
  | .error .other => err 500 "db error"

/-- Owner, uniqueness of name and of address, and the insertion: four sections. -/
def lodgeChecked (app : App) (o : NewOffer) (now : Int) : Handler Response := do
  let owner ← Handler.lookup o.name
  if owner ≠ some o.sellerPubkey then return err 403 "not the owner"
  let sameName ← Handler.liveOfferForName o.name now
  if sameName then return err 409 "offer_exists"
  let sameAddress ← Handler.liveOfferBinding o.proofAddress now
  if sameAddress then return err 409 "offer_ambiguous"
  let res ← Handler.insertOffer app.cfg o now
  return lodged o res

def lodgeOffer (app : App) (headers : Headers) (body : Bytes) : Handler Response :=
  authorized app "transfer" headers .post "/api/v1/transfer/offer" body fun authPubkey => do
    match offerEvent app body with
    | none => return err 400 "invalid offer"
    | some event =>
      if event.pubkey.toHex ≠ authPubkey then
        return err 401 "auth pubkey does not match offer pubkey"
      match offerColumns app event with
      | none => return err 400 "invalid offer"
      | some o =>
        let now ← Handler.unixNow
        if ¬ expiryAllowed app.cfg o.expiration now then return err 400 "invalid offer"
        lodgeChecked app o now

/-! ## Reading and revoking -/

def OfferStatus.text : OfferStatus → String
  | .live => "live"
  | .consumed => "consumed"
  | .revoked => "revoked"
  | .expired => "expired"

def readOffer (app : App) (headers : Headers) (offerId : String) : Handler Response :=
  limited app headers do
    match ← Handler.getOffer offerId with
    | none => return err 404 "not found"
    | some offer =>
      let now ← Handler.unixNow
      let offer ← settleExpiry app.cfg offer now
      let eventVal := (app.crates.valueFromStr offer.eventJson).getD .null
      return publicRead [("offer", eventVal), ("status", .string (OfferStatus.text offer.status))]

def revokedAnswer (offerId : String) : Response :=
  respond 200 [("offer_id", .string offerId), ("status", .string "revoked")]

/-- Revocation of an offer that was read as live or expired. -/
def revokeRead (cfg : Config) (offerId : String) (offer : OfferRow) : Handler Response := do
  let now ← Handler.unixNow
  if offer.status = .live then
    let endHeight ← Handler.tipHeight
    let _ ← Handler.markOfferDead cfg offer.offerId .revoked endHeight now
    return revokedAnswer offerId
  else
    -- already expired: flip the status, keep the death record
    let _ ← Handler.revokeExpired cfg offer.offerId
    return revokedAnswer offerId

def revokeOffer (app : App) (headers : Headers) (offerId : String) : Handler Response :=
  authorized app "transfer" headers .delete ("/api/v1/transfer/offer/" ++ offerId) []
    fun authPubkey => do
      match ← Handler.getOffer offerId with
      | none => return err 404 "not found"
      | some offer =>
        if authPubkey ≠ offer.sellerPubkey then return err 403 "not the owner"
        if offer.status = .consumed then return err 409 "offer_consumed"
        if offer.status = .revoked then return revokedAnswer offerId
        revokeRead app.cfg offerId offer

/-! ## Claiming -/

/-- The offer id and the proof of a claim body. -/
def claimBody (app : App) (body : Bytes) : Except Response (String × ParsedPaymentProof) :=
  match app.crates.valueFromSlice body with
  | none => .error (err 400 "invalid body")
  | some req =>
    match (req.get "offer_id").bind Json.Value.asStr with
    | none => .error (err 400 "invalid body")
    | some s =>
      if s.utf8ByteSize = 64 ∧ (chars s).all isAsciiHexdigit then
        match req.get "proof" with
        | none => .error (err 400 "invalid body")
        | some proofVal =>
          match parsePaymentProof app proofVal with
          | none => .error (err 400 "invalid proof")
          | some proof => .ok (app.toLowercase s, proof)
      else .error (err 400 "invalid body")

/-- The proof of a claim body is parsed from its `proof` member. -/
theorem claimBody_proof {app : App} {body : Bytes} {offerId : String} {proof : ParsedPaymentProof}
    (parsed : claimBody app body = .ok (offerId, proof)) :
    ∃ req value, app.crates.valueFromSlice body = some req ∧ req.get "proof" = some value ∧
      parsePaymentProof app value = some proof := by
  unfold claimBody at parsed
  split at parsed
  · cases parsed
  rename_i req found
  split at parsed
  · cases parsed
  split at parsed
  · split at parsed
    · cases parsed
    rename_i value member
    split at parsed
    · cases parsed
    rename_i proof' there
    cases parsed
    exact ⟨req, value, found, member, there⟩
  · cases parsed

/-- The error of a claim on an offer that died. -/
def deadErr (offer : OfferRow) : Response :=
  if offer.status = .revoked then err 410 "offer_revoked" else err 410 "offer_expired"

/-- The gate of a dead offer: within the grace window, and with a recorded end
height. The end height, `none` for an offer that is not dead. -/
def deathGate (cfg : Config) (offer : OfferRow) (now : Int) : Except Response (Option Int) :=
  if offer.Dead then
    let changed := offer.stateChangedAt.getD now
    if wrapI64 (now - changed) > cfg.transferClaimGrace then .error (deadErr offer)
    else
      match offer.endHeight with
      | some h => .ok (some h)
      | none => .error (deadErr offer)
  else .ok none

theorem deathGate_error {cfg : Config} {offer : OfferRow} {now : Int} {response : Response}
    (refused : deathGate cfg offer now = .error response) : response = deadErr offer := by
  unfold deathGate at refused
  split at refused
  · simp only at refused
    split at refused
    · cases refused; rfl
    · split at refused
      · cases refused
      · cases refused; rfl
  · cases refused

/-- A dead offer passes within the grace window of its recorded death, with the
recorded height. -/
theorem deathGate_ok {cfg : Config} {offer : OfferRow} {now : Int} {endHeight : Option Int}
    (ok : deathGate cfg offer now = .ok endHeight) (dead : offer.Dead) :
    wrapI64 (now - offer.stateChangedAt.getD now) ≤ cfg.transferClaimGrace ∧
      ∃ h, offer.endHeight = some h ∧ endHeight = some h := by
  unfold deathGate at ok
  rw [if_pos dead] at ok
  simp only at ok
  split at ok
  · cases ok
  · rename_i within
    split at ok
    · rename_i h recorded
      cases ok
      exact ⟨Int.not_lt.1 within, h, recorded, rfl⟩
    · cases ok

/-- The payment settled at or below the height at which the offer died. -/
def settledBelow (deadEndHeight kernelHeight : Option Int) : Bool :=
  match deadEndHeight with
  | none => true
  | some endH =>
    match kernelHeight with
    | some kh => kh ≤ endH
    | none => false

/-- Signatures, recipient address and amount of the proof: checks 6, 7 and 8. -/
def checkPayment (app : App) (offer : OfferRow) (proof : ParsedPaymentProof) :
    Except Response Unit :=
  if ¬ verifySignatures app proof then .error (err 400 "invalid proof")
  else if normalizeGrinAddress app proof.recipientAddress ≠ offer.proofAddress then
    .error (err 409 "proof_address_mismatch")
  else if offer.priceNanogrin < 0 ∨ proof.amount ≠ wrapU64 offer.priceNanogrin then
    .error (err 409 "proof_amount_mismatch")
  else .ok ()

theorem checkPayment_ok {app : App} {offer : OfferRow} {proof : ParsedPaymentProof}
    (ok : checkPayment app offer proof = .ok ()) :
    verifySignatures app proof = true ∧
      normalizeGrinAddress app proof.recipientAddress = offer.proofAddress ∧
      0 ≤ offer.priceNanogrin ∧ proof.amount = wrapU64 offer.priceNanogrin := by
  unfold checkPayment at ok
  split at ok
  · cases ok
  rename_i verified
  split at ok
  · cases ok
  rename_i address
  split at ok
  · cases ok
  rename_i amount
  rw [not_or, not_not, Int.not_lt] at amount
  exact ⟨by simpa using verified, not_not.1 address, amount⟩

/-- Idempotent retry: the same offer and excess that already succeeded. -/
def claimRetry (app : App) (offerId : String) (proof : ParsedPaymentProof) : Handler Response := do
  match ← Handler.transferForOffer offerId with
  | some (excess, name, buyer) =>
    if excess = proof.excessHex then return claimSuccess 200 name app.cfg.domain buyer
    return err 409 "offer_consumed"
  | none => return err 409 "offer_consumed"

/-- The answer to the claim transaction; a committed one arms the seller's
cooldown. -/
def claimed (app : App) (offer : OfferRow) : Except TxErr Unit → Handler Response
  | .ok () => do
    Handler.recordOp app.cfg "namechange" offer.sellerPubkey
    return claimSuccess 201 offer.name app.cfg.domain offer.buyerPubkey
  | .error .ownerChanged => return err 409 "owner_changed"
  | .error .buyerHasName => return err 409 "pubkey already has a name"
  | .error .reused => return err 409 "proof_reused"
  | .error .db => return err 500 "db error"

/-- Checks 9 to 11 and the transaction. -/
def claimPaid (app : App) (offer : OfferRow) (proof : ParsedPaymentProof)
    (deadEndHeight : Option Int) (now : Int) : Handler Response := do
  match ← Handler.kernel proof.excessHex with
  | .error _ => return err 409 "payment_unconfirmed"
  | .ok kernel =>
    if ¬ kernel.found ∨ kernel.confirmations.toNat < app.cfg.transferMinConf then
      return err 409 "payment_unconfirmed"
    let kernelHeight := kernel.height.map heightAsI64
    if ¬ settledBelow deadEndHeight kernelHeight then return deadErr offer
    let used ← Handler.excessUsed proof.excessHex
    if used then return err 409 "proof_reused"
    match ← Handler.nameOf offer.buyerPubkey with
    | some existing =>
      return respond 409
        [("error", .string "pubkey already has a name"), ("name", .string existing)]
    | none =>
      let result ← Handler.runClaimTxn app.cfg offer proof.excessHex kernelHeight now
      claimed app offer result

/-- Checks 3 to 8 of a claim on an offer that is not consumed. -/
def claimOpen (app : App) (authPubkey : String) (offer : OfferRow) (proof : ParsedPaymentProof)
    (now : Int) : Handler Response := do
  match deathGate app.cfg offer now with
  | .error response => return response
  | .ok deadEndHeight =>
    if authPubkey ≠ offer.buyerPubkey then return err 401 "not the buyer"
    let owner ← Handler.lookup offer.name
    if owner ≠ some offer.sellerPubkey then return err 409 "owner_changed"
    match checkPayment app offer proof with
    | .error response => return response
    | .ok () => claimPaid app offer proof deadEndHeight now

def claim (app : App) (headers : Headers) (body : Bytes) : Handler Response :=
  authorized app "transfer" headers .post "/api/v1/transfer/claim" body fun authPubkey => do
    match claimBody app body with
    | .error response => return response
    | .ok (offerId, proof) =>
      match ← Handler.getOffer offerId with
      | none => return err 404 "not found"
      | some offer =>
        let now ← Handler.unixNow
        let offer ← settleExpiry app.cfg offer now
        if offer.status = .consumed then claimRetry app offerId proof
        else claimOpen app authPubkey offer proof now

end Nip05d.Handlers
