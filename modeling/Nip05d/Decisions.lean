import Nip05d.Prices
import Nip05d.Retries
import Nip05d.Swap

/-!
# Which sales go through

When a claim is handled on its own, its answer is decided by what stands at its
arrival: the store, the node, the clock, the limits. `Honoured` says it in terms
of the deal, without the order of the checks and without the statements, and the
claim is answered 201 exactly then. So an offer that was lodged is honoured: the
buyer who has paid the signed price is turned away only when the payment is late
or used, the seller no longer owns the name, the buyer has one already, or the
price is beyond the signed column, where the record has another one.
-/

namespace Nip05d

open Auth Concurrent Handlers Names Proof Text

/-- An offer as a request on its own works on it: one that has just run out is
marked first, with the tip of the moment. -/
def OfferRow.settled (o : OfferRow) (w : World) : OfferRow :=
  if o.status ≠ .live ∨ w.unixNow ≤ o.expiration then o
  else { o with status := .expired, endHeight := w.tipHeight, stateChangedAt := some w.unixNow }

/-- A payment at a height is in time for an offer: the offer is live, or it ran
out before this request and the payment is below the tip, or it died and the
payment is below the height recorded, within the grace period. -/
inductive InTime (cfg : Config) (w : World) (o : OfferRow) (height : Option Int) : Prop
  | live : o.status = .live → w.unixNow ≤ o.expiration → InTime cfg w o height
  | expiring {last h : Int} : o.status = .live → o.expiration < w.unixNow →
      0 ≤ cfg.transferClaimGrace → w.tipHeight = some last → height = some h → h ≤ last →
      InTime cfg w o height
  | dead {last h : Int} : o.Dead →
      wrapI64 (w.unixNow - o.stateChangedAt.getD w.unixNow) ≤ cfg.transferClaimGrace →
      o.endHeight = some last → height = some h → h ≤ last → InTime cfg w o height

/-- What a claim and the offer it names have to meet. -/
structure Deal (app : App) (w : World) (key offerId : String) (proof : ParsedPaymentProof)
    (o : OfferRow) (k : KernelResult) : Prop where
  lodged : w.db.getOffer offerId = some o
  buyer : key = o.buyerPubkey
  paid : checkPayment app o proof = .ok ()
  reported : w.kernel proof.excessHex = .ok k
  confirmed : k.found = true ∧ app.cfg.transferMinConf ≤ k.confirmations.toNat
  inTime : InTime app.cfg w o (k.height.map heightAsI64)
  owned : w.db.lookup o.name = some o.sellerPubkey
  nameless : w.db.nameOf o.buyerPubkey = none
  unsold : ∀ row ∈ w.db.transfers.rows, row.offerId ≠ offerId ∧ row.kernelExcess ≠ proof.excessHex

/-- A write request is let in: the database answers, its address is within the
limit, and its event is authentic and fresh. -/
structure LetIn (app : App) (w : World) (bucket : String) (headers : Headers) (method : Method)
    (urlPath : String) (body : Bytes) (key : String) : Prop where
  budget : WithinWrite app bucket w headers
  authorized : ∃ id, verifyNip98 app headers method urlPath body w.unixNow = .ok (key, id) ∧
    Unused app id w

/-- Everything that a claim needs. -/
structure Honoured (app : App) (w : World) (headers : Headers) (body : Bytes) : Prop where
  mounted : app.cfg.allowTransfers = true
  working : w.fault = none
  deal : ∃ key offerId proof o k,
    LetIn app w "transfer" headers .post "/api/v1/transfer/claim" body key ∧
    claimBody app body = .ok (offerId, proof) ∧ Deal app w key offerId proof o k

section

variable {app : App} {h : Hist World} {headers : Headers} {body : Bytes} {w : World}

/-! ## The entry -/

/-- A write request that is answered below 400 was let in, and goes on as its key. -/
theorem let_in {bucket urlPath : String} {method : Method} {next : String → Handler Response}
    (works : ((Handlers.authorized app bucket headers method urlPath body next).alone h).1.status
      < 400) :
    ∃ key id, LetIn app h.now bucket headers method urlPath body key ∧
      (Handlers.authorized app bucket headers method urlPath body next).alone h =
        (next key).alone (entered app bucket headers id h) := by
  obtain ⟨key, id, verified, same⟩ := authorized_works works
  have within : WithinWrite app bucket h.now headers := by
    by_contra beyond
    unfold WithinWrite at beyond
    rw [Handlers.authorized, Handler.allowWrite, alone_allow, if_pos beyond] at works
    have code : 429 < 400 := works
    omega
  have unused : Unused app id h.now := by
    by_contra used
    unfold Unused at used
    rw [alone_allowed within, verified] at works
    dsimp only at works
    rw [alone_authEventFresh, if_pos used] at works
    have code : 401 < 400 := works
    omega
  exact ⟨key, id, ⟨within, id, verified, unused⟩, same⟩

/-- Being let in does not change what the deal is about. -/
structure SameDeal (w w' : World) : Prop where
  db : w'.db = w.db
  clock : w'.clock = w.clock
  node : w'.node = w.node
  fault : w'.fault = w.fault

/-! ## In time -/

theorem deathGate_open (cfg : Config) {o : OfferRow} (now : Int) (open_ : ¬ o.Dead) :
    deathGate cfg o now = .ok none := if_neg open_

theorem deathGate_iff {cfg : Config} {o : OfferRow} {now : Int} {height : Option Int}
    (dead : o.Dead) : (∃ last, deathGate cfg o now = .ok last ∧ settledBelow last height = true) ↔
      wrapI64 (now - o.stateChangedAt.getD now) ≤ cfg.transferClaimGrace ∧
      ∃ last h, o.endHeight = some last ∧ height = some h ∧ h ≤ last := by
  constructor
  · rintro ⟨gate, passed, below⟩
    obtain ⟨within, last, recorded, rfl⟩ := deathGate_ok passed dead
    refine ⟨within, ?_⟩
    cases height with
    | none => cases below
    | some h => exact ⟨last, h, recorded, rfl, by simpa [settledBelow] using below⟩
  · rintro ⟨within, last, h, recorded, rfl, below⟩
    refine ⟨some last, ?_, by simpa [settledBelow] using below⟩
    rw [deathGate, if_pos dead]
    dsimp only
    rw [if_neg (Int.not_lt.2 within), recorded]

/-- The gate lets a payment through exactly when it is in time. -/
theorem inTime_iff {cfg : Config} {o : OfferRow} {height : Option Int} :
    (o.settled w).status ≠ .consumed ∧
      (∃ last, deathGate cfg (o.settled w) w.unixNow = .ok last ∧
        settledBelow last height = true) ↔ InTime cfg w o height := by
  by_cases current : o.status ≠ .live ∨ w.unixNow ≤ o.expiration
  · rw [OfferRow.settled, if_pos current]
    by_cases dead : o.Dead
    · have unconsumed : o.status ≠ .consumed := by
        rcases dead with status | status <;> rw [status] <;> decide
      rw [deathGate_iff dead, and_iff_right unconsumed]
      constructor
      · rintro ⟨within, last, h, recorded, below⟩
        exact .dead dead within recorded below.1 below.2
      · intro inTime
        cases inTime with
        | live status _ => rcases dead with other | other <;> rw [status] at other <;> cases other
        | expiring status _ _ _ _ _ =>
          rcases dead with other | other <;> rw [status] at other <;> cases other
        | dead _ within recorded found below => exact ⟨within, _, _, recorded, found, below⟩
    · constructor
      · rintro ⟨unconsumed, -⟩
        have live : o.status = .live := by
          by_contra other
          exact dead (dead_of_unconsumed other unconsumed)
        exact .live live (current.resolve_left (not_not.2 live))
      · intro inTime
        cases inTime with
        | live status _ =>
          exact ⟨by rw [status]; decide, none, deathGate_open cfg _ dead, rfl⟩
        | expiring status past _ _ _ _ =>
          exact absurd past (Int.not_lt.2 (current.resolve_left (not_not.2 status)))
        | dead died _ _ _ _ => exact absurd died dead
  · rw [OfferRow.settled, if_neg current]
    rw [not_or, not_not, Int.not_le] at current
    obtain ⟨live, past⟩ := current
    have zero : wrapI64 (w.unixNow - w.unixNow) = 0 := by
      rw [Int.sub_self]
      rfl
    rw [deathGate_iff (.inr rfl)]
    simp only [Option.getD_some, zero]
    constructor
    · rintro ⟨-, grace, last, h, recorded, found, below⟩
      exact .expiring live past grace recorded found below
    · intro inTime
      cases inTime with
      | live _ future => exact absurd past (Int.not_lt.2 future)
      | expiring _ _ grace recorded found below =>
        exact ⟨by decide, grace, _, _, recorded, found, below⟩
      | dead died _ _ _ _ => rcases died with other | other <;> rw [live] at other <;> cases other

/-! ## A claim on its own -/

/-- What a request works on, apart from the offers. -/
structure SameNames (w w' : World) : Prop where
  names : w'.db.names = w.db.names
  transfers : w'.db.transfers = w.db.transfers
  clock : w'.clock = w.clock
  node : w'.node = w.node
  fault : w'.fault = w.fault

/-- Settling an offer leaves its terms. -/
theorem OfferRow.settled_terms (o : OfferRow) (w : World) : ∃ status endHeight stateChangedAt,
    o.settled w = { o with status, endHeight, stateChangedAt } := by
  unfold OfferRow.settled
  split
  · exact ⟨_, _, _, rfl⟩
  · exact ⟨_, _, _, rfl⟩

theorem settle_alone {o : OfferRow} (working : h.now.fault = none)
    (found : h.now.db.getOffer o.offerId = some o) :
    ∃ h', (settleExpiry app.cfg o h.now.unixNow).alone h = (o.settled h.now, h') ∧
      SameNames h.now h'.now := by
  by_cases current : o.status ≠ .live ∨ h.now.unixNow ≤ o.expiration
  · refine ⟨h, ?_, rfl, rfl, rfl, rfl, rfl⟩
    rw [settleExpiry, if_pos current, OfferRow.settled, if_pos current]
    rfl
  · obtain ⟨n, db, ok⟩ := h.now.db.markOfferDead_works o.offerId .expired h.now.tipHeight h.now.unixNow
    obtain ⟨names, transfers, offers⟩ := Db.markOfferDead_ok ok
    have marked : (Stmt.markOfferDead o.offerId .expired h.now.tipHeight h.now.unixNow).apply app.cfg
        h.now = { h.now with db } := by
      simp [Stmt.apply, World.execute, working, ok]
    have live : o.status = .live := not_not.1 (not_or.1 current).1
    have again : db.getOffer o.offerId = some (o.settled h.now) := by
      refine Db.getOffer_eq_some.2 ⟨?_, ?_⟩
      · rw [offers, OfferRow.settled, if_neg current]
        exact Sql.mem_map_rewrite.2 ⟨o, (Db.getOffer_eq_some.1 found).1, .inl ⟨by simp [live], rfl⟩⟩
      · rw [OfferRow.settled, if_neg current]
    let left : World := { h.now with db }
    have read : left.query (·.getOffer o.offerId) = some (o.settled h.now) :=
      World.query_eq_some.2 ⟨working, again⟩
    refine ⟨((h.push h.now).push left).push left, ?_, names, transfers, rfl, rfl, rfl⟩
    rw [settleExpiry, if_neg current, Handler.tipHeight, alone_look, Handler.markOfferDead, alone_exec,
      Hist.push_now, marked, Handler.getOffer, alone_look, Hist.push_now, read]
    rfl

/-- A request answers 201 behind a check exactly when it passes the check and what
follows answers 201. -/
theorem created_behind {refused : Prop} [Decidable refused] {r : Response} {next : Handler Response}
    (refusal : 400 ≤ r.status) :
    (Prog.alone (if refused then pure r else next) h).1.status = 201 ↔
      ¬ refused ∧ (next.alone h).1.status = 201 := by
  by_cases is : refused
  · rw [if_pos is]
    have code : (Prog.alone (pure r : Handler Response) h).1 = r := rfl
    rw [code]
    constructor
    · intro same
      omega
    · intro passed
      exact absurd is passed.1
  · rw [if_neg is, and_iff_right is]

theorem not_created {r : Response} (refusal : 400 ≤ r.status) {P : Prop} (never : ¬ P) :
    (Prog.alone (pure r : Handler Response) h).1.status = 201 ↔ P := by
  have code : (Prog.alone (pure r : Handler Response) h).1 = r := rfl
  rw [code]
  constructor
  · intro same
    omega
  · intro holds
    exact absurd holds never

/-- A buyer without a name is free to take one. -/
theorem free_of_nameless {db : Db} {o : OfferRow} (nameless : db.nameOf o.buyerPubkey = none) :
    ¬ db.BuyerHolds o := by
  rintro ⟨r, there, active, buyer, -⟩
  rw [Db.nameOf_eq_some.2 ⟨r, there, rfl, active, buyer⟩] at nameless
  cases nameless

/-- The node's answer about the kernel of a proof is good for a claim. -/
def Paid (app : App) (w : World) (proof : ParsedPaymentProof) (last : Option Int) : Prop :=
  ∃ k, w.kernel proof.excessHex = .ok k ∧
    (k.found = true ∧ app.cfg.transferMinConf ≤ k.confirmations.toNat) ∧
    settledBelow last (k.height.map heightAsI64) = true

theorem Db.excessUsed_eq_false {db : Db} {excessHex : String} :
    db.excessUsed excessHex = false ↔ ∀ t ∈ db.transfers.rows, t.kernelExcess ≠ excessHex := by
  simp only [excessUsed, Option.isSome_eq_false_iff, Option.isNone_iff_eq_none,
    db.transfers.select_eq_none]
  simp

theorem claimTxn_decided {o : OfferRow} {excessHex : String} {height : Option Int} {now : Int}
    (working : h.now.fault = none) :
    ((Handler.runClaimTxn app.cfg o excessHex height now >>= claimed app o).alone h).1.status = 201 ↔
      h.now.db.Claimable o excessHex := by
  have ran := h.now.db.runClaimTxn_cases o excessHex height now
  rw [Handler.runClaimTxn, alone_exec, World.claimTxn, working]
  rcases ran with ⟨claimable, db, ok⟩ | ⟨never, failed⟩
  · rw [ok]
    exact iff_of_true rfl claimable
  · rw [failed]
    cases h.now.db.claimError o <;> exact not_created (by simp) never

theorem claimPaid_decided {o : OfferRow} {proof : ParsedPaymentProof} {last : Option Int} {now : Int}
    (working : h.now.fault = none) :
    ((claimPaid app o proof last now).alone h).1.status = 201 ↔ Paid app h.now proof last ∧
      h.now.db.nameOf o.buyerPubkey = none ∧ h.now.db.Claimable o proof.excessHex := by
  rw [claimPaid, Handler.kernel, alone_look, Paid]
  cases reported : h.now.kernel proof.excessHex with
  | error e =>
    refine not_created (by simp) ?_
    rintro ⟨⟨k, ok, -⟩, -⟩
    cases ok
  | ok k =>
    dsimp only
    rw [created_behind (by simp), created_behind (deadErr_status o), Handler.excessUsed, alone_look,
      created_behind (by simp), Handler.nameOf, alone_look, Hist.push_now, Hist.push_now,
      World.query_working working]
    cases held : h.now.db.nameOf o.buyerPubkey with
    | some name =>
      dsimp only
      rw [not_created (P := False) (by simp) not_false]
      simp
    | none =>
      dsimp only
      rw [claimTxn_decided (h := ((h.push h.now).push h.now).push h.now) working]
      constructor
      · rintro ⟨deep, below, -, claimable⟩
        rw [not_or, not_not, not_lt] at deep
        exact ⟨⟨k, rfl, deep, not_not.1 below⟩, rfl, claimable⟩
      · rintro ⟨⟨k', same, deep, below⟩, -, claimable⟩
        cases same
        have unused : h.now.holds (·.excessUsed proof.excessHex) = false :=
          (World.holds_eq_false working).2 (Db.excessUsed_eq_false.2 claimable.unused)
        rw [not_or, not_not, not_lt]
        exact ⟨deep, not_not.2 below, by rw [unused]; decide, claimable⟩

/-- An offer as a claim that finds it works on it. -/
theorem claimOpen_decided {key : String} {o : OfferRow} {proof : ParsedPaymentProof} {now : Int}
    (working : h.now.fault = none) :
    ((claimOpen app key o proof now).alone h).1.status = 201 ↔
      (∃ last, deathGate app.cfg o now = .ok last ∧ Paid app h.now proof last) ∧
      key = o.buyerPubkey ∧ checkPayment app o proof = .ok () ∧
      h.now.db.nameOf o.buyerPubkey = none ∧ h.now.db.Claimable o proof.excessHex := by
  rw [claimOpen]
  cases gate : deathGate app.cfg o now with
  | error response =>
    rw [deathGate_error gate]
    refine not_created (deadErr_status o) ?_
    rintro ⟨⟨last, ok, -⟩, -⟩
    cases ok
  | ok last =>
    dsimp only
    rw [created_behind (by simp), Handler.lookup, alone_look, created_behind (by simp),
      World.query_working working]
    cases paid : checkPayment app o proof with
    | error response =>
      dsimp only
      rw [not_created (P := False) (checkPayment_error paid) not_false]
      simp
    | ok =>
      dsimp only
      rw [claimPaid_decided (h := h.push h.now) working]
      constructor
      · rintro ⟨buyer, owner, good, nameless, claimable⟩
        exact ⟨⟨last, rfl, good⟩, not_not.1 buyer, rfl, nameless, claimable⟩
      · rintro ⟨⟨last', same, good⟩, buyer, -, nameless, claimable⟩
        cases same
        exact ⟨not_not.2 buyer, not_not.2 claimable.owned, good, nameless, claimable⟩

/-- A retry is never answered 201. -/
theorem retry_not_created {offerId : String} {proof : ParsedPaymentProof} :
    ((claimRetry app offerId proof).alone h).1.status ≠ 201 := by
  rw [claimRetry_eq]
  intro same
  have answer := retried_status app proof (h.now.query (·.transferForOffer offerId))
  change (retried app proof (h.now.query (·.transferForOffer offerId))).status = 201 at same
  omega

/-- A payment that passes the gate is confirmed and in time. -/
theorem paid_iff {o : OfferRow} {proof : ParsedPaymentProof} :
    ((o.settled w).status ≠ .consumed ∧ ∃ last,
        deathGate app.cfg (o.settled w) w.unixNow = .ok last ∧ Paid app w proof last) ↔
      ∃ k, w.kernel proof.excessHex = .ok k ∧
        (k.found = true ∧ app.cfg.transferMinConf ≤ k.confirmations.toNat) ∧
        InTime app.cfg w o (k.height.map heightAsI64) := by
  constructor
  · rintro ⟨unconsumed, last, gate, k, reported, deep, below⟩
    exact ⟨k, reported, deep, inTime_iff.1 ⟨unconsumed, last, gate, below⟩⟩
  · rintro ⟨k, reported, deep, inTime⟩
    obtain ⟨unconsumed, last, gate, below⟩ := inTime_iff.2 inTime
    exact ⟨unconsumed, last, gate, k, reported, deep, below⟩

/-- The names and the transfers decide whether a claim can commit. -/
theorem claimable_same {db db' : Db} {o o' : OfferRow} {excessHex : String}
    (names : db'.names = db.names) (transfers : db'.transfers = db.transfers)
    (terms : ∃ status endHeight stateChangedAt, o' = { o with status, endHeight, stateChangedAt }) :
    db'.Claimable o' excessHex ↔ db.Claimable o excessHex := by
  obtain ⟨status, endHeight, stateChangedAt, rfl⟩ := terms
  rw [Db.claimable_iff, Db.claimable_iff, Db.lookup, Db.lookup, Db.BuyerHolds, Db.BuyerHolds, names,
    transfers]

/-- A claim that finds its offer succeeds when the deal stands. -/
theorem found_decided {key offerId : String} {proof : ParsedPaymentProof} {o : OfferRow}
    (working : h.now.fault = none) (found : h.now.db.getOffer offerId = some o) :
    (Prog.alone (do
      let now ← Handler.unixNow
      let offer ← settleExpiry app.cfg o now
      if offer.status = .consumed then claimRetry app offerId proof
      else claimOpen app key offer proof now) h).1.status = 201 ↔
        ∃ k, Deal app h.now key offerId proof o k := by
  obtain ⟨member, rfl⟩ := Db.getOffer_eq_some.1 found
  obtain ⟨h', alone, same⟩ : ∃ h', (settleExpiry app.cfg o h.now.unixNow).alone (h.push h.now) =
      (o.settled h.now, h') ∧ SameNames h.now h'.now := settle_alone (h := h.push h.now) working found
  rw [Handler.unixNow, alone_look, Prog.alone_bind, alone]
  dsimp only
  have terms := o.settled_terms h.now
  by_cases consumed : (o.settled h.now).status = .consumed
  · rw [if_pos consumed]
    constructor
    · intro created
      exact absurd created retry_not_created
    · rintro ⟨k, deal⟩
      exact absurd consumed (inTime_iff.2 deal.inTime).1
  · rw [if_neg consumed, claimOpen_decided (same.fault.trans working),
      claimable_same same.names same.transfers terms]
    have buyer : (o.settled h.now).buyerPubkey = o.buyerPubkey := by
      obtain ⟨_, _, _, settled⟩ := terms
      rw [settled]
    have payment : checkPayment app (o.settled h.now) proof = checkPayment app o proof := by
      obtain ⟨_, _, _, settled⟩ := terms
      rw [settled]
      rfl
    have holder : h'.now.db.nameOf o.buyerPubkey = h.now.db.nameOf o.buyerPubkey := by
      rw [Db.nameOf, Db.nameOf, same.names]
    have answered : ∀ last, Paid app h'.now proof last ↔ Paid app h.now proof last := by
      intro last
      rw [Paid, Paid, World.kernel, World.kernel, same.node]
    rw [buyer, payment, holder]
    constructor
    · rintro ⟨⟨last, gate, paid⟩, key, signed, nameless, claimable⟩
      obtain ⟨k, reported, confirmed, inTime⟩ :=
        paid_iff.1 ⟨consumed, last, gate, (answered last).1 paid⟩
      exact ⟨k, found, key, signed, reported, confirmed, inTime, claimable.owned, nameless,
        fun row there => ⟨claimable.unrecorded row there, claimable.unused row there⟩⟩
    · rintro ⟨k, deal⟩
      obtain ⟨-, last, gate, paid⟩ := paid_iff.2 ⟨k, deal.reported, deal.confirmed, deal.inTime⟩
      exact ⟨⟨last, gate, (answered last).2 paid⟩, deal.buyer, deal.paid, deal.nameless, deal.owned,
        free_of_nameless deal.nameless, fun row there => (deal.unsold row there).1,
        fun row there => (deal.unsold row there).2⟩

/-- What a deal is about decides whether it stands. -/
theorem Deal.moved {w' : World} {key offerId : String} {proof : ParsedPaymentProof} {o : OfferRow}
    {k : KernelResult} (deal : Deal app w key offerId proof o k) (same : SameDeal w w') :
    Deal app w' key offerId proof o k := by
  obtain ⟨db, rate, seenAuth, clock, node, fault⟩ := w'
  obtain ⟨rfl, rfl, rfl, rfl⟩ := same
  have inTime : InTime app.cfg ⟨w.db, rate, seenAuth, w.clock, w.node, w.fault⟩ o
      (k.height.map heightAsI64) := by
    cases deal.inTime with
    | live status future => exact .live status future
    | expiring status past grace recorded found below =>
      exact .expiring status past grace recorded found below
    | dead died within recorded found below => exact .dead died within recorded found below
  exact { deal with inTime }

/-- **A claim handled on its own is answered 201 exactly when the deal stands.** -/
theorem claim_decided (app : App) (h : Hist World) (headers : Headers) (body : Bytes) :
    (reply app h (.claim headers body)).status = 201 ↔ Honoured app h.now headers body := by
  constructor
  · intro created
    have allowed : app.cfg.allowTransfers = true :=
      mounted_of_status (h := h) (claim app headers body) (by
        change (reply app h (.claim headers body)).status ≠ 404
        omega)
    rw [reply, routes, mounted, if_pos allowed, claim] at created
    obtain ⟨key, id, letIn, same⟩ := let_in (created.trans_lt (by decide))
    rw [same] at created
    cases parsed : claimBody app body with
    | error response =>
      rw [parsed] at created
      have refused := claimBody_error parsed
      change response.status = 201 at created
      omega
    | ok named =>
      obtain ⟨offerId, proof⟩ := named
      rw [parsed] at created
      dsimp only at created
      rw [Handler.getOffer, alone_look] at created
      cases read : (entered app "transfer" headers id h).now.query (·.getOffer offerId) with
      | none =>
        rw [read] at created
        have code : 404 = 201 := created
        omega
      | some o =>
        rw [read] at created
        dsimp only at created
        obtain ⟨working, found⟩ := World.query_eq_some.1 read
        let h₁ := (entered app "transfer" headers id h).push (entered app "transfer" headers id h).now
        obtain ⟨k, deal⟩ := (found_decided (h := h₁) working found).1 created
        exact ⟨allowed, working, key, offerId, proof, o, k, letIn, parsed,
          deal.moved ⟨rfl, rfl, rfl, rfl⟩⟩
  · rintro ⟨allowed, working, key, offerId, proof, o, k, letIn, parsed, deal⟩
    obtain ⟨id, verified, unused⟩ := letIn.authorized
    rw [reply, routes, mounted, if_pos allowed, claim,
      alone_authorized letIn.budget verified unused, parsed]
    dsimp only
    have read : (entered app "transfer" headers id h).now.query (·.getOffer offerId) = some o :=
      World.query_eq_some.2 ⟨working, deal.lodged⟩
    rw [Handler.getOffer, alone_look, read]
    dsimp only
    let h₁ := (entered app "transfer" headers id h).push (entered app "transfer" headers id h).now
    exact (found_decided (h := h₁) working deal.lodged).2 ⟨k, deal.moved ⟨rfl, rfl, rfl, rfl⟩⟩

/-! ## Offers are honoured -/

/-- A buyer claims an offer with these terms and has paid the price that was
signed. -/
structure Tenders (app : App) (w : World) (headers : Headers) (body : Bytes) (terms : NewOffer)
    (price : Nat) (proof : ParsedPaymentProof) (k : KernelResult) : Prop where
  working : w.fault = none
  letIn : LetIn app w "transfer" headers .post "/api/v1/transfer/claim" body terms.buyerPubkey
  parsed : claimBody app body = .ok (terms.offerId, proof)
  signed : verifySignatures app proof = true
  address : normalizeGrinAddress app proof.recipientAddress = terms.proofAddress
  amount : proof.amount = price
  reported : w.kernel proof.excessHex = .ok k
  confirmed : k.found = true ∧ app.cfg.transferMinConf ≤ k.confirmations.toNat

/-- What else a sale depends on: the payment is in time, the name is still the
seller's, the buyer has none, and the payment was not used. -/
structure Outstanding (app : App) (w : World) (o : OfferRow) (proof : ParsedPaymentProof)
    (k : KernelResult) : Prop where
  inTime : InTime app.cfg w o (k.height.map heightAsI64)
  owned : w.db.lookup o.name = some o.sellerPubkey
  nameless : w.db.nameOf o.buyerPubkey = none
  unused : ∀ t ∈ w.db.transfers.rows, t.kernelExcess ≠ proof.excessHex

variable {ok : Request → Stmt → World → Prop} {log : List (Request × Hist World)} {h₀ : Hist World}
  {headers₀ : Headers} {body₀ : Bytes}

/-- An offer whose lodging was answered 201 is on record with the columns of its
event, the price cast to the signed column. -/
theorem offer_recorded (run : Served (authority app) ok log h)
    (member : (.lodgeOffer headers₀ body₀, h₀) ∈ log)
    (created : (reply app h₀ (.lodgeOffer headers₀ body₀)).status = 201) :
    ∃ event tags price terms row, offerEvent app body₀ = some event ∧
      SignedOffer app event tags price terms ∧ row ∈ h.now.db.offers.rows ∧
      row.columns = terms := by
  have told : Answered201 app _ ([] ++ _) (reply app h₀ (.lodgeOffer headers₀ body₀)) :=
    (@handlers_answer app (.lodgeOffer headers₀ body₀)).alone h₀
  obtain ⟨event, q, ran, terms, createdAt, m, tag, inserted, found, columns⟩ :=
    told headers₀ body₀ rfl created
  rw [List.nil_append, List.mem_map] at ran
  obtain ⟨⟨t, h'⟩, traced, rfl⟩ := ran
  dsimp only at tag inserted
  subst tag
  obtain ⟨db, -, stored, after⟩ := World.execute_ok inserted
  have kept := sections_kept run (.lodgeOffer headers₀ body₀, .insertOffer terms createdAt, h')
    (List.mem_flatMap.2 ⟨_, member, List.mem_map_of_mem traced⟩)
  have there : terms.row createdAt ∈ db.offers.rows :=
    (Db.insertOffer_ok stored).2.2.1 ▸ List.mem_cons_self
  rw [Stmt.apply, after] at kept
  obtain ⟨row, present, becomes⟩ := kept.offers _ there
  obtain ⟨tags, price, signed⟩ := offerColumns_eq_some columns
  exact ⟨event, tags, price, terms, row, found, signed, present, becomes.columns⟩

/-- The signed price is paid by the amount that equals it, exactly when the signed
column holds it. -/
theorem checkPayment_exact {event : Event} {tags : OfferTags} {price : Nat} {terms : NewOffer}
    {row : OfferRow} {proof : ParsedPaymentProof} (offer : SignedOffer app event tags price terms)
    (same : row.columns = terms) (signed : verifySignatures app proof = true)
    (address : normalizeGrinAddress app proof.recipientAddress = terms.proofAddress)
    (amount : proof.amount = price) : checkPayment app row proof = .ok () ↔ price < 2 ^ 63 := by
  constructor
  · intro passed
    by_contra large
    exact unpayable offer same (Nat.not_lt.1 large) proof passed
  · intro fits
    have stored : terms.priceNanogrin = u64AsI64 price := by rw [offer.columns]
    rw [(u64AsI64_eq (parseU64_lt offer.parsed)).2 fits] at stored
    subst same
    have recorded : row.priceNanogrin = price := stored
    have payee : normalizeGrinAddress app proof.recipientAddress = row.proofAddress := address
    have whole : proof.amount = wrapU64 row.priceNanogrin := by
      rw [wrapU64]
      omega
    rw [checkPayment, if_neg (not_not.2 signed), if_neg (not_not.2 payee), if_neg]
    omega

/-- **Offers are honoured.** An offer whose lodging was answered 201 stays on
record, and at any later time the buyer who has paid the signed price is answered
201 exactly when the price fits the signed column, the payment is in time, the
seller still owns the name, the buyer has none, and no other sale used the
payment. -/
theorem offers_honoured (run : Served (authority app) ok log h)
    (member : (.lodgeOffer headers₀ body₀, h₀) ∈ log)
    (created : (reply app h₀ (.lodgeOffer headers₀ body₀)).status = 201) :
    ∃ event tags price terms row, offerEvent app body₀ = some event ∧
      SignedOffer app event tags price terms ∧
      h.now.db.getOffer terms.offerId = some row ∧ row.columns = terms ∧
      ∀ headers body proof k, Tenders app h.now headers body terms price proof k →
        ((reply app h (.claim headers body)).status = 201 ↔
          price < 2 ^ 63 ∧ Outstanding app h.now row proof k) := by
  have allowed : app.cfg.allowTransfers = true :=
    mounted_of_status (h := h₀) (lodgeOffer app headers₀ body₀) (by
      change (reply app h₀ (.lodgeOffer headers₀ body₀)).status ≠ 404
      omega)
  obtain ⟨event, tags, price, terms, row, found, offer, present, same⟩ :=
    offer_recorded run member created
  have stored : h.now.db.getOffer terms.offerId = some row :=
    Db.getOffer_eq_some.2 ⟨present, congrArg NewOffer.offerId same⟩
  refine ⟨event, tags, price, terms, row, found, offer, stored, same,
    fun headers body proof k tenders => ?_⟩
  have paid := checkPayment_exact offer same tenders.signed tenders.address tenders.amount
  rw [claim_decided]
  constructor
  · rintro ⟨-, -, key, offerId, proof', row', k', -, parsed, deal⟩
    cases tenders.parsed.symm.trans parsed
    cases tenders.reported.symm.trans deal.reported
    cases stored.symm.trans deal.lodged
    exact ⟨paid.1 deal.paid, deal.inTime, deal.owned, deal.nameless,
      fun t there => (deal.unsold t there).2⟩
  · rintro ⟨fits, out⟩
    have unsold : ∀ t ∈ h.now.db.transfers.rows, t.offerId ≠ terms.offerId := by
      -- the offer of a recorded sale is consumed, and no payment is in time for it
      intro t there sold
      obtain ⟨row', stored', consumed⟩ := consumed_of_recorded (agrees_alone run) there
      rw [sold, stored] at stored'
      cases stored'
      cases out.inTime with
      | live status _ | expiring status _ _ _ _ _ => rw [consumed] at status; cases status
      | dead died _ _ _ _ => rcases died with status | status <;> rw [consumed] at status <;> cases status
    exact ⟨allowed, tenders.working, terms.buyerPubkey, terms.offerId, proof, row, k, tenders.letIn,
      tenders.parsed, stored, (congrArg NewOffer.buyerPubkey same).symm, paid.2 fits,
      tenders.reported, tenders.confirmed, out.inTime, out.owned, out.nameless,
      fun t there => ⟨unsold t there, out.unused t there⟩⟩

end

namespace Scripted

/-- The buyer's claim passes its entry checks. -/
def Asks (h : Hist World) : Prop :=
  WithinWrite app "transfer" h.now (headers "claim O1") ∧
    verifyClaim app (headers "claim O1") (utf8 "C1") h.now = .ok (buyer.toHex, (key 6).toHex) ∧
    Unused app (key 6).toHex h.now

instance (h : Hist World) : Decidable (Asks h) := inferInstanceAs (Decidable (_ ∧ _))

/-- A proof pays 5 to the zero key, and a node reports its kernel. -/
def paysFive (w : World) (proof : ParsedPaymentProof) : Bool :=
  verifySignatures app proof &&
    normalizeGrinAddress app proof.recipientAddress == address "grin" .bech32 &&
    proof.amount == 5 &&
    (w.kernel proof.excessHex).toOption.any fun k => k.found && decide (10 ≤ k.confirmations.toNat)

/-- The terms of the first offer. -/
def termsOne (event : Event) : Bool :=
  event.id.toHex == offerId 101 && event.pubkey.toHex == seller.toHex &&
    (extractOfferTags event).any fun tags =>
      tags.name == "ada" && app.toLowercase tags.buyer == buyer.toHex &&
        parseU64 (trim tags.price) == some 5 &&
        normalizeGrinAddress app tags.proofAddress == address "grin" .bech32

/-- Ada can still be sold. -/
def unsoldAda (w : World) : Bool :=
  (w.db.getOffer (offerId 101)).any (fun o => o.status == .live && decide (w.unixNow ≤ o.expiration)) &&
    w.db.lookup "ada" == some seller.toHex && (w.db.nameOf buyer.toHex).isNone &&
    w.db.transfers.rows.isEmpty

/-- The offer was lodged. -/
def lodgedOne (log : List (Request × Hist World)) : Bool :=
  log.any fun q => q.1 == lodgeOne && (reply app q.2 lodgeOne).status == 201

/-- Ada is offered, and the buyer who has paid is not turned away. -/
theorem offer_honoured : ∃ log h h₀, Served (authority app) (fun _ _ _ => True) log h ∧
    (lodgeOne, h₀) ∈ log ∧ (reply app h₀ lodgeOne).status = 201 ∧
    (reply app h claimOne).status = 201 := by
  have run : ((serve (fun _ _ _ => True) [.inl registerAda, .inl lodgeOne]).any fun q =>
      lodgedOne q.1 && (decide (Asks q.2) && (q.2.now.fault.isNone && (unsoldAda q.2.now &&
        (claimBody app (utf8 "C1")).toOption.any fun p =>
          p.1 == offerId 101 && paysFive q.2.now p.2)))) = true := by
    decide +kernel
  have offered : (offerEvent app (utf8 "L1")).any termsOne = true := by
    decide +kernel
  obtain ⟨⟨log, h⟩, run, found⟩ := (Option.any_eq_true _ _).1 run
  rw [Bool.and_eq_true, Bool.and_eq_true, Bool.and_eq_true, Bool.and_eq_true, decide_eq_true_eq,
    Option.isNone_iff_eq_none] at found
  obtain ⟨lodged, ⟨within, verified, fresh⟩, working, unsold, paid⟩ := found
  obtain ⟨⟨r, h₀⟩, member, lodged⟩ := List.any_eq_true.1 lodged
  rw [Bool.and_eq_true, beq_iff_eq, beq_iff_eq] at lodged
  obtain ⟨rfl, created⟩ := lodged
  have served := serve_served run
  obtain ⟨event, tags, price, terms, row, event_, offer, stored, same, honoured⟩ :=
    offers_honoured served member created
  rw [event_, Option.any_some, termsOne, offer.extracted, Option.any_some, offer.parsed] at offered
  simp only [Bool.and_eq_true, beq_iff_eq, Option.some.injEq] at offered
  obtain ⟨⟨eventId, author⟩, ⟨⟨tagged, bought⟩, five⟩, paidTo⟩ := offered
  have id : terms.offerId = offerId 101 := (congrArg NewOffer.offerId offer.columns).trans eventId
  have sellerKey : terms.sellerPubkey = seller.toHex :=
    (congrArg NewOffer.sellerPubkey offer.columns).trans author
  have name : terms.name = "ada" := (congrArg NewOffer.name offer.columns).trans tagged
  have buyerKey : terms.buyerPubkey = buyer.toHex :=
    (congrArg NewOffer.buyerPubkey offer.columns).trans bought
  have payee : terms.proofAddress = address "grin" .bech32 :=
    (congrArg NewOffer.proofAddress offer.columns).trans paidTo
  cases parsed : claimBody app (utf8 "C1") with
  | error e => simp [parsed, Except.toOption] at paid
  | ok named =>
    obtain ⟨offerId', proof⟩ := named
    simp only [parsed, Except.toOption, Option.any_some, Bool.and_eq_true, beq_iff_eq, paysFive] at paid
    obtain ⟨rfl, ⟨⟨signed, toZero⟩, amount⟩, reported⟩ := paid
    cases answer : h.now.kernel proof.excessHex with
    | error e => simp [answer] at reported
    | ok k =>
      simp only [answer, Option.any_some, Bool.and_eq_true, decide_eq_true_eq] at reported
      simp only [unsoldAda, Bool.and_eq_true, beq_iff_eq, Option.isNone_iff_eq_none,
        List.isEmpty_iff] at unsold
      obtain ⟨⟨⟨live, owned⟩, nameless⟩, empty⟩ := unsold
      rw [id] at stored
      rw [stored, Option.any_some, Bool.and_eq_true, beq_iff_eq, decide_eq_true_eq] at live
      have letIn : LetIn app h.now "transfer" (headers "claim O1") .post "/api/v1/transfer/claim"
          (utf8 "C1") terms.buyerPubkey := ⟨within, _, buyerKey ▸ verified, fresh⟩
      have tenders : Tenders app h.now (headers "claim O1") (utf8 "C1") terms price proof k :=
        ⟨working, letIn, id.symm ▸ parsed, signed, toZero.trans payee.symm, by omega, answer, reported⟩
      have name' : row.name = "ada" := (congrArg NewOffer.name same).trans name
      have seller' : row.sellerPubkey = seller.toHex :=
        (congrArg NewOffer.sellerPubkey same).trans sellerKey
      have buyer' : row.buyerPubkey = buyer.toHex :=
        (congrArg NewOffer.buyerPubkey same).trans buyerKey
      have out : Outstanding app h.now row proof k :=
        ⟨.live live.1 live.2, by rw [name', seller']; exact owned, by rw [buyer']; exact nameless,
          fun t there => by rw [empty] at there; cases there⟩
      exact ⟨log, h, h₀, served, member, created,
        (honoured _ _ proof k tenders).2 ⟨by omega, out⟩⟩

end Scripted

end Nip05d
