import Nip05d.Payees

/-!
# Payments behind transfers

A row of the transfers table appears in one step only: the transaction of a
claim that has authenticated the buyer, checked the proof against the offer and
seen the kernel. The offer it works on is a snapshot, but its columns never
change, so the checks hold of the row that is written.

The kernel excess on record is the lower-case spelling of its bytes, so the
UNIQUE column keeps byte strings apart.
-/

namespace Nip05d

open Auth Concurrent Handlers Proof Text

/-- A step inserted the row of an offer, whose id was not on record: a lodge
request with its grounds. -/
structure Inserted (app : App) (o : OfferRow) (s : Step) : Prop where
  absent : ∀ o' ∈ s.before.hist.now.db.offers.rows, o'.offerId ≠ o.offerId
  written : ∃ o' ∈ s.after.hist.now.db.offers.rows, o'.columns = o.columns
  lodge : ∃ i headers body createdAt, s.event = .run i ∧
    s.before.due i = some (.lodgeOffer headers body, .insertOffer o.columns createdAt) ∧
    LodgeGrounds app Later Later (.lodgeOffer headers body) body o.columns createdAt s.before.hist

/-- The proof of a claim pays an offer: exact amount, address, and both
signatures over the 73 bytes of amount, excess and sender key. -/
structure Pays (app : App) (o : OfferRow) (excessHex : String) (proof : ParsedPaymentProof) :
    Prop where
  excess : proof.excessHex = excessHex
  amount : (proof.amount : Int) = o.priceNanogrin
  address : normalizeGrinAddress app proof.recipientAddress = o.proofAddress
  signed : ∃ recipient sender excess recipientSig senderSig,
    decodeGrinAddress app proof.recipientAddress = some recipient ∧
    decodeGrinAddress app proof.senderAddress = some sender ∧
    Hex.decode excessHex = some excess ∧
    Hex.decode proof.recipientSigHex = some recipientSig ∧
    Hex.decode proof.senderSigHex = some senderSig ∧
    (amountToBeU64 proof.amount ++ excess ++ sender.bytes).length = 73 ∧
    verifyEd25519 app recipient (amountToBeU64 proof.amount ++ excess ++ sender.bytes)
      recipientSig = true ∧
    verifyEd25519 app sender (amountToBeU64 proof.amount ++ excess ++ sender.bytes)
      senderSig = true

/-- A step moves a name from its active owner to another, and changes nothing
else in the names table. -/
structure Moves (s : Step) (name seller buyer : String) (now : Int) : Prop where
  owned : s.before.hist.now.db.lookup name = some seller
  moved : s.after.hist.now.db.lookup name = some buyer
  others : s.after.hist.now.db.names.rows = s.before.hist.now.db.names.rows.map fun r =>
    if r.name = name then { r with pubkey := buyer, createdAt := now } else r

/-- A step wrote a transfer that is fully paid and authorised. -/
structure Sold (app : App) (steps : List Step) (row : TransferRow) (s : Step) : Prop where
  absent : row ∉ s.before.hist.now.db.transfers.rows
  written : row ∈ s.after.hist.now.db.transfers.rows
  offer : ∃ o ∈ s.before.hist.now.db.offers.rows, o.offerId = row.offerId ∧ o.name = row.name ∧
    o.sellerPubkey = row.sellerPubkey ∧ o.buyerPubkey = row.buyerPubkey ∧
    o.priceNanogrin = row.priceNanogrin ∧ (∃ event, Signed app o event) ∧
    (∃ s₀ ∈ steps, Inserted app o s₀) ∧
    ∃ i headers body kernelHeight now offer proof, s.event = .run i ∧
      s.before.due i =
        some (.claim headers body, .claimTxn offer row.kernelExcess kernelHeight now) ∧
      Authenticated app Later (.claim headers body) row.buyerPubkey s.before.hist ∧
      claimBody app body = .ok (row.offerId, proof) ∧ Pays app o row.kernelExcess proof
  kernel : ∃ h₀ k, Later h₀ s.before.hist ∧ h₀.now.kernel row.kernelExcess = .ok k ∧
    k.found = true ∧ app.cfg.transferMinConf ≤ k.confirmations.toNat
  moves : Moves s row.name row.sellerPubkey row.buyerPubkey row.claimedAt

section

variable {app : App} {ok : Request → Stmt → World → Prop}
  {c c' : Conf World Stmt Request Response} {steps : List Step} {w : World}

/-! ## What a committed claim has checked -/

theorem amountToBeU64_length (amount : Nat) : (amountToBeU64 amount).length = 8 := by
  simp [amountToBeU64]

/-- The checks of a claim, made on its snapshot, hold of the stored row. -/
theorem ClaimGrounds.pays {start h : Hist World} {r : Request} {body : Bytes} {offer o : OfferRow}
    {excessHex : String} {kernelHeight : Option Int} {now : Int}
    (grounds : ClaimGrounds app Later Later start r body offer excessHex kernelHeight now h)
    (becomes : offer.Becomes o) (range : InI64 o.priceNanogrin) :
    ∃ proof, claimBody app body = .ok (offer.offerId, proof) ∧ Pays app o excessHex proof := by
  obtain ⟨offerId, proof, parsed, rfl, paid, settled⟩ := grounds.proof
  obtain ⟨h₀, later, found⟩ := settled.read (Later.views app.cfg)
  rw [← (row_of_read found later).1] at parsed
  obtain ⟨verified, address, nonneg, amount⟩ := checkPayment_ok paid
  obtain ⟨recipient, sender, msg, hr, hs, built, recipientSig, senderSig, hrs, hss, vr, vs⟩ :=
    verifySignatures_message verified
  obtain ⟨excess, decoded, length, rfl⟩ := paymentProofMessage_eq built
  refine ⟨proof, parsed, rfl, ?_, address.trans becomes.proofAddress.symm, ?_⟩
  · rw [becomes.priceNanogrin] at range
    rw [amount, becomes.priceNanogrin]
    exact wrapU64_of_nonneg nonneg range
  · refine ⟨recipient, sender, excess, recipientSig, senderSig, hr, hs, decoded, hrs, hss, ?_, vr, vs⟩
    rw [List.length_append, List.length_append, amountToBeU64_length, length, sender.length]

/-- The excess that a claim records is the lower-case spelling of 33 bytes. -/
theorem ClaimGrounds.spelled {start h : Hist World} {r : Request} {body : Bytes}
    {offer : OfferRow} {excessHex : String} {kernelHeight : Option Int} {now : Int}
    (grounds : ClaimGrounds app Later Later start r body offer excessHex kernelHeight now h) :
    ∃ bytes, Hex.decode excessHex = some bytes ∧ bytes.length = 33 ∧
      excessHex = Hex.encode bytes := by
  obtain ⟨offerId, proof, parsed, rfl, paid, -⟩ := grounds.proof
  obtain ⟨recipient, sender, msg, -, -, built, -⟩ :=
    verifySignatures_message (checkPayment_ok paid).1
  obtain ⟨excess, decoded, length, -⟩ := paymentProofMessage_eq built
  obtain ⟨req, value, -, -, parsed⟩ := claimBody_proof parsed
  obtain ⟨raw, -, lower⟩ := parsePaymentProof_excess parsed
  have settled : ∀ ch ∈ chars proof.excessHex, Text.Settled app.crates.unicode ch := by
    rw [lower]
    exact fun ch member => mem_toLowercase member
  exact ⟨excess, decoded, length, Hex.decode_settled settled decoded⟩

/-! ## Every transfer is paid and authorised -/

/-- Only the columns of a row tell where it comes from. -/
theorem Inserted.same {s : Step} {o o' : OfferRow} (inserted : Inserted app o s)
    (same : o'.columns = o.columns) : Inserted app o' s := by
  have id : o'.offerId = o.offerId := congrArg NewOffer.offerId same
  obtain ⟨absent, ⟨row, there, columns⟩, lodge⟩ := inserted
  refine ⟨fun r member => id ▸ absent r member, ⟨row, there, columns.trans same.symm⟩, ?_⟩
  rw [same]
  exact lodge

/-- An offer on record was inserted by a step of the run. -/
theorem inserted_step (fresh : w.Fresh) (run : Run (authority app) (.start w) steps c)
    {o : OfferRow} (member : o ∈ c.hist.now.db.offers.rows) :
    ∃ s ∈ steps, Inserted app o s := by
  have reach : Reachable (authority app) (.start w) := .start fresh
  obtain ⟨s, there, reached, next, absent, ⟨o', member', same⟩⟩ := run.appears
    (fun c => ∃ o' ∈ c.hist.now.db.offers.rows, o'.offerId = o.offerId) reach (by
      rintro ⟨o', member', -⟩
      change o' ∈ w.db.offers.rows at member'
      rw [fresh.db] at member'
      cases member') ⟨o, member, rfl⟩
  refine ⟨s, there, ?_⟩
  have since := (run.mem (rely app) (handled (Later.views app.cfg)) reach
    (fun s _ => meets_true _ _) s there).2.2
  obtain hist | ⟨i, r, t, event, due, hist⟩ | ⟨v, s', -, moved, hist⟩ := step_cases reached next
  · rw [hist] at member'
    exact absurd ⟨o', member', same⟩ absent
  · have because := because_due reached due
    rw [hist, Hist.push_now] at member'
    obtain ⟨old, before, step⟩ | ⟨n, createdAt, rfl, rfl, -, -⟩ := offers_after member'
    · exact absurd ⟨old, before, step.becomes.offerId.symm.trans same⟩ absent
    · have becomes := since.db.becomes (hist ▸ member') member same.symm
      have columns : o.columns = n := becomes.columns
      cases because with
      | @lodge headers body _ _ _ grounds =>
        refine ⟨fun row before id => absent ⟨row, before, id⟩, ⟨n.row createdAt, ?_, columns.symm⟩, i,
          headers, body, createdAt, event, columns ▸ due, columns ▸ grounds⟩
        rw [hist, Hist.push_now]
        exact member'
  · rw [hist, Hist.push_now, (Around.move_frame moved).1] at member'
    exact absurd ⟨o', member', same⟩ absent

/-- A committed claim moves the name of its offer. -/
theorem claimed_moves {s : Step} {offer : OfferRow} {excessHex : String}
    {kernelHeight : Option Int} {now : Int}
    (claimed : Db.Claimed s.before.hist.now.db s.after.hist.now.db offer excessHex kernelHeight now) :
    Moves s offer.name offer.sellerPubkey offer.buyerPubkey now where
  owned := claimed.owned
  moved := by rw [claimed.lookup, if_pos rfl]
  others := claimed.swapped.names

/-- **Every transfer is fully paid and authorised.** -/
theorem transfers_paid (fresh : w.Fresh) (run : Run (authority app) (.start w) steps c)
    {row : TransferRow} (member : row ∈ c.hist.now.db.transfers.rows) :
    ∃ s ∈ steps, Sold app steps row s := by
  have reach : Reachable (authority app) (.start w) := .start fresh
  obtain ⟨s, there, reached, next, absent, written⟩ := run.appears
    (fun c => row ∈ c.hist.now.db.transfers.rows) reach (by
      intro member
      change row ∈ w.db.transfers.rows at member
      rw [fresh.db] at member
      cases member) member
  refine ⟨s, there, ?_⟩
  have since := (run.mem (rely app) (handled (Later.views app.cfg)) reach
    (fun s _ => meets_true _ _) s there).2.2
  have own := reached.step_rely (rely app) (handled (Later.views app.cfg)) next
  obtain hist | ⟨i, r, t, event, due, hist⟩ | ⟨v, s', -, moved, hist⟩ := step_cases reached next
  · exact absurd (hist ▸ written) absent
  · have here := written
    rw [hist, Hist.push_now] at here
    obtain old | ⟨offer, excessHex, kernelHeight, now, rfl, claimed, rfl⟩ := transfers_after here
    · exact absurd old absent
    have after : s.after.hist.now = (Stmt.claimTxn offer excessHex kernelHeight now).apply app.cfg
        s.before.hist.now := by rw [hist, Hist.push_now]
    rw [← after] at claimed
    cases because_due reached due with
    | @claim start headers body _ _ _ _ _ grounds =>
      obtain ⟨o, stored, becomes⟩ := grounds.row
      obtain ⟨event', signed⟩ := (lodged reached o stored).signed
      obtain ⟨proof, parsed, pays⟩ := grounds.pays becomes (offerColumns_price signed.columns)
      obtain ⟨last, there', becomes'⟩ := (own.trans since).db.offers o stored
      obtain ⟨s₀, earlier, inserted⟩ := inserted_step fresh run there'
      obtain ⟨h₀, k, later, reported, found, confirmed, -⟩ := grounds.kernel
      exact {
        absent
        written
        offer := ⟨o, stored, becomes.offerId, becomes.name, becomes.sellerPubkey,
          becomes.buyerPubkey, becomes.priceNanogrin, ⟨event', signed⟩,
          ⟨s₀, earlier, inserted.same becomes'.columns.symm⟩, i, headers, body, kernelHeight, now, offer, proof, event, due, grounds.authenticated,
          parsed, pays⟩
        kernel := ⟨h₀, k, later, reported, found, confirmed⟩
        moves := claimed_moves claimed }
  · rw [hist, Hist.push_now, (Around.move_frame moved).1] at written
    exact absurd written absent

/-! ## A kernel moves one name -/

/-- A step commits a claim whose proof has the given text as its excess. -/
def Commits (app : App) (s : Step) (raw : String) : Prop :=
  ∃ i headers body offer excessHex kernelHeight now req value, s.event = .run i ∧
    s.before.due i = some (.claim headers body, .claimTxn offer excessHex kernelHeight now) ∧
    (s.before.hist.now.claimTxn offer excessHex kernelHeight now).1 = .ok () ∧
    app.crates.valueFromSlice body = some req ∧ req.get "proof" = some value ∧
    (value.get "excess").bind Json.Value.asStr = some raw

/-- The excess on record is the lower-case spelling of 33 bytes. -/
def Spelled (db : Db) : Prop :=
  ∀ row ∈ db.transfers.rows, ∃ bytes, Hex.decode row.kernelExcess = some bytes ∧
    bytes.length = 33 ∧ row.kernelExcess = Hex.encode bytes

theorem spelled (reach : Reach (authority app) ok c) : Spelled c.hist.now.db := by
  refine interleaved reach (fun h => Spelled h.now.db) ?_ ?_ ?_
  · intro w fresh
    rw [fresh.db]
    exact fun row member => by cases member
  · intro h e s inv moved
    rw [Hist.push_now, (Around.move_frame moved).1]
    exact inv
  · intro d r t _ inv _ because row member
    obtain old | ⟨offer, excessHex, kernelHeight, now, rfl, -, rfl⟩ := transfers_after member
    · exact inv row old
    · cases because with
      | claim grounds => exact grounds.spelled

/-- A committed claim finds no transfer with its excess, and records one. -/
theorem Commits.records {s : Step} {raw : String} {bytes : Bytes} (commits : Commits app s raw)
    (reach : Reachable (authority app) s.before)
    (next : (authority app).step s.before s.event = some s.after)
    (decoded : Hex.decode raw = some bytes) :
    (∀ row ∈ s.before.hist.now.db.transfers.rows, row.kernelExcess ≠ Hex.encode bytes) ∧
      ∃ row ∈ s.after.hist.now.db.transfers.rows, row.kernelExcess = Hex.encode bytes := by
  obtain ⟨i, headers, body, offer, excessHex, kernelHeight, now, req, value, event, due, done,
    found, member, text⟩ := commits
  rw [event] at next
  have after := step_due reach next due
  obtain ⟨db, claimed, same⟩ | ⟨e, -, same⟩ := s.before.hist.now.claimTxn_cases offer excessHex
    kernelHeight now
  · have spelling : excessHex = Hex.encode bytes := by
      cases because_due reach due with
      | claim grounds =>
        obtain ⟨offerId, proof, parsed, rfl, -, -⟩ := grounds.proof
        obtain ⟨req', value', found', member', parsed⟩ := claimBody_proof parsed
        rw [found] at found'
        cases found'
        rw [member] at member'
        cases member'
        obtain ⟨raw', text', lower⟩ := parsePaymentProof_excess parsed
        rw [text] at text'
        cases text'
        rw [lower]
        exact Hex.decode_lower decoded
    subst spelling
    refine ⟨fun row there => (claimed.unused row there).2, ?_⟩
    refine ⟨Db.transferRow offer (Hex.encode bytes) kernelHeight now, ?_, rfl⟩
    rw [after, Hist.push_now, Stmt.apply, same, claimed.transfers]
    exact List.mem_cons_self
  · rw [same] at done
    cases done

/-- **A kernel moves at most one name.** -/
theorem kernel_moves_once (fresh : w.Fresh) (run : Run (authority app) (.start w) steps c) :
    (c.hist.now.db.transfers.rows.Pairwise fun a b => a.offerId ≠ b.offerId ∧
      Hex.decode a.kernelExcess ≠ Hex.decode b.kernelExcess) ∧
    steps.Pairwise fun s s' => ∀ raw raw' bytes, Commits app s raw → Commits app s' raw' →
      Hex.decode raw = some bytes → Hex.decode raw' ≠ some bytes := by
  have reach : Reachable (authority app) (.start w) := .start fresh
  have views := Later.views app.cfg
  constructor
  · have spelled := spelled (run.reach reach fun s _ => meets_true _ _)
    refine c.hist.now.db.transfers.unique.imp_of_mem ?_
    intro a b ha hb apart
    constructor
    · intro same
      rcases apart _ transferKey with outside | differ
      · cases outside
      · exact differ (congrArg some same)
    · intro same
      obtain ⟨bytes, decoded, -, text⟩ := spelled a ha
      obtain ⟨bytes', decoded', -, text'⟩ := spelled b hb
      rw [decoded, decoded', Option.some.injEq] at same
      rcases apart _ excessKey with outside | differ
      · cases outside
      · exact differ (congrArg some (text.trans (same ▸ text'.symm)))
  · refine (run.ordered (rely app) (handled views) reach).imp_of_mem ?_
    intro s s' hs hs' since raw raw' bytes first second decoded decoded'
    obtain ⟨reached, next, -⟩ := run.mem (rely app) (handled views) reach (fun s _ => meets_true _ _) s hs
    obtain ⟨reached', next', -⟩ := run.mem (rely app) (handled views) reach (fun s _ => meets_true _ _) s' hs'
    obtain ⟨-, row, written, text⟩ := first.records reached next decoded
    obtain ⟨unused, -⟩ := second.records reached' next' decoded'
    exact unused row (since.db.transfers row written) text

end

namespace Scripted

/-- Ada is registered, put on offer and sold. -/
def sold : List (Concurrent.Event Request Around) :=
  .arrive registerAda :: sections 0 10 ++ .arrive lodgeOne :: sections 1 10 ++
    .arrive claimOne :: sections 2 13

theorem sold_runs : ∃ steps c, Run (authority app) (.start world) steps c ∧
    steps.map Transition.event = sold ∧
    ∃ row ∈ c.hist.now.db.transfers.rows, row.offerId = offerId 101 := by
  have replayed : ((authority app).replayMeeting (fun _ _ _ => True) (.start world) sold).any
      (fun c => c.hist.now.db.transfers.rows.any (·.offerId == offerId 101)) = true := by
    decide +kernel
  obtain ⟨c, run, found⟩ := (Option.any_eq_true _ _).1 replayed
  obtain ⟨row, member, same⟩ := List.any_eq_true.1 found
  obtain ⟨steps, run, events, -⟩ := Run.replayMeeting run
  exact ⟨steps, c, run, events, row, member, beq_iff_eq.1 same⟩

theorem sold_paid : ∃ steps c, Run (authority app) (.start world) steps c ∧
    steps.map Transition.event = sold ∧
    ∃ row ∈ c.hist.now.db.transfers.rows, ∃ s ∈ steps, Sold app steps row s := by
  obtain ⟨steps, c, run, events, row, member, -⟩ := sold_runs
  exact ⟨steps, c, run, events, row, member, transfers_paid world_fresh run member⟩

/-- The buyer's offer of ada to a stranger. -/
def resaleOffer : Event :=
  { offer 105 buyer "ada" (address "grin" .bech32) with
    tags := [["name", "ada"], ["domain", "goblin.st"], ["p", other.toHex], ["price", "5"],
      ["proof_address", address "grin" .bech32], ["expiration", "1010"]] }

/-- A payment of 5 from the zero key to itself with an excess, spelled as given. -/
def paymentOf (excess : Bytes) (spelling : String) : Json.Value :=
  let signature := Hex.encode (sign (key 0) (Proof.amountToBeU64 5 ++ excess ++ (key 0).bytes))
  .object [("amount", .string "5"), ("excess", .string spelling),
    ("recipient_address", .string (address "grin" .bech32)), ("recipient_sig", .string signature),
    ("sender_address", .string (address "grin" .bech32)), ("sender_sig", .string signature)]

/-- The excess that pays for the resale. -/
def resaleExcess : Bytes := List.replicate 33 171

/-- The same excess in capitals. -/
def capitals : String := String.ofList (List.replicate 33 ['A', 'B']).flatten

/-- The script with the resale of ada, and with its payment offered for ada again. -/
def resaleScript : Script where
  events := [("O5", resaleOffer), ("O6", offer 106 other "ada" (address "grin" .bech32)),
    ("lodge O5", auth 21 buyer 1000 .post "/api/v1/transfer/offer" "L5"),
    ("claim O5", auth 22 other 1000 .post "/api/v1/transfer/claim" "C5"),
    ("lodge O6", auth 23 other 1000 .post "/api/v1/transfer/offer" "L6"),
    ("claim O6", auth 24 buyer 1000 .post "/api/v1/transfer/claim" "C6")] ++ script.events
  values := [("L5", .object [("offer", .string "O5")]),
    ("C5", .object [("offer_id", .string (offerId 105)),
      ("proof", paymentOf resaleExcess (Hex.encode resaleExcess))]),
    ("L6", .object [("offer", .string "O6")]),
    ("C6", .object [("offer_id", .string (offerId 106)),
      ("proof", paymentOf resaleExcess capitals)])] ++ script.values
  registrations := script.registrations

def resaleApp : App := ⟨config, crates resaleScript⟩

def lodgeFive : Request := .lodgeOffer (headers "lodge O5") (utf8 "L5")

def claimFive : Request := .claim (headers "claim O5") (utf8 "C5")

def lodgeSix : Request := .lodgeOffer (headers "lodge O6") (utf8 "L6")

def claimSix : Request := .claim (headers "claim O6") (utf8 "C6")

/-- Ada is sold and resold, and then claimed with the kernel of the resale. -/
def replayedSale : List (Concurrent.Event Request Around) :=
  sold ++ .arrive lodgeFive :: sections 3 10 ++ .arrive claimFive :: sections 4 13 ++
    .arrive lodgeSix :: sections 5 10 ++ .arrive claimSix :: sections 6 10

/-- Both sales stand, and the replayed kernel is refused although it is in capitals. -/
theorem sold_once : ∃ steps c response, Run (authority resaleApp) (.start world) steps c ∧
    steps.map Transition.event = replayedSale ∧
    c.hist.now.db.transfers.rows.map (·.offerId) = [offerId 105, offerId 101] ∧
    Hex.decode capitals = some resaleExcess ∧
    c.procs[6]? = some (claimSix, .ret response) ∧ response.status = 409 ∧
    (c.hist.now.db.transfers.rows.Pairwise fun a b =>
      a.offerId ≠ b.offerId ∧ Hex.decode a.kernelExcess ≠ Hex.decode b.kernelExcess) ∧
    steps.Pairwise fun s s' => ∀ raw raw' bytes, Commits resaleApp s raw → Commits resaleApp s' raw' →
      Hex.decode raw = some bytes → Hex.decode raw' ≠ some bytes := by
  have replayed : ((authority resaleApp).replayMeeting (fun _ _ _ => True) (.start world)
      replayedSale).any (fun c =>
        c.hist.now.db.transfers.rows.map (·.offerId) == [offerId 105, offerId 101] &&
          c.procs[6]?.any fun p => p.1 == claimSix && p.2.answer?.any (·.status == 409)) = true := by
    decide +kernel
  have spelling : Hex.decode capitals = some resaleExcess := by decide +kernel
  obtain ⟨c, run, found⟩ := (Option.any_eq_true _ _).1 replayed
  rw [Bool.and_eq_true, beq_iff_eq] at found
  obtain ⟨response, there, status⟩ := answered_of_any found.2
  obtain ⟨steps, run, events, -⟩ := Run.replayMeeting run
  exact ⟨steps, c, response, run, events, found.1, spelling, there, beq_iff_eq.1 status,
    kernel_moves_once world_fresh run⟩

end Scripted

end Nip05d
