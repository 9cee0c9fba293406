import Nip05d.LiveOffers

/-!
# Payees of live offers

A payment names its receiver by a key, an offer by the text of an address. Lodge
keeps the texts of live offers apart, and a key has one text for each prefix
and checksum variant, so one payment can satisfy two live offers only when they
spell one key in two ways.
-/

namespace Nip05d

open Auth Concurrent Handlers Proof Text

/-- What both parties of a payment have agreed on. -/
structure Payment where
  amount : Nat
  excess : Bytes
  recipient : Bytes32
  sender : Bytes32
  recipientSig : Bytes
  senderSig : Bytes

/-- A proof object carries a payment. -/
structure Carries (app : App) (proof : ParsedPaymentProof) (p : Payment) : Prop where
  amount : proof.amount = p.amount
  excess : Hex.decode proof.excessHex = some p.excess
  recipient : decodeGrinAddress app proof.recipientAddress = some p.recipient
  sender : decodeGrinAddress app proof.senderAddress = some p.sender
  recipientSig : Hex.decode proof.recipientSigHex = some p.recipientSig
  senderSig : Hex.decode proof.senderSigHex = some p.senderSig

/-- Some proof object that carries a payment passes checks 6, 7 and 8 for an
offer. -/
def Satisfies (app : App) (offer : OfferRow) (p : Payment) : Prop :=
  ∃ value proof, parsePaymentProof app value = some proof ∧ Carries app proof p ∧
    checkPayment app offer proof = .ok ()

/-- Live offers of one price have different receiving keys, from now on. -/
def PayeesDiffer (app : App) (w : World) : Prop :=
  ∀ t, w.unixNow ≤ t → ∀ o ∈ w.db.offers.rows, ∀ o' ∈ w.db.offers.rows,
    o.offerId ≠ o'.offerId → o.LiveAt t → o'.LiveAt t → o.priceNanogrin = o'.priceNanogrin →
      decodeGrinAddress app o.proofAddress ≠ decodeGrinAddress app o'.proofAddress

/-- No payment satisfies two live offers, from now on. -/
def PaymentsDiffer (app : App) (w : World) : Prop :=
  ∀ t, w.unixNow ≤ t → ∀ o ∈ w.db.offers.rows, ∀ o' ∈ w.db.offers.rows,
    o.offerId ≠ o'.offerId → o.LiveAt t → o'.LiveAt t →
      ∀ p, Satisfies app o p → ¬ Satisfies app o' p

/-- An insertion finds no live offer of its price whose address spells its key
in another way. -/
def SpellsAlike (app : App) (t : Stmt) (w : World) : Prop :=
  match t with
  | .insertOffer o _ =>
    w.fault.isSome ∨ (∃ r ∈ w.db.offers.rows, r.offerId = o.offerId) ∨
      ∀ r ∈ w.db.offers.rows, r.LiveAt w.unixNow → r.priceNanogrin = o.priceNanogrin →
        decodeGrinAddress app r.proofAddress = decodeGrinAddress app o.proofAddress →
          spelling app r.proofAddress = spelling app o.proofAddress
  | _ => True

instance (app : App) (t : Stmt) (w : World) : Decidable (SpellsAlike app t w) :=
  match t with
  | .insertOffer _ _ => inferInstanceAs (Decidable (_ ∨ (∃ r ∈ w.db.offers.rows, _) ∨
      ∀ r ∈ w.db.offers.rows, r.LiveAt w.unixNow → _ → _ → _))
  | .look | .allow .. | .authEventFresh .. | .cooldownActive .. | .recordOp .. | .registerName ..
  | .releaseName .. | .markOfferDead .. | .revokeExpired .. | .claimTxn .. => .isTrue trivial

section

variable {app : App} {cfg : Config} {t : Stmt} {w : World}
  {log : List (Request × Hist World)} {h : Hist World}

/-! ## Stored addresses -/

/-- The address of a signed offer is normalized, and decodes. -/
theorem offerColumns_address {event : Event} {o : NewOffer}
    (columns : offerColumns app event = some o) :
    normalizeGrinAddress app o.proofAddress = o.proofAddress ∧
      ∃ key, decodeGrinAddress app o.proofAddress = some key := by
  obtain ⟨tags, price, signed⟩ := offerColumns_eq_some columns
  have address := congrArg NewOffer.proofAddress signed.columns
  rw [address]
  exact ⟨normalizeGrinAddress_idem _, Option.isSome_iff_exists.1 signed.validAddress⟩

/-- The price of a signed offer is in the range of an `i64`. -/
theorem offerColumns_price {event : Event} {o : NewOffer}
    (columns : offerColumns app event = some o) : InI64 o.priceNanogrin := by
  obtain ⟨tags, price, signed⟩ := offerColumns_eq_some columns
  have stored := congrArg NewOffer.priceNanogrin signed.columns
  dsimp only at stored
  rw [stored]
  exact u64AsI64_range price

/-- Checks 7 and 8 determine the price and the receiving key of an offer. -/
theorem Satisfies.pays {o : OfferRow} {p : Payment} (satisfies : Satisfies app o p) :
    decodeGrinAddress app o.proofAddress = some p.recipient ∧ 0 ≤ o.priceNanogrin ∧
      p.amount = wrapU64 o.priceNanogrin := by
  obtain ⟨value, proof, -, carries, passed⟩ := satisfies
  obtain ⟨-, address, nonneg, amount⟩ := checkPayment_ok passed
  refine ⟨?_, nonneg, carries.amount.symm.trans amount⟩
  rw [← address, decodeGrinAddress_normalize, carries.recipient]

/-- Offers with different payees are paid by different payments. -/
theorem PayeesDiffer.payments (payees : PayeesDiffer app w)
    (signed : ∀ o ∈ w.db.offers.rows, ∃ event, Signed app o event) : PaymentsDiffer app w := by
  intro time now o member o' member' differ live live' p first second
  obtain ⟨key, nonneg, amount⟩ := first.pays
  obtain ⟨key', nonneg', amount'⟩ := second.pays
  obtain ⟨event, signed₁⟩ := signed o member
  obtain ⟨event', signed₂⟩ := signed o' member'
  have range : InI64 o.priceNanogrin := offerColumns_price signed₁.columns
  have range' : InI64 o'.priceNanogrin := offerColumns_price signed₂.columns
  have price : o.priceNanogrin = o'.priceNanogrin := by
    rw [← wrapU64_of_nonneg nonneg range, ← wrapU64_of_nonneg nonneg' range', ← amount, ← amount']
  exact payees time now o member o' member' differ live live' price (key.trans key'.symm)

/-! ## Runs -/

theorem PayeesDiffer.around {e : Around} {s : World} (payees : PayeesDiffer app w)
    (moved : e.move w = some s) : PayeesDiffer app s := by
  obtain ⟨db, -, -, later⟩ := Around.move_frame moved
  intro time now
  rw [db]
  exact payees time (Int.le_trans (World.unixNow_mono later) now)

/-- An insertion of a new spelling of no live key keeps payees apart. -/
theorem PayeesDiffer.section_ (payees : PayeesDiffer app w)
    (fresh : ∀ n createdAt, t = .insertOffer n createdAt → w.fault = none →
      (∀ r ∈ w.db.offers.rows, r.offerId ≠ n.offerId) → ∀ r ∈ w.db.offers.rows,
        r.LiveAt w.unixNow → r.priceNanogrin = n.priceNanogrin →
          decodeGrinAddress app r.proofAddress ≠ decodeGrinAddress app n.proofAddress) :
    PayeesDiffer app (t.apply cfg w) := by
  intro time now o member o' member' differ live live' price
  rw [t.apply_unixNow] at now
  obtain old | ⟨n, createdAt, tag, rfl, working, new⟩ := live_after member live.1
  · obtain old' | ⟨n, createdAt, tag, rfl, working, new⟩ := live_after member' live'.1
    · exact payees time now o old o' old' differ live live' price
    · exact fresh n createdAt tag working new o old (live.earlier now) price
  · obtain old' | ⟨n', createdAt', tag', rfl, -, -⟩ := live_after member' live'.1
    · exact (fresh n createdAt tag working new o' old' (live'.earlier now) price.symm).symm
    · cases tag.symm.trans tag'
      exact absurd rfl differ

/-- Alone, an insertion that spells keys alike meets no live offer of its key:
its address would be the same. -/
theorem lodged_payee {r : Request} {n : NewOffer} {createdAt : Int}
    (because : Because app Own Quiet r (.insertOffer n createdAt) h)
    (working : h.now.fault = none)
    (signed : ∀ o ∈ h.now.db.offers.rows, ∃ event, Signed app o event)
    (alike : ∀ r ∈ h.now.db.offers.rows, r.LiveAt h.now.unixNow →
      r.priceNanogrin = n.priceNanogrin →
      decodeGrinAddress app r.proofAddress = decodeGrinAddress app n.proofAddress →
        spelling app r.proofAddress = spelling app n.proofAddress) :
    ∀ r ∈ h.now.db.offers.rows, r.LiveAt h.now.unixNow → r.priceNanogrin = n.priceNanogrin →
      decodeGrinAddress app r.proofAddress ≠ decodeGrinAddress app n.proofAddress := by
  intro row member live price same
  cases because with
  | lodge grounds =>
    obtain ⟨h₀, quiet, alone⟩ := grounds.sameAddress
    obtain ⟨event, -, columns⟩ := grounds.event
    obtain ⟨event', signed'⟩ := signed row member
    obtain ⟨normal, key, decoded⟩ := offerColumns_address columns
    obtain ⟨normal', -⟩ := offerColumns_address signed'.columns
    have text := decodeGrinAddress_inj (same.trans decoded) decoded (alike row member live price same)
    rw [normal] at text
    have address : row.proofAddress = n.proofAddress := normal'.symm.trans text
    have time : createdAt = h.now.unixNow := grounds.clock.own
    rw [World.holds_eq_false (quiet.own.fault.symm.trans working), ← quiet.db,
      Db.liveOfferBinding_eq_false] at alone
    exact alone row member (time ▸ live) address

theorem payees_reached (run : Served (authority app) (fun _ t w => SpellsAlike app t w) log h) :
    ∀ w ∈ h.states, PayeesDiffer app w := by
  refine one_by_one run (fun _ h => ∀ w ∈ h.states, PayeesDiffer app w) ?_ ?_ ?_
  · intro w fresh w' member time _ o there
    rw [Hist.states, List.mem_singleton] at member
    rw [member, fresh.db] at there
    cases there
  · intro _ h e s inv moved
    rw [Hist.states_push, List.forall_mem_cons]
    exact ⟨(inv h.now h.now_mem).around moved, inv⟩
  · intro _ d r t reach inv alike because
    rw [Hist.states_push, List.forall_mem_cons]
    refine ⟨(inv d.hist.now d.hist.now_mem).section_ ?_, inv⟩
    rintro n createdAt rfl working fresh
    refine lodged_payee because working (fun o member => (lodged reach o member).signed) ?_
    rcases alike with fails | ⟨r', member, same⟩ | alike
    · rw [working] at fails
      cases fails
    · exact absurd same (fresh r' member)
    · exact alike

/-- Offers are signed in every state of a run. -/
theorem signed_states {ok : Request → Stmt → World → Prop}
    (run : Served (authority app) ok log h) :
    ∀ w ∈ h.states, ∀ o ∈ w.db.offers.rows, ∃ event, Signed app o event := by
  obtain ⟨procs, reach⟩ := run.reach
  intro w member o there
  obtain ⟨o', there', becomes⟩ := (past_states reach w member).1.offers o there
  obtain ⟨event, signed⟩ := (lodged reach o' there').signed
  exact ⟨event, signed.verified, signed.kind, signed.domain, becomes.columns ▸ signed.columns,
    becomes.offerId ▸ signed.id, becomes.sellerPubkey ▸ signed.seller⟩

/-- **One payment satisfies one live offer**, in every run of complete requests
that spells the keys of live offers in one way. -/
theorem payments_differ (run : Served (authority app) (fun _ t w => SpellsAlike app t w) log h) :
    ∀ w ∈ h.states, PaymentsDiffer app w ∧ PayeesDiffer app w := by
  intro w member
  have payees := payees_reached run w member
  exact ⟨payees.payments (signed_states run w member), payees⟩

end

namespace Scripted

/-- The payment with the receiver's address spelled with another prefix. -/
def respelled : Json.Value :=
  match payment with
  | .object fields => .object (("recipient_address", .string (address "tgrin" .bech32)) ::
      fields.filter (·.1 != "recipient_address"))
  | v => v

/-- The payment of the script. -/
def paid : Payment :=
  let signature := sign (key 0) (amountToBeU64 5 ++ excess ++ (key 0).bytes)
  ⟨5, excess, key 0, key 0, signature, signature⟩

instance (proof : ParsedPaymentProof) (p : Payment) : Decidable (Carries app proof p) :=
  decidable_of_iff' (proof.amount = p.amount ∧ Hex.decode proof.excessHex = some p.excess ∧
      decodeGrinAddress app proof.recipientAddress = some p.recipient ∧
      decodeGrinAddress app proof.senderAddress = some p.sender ∧
      Hex.decode proof.recipientSigHex = some p.recipientSig ∧
      Hex.decode proof.senderSigHex = some p.senderSig)
    ⟨fun c => ⟨c.1, c.2, c.3, c.4, c.5, c.6⟩, fun ⟨a, b, c, d, e, f⟩ => ⟨a, b, c, d, e, f⟩⟩

/-- Ada and bob are on offer for one price, at one key with two prefixes: one
payment satisfies both offers. -/
theorem paid_twice : ∃ log h, Served (authority app) (fun _ _ _ => True) log h ∧
    log.map Prod.fst = [registerAda, registerBob, lodgeOne, lodgeThree] ∧
    ¬ PaymentsDiffer app h.now ∧ ¬ PayeesDiffer app h.now := by
  have proofs : (((parsePaymentProof app payment).any fun proof =>
      decide (Carries app proof paid)) && (parsePaymentProof app respelled).any fun proof =>
      decide (Carries app proof paid)) = true := by
    decide +kernel
  have run : ((serve (fun _ _ _ => True)
      [.inl registerAda, .inl registerBob, .inl lodgeOne, .inl lodgeThree]).any fun q =>
      q.1.map Prod.fst == [registerAda, registerBob, lodgeOne, lodgeThree] &&
      q.2.now.db.offers.rows.any fun o => decide (o.LiveAt q.2.now.unixNow) &&
        ((parsePaymentProof app payment).any fun proof =>
          (checkPayment app o proof).toOption.isSome) &&
        q.2.now.db.offers.rows.any fun o' => decide (o'.LiveAt q.2.now.unixNow) &&
          o.offerId != o'.offerId && o.priceNanogrin == o'.priceNanogrin &&
          (parsePaymentProof app respelled).any fun proof =>
            (checkPayment app o' proof).toOption.isSome) = true := by
    decide +kernel
  have satisfies : ∀ (o : OfferRow) (value : Json.Value),
      (parsePaymentProof app value).any (fun proof => decide (Carries app proof paid)) = true →
      (parsePaymentProof app value).any (fun proof => (checkPayment app o proof).toOption.isSome) =
        true → Satisfies app o paid := by
    intro o value carried passed
    obtain ⟨proof, parsed, carries⟩ := (Option.any_eq_true _ _).1 carried
    rw [parsed, Option.any_some] at passed
    cases answer : checkPayment app o proof with
    | ok u => exact ⟨value, proof, parsed, of_decide_eq_true carries, answer⟩
    | error e =>
      rw [answer] at passed
      cases passed
  obtain ⟨⟨log, h⟩, run, found⟩ := (Option.any_eq_true _ _).1 run
  rw [Bool.and_eq_true] at proofs
  simp only [Bool.and_eq_true, beq_iff_eq, bne_iff_ne, List.any_eq_true, decide_eq_true_eq] at found
  obtain ⟨requests, o, member, ⟨live, passed⟩, o', member', ⟨⟨live', differ⟩, price⟩, passed'⟩ :=
    found
  have first := satisfies o payment proofs.1 passed
  have second := satisfies o' respelled proofs.2 passed'
  refine ⟨log, h, serve_served run, requests, fun payments => ?_, fun payees => ?_⟩
  · exact payments _ (Int.le_refl _) o member o' member' differ live live' paid first second
  · exact payees _ (Int.le_refl _) o member o' member' differ live live' price
      (first.pays.1.trans second.pays.1.symm)

/-- Ada and bob are on offer for one price, at different keys. -/
theorem paid_once : ∃ log h, serve (fun _ t w => SpellsAlike app t w)
      [.inl registerAda, .inl registerBob, .inl lodgeOne, .inl lodgeTwo, .inl lodgeSeven] =
        some (log, h) ∧
    (∃ o ∈ h.now.db.offers.rows, ∃ o' ∈ h.now.db.offers.rows, o.offerId ≠ o'.offerId ∧
      o.LiveAt h.now.unixNow ∧ o'.LiveAt h.now.unixNow ∧ o.priceNanogrin = o'.priceNanogrin) ∧
    ∀ w ∈ h.states, PaymentsDiffer app w ∧ PayeesDiffer app w := by
  have run : ((serve (fun _ t w => SpellsAlike app t w)
      [.inl registerAda, .inl registerBob, .inl lodgeOne, .inl lodgeTwo, .inl lodgeSeven]).any fun q =>
      q.2.now.db.offers.rows.any fun o => q.2.now.db.offers.rows.any fun o' =>
        o.offerId != o'.offerId && decide (o.LiveAt q.2.now.unixNow) &&
          decide (o'.LiveAt q.2.now.unixNow) && o.priceNanogrin == o'.priceNanogrin) = true := by
    decide +kernel
  obtain ⟨⟨log, h⟩, run, found⟩ := (Option.any_eq_true _ _).1 run
  simp only [List.any_eq_true, Bool.and_eq_true, bne_iff_ne, beq_iff_eq, decide_eq_true_eq] at found
  obtain ⟨o, member, o', member', ⟨⟨differ, live⟩, live'⟩, price⟩ := found
  exact ⟨log, h, run, ⟨o, member, o', member', differ, live, live', price⟩,
    payments_differ (serve_served run)⟩

end Scripted

end Nip05d
