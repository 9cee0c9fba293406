import Nip05d.Availability
import Nip05d.Successes

/-!
# Claims can be retried

A claim that was answered 201 leaves a transfers row, which no statement
changes, and a consumed offer, which stays consumed as long as requests are
handled one after the other. A later claim of the offer is answered from the
row before any check that would fail by then: with the first answer again, or
with a conflict when it names another payment.
-/

namespace Nip05d

open Auth Concurrent Handlers Proof

/-- A request has left the store as it was and has armed no cooldown. -/
structure LeavesNoMark (h h' : Hist World) : Prop where
  db : h'.now.db = h.now.db
  cooldowns : ∀ key hits, h'.now.rate.get ("namechange" ++ ":" ++ key) = some hits →
    h.now.rate.get ("namechange" ++ ":" ++ key) = some hits

/-- A recorded transfer is what its offer's id finds. -/
theorem Db.transferForOffer_of_mem {db : Db} {row : TransferRow} (member : row ∈ db.transfers.rows) :
    db.transferForOffer row.offerId = some (row.kernelExcess, row.name, row.buyerPubkey) := by
  have keyed : ∀ r : TransferRow, (r.offerId == row.offerId) = true →
      (fun r : TransferRow => some r.offerId) r = some row.offerId := by simp
  rw [transferForOffer, (db.transfers.select_eq_some _ transferKey keyed).2 ⟨member, beq_self_eq_true _⟩]
  rfl

section

variable {app : App} {ok : Request → Stmt → World → Prop} {log : List (Request × Hist World)}
  {h h₀ : Hist World} {headers : Headers} {body : Bytes}

/-! ## What complete requests leave behind -/

/-- What a section has stored evolves into the present store. -/
theorem sections_kept (run : Served (authority app) ok log h) :
    ∀ q ∈ (authority app).sections log,
      (q.2.1.apply app.cfg q.2.2.now).db.Evolves h.now.db := by
  refine one_by_one run (fun seen h => ∀ q ∈ seen,
    (q.2.1.apply app.cfg q.2.2.now).db.Evolves h.now.db) ?_ ?_ ?_
  · intro w fresh q member
    cases member
  · intro seen h e s inv moved
    rw [Hist.push_now, (Around.move_frame moved).1]
    exact inv
  · intro seen d r t _ inv _ _ q member
    rw [List.mem_append, List.mem_singleton] at member
    rcases member with old | rfl
    · exact (inv q old).trans (t.apply_evolves app.cfg d.hist.now)
    · exact .refl _

/-- A revocation on its own finds no consumed offer with its UPDATE. -/
theorem revokesUnconsumed_alone {r : Request} {t : Stmt}
    (because : Because app Own Quiet r t h) : revokesUnconsumed r t h.now = true := by
  cases t with
  | revokeExpired offerId =>
    obtain ⟨h₀, readId, offer, since, found, rfl, expired⟩ := because.revoked
    obtain ⟨member, same⟩ := Db.getOffer_eq_some.1 (World.query_eq_some.1 found).2
    have here : h.now.db.getOffer offer.offerId = some offer :=
      Db.getOffer_eq_some.2 ⟨since.db ▸ member, rfl⟩
    simp [revokesUnconsumed, here, expired]
  | _ => rfl

/-- Complete requests keep statuses and ledger in agreement. -/
theorem agrees_alone (run : Served (authority app) ok log h) : h.now.db.Agrees := by
  refine one_by_one run (fun _ h => h.now.db.Agrees) ?_ ?_ ?_
  · intro w fresh
    rw [fresh.db]
    exact ⟨nofun, nofun⟩
  · intro _ h e s inv moved
    rw [Hist.push_now, (Around.move_frame moved).1]
    exact inv
  · intro _ d r t _ inv _ because
    refine inv.section_ (revokesUnconsumed_alone because) fun offer excessHex kernelHeight now tag => ?_
    subst tag
    cases because with
    | claim grounds =>
      obtain ⟨offerId, proof, -, -, -, settled⟩ := grounds.proof
      exact ⟨offer, (Db.getOffer_eq_some.1 settled.current).1, rfl⟩

/-- A claim that was answered 201 was the buyer's, and its transfer is on
record. -/
theorem sale_recorded (run : Served (authority app) ok log h)
    (member : (.claim headers body, h₀) ∈ log)
    (sold : (reply app h₀ (.claim headers body)).status = 201) :
    ∃ offerId proof row, claimBody app body = .ok (offerId, proof) ∧
      row ∈ h.now.db.transfers.rows ∧ row.offerId = offerId ∧ row.kernelExcess = proof.excessHex ∧
      signer app headers = some row.buyerPubkey ∧
      reply app h₀ (.claim headers body) = claimSuccess 201 row.name app.cfg.domain row.buyerPubkey := by
  have told : ClaimTold app headers body ([] ++ _) (reply app h₀ (.claim headers body)) :=
    (@handlers_told app (.claim headers body)).alone h₀ headers body rfl
  generalize reply app h₀ (.claim headers body) = response at sold told ⊢
  obtain refused | ⟨key, id, w, offerId, proof, -, verified, parsed, committed | repeated⟩ := told
  · omega
  · cases committed with
    | @intro offer kernelHeight now w' same buyer signed ran done =>
      rw [List.nil_append, List.mem_map] at ran
      obtain ⟨⟨t, h'⟩, traced, ran⟩ := ran
      cases ran
      have kept := sections_kept run
        (.claim headers body, .claimTxn offer proof.excessHex kernelHeight now, h')
        (List.mem_flatMap.2 ⟨_, member, List.mem_map_of_mem traced⟩)
      obtain ⟨db, claimed, committed⟩ | ⟨e, -, failed⟩ :=
        h'.now.claimTxn_cases offer proof.excessHex kernelHeight now
      · have after : ((Stmt.claimTxn offer proof.excessHex kernelHeight now).apply app.cfg
            h'.now).db = db := by rw [Stmt.apply, committed]
        have row := kept.transfers _ (after ▸ claimed.transfers ▸ List.mem_cons_self)
        refine ⟨offerId, proof, _, parsed, row, same, rfl, ?_, rfl⟩
        rw [verifyNip98_signer verified, ← buyer]
        rfl
      · rw [failed] at done
        cases done
  · omega

/-- The offer of a recorded transfer is consumed. -/
theorem consumed_of_recorded (agrees : h.now.db.Agrees) {row : TransferRow}
    (member : row ∈ h.now.db.transfers.rows) :
    ∃ o, h.now.db.getOffer row.offerId = some o ∧ o.status = .consumed := by
  obtain ⟨o, there, same⟩ := agrees.lodged row member
  exact ⟨o, Db.getOffer_eq_some.2 ⟨there, same⟩,
    (agrees.consumed o there).2 ⟨row, member, same.symm⟩⟩

/-! ## A retry on its own -/

theorem settleExpiry_settled (cfg : Config) {offer : OfferRow} (now : Int)
    (settled : offer.status ≠ .live) : settleExpiry cfg offer now = pure offer :=
  if_pos (.inl settled)

/-- The routes of transfers exist when one of them has been answered. -/
theorem mounted_of_status (handler : Handler Response)
    (other : ((mounted app handler).alone h).1.status ≠ 404) : app.cfg.allowTransfers = true := by
  by_contra off
  rw [mounted, if_neg off] at other
  exact other rfl

/-- **What a claim of a consumed offer is answered.** -/
theorem consumed_reply {key id offerId : String} {proof : ParsedPaymentProof} {offer : OfferRow}
    (transfers : app.cfg.allowTransfers = true) (working : h.now.fault = none)
    (within : WithinWrite app "transfer" h.now headers)
    (verified : verifyClaim app headers body h.now = .ok (key, id)) (unused : Unused app id h.now)
    (parsed : claimBody app body = .ok (offerId, proof))
    (found : h.now.db.getOffer offerId = some offer) (consumed : offer.status = .consumed) :
    reply app h (.claim headers body) = retried app proof (h.now.db.transferForOffer offerId) ∧
      (after app h (.claim headers body)).now = (entered app "transfer" headers id h).now := by
  have settled : offer.status ≠ .live := by rw [consumed]; nofun
  let h₁ := entered app "transfer" headers id h
  have read : h₁.now.query (·.getOffer offerId) = some offer :=
    World.query_eq_some.2 ⟨working, found⟩
  have alone : (routes app (.claim headers body)).alone h =
      (claimRetry app offerId proof).alone ((h₁.push h₁.now).push h₁.now) := by
    rw [routes, mounted, if_pos transfers, claim, alone_authorized within verified unused, parsed]
    dsimp only
    rw [Handler.getOffer, alone_look, read]
    dsimp only
    rw [Handler.unixNow, alone_look, settleExpiry_settled _ _ settled, Prog.alone_bind]
    change Prog.alone (if offer.status = .consumed then _ else _) _ = _
    rw [if_pos consumed]
    rfl
  rw [reply, after, alone, claimRetry_eq]
  refine ⟨?_, rfl⟩
  change retried app proof (h₁.now.query (·.transferForOffer offerId)) = _
  rw [World.query_working (show h₁.now.fault = none from working)]
  rfl

/-- The entry checks of a transfer request leave no mark. -/
theorem entered_no_mark {id : String} {h' : Hist World}
    (same : h'.now = (entered app "transfer" headers id h).now) : LeavesNoMark h h' where
  db := by rw [same]; rfl
  cooldowns key hits found := by
    rw [same] at found
    exact RateLimit.allow_other
      (fun same => absurd (RateLimit.key_inj (by decide) (by decide) same).1 (by decide)) found

/-- **A claim can be retried** while the database answers: after any requests, a
claim of the buyer for the same offer is answered with the first answer again
when it names the same payment, and leaves no mark; one that names another is a
conflict. -/
theorem claims_retried {headers₀ : Headers} {body₀ : Bytes} (run : Served (authority app) ok log h)
    (member : (.claim headers₀ body₀, h₀) ∈ log)
    (sold : (reply app h₀ (.claim headers₀ body₀)).status = 201) :
    ∃ offerId proof₀ name buyer, claimBody app body₀ = .ok (offerId, proof₀) ∧
      signer app headers₀ = some buyer ∧
      reply app h₀ (.claim headers₀ body₀) = claimSuccess 201 name app.cfg.domain buyer ∧
      ∀ headers body id proof, h.now.fault = none → WithinWrite app "transfer" h.now headers →
        verifyClaim app headers body h.now = .ok (buyer, id) → Unused app id h.now →
        claimBody app body = .ok (offerId, proof) →
        (proof.excessHex = proof₀.excessHex →
          reply app h (.claim headers body) = claimSuccess 200 name app.cfg.domain buyer ∧
          LeavesNoMark h (after app h (.claim headers body))) ∧
        (proof.excessHex ≠ proof₀.excessHex →
          reply app h (.claim headers body) = err 409 "offer_consumed") := by
  have transfers : app.cfg.allowTransfers = true :=
    mounted_of_status (h := h₀) (claim app headers₀ body₀) (by
      change (reply app h₀ (.claim headers₀ body₀)).status ≠ 404
      rw [sold]
      decide)
  obtain ⟨offerId, proof₀, row, parsed₀, recorded, rfl, excess, signed, first⟩ :=
    sale_recorded run member sold
  obtain ⟨offer, found, consumed⟩ := consumed_of_recorded (agrees_alone run) recorded
  refine ⟨row.offerId, proof₀, row.name, row.buyerPubkey, parsed₀, signed, first, ?_⟩
  intro headers body id proof working within verified unused parsed
  obtain ⟨answer, left⟩ :=
    consumed_reply transfers working within verified unused parsed found consumed
  rw [Db.transferForOffer_of_mem recorded, excess] at answer
  constructor
  · intro same
    rw [retried, if_pos same.symm] at answer
    exact ⟨answer, entered_no_mark left⟩
  · intro other
    rw [retried, if_neg other.symm] at answer
    exact answer

end

namespace Scripted

/-- A sale, an attempt to revoke the sold offer, and more than two days. -/
def longSold : List (Request ⊕ Around) :=
  [.inl registerAda, .inl lodgeOne, .inl claimOne, .inl revokeOne, .inl readOne,
    .inr (.advance outOfGrace)]

/-- The buyer's second claim, with the body of the first, passes its entry
checks. -/
def Retries (h : Hist World) : Prop :=
  WithinWrite app "transfer" h.now (headers "late claim O1") ∧
    verifyClaim app (headers "late claim O1") (utf8 "C1") h.now =
      .ok (buyer.toHex, (key 7).toHex) ∧ Unused app (key 7).toHex h.now

instance (h : Hist World) : Decidable (Retries h) := inferInstanceAs (Decidable (_ ∧ _))

/-- The claim was answered 201. -/
def soldOne (log : List (Request × Hist World)) : Bool :=
  log.any fun q => q.1 == claimOne && (reply app q.2 claimOne).status == 201

theorem of_soldOne {log : List (Request × Hist World)} (sold : soldOne log = true) :
    ∃ h₀, (claimOne, h₀) ∈ log ∧ (reply app h₀ claimOne).status = 201 := by
  obtain ⟨⟨r, h₀⟩, member, sold⟩ := List.any_eq_true.1 sold
  rw [Bool.and_eq_true, beq_iff_eq, beq_iff_eq] at sold
  obtain ⟨rfl, status⟩ := sold
  exact ⟨h₀, member, status⟩

/-- While the database fails, the retry is answered as if there were no offer. -/
theorem retry_on_failure : ∃ log h h₀, Served (authority app) (fun _ _ _ => True) log h ∧
    (claimOne, h₀) ∈ log ∧ (reply app h₀ claimOne).status = 201 ∧ Retries h ∧
    (reply app h lateClaimOne).status = 404 := by
  have run : ((serve (fun _ _ _ => True) (longSold ++ [.inr (.database (some .start))])).any
      fun q => soldOne q.1 && (decide (Retries q.2) &&
        (reply app q.2 lateClaimOne).status == 404)) = true := by
    decide +kernel
  obtain ⟨⟨log, h⟩, run, found⟩ := (Option.any_eq_true _ _).1 run
  rw [Bool.and_eq_true, Bool.and_eq_true, decide_eq_true_eq, beq_iff_eq] at found
  obtain ⟨sold, passes, missing⟩ := found
  obtain ⟨h₀, member, first⟩ := of_soldOne sold
  exact ⟨log, h, h₀, serve_served run, member, first, passes, missing⟩

/-- The buyer asks again long after the sale. -/
theorem retried_late : ∃ log h name, Served (authority app) (fun _ _ _ => True) log h ∧
    reply app h lateClaimOne = claimSuccess 200 name app.cfg.domain buyer.toHex ∧
    LeavesNoMark h (after app h lateClaimOne) := by
  have run : ((serve (fun _ _ _ => True) longSold).any fun q =>
      soldOne q.1 && (decide (Retries q.2) && q.2.now.fault.isNone)) = true := by
    decide +kernel
  have signed : signer app (headers "claim O1") = some buyer.toHex := by decide +kernel
  obtain ⟨⟨log, h⟩, run, found⟩ := (Option.any_eq_true _ _).1 run
  rw [Bool.and_eq_true, Bool.and_eq_true, decide_eq_true_eq, Option.isNone_iff_eq_none] at found
  obtain ⟨sold, ⟨within, verified, unused⟩, working⟩ := found
  obtain ⟨h₀, member, first⟩ := of_soldOne sold
  have served := serve_served run
  obtain ⟨offerId', proof₀, name, buyer', parsed₀, signed₀, -, retry⟩ :=
    claims_retried served member first
  obtain rfl : buyer.toHex = buyer' := Option.some.inj (signed.symm.trans signed₀)
  have again := (retry _ _ _ _ working within verified unused parsed₀).1 rfl
  exact ⟨log, h, name, served, again⟩

end Scripted

end Nip05d
