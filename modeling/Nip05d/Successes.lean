import Nip05d.Prices
import Nip05d.Ledger

/-!
# Who is told that a claim succeeded

A claim is answered with success at two exits. The one behind the transaction
comes after all checks. The other repeats the answer of a recorded transfer
whose excess the proof names, and comes before the key of the request and the
signatures of the proof are looked at: what it tells is the buyer's own only
when the buyer asks.
-/

namespace Nip05d

open Auth Concurrent Handlers Proof

/-- The pubkey that an answer reports. -/
def Handlers.Response.pubkey (response : Response) : Option String :=
  (response.body.get "pubkey").bind Json.Value.asStr

@[simp] theorem claimSuccess_pubkey (status : Nat) (name domain buyer : String) :
    (claimSuccess status name domain buyer).pubkey = some buyer := by
  simp [claimSuccess, respond, json, Response.pubkey, Json.Value.get, Json.Value.asStr]

/-- The entry check of a claim at the time of a world. -/
def verifyClaim (app : App) (headers : Headers) (body : Bytes) (w : World) :
    Except Refusal (String × String) :=
  verifyNip98 app headers .post "/api/v1/transfer/claim" body w.unixNow

/-- A claim with these sections and this answer was authorized for the key that
the answer reports, and its proof is signed. -/
structure ToBuyer (app : App) (headers : Headers) (body : Bytes) (seen : List (Stmt × World))
    (response : Response) : Prop where
  key : ∃ key id, ∃ q ∈ seen, verifyClaim app headers body q.2 = .ok (key, id) ∧
    response.pubkey = some key
  proof : ∃ offerId proof, claimBody app body = .ok (offerId, proof) ∧
    verifySignatures app proof = true

/-- A step in which a claim reads the transfer that is recorded for its offer,
which it has found consumed. -/
structure AtRetry (app : App) (i : Nat) (headers : Headers) (body : Bytes) (offerId : String)
    (proof : ParsedPaymentProof) (s : Step) : Prop where
  event : s.event = .run i
  parsed : claimBody app body = .ok (offerId, proof)
  next : s.before.procs[i]? = some (.claim headers body, claimRetry app offerId proof)

/-- A recorded transfer of the offer with the excess of the proof is repeated
only to its buyer, for a proof that is signed. -/
def RepeatsToBuyer (app : App) (headers : Headers) (offerId : String) (proof : ParsedPaymentProof)
    (w : World) : Prop :=
  ∀ name buyer, w.query (·.transferForOffer offerId) = some (proof.excessHex, name, buyer) →
    signer app headers = some buyer ∧ verifySignatures app proof = true

section

variable {app : App} {headers : Headers} {body : Bytes}

/-! ## The paths of a claim -/

/-- A claim of an authorized key has sold the name of its offer to the key. -/
inductive Committed (app : App) (offerId : String) (proof : ParsedPaymentProof) (key : String)
    (seen : List (Stmt × World)) : Response → Prop where
  | intro {offer : OfferRow} {kernelHeight : Option Int} {now : Int} {w : World} :
      offer.offerId = offerId → offer.buyerPubkey = key → verifySignatures app proof = true →
      (.claimTxn offer proof.excessHex kernelHeight now, w) ∈ seen →
      (w.claimTxn offer proof.excessHex kernelHeight now).1 = .ok () →
      Committed app offerId proof key seen (claimSuccess 201 offer.name app.cfg.domain offer.buyerPubkey)

/-- A claim is refused, or it was authorized, has a proof, and has sold the name
or repeats an answer. -/
def ClaimTold (app : App) (headers : Headers) (body : Bytes) (seen : List (Stmt × World))
    (response : Response) : Prop :=
  400 ≤ response.status ∨ ∃ key id w offerId proof, (.look, w) ∈ seen ∧
    verifyClaim app headers body w = .ok (key, id) ∧ claimBody app body = .ok (offerId, proof) ∧
    (Committed app offerId proof key seen response ∨ response.status = 200)

/-- A claim whose body is refused is refused. -/
theorem claimBody_error {response : Response} (refused : claimBody app body = .error response) :
    400 ≤ response.status := by
  unfold claimBody at refused
  repeat' split at refused
  all_goals cases refused
  all_goals simp [err, respond]

theorem deadErr_status (offer : OfferRow) : 400 ≤ (deadErr offer).status := by
  unfold deadErr
  split <;> simp

theorem checkPayment_error {offer : OfferRow} {proof : ParsedPaymentProof} {response : Response}
    (refused : checkPayment app offer proof = .error response) : 400 ≤ response.status := by
  unfold checkPayment at refused
  repeat' split at refused
  all_goals cases refused
  all_goals simp [err, respond]

section

variable {done : List (Stmt × World) → Response → Prop} {seen : List (Stmt × World)}

/-- Settling an expiry keeps the id of the offer. -/
theorem paths_settle {cfg : Config} {offer : OfferRow} {now : Int} {k : OfferRow → Handler Response}
    (next : ∀ o more, o.offerId = offer.offerId →
      (k o).Paths (fun _ _ => True) done (seen ++ more)) :
    (settleExpiry cfg offer now >>= k).Paths (fun _ _ => True) done seen := by
  unfold settleExpiry
  split
  · have kept := next offer [] rfl
    rwa [List.append_nil] at kept
  · refine ⟨trivial, fun w₁ => ⟨trivial, fun w₂ => ⟨trivial, fun w₃ => ?_⟩⟩⟩
    have same : ((w₃.query (·.getOffer offer.offerId)).getD offer).offerId = offer.offerId := by
      cases again : w₃.query (·.getOffer offer.offerId) with
      | none => rfl
      | some o => exact (Db.getOffer_eq_some.1 (World.query_eq_some.1 again).2).2
    rw [List.append_assoc, List.append_assoc]
    exact next _ _ same

theorem claimPaid_paths {key : String} {offer : OfferRow} {proof : ParsedPaymentProof}
    {deadEndHeight : Option Int} {now : Int} (own : offer.buyerPubkey = key)
    (verified : verifySignatures app proof = true) :
    (claimPaid app offer proof deadEndHeight now).Paths (fun _ _ => True)
      (fun seen response => 400 ≤ response.status ∨
        Committed app offer.offerId proof key seen response) seen := by
  refine paths_look trivial fun w₁ => ?_
  split
  · exact .inl (by decide)
  split
  · exact .inl (by decide)
  simp only
  split
  · exact .inl (deadErr_status offer)
  refine paths_look trivial fun w₂ => ?_
  split
  · exact .inl (by decide)
  refine paths_look trivial fun w₃ => ?_
  split
  · exact .inl (show 400 ≤ 409 by decide)
  refine paths_exec trivial fun w₄ => ?_
  cases result : (w₄.claimTxn offer proof.excessHex _ now).1 with
  | ok => exact paths_exec trivial fun w₅ => .inr (.intro rfl own verified (by simp) result)
  | error e => cases e <;> exact .inl (by decide)

theorem claimOpen_paths {key : String} {offer : OfferRow} {proof : ParsedPaymentProof} {now : Int}
    (seen : List (Stmt × World)) :
    (claimOpen app key offer proof now).Paths (fun _ _ => True)
      (fun seen response => 400 ≤ response.status ∨
        Committed app offer.offerId proof key seen response) seen := by
  unfold claimOpen
  split
  · rename_i refused
    exact .inl (deathGate_error refused ▸ deadErr_status offer)
  split
  · exact .inl (by decide)
  rename_i own
  refine paths_look trivial fun w₁ => ?_
  split
  · exact .inl (by decide)
  split
  · rename_i refused
    exact .inl (checkPayment_error refused)
  · rename_i paid
    exact claimPaid_paths (not_not.1 own).symm (checkPayment_ok paid).1

/-- The answer of a retry to what is recorded for its offer. -/
def retried (app : App) (proof : ParsedPaymentProof) : Option (String × String × String) → Response
  | some (excess, name, buyer) =>
    if excess = proof.excessHex then claimSuccess 200 name app.cfg.domain buyer
    else err 409 "offer_consumed"
  | none => err 409 "offer_consumed"

/-- A retry is one read. -/
theorem claimRetry_eq (app : App) (offerId : String) (proof : ParsedPaymentProof) :
    claimRetry app offerId proof =
      .step .look id fun w => .ret (retried app proof (w.query (·.transferForOffer offerId))) := by
  refine congrArg (Prog.step Stmt.look id) (funext fun w => ?_)
  change Prog.bind (.ret (w.query (·.transferForOffer offerId))) _ = _
  cases w.query (·.transferForOffer offerId) with
  | none => rfl
  | some recorded =>
    change (if _ then _ else _) = Prog.ret (if _ then _ else _)
    split <;> rfl

theorem retried_status (app : App) (proof : ParsedPaymentProof)
    (recorded : Option (String × String × String)) :
    400 ≤ (retried app proof recorded).status ∨ (retried app proof recorded).status = 200 := by
  unfold retried
  split
  · split
    · exact .inr rfl
    · exact .inl (by decide)
  · exact .inl (by decide)

theorem claim_paths (headers : Headers) (body : Bytes) :
    (claim app headers body).Paths (fun _ _ => True) (ClaimTold app headers body) seen := by
  refine paths_authorized (fun _ code _ known => .inl ?_) fun key id w seen verified there => ?_
  · change 400 ≤ code
    omega
  split
  · rename_i refused
    exact .inl (claimBody_error refused)
  rename_i offerId proof parsed
  -- the authorization stays among the sections that were seen
  refine .kept ?_
  have granted : ∀ {later : List (Stmt × World)} {response : Response}, seen <+: later →
      Committed app offerId proof key later response ∨ response.status = 200 →
      ClaimTold app headers body later response := fun before told =>
    .inr ⟨key, id, w, offerId, proof, before.subset there, verified, parsed, told⟩
  refine paths_look trivial fun w₁ => ?_
  split
  · exact fun _ => .inl (by decide)
  rename_i read found
  obtain ⟨-, same⟩ := Db.getOffer_eq_some.1 (World.query_eq_some.1 found).2
  refine paths_look trivial fun w₂ => ?_
  refine paths_settle fun offer more kept => ?_
  rw [same] at kept
  subst kept
  split
  · rw [claimRetry_eq]
    exact ⟨trivial, fun w₃ before =>
      (retried_status app proof _).elim .inl fun repeated => granted before (.inr repeated)⟩
  · exact (claimOpen_paths _).mono fun _ _ told before =>
      told.elim .inl fun committed => granted before (.inl committed)

end

theorem handlers_told (r : Request) : ((authority app).handler r).Paths (fun _ _ => True)
    (fun seen response => ∀ headers body, r = .claim headers body →
      ClaimTold app headers body seen response) [] := by
  cases r with
  | claim headers body =>
    change (mounted app (claim app headers body)).Paths _ _ _
    unfold mounted
    split
    · refine (claim_paths headers body).mono fun seen response told headers' body' same => ?_
      cases same
      exact told
    · exact fun _ _ _ => .inl (by decide)
  | _ => exact Prog.paths_trivial _ fun _ _ _ _ same => by cases same

/-! ## Runs -/

section

variable {w : World} {c : Conf World Stmt Request Response} {steps : List Step} {i : Nat}
  {response : Response} {offerId : String} {proof : ParsedPaymentProof} {s : Step}

/-- A retry answers what is recorded for its offer. -/
theorem AtRetry.answer (run : Run (authority app) (.start w) steps c)
    (done : c.procs[i]? = some (.claim headers body, .ret response)) (member : s ∈ steps)
    (at_ : AtRetry app i headers body offerId proof s) :
    response = retried app proof (s.before.hist.now.query (·.transferForOffer offerId)) :=
  run.last_section member at_.event (claimRetry_eq app offerId proof ▸ at_.next) done

/-- A claim that is answered 200 is a retry. -/
theorem retry_reached (run : Run (authority app) (.start w) steps c)
    (done : c.procs[i]? = some (.claim headers body, .ret response))
    (repeated : response.status = 200) :
    ∃ s ∈ steps, ∃ offerId proof, AtRetry app i headers body offerId proof s := by
  have success : response.status < 400 := by omega
  obtain ⟨earlier, later, d, rfl, -, rest, found⟩ := run.arrives done
  have found := mounted_passes rest found done success
  rw [claim] at found
  obtain ⟨key, entry, later, d₁, rfl, rest, found⟩ := authorized_passes rest found done success
  split at found
  · rename_i refused
    have status := claimBody_error refused
    rw [rest.same_answer found done] at status
    omega
  rename_i offerId proof parsed
  obtain ⟨read, e₂, l₂, d₂, rfl, -, rest, found⟩ := rest.passes found done
  split at found
  · rw [← rest.same_answer found done] at repeated
    cases repeated
  obtain ⟨now, e₃, l₃, d₃, rfl, -, rest, found⟩ := rest.passes found done
  obtain ⟨offer, e₄, l₄, d₄, rfl, -, rest, found⟩ := rest.passes found done
  split at found
  · obtain ⟨-, still⟩ | ⟨e₅, s, l₅, rfl, -, event, here⟩ := rest.waits found
    · rw [done, claimRetry_eq] at still
      cases still
    · exact ⟨s, by simp, offerId, proof, event, parsed, here⟩
  · obtain ⟨q, there, told⟩ := rest.paths found (claimOpen_paths [])
    rw [done] at there
    cases there
    obtain refused | committed := told
    · omega
    · cases committed
      cases repeated

/-- **Only the buyer is told that a claim succeeded, exactly as long as no other
request repeats the claim.** -/
theorem successes_to_buyer (run : Run (authority app) (.start w) steps c)
    (done : c.procs[i]? = some (.claim headers body, .ret response)) :
    (response.Success → ToBuyer app headers body (own i steps) response) ↔
      ∀ s ∈ steps, ∀ offerId proof, AtRetry app i headers body offerId proof s →
        RepeatsToBuyer app headers offerId proof s.before.hist.now := by
  constructor
  · intro told s member offerId proof at_ name buyer recorded
    have answer := at_.answer run done member
    rw [recorded, retried, if_pos rfl] at answer
    obtain ⟨⟨key, id, q, -, verified, reported⟩, offerId', proof', parsed, signed⟩ :=
      told (answer ▸ ⟨by simp [claimSuccess], by simp [claimSuccess]⟩)
    rw [at_.parsed] at parsed
    cases parsed
    rw [answer, claimSuccess_pubkey] at reported
    cases reported
    exact ⟨verifyNip98_signer verified, signed⟩
  · intro repeats success
    have known : ClaimTold app headers body (own i steps) response :=
      run.paths_start handlers_told done headers body rfl
    obtain refused | ⟨key, id, w', offerId, proof, ran, verified, parsed, sold | status⟩ := known
    · have below := success.2
      omega
    · cases sold with
      | intro _ buyer signed =>
        exact ⟨⟨key, id, _, ran, verified, by rw [claimSuccess_pubkey, buyer]⟩, offerId, proof,
          parsed, signed⟩
    · obtain ⟨s, member, offerId', proof', at_⟩ := retry_reached run done status
      have answer := at_.answer run done member
      obtain ⟨name, buyer, recorded⟩ : ∃ name buyer,
          s.before.hist.now.query (·.transferForOffer offerId') =
            some (proof'.excessHex, name, buyer) := by
        unfold retried at answer
        split at answer
        · rename_i excess name buyer recorded
          split at answer
          · rename_i same
            exact ⟨name, buyer, same ▸ recorded⟩
          · rw [answer] at status
            cases status
        · rw [answer] at status
          cases status
      obtain ⟨signer_, signed⟩ := repeats s member offerId' proof' at_ name buyer recorded
      rw [verifyNip98_signer verified, Option.some.injEq] at signer_
      rw [recorded, retried, if_pos rfl] at answer
      refine ⟨⟨key, id, _, ran, verified, ?_⟩, offerId', proof', at_.parsed, signed⟩
      rw [answer, claimSuccess_pubkey, signer_]

end

end

namespace Scripted

/-- The buyer claims ada. -/
def sale : List (Concurrent.Event Request Around) :=
  .arrive registerAda :: sections 0 10 ++ .arrive lodgeOne :: sections 1 10 ++
    .arrive claimOne :: sections 2 13

/-- A stranger claims ada with the same excess. -/
def strangerAfterSale : List (Concurrent.Event Request Around) :=
  sale ++ .arrive strangerClaimOne :: sections 3 8

/-- The buyer claims ada again, when the grace period of its offer has passed. -/
def buyerAfterSale : List (Concurrent.Event Request Around) :=
  sale ++ .env (.advance outOfGrace) :: .arrive lateClaimOne :: sections 3 8

/-- A stranger is told that the buyer has the name, for a proof without
signatures. -/
theorem stranger_told : ∃ steps c response, Run (authority app) (.start world) steps c ∧
    c.procs[3]? = some (strangerClaimOne, .ret response) ∧ response.Success ∧
    response.pubkey = some buyer.toHex ∧
    ¬ ToBuyer app (headers "stranger claim O1") (utf8 "C2") (own 3 steps) response := by
  have run : (((authority app).record (.start world) strangerAfterSale).any
      fun q => q.2.procs[3]?.any fun p => p.1 == strangerClaimOne && p.2.answer?.any fun response =>
        decide response.Success && response.pubkey == some buyer.toHex) = true := by
    decide +kernel
  have stranger : signer app (headers "stranger claim O1") = some other.toHex := by decide +kernel
  have differ : some buyer.toHex ≠ some other.toHex := by decide +kernel
  obtain ⟨⟨steps, c⟩, recorded, found⟩ := (Option.any_eq_true _ _).1 run
  obtain ⟨response, there, found⟩ := answered_of_any found
  rw [Bool.and_eq_true, decide_eq_true_eq, beq_iff_eq] at found
  obtain ⟨success, reported⟩ := found
  refine ⟨steps, c, response, .record recorded, there, success, reported, fun told => differ ?_⟩
  obtain ⟨key, id, q, -, verified, reported'⟩ := told.key
  rw [← reported, reported', ← stranger]
  exact (verifyNip98_signer verified).symm

/-- What is recorded for the offer is its sale to the buyer. -/
def recordedForBuyer (w : World) : Bool :=
  (w.query (·.transferForOffer (offerId 101))).all fun t => t.2.2 == buyer.toHex

/-- The buyer repeats the claim and is told again. -/
theorem buyer_told : ∃ steps c response, Run (authority app) (.start world) steps c ∧
    c.procs[3]? = some (lateClaimOne, .ret response) ∧ response.status = 200 ∧
    ToBuyer app (headers "late claim O1") (utf8 "C1") (own 3 steps) response := by
  have replayed : ((authority app).replayMeeting (fun _ _ w => recordedForBuyer w = true)
      (.start world) buyerAfterSale).any (fun c => c.procs[3]?.any fun p =>
        p.1 == lateClaimOne && p.2.answer?.any (·.status == 200)) = true := by
    decide +kernel
  have signed : signer app (headers "late claim O1") = some buyer.toHex := by decide +kernel
  have parsed : (claimBody app (utf8 "C1")).toOption.all (fun q =>
      q.1 == offerId 101 && verifySignatures app q.2) = true := by
    decide +kernel
  obtain ⟨c, run, found⟩ := (Option.any_eq_true _ _).1 replayed
  obtain ⟨response, there, status⟩ := answered_of_any found
  rw [beq_iff_eq] at status
  obtain ⟨steps, run, -, meets⟩ := Run.replayMeeting run
  refine ⟨steps, c, response, run, there, status, (successes_to_buyer run there).2 ?_ ?_⟩
  · intro s member offerId' proof at_ name buyer' recorded
    rw [at_.parsed] at parsed
    obtain ⟨id_, verified⟩ : offerId' = offerId 101 ∧ verifySignatures app proof = true := by
      simpa [Except.toOption] using parsed
    have met := meets s member
    rw [at_.event] at met
    have here := met (lateClaimOne, .look) (Conf.due_eq_some.2 ⟨_, _, claimRetry_eq .. ▸ at_.next⟩)
    rw [id_] at recorded
    rw [recordedForBuyer, recorded, Option.all_some, beq_iff_eq] at here
    rw [signed]
    exact ⟨congrArg some here.symm, verified⟩
  · unfold Response.Success
    omega

end Scripted

end Nip05d
