import Nip05d.Addresses
import Nip05d.Revocations

/-!
# What is lodged is what was signed

The row of a lodged offer repeats the tags of its event. The price passes a
`u64` parse, a cast to a signed column and a cast back in the claim: the two
ends agree exactly on prices below half of the `u64` range. A larger price is
stored as a negative one, which no payment meets.
-/

namespace Nip05d

open Auth Concurrent Handlers Proof Text

/-- A row repeats the tags of its event, and payments of the signed price
to the signed address pass the address and the amount check of a claim. -/
structure RepeatsTags (app : App) (tags : OfferTags) (price : Nat) (o : OfferRow) : Prop where
  name : o.name = tags.name
  buyer : o.buyerPubkey = app.toLowercase tags.buyer
  expiration : parseI64 (trim tags.expiration) = some o.expiration
  address : o.proofAddress = normalizeGrinAddress app tags.proofAddress
  amount : o.priceNanogrin = price
  /-- Only the signatures decide about a payment of the signed price. -/
  payments : ∀ o', o.Becomes o' → ∀ proof : ParsedPaymentProof, proof.amount = price →
    SameLetters app.crates.unicode proof.recipientAddress tags.proofAddress →
    checkPayment app o' proof =
      if verifySignatures app proof then .ok () else .error (err 400 "invalid proof")
  /-- Some payment of the signed price meets the address and the amount check. Its
  signatures are another matter, and so is an address that is no curve point. -/
  payable : ∃ proof : ParsedPaymentProof, proof.amount = price ∧
    normalizeGrinAddress app proof.recipientAddress = o.proofAddress ∧
    0 ≤ o.priceNanogrin ∧ proof.amount = wrapU64 o.priceNanogrin

section

variable {app : App} {tags : OfferTags} {price : Nat} {o : OfferRow} {event : Event}

/-- The signed address in any letter case is the address that is compared. -/
theorem address_sameLetters {a b : String} (same : SameLetters app.crates.unicode a b)
    (valid : (decodeGrinAddress app b).isSome = true) :
    normalizeGrinAddress app a = normalizeGrinAddress app b := by
  obtain ⟨key, decoded⟩ := Option.isSome_iff_exists.1 valid
  obtain ⟨hrp, known, variant, encoded⟩ := decodeGrinAddress_eq_some.1 decoded
  refine toLowercase_trim_sameLetters same fun c member => ?_
  change c ∈ chars (normalizeGrinAddress app b) at member
  rw [encoded] at member
  exact (encode_plain known _ _ c member).1

/-- **A row of signed columns repeats its tags exactly for prices that the
signed column holds.** -/
theorem repeatsTags_iff {n : NewOffer} (signed : SignedOffer app event tags price n)
    (columns : o.columns = n) : RepeatsTags app tags price o ↔ price < 2 ^ 63 := by
  subst columns
  have stored := signed.columns
  have price_ : o.priceNanogrin = u64AsI64 price := by
    change o.columns.priceNanogrin = _
    rw [stored]
  have address : o.proofAddress = normalizeGrinAddress app tags.proofAddress :=
    congrArg NewOffer.proofAddress stored
  have range := parseU64_lt signed.parsed
  have valid := signed.validAddress
  rw [decodeGrinAddress_normalize] at valid
  constructor
  · intro repeats
    rw [← u64AsI64_eq range, ← price_]
    exact repeats.amount
  · intro fits
    have kept : o.priceNanogrin = price := price_.trans ((u64AsI64_eq range).2 fits)
    have back : wrapU64 (price : Int) = price := by
      have same := wrapU64_of_nonneg (x := (price : Int)) (by omega) (by unfold InI64; omega)
      omega
    refine ⟨congrArg NewOffer.name stored, congrArg NewOffer.buyerPubkey stored,
      signed.expiration, address, kept, ?_, ⟨price, "", tags.proofAddress, "", "", ""⟩, rfl,
      address.symm, by omega, by rw [kept, back]⟩
    intro o' becomes proof amount same
    have spelled := address_sameLetters same valid
    unfold checkPayment
    rw [becomes.proofAddress, becomes.priceNanogrin, address, kept, back, spelled, amount]
    by_cases verified : verifySignatures app proof = true
    · rw [if_neg (not_not.2 verified), if_neg (not_not.2 rfl), if_neg (by omega), if_pos verified]
    · rw [if_pos verified, if_neg verified]

/-- A price that the signed column cannot hold is met by no payment. -/
theorem unpayable {n : NewOffer} (signed : SignedOffer app event tags price n)
    (columns : o.columns = n) (large : 2 ^ 63 ≤ price) (proof : ParsedPaymentProof) :
    checkPayment app o proof ≠ .ok () := by
  subst columns
  have price_ : o.priceNanogrin = u64AsI64 price := by
    change o.columns.priceNanogrin = _
    rw [signed.columns]
  have range := parseU64_lt signed.parsed
  intro passed
  have nonneg := (checkPayment_ok passed).2.2.1
  rw [price_, u64AsI64, wrapI64, Int.bmod_def] at nonneg
  omega

/-! ## Lodging -/

/-- A section stores the offer of a body, and does not fail. -/
def Stores (app : App) (body : Bytes) (event : Event) (q : Stmt × World) : Prop :=
  ∃ n createdAt m, q.1 = .insertOffer n createdAt ∧
    (q.2.execute (·.insertOffer n createdAt)).1 = .ok m ∧
    offerEvent app body = some event ∧ offerColumns app event = some n

section

variable {α : Type} {done : List (Stmt × World) → Response → Prop} {k : α → Handler Response}
  {seen : List (Stmt × World)}

theorem paths_timed {cfg : Config} {t : Nanos → Stmt} {f : Nanos → World → α}
    (next : ∀ a more, (k a).Paths (fun _ _ => True) done (seen ++ more)) :
    ((Handler.instantNow >>= fun now => Handler.exec cfg (t now) (f now)) >>= k).Paths
      (fun _ _ => True) done seen :=
  ⟨trivial, fun _ => ⟨trivial, fun _ => List.append_assoc seen _ _ ▸ next _ _⟩⟩

/-- The entry of a write endpoint: it refuses, or goes on with the key of an
authorization that was verified at the time of one of its sections. -/
theorem paths_authorized {bucket : String} {headers : Headers} {method : Method}
    {urlPath : String} {body : Bytes} {next : String → Handler Response}
    (refused : ∀ seen code msg, code = 401 ∨ code = 429 → done seen (err code msg))
    (goes : ∀ key id w seen, verifyNip98 app headers method urlPath body w.unixNow = .ok (key, id) →
      (.look, w) ∈ seen → (next key).Paths (fun _ _ => True) done seen) :
    (authorized app bucket headers method urlPath body next).Paths (fun _ _ => True) done seen := by
  refine paths_timed fun allowed more => ?_
  split
  · exact refused _ _ _ (.inr rfl)
  refine paths_look trivial fun w => ?_
  split
  · rename_i verified
    exact refused _ _ _ (.inl (verifyNip98_refusal verified))
  rename_i key id verified
  refine paths_timed fun fresh more' => ?_
  split
  · exact refused _ _ _ (.inl rfl)
  · exact goes key id w _ verified (by simp)

end

/-- A lodging that is answered 201 has stored its offer. -/
theorem lodgeOffer_paths (headers : Headers) (body : Bytes) (seen : List (Stmt × World)) :
    (lodgeOffer app headers body).Paths (fun _ _ => True) (fun seen response =>
      response.status = 201 → ∃ event, ∃ q ∈ seen, Stores app body event q) seen := by
  have refused : ∀ (seen : List (Stmt × World)) code msg, code ≠ 201 →
      (err code msg).status = 201 → ∃ event, ∃ q ∈ seen, Stores app body event q :=
    fun _ _ _ other accepted => absurd accepted other
  refine paths_authorized (fun seen code msg known => refused seen code msg (by omega))
    fun key id w₀ seen _ _ => ?_
  split
  · exact refused _ _ _ (by decide)
  rename_i event found
  split
  · exact refused _ _ _ (by decide)
  split
  · exact refused _ _ _ (by decide)
  rename_i n columns
  refine paths_look trivial fun w => ?_
  split
  · exact refused _ _ _ (by decide)
  refine paths_look trivial fun w₁ => ?_
  split
  · exact refused _ _ _ (by decide)
  refine paths_look trivial fun w₂ => ?_
  split
  · exact refused _ _ _ (by decide)
  refine paths_look trivial fun w₃ => ?_
  split
  · exact refused _ _ _ (by decide)
  refine paths_exec trivial fun w₄ => ?_
  cases inserted : (w₄.execute (·.insertOffer n w.unixNow)).1 with
  | ok m => exact fun _ => ⟨event, _, List.mem_append_right _ List.mem_cons_self, n, _, m, rfl,
      inserted, found, columns⟩
  | error e => cases e <;> exact refused _ _ _ (by decide)

/-- What is known of an answer to a lodging. -/
def Answered201 (app : App) (r : Request) (seen : List (Stmt × World)) (response : Response) :
    Prop :=
  ∀ headers body, r = .lodgeOffer headers body → response.status = 201 →
    ∃ event, ∃ q ∈ seen, Stores app body event q

theorem handlers_answer (r : Request) :
    ((authority app).handler r).Paths (fun _ _ => True) (Answered201 app r) [] := by
  cases r with
  | lodgeOffer headers body =>
    change (mounted app (lodgeOffer app headers body)).Paths _ _ _
    unfold mounted
    split
    · refine (lodgeOffer_paths headers body []).mono fun seen response stores headers' body' same => ?_
      cases same
      exact stores
    · exact fun _ _ _ accepted => absurd accepted (by decide)
  | _ => exact Prog.paths_trivial _ fun _ _ _ _ same => by cases same

/-- **What is lodged is what was signed**, exactly for prices that the signed
column holds. -/
theorem lodged_as_signed {w : World} {steps : List Step}
    {c : Conf World Stmt Request Response} {i : Nat} {headers : Headers} {body : Bytes}
    {response : Response} (fresh : w.Fresh) (run : Run (authority app) (.start w) steps c)
    (done : c.procs[i]? = some (.lodgeOffer headers body, .ret response))
    (accepted : response.status = 201) : ∃ event tags price,
      offerEvent app body = some event ∧ extractOfferTags event = some tags ∧
      parseU64 (trim tags.price) = some price ∧ ∃ s ∈ steps, s.event = .run i ∧
        ∃ o, s.after.hist.now.db.getOffer event.id.toHex = some o ∧
          (RepeatsTags app tags price o ↔ price < 2 ^ 63) := by
  have known : Answered201 app _ (own i steps) response := run.paths_start handlers_answer done
  obtain ⟨event, ⟨t, w'⟩, ran, n, createdAt, m, rfl, inserted, found, columns⟩ :=
    known headers body rfl accepted
  obtain ⟨tags, price, signed⟩ := offerColumns_eq_some columns
  obtain ⟨s, member, step, ⟨r, due⟩, rfl⟩ := mem_own.1 ran
  obtain ⟨reach, next, -⟩ := run.mem (rely app) (handled (Later.views app.cfg)) (.start fresh)
    (fun s _ => meets_true _ _) s member
  obtain ⟨db, -, stored, after⟩ := World.execute_ok inserted
  have row : s.after.hist.now.db = db := by
    rw [step] at next
    rw [step_due reach next due, Hist.push_now, Stmt.apply, after]
  have rows := (Db.insertOffer_ok stored).2.2.1
  have id : n.offerId = event.id.toHex := congrArg NewOffer.offerId signed.columns
  refine ⟨event, tags, price, found, signed.extracted, signed.parsed, s, member, step,
    n.row createdAt, ?_, repeatsTags_iff signed rfl⟩
  rw [Db.getOffer_eq_some, row, rows]
  exact ⟨List.mem_cons_self, id⟩

end

namespace Scripted

/-- The seller registers ada and lodges an offer for it. -/
def lodges (request : Request) : List (Concurrent.Event Request Around) :=
  .arrive registerAda :: sections 0 10 ++ .arrive request :: sections 1 10

/-- An answer with a status that a process has given. -/
def answers201 (c : Conf World Stmt Request Response) (i : Nat) (request : Request) : Bool :=
  c.procs[i]?.any fun q => q.1 == request && q.2.answer?.any (·.status == 201)

theorem answered {c : Conf World Stmt Request Response} {i : Nat} {request : Request}
    (answers : answers201 c i request = true) :
    ∃ response, c.procs[i]? = some (request, .ret response) ∧ response.status = 201 := by
  obtain ⟨response, there, status⟩ := answered_of_any answers
  exact ⟨response, there, beq_iff_eq.1 status⟩

/-- An offer of 2^63 nanogrin is lodged, and no payment meets its row. -/
theorem lodged_huge : ∃ steps c response tags o, Run (authority app) (.start world) steps c ∧
    c.procs[1]? = some (lodgeFour, .ret response) ∧ response.status = 201 ∧
    offerEvent app (utf8 "L4") = some (hugeOffer 104 seller "ada" (address "grin" .bech32)) ∧
    extractOfferTags (hugeOffer 104 seller "ada" (address "grin" .bech32)) = some tags ∧
    parseU64 (trim tags.price) = some (2 ^ 63) ∧
    c.hist.now.db.getOffer (offerId 104) = some o ∧ ¬ RepeatsTags app tags (2 ^ 63) o := by
  have run : (((authority app).record (.start world) (lodges lodgeFour)).any fun q =>
      answers201 q.2 1 lodgeFour &&
      (q.2.hist.now.db.getOffer (offerId 104)).any fun o => o.priceNanogrin == -2 ^ 63) = true := by
    decide +kernel
  have event : offerEvent app (utf8 "L4") =
      some (hugeOffer 104 seller "ada" (address "grin" .bech32)) := by
    decide +kernel
  have parsed : (extractOfferTags (hugeOffer 104 seller "ada" (address "grin" .bech32))).any
      (fun tags => parseU64 (trim tags.price) == some (2 ^ 63)) = true := by
    decide +kernel
  obtain ⟨⟨steps, c⟩, recorded, found⟩ := (Option.any_eq_true _ _).1 run
  rw [Bool.and_eq_true, Option.any_eq_true] at found
  obtain ⟨answers, o, stored, negative⟩ := found
  obtain ⟨response, done, accepted⟩ := answered answers
  obtain ⟨tags, extracted, price⟩ := (Option.any_eq_true _ _).1 parsed
  rw [beq_iff_eq] at negative price
  refine ⟨steps, c, response, tags, o, .record recorded, done, accepted, event, extracted, price,
    stored, fun repeats => ?_⟩
  have same := negative.symm.trans repeats.amount
  omega

/-- An offer at price 5 is lodged as it was signed. -/
theorem lodged_small : ∃ steps c response, Run (authority app) (.start world) steps c ∧
    c.procs[1]? = some (lodgeOne, .ret response) ∧ response.status = 201 ∧
    ∃ event tags price, offerEvent app (utf8 "L1") = some event ∧
      extractOfferTags event = some tags ∧ parseU64 (trim tags.price) = some price ∧
      ∃ s ∈ steps, s.event = .run 1 ∧
        ∃ o, s.after.hist.now.db.getOffer event.id.toHex = some o ∧
          (RepeatsTags app tags price o ↔ price < 2 ^ 63) := by
  have run : (((authority app).record (.start world) (lodges lodgeOne)).any fun q =>
      answers201 q.2 1 lodgeOne) = true := by
    decide +kernel
  obtain ⟨⟨steps, c⟩, recorded, answers⟩ := (Option.any_eq_true _ _).1 run
  obtain ⟨response, done, accepted⟩ := answered answers
  exact ⟨steps, c, response, .record recorded, done, accepted,
    lodged_as_signed world_fresh (.record recorded) done accepted⟩

end Scripted

end Nip05d
