import Nip05d.Grounds

/-!
# Every handler meets its guarantee

One rule for each kind of section, one for each helper, and one theorem for
each handler, all for any pair of relations that fit together. `handled` puts
them together: whatever interleaves, every section runs on its grounds and
every answer tells the truth.
-/

namespace Nip05d

open Auth Concurrent Handlers Proof

variable {app : App} {L R : Hist World → Hist World → Prop} {r : Request} {α β : Type}
  {start h : Hist World}

/-- A program of a request meets its guarantee and a postcondition. -/
abbrev Spec (app : App) (L R : Hist World → Hist World → Prop) (r : Request) (p : Handler α)
    (Q : α → Hist World → Prop) (h : Hist World) : Prop :=
  p.wp R (Guarantee app L R r) Q h

/-! ## Sections -/

section

variable {Q : β → Hist World → Prop} {k : α → Handler β}

theorem look_bind (views : Views app.cfg L R) {f : World → α}
    (next : ∀ h₁ h₂, R h h₁ → R h₁ h₂ → Spec app L R r (k (f h₁.now)) Q h₂) :
    Spec app L R r (Handler.look f >>= k) Q h := by
  refine (Prog.wp_bind _ _ _ _).2 ((Prog.wp_observe Stmt.look f _ _).2 fun h₁ since => ?_)
  exact ⟨⟨rfl, .look⟩, next h₁ _ since (views.passive h₁ .look trivial)⟩

theorem exec_last {t : Stmt} {f : World → α} {Q : α → Hist World → Prop}
    (because : ∀ h₁, R h h₁ → Because app L R r t h₁)
    (next : ∀ h₁, R h h₁ → Q (f h₁.now) (h₁.push (t.apply app.cfg h₁.now))) :
    Spec app L R r (Handler.exec app.cfg t f) Q h := by
  refine (Prog.wp_atomic t (fun w => (f w, t.apply app.cfg w)) _ _).2 fun h₁ since => ?_
  exact ⟨⟨rfl, because h₁ since⟩, next h₁ since⟩

theorem exec_bind {t : Stmt} {f : World → α} (because : ∀ h₁, R h h₁ → Because app L R r t h₁)
    (next : ∀ h₁, R h h₁ →
      Spec app L R r (k (f h₁.now)) Q (h₁.push (t.apply app.cfg h₁.now))) :
    Spec app L R r (Handler.exec app.cfg t f >>= k) Q h :=
  (Prog.wp_bind _ _ _ _).2 (exec_last because next)

theorem allow_bind (views : Views app.cfg L R) {bucket ip : String} {max : Nat} {window : Nanos}
    {k : Bool → Handler β} (next : ∀ h₁ allowed, R h h₁ → Spec app L R r (k allowed) Q h₁) :
    Spec app L R r (Handler.allow app.cfg bucket ip max window >>= k) Q h := by
  rw [Spec, Prog.wp_bind]
  refine look_bind views fun h₁ h₂ since quiet => ?_
  refine exec_last (fun _ _ => .allow) fun h₃ later => ?_
  have here : R h h₃ := views.trans since (views.trans quiet later)
  exact next _ _ (views.trans here (views.passive h₃ (.allow ..) trivial))

end

/-! ## Answers -/

theorem err_inj {c c' : Nat} {m m' : String} : err c m = err c' m' ↔ c = c' ∧ m = m' := by
  simp [err, respond, json]

/-- An error that is not one of the two that tell something. -/
theorem answer_err {code : Nat} {msg : String} (fails : 400 ≤ code)
    (other : code = 409 → msg ≠ "owner_changed" ∧ msg ≠ "offer_exists") :
    Answer app L R r start (err code msg) h := by
  cases r with
  | claim headers body =>
    refine ⟨fun status => ?_, fun same => ?_⟩
    · change code = 201 at status
      omega
    · exact absurd (err_inj.1 same).2 (other (err_inj.1 same).1).1
  | lodgeOffer headers body =>
    exact fun same => absurd (err_inj.1 same).2 (other (err_inj.1 same).1).2
  | readOffer headers offerId =>
    intro status
    change code = 200 at status
    omega
  | _ => trivial

/-! ## The entry checks -/

theorem authorized_spec (views : Views app.cfg L R) (e : Entry) (entry : r.entry app = some e)
    {next : String → Handler Response}
    (spec : ∀ key h₁, R h h₁ → Authenticated app L r key h₁ →
      Spec app L R r (next key) (Answer app L R r h) h₁) :
    Spec app L R r (authorized app e.bucket e.headers e.method e.urlPath e.body next)
      (Answer app L R r h) h := by
  refine allow_bind views fun h₁ allowed since => ?_
  split
  · exact answer_err (by decide) (by decide)
  refine look_bind views fun h₂ h₃ to₂ to₃ => ?_
  split
  · rename_i code msg refused
    have unauthorized : code = 401 := verifyNip98_refusal refused
    exact answer_err (by omega) (by omega)
  rename_i key id verified
  rw [Spec, Prog.wp_bind]
  refine look_bind views fun h₄ h₅ to₄ to₅ => ?_
  refine exec_last (fun h₆ to₆ => ?_) fun h₆ to₆ => ?_
  · exact .authEventFresh entry (views.trans to₃ (views.trans to₄ (views.trans to₅ to₆))) verified
      (views.trans to₅ to₆)
  have to₇ := views.passive h₆ (.authEventFresh id h₄.now.clock.nanos) trivial
  have since₃ : R h₂ (h₆.push (Stmt.apply app.cfg (.authEventFresh id h₄.now.clock.nanos) h₆.now)) :=
    views.trans to₃ (views.trans to₄ (views.trans to₅ (views.trans to₆ to₇)))
  split
  · exact answer_err (by decide) (by decide)
  · rename_i fresh
    refine spec key _ (views.trans since (views.trans to₂ since₃)) ?_
    exact ⟨e, id, h₄.now.clock.nanos, h₂, h₆, entry, views.wide since₃, verified,
      views.wide to₇, by simpa using fresh⟩

theorem limited_spec (views : Views app.cfg L R) {headers : Headers} {next : Handler Response}
    (spec : ∀ h₁, R h h₁ → Spec app L R r next (Answer app L R r h) h₁) :
    Spec app L R r (limited app headers next) (Answer app L R r h) h := by
  refine allow_bind views fun h₁ allowed since => ?_
  split
  · exact answer_err (by decide) (by decide)
  · exact spec h₁ since

/-! ## The registry -/

/-- Grounds are kept until a later point of the same request. -/
theorem Authenticated.wide (views : Views app.cfg L R) {key : String} {h₁ : Hist World}
    (authenticated : Authenticated app L r key h) (since : L h h₁) :
    Authenticated app L r key h₁ := by
  obtain ⟨e, id, now, a, b, entry, toA, verified, toB, fresh⟩ := authenticated
  exact ⟨e, id, now, a, b, entry, views.wide_trans toA since, verified,
    views.wide_trans toB since, fresh⟩

theorem Authenticated.later (views : Views app.cfg L R) {key : String} {h₁ : Hist World}
    (authenticated : Authenticated app L r key h) (since : R h h₁) :
    Authenticated app L r key h₁ :=
  authenticated.wide views (views.wide since)

/-- An authenticated key has signed the request. -/
theorem Authenticated.signer {key : String} (authenticated : Authenticated app L r key h) :
    r.signer app = some key := by
  obtain ⟨e, id, now, a, b, entry, -, verified, -, -⟩ := authenticated
  rw [Request.signer, entry]
  exact verifyNip98_signer verified

theorem ClockRead.wide (views : Views app.cfg L R) {now : Int} {h₁ : Hist World}
    (clock : ClockRead L now h) (since : L h h₁) : ClockRead L now h₁ := by
  obtain ⟨h₀, earlier, read⟩ := clock
  exact ⟨h₀, views.wide_trans earlier since, read⟩

theorem ClockRead.later (views : Views app.cfg L R) {now : Int} {h₁ : Hist World}
    (clock : ClockRead L now h) (since : R h h₁) : ClockRead L now h₁ :=
  clock.wide views (views.wide since)

theorem Settled.later (views : Views app.cfg L R) {offerId : String} {now : Int}
    {offer : OfferRow} {h₁ : Hist World} (settled : Settled app R start offerId now offer h)
    (since : R h h₁) : Settled app R start offerId now offer h₁ := by
  cases settled with
  | kept first found fresh quiet => exact .kept first found fresh (views.trans quiet since)
  | reread first found live stale marked read same quiet =>
    exact .reread first found live stale marked read same (views.trans quiet since)

/-- A settled offer is a row that the request has read. -/
theorem Settled.read (views : Views app.cfg L R) {offerId : String} {now : Int}
    {offer : OfferRow} (settled : Settled app R start offerId now offer h) :
    ∃ h₀, L h₀ h ∧ h₀.now.query (·.getOffer offerId) = some offer := by
  cases settled with
  | kept _ found _ quiet => exact ⟨_, views.wide quiet, found⟩
  | @reread h₀ h₁ h₂ before endHeight _ found _ _ to₁ to₂ same quiet =>
    have id_ : before.offerId = offerId :=
      (Db.getOffer_eq_some.1 (World.query_eq_some.1 found).2).2
    cases again : h₂.now.query (·.getOffer before.offerId) with
    | some o =>
      rw [again, Option.getD_some] at same
      exact ⟨h₂, views.wide quiet, by rw [same, ← id_]; exact again⟩
    | none =>
      rw [again, Option.getD_none] at same
      exact ⟨h₀, views.wide_trans (views.wide to₁) (views.wide_trans (views.own h₁ _)
        (views.wide (views.trans to₂ quiet))), same ▸ found⟩

theorem register_spec (views : Views app.cfg L R) (headers : Headers) (body : Bytes)
    (h : Hist World) :
    Spec app L R (.register headers body) (register app headers body)
      (Answer app L R (.register headers body) h) h := by
  refine authorized_spec views ⟨"reg", headers, .post, "/api/v1/register", body⟩ rfl
    fun key h₁ _ authenticated => ?_
  rw [Spec, Prog.wp_bind]
  refine look_bind views fun h₂ h₃ to₂ to₃ => ?_
  refine exec_last (fun _ _ => .cooldownActive) fun h₄ to₄ => ?_
  split
  · trivial
  split
  · trivial
  rename_i name pubkey checked
  obtain rfl := (checkRegistration_ok checked).1
  refine look_bind views fun h₅ h₆ to₅ to₆ => ?_
  split
  · split <;> trivial
  rename_i free
  refine look_bind views fun h₇ h₈ to₇ to₈ => ?_
  split
  · trivial
  rename_i none_
  refine exec_bind (fun h₉ to₉ => ?_) fun h₉ to₉ => trivial
  have passive := views.passive h₄ (.cooldownActive "namechange" pubkey app.cfg.nameChangeCooldown
    h₂.now.clock.nanos) trivial
  have to₉' : R h₇ h₉ := views.trans to₈ to₉
  have to₉'' : R h₅ h₉ := views.trans to₆ (views.trans to₇ to₉')
  exact .register
    (authenticated.later views (views.trans to₂ (views.trans to₃ (views.trans to₄
      (views.trans passive (views.trans to₅ to₉''))))))
    checked to₉'' free to₉' none_

theorem unregister_spec (views : Views app.cfg L R) (headers : Headers) (raw : String)
    (h : Hist World) :
    Spec app L R (.unregister headers raw) (unregister app headers raw)
      (Answer app L R (.unregister headers raw) h) h := by
  refine authorized_spec views
    ⟨"unreg", headers, .delete, "/api/v1/register/" ++ app.toLowercase raw, []⟩ rfl fun key h₁ _ authenticated => ?_
  refine look_bind views fun h₂ h₃ to₂ to₃ => ?_
  split
  · rename_i owner found
    split
    · rename_i same
      subst same
      refine exec_bind (fun h₄ to₄ => ?_) fun h₄ to₄ => ?_
      · have here : R h₂ h₄ := views.trans to₃ to₄
        exact .release (authenticated.later views (views.trans to₂ here)) here found
      · split
        · exact exec_bind (fun _ _ => .recordOp) fun _ _ => trivial
        · trivial
    · trivial
  · trivial

theorem availability_spec (views : Views app.cfg L R) (headers : Headers) (name : String)
    (h : Hist World) :
    Spec app L R (.availability headers name) (availability app headers name)
      (Answer app L R (.availability headers name) h) h := by
  refine limited_spec views fun h₁ _ => ?_
  simp only
  split
  · trivial
  split
  · trivial
  refine look_bind views fun h₂ h₃ _ _ => ?_
  split <;> trivial

theorem profile_spec (views : Views app.cfg L R) (headers : Headers) (name : String)
    (h : Hist World) :
    Spec app L R (.profile headers name) (profile app headers name)
      (Answer app L R (.profile headers name) h) h := by
  refine limited_spec views fun h₁ _ => ?_
  simp only
  split
  · trivial
  refine look_bind views fun h₂ h₃ _ _ => ?_
  split <;> trivial

theorem byPubkey_spec (views : Views app.cfg L R) (headers : Headers) (pubkey : String)
    (h : Hist World) :
    Spec app L R (.byPubkey headers pubkey) (byPubkey app headers pubkey)
      (Answer app L R (.byPubkey headers pubkey) h) h := by
  refine limited_spec views fun h₁ _ => ?_
  simp only
  split
  · trivial
  refine look_bind views fun h₂ h₃ _ _ => ?_
  split <;> trivial

theorem wellKnown_spec (views : Views app.cfg L R) (headers : Headers) (name : Option String)
    (h : Hist World) :
    Spec app L R (.wellKnown headers name) (wellKnown app headers name)
      (Answer app L R (.wellKnown headers name) h) h := by
  refine allow_bind views fun h₁ allowed since => ?_
  split
  · trivial
  rw [Spec, Prog.wp_bind]
  cases name with
  | none => trivial
  | some name =>
    simp only [wellKnownEntry]
    split
    · trivial
    · exact look_bind views fun h₂ h₃ _ _ => trivial

/-! ## Offers -/

theorem lodgeChecked_spec (views : Views app.cfg L R) {headers : Headers} {body : Bytes}
    {event : Event} {o : NewOffer} {now : Int} (since : R start h)
    (authenticated : Authenticated app L (.lodgeOffer headers body) o.sellerPubkey h)
    (found : offerEvent app body = some event) (columns : offerColumns app event = some o)
    (clock : ClockRead L now h) (expiry : expiryAllowed app.cfg o.expiration now = true) :
    Spec app L R (.lodgeOffer headers body) (lodgeChecked app o now)
      (Answer app L R (.lodgeOffer headers body) start) h := by
  refine look_bind views fun h₁ h₂ to₁ to₂ => ?_
  split
  · exact answer_err (by decide) (by decide)
  rename_i owner
  replace owner := not_not.1 owner
  have to₁' : R start h₁ := views.trans since to₁
  refine look_bind views fun h₃ h₄ to₃ to₄ => ?_
  have to₃' : R h₁ h₃ := views.trans to₂ to₃
  split
  · rename_i exists_
    exact fun _ => ⟨event, o, now, h₁, h₃, found, columns, to₁', owner, views.trans to₁' to₃',
      clock.later views (views.trans to₁ to₃'), .inl exists_⟩
  rename_i noName
  refine look_bind views fun h₅ h₆ to₅ to₆ => ?_
  have to₅' : R h₃ h₅ := views.trans to₄ to₅
  split
  · exact answer_err (by decide) (by decide)
  rename_i noAddress
  refine exec_bind (fun h₇ to₇ => ?_) fun h₇ to₇ => ?_
  · have to₇' : R h₅ h₇ := views.trans to₆ to₇
    have to₇'' : R h₁ h₇ := views.trans to₃' (views.trans to₅' to₇')
    exact .lodge {
      authenticated := authenticated.later views (views.trans to₁ to₇'')
      event := ⟨event, found, columns⟩
      clock := clock.later views (views.trans to₁ to₇'')
      expiry
      owner := ⟨h₁, to₇'', owner⟩
      sameName := ⟨h₃, views.trans to₅' to₇', by simpa using noName⟩
      sameAddress := ⟨h₅, to₇', by simpa using noAddress⟩ }
  · have to₇' : R h₁ h₇ := views.trans to₃' (views.trans to₅' (views.trans to₆ to₇))
    cases answer : (h₇.now.execute (·.insertOffer o now)).1 with
    | ok n =>
      intro same
      exact absurd (congrArg Response.status same) (by simp [lodged, respond, err])
    | error e =>
      cases e with
      | constraint =>
        refine fun _ => ⟨event, o, now, h₁, h₇, found, columns, to₁', owner,
          views.trans to₁' to₇', clock.later views (views.trans to₁ to₇'), .inr ?_⟩
        unfold World.execute at answer
        split at answer
        · cases answer
        · split at answer
          · cases answer
          · rename_i refused
            cases answer
            exact refused
      | other => exact answer_err (by decide) (by decide)

theorem lodgeOffer_spec (views : Views app.cfg L R) (headers : Headers) (body : Bytes)
    (h : Hist World) :
    Spec app L R (.lodgeOffer headers body) (lodgeOffer app headers body)
      (Answer app L R (.lodgeOffer headers body) h) h := by
  refine authorized_spec views ⟨"transfer", headers, .post, "/api/v1/transfer/offer", body⟩ rfl
    fun key h₁ since authenticated => ?_
  split
  · exact answer_err (by decide) (by decide)
  rename_i event found
  split
  · exact answer_err (by decide) (by decide)
  rename_i own
  split
  · exact answer_err (by decide) (by decide)
  rename_i o columns
  refine look_bind views fun h₂ h₃ to₂ to₃ => ?_
  split
  · exact answer_err (by decide) (by decide)
  rename_i expiry
  have seller : o.sellerPubkey = key := by
    obtain ⟨tags, price, signed⟩ := offerColumns_eq_some columns
    rw [signed.columns]
    exact not_not.1 own
  exact lodgeChecked_spec views (views.trans since (views.trans to₂ to₃))
    (seller ▸ authenticated.later views (views.trans to₂ to₃)) found columns
    ⟨h₂, views.wide to₃, rfl⟩ (by simpa using expiry)

theorem settleExpiry_spec (views : Views app.cfg L R) {offerId : String} {offer : OfferRow}
    {now : Int} {h₀ : Hist World} {k : OfferRow → Handler β} {Q : β → Hist World → Prop}
    (since : R start h₀) (found : h₀.now.query (·.getOffer offerId) = some offer) (quiet : R h₀ h)
    (clock : ClockRead L now h)
    (next : ∀ settled h₁, Settled app R start offerId now settled h₁ → L h h₁ →
      Spec app L R r (k settled) Q h₁) :
    Spec app L R r (settleExpiry app.cfg offer now >>= k) Q h := by
  rw [Spec, Prog.wp_bind]
  unfold settleExpiry
  split
  · rename_i fresh
    exact next offer h (.kept since found fresh quiet) (views.wide (views.refl h))
  rename_i stale
  rw [not_or, not_not, Int.not_le] at stale
  refine look_bind views fun h₁ h₂ to₁ to₂ => ?_
  refine exec_bind (fun h₃ to₃ => ?_) fun h₃ to₃ => ?_
  · have to₃' : R h₁ h₃ := views.trans to₂ to₃
    exact .expire (views.trans quiet (views.trans to₁ to₃')) found stale.1 stale.2
      (clock.later views (views.trans to₁ to₃')) to₃'
  refine look_bind views fun h₄ h₅ to₄ to₅ => ?_
  have to₃' : R h h₃ := views.trans to₁ (views.trans to₂ to₃)
  refine next _ h₅ (.reread since found stale.1 stale.2 (views.trans quiet to₃') to₄ rfl to₅) ?_
  exact views.wide_trans (views.wide to₃')
    (views.wide_trans (views.own h₃ _) (views.wide (views.trans to₄ to₅)))

theorem readOffer_spec (views : Views app.cfg L R) (headers : Headers) (offerId : String)
    (h : Hist World) :
    Spec app L R (.readOffer headers offerId) (readOffer app headers offerId)
      (Answer app L R (.readOffer headers offerId) h) h := by
  refine limited_spec views fun h₁ since => ?_
  refine look_bind views fun h₂ h₃ to₂ to₃ => ?_
  split
  · exact answer_err (by decide) (by decide)
  rename_i offer found
  refine look_bind views fun h₄ h₅ to₄ to₅ => ?_
  have since₂ := views.trans since to₂
  have to₅' : R h₂ h₅ := views.trans to₃ (views.trans to₄ to₅)
  refine settleExpiry_spec views since₂ found to₅' ⟨h₄, views.wide to₅, rfl⟩
    fun settled h₆ grounds to₆ => ?_
  exact fun _ => ⟨settled, _, grounds,
    views.wide_trans (views.wide (views.trans since₂ to₅')) to₆,
    ⟨h₄, views.wide_trans (views.wide to₅) to₆, rfl⟩⟩

theorem revokeOffer_spec (views : Views app.cfg L R) (headers : Headers) (offerId : String)
    (h : Hist World) :
    Spec app L R (.revokeOffer headers offerId) (revokeOffer app headers offerId)
      (Answer app L R (.revokeOffer headers offerId) h) h := by
  refine authorized_spec views
    ⟨"transfer", headers, .delete, "/api/v1/transfer/offer/" ++ offerId, []⟩ rfl fun key h₁ _ authenticated => ?_
  refine look_bind views fun h₂ h₃ to₂ to₃ => ?_
  split
  · trivial
  rename_i offer found
  split
  · trivial
  rename_i own
  replace own := not_not.1 own
  subst own
  split
  · trivial
  rename_i unconsumed
  split
  · trivial
  rename_i unrevoked
  refine look_bind views fun h₄ h₅ to₄ to₅ => ?_
  have to₅' : R h₂ h₅ := views.trans to₃ (views.trans to₄ to₅)
  split
  · rename_i live
    refine look_bind views fun h₆ h₇ to₆ to₇ => ?_
    refine exec_bind (fun h₈ to₈ => ?_) fun _ _ => trivial
    have to₈' : R h₆ h₈ := views.trans to₇ to₈
    have to₈'' : R h₂ h₈ := views.trans to₅' (views.trans to₆ to₈')
    exact .revoke (authenticated.later views (views.trans to₂ to₈'')) to₈'' found live
      ⟨h₄, views.wide (views.trans to₅ (views.trans to₆ to₈')), rfl⟩ to₈'
  · rename_i dead
    refine exec_bind (fun h₆ to₆ => ?_) fun _ _ => trivial
    have to₆' : R h₂ h₆ := views.trans to₅' to₆
    have expired : offer.status = .expired := by
      cases status : offer.status with
      | live => exact absurd status dead
      | consumed => exact absurd status unconsumed
      | revoked => exact absurd status unrevoked
      | expired => rfl
    exact .revokeExpired (authenticated.later views (views.trans to₂ to₆')) to₆' found expired

/-! ## Claims -/

theorem claimPaid_spec (views : Views app.cfg L R) {headers : Headers} {body : Bytes}
    {offerId : String} {offer : OfferRow} {proof : ParsedPaymentProof} {endHeight : Option Int}
    {now : Int} {h₁ : Hist World} (since : L start h)
    (authenticated : Authenticated app L (.claim headers body) offer.buyerPubkey h)
    (clock : ClockRead L now h) (parsed : claimBody app body = .ok (offerId, proof))
    (settled : Settled app R start offerId now offer h) (unconsumed : offer.status ≠ .consumed)
    (gate : deathGate app.cfg offer now = .ok endHeight)
    (paid : checkPayment app offer proof = .ok ())
    (owner : h₁.now.query (·.lookup offer.name) = some offer.sellerPubkey)
    (quiet : R h₁ h) :
    Spec app L R (.claim headers body) (claimPaid app offer proof endHeight now)
      (Answer app L R (.claim headers body) start) h := by
  refine look_bind views fun h₂ h₃ to₂ to₃ => ?_
  split
  · exact answer_err (by decide) (by decide)
  rename_i kernel reported
  split
  · exact answer_err (by decide) (by decide)
  rename_i confirmed
  simp only
  split
  · unfold deadErr
    split <;> exact answer_err (by decide) (by decide)
  rename_i below
  refine look_bind views fun h₄ h₅ to₄ to₅ => ?_
  split
  · exact answer_err (by decide) (by decide)
  rename_i unused
  refine look_bind views fun h₆ h₇ to₆ to₇ => ?_
  split
  · refine ⟨fun status => ?_, fun same => ?_⟩
    · simp [respond] at status
    · simp [respond, err, json] at same
  rename_i free
  have grounds : ∀ h₈, R h₇ h₈ → ClaimGrounds app L R start (.claim headers body) body offer
      proof.excessHex (kernel.height.map Text.heightAsI64) now h₈ := by
    intro h₈ to₈
    have to₈' : R h₆ h₈ := views.trans to₇ to₈
    have to₈'' : R h₄ h₈ := views.trans to₅ (views.trans to₆ to₈')
    have to₂₈ : R h₂ h₈ := views.trans to₃ (views.trans to₄ to₈'')
    have toEnd : R h h₈ := views.trans to₂ to₂₈
    simp only [not_or, Bool.not_eq_true, not_lt] at confirmed
    exact {
      authenticated := authenticated.later views toEnd
      clock := clock.later views toEnd
      proof := ⟨offerId, proof, parsed, rfl, paid, settled.later views toEnd⟩
      unconsumed
      gate := ⟨endHeight, gate, by simpa using below⟩
      owner := ⟨h₁, views.trans quiet toEnd, owner⟩
      kernel := ⟨h₂, kernel, to₂₈, reported, by simpa using confirmed.1, confirmed.2, rfl⟩
      unused := ⟨h₄, to₈'', by simpa using unused⟩
      free := ⟨h₆, to₈', free⟩ }
  refine exec_bind (fun h₈ to₈ => .claim (grounds h₈ to₈)) fun h₈ to₈ => ?_
  have toEnd : R h h₈ :=
    views.trans to₂ (views.trans to₃ (views.trans to₄ (views.trans to₅ (views.trans to₆
      (views.trans to₇ to₈)))))
  have since₈ : L start h₈ := views.wide_trans since (views.wide toEnd)
  cases answer : (h₈.now.claimTxn offer proof.excessHex
      (kernel.height.map Text.heightAsI64) now).1 with
  | ok u =>
    refine exec_bind (fun _ _ => .recordOp) fun h₉ to₉ => ?_
    refine ⟨fun _ => ⟨offer, _, _, now, h₈, grounds h₈ to₈, since₈, ?_, answer⟩, fun same => ?_⟩
    · exact views.wide_trans (views.own h₈ _) (views.wide_trans (views.wide to₉) (views.own h₉ _))
    · simp [claimSuccess, respond, err, json] at same
  | error e =>
    cases e with
    | ownerChanged =>
      refine ⟨fun status => absurd status (by decide), fun _ => ?_⟩
      exact ⟨offerId, proof, offer, now, h₈, parsed, settled.later views toEnd, since₈,
        clock.later views toEnd, World.claimTxn_ownerChanged answer⟩
    | buyerHasName => exact answer_err (by decide) (by decide)
    | reused => exact answer_err (by decide) (by decide)
    | db => exact answer_err (by decide) (by decide)

theorem claimOpen_spec (views : Views app.cfg L R) {headers : Headers} {body : Bytes}
    {key offerId : String} {offer : OfferRow} {proof : ParsedPaymentProof} {now : Int}
    (since : L start h) (authenticated : Authenticated app L (.claim headers body) key h)
    (clock : ClockRead L now h) (parsed : claimBody app body = .ok (offerId, proof))
    (settled : Settled app R start offerId now offer h) (unconsumed : offer.status ≠ .consumed) :
    Spec app L R (.claim headers body) (claimOpen app key offer proof now)
      (Answer app L R (.claim headers body) start) h := by
  unfold claimOpen
  split
  · rename_i response refused
    rw [deathGate_error refused, deadErr]
    split <;> exact answer_err (by decide) (by decide)
  rename_i endHeight gate
  split
  · exact answer_err (by decide) (by decide)
  rename_i buyer
  rw [not_not] at buyer
  subst buyer
  refine look_bind views fun h₁ h₂ to₁ to₂ => ?_
  split
  · rename_i other
    refine ⟨fun status => absurd status (by decide), fun _ => ?_⟩
    exact ⟨offerId, proof, offer, now, h₁, parsed, settled.later views to₁,
      views.wide_trans since (views.wide to₁), clock.later views to₁, other⟩
  rename_i owner
  have toEnd := views.trans to₁ to₂
  split
  · rename_i response refused
    unfold checkPayment at refused
    repeat' split at refused
    all_goals cases refused
    all_goals exact answer_err (by decide) (by decide)
  rename_i paid
  exact claimPaid_spec views (views.wide_trans since (views.wide toEnd))
    (authenticated.later views toEnd) (clock.later views toEnd) parsed
    (settled.later views toEnd) unconsumed gate paid (not_not.1 owner) to₂

theorem claim_spec (views : Views app.cfg L R) (headers : Headers) (body : Bytes)
    (h : Hist World) :
    Spec app L R (.claim headers body) (claim app headers body)
      (Answer app L R (.claim headers body) h) h := by
  refine authorized_spec views ⟨"transfer", headers, .post, "/api/v1/transfer/claim", body⟩ rfl
    fun key h₁ since authenticated => ?_
  split
  · rename_i response refused
    unfold claimBody at refused
    repeat' split at refused
    all_goals cases refused
    all_goals exact answer_err (by decide) (by decide)
  rename_i offerId proof parsed
  refine look_bind views fun h₂ h₃ to₂ to₃ => ?_
  split
  · exact answer_err (by decide) (by decide)
  rename_i offer found
  refine look_bind views fun h₄ h₅ to₄ to₅ => ?_
  have since₂ := views.trans since to₂
  have to₅' : R h₂ h₅ := views.trans to₃ (views.trans to₄ to₅)
  refine settleExpiry_spec views since₂ found to₅' ⟨h₄, views.wide to₅, rfl⟩
    fun settled h₆ grounds to₆ => ?_
  split
  · refine look_bind views fun h₇ h₈ to₇ to₈ => ?_
    split
    · split
      · refine ⟨fun status => ?_, fun same => ?_⟩
        · simp [claimSuccess, respond] at status
        · simp [claimSuccess, respond, err, json] at same
      · exact answer_err (by decide) (by decide)
    · exact answer_err (by decide) (by decide)
  · rename_i unconsumed
    have wide : L h₁ h₆ := views.wide_trans (views.wide (views.trans to₂ to₅')) to₆
    exact claimOpen_spec views (views.wide_trans (views.wide since) wide)
      (authenticated.wide views wide) ⟨h₄, views.wide_trans (views.wide to₅) to₆, rfl⟩ parsed
      grounds unconsumed

/-! ## All requests -/

/-- **Every request meets its guarantee.** -/
theorem handled (views : Views app.cfg L R) :
    Handled (authority app) R (Guarantee app L R) (Answer app L R) := by
  have closed : ∀ r h, Answer app L R r h ⟨404, [], .null⟩ h := by
    intro r h
    cases r with
    | claim => exact ⟨fun status => absurd status (by decide),
        fun same => absurd (congrArg Response.status same) (by decide)⟩
    | lodgeOffer => exact fun same => absurd (congrArg Response.status same) (by decide)
    | readOffer => exact fun status => absurd status (by decide)
    | _ => trivial
  have mount : ∀ {r : Request} {handler : Handler Response} {h : Hist World},
      Spec app L R r handler (Answer app L R r h) h →
      Spec app L R r (mounted app handler) (Answer app L R r h) h := by
    intro r handler h spec
    unfold mounted
    split
    · exact spec
    · exact closed r h
  intro r h
  cases r with
  | availability headers name => exact availability_spec views headers name h
  | register headers body => exact register_spec views headers body h
  | unregister headers name => exact unregister_spec views headers name h
  | profile headers name => exact profile_spec views headers name h
  | byPubkey headers pubkey => exact byPubkey_spec views headers pubkey h
  | wellKnown headers name => exact wellKnown_spec views headers name h
  | lodgeOffer headers body => exact mount (lodgeOffer_spec views headers body h)
  | readOffer headers offerId => exact mount (readOffer_spec views headers offerId h)
  | revokeOffer headers offerId => exact mount (revokeOffer_spec views headers offerId h)
  | claim headers body => exact mount (claim_spec views headers body h)

/-- What interleaving requests may rely on is a rely of the system. -/
theorem rely (app : App) : Rely (authority app) Later (Guarantee app Later Later) where
  refl := .refl
  trans := .trans
  env moved := Later.around moved
  runs guarantee := guarantee.effect ▸ Later.section_ app.cfg _ _

/-! ## Invariants of the authority -/

variable {ok : Request → Stmt → World → Prop} {c : Conf World Stmt Request Response}

/-- A section that is due in a reachable configuration has its grounds. -/
theorem because_due (reach : Reach (authority app) ok c) {i : Nat} {t : Stmt}
    (due : c.due i = some (r, t)) : Because app Later Later r t c.hist := by
  obtain ⟨u, n, found⟩ := Conf.due_eq_some.1 due
  exact (reach.guarantee (rely app) (handled (Later.views app.cfg)) found).because

/-- What one step does to the history: nothing, what the tag of its section
says, or what the environment does. -/
theorem step_cases {c' : Conf World Stmt Request Response} {e : Concurrent.Event Request Around}
    (reach : Reach (authority app) ok c) (next : (authority app).step c e = some c') :
    c'.hist = c.hist ∨
    (∃ i r t, e = .run i ∧ c.due i = some (r, t) ∧
      c'.hist = c.hist.push (t.apply app.cfg c.hist.now)) ∨
    (∃ v s, e = .env v ∧ Around.move v c.hist.now = some s ∧ c'.hist = c.hist.push s) := by
  obtain same | ⟨i, r, t, s, run, due, guaranteed, hist⟩ | env :=
    reach.step_hist (rely app) (handled (Later.views app.cfg)) next
  · exact .inl same
  · exact .inr (.inl ⟨i, r, t, run, due, guaranteed.effect ▸ hist⟩)
  · exact .inr (.inr env)

/-- What the section that is due does. -/
theorem step_due {c' : Conf World Stmt Request Response} {i : Nat} {t : Stmt}
    (reach : Reach (authority app) ok c) (next : (authority app).step c (.run i) = some c')
    (due : c.due i = some (r, t)) : c'.hist = c.hist.push (t.apply app.cfg c.hist.now) := by
  obtain ⟨u, n, found⟩ := Conf.due_eq_some.1 due
  simp only [System.step, found, Option.some.injEq] at next
  rw [← next, (reach.guarantee (rely app) (handled (Later.views app.cfg)) found).effect]

/-- The invariant rule for requests that interleave. -/
theorem interleaved (reach : Reach (authority app) ok c) (I : Hist World → Prop)
    (start : ∀ w, w.Fresh → I ⟨w, []⟩)
    (around : ∀ h e s, I h → Around.move e h.now = some s → I (h.push s))
    (runs : ∀ d r t, Reach (authority app) ok d → I d.hist → ok r t d.hist.now →
      Because app Later Later r t d.hist → I (d.hist.push (t.apply app.cfg d.hist.now))) :
    I c.hist := by
  refine reach.invariant (rely app) (handled (Later.views app.cfg)) I start around ?_
  intro d r t s reached inv allowed guarantee
  rw [guarantee.effect]
  exact runs d r t reached inv allowed guarantee.because

/-- Every earlier state has evolved into the present one. -/
theorem past_states (reach : Reach (authority app) ok c) :
    ∀ w ∈ c.hist.states, w.db.Evolves c.hist.now.db ∧ w.unixNow ≤ c.hist.now.unixNow := by
  have grow : ∀ {h : Hist World} {s : World}, Later h (h.push s) →
      (∀ w ∈ h.states, w.db.Evolves h.now.db ∧ w.unixNow ≤ h.now.unixNow) →
      ∀ w ∈ (h.push s).states, w.db.Evolves s.db ∧ w.unixNow ≤ s.unixNow := by
    intro h s later inv
    rw [Hist.states_push, List.forall_mem_cons]
    refine ⟨⟨.refl _, Int.le_refl _⟩, fun w earlier => ?_⟩
    obtain ⟨evolves, before⟩ := inv w earlier
    exact ⟨evolves.trans later.db, Int.le_trans before (World.unixNow_mono later.clock)⟩
  refine interleaved reach
    (fun h => ∀ w ∈ h.states, w.db.Evolves h.now.db ∧ w.unixNow ≤ h.now.unixNow) ?_ ?_ ?_
  · intro w _
    rw [Hist.states, List.forall_mem_singleton]
    exact ⟨.refl _, Int.le_refl _⟩
  · intro h e s inv moved
    exact grow (Later.around moved) inv
  · intro d r t _ inv _ _
    exact grow (Later.section_ app.cfg d.hist t) inv

/-- The invariant rule for complete requests: a property of the sections so far
and of the history. -/
theorem one_by_one {served : List (Request × Hist World)} {h : Hist World}
    (run : Served (authority app) ok served h)
    (I : List (Request × Stmt × Hist World) → Hist World → Prop)
    (start : ∀ w, w.Fresh → I [] ⟨w, []⟩)
    (around : ∀ seen h e s, I seen h → Around.move e h.now = some s → I seen (h.push s))
    (runs : ∀ seen d r t, Reach (authority app) ok d → I seen d.hist → ok r t d.hist.now →
      Because app Own Quiet r t d.hist →
      I (seen ++ [(r, t, d.hist)]) (d.hist.push (t.apply app.cfg d.hist.now))) :
    I ((authority app).sections served) h := by
  obtain ⟨w, fresh, serves⟩ := run
  have views := Quiet.views app.cfg
  refine serves.invariant views.refl (handled views) I around ?_ ⟨[], .start fresh⟩ (start w fresh)
  intro seen d r t s reached inv allowed guarantee
  rw [guarantee.effect]
  exact runs seen d r t reached inv allowed guarantee.because

end Nip05d
