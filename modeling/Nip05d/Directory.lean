import Nip05d.Ownership

/-!
# The directory of active names

Names enter the store by an upsert, leave it by an update, and change owner in a
transaction that checks neither the name nor the key again. In every reachable
store the active names are a one-to-one map from valid, unreserved names to
proper keys all the same, and the four endpoints that read it, each with checks
of its own, show the same map.
-/

namespace Nip05d

open Auth Concurrent Handlers Names

/-- A name that may be registered and a well-formed key. -/
structure Proper (app : App) (name p : String) : Prop where
  valid : validName name app.cfg.nameMin app.cfg.nameMax = true
  unreserved : isReserved name app.cfg.extraReserved = false
  pubkey : LowerHex64 p

/-- The active names of a store are a one-to-one map. -/
structure Directory (app : App) (db : Db) : Prop where
  proper : ∀ r ∈ db.names.rows, r.releasedAt = none → Proper app r.name r.pubkey
  apart : db.names.rows.Pairwise fun r s =>
    r.releasedAt = none → s.releasedAt = none → r.name ≠ s.name ∧ r.pubkey ≠ s.pubkey
  inverse : ∀ name p, db.lookup name = some p ↔ db.nameOf p = some name

/-- An owner holds a row. -/
theorem Directory.owner {app : App} {db : Db} {name p : String} (map : Directory app db)
    (owned : db.lookup name = some p) : Proper app name p := by
  obtain ⟨r, member, rfl, active, rfl⟩ := Db.lookup_eq_some.1 owned
  exact map.proper r member active

/-- The constraints of the table keep active rows apart. -/
theorem Db.active_apart (db : Db) : db.names.rows.Pairwise fun r s =>
    r.releasedAt = none → s.releasedAt = none → r.name ≠ s.name ∧ r.pubkey ≠ s.pubkey := by
  refine db.names.unique.imp fun {r s} apart active active' => ⟨fun same => ?_, fun same => ?_⟩
  · rcases apart _ nameKey with outside | differ
    · cases outside
    · exact differ (congrArg some same)
  · rcases apart _ activeKey with outside | differ
    · simp [active] at outside
    · simp [active, active', same] at differ

section

variable {app : App} {ok : Request → Stmt → World → Prop}
  {c : Conf World Stmt Request Response}

/-- The buyer of a lodged offer has a well-formed key. -/
theorem Lodged.buyer {o : OfferRow} {h : Hist World} (lodged : Lodged app o h) :
    LowerHex64 o.buyerPubkey := by
  obtain ⟨event, signed⟩ := lodged.signed
  obtain ⟨tags, price, columns⟩ := offerColumns_eq_some signed.columns
  have buyer : o.buyerPubkey = app.toLowercase tags.buyer :=
    congrArg NewOffer.buyerPubkey columns.columns
  rw [buyer, ← validPubkeyHex_iff]
  exact columns.validBuyer

/-- **Every owner is proper.** A registration checks both sides; a claim keeps a
name that was proper and gives it to the buyer of a lodged offer. -/
theorem owners_proper (reach : Reach (authority app) ok c) :
    ∀ name p, c.hist.now.db.lookup name = some p → Proper app name p := by
  refine interleaved reach
    (fun h => ∀ name p, h.now.db.lookup name = some p → Proper app name p) ?_ ?_ ?_
  · intro w fresh name p owned
    rw [fresh.db] at owned
    cases owned
  · intro h e s inv moved name p owned
    rw [Hist.push_now, (Around.move_frame moved).1] at owned
    exact inv name p owned
  · intro d r t reached inv _ because name p owned
    rw [Hist.push_now] at owned
    cases owners_after app.cfg t d.hist.now with
    | same unchanged => exact inv name p (unchanged ▸ owned)
    | registered tag _ after =>
      rw [after] at owned
      split at owned
      · rename_i here
        subst here tag
        cases owned
        cases because with
        | register _ checked =>
          obtain ⟨-, key, valid, free⟩ := checkRegistration_ok checked
          exact ⟨valid, free, (validPubkeyHex_iff _).1 key⟩
      · exact inv name p owned
    | released tag _ after =>
      rw [after] at owned
      split at owned
      · cases owned
      · exact inv name p owned
    | claimed tag _ claimed =>
      rw [claimed.lookup] at owned
      split at owned
      · rename_i here
        subst here tag
        cases owned
        have before := inv _ _ claimed.owned
        cases because with
        | claim grounds =>
          obtain ⟨row, member, becomes⟩ := grounds.row
          have buyer := (lodged reached row member).buyer
          rw [becomes.buyerPubkey] at buyer
          exact ⟨before.valid, before.unreserved, buyer⟩
      · exact inv name p owned

theorem directory (reach : Reach (authority app) ok c) : Directory app c.hist.now.db where
  proper r member active :=
    owners_proper reach r.name r.pubkey (Db.lookup_eq_some.2 ⟨r, member, rfl, active, rfl⟩)
  apart := c.hist.now.db.active_apart
  inverse _ _ := Db.lookup_iff_nameOf

end

/-! ## What the read endpoints answer -/

/-- The answer to a request that is handled alone from here on. -/
def reply (app : App) (h : Hist World) (r : Request) : Response := ((routes app r).alone h).1

/-- A read that arrives now is within the read limit of its address. -/
def WithinRead (app : App) (w : World) (headers : Headers) : Prop :=
  (RateLimit.allow w.rate "read" (clientIp headers) app.cfg.readRateMax app.cfg.readRateWindow
    w.clock.nanos).1 = true

instance (app : App) (w : World) (headers : Headers) : Decidable (WithinRead app w headers) :=
  inferInstanceAs (Decidable (_ = true))

/-- A name and its key, as the profile and the reverse lookup answer them. -/
def paired (name p : String) : Response :=
  publicRead [("name", .string name), ("pubkey", .string p)]

/-- A name mapped to its key, with the relays of the key. -/
def mapped (app : App) (name p : String) : Response :=
  publicRead [("names", json [(name, .string p)]),
    ("relays", json [(p, .array (app.cfg.relays.map .string))])]

/-- A name that is available. -/
def available (name : String) : Response :=
  respond 200 [("name", .string name), ("available", .bool true)]

/-- A name that is not available. -/
def unavailable (name reason : String) : Response :=
  respond 200 [("name", .string name), ("available", .bool false), ("reason", .string reason)]

theorem paired_inj {name name' p p' : String} :
    paired name p = paired name' p' ↔ name = name' ∧ p = p' := by
  simp [paired, publicRead, json]

theorem not_found_ne_paired {name p : String} : err 404 "not found" ≠ paired name p :=
  fun same => absurd (show 404 = 200 from congrArg Response.status same) (by decide)

@[simp] theorem available_ne_unavailable {name reason : String} :
    available name ≠ unavailable name reason := by
  simp [available, unavailable, respond, json]

@[simp] theorem unavailable_ne_available {name reason : String} :
    unavailable name reason ≠ available name := available_ne_unavailable.symm

@[simp] theorem unavailable_inj {name reason reason' : String} :
    unavailable name reason = unavailable name reason' ↔ reason = reason' := by
  simp [unavailable, respond, json]

theorem mapped_inj {app : App} {name name' p p' : String}
    (same : mapped app name p = mapped app name' p') :
    name = name' ∧ p = p' := by
  simpa [mapped, publicRead, json] using same

section

variable {app : App} {h : Hist World} {headers : Headers}

/-- The world after a read has been counted. -/
def counted (app : App) (headers : Headers) (w : World) : World :=
  Stmt.apply app.cfg (.allow "read" (clientIp headers) app.cfg.readRateMax app.cfg.readRateWindow
    w.clock.nanos) w

theorem alone_look {α β : Type} {f : World → α} {k : α → Handler β} :
    (Handler.look f >>= k).alone h = (k (f h.now)).alone (h.push h.now) := rfl

theorem alone_allow {β : Type} {bucket ip : String} {max : Nat} {window : Nanos}
    {k : Bool → Handler β} :
    (Handler.allow app.cfg bucket ip max window >>= k).alone h =
      (k (RateLimit.allow h.now.rate bucket ip max window h.now.clock.nanos).1).alone
        ((h.push h.now).push
          (Stmt.apply app.cfg (.allow bucket ip max window h.now.clock.nanos) h.now)) := rfl

theorem alone_allowRead {β : Type} {k : Bool → Handler β} (within : WithinRead app h.now headers) :
    (Handler.allowRead app.cfg (clientIp headers) >>= k).alone h =
      (k true).alone ((h.push h.now).push (counted app headers h.now)) := by
  rw [Handler.allowRead, alone_allow, show (RateLimit.allow ..).1 = true from within]
  rfl

theorem alone_limited {next : Handler Response} (within : WithinRead app h.now headers) :
    (limited app headers next).alone h =
      next.alone ((h.push h.now).push (counted app headers h.now)) := by
  rw [limited, alone_allowRead within, if_neg (by decide)]

@[simp] theorem counted_query {α : Type} (w : World) (q : Db → Option α) :
    (counted app headers w).query q = w.query q := rfl

theorem profile_reply (within : WithinRead app h.now headers) (raw : String) :
    reply app h (.profile headers raw) =
      if validName (app.toLowercase raw) app.cfg.nameMin app.cfg.nameMax then
        match h.now.query (·.lookup (app.toLowercase raw)) with
        | some p => paired (app.toLowercase raw) p
        | none => err 404 "not found"
      else err 404 "not found" := by
  rw [reply, routes, profile, alone_limited within]
  generalize app.toLowercase raw = name
  dsimp only
  by_cases valid : validName name app.cfg.nameMin app.cfg.nameMax = true
  · rw [if_neg (not_not.2 valid), if_pos valid, Handler.lookup, alone_look, Hist.push_now,
      counted_query]
    cases h.now.query (·.lookup name) <;> rfl
  · rw [if_pos valid, if_neg valid]
    rfl

theorem byPubkey_reply (within : WithinRead app h.now headers) (raw : String) :
    reply app h (.byPubkey headers raw) =
      if validPubkeyHex (app.toLowercase raw) then
        match h.now.query (·.nameOf (app.toLowercase raw)) with
        | some name => paired name (app.toLowercase raw)
        | none => err 404 "not found"
      else err 404 "not found" := by
  rw [reply, routes, byPubkey, alone_limited within]
  generalize app.toLowercase raw = p
  dsimp only
  by_cases valid : validPubkeyHex p = true
  · rw [if_neg (not_not.2 valid), if_pos valid, Handler.nameOf, alone_look, Hist.push_now,
      counted_query]
    cases h.now.query (·.nameOf p) <;> rfl
  · rw [if_pos valid, if_neg valid]
    rfl

theorem availability_reply (within : WithinRead app h.now headers) (raw : String) :
    reply app h (.availability headers raw) =
      let name := app.toLowercase raw
      if ¬ validName name app.cfg.nameMin app.cfg.nameMax then unavailable name "invalid"
      else if isReserved name app.cfg.extraReserved then unavailable name "reserved"
      else if (h.now.query (·.lookup name)).isSome then unavailable name "taken"
      else available name := by
  rw [reply, routes, availability, alone_limited within]
  generalize app.toLowercase raw = name
  dsimp only
  by_cases valid : validName name app.cfg.nameMin app.cfg.nameMax = true
  · rw [if_neg (not_not.2 valid), if_neg (not_not.2 valid)]
    by_cases reserved : isReserved name app.cfg.extraReserved = true
    · rw [if_pos reserved, if_pos reserved]
      rfl
    · rw [if_neg reserved, if_neg reserved, Handler.lookup, alone_look, Hist.push_now,
        counted_query]
      cases h.now.query (·.lookup name) <;> rfl
  · rw [if_pos valid, if_pos valid]
    rfl

theorem wellKnown_reply (within : WithinRead app h.now headers) (raw : String) :
    reply app h (.wellKnown headers (some raw)) =
      let name := app.toLowercase raw
      let owner := if validName name app.cfg.nameMin app.cfg.nameMax then
        h.now.query (·.lookup name) else none
      match owner with
      | some p => mapped app name p
      | none => publicRead [("names", json []), ("relays", json [])] := by
  rw [reply, routes, wellKnown, alone_allowRead within, if_neg (by decide), wellKnownEntry]
  generalize app.toLowercase raw = name
  dsimp only
  by_cases valid : validName name app.cfg.nameMin app.cfg.nameMax = true
  · rw [if_neg (not_not.2 valid), if_pos valid, Prog.alone_bind, Handler.lookup, alone_look,
      Hist.push_now, counted_query]
    cases h.now.query (·.lookup name) <;> rfl
  · rw [if_pos valid, if_neg valid]
    rfl

/-! ## The endpoints show the map -/

variable {name p : String}

theorem profile_answers (map : Directory app h.now.db)
    (within : WithinRead app h.now headers) (lower : app.toLowercase name = name) :
    reply app h (.profile headers name) = paired name p ↔
      h.now.query (·.lookup name) = some p := by
  rw [profile_reply within, lower]
  constructor
  · intro answered
    split at answered
    · split at answered
      · rename_i owner owned
        rw [owned, (paired_inj.1 answered).2]
      · exact absurd answered not_found_ne_paired
    · exact absurd answered not_found_ne_paired
  · intro owned
    have valid := (map.owner (World.query_eq_some.1 owned).2).valid
    rw [if_pos valid, owned]

theorem wellKnown_answers (map : Directory app h.now.db)
    (within : WithinRead app h.now headers) (lower : app.toLowercase name = name) :
    reply app h (.wellKnown headers (some name)) = mapped app name p ↔
      h.now.query (·.lookup name) = some p := by
  rw [wellKnown_reply within, lower]
  dsimp only
  constructor
  · intro answered
    split at answered
    · rename_i owner owned
      split at owned
      · rw [owned, (mapped_inj answered).2]
      · cases owned
    · simp [mapped, publicRead, json] at answered
  · intro owned
    have valid := (map.owner (World.query_eq_some.1 owned).2).valid
    rw [if_pos valid, owned]

theorem byPubkey_answers (map : Directory app h.now.db)
    (within : WithinRead app h.now headers) (lower : app.toLowercase p = p) :
    reply app h (.byPubkey headers p) = paired name p ↔ h.now.query (·.nameOf p) = some name := by
  rw [byPubkey_reply within, lower]
  constructor
  · intro answered
    split at answered
    · split at answered
      · rename_i held owned
        rw [owned, (paired_inj.1 answered).1]
      · exact absurd answered not_found_ne_paired
    · exact absurd answered not_found_ne_paired
  · intro owned
    obtain ⟨working, held⟩ := World.query_eq_some.1 owned
    have valid := (map.owner (Db.lookup_iff_nameOf.2 held)).pubkey
    rw [if_pos ((validPubkeyHex_iff p).2 valid), owned]

theorem availability_taken (map : Directory app h.now.db)
    (within : WithinRead app h.now headers) {raw : String} (lower : app.toLowercase raw = name)
    (owned : h.now.query (·.lookup name) = some p) :
    reply app h (.availability headers raw) = unavailable name "taken" := by
  obtain ⟨valid, unreserved, -⟩ := map.owner (World.query_eq_some.1 owned).2
  rw [availability_reply within, lower]
  dsimp only
  rw [if_neg (not_not.2 valid), if_neg (by simp [unreserved]), owned]
  rfl

end

/-- **The active names are a one-to-one map, and every read path shows it.** -/
theorem one_map {app : App} {c : Conf World Stmt Request Response}
    (reach : Reachable (authority app) c) :
    Directory app c.hist.now.db ∧
    ∀ name p, app.toLowercase name = name → app.toLowercase p = p →
      ∀ h₁ h₂ h₃ h₄, WithinRead app c.hist.now h₁ → WithinRead app c.hist.now h₂ →
        WithinRead app c.hist.now h₃ → WithinRead app c.hist.now h₄ →
        (reply app c.hist (.profile h₁ name) = paired name p ↔
          reply app c.hist (.wellKnown h₂ (some name)) = mapped app name p) ∧
        (reply app c.hist (.profile h₁ name) = paired name p ↔
          reply app c.hist (.byPubkey h₃ p) = paired name p) ∧
        (reply app c.hist (.profile h₁ name) = paired name p →
          reply app c.hist (.availability h₄ name) = unavailable name "taken") := by
  refine ⟨directory reach, fun name p lower lower' h₁ h₂ h₃ h₄ in₁ in₂ in₃ in₄ => ?_⟩
  have map := directory reach
  have shown := profile_answers (p := p) map in₁ lower
  refine ⟨shown.trans (wellKnown_answers map in₂ lower).symm, shown.trans ?_, fun answered => ?_⟩
  · rw [byPubkey_answers map in₃ lower', World.query_eq_some, World.query_eq_some,
      Db.lookup_iff_nameOf]
  · exact availability_taken map in₄ lower (shown.1 answered)

namespace Scripted

/-- After the registration of ada every read path shows its owner. -/
theorem ada_shown : ∃ c, Reachable (authority app) c ∧ Directory app c.hist.now.db ∧
    reply app c.hist (.profile (headers "") "ada") = paired "ada" seller.toHex ∧
    reply app c.hist (.wellKnown (headers "") (some "ada")) = mapped app "ada" seller.toHex ∧
    reply app c.hist (.byPubkey (headers "") seller.toHex) = paired "ada" seller.toHex ∧
    reply app c.hist (.availability (headers "") "ada") = unavailable "ada" "taken" := by
  have replayed : (((authority app).replayMeeting (fun _ _ _ => True) (.start world)
      (.arrive registerAda :: sections 0 10)).any fun c =>
        c.hist.now.query (·.lookup "ada") == some seller.toHex &&
          decide (WithinRead app c.hist.now (headers ""))) = true := by
    decide +kernel
  obtain ⟨c, run, found⟩ := (Option.any_eq_true _ _).1 replayed
  rw [Bool.and_eq_true, beq_iff_eq, decide_eq_true_eq] at found
  obtain ⟨owned, within⟩ := found
  have reach := Reach.replayMeeting (.start world_fresh) run
  have lower : app.toLowercase "ada" = "ada" := by decide +kernel
  have lower' : app.toLowercase seller.toHex = seller.toHex := by decide +kernel
  obtain ⟨here, shown⟩ := one_map reach
  obtain ⟨known, back, taken⟩ :=
    shown "ada" seller.toHex lower lower' _ _ _ _ within within within within
  have answered := (profile_answers (directory reach) within lower).2 owned
  exact ⟨c, reach, here, answered, known.1 answered, back.1 answered, taken answered⟩

end Scripted

end Nip05d
