import Nip05d.Directory

/-!
# Availability and registration

Two endpoints repeat the same chain of normalisation and checks: one says
whether a name could be registered, the other registers it. They agree for
every key that may register at all, as long as the database answers: a query
that fails reads as "no such row".
-/

namespace Nip05d

open Auth Concurrent Handlers Names

/-- A request is within the write limit of its bucket and address. -/
def WithinWrite (app : App) (bucket : String) (w : World) (headers : Headers) : Prop :=
  (RateLimit.allow w.rate bucket (clientIp headers) app.cfg.writeRateMax app.cfg.writeRateWindow
    w.clock.nanos).1 = true

/-- The event of a request has not been used. -/
def Unused (app : App) (id : String) (w : World) : Prop :=
  (RateLimit.authEventFresh app.cfg w.seenAuth id w.clock.nanos).1 = true

instance (app : App) (bucket : String) (w : World) (headers : Headers) :
    Decidable (WithinWrite app bucket w headers) :=
  inferInstanceAs (Decidable (_ = true))

instance (app : App) (id : String) (w : World) : Decidable (Unused app id w) :=
  inferInstanceAs (Decidable (_ = true))

/-- A registration of a name by a key that may register one now: signed by the
key with a fresh event, within the write limit, outside its cooldown, and the
key holds no active name. -/
structure Ready (app : App) (w : World) (headers : Headers) (body : Bytes) (raw key : String) :
    Prop where
  parsed : ∃ req, app.crates.registerBodyFromSlice body = some req ∧ req.name = raw ∧
    app.toLowercase req.pubkey = key
  budget : WithinWrite app "reg" w headers
  authorized : ∃ id, verifyNip98 app headers .post "/api/v1/register" body w.unixNow =
    .ok (key, id) ∧ Unused app id w
  rested : (RateLimit.cooldownActive w.rate "namechange" key app.cfg.nameChangeCooldown
    w.clock.nanos).1 = false
  nameless : w.db.nameOf key = none

/-- Availability and registration of a name say the same. -/
structure Agree (name : String) (availability registration : Response) : Prop where
  available : availability = available name ↔ registration.status = 201
  invalid : availability = unavailable name "invalid" ↔ registration = err 400 "invalid name"
  reserved : availability = unavailable name "reserved" ↔ registration = err 403 "name reserved"
  taken : availability = unavailable name "taken" ↔ registration = err 409 "name taken"

/-- What is left behind by a request that is handled alone from here on. -/
def after (app : App) (h : Hist World) (r : Request) : Hist World := ((routes app r).alone h).2

section

variable {app : App} {h : Hist World} {headers : Headers} {body : Bytes}

/-! ## The entry of a write endpoint on its own -/

/-- The history after the write limit has let a request in and the clock was
read. -/
def allowed (app : App) (bucket : String) (headers : Headers) (h : Hist World) : Hist World :=
  let counted := Stmt.apply app.cfg (.allow bucket (clientIp headers) app.cfg.writeRateMax
    app.cfg.writeRateWindow h.now.clock.nanos) h.now
  ((h.push h.now).push counted).push counted

/-- The history after the entry checks have let a request in. -/
def entered (app : App) (bucket : String) (headers : Headers) (id : String) (h : Hist World) :
    Hist World :=
  let timed := (allowed app bucket headers h).push (allowed app bucket headers h).now
  timed.push (Stmt.apply app.cfg (.authEventFresh id h.now.clock.nanos) timed.now)

section

variable {bucket urlPath key id : String} {method : Method} {next : String → Handler Response}

theorem alone_allowed (within : WithinWrite app bucket h.now headers) :
    (Handlers.authorized app bucket headers method urlPath body next).alone h =
      Prog.alone (match verifyNip98 app headers method urlPath body h.now.unixNow with
        | .error (code, msg) => return err code msg
        | .ok (authPubkey, authId) => do
          let fresh ← Handler.authEventFresh app.cfg authId
          if ¬ fresh then return err 401 "auth event replayed"
          next authPubkey) (allowed app bucket headers h) := by
  rw [Handlers.authorized, Handler.allowWrite, alone_allow, show (RateLimit.allow ..).1 = true from within,
    if_neg (by decide), Handler.unixNow, alone_look]
  rfl

theorem alone_authEventFresh {β : Type} {k : Bool → Handler β} :
    (Handler.authEventFresh app.cfg id >>= k).alone (allowed app bucket headers h) =
      (k (RateLimit.authEventFresh app.cfg h.now.seenAuth id h.now.clock.nanos).1).alone
        (entered app bucket headers id h) := rfl

/-- A request that its entry checks let in goes on as its key. -/
theorem alone_authorized (within : WithinWrite app bucket h.now headers)
    (verified : verifyNip98 app headers method urlPath body h.now.unixNow = .ok (key, id))
    (unused : Unused app id h.now) :
    (Handlers.authorized app bucket headers method urlPath body next).alone h =
      (next key).alone (entered app bucket headers id h) := by
  rw [alone_allowed within, verified]
  dsimp only
  rw [alone_authEventFresh, show (RateLimit.authEventFresh ..).1 = true from unused,
    if_neg (by decide)]

/-- A request that does not fail was let in by its entry checks. -/
theorem authorized_works
    (works : ((Handlers.authorized app bucket headers method urlPath body next).alone h).1.status < 400) :
    ∃ key id, verifyNip98 app headers method urlPath body h.now.unixNow = .ok (key, id) ∧
      (Handlers.authorized app bucket headers method urlPath body next).alone h =
        (next key).alone (entered app bucket headers id h) := by
  by_cases within : WithinWrite app bucket h.now headers
  · cases verified : verifyNip98 app headers method urlPath body h.now.unixNow with
    | error e =>
      rw [alone_allowed within, verified] at works
      have code : e.1 < 400 := works
      rw [verifyNip98_refusal verified] at code
      omega
    | ok granted =>
      obtain ⟨key, id⟩ := granted
      refine ⟨key, id, rfl, ?_⟩
      by_cases unused : Unused app id h.now
      · exact alone_authorized within verified unused
      · unfold Unused at unused
        rw [alone_allowed within, verified] at works
        dsimp only at works
        rw [alone_authEventFresh, if_pos unused] at works
        have code : 401 < 400 := works
        omega
  · unfold WithinWrite at within
    rw [Handlers.authorized, Handler.allowWrite, alone_allow, if_pos within] at works
    have code : 429 < 400 := works
    omega

end

/-! ## Registration on its own -/

theorem alone_exec {α β : Type} {t : Stmt} {f : World → α} {k : α → Handler β} :
    (Handler.exec app.cfg t f >>= k).alone h =
      (k (f h.now)).alone (h.push (t.apply app.cfg h.now)) := rfl

theorem alone_cooldownActive {β : Type} {bucket key : String} {window : Nanos}
    {k : Bool → Handler β} : (Handler.cooldownActive app.cfg bucket key window >>= k).alone h =
      (k (RateLimit.cooldownActive h.now.rate bucket key window h.now.clock.nanos).1).alone
        ((h.push h.now).push
          (Stmt.apply app.cfg (.cooldownActive bucket key window h.now.clock.nanos) h.now)) := rfl

variable {raw key name pubkey : String}

/-- A key that may register signs with thirty-two bytes. -/
theorem Ready.valid (ready : Ready app h.now headers body raw key) : validPubkeyHex key = true := by
  obtain ⟨id, verified, -⟩ := ready.authorized
  obtain ⟨event, -, rfl, -⟩ := verifyNip98_event verified
  exact (validPubkeyHex_iff _).2 (lowerHex64_encode event.pubkey.length)

/-- Only the name of such a registration is still in question. -/
theorem Ready.checked (ready : Ready app h.now headers body raw key) :
    checkRegistration app key body =
      let name := app.toLowercase raw
      if ¬ validName name app.cfg.nameMin app.cfg.nameMax then .error (err 400 "invalid name")
      else if isReserved name app.cfg.extraReserved then .error (err 403 "name reserved")
      else .ok (name, key) := by
  obtain ⟨req, parsed, rfl, lower⟩ := ready.parsed
  rw [checkRegistration, parsed]
  dsimp only
  rw [lower, if_neg (not_not.2 ready.valid), if_neg (not_not.2 rfl)]

/-- The limiter of a request does not start a cooldown. -/
theorem Ready.cool (ready : Ready app h.now headers body raw key) (id : String) :
    (RateLimit.cooldownActive (entered app "reg" headers id h).now.rate "namechange" key
      app.cfg.nameChangeCooldown (entered app "reg" headers id h).now.clock.nanos).1 = false := by
  have rested := RateLimit.cooldownActive_eq_false.1 ready.rested
  refine RateLimit.cooldownActive_eq_false.2 fun hits found => rested hits ?_
  exact RateLimit.allow_other
    (fun same => absurd (RateLimit.key_inj (by decide) (by decide) same).1 (by decide)) found

/-- A free name goes to a key without a name. -/
theorem registerChecked_works (free : h.now.query (·.lookup name) = none)
    (nameless : h.now.query (·.nameOf pubkey) = none) :
    (registerChecked app name pubkey).alone h =
      (registered app name (h.now.execute (·.registerName name pubkey h.now.unixNow)).1,
        ((h.push h.now).push h.now).push
          (h.now.execute (·.registerName name pubkey h.now.unixNow)).2) := by
  rw [registerChecked, Handler.lookup, alone_look, free]
  dsimp only
  rw [Handler.nameOf, alone_look, Hist.push_now, nameless]
  rfl

/-- An owned name stays with its owner. -/
theorem registerChecked_owned {owner : String} (owned : h.now.query (·.lookup name) = some owner) :
    ((registerChecked app name pubkey).alone h).1 =
      if owner = pubkey then
        respond 200 [("name", .string name), ("nip05", .string (nip05 app name))]
      else err 409 "name taken" := by
  rw [registerChecked, Handler.lookup, alone_look, owned]
  dsimp only
  split <;> rfl

/-- A registration that is answered 201 has made its key the owner. -/
theorem registerChecked_created
    (created : ((registerChecked app name pubkey).alone h).1.status = 201) :
    ((registerChecked app name pubkey).alone h).2.now.query (·.lookup name) = some pubkey := by
  cases owned : h.now.query (·.lookup name) with
  | some owner =>
    rw [registerChecked_owned owned] at created
    split at created <;> cases created
  | none =>
    cases held : h.now.query (·.nameOf pubkey) with
    | some existing =>
      rw [registerChecked, Handler.lookup, alone_look, owned] at created
      dsimp only at created
      rw [Handler.nameOf, alone_look, Hist.push_now, held] at created
      cases created
    | none =>
      rw [registerChecked_works owned held] at created ⊢
      cases result : (h.now.execute (·.registerName name pubkey h.now.unixNow)).1 with
      | error e => rw [result] at created; cases e <;> cases created
      | ok n =>
        cases n with
        | zero => rw [result] at created; cases created
        | succ n =>
          obtain ⟨db, working, ok, same⟩ := World.execute_ok result
          rw [Hist.push_now, same, World.query_eq_some]
          exact ⟨working, Db.registerName_takes ok (Nat.succ_ne_zero n)⟩

/-- **What a key that may register is answered.** -/
theorem register_reply (ready : Ready app h.now headers body raw key)
    (working : h.now.fault = none) :
    reply app h (.register headers body) =
      let name := app.toLowercase raw
      if ¬ validName name app.cfg.nameMin app.cfg.nameMax then err 400 "invalid name"
      else if isReserved name app.cfg.extraReserved then err 403 "name reserved"
      else if (h.now.query (·.lookup name)).isSome then err 409 "name taken"
      else respond 201 [("name", .string name), ("nip05", .string (nip05 app name))] := by
  obtain ⟨id, verified, unused⟩ := ready.authorized
  rw [reply, routes, register, alone_authorized ready.budget verified unused, alone_cooldownActive,
    ready.cool id, if_neg (by decide), ready.checked]
  generalize app.toLowercase raw = name
  generalize at_ : ((entered app "reg" headers id h).push _).push _ = h₁
  have same : ∀ {α : Type} (q : Db → Option α), h₁.now.query q = h.now.query q := by
    intro α q
    rw [← at_]
    rfl
  have working₁ : h₁.now.fault = none := at_ ▸ working
  have db : h₁.now.db = h.now.db := by rw [← at_]; rfl
  dsimp only
  by_cases valid : validName name app.cfg.nameMin app.cfg.nameMax = true
  · rw [if_neg (not_not.2 valid), if_neg (not_not.2 valid)]
    by_cases reserved : isReserved name app.cfg.extraReserved = true
    · rw [if_pos reserved, if_pos reserved]
      rfl
    · rw [if_neg reserved, if_neg reserved]
      cases owned : h.now.query (·.lookup name) with
      | some owner =>
        have other : owner ≠ key := by
          rintro rfl
          rw [World.query_working working, Db.lookup_iff_nameOf, ready.nameless] at owned
          cases owned
        rw [registerChecked_owned ((same _).trans owned), if_neg other]
        rfl
      | none =>
        have nameless : h₁.now.query (·.nameOf key) = none := by
          rw [World.query_working working₁, db]
          exact ready.nameless
        have free : h₁.now.db.lookup name = none :=
          (World.query_working working₁).symm.trans ((same _).trans owned)
        obtain ⟨db', ok⟩ := Db.registerName_works h₁.now.unixNow free
          ((World.query_working working₁).symm.trans nameless)
        have inserted : (h₁.now.execute (·.registerName name key h₁.now.unixNow)).1 = .ok 1 := by
          simp [World.execute, working₁, ok]
        rw [registerChecked_works ((same _).trans owned) nameless, inserted]
        rfl
  · rw [if_pos valid, if_pos valid]
    rfl

/-- The answers of the two chains of checks meet. -/
theorem agree {reads : Headers} (within : WithinRead app h.now reads)
    (ready : Ready app h.now headers body raw key) (working : h.now.fault = none) :
    Agree (app.toLowercase raw) (reply app h (.availability reads raw))
      (reply app h (.register headers body)) := by
  rw [availability_reply within, register_reply ready working]
  generalize app.toLowercase raw = name
  dsimp only
  by_cases valid : validName name app.cfg.nameMin app.cfg.nameMax = true
  · rw [if_neg (not_not.2 valid), if_neg (not_not.2 valid)]
    by_cases reserved : isReserved name app.cfg.extraReserved = true
    · rw [if_pos reserved, if_pos reserved]
      constructor <;> simp [err_inj]
    · rw [if_neg reserved, if_neg reserved]
      by_cases owned : (h.now.query (·.lookup name)).isSome = true
      · rw [if_pos owned, if_pos owned]
        constructor <;> simp [err_inj]
      · rw [if_neg owned, if_neg owned]
        constructor <;> simp [err, respond]
  · rw [if_pos valid, if_pos valid]
    constructor <;> simp [err_inj]

/-! ## What a registration and a release leave behind -/

/-- A registration that is answered 201 has given its name an owner. -/
theorem register_created (created : (reply app h (.register headers body)).status = 201) :
    ∃ req p, app.crates.registerBodyFromSlice body = some req ∧
      (after app h (.register headers body)).now.query (·.lookup (app.toLowercase req.name)) =
        some p := by
  rw [reply, routes, register] at created
  obtain ⟨key, id, -, rest⟩ := authorized_works (show _ < 400 by rw [created]; decide)
  rw [rest, alone_cooldownActive] at created
  rw [after, routes, register, rest, alone_cooldownActive]
  generalize RateLimit.cooldownActive _ _ _ _ _ = cooldown at created ⊢
  by_cases cooling : cooldown.1 = true
  · rw [if_pos cooling] at created
    cases created
  · rw [if_neg cooling] at created ⊢
    cases checked : checkRegistration app key body with
    | error response =>
      rw [checked] at created
      have failed : 400 ≤ response.status := checkRegistration_error checked
      have same : response.status = 201 := created
      omega
    | ok registration =>
      obtain ⟨name, pubkey⟩ := registration
      obtain ⟨req, parsed, rfl⟩ := checkRegistration_name checked
      rw [checked] at created
      exact ⟨req, pubkey, parsed, registerChecked_created created⟩

/-- A release that is answered 200 has taken the name from its key. -/
theorem release_done {key : String} (released : ((release app name key).alone h).1.status = 200) :
    h.now.query (·.lookup name) = some key ∧
      ((release app name key).alone h).2.now.fault = none ∧
      ((release app name key).alone h).2.now.db.lookup name = none := by
  rw [release, Handler.lookup, alone_look] at released ⊢
  cases owned : h.now.query (·.lookup name) with
  | none =>
    rw [owned] at released
    cases released
  | some owner =>
    rw [owned] at released
    dsimp only at released ⊢
    by_cases own : owner = key
    · subst own
      rw [if_pos rfl] at released ⊢
      rw [Handler.releaseName, alone_exec, Hist.push_now] at released ⊢
      cases result : (h.now.execute (·.releaseName name h.now.unixNow)).1 with
      | error e =>
        rw [result] at released
        cases released
      | ok n =>
        obtain ⟨db, working, ok, same⟩ := World.execute_ok result
        change _ ∧ (h.now.execute (·.releaseName name h.now.unixNow)).2.fault = none ∧
          (h.now.execute (·.releaseName name h.now.unixNow)).2.db.lookup name = none
        rw [same]
        exact ⟨rfl, working, by rw [Db.lookup_release ok, if_pos rfl]⟩
    · rw [if_neg own] at released
      cases released

/-- A name whose release was answered 200 was owned, and is no longer. -/
theorem unregister_done (released : (reply app h (.unregister headers raw)).status = 200) :
    (∃ p, h.now.db.lookup (app.toLowercase raw) = some p) ∧
      (after app h (.unregister headers raw)).now.fault = none ∧
      (after app h (.unregister headers raw)).now.db.lookup (app.toLowercase raw) = none := by
  rw [reply, routes, unregister] at released
  obtain ⟨key, id, -, rest⟩ := authorized_works (show _ < 400 by rw [released]; decide)
  rw [rest] at released
  rw [after, routes, unregister, rest]
  obtain ⟨owned, left⟩ := release_done released
  exact ⟨⟨key, (World.query_eq_some.1 owned).2⟩, left⟩

end

section

variable {app : App} {c : Conf World Stmt Request Response}

/-- What a request leaves behind is a point of a run as well. -/
theorem after_reach (reach : Reachable (authority app) c) (r : Request) :
    ∃ procs, Reachable (authority app) ⟨after app c.hist r, procs⟩ :=
  (Left.arrive r reach).alone (Prog.along_true _ _)

/-- **Availability and registration agree** while the database answers: on every
point of every run, after a registration, and after a release. -/
theorem availability_agrees (reach : Reachable (authority app) c) :
    (c.hist.now.fault = none → ∀ reads headers body raw key,
      WithinRead app c.hist.now reads → Ready app c.hist.now headers body raw key →
      Agree (app.toLowercase raw) (reply app c.hist (.availability reads raw))
        (reply app c.hist (.register headers body))) ∧
    (∀ headers body, (reply app c.hist (.register headers body)).status = 201 →
      ∃ req, app.crates.registerBodyFromSlice body = some req ∧
      ∀ reads, WithinRead app (after app c.hist (.register headers body)).now reads →
        reply app (after app c.hist (.register headers body)) (.availability reads req.name) =
          unavailable (app.toLowercase req.name) "taken") ∧
    ∀ headers raw, (reply app c.hist (.unregister headers raw)).status = 200 →
      (∀ reads, WithinRead app (after app c.hist (.unregister headers raw)).now reads →
        reply app (after app c.hist (.unregister headers raw)) (.availability reads raw) =
          available (app.toLowercase raw)) ∧
      ∀ headers' body key,
        Ready app (after app c.hist (.unregister headers raw)).now headers' body raw key →
        (reply app (after app c.hist (.unregister headers raw))
          (.register headers' body)).status = 201 := by
  refine ⟨fun working reads headers body raw key within ready => agree within ready working,
    fun headers body created => ?_, fun headers raw released => ?_⟩
  · obtain ⟨req, p, parsed, owned⟩ := register_created created
    refine ⟨req, parsed, fun reads within => ?_⟩
    obtain ⟨procs, reach'⟩ := after_reach reach (.register headers body)
    exact availability_taken (directory reach') within rfl owned
  · obtain ⟨⟨p, owned⟩, working, free⟩ := unregister_done released
    have proper := (directory reach).owner owned
    have unowned : (after app c.hist (.unregister headers raw)).now.query
        (·.lookup (app.toLowercase raw)) = none := by
      rw [World.query_working working]
      exact free
    refine ⟨fun reads within => ?_, fun headers' body key ready => ?_⟩
    · rw [availability_reply within]
      dsimp only
      rw [if_neg (not_not.2 proper.valid), if_neg (by simp [proper.unreserved]), unowned]
      rfl
    · rw [register_reply ready working]
      dsimp only
      rw [if_neg (not_not.2 proper.valid), if_neg (by simp [proper.unreserved]), unowned]
      rfl

end

namespace Scripted

/-- The seller may register ada in the empty world, whether or not its database
answers. -/
theorem ready (fault : Option Stage) :
    Ready app { world with fault } (headers "register ada") (utf8 "R1") "ada" seller.toHex where
  parsed := ⟨⟨"ada", seller.toHex⟩, rfl, rfl, by decide +kernel⟩
  budget := show (RateLimit.allow world.rate "reg" (clientIp (headers "register ada"))
    app.cfg.writeRateMax app.cfg.writeRateWindow world.clock.nanos).1 = true by decide +kernel
  authorized := by
    have verified : verifyNip98 app (headers "register ada") .post "/api/v1/register" (utf8 "R1")
        world.unixNow = .ok (seller.toHex, (key 1).toHex) := by decide +kernel
    have unused : (RateLimit.authEventFresh app.cfg world.seenAuth (key 1).toHex
        world.clock.nanos).1 = true := by decide +kernel
    exact ⟨(key 1).toHex, verified, unused⟩
  rested := show (RateLimit.cooldownActive world.rate "namechange" seller.toHex
    app.cfg.nameChangeCooldown world.clock.nanos).1 = false by decide +kernel
  nameless := show world.db.nameOf seller.toHex = none by decide +kernel

/-- The empty world when its database starts to fail. -/
def failing : World := { world with fault := some .start }

theorem failing_reach :
    Reachable (authority app) ⟨Hist.push ⟨world, []⟩ failing, []⟩ := by
  have next : (authority app).step (.start world) (.env (.database (some .start))) =
      some ⟨Hist.push ⟨world, []⟩ failing, []⟩ := rfl
  exact .step (.start world_fresh) (meets_true _ _) next

/-- Nobody holds ada in the empty world, whether or not its database answers. -/
theorem ada_available {h : Hist World} (within : WithinRead app h.now (headers ""))
    (free : h.now.query (·.lookup "ada") = none) :
    reply app h (.availability (headers "") "ada") = available "ada" := by
  have lower : app.toLowercase "ada" = "ada" := by decide +kernel
  have valid : validName "ada" app.cfg.nameMin app.cfg.nameMax = true := by decide +kernel
  have unreserved : isReserved "ada" app.cfg.extraReserved = false := by decide +kernel
  rw [availability_reply within, lower]
  dsimp only
  rw [if_neg (not_not.2 valid), if_neg (by simp [unreserved]), free]
  rfl

/-- While the database fails a name is available that cannot be registered. -/
theorem available_on_failure : ∃ c, Reachable (authority app) c ∧
    app.cfg.validate = .ok () ∧ WithinRead app c.hist.now (headers "") ∧
    Ready app c.hist.now (headers "register ada") (utf8 "R1") "ada" seller.toHex ∧
    reply app c.hist (.availability (headers "") "ada") = available "ada" ∧
    (reply app c.hist (.register (headers "register ada") (utf8 "R1"))).status = 500 := by
  have valid : app.cfg.validate = .ok () := by decide +kernel
  have within : WithinRead app failing (headers "") := by decide +kernel
  exact ⟨_, failing_reach, valid, within, ready (some .start), ada_available within rfl,
    by decide +kernel⟩

/-- The seller is told that ada is available, gets it, and then it is taken. -/
theorem available_registered : ∃ c, Reachable (authority app) c ∧
    reply app c.hist (.availability (headers "") "ada") = available "ada" ∧
    (reply app c.hist registerAda).status = 201 ∧
    reply app (after app c.hist registerAda) (.availability (headers "") "ada") =
      unavailable "ada" "taken" := by
  have reach : Reachable (authority app) (.start world) := .start world_fresh
  have lower : app.toLowercase "ada" = "ada" := by decide +kernel
  have within : WithinRead app world (headers "") := by decide +kernel
  have within' : WithinRead app (after app ⟨world, []⟩ registerAda).now (headers "") := by
    decide +kernel
  obtain ⟨agrees, created, -⟩ := availability_agrees reach
  have told : reply app ⟨world, []⟩ (.availability (headers "") "ada") = available "ada" :=
    ada_available within rfl
  have same := agrees rfl (headers "") _ _ _ _ within (ready none)
  have status := same.available.1 (by rw [lower]; exact told)
  obtain ⟨req, parsed, taken⟩ := created _ _ status
  have name : req = ⟨"ada", seller.toHex⟩ := Option.some.inj (parsed.symm.trans rfl)
  have answered := taken (headers "") within'
  rw [name, lower] at answered
  exact ⟨_, reach, told, status, answered⟩

end Scripted

end Nip05d
