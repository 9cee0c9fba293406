import Nip05d.Concurrent.Paths
import Nip05d.LifeCycle

/-!
# Refused requests change nothing

A section that writes is followed by an answer of success, or is refused by the
store; the one exception is the settling of an expiry. So a request that ends
with another answer than 2xx has left the store to the others, whatever they
did in between.
-/

namespace Nip05d

open Auth Concurrent Handlers Names Proof

/-- An answer of status 2xx. -/
def Handlers.Response.Success (response : Response) : Prop :=
  200 ≤ response.status ∧ response.status < 300

instance (response : Response) : Decidable response.Success :=
  inferInstanceAs (Decidable (_ ∧ _))

/-- An offer that was live past its expiration is moved to expired. -/
def OfferRow.Expires (o o' : OfferRow) (now : Int) : Prop :=
  o.status = .live ∧ o.expiration < now ∧ ∃ endHeight at_,
    o' = { o with status := .expired, endHeight, stateChangedAt := some at_ }

/-- A step leaves the store as it is, but for live offers past their
expiration, which may expire. -/
structure LeavesStore (s : Step) : Prop where
  names : s.after.hist.now.db.names = s.before.hist.now.db.names
  transfers : s.after.hist.now.db.transfers = s.before.hist.now.db.transfers
  offers : List.Forall₂ (fun o o' => o' = o ∨ o.Expires o' s.before.hist.now.unixNow)
    s.before.hist.now.db.offers.rows s.after.hist.now.db.offers.rows

/-- A section leaves the store as it is, or settles an expiry. -/
def Harmless (cfg : Config) (q : Stmt × World) : Prop :=
  (q.1.apply cfg q.2).db = q.2.db ∨
    ∃ offerId endHeight at_, q.1 = .markOfferDead offerId .expired endHeight at_

/-- Every path of a program ends with an answer of success. -/
def Succeeds (p : Handler Response) : Prop :=
  ∀ seen, p.Paths (fun _ _ => True) (fun _ response => response.Success) seen

/-- Harmless sections are followed by harmless sections up to any answer but
success. -/
def Careful (cfg : Config) (p : Handler Response) : Prop :=
  ∀ seen, (∀ q ∈ seen, Harmless cfg q) → p.Paths (fun _ _ => True)
    (fun seen response => ¬ response.Success → ∀ q ∈ seen, Harmless cfg q) seen

section

variable {app : App} {cfg : Config} {α : Type} {k : α → Handler Response} {w : World}

/-! ## Sections -/

theorem careful_answer (response : Response) : Careful cfg (pure response) :=
  fun _ harmless _ => harmless

/-- A section changes nothing that matters, or what follows succeeds. -/
theorem careful_step {t : Stmt} {u : World → World} {n : World → Handler Response}
    (either : ∀ w, Harmless cfg (t, w) ∧ Careful cfg (n w) ∨ Succeeds (n w)) :
    Careful cfg (.step t u n) := by
  intro seen harmless
  refine ⟨trivial, fun w => ?_⟩
  obtain ⟨here, careful⟩ | succeeds := either w
  · refine careful _ fun q member => ?_
    rw [List.mem_append, List.mem_singleton] at member
    rcases member with old | rfl
    · exact harmless q old
    · exact here
  · exact (succeeds _).mono fun _ _ success refused => absurd success refused

theorem careful_passive {t : Stmt} {u : World → World} {n : World → Handler Response}
    (passive : t.Passive) (careful : ∀ w, Careful cfg (n w)) : Careful cfg (.step t u n) :=
  careful_step fun w => .inl ⟨.inl (t.apply_passive cfg w passive), careful w⟩

theorem careful_look {f : World → α} (careful : ∀ a, Careful cfg (k a)) :
    Careful cfg (Handler.look f >>= k) :=
  careful_passive trivial fun w => careful (f w)

theorem careful_exec {t : Stmt} {f : World → α}
    (either : ∀ w, Harmless cfg (t, w) ∧ Careful cfg (k (f w)) ∨ Succeeds (k (f w))) :
    Careful cfg (Handler.exec cfg t f >>= k) := careful_step either

/-- An access of one of the maps at a time that was read before. -/
theorem careful_timed {t : Nanos → Stmt} {f : Nanos → World → α}
    (passive : ∀ now, (t now).Passive) (careful : ∀ a, Careful cfg (k a)) :
    Careful cfg ((Handler.instantNow >>= fun now => Handler.exec cfg (t now) (f now)) >>= k) :=
  careful_passive trivial fun _ => careful_passive (passive _) fun _ => careful _

/-- A statement that the store refuses changes nothing. -/
theorem execute_error {statement : Db → Written} {e : Sql.Error}
    (refused : (w.execute statement).1 = .error e) : (w.execute statement).2 = w := by
  obtain same | ⟨n, db, -, -, ok, -⟩ := w.execute_cases statement
  · exact same
  · rw [ok] at refused
    cases refused

/-- A registration that changes no row changes nothing. -/
theorem registerName_zero {name pubkey : String}
    (ok : (w.execute (·.registerName name pubkey w.unixNow)).1 = .ok 0) :
    (w.execute (·.registerName name pubkey w.unixNow)).2 = w := by
  obtain ⟨db, -, done, same⟩ := World.execute_ok ok
  unfold Db.registerName at done
  split at done
  · obtain ⟨names, -, none_, -⟩ := Db.written_ok.1 done
    cases none_
  · split at done
    · cases done
      exact same
    · obtain ⟨names, -, none_, -⟩ := Db.written_ok.1 done
      cases none_

/-- A statement that is refused, or followed by success. -/
theorem careful_execute {t : Stmt} {statement : World → Db → Written}
    {k : Except Sql.Error Nat → Handler Response}
    (apply : ∀ w, t.apply cfg w = (w.execute (statement w)).2)
    (refused : ∀ e, Careful cfg (k (.error e)))
    (done : ∀ w n, (w.execute (statement w)).1 = .ok n →
      Harmless cfg (t, w) ∧ Careful cfg (k (.ok n)) ∨ Succeeds (k (.ok n))) :
    Careful cfg (Handler.exec cfg t (fun w => (w.execute (statement w)).1) >>= k) := by
  refine careful_exec fun w => ?_
  cases answer : (w.execute (statement w)).1 with
  | ok n => exact done w n answer
  | error e =>
    refine .inl ⟨.inl ?_, refused e⟩
    rw [apply, execute_error answer]

theorem succeeds_answer {response : Response}
    (status : response.status = 200 ∨ response.status = 201) : Succeeds (pure response) := by
  intro _
  change 200 ≤ response.status ∧ response.status < 300
  omega

theorem succeeds_step {t : Stmt} {u : World → World} {n : World → Handler Response}
    (succeeds : ∀ w, Succeeds (n w)) : Succeeds (.step t u n) :=
  fun _ => ⟨trivial, fun w => succeeds w _⟩

/-! ## Handlers -/

theorem careful_limited {headers : Headers} {next : Handler Response}
    (careful : Careful app.cfg next) : Careful app.cfg (limited app headers next) := by
  refine careful_timed (fun _ => trivial) fun allowed => ?_
  split
  · exact careful_answer _
  · exact careful

theorem careful_authorized {bucket : String} {headers : Headers} {method : Method}
    {urlPath : String} {body : Bytes} {next : String → Handler Response}
    (careful : ∀ key, Careful app.cfg (next key)) :
    Careful app.cfg (authorized app bucket headers method urlPath body next) := by
  refine careful_timed (fun _ => trivial) fun allowed => ?_
  split
  · exact careful_answer _
  refine careful_look fun now => ?_
  split
  · exact careful_answer _
  rename_i key id verified
  refine careful_timed (fun _ => trivial) fun fresh => ?_
  split
  · exact careful_answer _
  · exact careful key

theorem availability_careful (headers : Headers) (name : String) :
    Careful app.cfg (availability app headers name) := by
  refine careful_limited ?_
  simp only
  split
  · exact careful_answer _
  split
  · exact careful_answer _
  refine careful_look fun owner => ?_
  split <;> exact careful_answer _

theorem profile_careful (headers : Headers) (name : String) :
    Careful app.cfg (profile app headers name) := by
  refine careful_limited ?_
  simp only
  split
  · exact careful_answer _
  refine careful_look fun owner => ?_
  split <;> exact careful_answer _

theorem byPubkey_careful (headers : Headers) (pubkey : String) :
    Careful app.cfg (byPubkey app headers pubkey) := by
  refine careful_limited ?_
  simp only
  split
  · exact careful_answer _
  refine careful_look fun name => ?_
  split <;> exact careful_answer _

theorem wellKnown_careful (headers : Headers) (name : Option String) :
    Careful app.cfg (wellKnown app headers name) := by
  refine careful_timed (fun _ => trivial) fun allowed => ?_
  split
  · exact careful_answer _
  unfold wellKnownEntry
  split
  · exact careful_answer _
  simp only
  split
  · exact careful_answer _
  · exact careful_passive trivial fun w => careful_answer _

theorem register_careful (headers : Headers) (body : Bytes) :
    Careful app.cfg (register app headers body) := by
  refine careful_authorized fun key => ?_
  refine careful_timed (fun _ => trivial) fun cooling => ?_
  split
  · exact careful_answer _
  split
  · exact careful_answer _
  rename_i name pubkey _
  refine careful_look fun owner => ?_
  split
  · split <;> exact careful_answer _
  refine careful_look fun existing => ?_
  split
  · exact careful_answer _
  refine careful_execute (fun _ => rfl) (fun e => careful_answer _) fun w n done => ?_
  cases n with
  | zero => exact .inl ⟨.inl (congrArg World.db (registerName_zero done)), careful_answer _⟩
  | succ n => exact .inr (succeeds_answer (.inr rfl))

theorem unregister_careful (headers : Headers) (name : String) :
    Careful app.cfg (unregister app headers name) := by
  refine careful_authorized fun key => ?_
  refine careful_look fun owner => ?_
  split
  · split
    · refine careful_execute (fun _ => rfl) (fun e => careful_answer _) fun w n _ => .inr ?_
      exact succeeds_step fun _ => succeeds_answer (.inl rfl)
    · exact careful_answer _
  · exact careful_answer _

theorem lodgeOffer_careful (headers : Headers) (body : Bytes) :
    Careful app.cfg (lodgeOffer app headers body) := by
  refine careful_authorized fun key => ?_
  split
  · exact careful_answer _
  split
  · exact careful_answer _
  split
  · exact careful_answer _
  refine careful_look fun now => ?_
  split
  · exact careful_answer _
  refine careful_look fun owner => ?_
  split
  · exact careful_answer _
  refine careful_look fun sameName => ?_
  split
  · exact careful_answer _
  refine careful_look fun sameAddress => ?_
  split
  · exact careful_answer _
  refine careful_execute (fun _ => rfl) (fun e => ?_) fun w n _ => .inr (succeeds_answer (.inr rfl))
  exact careful_answer _

/-- The settling of an expiry is the one write that a refusal may follow. -/
theorem careful_settle {offer : OfferRow} {now : Int} {k : OfferRow → Handler Response}
    (careful : ∀ o, Careful cfg (k o)) : Careful cfg (settleExpiry cfg offer now >>= k) := by
  unfold settleExpiry
  split
  · exact careful offer
  · refine careful_passive trivial fun w₁ => ?_
    refine careful_step fun w₂ => .inl ⟨.inr ⟨_, _, _, rfl⟩, ?_⟩
    exact careful_passive trivial fun w₃ => careful _

theorem readOffer_careful (headers : Headers) (offerId : String) :
    Careful app.cfg (readOffer app headers offerId) := by
  refine careful_limited ?_
  refine careful_look fun found => ?_
  split
  · exact careful_answer _
  refine careful_look fun now => ?_
  exact careful_settle fun o => careful_answer _

theorem revokeOffer_careful (headers : Headers) (offerId : String) :
    Careful app.cfg (revokeOffer app headers offerId) := by
  refine careful_authorized fun key => ?_
  refine careful_look fun found => ?_
  split
  · exact careful_answer _
  split
  · exact careful_answer _
  split
  · exact careful_answer _
  split
  · exact careful_answer _
  refine careful_look fun now => ?_
  split
  · refine careful_look fun tip => ?_
    exact careful_step fun w => .inr (succeeds_answer (.inl rfl))
  · exact careful_step fun w => .inr (succeeds_answer (.inl rfl))

theorem claim_careful (headers : Headers) (body : Bytes) :
    Careful app.cfg (claim app headers body) := by
  refine careful_authorized fun key => ?_
  split
  · exact careful_answer _
  rename_i offerId proof _
  refine careful_look fun found => ?_
  split
  · exact careful_answer _
  refine careful_look fun now => ?_
  refine careful_settle fun offer => ?_
  split
  · refine careful_look fun transfer => ?_
    split
    · split <;> exact careful_answer _
    · exact careful_answer _
  unfold claimOpen
  split
  · exact careful_answer _
  split
  · exact careful_answer _
  refine careful_look fun owner => ?_
  split
  · exact careful_answer _
  split
  · exact careful_answer _
  refine careful_look fun kernel => ?_
  split
  · exact careful_answer _
  split
  · exact careful_answer _
  simp only
  split
  · exact careful_answer _
  refine careful_look fun used => ?_
  split
  · exact careful_answer _
  refine careful_look fun existing => ?_
  split
  · exact careful_answer _
  refine careful_exec fun w => ?_
  obtain ⟨db, -, same⟩ | ⟨e, -, same⟩ := w.claimTxn_cases offer proof.excessHex _ now
  · rw [same]
    exact .inr (succeeds_step fun _ => succeeds_answer (.inr rfl))
  · rw [same]
    refine .inl ⟨.inl ?_, ?_⟩
    · rw [Stmt.apply, same]
    · cases e <;> exact careful_answer _

theorem handlers_careful (r : Request) : Careful app.cfg (routes app r) := by
  have mount : ∀ {handler : Handler Response}, Careful app.cfg handler →
      Careful app.cfg (mounted app handler) := by
    intro handler careful
    unfold mounted
    split
    · exact careful
    · exact careful_answer _
  cases r with
  | availability headers name => exact availability_careful headers name
  | register headers body => exact register_careful headers body
  | unregister headers name => exact unregister_careful headers name
  | profile headers name => exact profile_careful headers name
  | byPubkey headers pubkey => exact byPubkey_careful headers pubkey
  | wellKnown headers name => exact wellKnown_careful headers name
  | lodgeOffer headers body => exact mount (lodgeOffer_careful headers body)
  | readOffer headers offerId => exact mount (readOffer_careful headers offerId)
  | revokeOffer headers offerId => exact mount (revokeOffer_careful headers offerId)
  | claim headers body => exact mount (claim_careful headers body)

/-! ## Runs -/

variable {c : Conf World Stmt Request Response} {steps : List Step} {s : Step}

theorem leaves_same (same : s.after.hist.now.db = s.before.hist.now.db) : LeavesStore s where
  names := by rw [same]
  transfers := by rw [same]
  offers := by
    rw [same]
    exact List.forall₂_same.2 fun o _ => .inl rfl

/-- The settling of an expiry moves only offers that are past their
expiration. -/
theorem leaves_settled (reach : Reachable (authority app) s.before) {i : Nat} {r : Request}
    {offerId : String} {endHeight : Option Int} {at_ : Int}
    (due : s.before.due i = some (r, .markOfferDead offerId .expired endHeight at_))
    (hist : s.after.hist = s.before.hist.push
      ((Stmt.markOfferDead offerId .expired endHeight at_).apply app.cfg s.before.hist.now)) :
    LeavesStore s := by
  obtain ⟨clock, -, h₀, readId, offer, since, found, same, grounds⟩ := (because_due reach due).death
  obtain ⟨-, past⟩ | ⟨revoked, -⟩ := grounds
  · have after : s.after.hist.now = (s.before.hist.now.execute
        (·.markOfferDead offerId .expired endHeight at_)).2 := by
      rw [hist]
      rfl
    obtain refused | ⟨n, db, -, ok, -, done⟩ := s.before.hist.now.execute_cases
      (·.markOfferDead offerId .expired endHeight at_)
    · exact leaves_same (by rw [after, refused])
    · obtain ⟨names, transfers, rows⟩ := Db.markOfferDead_ok ok
      rw [done] at after
      refine ⟨by rw [after]; exact names, by rw [after]; exact transfers, ?_⟩
      rw [after, rows, List.forall₂_map_right_iff, List.forall₂_same]
      intro o member
      by_cases hit : o.offerId = offerId ∧ o.status = .live
      · rw [Sql.rewrite_hit (by simp [hit])]
        obtain ⟨-, becomes⟩ := becomes_of_read found since member (same.trans hit.1.symm)
        refine .inr ⟨hit.2, ?_, endHeight, at_, rfl⟩
        rw [becomes.expiration]
        exact Int.lt_of_lt_of_le past clock.past
      · exact .inl (Sql.rewrite_miss (by simpa using hit))
  · cases revoked

/-- **Refused requests change nothing.** -/
theorem refused_changes_nothing (fresh : w.Fresh) (run : Run (authority app) (.start w) steps c)
    {i : Nat} {r : Request} {response : Response} (done : c.procs[i]? = some (r, .ret response))
    (refused : ¬ response.Success) : ∀ s ∈ steps, s.event = .run i → LeavesStore s := by
  have path : (Prog.ret response : Handler Response).Paths (fun _ _ => True)
      (fun seen response => ¬ response.Success → ∀ q ∈ seen, Harmless app.cfg q) (own i steps) :=
    run.paths_start (fun r => handlers_careful r [] fun q member => by cases member) done
  have harmless := path refused
  intro s member event
  obtain ⟨reach, next, -⟩ := run.mem (rely app) (handled (Later.views app.cfg)) (.start fresh)
    (fun s _ => meets_true _ _) s member
  obtain hist | ⟨j, r', t, event', due, hist⟩ | ⟨v, s', event', -⟩ := step_cases reach next
  · exact leaves_same (by rw [hist])
  · cases event.symm.trans event'
    obtain same | ⟨offerId, endHeight, at_, rfl⟩ :=
      harmless (t, s.before.hist.now) (mem_own.2 ⟨s, member, event, ⟨r', due⟩, rfl⟩)
    · exact leaves_same (by rw [hist]; exact same)
    · exact leaves_settled reach due hist
  · cases event.symm.trans event'

end

namespace Scripted

/-- A claim settles an offer past its expiration, and is refused: the node does
not know the kernel. -/
def refusedUnpaid : List (Concurrent.Event Request Around) :=
  .arrive registerAda :: sections 0 10 ++ .arrive lodgeOne :: sections 1 10 ++
    .env (.advance outOfGrace) ::
    .env (.chain ⟨fun _ => .error "not found", .ok 1000⟩) :: .arrive lateClaimOne :: sections 2 12

theorem refused_unpaid : ∃ steps c response, Run (authority app) (.start world) steps c ∧
    steps.map Transition.event = refusedUnpaid ∧
    c.procs[2]? = some (lateClaimOne, .ret response) ∧ response.status = 409 ∧
    ∀ s ∈ steps, s.event = .run 2 → LeavesStore s := by
  have replayed : ((authority app).replayMeeting (fun _ _ _ => True) (.start world)
      refusedUnpaid).any (fun c => c.procs[2]?.any fun q =>
        q.1 == lateClaimOne && q.2.answer?.any (·.status == 409)) = true := by
    decide +kernel
  obtain ⟨c, run, found⟩ := (Option.any_eq_true _ _).1 replayed
  obtain ⟨response, there, status⟩ := answered_of_any found
  rw [beq_iff_eq] at status
  obtain ⟨steps, run, events, -⟩ := Run.replayMeeting run
  refine ⟨steps, c, response, run, events, there, status, ?_⟩
  exact refused_changes_nothing world_fresh run there (by unfold Response.Success; omega)

end Scripted

end Nip05d
