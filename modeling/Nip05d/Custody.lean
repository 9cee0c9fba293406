import Nip05d.Churn
import Nip05d.Concurrent.Emits
import Nip05d.Lives
import Nip05d.Registry
import Nip05d.Successes

/-!
# The chain of custody of names

Over the names table stands a register of exclusive holdings: three sections
move a name in it, and every other section leaves it as it is. The moves of a
run lead from the empty register to that of the store, each is made by a
request that may, and a request that is answered has moved what its answer
says: one name for a registration, a release or a sale that succeeds, and
nothing otherwise. One success tells less: a release whose name was freed
between its look at the owner and its UPDATE is answered 200 and moves nothing.
-/

namespace Nip05d

open Auth Concurrent Handlers Proof Registry

/-- The register that the active names are. -/
def Db.registry (db : Db) : Registry String String where
  holder := db.lookup
  single first second := by
    rw [Db.lookup_iff_nameOf] at first second
    rw [first] at second
    exact Option.some.inj second

/-- The name that a section moves. -/
def Stmt.move (t : Stmt) (w : World) : Option (Move String String) :=
  match t with
  | .registerName name pubkey =>
    match (w.execute (·.registerName name pubkey w.unixNow)).1 with
    | .ok (_ + 1) => some ⟨name, none, some pubkey⟩
    | _ => none
  | .releaseName name =>
    if w.fault.isSome then none
    else (w.db.lookup name).map fun holder => ⟨name, some holder, none⟩
  | .claimTxn offer excessHex kernelHeight now =>
    match (w.claimTxn offer excessHex kernelHeight now).1 with
    | .ok () => some ⟨offer.name, some offer.sellerPubkey, some offer.buyerPubkey⟩
    | .error _ => none
  | _ => none

section

variable {cfg : Config} {t : Stmt} {w : World} {m : Move String String}

/-- What a section that moves a name is. -/
inductive MoveOf (w : World) : Stmt → Move String String → Prop where
  | registered {name pubkey} : MoveOf w (.registerName name pubkey) ⟨name, none, some pubkey⟩
  | released {name owner} : w.db.lookup name = some owner →
      MoveOf w (.releaseName name) ⟨name, some owner, none⟩
  | claimed {offer excessHex kernelHeight now} :
      MoveOf w (.claimTxn offer excessHex kernelHeight now)
        ⟨offer.name, some offer.sellerPubkey, some offer.buyerPubkey⟩

theorem move_cases (moves : t.move w = some m) : MoveOf w t m := by
  unfold Stmt.move at moves
  split at moves
  · split at moves
    · cases moves
      exact .registered
    · cases moves
  · split at moves
    · cases moves
    · obtain ⟨owner, owned, rfl⟩ := Option.map_eq_some_iff.1 moves
      exact .released owned
  · split at moves
    · cases moves
      exact .claimed
    · cases moves
  · cases moves

/-- A registration leaves an active name alone. -/
theorem registerName_active {db : Db} {name pubkey p : String} {createdAt : Int}
    (owned : db.lookup name = some p) : db.registerName name pubkey createdAt = .ok (0, db) := by
  obtain ⟨r, member, same, active, -⟩ := Db.lookup_eq_some.1 owned
  unfold Db.registerName
  split
  · rename_i missing
    have other := db.names.select_eq_none.1 missing r member
    simp [same] at other
  · rename_i row there
    obtain ⟨member', hit⟩ := (db.names.select_eq_some _ nameKey Db.name_keyed).1 there
    have here : row = r := db.names.eq_of_key _ nameKey member' member (Db.name_keyed row hit)
      (congrArg some same)
    rw [if_pos (by rw [here, active]; rfl)]

/-- A registration that changes a row finds its name free. -/
theorem registerName_free {db db' : Db} {name pubkey : String} {createdAt : Int} {n : Nat}
    (ok : db.registerName name pubkey createdAt = .ok (n, db')) (changed : n ≠ 0) :
    db.lookup name = none := by
  by_contra some_
  obtain ⟨p, owned⟩ := Option.ne_none_iff_exists'.1 some_
  rw [registerName_active owned] at ok
  cases ok
  exact changed rfl

/-- A section that moves a name is an allowed move of the register. -/
theorem section_moves (cfg : Config) (moves : t.move w = some m) :
    ∃ allowed : m.Allowed w.db.registry,
      (t.apply cfg w).db.registry = w.db.registry.move m allowed := by
  have updated : ∀ {db : Db} {name : String} {target : Option String},
      (∀ n, db.lookup n = if n = name then target else w.db.lookup n) →
      db.registry.holder = Function.update w.db.registry.holder name target := by
    intro db name target after
    funext n
    rw [Function.update_apply]
    exact after n
  unfold Stmt.move at moves
  split at moves
  · rename_i name pubkey
    split at moves
    · rename_i n done
      cases moves
      obtain ⟨db, -, ok, after⟩ := World.execute_ok done
      have free := registerName_free ok (Nat.succ_ne_zero n)
      refine moved free (updated ?_)
      rw [Stmt.apply, after]
      obtain rfl | ⟨-, owners⟩ := Db.lookup_register ok
      · have taken := Db.registerName_takes ok (Nat.succ_ne_zero n)
        rw [free] at taken
        cases taken
      · exact owners
    · cases moves
  · rename_i name
    split at moves
    · cases moves
    · rename_i working
      obtain ⟨holder, held, rfl⟩ := Option.map_eq_some_iff.1 moves
      refine moved held (updated ?_)
      obtain ⟨n, db, ok⟩ := w.db.releaseName_works name w.unixNow
      have after : ((Stmt.releaseName name).apply cfg w).db = db := by
        simp [Stmt.apply, World.execute, working, ok]
      rw [after]
      exact Db.lookup_release ok
  · rename_i offer excessHex kernelHeight now
    split at moves
    · rename_i done
      cases moves
      obtain ⟨db, claimed, same⟩ | ⟨e, -, same⟩ :=
        w.claimTxn_cases offer excessHex kernelHeight now
      · refine moved claimed.owned (updated ?_)
        rw [Stmt.apply, same]
        exact claimed.lookup
      · rw [same] at done
        cases done
    · cases moves
  · cases moves

/-- Any other section leaves the register as it is. -/
theorem section_stays (cfg : Config) (stays : t.move w = none) :
    (t.apply cfg w).db.registry = w.db.registry := by
  refine ext_holder ?_
  change (t.apply cfg w).db.lookup = w.db.lookup
  cases owners_after cfg t w with
  | same unchanged => exact unchanged
  | @registered name pubkey tag free after =>
    subst tag
    obtain same | ⟨n, db, -, ok, done, same⟩ :=
      w.execute_cases (·.registerName name pubkey w.unixNow)
    · rw [Stmt.apply, same]
    · cases n with
      | zero => rw [Stmt.apply, registerName_zero done]
      | succ n => simp [Stmt.move, done] at stays
  | @released name tag working after =>
    subst tag
    simp only [Stmt.move, working, Option.isSome_none, Bool.false_eq_true, if_false,
      Option.map_eq_none_iff] at stays
    funext n
    rw [after]
    split
    · rename_i here
      rw [here, stays]
    · rfl
  | @claimed offer excessHex kernelHeight now tag _ claimed =>
    subst tag
    obtain ⟨db, -, same⟩ | ⟨e, -, same⟩ := w.claimTxn_cases offer excessHex kernelHeight now
    · simp [Stmt.move, same] at stays
    · rw [Stmt.apply, same]

end

/-- The move that a step makes. -/
def moveOf (s : Step) : Option (Move String String) :=
  match s.event with
  | .run i => (s.before.due i).bind fun q => q.2.move s.before.hist.now
  | _ => none

/-- The moves of a run, in order. -/
def moves (steps : List Step) : List (Move String String) := steps.filterMap moveOf

theorem moveOf_eq_some {s : Step} {m : Move String String} : moveOf s = some m ↔
    ∃ i r t, s.event = .run i ∧ s.before.due i = some (r, t) ∧ t.move s.before.hist.now = some m := by
  unfold moveOf
  split
  · rename_i i event
    simp [event, Option.bind_eq_some_iff]
  · rename_i other
    refine ⟨(fun none_ => by cases none_), ?_⟩
    rintro ⟨i, _, _, event, -⟩
    exact absurd event (other i)

/-! ## Who moves a name -/

/-- A request may make a move: a registration of a checked name for its own key,
a release by a key that was read as the owner, or a claim by the buyer of an
offer that the seller has signed. -/
inductive Entitled (app : App) (h : Hist World) : Request → Move String String → Prop where
  | registration {headers body name key} :
      Authenticated app Later (.register headers body) key h →
      checkRegistration app key body = .ok (name, key) →
      Entitled app h (.register headers body) ⟨name, none, some key⟩
  | release {headers raw owner key} {h₀ : Hist World} :
      Authenticated app Later (.unregister headers raw) key h →
      Later h₀ h → h₀.now.db.lookup (app.toLowercase raw) = some key →
      Entitled app h (.unregister headers raw) ⟨app.toLowercase raw, some owner, none⟩
  | sale {headers body row event} :
      Authenticated app Later (.claim headers body) row.buyerPubkey h →
      row ∈ h.now.db.offers.rows → Signed app row event →
      Entitled app h (.claim headers body) ⟨row.name, some row.sellerPubkey, some row.buyerPubkey⟩

section

variable {app : App} {c c' : Conf World Stmt Request Response} {steps : List Step}

/-- A section that moves a name is of a request that may. -/
theorem section_entitled (reach : Reachable (authority app) c) {i : Nat} {r : Request} {t : Stmt}
    (due : c.due i = some (r, t)) {m : Move String String} (moves : t.move c.hist.now = some m) :
    Entitled app c.hist r m := by
  have because := because_due reach due
  cases move_cases moves with
  | registered =>
    cases because with
    | register authenticated checked => exact .registration authenticated checked
  | released =>
    cases because with
    | release authenticated since owned =>
      exact .release authenticated since (World.query_eq_some.1 owned).2
  | claimed =>
    cases because with
    | claim grounds =>
      obtain ⟨row, member, becomes⟩ := grounds.row
      obtain ⟨event, signed⟩ := (lodged reach row member).signed
      rw [← becomes.name, ← becomes.sellerPubkey, ← becomes.buyerPubkey]
      exact .sale (becomes.buyerPubkey ▸ grounds.authenticated) member signed

/-- A step makes its move, or leaves the register as it is. -/
theorem step_moves {w : World} (reach : Reachable ((authority app).rooted w) c)
    {e : Concurrent.Event Request Around} (next : (authority app).step c e = some c')
    {before : Registry String String} {log : List (Move String String)}
    (ran : Replayed before log c.hist.now.db.registry) :
    Replayed before (log ++ (moveOf ⟨c, e, c'⟩).toList) c'.hist.now.db.registry := by
  obtain ⟨i, r, t, rfl, due, hist⟩ | ⟨idle, same⟩ := rooted_step reach next
  · have here : moveOf ⟨c, .run i, c'⟩ = t.move c.hist.now := by simp [moveOf, due]
    rw [here, hist, Hist.push_now]
    cases moves : t.move c.hist.now with
    | none =>
      rw [section_stays app.cfg moves, Option.toList_none, List.append_nil]
      exact ran
    | some m =>
      obtain ⟨allowed, after⟩ := section_moves app.cfg moves
      rw [after, Option.toList_some]
      exact ran.snoc allowed
  · have none_ : moveOf ⟨c, e, c'⟩ = none := by
      cases e with
      | run i => exact absurd rfl (idle i)
      | arrive | env => rfl
    rw [none_, same, Option.toList_none, List.append_nil]
    exact ran

/-- The moves of a run lead from register to register. -/
theorem run_moves {w : World} (run : Run (authority app) (.start w) steps c) :
    Replayed w.db.registry (moves steps) c.hist.now.db.registry := by
  induction run with
  | nil => exact .nil
  | @snoc earlier d d' e first next ih =>
    have ran := step_moves (System.rooted_reach first) next ih
    rw [moves, List.filterMap_append]
    cases made : moveOf ⟨d, e, d'⟩ <;> simpa [made, moves] using ran

end

/-! ## What an answer tells -/

/-- The answer of a release. -/
def releasedAnswer (name : String) : Response :=
  respond 200 [("name", .string name), ("released", .bool true)]

/-- The requests that give a name when they succeed. -/
def Request.Giving : Request → Prop
  | .register .. | .claim .. => True
  | _ => False

/-- The requests that may move a name. -/
def Request.Moving : Request → Prop
  | .register .. | .unregister .. | .claim .. => True
  | _ => False

/-- The answers that report a move. -/
def Request.Tells : Request → Response → Prop
  | .register .., response | .claim .., response => response.status = 201
  | .unregister .., response => response.status = 200
  | _, _ => False

/-- What the answer to a request tells about the moves it has made. -/
inductive Told (app : App) : Request → List (Move String String) → Response → Prop where
  | registered {headers body name key} :
      Request.signer app (.register headers body) = some key →
      checkRegistration app key body = .ok (name, key) →
      Told app (.register headers body) [⟨name, none, some key⟩] (registered app name (.ok 1))
  | released {headers raw owner} :
      Told app (.unregister headers raw) [⟨app.toLowercase raw, some owner, none⟩]
        (releasedAnswer (app.toLowercase raw))
  | sold {headers body name owner buyer} : Request.signer app (.claim headers body) = some buyer →
      Told app (.claim headers body) [⟨name, some owner, some buyer⟩]
        (claimSuccess 201 name app.cfg.domain buyer)
  /-- The name was freed by somebody else before the UPDATE of the release. -/
  | freed {headers raw} :
      Told app (.unregister headers raw) [] (releasedAnswer (app.toLowercase raw))
  | unmoved {r response} : ¬ r.Tells response → Told app r [] response

section

variable {α β : Type} {k : α → Handler β} {Q : List (Move String String) → β → Prop}

theorem emits_look {f : World → α} (next : ∀ w, (k (f w)).Emits Stmt.move Q) :
    (Handler.look f >>= k).Emits Stmt.move Q := next

theorem emits_exec {cfg : Config} {t : Stmt} {f : World → α}
    (next : ∀ w, (k (f w)).Emits Stmt.move fun es a => Q ((t.move w).toList ++ es) a) :
    (Handler.exec cfg t f >>= k).Emits Stmt.move Q := next

/-- A section that moves no name. -/
theorem emits_quiet {cfg : Config} {t : Stmt} {f : World → α} (quiet : ∀ w, t.move w = none)
    (next : ∀ w, (k (f w)).Emits Stmt.move Q) : (Handler.exec cfg t f >>= k).Emits Stmt.move Q := by
  refine emits_exec fun w => ?_
  rw [quiet]
  exact next w

/-- A limited or timed section moves no name. -/
theorem emits_timed {cfg : Config} {t : Nanos → Stmt} {f : Nanos → World → α}
    (quiet : ∀ now w, (t now).move w = none) (next : ∀ a, (k a).Emits Stmt.move Q) :
    ((Handler.instantNow >>= fun now => Handler.exec cfg (t now) (f now)) >>= k).Emits
      Stmt.move Q := by
  refine Prog.Emits.bind (emits_look fun w => ?_)
  intro w'
  rw [quiet]
  exact next _

variable {app : App} {r : Request} {Q : List (Move String String) → Response → Prop}

theorem emits_authorized {bucket : String} {headers : Headers} {method : Method}
    {urlPath : String} {body : Bytes} {next : String → Handler Response}
    (refused : ∀ code msg, code = 401 ∨ code = 429 → Q [] (err code msg))
    (goes : ∀ key, Auth.signer app headers = some key → (next key).Emits Stmt.move Q) :
    (authorized app bucket headers method urlPath body next).Emits Stmt.move Q := by
  refine emits_timed (fun _ _ => rfl) fun allowed => ?_
  split
  · exact refused _ _ (.inr rfl)
  refine emits_look fun w => ?_
  split
  · rename_i verified
    exact refused _ _ (.inl (verifyNip98_refusal verified))
  rename_i key id verified
  refine emits_timed (fun _ _ => rfl) fun fresh => ?_
  split
  · exact refused _ _ (.inl rfl)
  · exact goes key (verifyNip98_signer verified)

theorem emits_settle {cfg : Config} {offer : OfferRow} {now : Int} {k : OfferRow → Handler Response}
    (next : ∀ o, (k o).Emits Stmt.move Q) : (settleExpiry cfg offer now >>= k).Emits Stmt.move Q := by
  unfold settleExpiry
  split
  · exact next offer
  · exact fun w₁ w₂ w₃ => next _

/-- Only requests that may move a name report a move. -/
theorem Request.Tells.moving {response : Response} (tells : r.Tells response) : r.Moving := by
  cases r with
  | register | unregister | claim => trivial
  | _ => exact tells.elim

/-- A request that gives a name and is not answered 201 has moved nothing. -/
theorem Told.refused {response : Response} (giving : r.Giving) (other : response.status ≠ 201) :
    Told app r [] response := by
  cases r with
  | register | claim => exact .unmoved other
  | _ => exact giving.elim

theorem register_told (headers : Headers) (body : Bytes) :
    (register app headers body).Emits Stmt.move (Told app (.register headers body)) := by
  refine emits_authorized (fun code msg known => .refused trivial ?_) fun key signer => ?_
  · change code ≠ 201
    omega
  refine emits_timed (fun _ _ => rfl) fun cooling => ?_
  split
  · exact .refused trivial (by decide)
  split
  · rename_i response refused
    exact .refused trivial (by have := checkRegistration_error refused; omega)
  rename_i name pubkey checked
  obtain rfl := (checkRegistration_ok checked).1
  refine emits_look fun w => ?_
  split
  · split <;> exact .refused trivial (by simp)
  refine emits_look fun w => ?_
  split
  · exact .refused trivial (by simp)
  refine emits_exec fun w => ?_
  change Told app _ _ (registered app name _)
  cases done : (w.execute (·.registerName name pubkey w.unixNow)).1 with
  | error e =>
    have none_ : Stmt.move (.registerName name pubkey) w = none := by simp [Stmt.move, done]
    rw [none_]
    cases e <;> exact .refused trivial (by simp [registered])
  | ok n =>
    cases n with
    | zero =>
      have none_ : Stmt.move (.registerName name pubkey) w = none := by simp [Stmt.move, done]
      rw [none_]
      exact .refused trivial (by simp [registered])
    | succ n =>
      have some_ : Stmt.move (.registerName name pubkey) w = some ⟨name, none, some pubkey⟩ := by
        simp [Stmt.move, done]
      rw [some_]
      exact .registered signer checked

theorem unregister_told (headers : Headers) (raw : String) :
    (unregister app headers raw).Emits Stmt.move (Told app (.unregister headers raw)) := by
  have unmoved : ∀ response : Response, response.status ≠ 200 →
      Told app (.unregister headers raw) [] response := fun response other => .unmoved other
  refine emits_authorized (fun code msg known => unmoved _ ?_) fun key _ => ?_
  · change code ≠ 200
    omega
  refine emits_look fun w => ?_
  split
  · split
    · refine emits_exec fun w => ?_
      cases fault : w.fault with
      | some stage =>
        have none_ : Stmt.move (.releaseName (app.toLowercase raw)) w = none := by
          simp [Stmt.move, fault]
        have failed : (w.execute (·.releaseName (app.toLowercase raw) w.unixNow)).1 =
            .error .other := by simp [World.execute, fault]
        rw [none_, failed]
        exact unmoved _ (by simp)
      | none =>
        obtain ⟨n, db, ok⟩ := w.db.releaseName_works (app.toLowercase raw) w.unixNow
        have worked : (w.execute (·.releaseName (app.toLowercase raw) w.unixNow)).1 = .ok n := by
          simp [World.execute, fault, ok]
        rw [worked]
        refine emits_quiet (fun _ => rfl) fun w' => ?_
        change Told app _ (_ ++ []) (releasedAnswer _)
        rw [List.append_nil]
        cases owned : w.db.lookup (app.toLowercase raw) with
        | none =>
          have none_ : Stmt.move (.releaseName (app.toLowercase raw)) w = none := by
            simp [Stmt.move, fault, owned]
          rw [none_]
          exact .freed
        | some owner =>
          have some_ : Stmt.move (.releaseName (app.toLowercase raw)) w =
              some ⟨app.toLowercase raw, some owner, none⟩ := by
            simp [Stmt.move, fault, owned]
          rw [some_]
          exact .released
    · exact unmoved _ (by simp)
  · exact unmoved _ (by simp)

theorem claimPaid_told {headers : Headers} {body : Bytes} {offer : OfferRow}
    {proof : ParsedPaymentProof} {deadEndHeight : Option Int} {now : Int}
    (signer : Request.signer app (.claim headers body) = some offer.buyerPubkey) :
    (claimPaid app offer proof deadEndHeight now).Emits Stmt.move
      (Told app (.claim headers body)) := by
  refine emits_look fun w => ?_
  split
  · exact .refused trivial (by simp)
  split
  · exact .refused trivial (by simp)
  dsimp only
  split
  · refine .refused trivial ?_
    unfold deadErr
    split <;> simp
  refine emits_look fun w => ?_
  split
  · exact .refused trivial (by simp)
  refine emits_look fun w => ?_
  split
  · exact .refused trivial (by simp)
  generalize Option.map Text.heightAsI64 _ = kernelHeight
  refine emits_exec fun w => ?_
  cases done : (w.claimTxn offer proof.excessHex kernelHeight now).1 with
  | error e =>
    have none_ : Stmt.move (.claimTxn offer proof.excessHex kernelHeight now) w = none := by
      simp [Stmt.move, done]
    rw [none_]
    cases e <;> exact .refused trivial (by simp)
  | ok =>
    have some_ : Stmt.move (.claimTxn offer proof.excessHex kernelHeight now) w =
        some ⟨offer.name, some offer.sellerPubkey, some offer.buyerPubkey⟩ := by
      simp [Stmt.move, done]
    rw [some_]
    refine emits_quiet (fun _ => rfl) fun w' => ?_
    exact .sold signer

theorem claim_told (headers : Headers) (body : Bytes) :
    (claim app headers body).Emits Stmt.move (Told app (.claim headers body)) := by
  refine emits_authorized (fun code msg known => .refused trivial ?_) fun key signer => ?_
  · change code ≠ 201
    omega
  split
  · rename_i response refused
    exact .refused trivial (by have := claimBody_error refused; omega)
  rename_i offerId proof parsed
  refine emits_look fun w => ?_
  split
  · exact .refused trivial (by simp)
  refine emits_look fun w => ?_
  refine emits_settle fun offer => ?_
  split
  · rw [claimRetry_eq]
    intro w
    have status := retried_status app proof (w.query (·.transferForOffer offerId))
    exact .refused trivial (by omega)
  unfold claimOpen
  split
  · rename_i refused
    have := deathGate_error refused ▸ deadErr_status offer
    exact .refused trivial (by omega)
  split
  · exact .refused trivial (by simp)
  rename_i own
  refine emits_look fun w => ?_
  split
  · exact .refused trivial (by simp)
  split
  · rename_i refused
    exact .refused trivial (by have := checkPayment_error refused; omega)
  · exact claimPaid_told (signer.trans (congrArg some (not_not.1 own)))

theorem handlers_told_moves (r : Request) : ((authority app).handler r).Emits Stmt.move
    fun es response => r.Moving → Told app r es response := by
  cases r with
  | register headers body => exact (register_told headers body).mono fun _ _ told _ => told
  | unregister headers raw => exact (unregister_told headers raw).mono fun _ _ told _ => told
  | claim headers body =>
    change (mounted app (claim app headers body)).Emits Stmt.move _
    unfold mounted
    split
    · exact (claim_told headers body).mono fun _ _ told _ => told
    · have other : (404 : Nat) ≠ 201 := by decide
      exact fun _ => .unmoved other
  | _ => exact Prog.emits_trivial _ fun _ _ moving => moving.elim

end

section

variable {app : App} {w : World} {c : Conf World Stmt Request Response} {steps : List Step}

/-- A step that moves a name is of a request that may. -/
theorem step_entitled (fresh : w.Fresh) (run : Run (authority app) (.start w) steps c) {s : Step}
    (member : s ∈ steps) {m : Move String String} (made : moveOf s = some m) :
    ∃ i r t, s.event = .run i ∧ s.before.due i = some (r, t) ∧
      Entitled app s.before.hist r m := by
  obtain ⟨i, r, t, event, due, moves⟩ := moveOf_eq_some.1 made
  obtain ⟨reach, -, -⟩ := run.mem (rely app) (handled (Later.views app.cfg)) (.start fresh)
    (fun s _ => meets_true _ _) s member
  exact ⟨i, r, t, event, due, section_entitled reach due moves⟩

/-- An answered request has moved what its answer tells. -/
theorem answered_told (fresh : w.Fresh) (run : Run (authority app) (.start w) steps c) {i : Nat}
    {r : Request} {response : Response} (done : c.procs[i]? = some (r, .ret response)) :
    Told app r (emitted Stmt.move i steps) response := by
  by_cases moving : r.Moving
  · exact run.emitted handlers_told_moves done moving
  have none_ : emitted Stmt.move i steps = [] := by
    rw [emitted, List.filterMap_eq_nil_iff]
    rintro ⟨t, w'⟩ ran
    obtain ⟨s, member, event, ⟨r', due⟩, rfl⟩ := mem_own.1 ran
    obtain ⟨reach, -, -⟩ := run.mem (rely app) (handled (Later.views app.cfg)) (.start fresh)
      (fun s _ => meets_true _ _) s member
    obtain rfl := run.same_request member due done
    cases made : t.move s.before.hist.now with
    | none => rfl
    | some m =>
      cases section_entitled reach due made with
      | registration | release | sale => exact absurd trivial moving
  rw [none_]
  exact .unmoved fun tells => moving tells.moving

/-- What a run has done to the register of names. -/
structure Custody (app : App) (steps : List Step) (c : Conf World Stmt Request Response) :
    Prop where
  ran : Replayed .empty (moves steps) c.hist.now.db.registry
  /-- Every move of a name finds it where the one before left it. -/
  chain : ∀ name, Linked none ((moves steps).filter (·.name = name)) (c.hist.now.db.lookup name)
  entitled : ∀ s ∈ steps, ∀ m, moveOf s = some m → ∃ i r t, s.event = .run i ∧
    s.before.due i = some (r, t) ∧ Entitled app s.before.hist r m
  answered : ∀ i r response, c.procs[i]? = some (r, .ret response) →
    Told app r (emitted Stmt.move i steps) response

/-- **Every name has a chain of custody**, each link of it made by a request that
may, and answers tell of the links that their requests have made. -/
theorem names_in_custody (fresh : w.Fresh) (run : Run (authority app) (.start w) steps c) :
    Custody app steps c := by
  have ran := run_moves run
  have start : w.db.registry = .empty := by
    rw [fresh.db]
    rfl
  rw [start] at ran
  exact ⟨ran, fun name => ran.linked name, fun s member m made => step_entitled fresh run member made,
    fun i r response done => answered_told fresh run done⟩

/-- A request that gives a name is answered 201. -/
structure Given (app : App) (c : Conf World Stmt Request Response) (i : Nat) (r : Request)
    (response : Response) : Prop where
  done : c.procs[i]? = some (r, .ret response)
  giving : r.Giving
  status : response.status = 201

theorem Given.tells {i : Nat} {r : Request} {response : Response} (given : Given app c i r response) :
    r.Tells response := by
  obtain ⟨-, giving, status⟩ := given
  cases r with
  | register | claim => exact status
  | _ => exact giving.elim

/-- The move of a registration. -/
theorem Told.register {headers : Headers} {body : Bytes} {m : Move String String}
    {response : Response} (told : Told app (.register headers body) [m] response) :
    ∃ name key, Request.signer app (.register headers body) = some key ∧
      checkRegistration app key body = .ok (name, key) ∧ m = ⟨name, none, some key⟩ := by
  cases told with
  | registered signer checked => exact ⟨_, _, signer, checked, rfl⟩

/-- The step in which a request that is answered 201 has given a name. -/
theorem Given.step {i : Nat} {r : Request} {response : Response} (given : Given app c i r response)
    (fresh : w.Fresh) (run : Run (authority app) (.start w) steps c) :
    ∃ s ∈ steps, ∃ m, s.event = .run i ∧ moveOf s = some m ∧ m.target ≠ none ∧
      Told app r [m] response := by
  have told := answered_told fresh run given.done
  have step : ∀ m ∈ emitted Stmt.move i steps,
      ∃ s ∈ steps, s.event = .run i ∧ moveOf s = some m := by
    intro m member
    obtain ⟨⟨t, w'⟩, ran, made⟩ := List.mem_filterMap.1 member
    obtain ⟨s, there, event, ⟨r', due⟩, rfl⟩ := mem_own.1 ran
    exact ⟨s, there, event, moveOf_eq_some.2 ⟨i, r', t, event, due, made⟩⟩
  generalize emitted Stmt.move i steps = ms at told step
  cases told with
  | registered signer checked =>
    obtain ⟨s, member, event, made⟩ := step _ List.mem_cons_self
    exact ⟨s, member, _, event, made, Option.some_ne_none _, .registered signer checked⟩
  | sold signer =>
    obtain ⟨s, member, event, made⟩ := step _ List.mem_cons_self
    exact ⟨s, member, _, event, made, Option.some_ne_none _, .sold signer⟩
  | released | freed => exact given.giving.elim
  | unmoved other => exact absurd given.tells other

/-- A step of an entitled request that makes a move. -/
def Makes (app : App) (s : Step) (m : Move String String) : Prop :=
  moveOf s = some m ∧ ∃ i r t, s.event = .run i ∧ s.before.due i = some (r, t) ∧
    Entitled app s.before.hist r m

/-- What lies between two moves: who is given a name for the second time has
lost one, and a name that is registered again was freed. -/
structure Parted (app : App) (a : Move String String) (between : List Step)
    (b : Move String String) : Prop where
  freed : b.name = a.name → b.source = none →
    ∃ s ∈ between, ∃ m, Makes app s m ∧ m.name = a.name ∧ m.target = none
  lost : b.target = a.target → b.source = b.target ∨
    ∃ s ∈ between, ∃ m, Makes app s m ∧ m.source = a.target

theorem moves_parted (fresh : w.Fresh) {first between later : List Step} {x y : Step}
    (run : Run (authority app) (.start w) (first ++ x :: (between ++ y :: later)) c)
    {a b : Move String String} (made : moveOf x = some a) (made' : moveOf y = some b)
    (given : a.target ≠ none) : Parted app a between b := by
  have custody := names_in_custody fresh run
  have ran := custody.ran
  rw [moves, List.filterMap_append, List.filterMap_cons_some made, List.filterMap_append,
    List.filterMap_cons_some made'] at ran
  have entitled : ∀ m ∈ between.filterMap moveOf, ∃ s ∈ between, Makes app s m := by
    intro m member
    obtain ⟨s, there, made⟩ := List.mem_filterMap.1 member
    exact ⟨s, there, made, custody.entitled s (by simp [there]) m made⟩
  constructor
  · intro same free
    obtain ⟨m, member, name, -, target⟩ := ran.freed_between same.symm given free
    obtain ⟨s, there, makes⟩ := entitled m member
    exact ⟨s, there, m, makes, name, target⟩
  · intro same
    obtain ⟨key, target⟩ := Option.ne_none_iff_exists'.1 given
    obtain ⟨m, member, source⟩ | kept := ran.lost_between target (same.trans target)
    · obtain ⟨s, there, makes⟩ := entitled m member
      exact .inr ⟨s, there, m, makes, source.trans target.symm⟩
    · exact .inl (kept.trans (same.trans target).symm)

/-- Two members of a list come one after the other. -/
theorem two_of_mem {α : Type} {l : List α} {x y : α} (first : x ∈ l) (second : y ∈ l)
    (apart : x ≠ y) : (∃ before between after, l = before ++ x :: (between ++ y :: after)) ∨
      ∃ before between after, l = before ++ y :: (between ++ x :: after) := by
  obtain ⟨before, after, rfl⟩ := List.append_of_mem first
  rw [List.mem_append, List.mem_cons] at second
  rcases second with earlier | same | later
  · obtain ⟨before, between, rfl⟩ := List.append_of_mem earlier
    exact .inr ⟨before, between, after, by simp⟩
  · exact absurd same.symm apart
  · obtain ⟨between, after, rfl⟩ := List.append_of_mem later
    exact .inl ⟨before, between, after, rfl⟩

/-- **Two gifts are parted.** Of two requests that are answered 201 one has
given its name first, and meanwhile the name was freed, or the key has lost it. -/
theorem gifts_parted (fresh : w.Fresh) (run : Run (authority app) (.start w) steps c) {i j : Nat}
    (apart : i ≠ j) {r r' : Request} {response response' : Response}
    (given : Given app c i r response) (given' : Given app c j r' response') :
    ∃ first x between y later a b, steps = first ++ x :: (between ++ y :: later) ∧
      Parted app a between b ∧
      (x.event = .run i ∧ Told app r [a] response ∧ y.event = .run j ∧ Told app r' [b] response' ∨
        x.event = .run j ∧ Told app r' [a] response' ∧ y.event = .run i ∧
          Told app r [b] response) := by
  obtain ⟨x, member, a, event, made, target, told⟩ := given.step fresh run
  obtain ⟨y, member', b, event', made', target', told'⟩ := given'.step fresh run
  have other : x ≠ y := by
    rintro rfl
    rw [event] at event'
    cases event'
    exact apart rfl
  obtain ⟨first, between, later, rfl⟩ | ⟨first, between, later, rfl⟩ :=
    two_of_mem member member' other
  · exact ⟨first, x, between, y, later, a, b, rfl, moves_parted fresh run made made' target,
      .inl ⟨event, told, event', told'⟩⟩
  · exact ⟨first, y, between, x, later, b, a, rfl, moves_parted fresh run made' made target',
      .inr ⟨event', told', event, told⟩⟩

end

namespace Scripted

/-- Ada is registered by the seller and sold to the buyer, and both are told. -/
theorem sale_run : ∃ steps c response response', Run (authority app) (.start world) steps c ∧
    steps.map Transition.event = sale ∧ Given app c 0 registerAda response ∧
    Given app c 2 claimOne response' := by
  have replayed : ((authority app).replayMeeting (fun _ _ _ => True) (.start world) sale).any
      (fun c => (c.procs[0]?.any fun p => p.1 == registerAda && p.2.answer?.any (·.status == 201)) &&
        c.procs[2]?.any fun p => p.1 == claimOne && p.2.answer?.any (·.status == 201)) = true := by
    decide +kernel
  obtain ⟨c, run, found⟩ := (Option.any_eq_true _ _).1 replayed
  rw [Bool.and_eq_true] at found
  obtain ⟨response, there, status⟩ := answered_of_any found.1
  obtain ⟨response', there', status'⟩ := answered_of_any found.2
  rw [beq_iff_eq] at status status'
  obtain ⟨steps, run, events, -⟩ := Run.replayMeeting run
  exact ⟨steps, c, response, response', run, events, ⟨there, trivial, status⟩,
    ⟨there', trivial, status'⟩⟩

theorem ada_in_custody : ∃ steps c, Run (authority app) (.start world) steps c ∧
    steps.map Transition.event = sale ∧ Custody app steps c := by
  obtain ⟨steps, c, -, -, run, events, -⟩ := sale_run
  exact ⟨steps, c, run, events, names_in_custody world_fresh run⟩

/-- The registrations of ada by its key are alike. -/
theorem ada_alike {a b : Move String String} {response response' : Response}
    (told : Told app registerAda [a] response) (told' : Told app lateRegisterAda [b] response') :
    b.name = a.name ∧ a.source = none ∧ b.source = none ∧ b.target = a.target ∧ b.target ≠ none := by
  obtain ⟨name, key, -, checked, rfl⟩ := told.register
  obtain ⟨name', key', -, checked', rfl⟩ := told'.register
  obtain ⟨req, found, rfl, rfl⟩ := checkRegistration_body checked
  obtain ⟨req', found', rfl, rfl⟩ := checkRegistration_body checked'
  rw [found, Option.some.injEq] at found'
  subst found'
  exact ⟨rfl, rfl, rfl, rfl, Option.some_ne_none _⟩

/-- Ada is registered, released and registered again by the same key. -/
theorem later_parted : ∃ steps c response response',
    Run (authority app) (.start world) steps c ∧
    steps.map Transition.event = registeredLater ∧ Given app c 0 registerAda response ∧
    Given app c 2 lateRegisterAda response' ∧ ∃ first x between y later a b,
      steps = first ++ x :: (between ++ y :: later) ∧ Parted app a between b ∧
      b.name = a.name ∧ b.source = none ∧ b.target = a.target ∧ b.source ≠ b.target ∧
      (x.event = .run 0 ∧ Told app registerAda [a] response ∧
          y.event = .run 2 ∧ Told app lateRegisterAda [b] response' ∨
        x.event = .run 2 ∧ Told app lateRegisterAda [a] response' ∧
          y.event = .run 0 ∧ Told app registerAda [b] response) := by
  have replayed : ((authority app).replayMeeting (fun _ _ _ => True) (.start world)
      registeredLater).any (fun c =>
        (c.procs[0]?.any fun p => p.1 == registerAda && p.2.answer?.any (·.status == 201)) &&
          c.procs[2]?.any fun p => p.1 == lateRegisterAda && p.2.answer?.any (·.status == 201)) =
      true := by
    decide +kernel
  obtain ⟨c, run, found⟩ := (Option.any_eq_true _ _).1 replayed
  rw [Bool.and_eq_true] at found
  obtain ⟨response, there, status⟩ := answered_of_any found.1
  obtain ⟨response', there', status'⟩ := answered_of_any found.2
  rw [beq_iff_eq] at status status'
  obtain ⟨steps, run, events, -⟩ := Run.replayMeeting run
  have given : Given app c 0 registerAda response := ⟨there, trivial, status⟩
  have given' : Given app c 2 lateRegisterAda response' := ⟨there', trivial, status'⟩
  obtain ⟨first, x, between, y, later, a, b, all, parted, told⟩ :=
    gifts_parted world_fresh run (by decide) given given'
  refine ⟨steps, c, response, response', run, events, given, given', first, x, between, y, later, a,
    b, all, parted, ?_⟩
  rcases told with ⟨event, told, event', told'⟩ | ⟨event, told, event', told'⟩
  · obtain ⟨name, -, source, target, some_⟩ := ada_alike told told'
    exact ⟨name, source, target, source ▸ some_.symm, .inl ⟨event, told, event', told'⟩⟩
  · obtain ⟨name, source, -, target, some_⟩ := ada_alike told' told
    exact ⟨name.symm, source, target.symm, source ▸ (target ▸ some_).symm,
      .inr ⟨event, told, event', told'⟩⟩

end Scripted

end Nip05d
