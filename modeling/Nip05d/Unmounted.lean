import Nip05d.Concurrent.Footprint
import Nip05d.Custody

/-!
# The marketplace switched off

Without transfers their routes are not mounted. A run of such an authority,
from whatever an earlier life has left in the tables, answers every request of
the marketplace with 404 at once and keeps offers and sales as they are, and
names come and go by registration and release only.
-/

namespace Nip05d

open Auth Concurrent Handlers

/-- The sections of the marketplace. -/
def Stmt.Trading : Stmt → Prop
  | .insertOffer .. | .markOfferDead .. | .revokeExpired .. | .claimTxn .. => True
  | _ => False

/-- The requests of the marketplace. -/
def Request.Trading : Request → Prop
  | .lodgeOffer .. | .readOffer .. | .revokeOffer .. | .claim .. => True
  | _ => False

/-- The answer where no route is mounted. -/
def unrouted : Response := ⟨404, [], .null⟩

section

variable {app : App} {headers : Headers} {α : Type}

/-! ## What the registry runs -/

section

variable {kind : Stmt → Prop}

theorem only_look {f : World → α} (look : kind .look) : (Handler.look f).Only kind :=
  ⟨look, fun _ => trivial⟩

theorem only_exec {cfg : Config} {t : Stmt} {f : World → α} (allowed : kind t) :
    (Handler.exec cfg t f).Only kind := ⟨allowed, fun _ => trivial⟩

theorem only_timed {cfg : Config} {t : Nanos → Stmt} {f : Nanos → World → α} (look : kind .look)
    (allowed : ∀ now, kind (t now)) :
    (Handler.instantNow >>= fun now => Handler.exec cfg (t now) (f now)).Only kind :=
  (only_look look).bind fun now => only_exec (allowed now)

end

/-- No section of the marketplace. -/
abbrev Registering (t : Stmt) : Prop := ¬ t.Trading

theorem only_authorized {bucket : String} {method : Method} {urlPath : String} {body : Bytes}
    {next : String → Handler Response} (goes : ∀ key, (next key).Only Registering) :
    (authorized app bucket headers method urlPath body next).Only Registering := by
  refine (only_timed id fun _ => id).bind fun allowed => ?_
  split
  · trivial
  refine (only_look id).bind fun now => ?_
  split
  · trivial
  refine (only_timed id fun _ => id).bind fun fresh => ?_
  split
  · trivial
  · exact goes _

theorem only_limited {next : Handler Response} (goes : next.Only Registering) :
    (limited app headers next).Only Registering := by
  refine (only_timed id fun _ => id).bind fun allowed => ?_
  split
  · trivial
  · exact goes

theorem register_only (body : Bytes) : (register app headers body).Only Registering := by
  refine only_authorized fun key => (only_timed id fun _ => id).bind fun cooling => ?_
  split
  · trivial
  split
  · trivial
  refine (only_look id).bind fun owner => ?_
  split
  · split <;> trivial
  refine (only_look id).bind fun existing => ?_
  split
  · trivial
  · exact (only_exec id).bind fun _ => trivial

theorem unregister_only (name : String) : (unregister app headers name).Only Registering := by
  refine only_authorized fun key => (only_look id).bind fun owner => ?_
  split
  · split
    · refine (only_exec id).bind fun done => ?_
      split
      · exact (only_exec id).bind fun _ => trivial
      · trivial
    · trivial
  · trivial

theorem availability_only (name : String) : (availability app headers name).Only Registering := by
  refine only_limited ?_
  dsimp only
  split
  · trivial
  split
  · trivial
  refine (only_look id).bind fun owner => ?_
  split <;> trivial

theorem profile_only (name : String) : (profile app headers name).Only Registering := by
  refine only_limited ?_
  dsimp only
  split
  · trivial
  refine (only_look id).bind fun owner => ?_
  split <;> trivial

theorem byPubkey_only (pubkey : String) : (byPubkey app headers pubkey).Only Registering := by
  refine only_limited ?_
  dsimp only
  split
  · trivial
  refine (only_look id).bind fun name => ?_
  split <;> trivial

theorem wellKnown_only (name : Option String) :
    (wellKnown app headers name).Only Registering := by
  refine (only_timed id fun _ => id).bind fun allowed => ?_
  split
  · trivial
  refine Prog.Only.bind ?_ fun entry => trivial
  cases name with
  | none => trivial
  | some name =>
    dsimp only [wellKnownEntry]
    split
    · trivial
    · exact (only_look id).bind fun owner => trivial

/-- A request outside the marketplace never trades, with or without transfers. -/
theorem registry_only {r : Request} (outside : ¬ r.Trading) :
    ((authority app).handler r).Only Registering := by
  cases r with
  | availability headers name => exact availability_only name
  | register headers body => exact register_only body
  | unregister headers name => exact unregister_only name
  | profile headers name => exact profile_only name
  | byPubkey headers pubkey => exact byPubkey_only pubkey
  | wellKnown headers name => exact wellKnown_only name
  | lodgeOffer | readOffer | revokeOffer | claim => exact absurd trivial outside

/-- With the routes not mounted no request trades. -/
theorem handlers_only (off : app.cfg.allowTransfers = false) (r : Request) :
    ((authority app).handler r).Only Registering := by
  have unmounted : ∀ handler : Handler Response, (mounted app handler).Only Registering := by
    intro handler
    rw [mounted, off]
    trivial
  cases r with
  | lodgeOffer headers body => exact unmounted _
  | readOffer headers offerId => exact unmounted _
  | revokeOffer headers offerId => exact unmounted _
  | claim headers body => exact unmounted _
  | _ => exact registry_only id

/-- With the routes not mounted a request of the marketplace is answered at once. -/
theorem handlers_unrouted (off : app.cfg.allowTransfers = false) (r : Request) :
    ((authority app).handler r).Paths (fun _ _ => True)
      (fun seen response => r.Trading → seen = [] ∧ response = unrouted) [] := by
  have unmounted : ∀ handler : Handler Response, (mounted app handler).Paths (fun _ _ => True)
      (fun seen response => r.Trading → seen = [] ∧ response = unrouted) [] := by
    intro handler
    rw [mounted, off]
    exact fun _ => ⟨rfl, rfl⟩
  cases r with
  | availability | register | unregister | profile | byPubkey | wellKnown =>
    exact Prog.paths_trivial _ fun _ _ => False.elim
  | lodgeOffer headers body => exact unmounted _
  | readOffer headers offerId => exact unmounted _
  | revokeOffer headers offerId => exact unmounted _
  | claim headers body => exact unmounted _

end

/-! ## Runs -/

/-- Both tables of the marketplace are as they were. -/
structure Untraded (w w' : World) : Prop where
  offers : w'.db.offers = w.db.offers
  transfers : w'.db.transfers = w.db.transfers

/-- A section that does not trade leaves the tables of the marketplace alone. -/
theorem Stmt.apply_untraded (cfg : Config) {t : Stmt} {w : World} (registering : Registering t) :
    Untraded w (t.apply cfg w) := by
  have same : Untraded w w := ⟨rfl, rfl⟩
  cases t with
  | look => exact same
  | allow => exact ⟨rfl, rfl⟩
  | authEventFresh => exact ⟨rfl, rfl⟩
  | cooldownActive => exact ⟨rfl, rfl⟩
  | recordOp => exact ⟨rfl, rfl⟩
  | registerName name pubkey =>
    obtain unchanged | ⟨n, db, -, ok, -, after⟩ :=
      w.execute_cases (·.registerName name pubkey w.unixNow)
    · rwa [Stmt.apply, unchanged]
    · rw [Stmt.apply, after]
      obtain rfl | ⟨offers, transfers, -⟩ := Db.registerName_ok ok
      · exact same
      · exact ⟨offers, transfers⟩
  | releaseName name =>
    obtain unchanged | ⟨n, db, -, ok, -, after⟩ := w.execute_cases (·.releaseName name w.unixNow)
    · rwa [Stmt.apply, unchanged]
    · rw [Stmt.apply, after]
      obtain ⟨offers, transfers, -⟩ := Db.releaseName_ok ok
      exact ⟨offers, transfers⟩
  | insertOffer | markOfferDead | revokeExpired | claimTxn => exact absurd trivial registering

section

variable {app : App} {w : World} {c : Conf World Stmt Request Response} {steps : List Step}

theorem untraded (off : app.cfg.allowTransfers = false)
    (run : Run (authority app) (.start w) steps c) : Untraded w c.hist.now := by
  induction run with
  | nil => exact ⟨rfl, rfl⟩
  | @snoc steps d d' e first next ih =>
    obtain ⟨i, r, t, rfl, due, hist⟩ | ⟨-, same⟩ :=
      rooted_step (System.rooted_reach first) next
    · have kept := t.apply_untraded app.cfg (w := d.hist.now)
        (first.only (handlers_only off) due)
      rw [hist, Hist.push_now]
      exact ⟨kept.offers.trans ih.offers, kept.transfers.trans ih.transfers⟩
    · exact ⟨same ▸ ih.offers, same ▸ ih.transfers⟩

/-- **Without transfers the marketplace is inert**: its requests are answered 404
at once, offers and sales stay as they are, and no name changes hands. -/
theorem marketplace_inert (off : app.cfg.allowTransfers = false)
    (run : Run (authority app) (.start w) steps c) :
    Untraded w c.hist.now ∧
    (∀ m ∈ moves steps, m.source = none ∨ m.target = none) ∧
    ∀ (i : Nat) r response, c.procs[i]? = some (r, .ret response) → r.Trading →
      own i steps = [] ∧ response = unrouted := by
  refine ⟨untraded off run, ?_, fun i r response done => run.paths_start (handlers_unrouted off) done⟩
  intro m member
  obtain ⟨s, there, made⟩ := List.mem_filterMap.1 member
  obtain ⟨i, r, t, -, due, moves⟩ := moveOf_eq_some.1 made
  obtain ⟨earlier, later, rfl⟩ := List.append_of_mem there
  obtain ⟨d, first, rest⟩ := run.of_append
  obtain ⟨rfl, -, -⟩ := rest.of_cons
  have registering := first.only (handlers_only off) due
  cases move_cases moves with
  | registered => exact .inl rfl
  | released _ => exact .inr rfl
  | claimed => exact absurd trivial registering

end

namespace Scripted

def plainApp : App := ⟨{ config with allowTransfers := false }, crates script⟩

/-- Ada is registered, and a claim finds no route. -/
theorem plain_inert : ∃ steps c, Run (authority plainApp) (.start world) steps c ∧
    steps.map Transition.event = .arrive registerAda :: sections 0 10 ++ [.arrive claimOne] ∧
    Untraded world c.hist.now ∧ (∀ m ∈ moves steps, m.source = none ∨ m.target = none) ∧
    ∀ response, c.procs[1]? = some (claimOne, .ret response) → response = unrouted := by
  have replayed : ((authority plainApp).replayMeeting (fun _ _ _ => True) (.start world)
      (.arrive registerAda :: sections 0 10 ++ [.arrive claimOne])).isSome = true := by
    decide +kernel
  obtain ⟨c, run⟩ := Option.isSome_iff_exists.1 replayed
  obtain ⟨steps, run, events, -⟩ := Run.replayMeeting run
  obtain ⟨kept, given, unrouted_⟩ := marketplace_inert rfl run
  exact ⟨steps, c, run, events, kept, given, fun response done => (unrouted_ 1 _ _ done trivial).2⟩

end Scripted

end Nip05d
