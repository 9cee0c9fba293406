import Nip05d.Budgets
import Nip05d.Reads
import Nip05d.Refusals
import Nip05d.Unmounted

/-!
# Which requests change what

Names are given and taken by registrations, releases and claims only, sales are
recorded by claims only, and the registry does not touch offers. A public read
changes nothing but offers that are overdue, whatever it answers. This holds of
every step of a run of interleaving requests.
-/

namespace Nip05d

open Concurrent Handlers

/-- What a step of a request leaves alone. -/
structure Keeps (r : Request) (s : Step) : Prop where
  names : ¬ r.Moving → s.after.hist.now.db.names = s.before.hist.now.db.names
  transfers : (∀ headers body, r ≠ .claim headers body) →
    s.after.hist.now.db.transfers = s.before.hist.now.db.transfers
  offers : ¬ r.Trading → s.after.hist.now.db.offers = s.before.hist.now.db.offers
  reads : r.gate.1 = "read" → LeavesStore s

section

variable {app : App} {w : World} {c : Conf World Stmt Request Response} {steps : List Step}
  {s : Step} {r : Request} {t : Stmt}

theorem registry_sections (r : Request) :
    ((authority app).handler r).Only fun t => ¬ r.Trading → Registering t := by
  by_cases trades : r.Trading
  · exact Prog.only_any _ fun _ outside => absurd trades outside
  · exact (registry_only trades).mono fun _ registering _ => registering

/-- Only a claim's transaction records a sale. -/
theorem apply_transfers (cfg : Config)
    (other : ∀ offer excessHex kernelHeight now, t ≠ .claimTxn offer excessHex kernelHeight now) :
    (t.apply cfg w).db.transfers = w.db.transfers := by
  have execute : ∀ statement : Db → Written,
      (∀ n db, statement w.db = .ok (n, db) → db.transfers = w.db.transfers) →
      (w.execute statement).2.db.transfers = w.db.transfers := by
    intro statement kept
    obtain same | ⟨n, db, -, ok, -, same⟩ := w.execute_cases statement
    · rw [same]
    · rw [same]
      exact kept n db ok
  cases t with
  | look | allow | authEventFresh | cooldownActive | recordOp => rfl
  | registerName name pubkey =>
    refine execute _ fun n db ok => ?_
    obtain rfl | ⟨-, transfers, -⟩ := Db.registerName_ok ok
    · rfl
    · exact transfers
  | releaseName => exact execute _ fun n db ok => (Db.releaseName_ok ok).2.1
  | insertOffer => exact execute _ fun n db ok => (Db.insertOffer_ok ok).2.1
  | markOfferDead => exact execute _ fun n db ok => (Db.markOfferDead_ok ok).2.1
  | revokeExpired => exact execute _ fun n db ok => (Db.revokeExpired_ok ok).2.1
  | claimTxn offer excessHex kernelHeight now => exact absurd rfl (other offer excessHex kernelHeight now)

/-- A section of an offer leaves the names. -/
theorem apply_names (cfg : Config) {statement : Db → Written}
    (kept : ∀ n db, statement w.db = .ok (n, db) → db.names = w.db.names)
    (here : t.apply cfg w = (w.execute statement).2) : (t.apply cfg w).db.names = w.db.names := by
  obtain same | ⟨n, db, -, ok, -, same⟩ := w.execute_cases statement
  · rw [here, same]
  · rw [here, same]
    exact kept n db ok

/-- **Requests keep to their part.** -/
theorem duties_separated (fresh : w.Fresh) (run : Run (authority app) (.start w) steps c)
    (member : s ∈ steps) {i : Nat} (event : s.event = .run i)
    (due : s.before.due i = some (r, t)) : Keeps r s := by
  obtain ⟨reach, next, -⟩ := run.mem (rely app) (handled (Later.views app.cfg)) (.start fresh)
    (fun s _ => meets_true _ _) s member
  rw [event] at next
  have hist := step_due reach next due
  have after : s.after.hist.now = t.apply app.cfg s.before.hist.now := by
    rw [hist]
    rfl
  have quiet : (t.apply app.cfg s.before.hist.now).db = s.before.hist.now.db → Keeps r s := by
    intro same
    have db : s.after.hist.now.db = s.before.hist.now.db := by rw [after, same]
    exact ⟨fun _ => by rw [db], fun _ => by rw [db], fun _ => by rw [db], fun _ => leaves_same db⟩
  have registering : ¬ r.Trading → Registering t := by
    obtain ⟨before, later, rfl⟩ := List.append_of_mem member
    obtain ⟨d, first, rest⟩ := run.of_append
    obtain ⟨rfl, -, -⟩ := rest.of_cons
    exact first.only registry_sections due
  have outside : Registering t → s.after.hist.now.db.offers = s.before.hist.now.db.offers := by
    intro registering
    rw [after]
    exact (t.apply_untraded app.cfg registering).offers
  have names : ∀ statement : Db → Written,
      (∀ n db, statement s.before.hist.now.db = .ok (n, db) → db.names = s.before.hist.now.db.names) →
      t.apply app.cfg s.before.hist.now = (s.before.hist.now.execute statement).2 →
      s.after.hist.now.db.names = s.before.hist.now.db.names := by
    intro statement kept here
    rw [after]
    exact apply_names app.cfg kept here
  have transfers : (∀ offer excessHex kernelHeight now, t ≠ .claimTxn offer excessHex kernelHeight now) →
      s.after.hist.now.db.transfers = s.before.hist.now.db.transfers := by
    intro other
    rw [after]
    exact apply_transfers app.cfg other
  have because := because_due reach due
  cases because with
  | look | allow | cooldownActive | recordOp | authEventFresh =>
    exact quiet (Stmt.apply_passive app.cfg _ trivial)
  | register | release =>
    refine ⟨fun still => absurd trivial still, fun _ => transfers (by simp), fun _ => outside not_false, ?_⟩
    intro read
    exact absurd read (by simp [Request.gate])
  | lodge =>
    refine ⟨fun _ => names _ (fun n db ok => (Db.insertOffer_ok ok).1) rfl, fun _ => transfers (by simp),
      fun plain => absurd trivial plain, ?_⟩
    intro read
    exact absurd read (by simp [Request.gate])
  | expire =>
    refine ⟨fun _ => names _ (fun n db ok => (Db.markOfferDead_ok ok).1) rfl,
      fun _ => transfers (by simp), fun plain => absurd trivial (registering plain), ?_⟩
    intro _
    exact leaves_settled reach due hist
  | revoke =>
    refine ⟨fun _ => names _ (fun n db ok => (Db.markOfferDead_ok ok).1) rfl,
      fun _ => transfers (by simp), fun plain => absurd trivial plain, ?_⟩
    intro read
    exact absurd read (by simp [Request.gate])
  | revokeExpired =>
    refine ⟨fun _ => names _ (fun n db ok => (Db.revokeExpired_ok ok).1) rfl,
      fun _ => transfers (by simp), fun plain => absurd trivial plain, ?_⟩
    intro read
    exact absurd read (by simp [Request.gate])
  | claim =>
    refine ⟨fun still => absurd trivial still, ?_, fun plain => absurd trivial plain, ?_⟩
    · intro other
      exact absurd rfl (other _ _)
    · intro read
      exact absurd read (by simp [Request.gate])

end

namespace Scripted

/-- The reader of an offer that is sold meanwhile sells nothing himself. -/
theorem reader_keeps : ∃ steps c, Run (authority app) (.start world) steps c ∧
    steps.map Transition.event = readWhileSold ∧
    ∀ s ∈ steps, s.event = .run 2 → ∃ r t, s.before.due 2 = some (r, t) ∧ Keeps r s := by
  have replayed : ((authority app).replayMeeting (fun _ _ _ => True) (.start world)
      readWhileSold).isSome = true := by
    decide +kernel
  obtain ⟨c, run⟩ := Option.isSome_iff_exists.1 replayed
  obtain ⟨steps, run, events, -⟩ := Run.replayMeeting run
  refine ⟨steps, c, run, events, fun s member event => ?_⟩
  obtain ⟨reached, next, -⟩ := run.mem (rely app) (handled (Later.views app.cfg))
    (.start world_fresh) (fun s _ => meets_true _ _) s member
  obtain ⟨r, t, due, -, -⟩ := section_of_step reached next event
  exact ⟨r, t, due, duties_separated world_fresh run member event due⟩

end Scripted

end Nip05d
