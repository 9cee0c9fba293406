import Nip05d.Lodged
import Nip05d.Scripted

/-!
# Claims on offers that died

A claim decides on its snapshot of the offer whether the death gate applies;
the transaction does not look at the status again. So a claim that has seen the
offer live commits after the offer died, whatever was recorded. When every
claim that commits on a dead offer has seen it dead, and the chain reports
heights that fit the store, only payments within the death window move a name.
-/

namespace Nip05d

open Auth Concurrent Handlers Text

/-- A claim on an offer that is dead by now has seen it dead, and the height it
was given fits an `i64`. -/
def claimsSeen (_ : Request) (t : Stmt) (w : World) : Bool :=
  match t with
  | .claimTxn offer _ kernelHeight _ =>
    (w.db.getOffer offer.offerId).all fun row =>
      !decide row.Dead || (decide offer.Dead && kernelHeight.all (0 ≤ ·))
  | _ => true

/-- Deaths are recorded with a time, which is not in the future. -/
structure World.Dated (w : World) : Prop where
  recorded : ∀ o ∈ w.db.offers.rows, o.Dead → ∃ d, o.stateChangedAt = some d
  past : ∀ o ∈ w.db.offers.rows, ∀ d, o.stateChangedAt = some d → 0 ≤ d ∧ d ≤ w.unixNow

/-- A claim that commits at `now` on a dead offer is within its death window:
the node reported the kernel at or below the recorded height, and the grace
period since the recorded time is not over. -/
structure InWindow (app : App) (row : OfferRow) (excessHex : String) (now : Int)
    (h : Hist World) : Prop where
  height : ∃ endHeight, row.endHeight = some endHeight ∧
    ∃ h₀ k n, Later h₀ h ∧ h₀.now.kernel excessHex = .ok k ∧ k.found = true ∧
      k.height = some n ∧ (n.toNat : Int) ≤ endHeight
  grace : ∃ d, row.stateChangedAt = some d ∧ now ≤ d + app.cfg.transferClaimGrace

section

variable {app : App} {ok : Request → Stmt → World → Prop}
  {c c' : Conf World Stmt Request Response}

theorem ClockRead.range {L : Hist World → Hist World → Prop} {now : Int} {h : Hist World}
    (clock : ClockRead L now h) : 0 ≤ now ∧ InI64 now := by
  obtain ⟨h₀, -, rfl⟩ := clock
  exact h₀.now.unixNow_range

/-- A section dates the deaths that it records. -/
theorem dated_section {h : Hist World} {r : Request} {t : Stmt}
    (dated : ∀ w ∈ h.states, w.Dated) (because : Because app Later Later r t h) :
    (t.apply app.cfg h.now).Dated := by
  constructor
  · intro o' member dead
    obtain ⟨o, old, step⟩ | ⟨n, createdAt, -, rfl, -, -⟩ := offers_after member
    · cases step with
      | same => exact (dated h.now h.now_mem).recorded _ old dead
      | @died status endHeight at_ tag live => exact ⟨at_, rfl⟩
      | revoked tag _ =>
        -- the offer was read as expired, so its record was there already
        subst tag
        obtain ⟨h₀, _, offer, since, found, same, expired⟩ := because.revoked
        obtain ⟨-, row, here, becomes⟩ := row_of_read found since
        obtain rfl : row = o := Db.offer_eq here old (becomes.offerId.trans same)
        have member₀ := (Db.getOffer_eq_some.1 (World.query_eq_some.1 found).2).1
        have before := dated h₀.now (Hist.mem_of_suffix since.states h₀.now_mem)
        obtain ⟨d, at_⟩ := before.recorded offer member₀ (.inr expired)
        have settled := becomes.settled (by rw [expired]; decide)
        exact ⟨d, settled.2.2.trans at_⟩
      | consumed => rcases dead with status | status <;> cases status
    · rcases dead with status | status <;> cases status
  · intro o' member d at_
    rw [Stmt.apply_unixNow]
    obtain ⟨o, old, step⟩ | ⟨n, createdAt, -, rfl, -, -⟩ := offers_after member
    · cases step with
      | @died status endHeight changed tag live =>
        subst tag
        cases at_
        obtain ⟨h₀, earlier, rfl⟩ := because.died
        exact ⟨h₀.now.unixNow_range.1, World.unixNow_mono earlier.clock⟩
      | _ => exact (dated h.now h.now_mem).past _ old d at_
    · cases at_

/-- Deaths are dated in every state of a run. -/
theorem deaths_dated (reach : Reach (authority app) ok c) : ∀ w ∈ c.hist.states, w.Dated := by
  refine interleaved reach (fun h => ∀ w ∈ h.states, w.Dated) ?_ ?_ ?_
  · intro w fresh
    rw [Hist.states, List.forall_mem_singleton]
    constructor
    · rw [fresh.db]
      exact List.forall_mem_nil _
    · rw [fresh.db]
      exact List.forall_mem_nil _
  · intro h e s inv moved
    rw [Hist.states_push, List.forall_mem_cons]
    have before := inv h.now h.now_mem
    obtain ⟨db, -, -, later⟩ := Around.move_frame moved
    refine ⟨⟨by rw [db]; exact before.recorded, fun o member d at_ => ?_⟩, inv⟩
    obtain ⟨low, high⟩ := before.past o (db ▸ member) d at_
    exact ⟨low, Int.le_trans high (World.unixNow_mono later)⟩
  · intro d r t _ inv _ because
    rw [Hist.states_push, List.forall_mem_cons]
    exact ⟨dated_section inv because, inv⟩

/-- A dated offer that passes the death gate is within its grace period. -/
theorem within_grace {w : World} {offer row : OfferRow} {now : Int} {gate : Option Int}
    (dated : w.Dated) (member : row ∈ w.db.offers.rows) (dead : row.Dead) (offerDead : offer.Dead)
    (same : row.stateChangedAt = offer.stateChangedAt) (read : 0 ≤ now ∧ InI64 now)
    (passed : deathGate app.cfg offer now = .ok gate) :
    ∃ d, row.stateChangedAt = some d ∧ now ≤ d + app.cfg.transferClaimGrace := by
  obtain ⟨d, at_⟩ := dated.recorded row member dead
  obtain ⟨low, high⟩ := dated.past row member d at_
  have grace := (deathGate_ok passed offerDead).1
  have clock := w.unixNow_range
  have range : InI64 (now - d) := by
    unfold InI64 at *
    omega
  rw [← same, at_, Option.getD_some, wrapI64_of_range range] at grace
  exact ⟨d, at_, by omega⟩

/-- A claim that has seen a death commits within the window. -/
theorem ClaimGrounds.inWindow {start h : Hist World} {r r' : Request} {body : Bytes}
    {offer row : OfferRow} {excessHex : String} {kernelHeight : Option Int} {now : Int}
    (grounds : ClaimGrounds app Later Later start r body offer excessHex kernelHeight now h)
    (dated : h.now.Dated)
    (seen : claimsSeen r' (.claimTxn offer excessHex kernelHeight now) h.now = true)
    (found : h.now.db.getOffer offer.offerId = some row) (dead : row.Dead) :
    InWindow app row excessHex now h := by
  obtain ⟨member, same⟩ := Db.getOffer_eq_some.1 found
  simp only [claimsSeen, found, Option.all_some, dead, decide_true, Bool.not_true, Bool.false_or,
    Bool.and_eq_true, decide_eq_true_eq] at seen
  obtain ⟨offerDead, fits⟩ := seen
  obtain ⟨row', member', becomes⟩ := grounds.row
  obtain rfl : row' = row := Db.offer_eq member' member (becomes.offerId.trans same.symm)
  have settled := becomes.settled (by rcases offerDead with s | s <;> rw [s] <;> decide)
  obtain ⟨endHeight, gate, below⟩ := grounds.gate
  obtain ⟨-, height, recorded, rfl⟩ := deathGate_ok gate offerDead
  obtain ⟨h₀, k, since, reported, found_, -, kernel⟩ := grounds.kernel
  constructor
  · refine ⟨height, settled.2.1.trans recorded, h₀, k, ?_⟩
    cases reportedHeight : k.height with
    | none =>
      rw [reportedHeight, Option.map_none] at kernel
      rw [kernel] at below
      cases below
    | some n =>
      rw [reportedHeight, Option.map_some] at kernel
      subst kernel
      have low : heightAsI64 n ≤ height := by simpa [settledBelow] using below
      rw [Option.all_some, decide_eq_true_eq] at fits
      rw [heightAsI64_of_nonneg fits] at low
      exact ⟨n, since, reported, found_, rfl, low⟩
  · exact within_grace dated member' dead offerDead settled.2.2 grounds.clock.range gate

/-- An offer that died without a recorded height stays dead without one. -/
theorem unrecorded_stays
    (reach : Reach (authority app) (fun r t w => claimsSeen r t w = true) c) :
    ∀ w ∈ c.hist.states, ∀ o ∈ w.db.offers.rows, o.Dead → o.endHeight = none →
      ∃ o' ∈ c.hist.now.db.offers.rows, o'.offerId = o.offerId ∧ o'.Dead ∧ o'.endHeight = none := by
  refine interleaved reach (fun h => ∀ w ∈ h.states, ∀ o ∈ w.db.offers.rows, o.Dead →
    o.endHeight = none → ∃ o' ∈ h.now.db.offers.rows,
      o'.offerId = o.offerId ∧ o'.Dead ∧ o'.endHeight = none) ?_ ?_ ?_
  · intro w fresh
    rw [Hist.states, List.forall_mem_singleton, fresh.db]
    exact List.forall_mem_nil _
  · intro h e s inv moved
    have same := (Around.move_frame moved).1
    rw [Hist.states_push, List.forall_mem_cons, Hist.push_now, same]
    exact ⟨fun o member dead none_ => ⟨o, member, rfl, dead, none_⟩, inv⟩
  · intro d r t reached inv seen because
    rw [Hist.states_push, List.forall_mem_cons]
    refine ⟨fun o member dead none_ => ⟨o, member, rfl, dead, none_⟩, fun w earlier o member dead none_ => ?_⟩
    obtain ⟨o₁, member₁, same, dead₁, none₁⟩ := inv w earlier o member dead none_
    obtain ⟨o₂, member₂, becomes⟩ := (t.apply_evolves app.cfg d.hist.now).offers o₁ member₁
    have settled := becomes.settled (by rcases dead₁ with s | s <;> rw [s] <;> decide)
    refine ⟨o₂, member₂, becomes.offerId.trans same, ?_, settled.2.1.trans none₁⟩
    obtain ⟨o₃, member₃, step⟩ | ⟨n, createdAt, -, rfl, -, fresh⟩ := offers_after member₂
    · obtain rfl : o₃ = o₁ :=
        Db.offer_eq member₃ member₁ (step.becomes.offerId.symm.trans becomes.offerId)
      cases step with
      | same => exact dead₁
      | died _ live => rcases dead₁ with s | s <;> rw [live] at s <;> cases s
      | revoked => exact .inl rfl
      | @consumed offer excessHex kernelHeight now tag same _ =>
        subst tag
        have dated := deaths_dated reached d.hist.now d.hist.now_mem
        have found := Db.getOffer_eq_some.2 ⟨member₃, same.symm⟩
        cases because with
        | claim grounds =>
          obtain ⟨endHeight, recorded, -⟩ := (grounds.inWindow dated seen found dead₁).height
          rw [none₁] at recorded
          cases recorded
    · exact absurd becomes.offerId.symm (fresh o₁ member₁)

/-- **A dead offer is only claimed within its death window**, and one that died
without a recorded height is never consumed, in every run whose claims have
seen the deaths of their offers. -/
theorem late_claims (reach : Reach (authority app) (fun r t w => claimsSeen r t w = true) c) :
    (∀ i r offer excessHex kernelHeight now row,
      c.due i = some (r, .claimTxn offer excessHex kernelHeight now) →
      claimsSeen r (.claimTxn offer excessHex kernelHeight now) c.hist.now = true →
      (c.hist.now.claimTxn offer excessHex kernelHeight now).1 = .ok () →
      c.hist.now.db.getOffer offer.offerId = some row → row.Dead →
      InWindow app row excessHex now c.hist) ∧
    ∀ w ∈ c.hist.states, ∀ o ∈ w.db.offers.rows, o.Dead → o.endHeight = none →
      ∀ o' ∈ c.hist.now.db.offers.rows, o'.offerId = o.offerId → o'.status ≠ .consumed := by
  constructor
  · intro i r offer excessHex kernelHeight now row due seen _ here dead
    have because := because_due reach due
    have dated := deaths_dated reach c.hist.now c.hist.now_mem
    cases because with
    | claim grounds => exact grounds.inWindow dated seen here dead
  · intro w earlier o member dead none_ o' member' same consumed
    obtain ⟨o₁, member₁, id_, dead₁, -⟩ := unrecorded_stays reach w earlier o member dead none_
    obtain rfl : o' = o₁ := Db.offer_eq member' member₁ (same.trans id_.symm)
    rcases dead₁ with s | s <;> rw [consumed] at s <;> cases s

end

namespace Scripted

/-- A claim has seen the offer live and the payment confirmed; then the node
loses its tip, and the seller revokes. -/
def revokedDuringClaim : List (Concurrent.Event Request Around) :=
  .arrive registerAda :: sections 0 10 ++ .arrive lodgeOne :: sections 1 10 ++
    .arrive claimOne :: sections 2 11 ++ .env (.chain { node with tipHeight := .error "timeout" }) ::
    .arrive revokeOne :: sections 3 9

/-- A claim transaction that a request is about to run. -/
structure Commit where
  request : Request
  offer : OfferRow
  excessHex : String
  kernelHeight : Option Int
  now : Int

def committing (c : Conf World Stmt Request Response) (i : Nat) : Option Commit :=
  match c.due i with
  | some (r, .claimTxn offer excessHex kernelHeight now) =>
    some ⟨r, offer, excessHex, kernelHeight, now⟩
  | _ => none

theorem committing_eq_some {c : Conf World Stmt Request Response} {i : Nat} {q : Commit}
    (found : committing c i = some q) :
    c.due i = some (q.request, .claimTxn q.offer q.excessHex q.kernelHeight q.now) := by
  unfold committing at found
  split at found
  · rename_i due
    cases found
    exact due
  · cases found

/-- The claim commits on an offer that died without a recorded height. -/
theorem claimed_outside_window : ∃ c r offer excessHex kernelHeight now row,
    (authority app).replay (.start world) revokedDuringClaim = some c ∧
    c.due 2 = some (r, .claimTxn offer excessHex kernelHeight now) ∧
    (c.hist.now.claimTxn offer excessHex kernelHeight now).1 = .ok () ∧
    c.hist.now.db.getOffer offer.offerId = some row ∧ row.Dead ∧ row.endHeight = none ∧
    ¬ InWindow app row excessHex now c.hist := by
  have replayed : (((authority app).replay (.start world) revokedDuringClaim).any fun c =>
      (committing c 2).any fun q =>
        (c.hist.now.claimTxn q.offer q.excessHex q.kernelHeight q.now).1 == .ok () &&
          (c.hist.now.db.getOffer q.offer.offerId).any fun row =>
            decide row.Dead && row.endHeight == none) = true := by
    decide +kernel
  obtain ⟨c, run, found⟩ := (Option.any_eq_true _ _).1 replayed
  obtain ⟨q, due, found⟩ := (Option.any_eq_true _ _).1 found
  rw [Bool.and_eq_true, Option.any_eq_true, beq_iff_eq] at found
  obtain ⟨commits, row, there, died⟩ := found
  rw [Bool.and_eq_true, decide_eq_true_eq, beq_iff_eq] at died
  refine ⟨c, q.request, q.offer, q.excessHex, q.kernelHeight, q.now, row, run,
    committing_eq_some due, commits, there, died.1, died.2, fun window => ?_⟩
  obtain ⟨endHeight, recorded, -⟩ := window.height
  rw [died.2] at recorded
  cases recorded

/-- A claim that reads the offer after its revocation, and is about to commit. -/
def revokedBeforeClaim : List (Concurrent.Event Request Around) :=
  .arrive registerAda :: sections 0 10 ++ .arrive lodgeOne :: sections 1 10 ++
    .arrive revokeOne :: sections 2 9 ++ .arrive claimOne :: sections 3 11

theorem claimed_in_window : ∃ c r offer excessHex kernelHeight now row,
    (authority app).replayMeeting (fun r t w => claimsSeen r t w = true) (.start world)
      revokedBeforeClaim = some c ∧
    c.due 3 = some (r, .claimTxn offer excessHex kernelHeight now) ∧
    c.hist.now.db.getOffer offer.offerId = some row ∧ row.Dead ∧
    InWindow app row excessHex now c.hist := by
  have replayed : (((authority app).replayMeeting (fun r t w => claimsSeen r t w = true)
      (.start world) revokedBeforeClaim).any fun c =>
      (committing c 3).any fun q =>
        claimsSeen q.request (.claimTxn q.offer q.excessHex q.kernelHeight q.now) c.hist.now &&
          ((c.hist.now.claimTxn q.offer q.excessHex q.kernelHeight q.now).1 == .ok () &&
            (c.hist.now.db.getOffer q.offer.offerId).any fun row => decide row.Dead)) = true := by
    decide +kernel
  obtain ⟨c, run, found⟩ := (Option.any_eq_true _ _).1 replayed
  obtain ⟨q, due, found⟩ := (Option.any_eq_true _ _).1 found
  rw [Bool.and_eq_true, Bool.and_eq_true, Option.any_eq_true, beq_iff_eq] at found
  obtain ⟨seen, commits, row, there, dead⟩ := found
  rw [decide_eq_true_eq] at dead
  have reach := Reach.replayMeeting (.start world_fresh) run
  have due := committing_eq_some due
  exact ⟨c, q.request, q.offer, q.excessHex, q.kernelHeight, q.now, row, run, due, there, dead,
    (late_claims reach).1 3 _ _ _ _ _ row due seen commits there dead⟩

end Scripted

end Nip05d
