import Nip05d.Handled

/-!
# What a section does to each table

One inversion lemma for each table: which rows a section can leave behind, and
where they come from. The invariants of the store are proved from these and
from the grounds of the section.
-/

namespace Nip05d

open Concurrent

variable {cfg : Config} {t : Stmt} {w : World}

/-- What becomes of an offer row in a section. -/
inductive OfferStep (cfg : Config) (t : Stmt) (w : World) (o : OfferRow) : OfferRow → Prop where
  | same : OfferStep cfg t w o o
  | died {status endHeight at_} :
      t = .markOfferDead o.offerId status endHeight at_ → o.status = .live →
      OfferStep cfg t w o { o with status := status.status, endHeight, stateChangedAt := some at_ }
  | revoked : t = .revokeExpired o.offerId → w.fault = none →
      OfferStep cfg t w o { o with status := .revoked }
  | consumed {offer excessHex kernelHeight now} :
      t = .claimTxn offer excessHex kernelHeight now → offer.offerId = o.offerId →
      Db.Claimed w.db (t.apply cfg w).db offer excessHex kernelHeight now →
      OfferStep cfg t w o { o with status := .consumed }

theorem OfferStep.becomes {o o' : OfferRow} (step : OfferStep cfg t w o o') : o.Becomes o' := by
  cases step with
  | same => exact .refl o
  | died _ live => exact ⟨rfl, rfl, fun dead => absurd live dead⟩
  | revoked _ _ => exact ⟨rfl, rfl, fun _ => ⟨by simp, rfl, rfl⟩⟩
  | consumed _ _ _ => exact ⟨rfl, rfl, fun _ => ⟨by simp, rfl, rfl⟩⟩

/-- An offer row after a section is an earlier one, one step on, or a fresh one. -/
theorem offers_after {o' : OfferRow} (member : o' ∈ (t.apply cfg w).db.offers.rows) :
    (∃ o ∈ w.db.offers.rows, OfferStep cfg t w o o') ∨
    (∃ n createdAt, t = .insertOffer n createdAt ∧ o' = n.row createdAt ∧ w.fault = none ∧
      ∀ r ∈ w.db.offers.rows, r.offerId ≠ n.offerId) := by
  have untouched : (t.apply cfg w).db.offers = w.db.offers →
      ∃ o ∈ w.db.offers.rows, OfferStep cfg t w o o' :=
    fun same => ⟨o', same ▸ member, .same⟩
  have refused : (t.apply cfg w) = w → ∃ o ∈ w.db.offers.rows, OfferStep cfg t w o o' :=
    fun same => ⟨o', same ▸ member, .same⟩
  cases t with
  | look | allow | authEventFresh | cooldownActive | recordOp => exact .inl (untouched rfl)
  | registerName name pubkey =>
    left
    obtain same | ⟨n, db, -, ok, -, same⟩ := w.execute_cases (·.registerName name pubkey w.unixNow)
    · exact refused same
    · refine untouched ?_
      rw [Stmt.apply, same]
      obtain rfl | ⟨offers, -⟩ := Db.registerName_ok ok
      · rfl
      · exact offers
  | releaseName name =>
    left
    obtain same | ⟨n, db, -, ok, -, same⟩ := w.execute_cases (·.releaseName name w.unixNow)
    · exact refused same
    · refine untouched ?_
      rw [Stmt.apply, same]
      exact (Db.releaseName_ok ok).1
  | insertOffer n createdAt =>
    obtain same | ⟨m, db, working, ok, -, same⟩ := w.execute_cases (·.insertOffer n createdAt)
    · exact .inl (refused same)
    · obtain ⟨-, -, rows, fresh⟩ := Db.insertOffer_ok ok
      rw [Stmt.apply, same, rows, List.mem_cons] at member
      rcases member with rfl | old
      · exact .inr ⟨n, createdAt, rfl, rfl, working, fresh⟩
      · exact .inl ⟨o', old, .same⟩
  | markOfferDead offerId status endHeight at_ =>
    left
    obtain same | ⟨m, db, -, ok, -, same⟩ :=
      w.execute_cases (·.markOfferDead offerId status endHeight at_)
    · exact refused same
    · rw [Stmt.apply, same, (Db.markOfferDead_ok ok).2.2] at member
      obtain ⟨o, old, ⟨hit, rfl⟩ | ⟨-, rfl⟩⟩ := Sql.mem_map_rewrite.1 member
      · simp only [Bool.and_eq_true, beq_iff_eq] at hit
        exact ⟨o, old, .died (by rw [hit.1]) hit.2⟩
      · exact ⟨o', old, .same⟩
  | revokeExpired offerId =>
    left
    obtain same | ⟨m, db, working, ok, -, same⟩ := w.execute_cases (·.revokeExpired offerId)
    · exact refused same
    · rw [Stmt.apply, same, (Db.revokeExpired_ok ok).2.2] at member
      obtain ⟨o, old, ⟨hit, rfl⟩ | ⟨-, rfl⟩⟩ := Sql.mem_map_rewrite.1 member
      · simp only [beq_iff_eq] at hit
        exact ⟨o, old, .revoked (by rw [hit]) working⟩
      · exact ⟨o', old, .same⟩
  | claimTxn offer excessHex kernelHeight now =>
    left
    obtain ⟨db, claimed, same⟩ | ⟨e, -, same⟩ := w.claimTxn_cases offer excessHex kernelHeight now
    · have after : Stmt.apply cfg (.claimTxn offer excessHex kernelHeight now) w = { w with db } := by
        rw [Stmt.apply, same]
      rw [after, claimed.offers] at member
      obtain ⟨o, old, ⟨hit, rfl⟩ | ⟨-, rfl⟩⟩ := Sql.mem_map_rewrite.1 member
      · simp only [beq_iff_eq] at hit
        exact ⟨o, old, .consumed rfl hit.symm (after ▸ claimed)⟩
      · exact ⟨o', old, .same⟩
    · exact refused (by rw [Stmt.apply, same])

/-- A transfers row after a section is an earlier one, or records the claim
that the section committed. -/
theorem transfers_after {row : TransferRow} (member : row ∈ (t.apply cfg w).db.transfers.rows) :
    row ∈ w.db.transfers.rows ∨
    ∃ offer excessHex kernelHeight now, t = .claimTxn offer excessHex kernelHeight now ∧
      Db.Claimed w.db (t.apply cfg w).db offer excessHex kernelHeight now ∧
      row = Db.transferRow offer excessHex kernelHeight now := by
  have untouched : (t.apply cfg w).db.transfers = w.db.transfers → row ∈ w.db.transfers.rows :=
    fun same => same ▸ member
  have execute : ∀ statement : Db → Written, (t.apply cfg w) = (w.execute statement).2 →
      (∀ n db, statement w.db = .ok (n, db) → db.transfers = w.db.transfers) →
      row ∈ w.db.transfers.rows := by
    intro statement here kept
    refine untouched ?_
    obtain same | ⟨n, db, -, ok, -, same⟩ := w.execute_cases statement
    · rw [here, same]
    · rw [here, same]; exact kept n db ok
  cases t with
  | look | allow | authEventFresh | cooldownActive | recordOp => exact .inl (untouched rfl)
  | registerName name pubkey =>
    refine .inl (execute _ rfl fun n db ok => ?_)
    obtain rfl | ⟨-, transfers, -⟩ := Db.registerName_ok ok
    · rfl
    · exact transfers
  | releaseName name => exact .inl (execute _ rfl fun n db ok => (Db.releaseName_ok ok).2.1)
  | insertOffer n at_ => exact .inl (execute _ rfl fun n db ok => (Db.insertOffer_ok ok).2.1)
  | markOfferDead => exact .inl (execute _ rfl fun n db ok => (Db.markOfferDead_ok ok).2.1)
  | revokeExpired => exact .inl (execute _ rfl fun n db ok => (Db.revokeExpired_ok ok).2.1)
  | claimTxn offer excessHex kernelHeight now =>
    obtain ⟨db, claimed, same⟩ | ⟨e, -, same⟩ := w.claimTxn_cases offer excessHex kernelHeight now
    · have after : Stmt.apply cfg (.claimTxn offer excessHex kernelHeight now) w = { w with db } := by
        rw [Stmt.apply, same]
      rw [after, claimed.transfers, List.mem_cons] at member
      rcases member with rfl | old
      · exact .inr ⟨offer, excessHex, kernelHeight, now, rfl, after ▸ claimed, rfl⟩
      · exact .inl old
    · exact .inl (untouched (by rw [Stmt.apply, same]))

/-- What becomes of the owners in a section. -/
inductive OwnerStep (cfg : Config) (t : Stmt) (w : World) : Prop where
  | same : (t.apply cfg w).db.lookup = w.db.lookup → OwnerStep cfg t w
  | registered {name pubkey} : t = .registerName name pubkey → w.db.lookup name = none →
      (∀ m, (t.apply cfg w).db.lookup m = if m = name then some pubkey else w.db.lookup m) →
      OwnerStep cfg t w
  | released {name} : t = .releaseName name → w.fault = none →
      (∀ m, (t.apply cfg w).db.lookup m = if m = name then none else w.db.lookup m) →
      OwnerStep cfg t w
  | claimed {offer excessHex kernelHeight now} :
      t = .claimTxn offer excessHex kernelHeight now → w.fault = none →
      Db.Claimed w.db (t.apply cfg w).db offer excessHex kernelHeight now → OwnerStep cfg t w

theorem lookup_congr {a b : Db} (same : a.names = b.names) : a.lookup = b.lookup := by
  funext name
  rw [Db.lookup, Db.lookup, same]

theorem owners_after (cfg : Config) (t : Stmt) (w : World) : OwnerStep cfg t w := by
  have refused : (t.apply cfg w) = w → OwnerStep cfg t w := fun same => .same (by rw [same])
  have execute : ∀ statement : Db → Written, (t.apply cfg w) = (w.execute statement).2 →
      (∀ n db, statement w.db = .ok (n, db) → db.names = w.db.names) → OwnerStep cfg t w := by
    intro statement here kept
    obtain same | ⟨n, db, -, ok, -, same⟩ := w.execute_cases statement
    · exact refused (here.trans same)
    · refine .same (lookup_congr ?_)
      rw [here, same]
      exact kept n db ok
  cases t with
  | look | allow | authEventFresh | cooldownActive | recordOp => exact .same rfl
  | registerName name pubkey =>
    obtain same | ⟨n, db, -, ok, -, same⟩ := w.execute_cases (·.registerName name pubkey w.unixNow)
    · exact refused same
    · obtain rfl | ⟨free, owners⟩ := Db.lookup_register ok
      · exact refused same
      · exact .registered rfl free (by rw [Stmt.apply, same]; exact owners)
  | releaseName name =>
    obtain same | ⟨n, db, working, ok, -, same⟩ := w.execute_cases (·.releaseName name w.unixNow)
    · exact refused same
    · exact .released rfl working (by rw [Stmt.apply, same]; exact Db.lookup_release ok)
  | insertOffer n at_ => exact execute _ rfl fun n db ok => (Db.insertOffer_ok ok).1
  | markOfferDead => exact execute _ rfl fun n db ok => (Db.markOfferDead_ok ok).1
  | revokeExpired => exact execute _ rfl fun n db ok => (Db.revokeExpired_ok ok).1
  | claimTxn offer excessHex kernelHeight now =>
    obtain ⟨db, claimed, same⟩ | ⟨e, -, same⟩ := w.claimTxn_cases offer excessHex kernelHeight now
    · exact .claimed rfl (World.claimTxn_working (by rw [same]))
        (by rw [Stmt.apply, same]; exact claimed)
    · exact refused (by rw [Stmt.apply, same])

end Nip05d
