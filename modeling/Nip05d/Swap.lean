import Nip05d.Scripted

/-!
# The claim transaction as a swap

When it commits, what it leaves behind, and which error it answers otherwise,
for every store and every snapshot of an offer.
-/

namespace Nip05d

namespace Db

/-- The buyer of an offer holds an active name other than the one on offer. -/
def BuyerHolds (db : Db) (offer : OfferRow) : Prop :=
  ∃ r ∈ db.names.rows, r.releasedAt = none ∧ r.pubkey = offer.buyerPubkey ∧ r.name ≠ offer.name

instance (db : Db) (offer : OfferRow) : Decidable (db.BuyerHolds offer) :=
  inferInstanceAs (Decidable (∃ r ∈ db.names.rows, _))

/-- A claim on an offer can commit. -/
structure Claimable (db : Db) (offer : OfferRow) (excessHex : String) : Prop where
  owned : db.lookup offer.name = some offer.sellerPubkey
  free : ¬ db.BuyerHolds offer
  unrecorded : ∀ t ∈ db.transfers.rows, t.offerId ≠ offer.offerId
  unused : ∀ t ∈ db.transfers.rows, t.kernelExcess ≠ excessHex

theorem claimable_iff {db : Db} {offer : OfferRow} {excessHex : String} :
    db.Claimable offer excessHex ↔ db.lookup offer.name = some offer.sellerPubkey ∧
      ¬ db.BuyerHolds offer ∧ (∀ t ∈ db.transfers.rows, t.offerId ≠ offer.offerId) ∧
      ∀ t ∈ db.transfers.rows, t.kernelExcess ≠ excessHex :=
  ⟨fun c => ⟨c.owned, c.free, c.unrecorded, c.unused⟩, fun ⟨a, b, c, d⟩ => ⟨a, b, c, d⟩⟩

instance (db : Db) (offer : OfferRow) (excessHex : String) :
    Decidable (db.Claimable offer excessHex) := decidable_of_iff' _ claimable_iff

/-- What a swap changes: the row of the name, one more transfer, and the status
of the offer. -/
structure Swapped (db db' : Db) (offer : OfferRow) (excessHex : String)
    (kernelHeight : Option Int) (now : Int) : Prop where
  owner : ∃ r ∈ db.names.rows, r.name = offer.name ∧ r.releasedAt = none ∧
    r.pubkey = offer.sellerPubkey
  names : db'.names.rows = db.names.rows.map fun r =>
    if r.name = offer.name then { r with pubkey := offer.buyerPubkey, createdAt := now } else r
  transfers : db'.transfers.rows =
    transferRow offer excessHex kernelHeight now :: db.transfers.rows
  offers : db'.offers.rows = db.offers.rows.map fun o =>
    if o.offerId = offer.offerId then { o with status := .consumed } else o

/-- The error of a claim that cannot commit. -/
def claimError (db : Db) (offer : OfferRow) : TxErr :=
  if db.lookup offer.name ≠ some offer.sellerPubkey then .ownerChanged
  else if db.BuyerHolds offer then .buyerHasName
  else .reused

variable {db db' : Db} {offer : OfferRow} {excessHex : String} {kernelHeight : Option Int}
  {now : Int}

/-- The rows that the reassignment selects have the name on offer. -/
theorem ownedBy_key (r : NameRow) (hit : ownedBy offer r = true) :
    (fun r : NameRow => some r.name) r = some offer.name := by
  simp only [ownedBy, Bool.and_eq_true, beq_iff_eq] at hit
  exact congrArg some hit.1.1

theorem Claimed.swapped (claimed : Claimed db db' offer excessHex kernelHeight now) :
    Swapped db db' offer excessHex kernelHeight now := by
  obtain ⟨r, member, name, active, owner⟩ := lookup_eq_some.1 claimed.owned
  refine ⟨⟨r, member, name, active, owner⟩, ?_, claimed.transfers, ?_⟩
  · rw [claimed.names]
    refine List.map_congr_left fun r' there => ?_
    by_cases same : r'.name = offer.name
    · -- the name has one row, the seller's
      have row : r' = r := db.names.eq_of_key _ nameKey there member (congrArg some same)
        (congrArg some name)
      have hit : ownedBy offer r' = true := by simp [ownedBy, row, name, active, owner]
      rw [Sql.rewrite_hit hit, if_pos same]
    · have miss : ownedBy offer r' = false := by simp [ownedBy, same]
      rw [Sql.rewrite_miss miss, if_neg same]
  · rw [claimed.offers]
    refine List.map_congr_left fun o _ => ?_
    by_cases same : o.offerId = offer.offerId
    · rw [Sql.rewrite_hit (by simp [same]), if_pos same]
    · rw [Sql.rewrite_miss (by simp [same]), if_neg same]

/-- The reassignment meets another row only in the index of active keys. -/
theorem reassign_works (now : Int) (free : ¬ db.BuyerHolds offer) :
    ∃ names, db.names.update (ownedBy offer) (fun r =>
      { r with pubkey := offer.buyerPubkey, createdAt := now }) = some names := by
  refine db.names.update_works _ nameKey _ ownedBy_key ?_
  intro a ha b hb hit miss key index
  have named : a.name = offer.name := Option.some.inj (ownedBy_key a hit)
  have apart : a.name ≠ b.name := by
    intro same
    have row : a = b := db.names.eq_of_key _ nameKey ha hb rfl (congrArg some same.symm)
    rw [row, miss] at hit
    cases hit
  simp only [nameKeys, List.mem_cons, List.not_mem_nil, or_false] at index
  rcases index with rfl | rfl
  · exact .inr fun same => apart (Option.some.inj same)
  · by_cases active : b.releasedAt = none
    · have other : b.pubkey ≠ offer.buyerPubkey := fun same =>
        free ⟨b, hb, active, same, fun name => apart (named.trans name.symm)⟩
      simp only [ownedBy, Bool.and_eq_true, Option.isNone_iff_eq_none] at hit
      right
      simp [hit.2, active, other.symm]
    · exact Sql.Apart.symm (.inl (if_neg active))

/-- After the reassignment the buyer holds no other active name. -/
theorem reassigned_free {names : Sql.Table nameKeys}
    (owned : db.lookup offer.name = some offer.sellerPubkey)
    (rows : names.rows = db.names.rows.map (Sql.rewrite (ownedBy offer) fun r =>
      { r with pubkey := offer.buyerPubkey, createdAt := now })) : ¬ db.BuyerHolds offer := by
  rintro ⟨b, there, active', buyer, other⟩
  obtain ⟨r, member, name, active, owner⟩ := lookup_eq_some.1 owned
  have hit : ownedBy offer r = true := by simp [ownedBy, name, active, owner]
  have miss : ownedBy offer b = false := by simp [ownedBy, other]
  have first := rows ▸ Sql.mem_map_rewrite.2 ⟨r, member, .inl ⟨hit, rfl⟩⟩
  have second := rows ▸ Sql.mem_map_rewrite.2 ⟨b, there, .inr ⟨miss, rfl⟩⟩
  have activeKey : (fun r : NameRow => if r.releasedAt = none then some r.pubkey else none) ∈
      nameKeys := List.mem_cons_of_mem _ List.mem_cons_self
  have same := names.eq_of_key _ activeKey first second
    (show _ = some offer.buyerPubkey by simp [active]) (by simp [active', buyer])
  exact absurd (congrArg NameRow.name same).symm (by simpa [name] using other)

/-- A buyer with another active name is refused by that index. -/
theorem reassign_refused (now : Int) (owned : db.lookup offer.name = some offer.sellerPubkey)
    (holds : db.BuyerHolds offer) : db.names.update (ownedBy offer) (fun r =>
      { r with pubkey := offer.buyerPubkey, createdAt := now }) = none := by
  cases updated : db.names.update (ownedBy offer) (fun r =>
      { r with pubkey := offer.buyerPubkey, createdAt := now }) with
  | none => rfl
  | some names => exact absurd holds (reassigned_free owned (Sql.Table.update_eq_some.1 updated))

/-- A committed claim could commit. -/
theorem Claimed.claimable (claimed : Claimed db db' offer excessHex kernelHeight now) :
    db.Claimable offer excessHex where
  owned := claimed.owned
  free := reassigned_free claimed.owned claimed.names
  unrecorded t member := (claimed.unused t member).1
  unused t member := (claimed.unused t member).2

/-- A transfer is refused exactly when its offer or its excess is recorded. -/
theorem record_refused (kernelHeight : Option Int) (now : Int) :
    db.transfers.insert (transferRow offer excessHex kernelHeight now) = none ↔
      ¬ ((∀ t ∈ db.transfers.rows, t.offerId ≠ offer.offerId) ∧
      ∀ t ∈ db.transfers.rows, t.kernelExcess ≠ excessHex) := by
  constructor
  · rintro refused ⟨unrecorded, unused⟩
    have apart : ∀ r ∈ db.transfers.rows, ∀ key ∈ transferKeys,
        Sql.Apart key (transferRow offer excessHex kernelHeight now) r := by
      intro r member key index
      simp only [transferKeys, List.mem_cons, List.not_mem_nil, or_false] at index
      rcases index with rfl | rfl
      · exact .inr fun same => unrecorded r member (Option.some.inj same).symm
      · exact .inr fun same => unused r member (Option.some.inj same).symm
    obtain ⟨t', inserted⟩ := db.transfers.insert_works _ apart
    rw [inserted] at refused
    cases refused
  · intro recorded
    cases inserted : db.transfers.insert (transferRow offer excessHex kernelHeight now) with
    | none => rfl
    | some transfers =>
      refine absurd ⟨fun t member same => ?_, fun t member same => ?_⟩ recorded
      · exact Sql.Table.insert_fresh inserted member _ transferKey rfl (congrArg some same)
      · exact Sql.Table.insert_fresh inserted member _ excessKey rfl (congrArg some same)

/-- The transaction of a working database commits, or answers its error. -/
theorem runClaimTxn_cases (db : Db) (offer : OfferRow) (excessHex : String)
    (kernelHeight : Option Int) (now : Int) :
    (db.Claimable offer excessHex ∧
      ∃ db', db.runClaimTxn none offer excessHex kernelHeight now = .ok db') ∨
    (¬ db.Claimable offer excessHex ∧
      db.runClaimTxn none offer excessHex kernelHeight now = .error (db.claimError offer)) := by
  have hits := @ownedBy_hits db offer
  by_cases owned : db.lookup offer.name = some offer.sellerPubkey
  · by_cases holds : db.BuyerHolds offer
    · refine .inr ⟨fun c => c.free holds, ?_⟩
      simp [runClaimTxn, reassign_refused now owned holds, claimError, owned, holds]
    · obtain ⟨names, moved⟩ := reassign_works now holds
      by_cases fresh : (∀ t ∈ db.transfers.rows, t.offerId ≠ offer.offerId) ∧
          ∀ t ∈ db.transfers.rows, t.kernelExcess ≠ excessHex
      · refine .inl ⟨⟨owned, holds, fresh.1, fresh.2⟩, ?_⟩
        obtain ⟨transfers, inserted⟩ := Option.ne_none_iff_exists'.1 fun refused =>
          (record_refused kernelHeight now).1 refused fresh
        obtain ⟨offers, consumed⟩ := db.offers.update_of_keys
          (fun r => r.offerId == offer.offerId) (fun r => { r with status := .consumed })
          (by simp [offerKeys])
        exact ⟨⟨names, offers, transfers⟩, by
          simp [runClaimTxn, moved, hits.2 owned, inserted, consumed]⟩
      · refine .inr ⟨fun c => fresh ⟨c.unrecorded, c.unused⟩, ?_⟩
        have refused := (record_refused kernelHeight now).2 fresh
        simp [runClaimTxn, moved, hits.2 owned, refused, claimError, owned, holds]
  · refine .inr ⟨fun c => owned c.owned, ?_⟩
    -- no row is selected, so the update changes nothing and is not refused
    have missed : ∀ r ∈ db.names.rows, ownedBy offer r = false := by
      intro r member
      by_contra hit
      refine owned (hits.1 ((db.names.hits_eq_one _ nameKey ownedBy_key).2 ⟨r, member, ?_⟩))
      simpa using hit
    obtain ⟨names, same⟩ := db.names.update_works _ nameKey
      (fun r => { r with pubkey := offer.buyerPubkey, createdAt := now }) ownedBy_key (by
        intro a ha b _ hit
        rw [missed a ha] at hit
        cases hit)
    have none_ : db.names.hits (ownedBy offer) ≠ 1 := fun one => owned (hits.1 one)
    simp [runClaimTxn, same, none_, claimError, owned]

end Db

/-- **The claim transaction is an exact atomic swap.** -/
theorem claim_swaps {w : World} (working : w.fault = none) (offer : OfferRow) (excessHex : String)
    (kernelHeight : Option Int) (now : Int) :
    ((w.claimTxn offer excessHex kernelHeight now).1 = .ok () ↔
      w.db.Claimable offer excessHex) ∧
    ((w.claimTxn offer excessHex kernelHeight now).1 = .ok () →
      ∃ db, w.db.Swapped db offer excessHex kernelHeight now ∧
        (w.claimTxn offer excessHex kernelHeight now).2 = { w with db }) ∧
    (∀ e, (w.claimTxn offer excessHex kernelHeight now).1 = .error e →
      e = w.db.claimError offer ∧ (w.claimTxn offer excessHex kernelHeight now).2 = w) := by
  unfold World.claimTxn
  rw [working]
  obtain ⟨claimable, db, ok⟩ | ⟨not_, error⟩ :=
    w.db.runClaimTxn_cases offer excessHex kernelHeight now
  · rw [ok]
    exact ⟨⟨fun _ => claimable, fun _ => rfl⟩,
      fun _ => ⟨db, (Db.runClaimTxn_ok ok).swapped, rfl⟩, nofun⟩
  · rw [error]
    refine ⟨⟨nofun, fun claimable => absurd claimable not_⟩, nofun, fun e same => ?_⟩
    cases same
    exact ⟨rfl, rfl⟩

namespace Scripted

/-- The world of a run in which ada is owned by the seller and nothing is on
offer. -/
def owned : World :=
  { world with db := { Db.empty with
    names := ⟨[⟨"ada", seller.toHex, 1000, none⟩], by decide +kernel⟩ } }

/-- An offer row of ada. -/
def adaOffer : OfferRow :=
  { offerId := offerId 101, eventJson := "", name := "ada", sellerPubkey := seller.toHex,
    buyerPubkey := buyer.toHex, priceNanogrin := 5, proofAddress := "", expiration := 1010,
    status := .live, endHeight := none, stateChangedAt := none, createdAt := 1000 }

theorem owned_swaps : ((owned.claimTxn adaOffer "08" none 1005).1 = .ok () ↔
      owned.db.Claimable adaOffer "08") ∧
    ∃ db, owned.db.Swapped db adaOffer "08" none 1005 ∧
      (owned.claimTxn adaOffer "08" none 1005).2 = { owned with db } := by
  obtain ⟨exact_, swapped, -⟩ :=
    claim_swaps (show owned.fault = none from rfl) adaOffer "08" none 1005
  exact ⟨exact_, swapped (exact_.2 (by decide +kernel))⟩

end Scripted

end Nip05d
