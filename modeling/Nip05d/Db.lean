import Nip05d.Sql.Table

/-!
# The store

The three tables with their constraints, the queries, and the statements that
write. A statement answers the number of rows it changed and the new store, or
why it was refused.
-/

namespace Nip05d

structure NameRow where
  name : String
  pubkey : String
  createdAt : Int
  releasedAt : Option Int
  deriving DecidableEq

inductive OfferStatus where
  | live
  | consumed
  | revoked
  | expired
  deriving DecidableEq, Repr

/-- A lodged offer. -/
structure OfferRow where
  offerId : String
  eventJson : String
  name : String
  sellerPubkey : String
  buyerPubkey : String
  priceNanogrin : Int
  proofAddress : String
  expiration : Int
  status : OfferStatus
  endHeight : Option Int
  stateChangedAt : Option Int
  createdAt : Int
  deriving DecidableEq

structure TransferRow where
  offerId : String
  name : String
  sellerPubkey : String
  buyerPubkey : String
  priceNanogrin : Int
  kernelExcess : String
  kernelHeight : Option Int
  claimedAt : Int
  deriving DecidableEq

/-- `name` is the primary key; one active name per key. -/
def nameKeys : List (NameRow → Option String) :=
  [fun r => some r.name, fun r => if r.releasedAt = none then some r.pubkey else none]

/-- `offer_id` is the primary key. -/
def offerKeys : List (OfferRow → Option String) := [fun r => some r.offerId]

/-- `offer_id` is the primary key and `kernel_excess` is UNIQUE. -/
def transferKeys : List (TransferRow → Option String) :=
  [fun r => some r.offerId, fun r => some r.kernelExcess]

theorem nameKey : (fun r : NameRow => some r.name) ∈ nameKeys := List.mem_cons_self

theorem activeKey :
    (fun r : NameRow => if r.releasedAt = none then some r.pubkey else none) ∈ nameKeys :=
  List.mem_cons_of_mem _ List.mem_cons_self

theorem offerKey : (fun r : OfferRow => some r.offerId) ∈ offerKeys := List.mem_cons_self

theorem transferKey : (fun r : TransferRow => some r.offerId) ∈ transferKeys := List.mem_cons_self

theorem excessKey : (fun r : TransferRow => some r.kernelExcess) ∈ transferKeys :=
  List.mem_cons_of_mem _ List.mem_cons_self

structure Db where
  names : Sql.Table nameKeys
  offers : Sql.Table offerKeys
  transfers : Sql.Table transferKeys

/-- The columns of a fresh offer that its event determines. -/
structure NewOffer where
  offerId : String
  eventJson : String
  name : String
  sellerPubkey : String
  buyerPubkey : String
  priceNanogrin : Int
  proofAddress : String
  expiration : Int
  deriving DecidableEq

/-- A fresh offer is live and has no death record. -/
def NewOffer.row (o : NewOffer) (createdAt : Int) : OfferRow where
  offerId := o.offerId
  eventJson := o.eventJson
  name := o.name
  sellerPubkey := o.sellerPubkey
  buyerPubkey := o.buyerPubkey
  priceNanogrin := o.priceNanogrin
  proofAddress := o.proofAddress
  expiration := o.expiration
  status := .live
  endHeight := none
  stateChangedAt := none
  createdAt

/-- The terminal states that keep a death record. -/
inductive Death where
  | revoked
  | expired
  deriving DecidableEq, Repr

def Death.status : Death → OfferStatus
  | .revoked => .revoked
  | .expired => .expired

theorem Death.not_live (d : Death) : d.status ≠ .live := by
  cases d <;> decide

/-- An offer is dead when it was revoked or has been seen expired. -/
def OfferRow.Dead (o : OfferRow) : Prop := o.status = .revoked ∨ o.status = .expired

instance (o : OfferRow) : Decidable o.Dead := inferInstanceAs (Decidable (_ ∨ _))

/-- A live offer that is not past its expiration. -/
def OfferRow.LiveAt (o : OfferRow) (now : Int) : Prop := o.status = .live ∧ now ≤ o.expiration

instance (o : OfferRow) (now : Int) : Decidable (o.LiveAt now) :=
  inferInstanceAs (Decidable (_ ∧ _))

/-- Where a transaction can be hit by a database failure. -/
inductive Stage where
  | start
  | names
  | transfers
  | offers
  | commit
  deriving DecidableEq, Repr

/-- Terminal errors of the claim transaction. -/
inductive TxErr where
  | ownerChanged
  | buyerHasName
  | reused
  | db
  deriving DecidableEq, Repr

/-- The answer of a statement that writes. -/
abbrev Written := Except Sql.Error (Nat × Db)

namespace Db

def empty : Db := ⟨.empty, .empty, .empty⟩

/-! ## Queries -/

def isActive (name : String) (r : NameRow) : Bool := r.name == name && r.releasedAt.isNone

/-- Active (non-released) pubkey for a name. -/
def lookup (db : Db) (name : String) : Option String :=
  (db.names.select (isActive name)).map NameRow.pubkey

/-- Active name owned by a pubkey. -/
def nameOf (db : Db) (pubkey : String) : Option String :=
  (db.names.select fun r => r.pubkey == pubkey && r.releasedAt.isNone).map NameRow.name

def getOffer (db : Db) (offerId : String) : Option OfferRow :=
  db.offers.select fun r => r.offerId == offerId

/-- A live, unexpired offer exists for a name. -/
def liveOfferForName (db : Db) (name : String) (now : Int) : Bool :=
  (db.offers.select fun r => r.name == name && r.status == .live && now ≤ r.expiration).isSome

/-- A live, unexpired offer uses a proof address. -/
def liveOfferBinding (db : Db) (proofAddress : String) (now : Int) : Bool :=
  (db.offers.select fun r =>
    r.proofAddress == proofAddress && r.status == .live && now ≤ r.expiration).isSome

/-- Excess, name and buyer of the completed transfer of an offer. -/
def transferForOffer (db : Db) (offerId : String) : Option (String × String × String) :=
  (db.transfers.select fun r => r.offerId == offerId).map
    fun r => (r.kernelExcess, r.name, r.buyerPubkey)

def excessUsed (db : Db) (excessHex : String) : Bool :=
  (db.transfers.select fun r => r.kernelExcess == excessHex).isSome

/-! ## Statements -/

/-- The answer of a statement on one table. -/
def written {ρ : Type} {keys : List (ρ → Option String)} (put : Sql.Table keys → Db) (n : Nat) :
    Option (Sql.Table keys) → Written
  | some t => .ok (n, put t)
  | none => .error .constraint

def insertOffer (db : Db) (o : NewOffer) (createdAt : Int) : Written :=
  written (fun offers => { db with offers }) 1 (db.offers.insert (o.row createdAt))

/-- Move a live offer to a terminal state, with its death record. Rows that are
not live stay as they are. -/
def markOfferDead (db : Db) (offerId : String) (status : Death) (endHeight : Option Int)
    (stateChangedAt : Int) : Written :=
  let where' := fun r : OfferRow => r.offerId == offerId && r.status == .live
  written (fun offers => { db with offers }) (db.offers.hits where')
    (db.offers.update where' fun r =>
      { r with status := status.status, endHeight, stateChangedAt := some stateChangedAt })

/-- UPDATE of an expired offer to revoked; the row's status is not looked at. -/
def revokeExpired (db : Db) (offerId : String) : Written :=
  let where' := fun r : OfferRow => r.offerId == offerId
  written (fun offers => { db with offers }) (db.offers.hits where')
    (db.offers.update where' fun r => { r with status := .revoked })

/-- INSERT of a registration; a released row of the name is revived, an active
one is left alone and no row changes. -/
def registerName (db : Db) (name pubkey : String) (createdAt : Int) : Written :=
  match db.names.select fun r => r.name == name with
  | none =>
    written (fun names => { db with names }) 1 (db.names.insert ⟨name, pubkey, createdAt, none⟩)
  | some r =>
    if r.releasedAt.isNone then .ok (0, db)
    else
      written (fun names => { db with names }) 1
        (db.names.update (fun r => r.name == name) fun r =>
          { r with pubkey, createdAt, releasedAt := none })

/-- UPDATE that releases an active name; the owner is not looked at. -/
def releaseName (db : Db) (name : String) (releasedAt : Int) : Written :=
  written (fun names => { db with names }) (db.names.hits (isActive name))
    (db.names.update (isActive name) fun r => { r with releasedAt := some releasedAt })

/-- The rows that the owner-guarded reassignment selects. -/
def ownedBy (offer : OfferRow) (r : NameRow) : Bool :=
  r.name == offer.name && r.pubkey == offer.sellerPubkey && r.releasedAt.isNone

/-- The record of a completed claim. -/
def transferRow (offer : OfferRow) (excessHex : String) (kernelHeight : Option Int) (now : Int) :
    TransferRow where
  offerId := offer.offerId
  name := offer.name
  sellerPubkey := offer.sellerPubkey
  buyerPubkey := offer.buyerPubkey
  priceNanogrin := offer.priceNanogrin
  kernelExcess := excessHex
  kernelHeight := kernelHeight
  claimedAt := now

/-- The claim transaction: reassign the name, record the transfer, consume the
offer. An error leaves no new store, which is the roll-back. -/
def runClaimTxn (db : Db) (fault : Option Stage) (offer : OfferRow) (excessHex : String)
    (kernelHeight : Option Int) (now : Int) : Except TxErr Db :=
  if fault = some .start ∨ fault = some .names then .error .db
  else match db.names.update (ownedBy offer) fun r =>
      { r with pubkey := offer.buyerPubkey, createdAt := now } with
  | none => .error .buyerHasName
  | some names =>
    if db.names.hits (ownedBy offer) ≠ 1 then .error .ownerChanged
    else if fault = some .transfers then .error .db
    else match db.transfers.insert (transferRow offer excessHex kernelHeight now) with
    | none => .error .reused
    | some transfers =>
      if fault = some .offers then .error .db
      else match db.offers.update (fun r => r.offerId == offer.offerId) fun r =>
          { r with status := .consumed } with
      | none => .error .db
      | some offers => if fault = some .commit then .error .db else .ok ⟨names, offers, transfers⟩

/-! ## What the queries see -/

/-- Selecting a name selects its key. -/
theorem name_keyed {name : String} (r : NameRow) (hit : (r.name == name) = true) :
    (fun r : NameRow => some r.name) r = some name := congrArg some (beq_iff_eq.1 hit)

theorem lookup_eq_some {db : Db} {name p : String} :
    db.lookup name = some p ↔
      ∃ r ∈ db.names.rows, r.name = name ∧ r.releasedAt = none ∧ r.pubkey = p := by
  have keyed : ∀ r, isActive name r = true → (fun r : NameRow => some r.name) r = some name := by
    simp +contextual [isActive]
  simp only [lookup, Option.map_eq_some_iff,
    db.names.select_eq_some _ nameKey keyed]
  simp [isActive, and_assoc]

theorem getOffer_eq_some {db : Db} {offerId : String} {o : OfferRow} :
    db.getOffer offerId = some o ↔ o ∈ db.offers.rows ∧ o.offerId = offerId := by
  have keyed : ∀ r : OfferRow, (r.offerId == offerId) = true →
      (fun r : OfferRow => some r.offerId) r = some offerId := by simp
  rw [getOffer, db.offers.select_eq_some _ offerKey keyed]
  simp

/-- An offer id belongs to one row. -/
theorem offer_eq {db : Db} {a b : OfferRow} (ha : a ∈ db.offers.rows) (hb : b ∈ db.offers.rows)
    (same : a.offerId = b.offerId) : a = b :=
  db.offers.eq_of_key _ offerKey ha hb rfl
    (congrArg some same.symm)

theorem liveOfferForName_eq_false {db : Db} {name : String} {now : Int} :
    db.liveOfferForName name now = false ↔
      ∀ o ∈ db.offers.rows, o.LiveAt now → o.name ≠ name := by
  simp only [liveOfferForName, Option.isSome_eq_false_iff, Option.isNone_iff_eq_none,
    db.offers.select_eq_none, OfferRow.LiveAt]
  simp
  grind

theorem liveOfferBinding_eq_false {db : Db} {proofAddress : String} {now : Int} :
    db.liveOfferBinding proofAddress now = false ↔
      ∀ o ∈ db.offers.rows, o.LiveAt now → o.proofAddress ≠ proofAddress := by
  simp only [liveOfferBinding, Option.isSome_eq_false_iff, Option.isNone_iff_eq_none,
    db.offers.select_eq_none, OfferRow.LiveAt]
  simp
  grind

/-! ## What the statements do -/

theorem written_ok {ρ : Type} {keys : List (ρ → Option String)} {put : Sql.Table keys → Db}
    {n m : Nat} {t : Option (Sql.Table keys)} {db : Db} :
    written put n t = .ok (m, db) ↔ ∃ t', t = some t' ∧ m = n ∧ db = put t' := by
  cases t <;> simp [written, eq_comm]

theorem insertOffer_ok {db db' : Db} {o : NewOffer} {createdAt : Int} {n : Nat}
    (ok : db.insertOffer o createdAt = .ok (n, db')) :
    db'.names = db.names ∧ db'.transfers = db.transfers ∧
      db'.offers.rows = o.row createdAt :: db.offers.rows ∧
      ∀ r ∈ db.offers.rows, r.offerId ≠ o.offerId := by
  obtain ⟨offers, inserted, -, rfl⟩ := written_ok.1 ok
  refine ⟨rfl, rfl, Sql.Table.insert_eq_some.1 inserted, fun r member same => ?_⟩
  exact Sql.Table.insert_fresh inserted member _ offerKey rfl (congrArg some same)

/-- A fresh offer id is never refused. -/
theorem insertOffer_works {db : Db} {o : NewOffer} (createdAt : Int)
    (fresh : ∀ r ∈ db.offers.rows, r.offerId ≠ o.offerId) :
    ∃ db', db.insertOffer o createdAt = .ok (1, db') := by
  have apart : ∀ r ∈ db.offers.rows, ∀ key ∈ offerKeys, Sql.Apart key (o.row createdAt) r := by
    intro r member key index
    rw [offerKeys, List.mem_singleton] at index
    subst index
    exact .inr fun same => fresh r member (Option.some.inj same).symm
  obtain ⟨offers, inserted⟩ := db.offers.insert_works _ apart
  exact ⟨_, written_ok.2 ⟨offers, inserted, rfl, rfl⟩⟩

theorem markOfferDead_ok {db db' : Db} {offerId : String} {status : Death}
    {endHeight : Option Int} {stateChangedAt : Int} {n : Nat}
    (ok : db.markOfferDead offerId status endHeight stateChangedAt = .ok (n, db')) :
    db'.names = db.names ∧ db'.transfers = db.transfers ∧
      db'.offers.rows = db.offers.rows.map
        (Sql.rewrite (fun r => r.offerId == offerId && r.status == .live) fun r =>
          { r with status := status.status, endHeight, stateChangedAt := some stateChangedAt }) := by
  obtain ⟨offers, updated, -, rfl⟩ := written_ok.1 ok
  exact ⟨rfl, rfl, Sql.Table.update_eq_some.1 updated⟩

theorem revokeExpired_ok {db db' : Db} {offerId : String} {n : Nat}
    (ok : db.revokeExpired offerId = .ok (n, db')) :
    db'.names = db.names ∧ db'.transfers = db.transfers ∧
      db'.offers.rows = db.offers.rows.map
        (Sql.rewrite (fun r => r.offerId == offerId) fun r => { r with status := .revoked }) := by
  obtain ⟨offers, updated, -, rfl⟩ := written_ok.1 ok
  exact ⟨rfl, rfl, Sql.Table.update_eq_some.1 updated⟩

theorem releaseName_ok {db db' : Db} {name : String} {releasedAt : Int} {n : Nat}
    (ok : db.releaseName name releasedAt = .ok (n, db')) :
    db'.offers = db.offers ∧ db'.transfers = db.transfers ∧
      db'.names.rows = db.names.rows.map
        (Sql.rewrite (isActive name) fun r => { r with releasedAt := some releasedAt }) := by
  obtain ⟨names, updated, -, rfl⟩ := written_ok.1 ok
  exact ⟨rfl, rfl, Sql.Table.update_eq_some.1 updated⟩

theorem nameOf_eq_some {db : Db} {name p : String} :
    db.nameOf p = some name ↔
      ∃ r ∈ db.names.rows, r.name = name ∧ r.releasedAt = none ∧ r.pubkey = p := by
  have keyed : ∀ r : NameRow, (r.pubkey == p && r.releasedAt.isNone) = true →
      (fun r : NameRow => if r.releasedAt = none then some r.pubkey else none) r = some p := by
    simp +contextual
  simp only [nameOf, Option.map_eq_some_iff,
    db.names.select_eq_some _ activeKey keyed, Bool.and_eq_true, beq_iff_eq,
    Option.isNone_iff_eq_none]
  constructor
  · rintro ⟨r, ⟨member, owner, active⟩, same⟩
    exact ⟨r, member, same, active, owner⟩
  · rintro ⟨r, member, same, active, owner⟩
    exact ⟨r, ⟨member, owner, active⟩, same⟩

/-- The two lookups are inverse to each other. -/
theorem lookup_iff_nameOf {db : Db} {name p : String} :
    db.lookup name = some p ↔ db.nameOf p = some name := by
  rw [lookup_eq_some, nameOf_eq_some]

/-- A registration changes nothing, or takes a name that is not active. -/
theorem registerName_ok {db db' : Db} {name pubkey : String} {createdAt : Int} {n : Nat}
    (ok : db.registerName name pubkey createdAt = .ok (n, db')) :
    db' = db ∨ (db'.offers = db.offers ∧ db'.transfers = db.transfers ∧ db.lookup name = none ∧
      (db'.names.rows = ⟨name, pubkey, createdAt, none⟩ :: db.names.rows ∨
        (∃ r ∈ db.names.rows, r.name = name) ∧
          db'.names.rows = db.names.rows.map (Sql.rewrite (fun r => r.name == name) fun r =>
            { r with pubkey, createdAt, releasedAt := none }))) := by
  have inactive : (∀ r ∈ db.names.rows, r.name = name → r.releasedAt ≠ none) →
      db.lookup name = none := by
    intro none_
    by_contra some_
    obtain ⟨p, found⟩ := Option.ne_none_iff_exists'.1 some_
    obtain ⟨r, member, same, active, -⟩ := lookup_eq_some.1 found
    exact none_ r member same active
  unfold registerName at ok
  split at ok
  · rename_i missing
    obtain ⟨names, inserted, -, rfl⟩ := written_ok.1 ok
    refine .inr ⟨rfl, rfl, inactive fun r member same => ?_,
      .inl (Sql.Table.insert_eq_some.1 inserted)⟩
    have := db.names.select_eq_none.1 missing r member
    simp [same] at this
  · rename_i row found
    split at ok
    · cases ok
      exact .inl rfl
    · rename_i released
      obtain ⟨names, updated, -, rfl⟩ := written_ok.1 ok
      have here := (db.names.select_eq_some _ nameKey name_keyed).1 found
      refine .inr ⟨rfl, rfl, inactive fun r member same => ?_,
        .inr ⟨⟨row, here.1, by simpa using here.2⟩, Sql.Table.update_eq_some.1 updated⟩⟩
      have there : r = row := db.names.eq_of_key _ nameKey member here.1
        (congrArg some same) (name_keyed row here.2)
      rw [there]
      simpa using released

/-- The owner guard selects the row of a name that its seller owns. -/
theorem ownedBy_hits {db : Db} {offer : OfferRow} :
    db.names.hits (ownedBy offer) = 1 ↔ db.lookup offer.name = some offer.sellerPubkey := by
  have keyed : ∀ r, ownedBy offer r = true →
      (fun r : NameRow => some r.name) r = some offer.name := by
    simp +contextual [ownedBy]
  rw [db.names.hits_eq_one _ nameKey keyed,
    lookup_eq_some]
  refine exists_congr fun r => and_congr_right fun _ => ?_
  simp only [ownedBy, Bool.and_eq_true, beq_iff_eq, Option.isNone_iff_eq_none]
  constructor
  · rintro ⟨⟨name, pubkey⟩, active⟩
    exact ⟨name, active, pubkey⟩
  · rintro ⟨name, active, pubkey⟩
    exact ⟨⟨name, pubkey⟩, active⟩

/-- What a committed claim has found and what it has done. -/
structure Claimed (db db' : Db) (offer : OfferRow) (excessHex : String)
    (kernelHeight : Option Int) (now : Int) : Prop where
  owned : db.lookup offer.name = some offer.sellerPubkey
  names : db'.names.rows = db.names.rows.map (Sql.rewrite (ownedBy offer) fun r =>
    { r with pubkey := offer.buyerPubkey, createdAt := now })
  transfers : db'.transfers.rows = transferRow offer excessHex kernelHeight now :: db.transfers.rows
  unused : ∀ t ∈ db.transfers.rows, t.offerId ≠ offer.offerId ∧ t.kernelExcess ≠ excessHex
  offers : db'.offers.rows = db.offers.rows.map
    (Sql.rewrite (fun r => r.offerId == offer.offerId) fun r => { r with status := .consumed })

/-- A committed claim consumes its offer. -/
theorem Claimed.consumed {db db' : Db} {offer o : OfferRow} {excessHex : String}
    {kernelHeight : Option Int} {now : Int}
    (claimed : Claimed db db' offer excessHex kernelHeight now) (member : o ∈ db'.offers.rows)
    (same : o.offerId = offer.offerId) : o.status = .consumed := by
  rw [claimed.offers] at member
  obtain ⟨old, -, ⟨-, rfl⟩ | ⟨miss, rfl⟩⟩ := Sql.mem_map_rewrite.1 member
  · rfl
  · simp [same] at miss

theorem runClaimTxn_ok {db db' : Db} {fault : Option Stage} {offer : OfferRow}
    {excessHex : String} {kernelHeight : Option Int} {now : Int}
    (ok : db.runClaimTxn fault offer excessHex kernelHeight now = .ok db') :
    Claimed db db' offer excessHex kernelHeight now := by
  unfold runClaimTxn at ok
  split at ok
  · cases ok
  split at ok
  · cases ok
  rename_i names moved
  split at ok
  · cases ok
  rename_i one
  split at ok
  · cases ok
  split at ok
  · cases ok
  rename_i transfers inserted
  split at ok
  · cases ok
  split at ok
  · cases ok
  rename_i offers consumed
  split at ok
  · cases ok
  cases ok
  refine ⟨ownedBy_hits.1 (not_not.1 one), Sql.Table.update_eq_some.1 moved, Sql.Table.insert_eq_some.1 inserted,
    fun t there => ⟨fun same => ?_, fun same => ?_⟩, Sql.Table.update_eq_some.1 consumed⟩
  · exact Sql.Table.insert_fresh inserted there _ transferKey rfl (congrArg some same)
  · exact Sql.Table.insert_fresh inserted there _ excessKey rfl (congrArg some same)

/-- A failing database commits no claim. -/
theorem runClaimTxn_working {db db' : Db} {fault : Option Stage} {offer : OfferRow}
    {excessHex : String} {kernelHeight : Option Int} {now : Int}
    (ok : db.runClaimTxn fault offer excessHex kernelHeight now = .ok db') : fault = none := by
  unfold runClaimTxn at ok
  split at ok
  · cases ok
  rename_i names
  split at ok
  · cases ok
  split at ok
  · cases ok
  split at ok
  · cases ok
  rename_i transfers
  split at ok
  · cases ok
  split at ok
  · cases ok
  rename_i offers
  split at ok
  · cases ok
  split at ok
  · cases ok
  rename_i commit
  rw [not_or] at names
  cases fault with
  | none => rfl
  | some stage =>
    cases stage with
    | start => exact absurd rfl names.1
    | names => exact absurd rfl names.2
    | transfers => exact absurd rfl transfers
    | offers => exact absurd rfl offers
    | commit => exact absurd rfl commit

/-! ## Owners -/

/-- Rewriting rows of other names leaves the owner of a name alone. -/
theorem lookup_rewrite_other {db db' : Db} {where' : NameRow → Bool} {set : NameRow → NameRow}
    {name : String} (rows : db'.names.rows = db.names.rows.map (Sql.rewrite where' set))
    (other : ∀ r, where' r = true → r.name ≠ name)
    (kept : ∀ r, where' r = true → (set r).name ≠ name) : db'.lookup name = db.lookup name := by
  apply Option.ext
  intro p
  simp only [lookup_eq_some, rows]
  constructor
  · rintro ⟨r', member, same, active, owner⟩
    obtain ⟨r, old, ⟨hit, rfl⟩ | ⟨-, rfl⟩⟩ := Sql.mem_map_rewrite.1 member
    · exact absurd same (kept r hit)
    · exact ⟨r', old, same, active, owner⟩
  · rintro ⟨r, member, same, active, owner⟩
    cases hit : where' r with
    | true => exact absurd same (other r hit)
    | false =>
      exact ⟨r, Sql.mem_map_rewrite.2 ⟨r, member, .inr ⟨hit, rfl⟩⟩, same, active, owner⟩

/-- A death record is never refused. -/
theorem markOfferDead_works (db : Db) (offerId : String) (status : Death)
    (endHeight : Option Int) (stateChangedAt : Int) :
    ∃ n db', db.markOfferDead offerId status endHeight stateChangedAt = .ok (n, db') := by
  obtain ⟨offers, updated⟩ := db.offers.update_of_keys
    (fun r => r.offerId == offerId && r.status == .live)
    (fun r => { r with status := status.status, endHeight, stateChangedAt := some stateChangedAt })
    (by simp [offerKeys])
  exact ⟨_, _, written_ok.2 ⟨offers, updated, rfl, rfl⟩⟩

/-- A revocation is never refused. -/
theorem revokeExpired_works (db : Db) (offerId : String) :
    ∃ n db', db.revokeExpired offerId = .ok (n, db') := by
  have kept : ∀ key ∈ offerKeys, ∀ r : OfferRow,
      key { r with status := .revoked } = none ∨ key { r with status := .revoked } = key r := by
    simp [offerKeys]
  obtain ⟨offers, updated⟩ := db.offers.update_of_keys (fun r => r.offerId == offerId) _ kept
  exact ⟨_, _, written_ok.2 ⟨offers, updated, rfl, rfl⟩⟩

/-- A release is never refused. -/
theorem releaseName_works (db : Db) (name : String) (releasedAt : Int) :
    ∃ n db', db.releaseName name releasedAt = .ok (n, db') := by
  have kept : ∀ key ∈ nameKeys, ∀ r : NameRow,
      key { r with releasedAt := some releasedAt } = none ∨
        key { r with releasedAt := some releasedAt } = key r := by
    simp [nameKeys]
  obtain ⟨names, updated⟩ := db.names.update_of_keys (isActive name) _ kept
  exact ⟨_, _, written_ok.2 ⟨names, updated, rfl, rfl⟩⟩

/-- A release takes the name it names from its owner, and no other. -/
theorem lookup_release {db db' : Db} {name : String} {releasedAt : Int} {n : Nat}
    (ok : db.releaseName name releasedAt = .ok (n, db')) (m : String) :
    db'.lookup m = if m = name then none else db.lookup m := by
  obtain ⟨-, -, rows⟩ := releaseName_ok ok
  split
  · rename_i here
    subst here
    by_contra some_
    obtain ⟨p, found⟩ := Option.ne_none_iff_exists'.1 some_
    obtain ⟨r', member, same, active, -⟩ := lookup_eq_some.1 found
    rw [rows] at member
    obtain ⟨r, -, ⟨-, rfl⟩ | ⟨miss, rfl⟩⟩ := Sql.mem_map_rewrite.1 member
    · cases active
    · simp [isActive, same, active] at miss
  · rename_i there
    have away : ∀ r, isActive name r = true → r.name ≠ m := by
      intro r hit same
      simp only [isActive, Bool.and_eq_true, beq_iff_eq] at hit
      exact there (same.symm.trans hit.1)
    exact lookup_rewrite_other rows away away

/-- A claim moves the name it names to the buyer, and no other. -/
theorem Claimed.lookup {db db' : Db} {offer : OfferRow} {excessHex : String}
    {kernelHeight : Option Int} {now : Int}
    (claimed : Claimed db db' offer excessHex kernelHeight now) (m : String) :
    db'.lookup m = if m = offer.name then some offer.buyerPubkey else db.lookup m := by
  split
  · rename_i here
    subst here
    obtain ⟨r, member, same, active, owner⟩ := lookup_eq_some.1 claimed.owned
    have hit : ownedBy offer r = true := by simp [ownedBy, same, active, owner]
    exact lookup_eq_some.2 ⟨{ r with pubkey := offer.buyerPubkey, createdAt := now },
      claimed.names ▸ Sql.mem_map_rewrite.2 ⟨r, member, .inl ⟨hit, rfl⟩⟩, same, active, rfl⟩
  · rename_i there
    have away : ∀ r, ownedBy offer r = true → r.name ≠ m := by
      intro r hit same
      simp only [ownedBy, Bool.and_eq_true, beq_iff_eq] at hit
      exact there (same.symm.trans hit.1.1)
    exact lookup_rewrite_other claimed.names away away

/-- A registration gives an unowned name an owner, or changes no owner. -/
theorem lookup_register {db db' : Db} {name pubkey : String} {createdAt : Int} {n : Nat}
    (ok : db.registerName name pubkey createdAt = .ok (n, db')) :
    db' = db ∨ (db.lookup name = none ∧
      ∀ m, db'.lookup m = if m = name then some pubkey else db.lookup m) := by
  obtain rfl | ⟨-, -, free, rows | ⟨⟨r, member, same⟩, rows⟩⟩ := registerName_ok ok
  · exact .inl rfl
  · refine .inr ⟨free, fun m => ?_⟩
    split
    · rename_i here
      subst here
      exact lookup_eq_some.2 ⟨⟨m, pubkey, createdAt, none⟩, rows ▸ List.mem_cons_self, rfl, rfl, rfl⟩
    · rename_i there
      apply Option.ext
      intro p
      simp only [lookup_eq_some, rows, List.mem_cons]
      constructor
      · rintro ⟨r, rfl | member, same, rest⟩
        · exact absurd same.symm there
        · exact ⟨r, member, same, rest⟩
      · rintro ⟨r, member, rest⟩
        exact ⟨r, .inr member, rest⟩
  · refine .inr ⟨free, fun m => ?_⟩
    split
    · rename_i here
      subst here
      exact lookup_eq_some.2 ⟨{ r with pubkey, createdAt, releasedAt := none },
        rows ▸ Sql.mem_map_rewrite.2 ⟨r, member, .inl ⟨by simpa using same, rfl⟩⟩, same, rfl, rfl⟩
    · rename_i there
      have away : ∀ r : NameRow, (r.name == name) = true → r.name ≠ m := by
        intro r hit same
        exact there (same.symm.trans (by simpa using hit))
      exact lookup_rewrite_other rows away away

/-- A registration of a free name by a key without a name is never refused. -/
theorem registerName_works {db : Db} {name pubkey : String} (createdAt : Int)
    (free : db.lookup name = none) (unnamed : db.nameOf pubkey = none) :
    ∃ db', db.registerName name pubkey createdAt = .ok (1, db') := by
  have keyless : ∀ r ∈ db.names.rows, r.releasedAt = none → pubkey ≠ r.pubkey := by
    intro r member active same
    have held := nameOf_eq_some.2 ⟨r, member, rfl, active, same.symm⟩
    rw [unnamed] at held
    cases held
  unfold registerName
  split
  · rename_i missing
    have apart : ∀ r ∈ db.names.rows, ∀ key ∈ nameKeys,
        Sql.Apart key ⟨name, pubkey, createdAt, none⟩ r := by
      intro r member key index
      rw [nameKeys, List.mem_cons, List.mem_singleton] at index
      rcases index with rfl | rfl
      · have other : (r.name == name) = false := db.names.select_eq_none.1 missing r member
        refine .inr fun same => ?_
        rw [← Option.some.inj same, beq_self_eq_true] at other
        cases other
      · by_cases active : r.releasedAt = none
        · exact .inr fun same => keyless r member active (by simpa [active] using same)
        · exact .inr (by simp [active])
    obtain ⟨names, inserted⟩ := db.names.insert_works _ apart
    exact ⟨_, written_ok.2 ⟨names, inserted, rfl, rfl⟩⟩
  · rename_i row found
    obtain ⟨member, same⟩ := (db.names.select_eq_some _ nameKey name_keyed).1 found
    have released : row.releasedAt ≠ none := by
      intro active
      have owned := lookup_eq_some.2 ⟨row, member, beq_iff_eq.1 same, active, rfl⟩
      rw [free] at owned
      cases owned
    rw [if_neg (by simpa using released)]
    have apart : ∀ a ∈ db.names.rows, ∀ b ∈ db.names.rows, (a.name == name) = true →
        (b.name == name) = false → ∀ key ∈ nameKeys,
          Sql.Apart key { a with pubkey, createdAt, releasedAt := none } b := by
      intro a _ b memberB hitA missB key index
      rw [nameKeys, List.mem_cons, List.mem_singleton] at index
      rcases index with rfl | rfl
      · refine .inr fun same => ?_
        rw [← Option.some.inj same] at missB
        exact absurd hitA (Bool.eq_false_iff.1 missB)
      · by_cases active : b.releasedAt = none
        · exact .inr fun same => keyless b memberB active (by simpa [active] using same)
        · exact .inr (by simp [active])
    obtain ⟨names, updated⟩ := db.names.update_works _ nameKey _ name_keyed apart
    exact ⟨_, written_ok.2 ⟨names, updated, rfl, rfl⟩⟩

/-- A registration that changes a row gives the name to the key. -/
theorem registerName_takes {db db' : Db} {name pubkey : String} {createdAt : Int} {n : Nat}
    (ok : db.registerName name pubkey createdAt = .ok (n, db')) (changed : n ≠ 0) :
    db'.lookup name = some pubkey := by
  unfold registerName at ok
  split at ok
  · obtain ⟨names, inserted, -, rfl⟩ := written_ok.1 ok
    have rows := Sql.Table.insert_eq_some.1 inserted
    exact lookup_eq_some.2 ⟨_, rows ▸ List.mem_cons_self, rfl, rfl, rfl⟩
  · rename_i row found
    split at ok
    · cases ok
      exact absurd rfl changed
    · obtain ⟨names, updated, -, rfl⟩ := written_ok.1 ok
      have rows := Sql.Table.update_eq_some.1 updated
      obtain ⟨member, hit⟩ := (db.names.select_eq_some _ nameKey name_keyed).1 found
      exact lookup_eq_some.2 ⟨{ row with pubkey, createdAt, releasedAt := none },
        rows ▸ Sql.mem_map_rewrite.2 ⟨row, member, .inl ⟨hit, rfl⟩⟩, beq_iff_eq.1 hit, rfl, rfl⟩

/-- The transaction reports a changed owner only when the seller is not the
owner. -/
theorem runClaimTxn_ownerChanged {db : Db} {fault : Option Stage} {offer : OfferRow}
    {excessHex : String} {kernelHeight : Option Int} {now : Int}
    (refused : db.runClaimTxn fault offer excessHex kernelHeight now = .error .ownerChanged) :
    db.lookup offer.name ≠ some offer.sellerPubkey := by
  unfold runClaimTxn at refused
  split at refused
  · cases refused
  split at refused
  · cases refused
  split at refused
  · rename_i none_
    exact fun owned => none_ (ownedBy_hits.2 owned)
  split at refused
  · cases refused
  split at refused
  · cases refused
  split at refused
  · cases refused
  split at refused
  · cases refused
  split at refused <;> cases refused

end Db

end Nip05d
