import Nip05d.Routes

/-!
# What a request can rely on

Between two sections of a request other requests run and the environment
moves. Offers evolve: their columns stay, and one that has left `live` keeps
its death record. `Later` is what every request may rely on. When requests are
handled one after the other nothing happens in between: `Own` relates two
points of one request, and `Quiet` two points between which it wrote nothing.

The proofs about handlers are made once for any pair of relations that fit
together (`Views`), a wide one across everything and a narrow one across the
steps that do not write to the store.
-/

namespace Nip05d

open Concurrent

/-- The columns that an event determines. -/
def OfferRow.columns (o : OfferRow) : NewOffer where
  offerId := o.offerId
  eventJson := o.eventJson
  name := o.name
  sellerPubkey := o.sellerPubkey
  buyerPubkey := o.buyerPubkey
  priceNanogrin := o.priceNanogrin
  proofAddress := o.proofAddress
  expiration := o.expiration

/-- An offer at a later time of a run. -/
structure OfferRow.Becomes (o o' : OfferRow) : Prop where
  columns : o'.columns = o.columns
  createdAt : o'.createdAt = o.createdAt
  settled : o.status ≠ .live → o'.status ≠ .live ∧
    o'.endHeight = o.endHeight ∧ o'.stateChangedAt = o.stateChangedAt

namespace OfferRow.Becomes

variable {a b c : OfferRow}

theorem refl (o : OfferRow) : o.Becomes o := ⟨rfl, rfl, fun h => ⟨h, rfl, rfl⟩⟩

theorem trans (first : a.Becomes b) (second : b.Becomes c) : a.Becomes c := by
  refine ⟨second.columns.trans first.columns, second.createdAt.trans first.createdAt, fun dead => ?_⟩
  obtain ⟨deadB, heightB, changedB⟩ := first.settled dead
  obtain ⟨deadC, heightC, changedC⟩ := second.settled deadB
  exact ⟨deadC, heightC.trans heightB, changedC.trans changedB⟩

theorem offerId (h : a.Becomes b) : b.offerId = a.offerId := congrArg NewOffer.offerId h.columns

theorem name (h : a.Becomes b) : b.name = a.name := congrArg NewOffer.name h.columns

theorem sellerPubkey (h : a.Becomes b) : b.sellerPubkey = a.sellerPubkey :=
  congrArg NewOffer.sellerPubkey h.columns

theorem buyerPubkey (h : a.Becomes b) : b.buyerPubkey = a.buyerPubkey :=
  congrArg NewOffer.buyerPubkey h.columns

theorem priceNanogrin (h : a.Becomes b) : b.priceNanogrin = a.priceNanogrin :=
  congrArg NewOffer.priceNanogrin h.columns

theorem proofAddress (h : a.Becomes b) : b.proofAddress = a.proofAddress :=
  congrArg NewOffer.proofAddress h.columns

theorem expiration (h : a.Becomes b) : b.expiration = a.expiration :=
  congrArg NewOffer.expiration h.columns

end OfferRow.Becomes

/-- A store at a later time of a run: offers evolve, transfers stay. -/
structure Db.Evolves (a b : Db) : Prop where
  offers : ∀ o ∈ a.offers.rows, ∃ o' ∈ b.offers.rows, o.Becomes o'
  transfers : ∀ t ∈ a.transfers.rows, t ∈ b.transfers.rows

namespace Db.Evolves

variable {a b c : Db}

theorem refl (db : Db) : db.Evolves db := ⟨fun o member => ⟨o, member, .refl o⟩, fun _ => id⟩

theorem trans (first : a.Evolves b) (second : b.Evolves c) : a.Evolves c := by
  refine ⟨fun o member => ?_, fun t member => second.transfers t (first.transfers t member)⟩
  obtain ⟨o', member', becomes⟩ := first.offers o member
  obtain ⟨o'', member'', becomes'⟩ := second.offers o' member'
  exact ⟨o'', member'', becomes.trans becomes'⟩

/-- The row that an offer has become is the one with its id. -/
theorem becomes (h : a.Evolves b) {o o' : OfferRow} (old : o ∈ a.offers.rows)
    (new : o' ∈ b.offers.rows) (same : o'.offerId = o.offerId) : o.Becomes o' := by
  obtain ⟨o'', member, becomes⟩ := h.offers o old
  rwa [Db.offer_eq new member (same.trans becomes.offerId.symm)]

/-- Rewriting offers into what they may become. -/
theorem of_rewrite {where' : OfferRow → Bool} {set : OfferRow → OfferRow}
    (rows : b.offers.rows = a.offers.rows.map (Sql.rewrite where' set))
    (becomes : ∀ o, where' o = true → o.Becomes (set o))
    (transfers : ∀ t ∈ a.transfers.rows, t ∈ b.transfers.rows) : a.Evolves b := by
  refine ⟨fun o member => ⟨_, rows ▸ List.mem_map_of_mem member, ?_⟩, transfers⟩
  cases hit : where' o with
  | true => rw [Sql.rewrite_hit hit]; exact becomes o hit
  | false => rw [Sql.rewrite_miss hit]; exact .refl o

end Db.Evolves

/-! ## What sections change -/

namespace World

theorem unixNow_mono {w s : World} (clock : w.clock.nanos ≤ s.clock.nanos) :
    w.unixNow ≤ s.unixNow :=
  Int.ofNat_le.2 (Nat.div_le_div_right clock)

theorem execute_cases (w : World) (statement : Db → Written) :
    (w.execute statement).2 = w ∨ ∃ n db, w.fault = none ∧ statement w.db = .ok (n, db) ∧
      (w.execute statement).1 = .ok n ∧ (w.execute statement).2 = { w with db } := by
  unfold execute
  split
  · exact .inl rfl
  · rename_i working
    cases answer : statement w.db with
    | error e => exact .inl rfl
    | ok written => exact .inr ⟨_, _, by simpa using working, rfl, rfl, rfl⟩

/-- A statement that is not refused has worked. -/
theorem execute_ok {w : World} {statement : Db → Written} {n : Nat}
    (ok : (w.execute statement).1 = .ok n) : ∃ db, w.fault = none ∧
      statement w.db = .ok (n, db) ∧ (w.execute statement).2 = { w with db } := by
  unfold execute at ok ⊢
  split at ok
  · cases ok
  · rename_i working
    split at ok
    · rename_i m db done
      cases ok
      exact ⟨db, by simpa using working, done, by rw [if_neg working]⟩
    · cases ok

theorem claimTxn_cases (w : World) (offer : OfferRow) (excessHex : String)
    (kernelHeight : Option Int) (now : Int) :
    (∃ db, Db.Claimed w.db db offer excessHex kernelHeight now ∧
      (w.claimTxn offer excessHex kernelHeight now) = (.ok (), { w with db })) ∨
    ∃ e, w.db.runClaimTxn w.fault offer excessHex kernelHeight now = .error e ∧
      (w.claimTxn offer excessHex kernelHeight now) = (.error e, w) := by
  unfold claimTxn
  cases answer : w.db.runClaimTxn w.fault offer excessHex kernelHeight now with
  | error e => exact .inr ⟨e, rfl, rfl⟩
  | ok db => exact .inl ⟨db, Db.runClaimTxn_ok answer, rfl⟩

theorem claimTxn_working {w : World} {offer : OfferRow} {excessHex : String}
    {kernelHeight : Option Int} {now : Int}
    (ok : (w.claimTxn offer excessHex kernelHeight now).1 = .ok ()) : w.fault = none := by
  unfold claimTxn at ok
  split at ok
  · rename_i db committed
    exact Db.runClaimTxn_working committed
  · cases ok

theorem claimTxn_ownerChanged {w : World} {offer : OfferRow} {excessHex : String}
    {kernelHeight : Option Int} {now : Int}
    (refused : (w.claimTxn offer excessHex kernelHeight now).1 = .error .ownerChanged) :
    w.query (·.lookup offer.name) ≠ some offer.sellerPubkey := by
  unfold query
  split
  · simp
  · obtain ⟨db, -, same⟩ | ⟨e, error, same⟩ := w.claimTxn_cases offer excessHex kernelHeight now
    · rw [same] at refused; cases refused
    · rw [same] at refused
      cases refused
      exact Db.runClaimTxn_ownerChanged error

end World

/-- Sections that do not write to the store. -/
def Stmt.Passive : Stmt → Prop
  | .look | .allow .. | .authEventFresh .. | .cooldownActive .. | .recordOp .. => True
  | _ => False

namespace Stmt

variable (cfg : Config) (t : Stmt) (w : World)

/-- A section changes nothing but the two maps, or the store as well. -/
theorem apply_frame : (t.apply cfg w).clock = w.clock ∧ (t.apply cfg w).node = w.node ∧
    (t.apply cfg w).fault = w.fault := by
  have execute : ∀ statement : Db → Written, (w.execute statement).2.clock = w.clock ∧
      (w.execute statement).2.node = w.node ∧ (w.execute statement).2.fault = w.fault := by
    intro statement
    obtain same | ⟨n, db, -, -, -, same⟩ := w.execute_cases statement
    · rw [same]; exact ⟨rfl, rfl, rfl⟩
    · rw [same]; exact ⟨rfl, rfl, rfl⟩
  cases t with
  | claimTxn offer excessHex kernelHeight now =>
    simp only [apply]
    obtain ⟨db, -, same⟩ | ⟨e, -, same⟩ := w.claimTxn_cases offer excessHex kernelHeight now
    · rw [same]; exact ⟨rfl, rfl, rfl⟩
    · rw [same]; exact ⟨rfl, rfl, rfl⟩
  | look => exact ⟨rfl, rfl, rfl⟩
  | allow => exact ⟨rfl, rfl, rfl⟩
  | authEventFresh => exact ⟨rfl, rfl, rfl⟩
  | cooldownActive => exact ⟨rfl, rfl, rfl⟩
  | recordOp => exact ⟨rfl, rfl, rfl⟩
  | registerName => exact execute _
  | releaseName => exact execute _
  | insertOffer => exact execute _
  | markOfferDead => exact execute _
  | revokeExpired => exact execute _

theorem apply_unixNow : (t.apply cfg w).unixNow = w.unixNow := by
  rw [World.unixNow, World.unixNow, (t.apply_frame cfg w).1]

/-- Only the use of an auth event is remembered. -/
theorem apply_seenAuth {t : Stmt} (other : ∀ id now, t ≠ .authEventFresh id now) :
    (t.apply cfg w).seenAuth = w.seenAuth := by
  have execute : ∀ statement : Db → Written, (w.execute statement).2.seenAuth = w.seenAuth := by
    intro statement
    obtain same | ⟨n, db, -, -, -, same⟩ := w.execute_cases statement
    · rw [same]
    · rw [same]
  cases t with
  | authEventFresh id now => exact absurd rfl (other id now)
  | claimTxn offer excessHex kernelHeight now =>
    simp only [apply]
    obtain ⟨db, -, same⟩ | ⟨e, -, same⟩ := w.claimTxn_cases offer excessHex kernelHeight now
    · rw [same]
    · rw [same]
  | look | allow | cooldownActive | recordOp => rfl
  | registerName => exact execute _
  | releaseName => exact execute _
  | insertOffer => exact execute _
  | markOfferDead => exact execute _
  | revokeExpired => exact execute _

/-- Hits are kept in three kinds of sections. -/
theorem apply_rate {t : Stmt}
    (limit : ∀ bucket ip max window now, t ≠ .allow bucket ip max window now)
    (check : ∀ bucket key window now, t ≠ .cooldownActive bucket key window now)
    (record : ∀ bucket key, t ≠ .recordOp bucket key) : (t.apply cfg w).rate = w.rate := by
  have execute : ∀ statement : Db → Written, (w.execute statement).2.rate = w.rate := by
    intro statement
    obtain same | ⟨n, db, -, -, -, same⟩ := w.execute_cases statement
    · rw [same]
    · rw [same]
  cases t with
  | allow bucket ip max window now => exact absurd rfl (limit bucket ip max window now)
  | cooldownActive bucket key window now => exact absurd rfl (check bucket key window now)
  | recordOp bucket key => exact absurd rfl (record bucket key)
  | claimTxn offer excessHex kernelHeight now =>
    simp only [apply]
    obtain ⟨db, -, same⟩ | ⟨e, -, same⟩ := w.claimTxn_cases offer excessHex kernelHeight now
    · rw [same]
    · rw [same]
  | look | authEventFresh => rfl
  | registerName => exact execute _
  | releaseName => exact execute _
  | insertOffer => exact execute _
  | markOfferDead => exact execute _
  | revokeExpired => exact execute _

theorem apply_passive {t : Stmt} (passive : t.Passive) : (t.apply cfg w).db = w.db := by
  cases t <;> first | rfl | exact absurd passive not_false

/-- Every section lets the store evolve, whatever led to it. -/
theorem apply_evolves : w.db.Evolves (t.apply cfg w).db := by
  have execute : ∀ statement : Db → Written,
      (∀ n db, statement w.db = .ok (n, db) → w.db.Evolves db) →
      w.db.Evolves (w.execute statement).2.db := by
    intro statement evolves
    obtain same | ⟨n, db, -, ok, -, same⟩ := w.execute_cases statement
    · rw [same]; exact .refl _
    · rw [same]; exact evolves n db ok
  have offersSame : ∀ {a b : Db}, b.offers = a.offers → b.transfers = a.transfers → a.Evolves b := by
    intro a b offers transfers
    refine ⟨fun o member => ⟨o, offers ▸ member, .refl o⟩, fun t member => transfers ▸ member⟩
  cases t with
  | registerName name pubkey =>
    refine execute _ fun n db ok => ?_
    obtain rfl | ⟨offers, transfers, -⟩ := Db.registerName_ok ok
    · exact .refl _
    · exact offersSame offers transfers
  | releaseName name =>
    refine execute _ fun n db ok => ?_
    obtain ⟨offers, transfers, -⟩ := Db.releaseName_ok ok
    exact offersSame offers transfers
  | insertOffer o createdAt =>
    refine execute _ fun n db ok => ?_
    obtain ⟨-, transfers, rows, -⟩ := Db.insertOffer_ok ok
    exact ⟨fun o' member => ⟨o', rows ▸ List.mem_cons_of_mem _ member, .refl o'⟩,
      fun t member => transfers ▸ member⟩
  | markOfferDead offerId status endHeight stateChangedAt =>
    refine execute _ fun n db ok => ?_
    obtain ⟨-, transfers, rows⟩ := Db.markOfferDead_ok ok
    refine .of_rewrite rows (fun o hit => ?_) fun t member => transfers ▸ member
    have live : o.status = .live := by simpa using (Bool.and_eq_true_iff.1 hit).2
    exact ⟨rfl, rfl, fun dead => absurd live dead⟩
  | revokeExpired offerId =>
    refine execute _ fun n db ok => ?_
    obtain ⟨-, transfers, rows⟩ := Db.revokeExpired_ok ok
    exact .of_rewrite rows (fun o _ => ⟨rfl, rfl, fun _ => ⟨by simp, rfl, rfl⟩⟩)
      fun t member => transfers ▸ member
  | claimTxn offer excessHex kernelHeight now =>
    simp only [apply]
    obtain ⟨db, claimed, same⟩ | ⟨e, -, same⟩ := w.claimTxn_cases offer excessHex kernelHeight now
    · rw [same]
      exact .of_rewrite claimed.offers (fun o _ => ⟨rfl, rfl, fun _ => ⟨by simp, rfl, rfl⟩⟩)
        fun t member => claimed.transfers ▸ List.mem_cons_of_mem _ member
    · rw [same]; exact .refl _
  | look => exact .refl _
  | allow => exact .refl _
  | authEventFresh => exact .refl _
  | cooldownActive => exact .refl _
  | recordOp => exact .refl _

end Stmt

/-! ## Relations between points of a run -/

/-- What any two points of a run are related by. -/
structure Later (h h' : Hist World) : Prop where
  states : h.states <:+ h'.states
  clock : h.now.clock.nanos ≤ h'.now.clock.nanos
  db : h.now.db.Evolves h'.now.db

/-- Two points of one request that runs alone. -/
structure Own (h h' : Hist World) : Prop where
  states : h.states <:+ h'.states
  clock : h'.now.clock = h.now.clock
  node : h'.now.node = h.now.node
  fault : h'.now.fault = h.now.fault
  db : h.now.db.Evolves h'.now.db

/-- Two points of one request that runs alone and writes nothing in between. -/
structure Quiet (h h' : Hist World) : Prop where
  own : Own h h'
  db : h'.now.db = h.now.db

/-- A wide relation across everything a request may see happen, and a narrow one
across steps that do not write to the store. -/
structure Views (cfg : Config) (L R : Hist World → Hist World → Prop) : Prop where
  refl : ∀ h, R h h
  trans : ∀ {a b c}, R a b → R b c → R a c
  wide_trans : ∀ {a b c}, L a b → L b c → L a c
  wide : ∀ {a b}, R a b → L a b
  own : ∀ h (t : Stmt), L h (h.push (t.apply cfg h.now))
  passive : ∀ h (t : Stmt), t.Passive → R h (h.push (t.apply cfg h.now))

theorem suffix_push (h : Hist World) (s : World) : h.states <:+ (h.push s).states :=
  List.suffix_cons s h.states

theorem Later.section_ (cfg : Config) (h : Hist World) (t : Stmt) :
    Later h (h.push (t.apply cfg h.now)) :=
  ⟨suffix_push _ _, by rw [Hist.push_now, (t.apply_frame cfg h.now).1], t.apply_evolves cfg h.now⟩

theorem Own.section_ (cfg : Config) (h : Hist World) (t : Stmt) :
    Own h (h.push (t.apply cfg h.now)) := by
  obtain ⟨clock, node, fault⟩ := t.apply_frame cfg h.now
  exact ⟨suffix_push _ _, clock, node, fault, t.apply_evolves cfg h.now⟩

theorem Later.refl (h : Hist World) : Later h h := ⟨List.suffix_rfl, le_rfl, .refl _⟩

theorem Later.trans {a b c : Hist World} (first : Later a b) (second : Later b c) : Later a c :=
  ⟨first.states.trans second.states, first.clock.trans second.clock, first.db.trans second.db⟩

theorem Own.refl (h : Hist World) : Own h h := ⟨List.suffix_rfl, rfl, rfl, rfl, .refl _⟩

theorem Own.trans {a b c : Hist World} (first : Own a b) (second : Own b c) : Own a c :=
  ⟨first.states.trans second.states, second.clock.trans first.clock,
    second.node.trans first.node, second.fault.trans first.fault, first.db.trans second.db⟩

theorem Own.later {a b : Hist World} (h : Own a b) : Later a b :=
  ⟨h.states, by rw [h.clock], h.db⟩

/-- Requests that interleave. -/
theorem Later.views (cfg : Config) : Views cfg Later Later where
  refl := .refl
  trans := .trans
  wide_trans := .trans
  wide := id
  own := section_ cfg
  passive h t _ := section_ cfg h t

/-- Requests that are handled one after the other. -/
theorem Quiet.views (cfg : Config) : Views cfg Own Quiet where
  refl h := ⟨.refl h, rfl⟩
  trans first second := ⟨first.own.trans second.own, second.db.trans first.db⟩
  wide_trans := .trans
  wide := Quiet.own
  own := Own.section_ cfg
  passive h t passive := ⟨.section_ cfg h t, t.apply_passive cfg h.now passive⟩

/-- A move of the environment. -/
theorem Later.around {h : Hist World} {e : Around} {s : World} (moved : e.move h.now = some s) :
    Later h (h.push s) := by
  cases e with
  | advance clock =>
    simp only [Around.move] at moved
    split at moved
    · cases moved
      exact ⟨suffix_push _ _, by assumption, .refl _⟩
    · cases moved
  | chain node => cases moved; exact ⟨suffix_push _ _, le_rfl, .refl _⟩
  | database fault => cases moved; exact ⟨suffix_push _ _, le_rfl, .refl _⟩

/-- The environment leaves the store and the maps alone. -/
theorem Around.move_frame {e : Around} {w s : World} (moved : e.move w = some s) :
    s.db = w.db ∧ s.rate = w.rate ∧ s.seenAuth = w.seenAuth ∧
      w.clock.nanos ≤ s.clock.nanos := by
  cases e with
  | advance clock =>
    simp only [move] at moved
    split at moved
    · cases moved
      exact ⟨rfl, rfl, rfl, by assumption⟩
    · cases moved
  | chain node => cases moved; exact ⟨rfl, rfl, rfl, le_rfl⟩
  | database fault => cases moved; exact ⟨rfl, rfl, rfl, le_rfl⟩

end Nip05d
