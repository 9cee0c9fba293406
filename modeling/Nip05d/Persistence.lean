import Nip05d.Custody
import Nip05d.Directory
import Nip05d.Payments

/-!
# What survives a restart

The rate limits, the cooldowns and the auth events that were used are forgotten
when the process ends; the tables are not, and what they guarantee holds over
all lives of the database: a kernel and an offer sell one name, every sale on
record was paid for and authorised, perhaps for an offer that was lodged in an
earlier life, and every active name has a chain of custody that goes back to
its registration, under the configuration of that life.
-/

namespace Nip05d

open Auth Concurrent Handlers Names Proof Registry Text

/-- A step of some life of the authority. -/
abbrev LifeStep := Concurrent.Entry App World Stmt Request Around Response

/-- A step commits the sale of an offer for a kernel. -/
def CommitsSale (s : Step) (offerId excessHex : String) : Prop :=
  ∃ i r offer kernelHeight now, s.event = .run i ∧
    s.before.due i = some (r, .claimTxn offer excessHex kernelHeight now) ∧
    offer.offerId = offerId ∧
    (s.before.hist.now.claimTxn offer excessHex kernelHeight now).1 = .ok ()

/-- A sale is on record. -/
def OnRecord (db : Db) (offerId excessHex : String) : Prop :=
  ∃ row ∈ db.transfers.rows, row.offerId = offerId ∧ row.kernelExcess = excessHex

section

variable {app : App} {w : World} {c c' : Conf World Stmt Request Response}
  {e : Concurrent.Event Request Around} {offerId excessHex : String}

theorem OnRecord.later {a b : Db} (evolves : a.Evolves b) (recorded : OnRecord a offerId excessHex) :
    OnRecord b offerId excessHex := by
  obtain ⟨row, member, same⟩ := recorded
  exact ⟨row, evolves.transfers row member, same⟩

/-- A sale that is committed finds neither its offer nor its kernel on record,
and puts both there; its excess is the spelling of its bytes. -/
theorem CommitsSale.records (reach : Reachable ((authority app).rooted w) c)
    (next : (authority app).step c e = some c') (commits : CommitsSale ⟨c, e, c'⟩ offerId excessHex) :
    (∀ row ∈ c.hist.now.db.transfers.rows, row.offerId ≠ offerId ∧ row.kernelExcess ≠ excessHex) ∧
      OnRecord c'.hist.now.db offerId excessHex ∧
      ∃ bytes, Hex.decode excessHex = some bytes ∧ excessHex = Hex.encode bytes := by
  obtain ⟨i, r, offer, kernelHeight, now, rfl, due, rfl, done⟩ := commits
  dsimp only at due done
  obtain ⟨db, claimed, same⟩ | ⟨e, -, same⟩ :=
    c.hist.now.claimTxn_cases offer excessHex kernelHeight now
  · refine ⟨claimed.unused, ?_, ?_⟩
    · refine ⟨Db.transferRow offer excessHex kernelHeight now, ?_, rfl, rfl⟩
      rw [rooted_due reach next due, Hist.push_now, Stmt.apply, same, claimed.transfers]
      exact List.mem_cons_self
    · cases rooted_because reach due with
      | claim grounds =>
        obtain ⟨bytes, decoded, -, spelling⟩ := grounds.spelled
        exact ⟨bytes, decoded, spelling⟩
  · rw [same] at done
    cases done

end

/-! ## A kernel and an offer sell once -/

/-- Two sales differ in the offer and in the bytes of the kernel. -/
def Differ (s s' : Step) : Prop :=
  ∀ offerId excessHex offerId' excessHex', CommitsSale s offerId excessHex →
    CommitsSale s' offerId' excessHex' →
    offerId ≠ offerId' ∧ Hex.decode excessHex ≠ Hex.decode excessHex'

theorem Differ.symm {s s' : Step} (differ : Differ s s') : Differ s' s := by
  intro offerId excessHex offerId' excessHex' first second
  obtain ⟨offer, kernel⟩ := differ _ _ _ _ second first
  exact ⟨offer.symm, kernel.symm⟩

/-- What all steps so far have left in the store. -/
structure Kept (log : List LifeStep) (w : World) : Prop where
  evolved : ∀ e ∈ log, e.step.after.hist.now.db.Evolves w.db
  recorded : ∀ e ∈ log, ∀ offerId excessHex, CommitsSale e.step offerId excessHex →
    OnRecord w.db offerId excessHex ∧
      ∃ bytes, Hex.decode excessHex = some bytes ∧ excessHex = Hex.encode bytes
  differ : log.Pairwise fun e e' => Differ e.step e'.step

section

variable {lives : List (Life App World Stmt Request Around Response)} {w : World}

theorem kept (run : deployment.Lives lives w) : Kept (entries lives) w := by
  refine run.invariant Kept ?_ ?_ ?_
  · exact fun s _ => ⟨List.forall_mem_nil _, List.forall_mem_nil _, .nil⟩
  · intro log app s s' inv opens
    have same : s.db.Evolves s'.db := opens.db ▸ .refl s.db
    exact ⟨fun e member => (inv.evolved e member).trans same, fun e member id excess commits =>
      ⟨(inv.recorded e member id excess commits).1.later same,
        (inv.recorded e member id excess commits).2⟩, inv.differ⟩
  · intro log n app s c e c' inv reach next
    have later := (rooted_later reach next).db
    constructor
    · intro x member
      rw [List.mem_append, List.mem_singleton] at member
      rcases member with old | rfl
      · exact (inv.evolved x old).trans later
      · exact .refl _
    · intro x member id excess commits
      rw [List.mem_append, List.mem_singleton] at member
      rcases member with old | rfl
      · obtain ⟨recorded, spelling⟩ := inv.recorded x old id excess commits
        exact ⟨recorded.later later, spelling⟩
      · exact (commits.records reach next).2
    · rw [List.pairwise_append]
      refine ⟨inv.differ, List.pairwise_singleton _ _, fun x old y last => ?_⟩
      rw [List.mem_singleton] at last
      subst last
      intro id excess id' excess' first second
      obtain ⟨⟨row, member, sameId, sameExcess⟩, bytes, decoded, text⟩ :=
        inv.recorded x old id excess first
      obtain ⟨unused, -, bytes', decoded', text'⟩ := second.records reach next
      obtain ⟨otherId, otherExcess⟩ := unused row member
      refine ⟨sameId ▸ otherId, fun same => otherExcess ?_⟩
      rw [decoded, decoded', Option.some.injEq] at same
      rw [sameExcess, text, text', same]

/-- A claim of a life is answered 201. -/
structure SoldIn (lives : List (Life App World Stmt Request Around Response)) (n i : Nat)
    (offerId : String) (proof : ParsedPaymentProof) : Prop where
  answered : ∃ life headers body response, lives[n]? = some life ∧
    life.last.procs[i]? = some (.claim headers body, .ret response) ∧ response.status = 201 ∧
    claimBody life.params body = .ok (offerId, proof)

/-- The step in which a claim that is answered 201 has committed its sale. -/
theorem SoldIn.step (run : deployment.Lives lives w) {n i : Nat} {offerId : String}
    {proof : ParsedPaymentProof} (sold : SoldIn lives n i offerId proof) :
    ∃ e ∈ entries lives, e.life = n ∧ e.step.event = .run i ∧
      CommitsSale e.step offerId proof.excessHex := by
  obtain ⟨life, headers, body, response, found, done, status, parsed⟩ := sold.answered
  have here : Run (authority life.params) (.start life.start) life.steps life.last :=
    run.run_mem found
  have told : ClaimTold life.params headers body (own i life.steps) response :=
    here.paths_start handlers_told done headers body rfl
  obtain refused | ⟨key, id, w', offerId', proof', -, -, parsed', committed | repeated⟩ := told
  · omega
  · rw [parsed] at parsed'
    cases parsed'
    cases committed with
    | @intro offer kernelHeight now w'' same _ _ ran committed =>
      obtain ⟨s, member, event, ⟨r, due⟩, rfl⟩ := mem_own.1 ran
      exact ⟨⟨n, life.params, s⟩, mem_entries.2 ⟨life, found, rfl, member⟩, rfl, event, i, r, offer,
        kernelHeight, now, event, due, same, committed⟩
  · omega

/-- **A kernel and an offer sell one name, in all lives of the database**, and
the sale stays on record. -/
theorem sells_once_ever (run : deployment.Lives lives w) {n i n' i' : Nat}
    {offerId offerId' : String} {proof proof' : ParsedPaymentProof}
    (sold : SoldIn lives n i offerId proof) (sold' : SoldIn lives n' i' offerId' proof')
    (apart : (n, i) ≠ (n', i')) :
    offerId ≠ offerId' ∧ Hex.decode proof.excessHex ≠ Hex.decode proof'.excessHex ∧
      OnRecord w.db offerId proof.excessHex ∧ OnRecord w.db offerId' proof'.excessHex := by
  have kept := kept run
  obtain ⟨e, member, rfl, event, commits⟩ := sold.step run
  obtain ⟨e', member', rfl, event', commits'⟩ := sold'.step run
  have other : e ≠ e' := by
    rintro rfl
    rw [event] at event'
    cases event'
    exact apart rfl
  have differ : Differ e.step e'.step := by
    obtain ⟨first, between, later, all⟩ | ⟨first, between, later, all⟩ :=
      two_of_mem member member' other
    · have pairs := kept.differ
      rw [all, List.pairwise_append, List.pairwise_cons] at pairs
      exact pairs.2.1.1 e' (by simp)
    · have pairs := kept.differ
      rw [all, List.pairwise_append, List.pairwise_cons] at pairs
      exact (pairs.2.1.1 e (by simp)).symm
  obtain ⟨offers, kernels⟩ := differ _ _ _ _ commits commits'
  exact ⟨offers, kernels, (kept.recorded e member _ _ commits).1,
    (kept.recorded e' member' _ _ commits').1⟩

end

/-! ## Every sale on record was paid for -/

/-- A step has sold a name for an offer on record: the claim was authorised by
the buyer, its proof pays the offer, and the node has confirmed the kernel. -/
structure Settles (app : App) (s : Step) (o : OfferRow) (row : TransferRow) : Prop where
  absent : row ∉ s.before.hist.now.db.transfers.rows
  written : row ∈ s.after.hist.now.db.transfers.rows
  offer : o ∈ s.before.hist.now.db.offers.rows ∧ o.offerId = row.offerId ∧ o.name = row.name ∧
    o.sellerPubkey = row.sellerPubkey ∧ o.buyerPubkey = row.buyerPubkey ∧
    o.priceNanogrin = row.priceNanogrin
  claim : ∃ i headers body offer kernelHeight now proof, s.event = .run i ∧
    s.before.due i =
      some (.claim headers body, .claimTxn offer row.kernelExcess kernelHeight now) ∧
    Authenticated app Later (.claim headers body) row.buyerPubkey s.before.hist ∧
    claimBody app body = .ok (row.offerId, proof) ∧ Pays app o row.kernelExcess proof
  kernel : ∃ h₀ k, Later h₀ s.before.hist ∧ h₀.now.kernel row.kernelExcess = .ok k ∧
    k.found = true ∧ app.cfg.transferMinConf ≤ k.confirmations.toNat ∧
    row.kernelHeight = k.height.map heightAsI64
  moves : Moves s row.name row.sellerPubkey row.buyerPubkey row.claimedAt

/-- An offer was inserted in a step of some life. -/
def LodgedIn (log : List LifeStep) (o : OfferRow) : Prop :=
  ∃ e ∈ log, Inserted e.params o e.step

/-- Where the rows of the two tables come from. -/
structure Accounted (log : List LifeStep) (w : World) : Prop where
  offers : ∀ o ∈ w.db.offers.rows, LodgedIn log o
  transfers : ∀ row ∈ w.db.transfers.rows, ∃ earlier e later o, log = earlier ++ e :: later ∧
    LodgedIn earlier o ∧ Settles e.params e.step o row

section

variable {app : App} {w : World} {c c' : Conf World Stmt Request Response}
  {e : Concurrent.Event Request Around} {o o' : OfferRow} {log : List LifeStep}

/-- An offer that was inserted is signed. -/
theorem Inserted.signed {s : Step} (inserted : Inserted app o s) : ∃ event, Signed app o event := by
  obtain ⟨-, -, i, headers, body, createdAt, -, -, grounds⟩ := inserted
  have lodged : Lodged app { o with createdAt } s.before.hist := ⟨headers, body, _, .refl _, grounds⟩
  obtain ⟨event, signed⟩ := lodged.signed
  exact ⟨event, signed.verified, signed.kind, signed.domain, signed.columns, signed.id, signed.seller⟩

theorem LodgedIn.later {e : LifeStep} (lodged : LodgedIn log o) (becomes : o.Becomes o') :
    LodgedIn (log ++ [e]) o' := by
  obtain ⟨e₀, member, inserted⟩ := lodged
  exact ⟨e₀, List.mem_append_left _ member, inserted.same becomes.columns⟩

/-- A step that writes a transfer settles a sale of an offer on record. -/
theorem step_settles (reach : Reachable ((authority app).rooted w) c)
    (next : (authority app).step c e = some c')
    (lodged : ∀ o ∈ c.hist.now.db.offers.rows, LodgedIn log o) {row : TransferRow}
    (absent : row ∉ c.hist.now.db.transfers.rows) (written : row ∈ c'.hist.now.db.transfers.rows) :
    ∃ o, LodgedIn log o ∧ Settles app ⟨c, e, c'⟩ o row := by
  obtain ⟨i, r, t, rfl, due, hist⟩ | ⟨-, same⟩ := rooted_step reach next
  · have here := written
    rw [hist, Hist.push_now] at here
    obtain old | ⟨offer, excessHex, kernelHeight, now, rfl, claimed, rfl⟩ := transfers_after here
    · exact absurd old absent
    have after : c'.hist.now =
        (Stmt.claimTxn offer excessHex kernelHeight now).apply app.cfg c.hist.now := by
      rw [hist, Hist.push_now]
    rw [← after] at claimed
    cases rooted_because reach due with
    | @claim start headers body _ _ _ _ _ grounds =>
      obtain ⟨o, stored, becomes⟩ := grounds.row
      obtain ⟨e₀, earlier, inserted⟩ := lodged o stored
      obtain ⟨event, signed⟩ := inserted.signed
      obtain ⟨proof, parsed, pays⟩ := grounds.pays becomes (offerColumns_price signed.columns)
      obtain ⟨h₀, k, since, reported, found, confirmed, height⟩ := grounds.kernel
      refine ⟨o, ⟨e₀, earlier, inserted⟩, ?_⟩
      exact {
        absent
        written
        offer := ⟨stored, becomes.offerId, becomes.name, becomes.sellerPubkey,
          becomes.buyerPubkey, becomes.priceNanogrin⟩
        claim := ⟨i, headers, body, offer, kernelHeight, now, proof, rfl, due,
          grounds.authenticated, parsed, pays⟩
        kernel := ⟨h₀, k, since, reported, found, confirmed, height⟩
        moves := claimed_moves (s := ⟨c, .run i, c'⟩) claimed }
  · rw [same] at written
    exact absurd written absent

/-- An offer after a step was there before, or the step has inserted it. -/
theorem step_lodges {e₀ : LifeStep} (params : e₀.params = app) (step : e₀.step = ⟨c, e, c'⟩)
    (reach : Reachable ((authority app).rooted w) c) (next : (authority app).step c e = some c')
    (lodged : ∀ o ∈ c.hist.now.db.offers.rows, LodgedIn log o) (member : o ∈ c'.hist.now.db.offers.rows) :
    LodgedIn (log ++ [e₀]) o := by
  obtain ⟨i, r, t, rfl, due, hist⟩ | ⟨-, same⟩ := rooted_step reach next
  · rw [hist, Hist.push_now] at member
    obtain ⟨old, before, step⟩ | ⟨n, createdAt, rfl, rfl, -, unused⟩ := offers_after member
    · exact (lodged old before).later step.becomes
    · refine ⟨e₀, by simp, ?_⟩
      rw [params, step]
      cases rooted_because reach due with
      | @lodge headers body _ _ _ grounds =>
        refine ⟨unused, ⟨n.row createdAt, ?_, rfl⟩, i, headers, body, createdAt, rfl, due, grounds⟩
        rw [hist, Hist.push_now]
        exact member
  · rw [same] at member
    exact (lodged o member).later (.refl o)

variable {lives : List (Life App World Stmt Request Around Response)}

theorem accounted (run : deployment.Lives lives w) : Accounted (entries lives) w := by
  refine run.invariant Accounted ?_ ?_ ?_
  · intro s blank
    constructor
    · rw [show s.db = .empty from blank]
      exact List.forall_mem_nil _
    · rw [show s.db = .empty from blank]
      exact List.forall_mem_nil _
  · intro log app s s' inv opens
    exact ⟨opens.db ▸ inv.offers, opens.db ▸ inv.transfers⟩
  · intro log n app s c e c' inv reach next
    constructor
    · intro o member
      exact step_lodges rfl rfl reach next inv.offers member
    · intro row member
      by_cases old : row ∈ c.hist.now.db.transfers.rows
      · obtain ⟨earlier, e₀, later, o, rfl, lodged, settles⟩ := inv.transfers row old
        exact ⟨earlier, e₀, later ++ [⟨n, app, ⟨c, e, c'⟩⟩], o, by simp, lodged, settles⟩
      · obtain ⟨o, lodged, settles⟩ := step_settles reach next inv.offers old member
        exact ⟨log, ⟨n, app, ⟨c, e, c'⟩⟩, [], o, rfl, lodged, settles⟩

/-- **Both tables are accounted for**: every offer on record was inserted by an
authorised lodging in some life, and every sale was paid for and authorised, for
an offer that was lodged earlier, in the same life or before it. -/
theorem sales_accounted (run : deployment.Lives lives w) :
    (∀ o ∈ w.db.offers.rows, LodgedIn (entries lives) o) ∧
    ∀ row ∈ w.db.transfers.rows, ∃ earlier e later o, entries lives = earlier ++ e :: later ∧
      LodgedIn earlier o ∧ Settles e.params e.step o row :=
  ⟨(accounted run).offers, (accounted run).transfers⟩

end

/-! ## Every name goes back to its registration -/

/-- The moves of the names in the steps so far. -/
def lifeMoves (log : List LifeStep) : List (Move String String) :=
  log.filterMap fun e => moveOf e.step

/-- A step has registered a name that is valid and not reserved where it ran. -/
structure Registers (e : LifeStep) (name : String) : Prop where
  moves : ∃ key, moveOf e.step = some ⟨name, none, some key⟩
  valid : validName name e.params.cfg.nameMin e.params.cfg.nameMax = true
  unreserved : isReserved name e.params.cfg.extraReserved = false

/-- The names over all lives. -/
structure Descended (log : List LifeStep) (w : World) : Prop where
  offers : ∀ o ∈ w.db.offers.rows, LodgedIn log o
  ran : Replayed .empty (lifeMoves log) w.db.registry
  owners : ∀ name p, w.db.lookup name = some p → LowerHex64 p ∧ ∃ e ∈ log, Registers e name

section

variable {app : App} {w : World} {c c' : Conf World Stmt Request Response}
  {e : Concurrent.Event Request Around} {log : List LifeStep}

/-- The buyer of an offer that was lodged has a well-formed key. -/
theorem LodgedIn.buyer {o : OfferRow} (lodged : LodgedIn log o) : LowerHex64 o.buyerPubkey := by
  obtain ⟨e₀, -, -, -, i, headers, body, createdAt, -, -, grounds⟩ := lodged
  have lodged : Lodged e₀.params { o with createdAt } e₀.step.before.hist :=
    ⟨headers, body, _, .refl _, grounds⟩
  exact lodged.buyer

/-- What a section that moves a name leaves behind at that name. -/
theorem moved_owner {i : Nat} {r : Request} {t : Stmt} {m : Move String String} {name p : String}
    (reach : Reachable ((authority app).rooted w) c) (due : c.due i = some (r, t))
    (moves : t.move c.hist.now = some m) (lodged : ∀ o ∈ c.hist.now.db.offers.rows, LodgedIn log o)
    (here : name = m.name) (target : m.target = some p) : LowerHex64 p ∧
      ((m = ⟨name, none, some p⟩ ∧ validName name app.cfg.nameMin app.cfg.nameMax = true ∧
        isReserved name app.cfg.extraReserved = false) ∨
      ∃ owner, c.hist.now.db.lookup name = some owner) := by
  subst here
  have because := rooted_because reach due
  cases move_cases moves with
  | registered =>
    cases target
    cases because with
    | register _ checked =>
      obtain ⟨-, key, valid, free⟩ := checkRegistration_ok checked
      exact ⟨(validPubkeyHex_iff _).1 key, .inl ⟨rfl, valid, free⟩⟩
  | released => cases target
  | claimed =>
    cases target
    obtain ⟨allowed, -⟩ := section_moves app.cfg moves
    cases because with
    | claim grounds =>
      obtain ⟨row, member, becomes⟩ := grounds.row
      exact ⟨becomes.buyerPubkey ▸ (lodged row member).buyer, .inr ⟨_, allowed.source⟩⟩

variable {lives : List (Life App World Stmt Request Around Response)}

theorem descended (run : deployment.Lives lives w) : Descended (entries lives) w := by
  refine run.invariant Descended ?_ ?_ ?_
  · intro s blank
    rw [show deployment.blank s = (s.db = .empty) from rfl] at blank
    refine ⟨?_, ?_, ?_⟩
    · rw [blank]
      exact List.forall_mem_nil _
    · rw [blank]
      exact .nil
    · intro name p owned
      rw [blank] at owned
      cases owned
  · intro log app s s' inv opens
    exact ⟨opens.db ▸ inv.offers, opens.db ▸ inv.ran, opens.db ▸ inv.owners⟩
  · intro log n app s c e c' inv reach next
    refine ⟨fun o => step_lodges rfl rfl reach next inv.offers, ?_, ?_⟩
    · have ran := step_moves reach next inv.ran
      rw [lifeMoves, List.filterMap_append]
      cases made : moveOf ⟨c, e, c'⟩ <;> simpa [made, lifeMoves] using ran
    have before : ∀ name p, c.hist.now.db.lookup name = some p → LowerHex64 p ∧
        ∃ e₀ ∈ log ++ [⟨n, app, ⟨c, e, c'⟩⟩], Registers e₀ name := by
      intro name p owned
      obtain ⟨key, e₀, member, registers⟩ := inv.owners name p owned
      exact ⟨key, e₀, List.mem_append_left _ member, registers⟩
    intro name p owned
    obtain ⟨i, r, t, rfl, due, hist⟩ | ⟨-, same⟩ := rooted_step reach next
    · rw [hist, Hist.push_now] at owned
      cases moves : t.move c.hist.now with
      | none =>
        have stays := congrArg Registry.holder (section_stays app.cfg moves)
        exact before name p ((congrFun stays name).symm.trans owned)
      | some m =>
        obtain ⟨allowed, after⟩ := section_moves app.cfg moves
        have held := congrFun (congrArg Registry.holder after) name
        rw [move_holder, Function.update_apply] at held
        replace held := held.symm.trans owned
        split at held
        · rename_i here
          obtain ⟨key, ⟨registered, valid, unreserved⟩ | ⟨owner, owned'⟩⟩ :=
            moved_owner reach due moves inv.offers here held
          · refine ⟨key, _, List.mem_append_right _ (List.mem_singleton_self _), ⟨p, ?_⟩, valid,
              unreserved⟩
            exact moveOf_eq_some.2 ⟨i, r, t, rfl, due, registered ▸ moves⟩
          · exact ⟨key, (before name owner owned').2⟩
        · exact before name p held
    · exact before name p (same ▸ owned)

/-- **Every active name goes back to its registration**, by a chain of custody
through all lives of the database. -/
theorem names_descend (run : deployment.Lives lives w) :
    Replayed .empty (lifeMoves (entries lives)) w.db.registry ∧
    ∀ name p, w.db.lookup name = some p →
      LowerHex64 p ∧ ∃ e ∈ entries lives, Registers e name :=
  ⟨(descended run).ran, (descended run).owners⟩

end

namespace Scripted

/-- The buyer lodges ada and the stranger claims it. -/
def resale : List (Concurrent.Event Request Around) :=
  .arrive lodgeFive :: sections 0 10 ++ .arrive claimFive :: sections 1 13

/-- The world in which the authority is opened again. -/
def reopen (w : World) : World := { w with rate := .empty, seenAuth := .empty, node := some node }

/-- A claim in the list of requests is answered 201. -/
def answered201 (c : Conf World Stmt Request Response) (i : Nat) (r : Request) : Bool :=
  c.procs[i]?.any fun p => p.1 == r && p.2.answer?.any (·.status == 201)

/-- Nothing happens around the authority. -/
def undisturbed (events : List (Concurrent.Event Request Around)) : Bool :=
  events.all fun
    | .env _ => false
    | _ => true

/-- A life of the scripted authority with its node, and nothing happens around it. -/
structure Calm (life : Life App World Stmt Request Around Response) : Prop where
  params : life.params = resaleApp
  node : life.start.node = some node
  calm : undisturbed (life.steps.map Transition.event) = true

/-- Ada is sold in one life and sold on in the next. -/
theorem resale_lives : ∃ lives w proof proof', deployment.Lives lives w ∧
    SoldIn lives 0 2 (offerId 101) proof ∧ SoldIn lives 1 1 (offerId 105) proof' ∧
    ∀ life ∈ lives, Calm life := by
  have replayed : ((authority resaleApp).replayMeeting (fun _ _ _ => True) (.start world) sale).any
      (fun c => answered201 c 2 claimOne &&
        ((authority resaleApp).replayMeeting (fun _ _ _ => True) (.start (reopen c.hist.now))
          resale).any fun c' => answered201 c' 1 claimFive) = true := by
    decide +kernel
  have parsed : ((claimBody resaleApp (utf8 "C1")).toOption.any (·.1 == offerId 101) &&
      (claimBody resaleApp (utf8 "C5")).toOption.any (·.1 == offerId 105)) = true := by
    decide +kernel
  have body : ∀ {text : String} {id : String},
      (claimBody resaleApp (utf8 text)).toOption.any (·.1 == id) = true →
      ∃ proof, claimBody resaleApp (utf8 text) = .ok (id, proof) := by
    intro text id found
    cases answer : claimBody resaleApp (utf8 text) with
    | error e => simp [answer, Except.toOption] at found
    | ok q =>
      simp only [answer, Except.toOption, Option.any_some, beq_iff_eq] at found
      exact ⟨q.2, by rw [← found]⟩
  rw [Bool.and_eq_true] at parsed
  obtain ⟨proof, first⟩ := body parsed.1
  obtain ⟨proof', second⟩ := body parsed.2
  obtain ⟨c, run, found⟩ := (Option.any_eq_true _ _).1 replayed
  rw [Bool.and_eq_true] at found
  obtain ⟨response, there, status⟩ := answered_of_any found.1
  obtain ⟨c', run', found'⟩ := (Option.any_eq_true _ _).1 found.2
  obtain ⟨response', there', status'⟩ := answered_of_any found'
  rw [beq_iff_eq] at status status'
  obtain ⟨steps, run, events, -⟩ := Run.replayMeeting run
  obtain ⟨steps', run', events', -⟩ := Run.replayMeeting run'
  have opens : App.Opens resaleApp world world := ⟨rfl, rfl, rfl, Nat.le_refl _, rfl⟩
  have again : App.Opens resaleApp c.hist.now (reopen c.hist.now) :=
    ⟨rfl, rfl, rfl, Nat.le_refl _, rfl⟩
  refine ⟨_, _, proof, proof', .life (.life (.blank (s := world) rfl) opens run) again run', ?_, ?_,
    ?_⟩
  · exact ⟨_, _, _, response, rfl, there, status, first⟩
  · exact ⟨_, _, _, response', rfl, there', status', second⟩
  · intro life member
    simp only [List.nil_append, List.cons_append, List.mem_cons, List.not_mem_nil, or_false] at member
    rcases member with rfl | rfl
    · exact ⟨rfl, rfl, by rw [events]; decide⟩
    · exact ⟨rfl, rfl, by rw [events']; decide⟩

theorem resale_differs : ∃ lives w proof proof', deployment.Lives lives w ∧
    SoldIn lives 0 2 (offerId 101) proof ∧ SoldIn lives 1 1 (offerId 105) proof' ∧
    offerId 101 ≠ offerId 105 ∧ Hex.decode proof.excessHex ≠ Hex.decode proof'.excessHex ∧
    OnRecord w.db (offerId 101) proof.excessHex ∧ OnRecord w.db (offerId 105) proof'.excessHex := by
  obtain ⟨lives, w, proof, proof', run, sold, sold', -⟩ := resale_lives
  exact ⟨lives, w, proof, proof', run, sold, sold', sells_once_ever run sold sold' (by decide)⟩

theorem resale_accounted : ∃ lives w row, deployment.Lives lives w ∧
    row ∈ w.db.transfers.rows ∧ row.offerId = offerId 105 ∧
    (∀ o ∈ w.db.offers.rows, LodgedIn (entries lives) o) ∧
    ∀ row ∈ w.db.transfers.rows, ∃ earlier e later o, entries lives = earlier ++ e :: later ∧
      LodgedIn earlier o ∧ Settles e.params e.step o row := by
  obtain ⟨lives, w, -, proof, run, -, sold, -⟩ := resale_lives
  obtain ⟨e, member, -, -, commits⟩ := sold.step run
  obtain ⟨row, there, same, -⟩ := ((kept run).recorded e member _ _ commits).1
  exact ⟨lives, w, row, run, there, same, sales_accounted run⟩

theorem resale_descends : ∃ lives w proof, deployment.Lives lives w ∧
    SoldIn lives 1 1 (offerId 105) proof ∧
    Replayed .empty (lifeMoves (entries lives)) w.db.registry ∧
    ∀ name p, w.db.lookup name = some p →
      LowerHex64 p ∧ ∃ e ∈ entries lives, Registers e name := by
  obtain ⟨lives, w, -, proof, run, -, sold, -⟩ := resale_lives
  exact ⟨lives, w, proof, run, sold, names_descend run⟩

end Scripted

end Nip05d
