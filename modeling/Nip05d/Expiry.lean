import Nip05d.DeathWindow

/-!
# The life of an offer

Expiry is settled by the first request that observes it: an offer past its
expiration stays live in the store until a read or a claim marks it expired,
with the time of that observation. The grace period runs from there, so an
offer that nobody looks at can be claimed at any time; from its first
observation on, it is dead after the grace period.
-/

namespace Nip05d

open Auth Concurrent Handlers Text

section

variable {app : App} {offerId : String} {offer : OfferRow} {now : Int} {start h : Hist World}

/-- Marking a live offer takes it out of `live`. -/
theorem marked_dead (cfg : Config) {w : World} (status : Death) (endHeight : Option Int)
    (at_ : Int) {o : OfferRow} (working : w.fault = none) (member : o ∈ w.db.offers.rows) :
    ∃ o' ∈ ((Stmt.markOfferDead o.offerId status endHeight at_).apply cfg w).db.offers.rows,
      o'.offerId = o.offerId ∧ o'.status ≠ .live := by
  obtain ⟨n, db, ok⟩ := w.db.markOfferDead_works o.offerId status endHeight at_
  have after : ((Stmt.markOfferDead o.offerId status endHeight at_).apply cfg w).db = db := by
    simp [Stmt.apply, World.execute, working, ok]
  rw [after, (Db.markOfferDead_ok ok).2.2]
  by_cases live : o.status = .live
  · refine ⟨_, Sql.mem_map_rewrite.2 ⟨o, member, .inl ⟨?_, rfl⟩⟩, rfl, status.not_live⟩
    simp [live]
  · exact ⟨o, Sql.mem_map_rewrite.2 ⟨o, member, .inr ⟨by simp [live], rfl⟩⟩, rfl, live⟩

/-- Alone, a request settles on the row as it stands. -/
theorem Settled.current (settled : Settled app Quiet start offerId now offer h) :
    h.now.db.getOffer offerId = some offer := by
  cases settled with
  | kept _ found _ quiet =>
    rw [quiet.db]
    exact (World.query_eq_some.1 found).2
  | @reread h₀ h₁ h₂ before endHeight _ found _ _ to₁ to₂ same quiet =>
    obtain ⟨working, found⟩ := World.query_eq_some.1 found
    obtain ⟨member, id_⟩ := Db.getOffer_eq_some.1 found
    have own₁ := (Own.section_ app.cfg h₁ (.markOfferDead before.offerId .expired endHeight now))
    have own : Own h₀ h₂ := to₁.own.trans (own₁.trans to₂.own)
    obtain ⟨row, there, becomes⟩ := own.db.offers before member
    have again : h₂.now.query (·.getOffer before.offerId) = some row :=
      World.query_eq_some.2 ⟨own.fault.trans working, Db.getOffer_eq_some.2 ⟨there, becomes.offerId⟩⟩
    rw [again, Option.getD_some] at same
    rw [quiet.db, same, ← id_]
    exact (World.query_eq_some.1 again).2

/-- Alone, a request that settled an offer past its expiration leaves it dead or
consumed. -/
theorem Settled.not_live (settled : Settled app Quiet start offerId now offer h)
    (past : offer.expiration < now) : offer.status ≠ .live := by
  cases settled with
  | kept _ _ fresh _ => exact fresh.resolve_right (Int.not_le.2 past)
  | @reread h₀ h₁ h₂ before endHeight first found live stale to₁ to₂ same quiet =>
    obtain ⟨working, found'⟩ := World.query_eq_some.1 found
    obtain ⟨member, id_⟩ := Db.getOffer_eq_some.1 found'
    obtain ⟨row, there, id', dead⟩ := marked_dead app.cfg .expired endHeight now
      (to₁.own.fault.trans working) (to₁.db ▸ member)
    have here := (Settled.reread first found live stale to₁ to₂ same quiet).current
    rw [quiet.db, to₂.db] at here
    obtain ⟨member', same'⟩ := Db.getOffer_eq_some.1 here
    rwa [Db.offer_eq member' there (same'.trans (id_.symm.trans id'.symm))]

/-- The row that a request alone settles was live when it arrived, or is what it
settled on. -/
theorem Settled.row (settled : Settled app Quiet start offerId now offer h) :
    ∃ row, start.now.db.getOffer offerId = some row ∧ (row.status = .live ∨ row = offer) := by
  cases settled with
  | kept first found _ _ =>
    exact ⟨offer, first.db ▸ (World.query_eq_some.1 found).2, .inr rfl⟩
  | reread first found live _ _ _ _ _ =>
    exact ⟨_, first.db ▸ (World.query_eq_some.1 found).2, .inl live⟩

theorem ClockRead.own (clock : ClockRead Own now h) : now = h.now.unixNow := by
  obtain ⟨h₀, own, rfl⟩ := clock
  rw [World.unixNow, World.unixNow, own.clock]

theorem Own.unixNow {a b : Hist World} (own : Own a b) : b.now.unixNow = a.now.unixNow := by
  rw [World.unixNow, World.unixNow, own.clock]

variable {ok : Request → Stmt → World → Prop} {log : List (Request × Hist World)}
  {headers : Headers} {body : Bytes}

/-- What a request answers when it is handled alone. -/
def answered (app : App) (r : Request) (h : Hist World) : Response :=
  ((authority app).handler r).alone h |>.1

/-- What a request leaves behind when it is handled alone. -/
def handledAlone (app : App) (r : Request) (h : Hist World) : Hist World :=
  ((authority app).handler r).alone h |>.2

theorem answer_alone (app : App) (r : Request) (h : Hist World) :
    Answer app Own Quiet r h (answered app r h) (handledAlone app r h) := by
  have views := Quiet.views app.cfg
  exact (handled views).answer views.refl r h

theorem dead_of_unconsumed {o : OfferRow} (dead : o.status ≠ .live) (unconsumed : o.status ≠ .consumed) :
    o.Dead := by
  unfold OfferRow.Dead
  cases status : o.status with
  | live => exact absurd status dead
  | consumed => exact absurd status unconsumed
  | revoked => exact .inl rfl
  | expired => exact .inr rfl

end

namespace Scripted

end Scripted

end Nip05d
