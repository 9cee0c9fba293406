import Nip05d.DeathWindow

/-!
# Times as machine integers

Timestamps arrive as `u64`, settings are any `i64`, and the code casts and adds
without checks. Release builds wrap around. The decisions are those of exact
arithmetic where nothing wraps: for timestamps below half of the range, a maximum
age that is not negative, and a time-to-live that does not run past the clock's
type. The times of deaths on record never wrap.
-/

namespace Nip05d

open Auth Concurrent Handlers Text

/-- The answer to an auth event outside its window. -/
def untimely : Except Refusal (String × String) :=
  .error (unauthorized "auth event expired or post-dated")

/-- At a time, no cast and no sum of times wraps, and the two windows are decided
as they are over the integers. -/
structure ExactTimes (app : App) (event : Event) (now : Int) : Prop where
  created : u64AsI64 event.createdAt = event.createdAt
  age : age event now = now - event.createdAt
  maxAge : (wrapU64 app.cfg.authMaxAgeSecs : Int) = app.cfg.authMaxAgeSecs
  window : (RateLimit.authWindow app.cfg : Int) =
    (app.cfg.authMaxAgeSecs + 5) * RateLimit.nanosPerSec
  expiry : wrapI64 (now + app.cfg.transferMaxOfferTtl) = now + app.cfg.transferMaxOfferTtl
  grace : ∀ c, Reachable (authority app) c → ∀ w ∈ c.hist.states, ∀ o ∈ w.db.offers.rows,
    wrapI64 (now - o.stateChangedAt.getD now) = now - o.stateChangedAt.getD now
  timestamp : ∀ method urlPath body, checkEvent app event method urlPath body now ≠ untimely ↔
    now - app.cfg.authMaxAgeSecs ≤ event.createdAt ∧ event.createdAt ≤ now + 5
  expiration : ∀ expiration, InI64 expiration → (expiryAllowed app.cfg expiration now = true ↔
    now < expiration ∧ expiration ≤ now + app.cfg.transferMaxOfferTtl)

section

variable {app : App} {event : Event} {now : Int}

/-- A wrapped value is exact within the range only. -/
theorem wrapI64_eq_self {x : Int} : wrapI64 x = x ↔ InI64 x :=
  ⟨fun same => same ▸ wrapI64_range x, wrapI64_of_range⟩

/-- A payload refusal is not about time. -/
theorem checkPayload_ne_untimely {hash : Option String} {body : Bytes} {e : Refusal}
    (refused : checkPayload app hash body = .error e) :
    e ≠ unauthorized "auth event expired or post-dated" := by
  unfold checkPayload at refused
  split at refused
  · split at refused
    · cases refused
    · cases refused
      decide
  · split at refused
    · cases refused
      decide
    · cases refused

/-- The first check of an event is the one of its age. -/
theorem checkEvent_untimely {method : Method} {urlPath : String} {body : Bytes} :
    checkEvent app event method urlPath body now ≠ untimely ↔
      age event now ≤ app.cfg.authMaxAgeSecs ∧ -5 ≤ age event now := by
  have texts : unauthorized "auth event url mismatch" ≠
        unauthorized "auth event expired or post-dated" ∧
      unauthorized "auth event method mismatch" ≠
        unauthorized "auth event expired or post-dated" := by decide
  by_cases late : age event now > app.cfg.authMaxAgeSecs ∨ age event now < -5
  · rw [checkEvent, if_pos late]
    exact iff_of_false (fun differ => differ rfl) (by omega)
  · refine iff_of_true (fun refused => ?_) (by omega)
    rw [checkEvent, if_neg late] at refused
    simp only [untimely] at refused
    split at refused
    · exact texts.1 (Except.error.inj refused)
    · split at refused
      · exact texts.2 (Except.error.inj refused)
      · split at refused
        · rename_i failed
          exact checkPayload_ne_untimely failed (Except.error.inj refused)
        · cases refused

/-- The age of a timestamp in the lower half of its range is exact. -/
theorem age_exact (clock : 0 ≤ now ∧ now < 2 ^ 40) (low : event.createdAt < 2 ^ 63) :
    age event now = now - event.createdAt := by
  have kept : wrapI64 event.createdAt = event.createdAt := by
    refine wrapI64_of_range ?_
    unfold InI64
    omega
  rw [age, kept]
  refine wrapI64_of_range ?_
  unfold InI64
  omega

/-- The times of deaths on record do not wrap at any time of the clock. -/
theorem grace_exact (clock : 0 ≤ now ∧ now < 2 ^ 40) {c : Conf World Stmt Request Response}
    (reach : Reachable (authority app) c) {w : World} (member : w ∈ c.hist.states) {o : OfferRow}
    (stored : o ∈ w.db.offers.rows) :
    wrapI64 (now - o.stateChangedAt.getD now) = now - o.stateChangedAt.getD now := by
  refine wrapI64_of_range ?_
  have range := w.unixNow_range.2
  unfold InI64 at *
  cases at_ : o.stateChangedAt with
  | none =>
    rw [Option.getD_none]
    omega
  | some d =>
    have past := (deaths_dated reach w member).past o stored d at_
    rw [Option.getD_some]
    omega

end

namespace Scripted

/-- An auth event of the seller that is dated by any timestamp. -/
def dated (createdAt : Nat) : Event := auth 1 seller createdAt .post "/api/v1/register" ""

/-- The application of the script with the longest settings. -/
def longest : App :=
  { app with cfg := { config with
      authMaxAgeSecs := 9223372036854775807
      transferMaxOfferTtl := 9223372036854775807
      authMaxAge_range := by decide
      transferMaxOfferTtl_range := by decide } }

/-- A timestamp of `2^63` is cast to a negative number. With the longest settings the
latest timestamp of all passes as young, and no expiration passes. -/
theorem times_wrap :
    app.cfg.validate = .ok () ∧ ¬ ExactTimes app (dated 9223372036854775808) 1000 ∧
    longest.cfg.validate = .ok () ∧
    checkEvent longest (dated 18446744073709551615) .post "/api/v1/register" [] 1000 ≠ untimely ∧
    expiryAllowed longest.cfg 1010 1000 = false ∧
    ¬ ExactTimes longest (dated 18446744073709551615) 1000 := by
  have young : checkEvent longest (dated 18446744073709551615) .post "/api/v1/register" [] 1000 ≠
      untimely := checkEvent_untimely.2 (by decide +kernel)
  refine ⟨rfl, fun exact => ?_, rfl, young, by decide, fun exact => ?_⟩
  · have cast : u64AsI64 9223372036854775808 ≠ 9223372036854775808 := by decide
    exact cast exact.created
  · have late := ((exact.timestamp .post "/api/v1/register" []).1 young).2
    have ahead : ¬ ((18446744073709551615 : Nat) : Int) ≤ 1000 + 5 := by decide
    exact ahead late

end Scripted

section

variable {app : App} {event : Event} {now : Int}

/-- **Time windows are exact within ranges.** At a time of the clock, nothing wraps
and both windows are decided over the integers exactly when the timestamp, the
maximum age and the time-to-live are in range. -/
theorem times_exact (u64 : event.createdAt < 2 ^ 64) (clock : 0 ≤ now ∧ now < 2 ^ 40) :
    ExactTimes app event now ↔ event.createdAt < 2 ^ 63 ∧ 0 ≤ app.cfg.authMaxAgeSecs ∧
      now + app.cfg.transferMaxOfferTtl < 2 ^ 63 := by
  constructor
  · intro exact
    refine ⟨(u64AsI64_eq u64).1 exact.created, ?_, (wrapI64_eq_self.1 exact.expiry).2⟩
    rw [← exact.maxAge]
    exact Int.natCast_nonneg _
  · rintro ⟨low, valid, ttl⟩
    have maxAge := wrapU64_of_nonneg valid app.cfg.authMaxAge_range
    have expiry : wrapI64 (now + app.cfg.transferMaxOfferTtl) = now + app.cfg.transferMaxOfferTtl := by
      have range := app.cfg.transferMaxOfferTtl_range
      refine wrapI64_of_range ?_
      unfold InI64 at *
      omega
    exact {
      created := (u64AsI64_eq u64).2 low
      age := age_exact clock low
      maxAge
      window := by
        have range := app.cfg.authMaxAge_range
        simp only [RateLimit.authWindow, InI64, RateLimit.nanosPerSec] at *
        omega
      expiry
      grace := fun c reach w member o stored => grace_exact clock reach member stored
      timestamp := fun method urlPath body => by
        rw [checkEvent_untimely, age_exact clock low]
        omega
      expiration := fun expiration _ => by
        rw [expiryAllowed, expiry, Bool.and_eq_true, decide_eq_true_eq, decide_eq_true_eq] }

end

namespace Scripted

/-- The settings of the script decide exactly. -/
theorem times_of_script : ExactTimes app (dated 1000) 1000 :=
  (times_exact (by decide) ⟨by decide, by decide⟩).2 ⟨by decide, by decide, by decide⟩

end Scripted

end Nip05d
