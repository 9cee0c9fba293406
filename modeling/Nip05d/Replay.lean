import Nip05d.Expiry
import Nip05d.Retention

/-!
# Single use of auth events

The map of used auth events is a memory with a retention window. An event is
admitted twice only when it is used again a window after its first use, and the
freshness check leaves one way for that: the event was first used while it was
dated five seconds ahead, and again in its very last second.
-/

namespace Nip05d

open Auth Concurrent Handlers Retention

/-- A section of a request and the history that it starts from. -/
abbrev Ran := Request × Stmt × Hist World

namespace Request

/-- The verified event of a request's Authorization header. -/
def authEvent (app : App) (r : Request) : Option Event :=
  (r.entry app).bind fun e => (Auth.authEvent app e.headers).toOption

/-- The event id under which `verify_nip98` authorizes a request. -/
def authorizedId (app : App) (r : Request) (w : World) : Option String :=
  (r.entry app).bind fun e => (e.verify app w).toOption.map Prod.snd

end Request

/-- The auth event that passes `verify_nip98` and whose use a section records. -/
def presented (app : App) (q : Ran) : Option Event :=
  (q.1.authEvent app).filter fun event =>
    q.1.authorizedId app q.2.2.now = some event.id.toHex ∧
      q.2.1 = .authEventFresh event.id.toHex q.2.2.now.clock.nanos

/-- An id passes `verify_nip98` and `auth_event_fresh` in a section. -/
def Passes (app : App) (q : Ran) (id : String) : Prop :=
  q.1.authorizedId app q.2.2.now = some id ∧
    q.2.1 = .authEventFresh id q.2.2.now.clock.nanos ∧
    (RateLimit.authEventFresh app.cfg q.2.2.now.seenAuth id q.2.2.now.clock.nanos).1 = true

/-- No id passes in two sections. -/
def SingleUse (app : App) (ran : List Ran) : Prop :=
  ran.Pairwise fun a b => ∀ id, Passes app a id → ¬ Passes app b id

/-- An event is used five seconds ahead of its date and again in its last
second, at least as far into the second as before. -/
def Outlives (app : App) (e e' : Event) (w w' : World) : Prop :=
  age e w.unixNow = -5 ∧ age e' w'.unixNow = app.cfg.authMaxAgeSecs ∧
    w.clock.nanos % RateLimit.nanosPerSec ≤ w'.clock.nanos % RateLimit.nanosPerSec

instance (app : App) (e e' : Event) (w w' : World) : Decidable (Outlives app e e' w w') :=
  inferInstanceAs (Decidable (_ ∧ _))

/-- No event outlives the memory of its use. -/
def NoneOutlives (app : App) (ran : List Ran) : Prop :=
  ran.Pairwise fun a b => ∀ e ∈ presented app a, ∀ e' ∈ presented app b,
    e.id = e'.id → ¬ Outlives app e e' a.2.2.now b.2.2.now

instance (app : App) (ran : List Ran) : Decidable (NoneOutlives app ran) :=
  inferInstanceAs (Decidable (List.Pairwise _ _))

section

variable {app : App} {ok : Request → Stmt → World → Prop} {log : List (Request × Hist World)}
  {h : Hist World} {q : Ran}

/-! ## The map of used events is a memory with a window -/

theorem authEventFresh_admits (cfg : Config) (seen : Dict Nanos) (id : String) (now : Nanos) :
    (RateLimit.authEventFresh cfg seen id now).1 =
      Memory.admits seen.get (RateLimit.authWindow cfg) now id := by
  have kept : ((seen.retain fun _ t => RateLimit.recent now (RateLimit.authWindow cfg) t).get id) =
      Memory.kept seen.get (RateLimit.authWindow cfg) now id := Dict.get_retain _ _ _
  simp only [RateLimit.authEventFresh, Memory.admits, kept]
  cases Memory.kept seen.get (RateLimit.authWindow cfg) now id <;> rfl

theorem authEventFresh_use (cfg : Config) (seen : Dict Nanos) (id : String) (now : Nanos) :
    (RateLimit.authEventFresh cfg seen id now).2.get =
      Memory.use seen.get (RateLimit.authWindow cfg) now id := by
  have kept : ∀ k, ((seen.retain fun _ t => RateLimit.recent now (RateLimit.authWindow cfg) t).get k) =
      Memory.kept seen.get (RateLimit.authWindow cfg) now k := fun k => Dict.get_retain _ _ _
  funext k
  simp only [RateLimit.authEventFresh]
  split
  · rename_i t here
    rw [kept] at here
    rw [Memory.use_other (by simp [Memory.admits, here]), kept]
  · rename_i here
    rw [kept] at here
    rw [Dict.get_set, kept, Memory.use, Memory.admits, here]
    simp [eq_comm]

/-- The use of an event id that a section is. -/
def useOf (app : App) (q : Ran) : Option (Use String) :=
  match q.2.1 with
  | .authEventFresh id now =>
    some ⟨id, now, (RateLimit.authEventFresh app.cfg q.2.2.now.seenAuth id now).1⟩
  | _ => none

/-- A use is of an event that is presented, at the time of the section. -/
def Honest (app : App) (q : Ran) : Prop :=
  ∀ u ∈ useOf app q, u.at_ = q.2.2.now.clock.nanos ∧
    ∃ event ∈ presented app q, event.id.toHex = u.key

theorem presented_spec {event : Event} (member : event ∈ presented app q) :
    q.1.authEvent app = some event ∧ q.1.authorizedId app q.2.2.now = some event.id.toHex ∧
      q.2.1 = .authEventFresh event.id.toHex q.2.2.now.clock.nanos := by
  have parts := Option.filter_eq_some_iff.1 member
  simpa using parts

/-- A presented event is verified, and its age is in the window of acceptance. -/
theorem presented_age {event : Event} (member : event ∈ presented app q) :
    app.crates.eventVerify event = true ∧ -5 ≤ age event q.2.2.now.unixNow ∧
      age event q.2.2.now.unixNow ≤ app.cfg.authMaxAgeSecs := by
  obtain ⟨found, authorized, -⟩ := presented_spec member
  obtain ⟨e, entry, found⟩ := Option.bind_eq_some_iff.1 found
  obtain ⟨e', entry', authorized⟩ := Option.bind_eq_some_iff.1 authorized
  rw [entry] at entry'
  cases entry'
  obtain ⟨⟨key, id⟩, verified, same⟩ := Option.map_eq_some_iff.1 authorized
  have verified' : e.verify app q.2.2.now = .ok (key, id) := by
    cases answer : e.verify app q.2.2.now with
    | ok a => rw [answer] at verified; cases verified; rfl
    | error r => rw [answer] at verified; cases verified
  obtain ⟨event', found', -, -, young, old⟩ := verifyNip98_event verified'
  rw [found'] at found
  cases found
  exact ⟨authEvent_verified found', young, old⟩

theorem passes_iff (honest : Honest app q) (id : String) :
    Passes app q id ↔ ∃ u ∈ useOf app q, u.key = id ∧ u.admitted = true := by
  constructor
  · rintro ⟨-, tag, fresh⟩
    refine ⟨⟨id, q.2.2.now.clock.nanos, _⟩, ?_, rfl, fresh⟩
    rw [Option.mem_def, useOf, tag]
  · rintro ⟨u, member, rfl, admitted⟩
    obtain ⟨-, event, presented, same⟩ := honest u member
    obtain ⟨-, authorized, tag⟩ := presented_spec presented
    rw [Option.mem_def, useOf, tag, Option.some.injEq] at member
    subst member
    exact ⟨authorized, tag, admitted⟩

/-- The memory has seen the uses of the sections so far. -/
def Remembers (app : App) (ran : List Ran) (h : Hist World) : Prop :=
  Logged (RateLimit.authWindow app.cfg) (ran.filterMap (useOf app)) h.now.clock.nanos
    h.now.seenAuth.get ∧ ∀ q ∈ ran, Honest app q

theorem remembers_start {w : World} (fresh : w.Fresh) : Remembers app [] ⟨w, []⟩ := by
  have nothing : w.seenAuth.get = fun _ => none := by
    funext k
    rw [fresh.seenAuth]
    rfl
  have started : Logged (RateLimit.authWindow app.cfg) [] w.clock.nanos w.seenAuth.get := by
    rw [nothing]
    exact .start
  exact ⟨started, fun q member => by cases member⟩

/-- A section that uses no event id leaves the memory as it is. -/
theorem Remembers.other {ran : List Ran} {r : Request} {t : Stmt} (inv : Remembers app ran h)
    (other : ∀ id now, t ≠ .authEventFresh id now) :
    Remembers app (ran ++ [(r, t, h)]) (h.push (t.apply app.cfg h.now)) := by
  have unused : useOf app (r, t, h) = none := by
    cases t with
    | authEventFresh id now => exact absurd rfl (other id now)
    | _ => rfl
  constructor
  · rw [List.filterMap_append, List.filterMap_cons, unused, List.filterMap_nil, List.append_nil,
      Hist.push_now, (t.apply_frame app.cfg h.now).1, Stmt.apply_seenAuth _ _ other]
    exact inv.1
  · intro q member
    rw [List.mem_append, List.mem_singleton] at member
    rcases member with old | rfl
    · exact inv.2 q old
    · intro u used
      rw [unused] at used
      cases used

/-- A section that uses an event id is seen by the memory. -/
theorem Remembers.use {ran : List Ran} {r : Request} {e : Entry} {key id : String}
    (inv : Remembers app ran h) (entry : r.entry app = some e)
    (verified : e.verify app h.now = .ok (key, id)) :
    Remembers app (ran ++ [(r, .authEventFresh id h.now.clock.nanos, h)])
      (h.push ((Stmt.authEventFresh id h.now.clock.nanos).apply app.cfg h.now)) := by
  obtain ⟨event, found, -, rfl, -, -⟩ := verifyNip98_event verified
  constructor
  · have more := inv.1.use event.id.toHex
    rw [← authEventFresh_admits, ← authEventFresh_use] at more
    have used : useOf app (r, .authEventFresh event.id.toHex h.now.clock.nanos, h) =
        some ⟨event.id.toHex, h.now.clock.nanos, (RateLimit.authEventFresh app.cfg h.now.seenAuth
          event.id.toHex h.now.clock.nanos).1⟩ := rfl
    rw [List.filterMap_append, List.filterMap_cons, used, List.filterMap_nil]
    exact more
  · intro q member
    rw [List.mem_append, List.mem_singleton] at member
    rcases member with old | rfl
    · exact inv.2 q old
    · intro u used
      rw [useOf, Option.mem_def, Option.some.injEq] at used
      subst used
      refine ⟨rfl, event, Option.filter_eq_some_iff.2 ⟨?_, ?_⟩, rfl⟩
      · simp [Request.authEvent, entry, found, Except.toOption]
      · simp [Request.authorizedId, entry, verified, Except.toOption]

/-- **The uses of a run are those that its memory has seen.** -/
theorem remembers (run : Served (authority app) ok log h) :
    Remembers app ((authority app).sections log) h := by
  refine one_by_one run (Remembers app) (fun w => remembers_start) ?_ ?_
  · intro ran h e s inv moved
    obtain ⟨-, -, seen, later⟩ := Around.move_frame moved
    refine ⟨?_, inv.2⟩
    rw [Hist.push_now, seen]
    exact .wait inv.1 later
  · intro ran d r t _ inv _ because
    by_cases use : ∃ id now, t = .authEventFresh id now
    · obtain ⟨id, now, rfl⟩ := use
      cases because with
      | @authEventFresh _ e key _ h₀ h₁ _ entry before verified at_ =>
        have clock : h₁.now.clock = d.hist.now.clock := at_.own.clock.symm
        rw [clock]
        have verified' : e.verify app d.hist.now = .ok (key, id) := by
          rw [Entry.verify, before.own.unixNow]
          exact verified
        exact inv.use entry verified'
    · exact inv.other fun id now same => use ⟨id, now, same⟩

/-! ## The two windows -/

theorem authWindow_eq (valid : 0 ≤ app.cfg.authMaxAgeSecs) :
    (RateLimit.authWindow app.cfg : Int) = (app.cfg.authMaxAgeSecs + 5) * 1000000000 := by
  have range := app.cfg.authMaxAge_range
  simp only [RateLimit.authWindow, Text.wrapU64, RateLimit.nanosPerSec, Text.InI64] at *
  omega

theorem age_eq (e : Event) (now : Int) :
    ∃ k, age e now = now - Text.wrapI64 e.createdAt + 2 ^ 64 * k := Text.wrapI64_eq _

/-- The window of acceptance is shorter than the retention window by a second, but
for whole seconds: uses at ages `a` and `a'` are a retention window apart only
from the first second of the one to the last second of the other. -/
theorem windows_fit {maxAge window created a a' k k' : Int} {t t' : Nat}
    (range : 0 ≤ maxAge ∧ maxAge < 2 ^ 63) (window_ : window = (maxAge + 5) * 1000000000)
    (order : t ≤ t') (bound : t' < 2 ^ 63 * 1000000000)
    (age : a = (t / 1000000000 : Nat) - created + 2 ^ 64 * k) (first : -5 ≤ a ∧ a ≤ maxAge)
    (age' : a' = (t' / 1000000000 : Nat) - created + 2 ^ 64 * k')
    (second : -5 ≤ a' ∧ a' ≤ maxAge) :
    (a = -5 ∧ a' = maxAge ∧ t % 1000000000 ≤ t' % 1000000000) ↔ (t + window : Int) ≤ t' := by
  constructor
  · rintro ⟨rfl, rfl, later⟩
    omega
  · intro apart
    -- the ages have not wrapped around between the two uses
    have same : k = k' := by omega
    subst same
    omega

/-- Two accepted uses of one event are a retention window apart exactly when the
event outlives the memory of its use. -/
theorem outlives_iff (valid : 0 ≤ app.cfg.authMaxAgeSecs) {e e' : Event} {w w' : World}
    (dated : e.createdAt = e'.createdAt)
    (first : -5 ≤ age e w.unixNow ∧ age e w.unixNow ≤ app.cfg.authMaxAgeSecs)
    (second : -5 ≤ age e' w'.unixNow ∧ age e' w'.unixNow ≤ app.cfg.authMaxAgeSecs)
    (order : w.clock.nanos ≤ w'.clock.nanos) :
    Outlives app e e' w w' ↔
      ¬ w'.clock.nanos < w.clock.nanos + RateLimit.authWindow app.cfg := by
  have window := authWindow_eq valid
  obtain ⟨k, age₁⟩ := age_eq e w.unixNow
  obtain ⟨k', age₂⟩ := age_eq e' w'.unixNow
  rw [dated] at age₁
  have fit := windows_fit ⟨valid, app.cfg.authMaxAge_range.2⟩ window order w'.clock.bound
    age₁ first age₂ second
  rw [Nat.not_lt]
  refine fit.trans ?_
  omega

/-- A presented event is used at the time of its section. -/
theorem presented_use {event : Event} (member : event ∈ presented app q) :
    ∃ u, useOf app q = some u ∧ u.key = event.id.toHex ∧ u.at_ = q.2.2.now.clock.nanos := by
  obtain ⟨-, -, tag⟩ := presented_spec member
  refine ⟨⟨event.id.toHex, q.2.2.now.clock.nanos, (RateLimit.authEventFresh app.cfg
    q.2.2.now.seenAuth event.id.toHex q.2.2.now.clock.nanos).1⟩, ?_, rfl, rfl⟩
  rw [useOf, tag]

/-- Two uses of one key are of events that are dated the same. -/
theorem outlives_uses (valid : 0 ≤ app.cfg.authMaxAgeSecs) (bind : app.crates.IdsBind)
    {a b : Ran} {e e' : Event} (first : e ∈ presented app a) (second : e' ∈ presented app b)
    (same : e.id = e'.id) (order : a.2.2.now.clock.nanos ≤ b.2.2.now.clock.nanos) :
    Outlives app e e' a.2.2.now b.2.2.now ↔
      ¬ b.2.2.now.clock.nanos < a.2.2.now.clock.nanos + RateLimit.authWindow app.cfg := by
  obtain ⟨verified, accepted⟩ := presented_age first
  obtain ⟨verified', accepted'⟩ := presented_age second
  have hashed := bind e e' verified verified' same
  have dated : e.createdAt = e'.createdAt := congrArg (fun x => x.2.1) hashed
  exact outlives_iff valid dated accepted accepted' order

/-- **Events are used once exactly as long as none outlives its memory.** -/
theorem used_once (valid : 0 ≤ app.cfg.authMaxAgeSecs) (bind : app.crates.IdsBind)
    (run : Served (authority app) ok log h) :
    SingleUse app ((authority app).sections log) ↔
      NoneOutlives app ((authority app).sections log) := by
  obtain ⟨logged, honest⟩ := remembers run
  have open_ : 0 < RateLimit.authWindow app.cfg := by
    rw [← Int.natCast_pos, authWindow_eq valid]
    omega
  have uses := logged.once_iff open_
  have sorted := logged.sorted
  simp only [List.pairwise_filterMap] at uses sorted
  refine (List.Pairwise.iff_of_mem ?_).trans (uses.trans ?_)
  · intro a b ha hb
    constructor
    · intro once u used u' used' same both
      have first := (passes_iff (honest a ha) u.key).2 ⟨u, used, rfl, both.1⟩
      exact once u.key first ((passes_iff (honest b hb) u.key).2 ⟨u', used', same.symm, both.2⟩)
    · intro once id first second
      obtain ⟨u, used, rfl, admitted⟩ := (passes_iff (honest a ha) _).1 first
      obtain ⟨u', used', same, admitted'⟩ := (passes_iff (honest b hb) _).1 second
      exact once u used u' used' same.symm ⟨admitted, admitted'⟩
  · constructor
    · intro soon
      refine (soon.and sorted).imp ?_
      intro a b ⟨soon, sorted⟩ e first e' second same
      obtain ⟨u, used, key, at_⟩ := presented_use first
      obtain ⟨u', used', key', at'⟩ := presented_use second
      have order := sorted u used u' used'
      have close := soon u used u' used' (by rw [key, key', same])
      rw [at_, at'] at order close
      rw [outlives_uses valid bind first second same order, not_not]
      exact close
    · intro none_
      refine (none_.and sorted).imp_of_mem ?_
      intro a b ha hb ⟨none_, sorted⟩ u used u' used' same
      obtain ⟨at_, e, first, key⟩ := honest a ha u used
      obtain ⟨at', e', second, key'⟩ := honest b hb u' used'
      have ids : e.id = e'.id := Bytes32.toHex_inj.1 (key.trans (same.trans key'.symm))
      have order := sorted u used u' used'
      rw [at_, at'] at order ⊢
      have apart := none_ e first e' second ids
      rwa [outlives_uses valid bind first second ids order, not_not] at apart

end

namespace Scripted

/-- A release dated five seconds ahead is sent again 65 seconds later. -/
def releasedTwice : List (Request ⊕ Around) :=
  [.inl earlyReleaseAda, .inr (.advance (clock (1065 * 1000000000))), .inl earlyReleaseAda]

instance (q : Ran) (id : String) : Decidable (Passes app q id) :=
  inferInstanceAs (Decidable (_ ∧ _))

/-- Its event is used twice. -/
theorem used_twice : ∃ log h, Served (authority app) (fun _ _ _ => True) log h ∧
    0 ≤ app.cfg.authMaxAgeSecs ∧ app.crates.IdsBind ∧
    log.map Prod.fst = [earlyReleaseAda, earlyReleaseAda] ∧
    ¬ SingleUse app ((authority app).sections log) := by
  have run : ((serve (fun _ _ _ => True) releasedTwice).any fun q =>
      q.1.map Prod.fst == [earlyReleaseAda, earlyReleaseAda] &&
      ((authority app).sections q.1)[4]?.any fun a => decide (Passes app a (key 10).toHex) &&
        ((authority app).sections q.1)[10]?.any fun b => decide (Passes app b (key 10).toHex)) =
      true := by
    decide +kernel
  obtain ⟨⟨log, h⟩, run, found⟩ := (Option.any_eq_true _ _).1 run
  simp only [Bool.and_eq_true, beq_iff_eq, Option.any_eq_true, decide_eq_true_eq] at found
  obtain ⟨requests, a, first, passes, b, second, again⟩ := found
  refine ⟨log, h, serve_served run, by decide, crates_idsBind (by decide +kernel), requests,
    fun once => ?_⟩
  obtain ⟨early, rfl⟩ := List.getElem?_eq_some_iff.1 first
  obtain ⟨late, rfl⟩ := List.getElem?_eq_some_iff.1 second
  exact List.pairwise_iff_getElem.1 once 4 10 early late (by decide) _ passes again

/-- A release sent twice in a row is used once. -/
theorem replay_refused : ∃ log h, serve (fun _ _ _ => True) [.inl releaseAda, .inl releaseAda] =
    some (log, h) ∧ SingleUse app ((authority app).sections log) := by
  have run : ((serve (fun _ _ _ => True) [.inl releaseAda, .inl releaseAda]).any fun q =>
      decide (NoneOutlives app ((authority app).sections q.1))) = true := by
    decide +kernel
  obtain ⟨⟨log, h⟩, run, found⟩ := (Option.any_eq_true _ _).1 run
  refine ⟨log, h, run, ?_⟩
  exact (used_once (by decide) (crates_idsBind (by decide +kernel)) (serve_served run)).2
    (of_decide_eq_true found)

end Scripted

end Nip05d
