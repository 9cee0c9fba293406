import Nip05d.Cooldown
import Mathlib.Data.List.Triplewise

/-!
# Names given up and registered again

A run keeps the cooldown when no name is given up between a check and the
insertion that relies on it, no check falls between a write and its arming, and
no clean-up drops a cooldown that is still running. A given-up name is then
remembered from its arming on (`cooled_run`), and a check that finds no cooldown
comes late enough.
-/

namespace Nip05d

open Auth Concurrent Handlers

/-- A section that matters for the cooldown of a key. -/
inductive Mark where
  /-- Process `i` has checked the cooldown of the key, and found none. -/
  | check (i : Nat) (p : String)
  /-- The key gives up its name. -/
  | give (p : String)
  /-- Process `i` has inserted a name of the key. -/
  | insert (i : Nat) (p : String)
  deriving DecidableEq

def mark (app : App) (i : Nat) (r : Request) (q : Stmt × World) : Option Mark :=
  match q.1 with
  | .cooldownActive bucket p window now =>
    if (RateLimit.cooldownActive q.2.rate bucket p window now).1 then none else some (.check i p)
  | .registerName name p =>
    match (q.2.execute (·.registerName name p q.2.unixNow)).1 with
    | .ok (_ + 1) => some (.insert i p)
    | _ => none
  | _ => (gives app r q).map .give

/-- The mark of a step and the time of its section. -/
def markOf (app : App) (s : Step) : Option (Mark × Nanos) :=
  match s.event with
  | .run i => (s.before.due i).bind fun d =>
    (mark app i d.1 (d.2, s.before.hist.now)).map fun m => (m, s.before.hist.now.clock.nanos)
  | _ => none

def marks (app : App) (steps : List Step) : List (Mark × Nanos) := steps.filterMap (markOf app)

/-- A name that a key inserts after it has given up one is a cooldown later. -/
def Spaced (cooldown : Nanos) (a b : Mark × Nanos) : Prop :=
  match a.1, b.1 with
  | .give p, .insert _ p' => p = p' → a.2 + cooldown ≤ b.2
  | _, _ => True

instance (cooldown : Nanos) (a b : Mark × Nanos) : Decidable (Spaced cooldown a b) := by
  unfold Spaced
  split <;> infer_instance

/-- Names are not given up and inserted again within the cooldown. -/
def AntiChurn (app : App) (steps : List Step) : Prop :=
  (marks app steps).Pairwise (Spaced app.cfg.nameChangeCooldown)

/-- A name given up between a check and the insertion that relies on it. -/
def Interrupts (a b c : Mark × Nanos) : Bool :=
  match a.1, b.1, c.1 with
  | .check i p, .give p', .insert j p'' => i == j && p == p' && p' == p''
  | _, _, _ => false

/-- A name-change entry of the rate map. -/
def isCooldown (key : String) : Bool :=
  (Text.chars "namechange:").isPrefixOf (Text.chars key)

/-- A clean-up drops no cooldown that is still running. -/
def SparesCooldowns (cfg : Config) (t : Stmt) (w : World) : Prop :=
  match t with
  | .allow bucket ip max window now =>
    let key := bucket ++ ":" ++ ip
    let hits := ((w.rate.get key).getD []).filter (RateLimit.recent now window)
    max ≤ hits.length ∨ (w.rate.set key (hits ++ [now])).size ≤ 50000 ∨
      ∀ e ∈ w.rate.entries, isCooldown e.1 = true → e.2.any (RateLimit.recent now window) = true ∨
        ∀ t ∈ e.2, t + cfg.nameChangeCooldown ≤ w.clock.nanos
  | _ => True

instance (cfg : Config) (t : Stmt) (w : World) : Decidable (SparesCooldowns cfg t w) := by
  unfold SparesCooldowns
  split <;> infer_instance

instance Triplewise.decidable {α : Type} (p : α → α → α → Prop) [∀ a b c, Decidable (p a b c)] :
    (l : List α) → Decidable (l.Triplewise p)
  | [] => .isTrue .nil
  | _ :: l =>
    have := Triplewise.decidable p l
    decidable_of_iff' _ List.triplewise_cons

/-- Some process is about to arm the cooldown of a key. -/
def Arming (c : Conf World Stmt Request Response) (p : String) : Prop :=
  ∃ q ∈ c.procs, q.2.tag? = some (.recordOp "namechange" p)

instance (c : Conf World Stmt Request Response) (p : String) : Decidable (Arming c p) :=
  inferInstanceAs (Decidable (∃ q ∈ c.procs, q.2.tag? = some (.recordOp "namechange" p)))

/-- No cooldown is checked that is about to be armed. -/
def AfterArming (c : Conf World Stmt Request Response) : Mark → Prop
  | .check _ p => ¬ Arming c p
  | _ => True

instance (c : Conf World Stmt Request Response) (m : Mark) : Decidable (AfterArming c m) := by
  unfold AfterArming
  split <;> infer_instance

/-- No gap between writing and arming, checking and inserting is hit. -/
structure Unbroken (app : App) (steps : List Step) : Prop where
  apart : (marks app steps).Triplewise fun a b c => Interrupts a b c = false
  armed : ∀ s ∈ steps, ∀ m ∈ markOf app s, AfterArming s.before m.1
  kept : ∀ s ∈ steps, s.before.Meets (fun _ t w => SparesCooldowns app.cfg t w) s.event

section

variable {app : App} {cfg : Config} {t : Stmt} {w : World} {p : String} {since : Nanos}

/-! ## What a section leaves of a cooldown -/

/-- The map knows that the key gave up its name at a time, if it matters still. -/
def Cooling (cfg : Config) (w : World) (p : String) (since : Nanos) : Prop :=
  (∃ hits, w.rate.get ("namechange" ++ ":" ++ p) = some hits ∧ ∃ h ∈ hits, since ≤ h) ∨
    since + cfg.nameChangeCooldown ≤ w.clock.nanos

theorem isCooldown_key (p : String) : isCooldown ("namechange" ++ ":" ++ p) = true := by
  have front : "namechange" ++ ":" = "namechange:" := by decide
  rw [isCooldown, List.isPrefixOf_iff_prefix, front, Text.chars_append]
  exact List.prefix_append _ _

theorem limited_key {bucket ip : String} (limited : bucket ∈ ["read", "reg", "unreg", "transfer"]) :
    bucket ++ ":" ++ ip ≠ "namechange" ++ ":" ++ p := by
  intro same
  have plain : ∀ b ∈ ["read", "reg", "unreg", "transfer"], ':' ∉ Text.chars b ∧ b ≠ "namechange" := by
    decide
  obtain ⟨colon, apart⟩ := plain bucket limited
  exact apart (RateLimit.key_inj colon (by decide) same).1

/-- A hit of the limiter keeps a cooldown that its clean-up spares. -/
theorem Cooling.allow {bucket ip : String} {max : Nat} {window now : Nanos}
    (cooling : Cooling cfg w p since) (limited : bucket ∈ ["read", "reg", "unreg", "transfer"])
    (spares : SparesCooldowns cfg (.allow bucket ip max window now) w) :
    Cooling cfg ((Stmt.allow bucket ip max window now).apply cfg w) p since := by
  obtain ⟨hits, found, h, member, late⟩ | elapsed := cooling
  · have apart : bucket ++ ":" ++ ip ≠ "namechange" ++ ":" ++ p := limited_key limited
    have kept : ∀ own, (w.rate.set (bucket ++ ":" ++ ip) own).get ("namechange" ++ ":" ++ p) =
        some hits := fun own => by rw [Dict.get_set, if_neg apart, found]
    simp only [SparesCooldowns] at spares
    simp only [Cooling, Stmt.apply, RateLimit.allow]
    split
    · exact .inl ⟨hits, kept _, h, member, late⟩
    split
    · rename_i below full
      obtain refused | small | spared := spares
      · exact absurd refused below
      · omega
      obtain recent | old :=
        spared _ (Dict.get_eq_some.1 found) (isCooldown_key p)
      · refine .inl ⟨hits, ?_, h, member, late⟩
        rw [Dict.get_retain, kept, Option.filter_some, if_pos recent]
      · exact .inr ((Nat.add_le_add_right late _).trans (old h member))
    · exact .inl ⟨hits, kept _, h, member, late⟩
  · exact .inr elapsed

/-- A hit that is out of the window now is a cooldown old. -/
theorem over_of_stale {since cooldown now clock h : Nat} (stale : ¬ now - h < cooldown)
    (late : since ≤ h) (past : now ≤ clock) (before : since ≤ clock) :
    since + cooldown ≤ clock := by omega

/-- A check forgets only hits that are older than the cooldown. -/
theorem Cooling.check {key : String} {now : Nanos} (cooling : Cooling cfg w p since)
    (past : now ≤ w.clock.nanos) (before : since ≤ w.clock.nanos) : Cooling cfg
      ((Stmt.cooldownActive "namechange" key cfg.nameChangeCooldown now).apply cfg w) p since := by
  obtain ⟨hits, found, h, member, late⟩ | elapsed := cooling
  · simp only [Cooling, Stmt.apply, RateLimit.cooldownActive]
    split
    · rename_i own there
      by_cases same : key = p
      · subst same
        rw [found] at there
        cases there
        rw [Dict.get_set, if_pos rfl]
        by_cases recent : RateLimit.recent now cfg.nameChangeCooldown h = true
        · exact .inl ⟨_, rfl, h, List.mem_filter.2 ⟨member, recent⟩, late⟩
        · rw [RateLimit.recent, decide_eq_true_eq] at recent
          exact .inr (over_of_stale recent late past before)
      · have apart : "namechange" ++ ":" ++ key ≠ "namechange" ++ ":" ++ p :=
          fun equal => same (RateLimit.key_inj (by decide) (by decide) equal).2
        rw [Dict.get_set, if_neg apart]
        exact .inl ⟨hits, found, h, member, late⟩
    · exact .inl ⟨hits, found, h, member, late⟩
  · exact .inr elapsed

theorem Cooling.record {bucket key : String} (cooling : Cooling cfg w p since) :
    Cooling cfg ((Stmt.recordOp bucket key).apply cfg w) p since := by
  obtain ⟨hits, found, h, member, late⟩ | elapsed := cooling
  · simp only [Cooling, Stmt.apply, RateLimit.recordOp]
    rw [Dict.get_set]
    split
    · rename_i same
      rw [same, found]
      exact .inl ⟨_, rfl, h, List.mem_append_left _ member, late⟩
    · exact .inl ⟨hits, found, h, member, late⟩
  · exact .inr elapsed

/-- An arming makes the map know. -/
theorem cooling_armed (past : since ≤ w.clock.nanos) :
    Cooling cfg ((Stmt.recordOp "namechange" p).apply cfg w) p since := by
  have armed : ((Stmt.recordOp "namechange" p).apply cfg w).rate.get ("namechange" ++ ":" ++ p) =
      some ((w.rate.get ("namechange" ++ ":" ++ p)).getD [] ++ [w.clock.nanos]) := by
    simp only [Stmt.apply, RateLimit.recordOp]
    rw [Dict.get_set, if_pos rfl]
  exact .inl ⟨_, armed, w.clock.nanos, by simp, past⟩

theorem Cooling.section_ {r : Request} {seen : List (Stmt × World)}
    (cooling : Cooling app.cfg w p since) (due : Due app r seen t)
    (past : ∀ q ∈ seen, q.2.clock.nanos ≤ w.clock.nanos) (before : since ≤ w.clock.nanos)
    (spares : SparesCooldowns app.cfg t w) :
    Cooling app.cfg (t.apply app.cfg w) p since := by
  by_cases limit : ∃ bucket ip max window now, t = .allow bucket ip max window now
  · obtain ⟨bucket, ip, max, window, now, rfl⟩ := limit
    exact cooling.allow (due.limits _ _ _ _ _ rfl) spares
  by_cases check : ∃ bucket key window now, t = .cooldownActive bucket key window now
  · obtain ⟨bucket, key, window, now, rfl⟩ := check
    obtain ⟨rfl, rfl, q, member, rfl⟩ := due.checks _ _ _ _ rfl
    exact cooling.check (past q member) before
  by_cases record : ∃ bucket key, t = .recordOp bucket key
  · obtain ⟨bucket, key, rfl⟩ := record
    exact cooling.record
  push Not at limit check record
  rw [Cooling, t.apply_rate app.cfg w limit check record, (t.apply_frame app.cfg w).1]
  exact cooling

/-- A check that finds no cooldown comes late enough. -/
theorem Cooling.elapsed {now : Nanos} (cooling : Cooling cfg w p since) (past : now ≤ w.clock.nanos)
    (inactive : (RateLimit.cooldownActive w.rate "namechange" p cfg.nameChangeCooldown now).1 =
      false) (before : since ≤ w.clock.nanos) : since + cfg.nameChangeCooldown ≤ w.clock.nanos := by
  obtain ⟨hits, found, h, member, late⟩ | elapsed := cooling
  · simp only [RateLimit.cooldownActive, found, Bool.not_eq_false', List.isEmpty_iff,
      List.filter_eq_nil_iff, RateLimit.recent, decide_eq_true_eq] at inactive
    exact over_of_stale (inactive h member) late past before
  · exact elapsed

end

section

variable {app : App} {i j : Nat} {r : Request} {q : Stmt × World} {p : String} {w : World}
  {steps : List Step} {s : Step} {m : Mark × Nanos} {c d : Conf World Stmt Request Response}

/-! ## Marks -/

theorem mark_give : mark app i r q = some (.give p) ↔ gives app r q = some p := by
  obtain ⟨t, w⟩ := q
  cases t with
  | cooldownActive bucket key window now =>
    simp only [mark, gives]
    split <;> simp
  | registerName name key =>
    simp only [mark, gives]
    split <;> simp
  | _ => simp [mark]

theorem mark_check (marked : mark app i r q = some (.check j p)) : i = j ∧ ∃ bucket window now,
    q.1 = .cooldownActive bucket p window now ∧
      (RateLimit.cooldownActive q.2.rate bucket p window now).1 = false := by
  obtain ⟨t, w⟩ := q
  cases t with
  | cooldownActive bucket key window now =>
    simp only [mark] at marked
    split at marked
    · cases marked
    · rename_i inactive
      cases marked
      exact ⟨rfl, bucket, window, now, rfl, by simpa using inactive⟩
  | registerName name key =>
    simp only [mark] at marked
    split at marked <;> cases marked
  | _ => simp [mark] at marked

theorem mark_insert (marked : mark app i r q = some (.insert j p)) :
    i = j ∧ ∃ name, q.1 = .registerName name p := by
  obtain ⟨t, w⟩ := q
  cases t with
  | cooldownActive bucket key window now =>
    simp only [mark] at marked
    split at marked <;> cases marked
  | registerName name key =>
    simp only [mark] at marked
    split at marked
    · cases marked
      exact ⟨rfl, name, rfl⟩
    · cases marked
  | _ => simp [mark] at marked

theorem markOf_eq_some : markOf app s = some m ↔ ∃ i r t, s.event = .run i ∧
    s.before.due i = some (r, t) ∧ mark app i r (t, s.before.hist.now) = some m.1 ∧
      m.2 = s.before.hist.now.clock.nanos := by
  obtain ⟨m, time⟩ := m
  unfold markOf
  split
  · rename_i i event
    simp only [Option.bind_eq_some_iff, Option.map_eq_some_iff, Prod.mk.injEq]
    constructor
    · rintro ⟨⟨r, t⟩, due, m', marked, rfl, rfl⟩
      exact ⟨i, r, t, event, due, marked, rfl⟩
    · rintro ⟨i', r, t, same, due, marked, rfl⟩
      rw [event] at same
      cases same
      exact ⟨(r, t), due, m, marked, rfl, rfl⟩
  · rename_i other
    exact ⟨nofun, fun ⟨i, _, _, event, _⟩ => absurd event (other i)⟩

theorem marks_snoc : marks app (steps ++ [s]) = marks app steps ++ (markOf app s).toList := by
  rw [marks, List.filterMap_append]
  cases marked : markOf app s <;> simp [marks, marked]

/-- What a process has run lies in the past. -/
theorem own_past (fresh : w.Fresh) (run : Run (authority app) (.start w) steps c)
    (member : q ∈ own i steps) : q.2.clock.nanos ≤ c.hist.now.clock.nanos := by
  obtain ⟨t, w'⟩ := q
  obtain ⟨s, there, -, -, rfl⟩ := mem_own.1 member
  obtain ⟨reach, next, since⟩ := run.mem (rely app) (handled (Later.views app.cfg)) (.start fresh)
    (fun s _ => meets_true _ _) s there
  have step := reach.step_rely (rely app) (handled (Later.views app.cfg)) next
  exact step.clock.trans since.clock

/-! ## The invariant of a run -/

/-- What the marks so far mean for the present state and for each other. -/
structure Cooled (app : App) (steps : List Step) (c : Conf World Stmt Request Response) :
    Prop where
  past : ∀ m ∈ marks app steps, m.2 ≤ c.hist.now.clock.nanos
  cooling : ∀ m ∈ marks app steps, ∀ p, m.1 = .give p →
    Cooling app.cfg c.hist.now p m.2 ∨ Arming c p
  checked : (marks app steps).Pairwise fun a b => ∀ i p, a.1 = .give p → b.1 = .check i p →
    a.2 + app.cfg.nameChangeCooldown ≤ b.2
  spaced : AntiChurn app steps

/-- A cooldown lasts through a step, and an arming ends in one. -/
theorem cooling_step {e : Concurrent.Event Request Around} {since : Nanos} (fresh : w.Fresh)
    (run : Run (authority app) (.start w) steps c) (next : (authority app).step c e = some d)
    (spares : c.Meets (fun _ t w => SparesCooldowns app.cfg t w) e)
    (before : since ≤ c.hist.now.clock.nanos)
    (old : Cooling app.cfg c.hist.now p since ∨ Arming c p) :
    Cooling app.cfg d.hist.now p since ∨ Arming d p := by
  have reach : Reachable (authority app) c := run.reach (.start fresh) fun s _ => meets_true _ _
  rcases old with cooling | ⟨q, member, tag⟩
  · left
    obtain hist | ⟨i, r, t, rfl, due, hist⟩ | ⟨v, s', -, moved, hist⟩ := step_cases reach next
    · exact hist ▸ cooling
    · rw [hist, Hist.push_now]
      exact cooling.section_ (run.section_due handlers_paths due)
        (fun q member => own_past fresh run member) before (spares _ due)
    · rw [hist, Hist.push_now]
      obtain ⟨-, rate, -, later⟩ := Around.move_frame moved
      rw [Cooling, rate]
      exact cooling.imp_right fun elapsed => elapsed.trans later
  · obtain ⟨k, found⟩ := List.mem_iff_getElem?.1 member
    obtain ⟨r, prog⟩ := q
    obtain ⟨-, still⟩ | ⟨t, u, n, rfl, ran, -⟩ := System.step_proc next found
    · exact .inr ⟨_, List.mem_of_getElem? still, tag⟩
    · left
      cases tag
      obtain ⟨rfl, ⟨r', due⟩, -⟩ := Transition.ran_eq_some.1 ran
      rw [step_due reach next due, Hist.push_now]
      exact cooling_armed before

/-- After a section that gives up a name its process arms the cooldown. -/
theorem give_arms (run : Run (authority app) (.start w) steps c)
    (next : (authority app).step c (.run i) = some d) {t : Stmt} (due : c.due i = some (r, t))
    (given : gives app r (t, c.hist.now) = some p) : Arming d p := by
  obtain ⟨u, n, found⟩ := Conf.due_eq_some.1 due
  have ran : (⟨c, .run i, d⟩ : Step).ran i = some (t, c.hist.now) :=
    Transition.ran_eq_some.2 ⟨rfl, ⟨r, due⟩, rfl⟩
  obtain ⟨idle, -⟩ | ⟨t', u', n', step, -, after⟩ := System.step_proc next found
  · rw [ran] at idle
    cases idle
  cases step
  have paths := (Run.snoc run next).paths_start handlers_paths after
  rw [own_snoc, ran] at paths
  have last : ((t, c.hist.now) : Stmt × World) ∈ (own i steps ++ [(t, c.hist.now)]).getLast? := by
    rw [List.getLast?_concat, Option.mem_some]
  refine ⟨_, List.mem_of_getElem? after, ?_⟩
  cases rest : n c.hist.now with
  | ret a =>
    rw [rest] at paths
    have plain : gives app r (t, c.hist.now) = none := paths _ last
    rw [given] at plain
    cases plain
  | step t' u' n' =>
    rw [rest] at paths
    exact congrArg some (paths.1.arms _ last p given)

/-- A check that finds nothing comes late enough after every give-up before it. -/
theorem check_spaced {since : Nanos} (fresh : w.Fresh)
    (run : Run (authority app) (.start w) steps c) {t : Stmt} (due : c.due i = some (r, t))
    (marked : mark app i r (t, c.hist.now) = some (.check j p))
    (before : since ≤ c.hist.now.clock.nanos) (cooling : Cooling app.cfg c.hist.now p since) :
    since + app.cfg.nameChangeCooldown ≤ c.hist.now.clock.nanos := by
  obtain ⟨-, bucket, window, now, rfl, inactive⟩ := mark_check marked
  obtain ⟨rfl, rfl, q, member, rfl⟩ := (run.section_due handlers_paths due).checks _ _ _ _ rfl
  exact cooling.elapsed (own_past fresh run member) inactive before

/-- A pairwise relation on a list, read in both directions. -/
theorem either_way {α : Type} {R : α → α → Prop} {l : List α} (pairs : l.Pairwise R) {a b : α}
    (first : a ∈ l) (second : b ∈ l) (apart : a ≠ b) : R a b ∨ R b a := by
  have symmetric : Std.Symm fun x y => R x y ∨ R y x := ⟨fun _ _ => Or.symm⟩
  have either : l.Pairwise fun x y => R x y ∨ R y x := pairs.imp .inl
  exact either.forall first second apart

/-- An insertion comes late enough after every give-up before its check, and
there is none after. -/
theorem insert_spaced {time : Nanos} (run : Run (authority app) (.start w) steps c)
    {t : Stmt} (due : c.due i = some (r, t))
    (marked : mark app i r (t, c.hist.now) = some (.insert j p)) (cooled : Cooled app steps c)
    (apart : (marks app steps).Pairwise fun a b => Interrupts a b (.insert i p, time) = false)
    (gave : m ∈ marks app steps) (of : m.1 = .give p) :
    m.2 + app.cfg.nameChangeCooldown ≤ c.hist.now.clock.nanos := by
  obtain ⟨-, name, rfl⟩ := mark_insert marked
  obtain ⟨now, w', ran, inactive⟩ := (run.section_due handlers_paths due).inserts _ _ rfl
  obtain ⟨s, there, event, ⟨r', due'⟩, rfl⟩ := mem_own.1 ran
  have checked : (Mark.check i p, s.before.hist.now.clock.nanos) ∈ marks app steps := by
    refine List.mem_filterMap.2 ⟨s, there, markOf_eq_some.2 ⟨i, r', _, event, due', ?_, rfl⟩⟩
    simp [mark, inactive]
  have differ : m ≠ (.check i p, s.before.hist.now.clock.nanos) := by
    rintro rfl
    cases of
  rcases either_way (cooled.checked.and apart) gave checked differ with ⟨late, -⟩ | ⟨-, interrupts⟩
  · exact (late i p of rfl).trans (cooled.past _ checked)
  · simp [Interrupts, of] at interrupts

theorem Unbroken.earlier {later : List Step} (unbroken : Unbroken app (steps ++ later)) :
    Unbroken app steps where
  apart := by
    have all := unbroken.apart
    rw [marks, List.filterMap_append, List.triplewise_append] at all
    exact all.1
  armed s member := unbroken.armed s (List.mem_append_left _ member)
  kept s member := unbroken.kept s (List.mem_append_left _ member)

/-- A pair of marks, the later one of the last step. -/
theorem marks_pairwise {R : Mark × Nanos → Mark × Nanos → Prop}
    (old : (marks app steps).Pairwise R)
    (new : ∀ b ∈ markOf app s, ∀ a ∈ marks app steps, R a b) :
    (marks app (steps ++ [s])).Pairwise R := by
  rw [marks_snoc, List.pairwise_append]
  refine ⟨old, ?_, fun a first b last => new b (Option.mem_toList.1 last) a first⟩
  cases markOf app s
  · exact List.Pairwise.nil
  · exact List.pairwise_singleton _ _

/-- **The step lemma.** An unbroken step keeps what the marks mean. -/
theorem Cooled.step {e : Concurrent.Event Request Around} (fresh : w.Fresh)
    (run : Run (authority app) (.start w) steps c) (next : (authority app).step c e = some d)
    (unbroken : Unbroken app (steps ++ [⟨c, e, d⟩])) (cooled : Cooled app steps c) :
    Cooled app (steps ++ [⟨c, e, d⟩]) d := by
  have reach : Reachable (authority app) c := run.reach (.start fresh) fun s _ => meets_true _ _
  have clock := (reach.step_rely (rely app) (handled (Later.views app.cfg)) next).clock
  have last : (⟨c, e, d⟩ : Step) ∈ steps ++ [⟨c, e, d⟩] := by simp
  constructor
  · intro m member
    rw [marks_snoc, List.mem_append, Option.mem_toList] at member
    rcases member with old | new
    · exact (cooled.past m old).trans clock
    · obtain ⟨_, _, _, -, -, -, time⟩ := markOf_eq_some.1 new
      exact time ▸ clock
  · intro m member p gave
    rw [marks_snoc, List.mem_append, Option.mem_toList] at member
    rcases member with old | new
    · exact cooling_step fresh run next (unbroken.kept _ last) (cooled.past m old)
        (cooled.cooling m old p gave)
    · obtain ⟨i, r, t, event, due, marked, -⟩ := markOf_eq_some.1 new
      cases event
      exact .inr (give_arms run next due (mark_give.1 (gave ▸ marked)))
  · refine marks_pairwise cooled.checked fun b new a old i p gave check => ?_
    obtain ⟨j, r, t, event, due, marked, time⟩ := markOf_eq_some.1 new
    rw [check] at marked
    rw [time]
    refine check_spaced fresh run due marked (cooled.past a old) ?_
    have armed := unbroken.armed _ last b new
    rw [check] at armed
    exact (cooled.cooling a old p gave).resolve_right armed
  · refine marks_pairwise cooled.spaced fun b new a old => ?_
    obtain ⟨i, r, t, event, due, marked, time⟩ := markOf_eq_some.1 new
    obtain ⟨a, since⟩ := a
    obtain ⟨b, now⟩ := b
    unfold Spaced
    split
    · rename_i p j p' gave insert
      rintro rfl
      cases insert
      cases gave
      obtain rfl := (mark_insert marked).1
      have triples := unbroken.apart
      rw [marks_snoc, List.triplewise_append] at triples
      rw [time]
      exact insert_spaced run due marked cooled
        (triples.2.2.2 _ (Option.mem_toList.2 new)) old rfl
    · trivial

theorem cooled_run (fresh : w.Fresh) (run : Run (authority app) (.start w) steps c)
    (unbroken : Unbroken app steps) : Cooled app steps c := by
  induction run with
  | nil => exact ⟨nofun, nofun, .nil, .nil⟩
  | snoc first next ih => exact (ih unbroken.earlier).step fresh first next unbroken

/-- **Anti-churn.** In every run that hits none of the gaps, no key registers a
name within the cooldown after it released or sold one. -/
theorem no_churn (fresh : w.Fresh) (run : Run (authority app) (.start w) steps c)
    (unbroken : Unbroken app steps) : AntiChurn app steps :=
  (cooled_run fresh run unbroken).spaced

end

namespace Scripted

def reregisterAda : Request := .register (headers "reregister ada") (utf8 "R1")

def lateRegisterAda : Request := .register (headers "late register ada") (utf8 "R1")

instance (steps : List Step) : Decidable (AntiChurn app steps) :=
  inferInstanceAs (Decidable (List.Pairwise _ _))

/-- The seller releases the name between the cooldown check and the insertion of
a registration. -/
def releasedInBetween : List (Concurrent.Event Request Around) :=
  .arrive registerAda :: sections 0 10 ++ .arrive reregisterAda :: sections 1 7 ++
    .arrive releaseAda :: sections 2 8 ++ sections 1 3

theorem churned : ∃ steps c, Run (authority app) (.start world) steps c ∧
    steps.map Transition.event = releasedInBetween ∧ ¬ AntiChurn app steps := by
  have run : (((authority app).record (.start world) releasedInBetween).any fun q =>
      !decide (AntiChurn app q.1)) = true := by
    decide +kernel
  obtain ⟨⟨steps, c⟩, recorded, churned⟩ := (Option.any_eq_true _ _).1 run
  exact ⟨steps, c, .record recorded, record_events recorded, by simpa using churned⟩

/-- The seller releases the name and registers it again 700 seconds later. -/
def registeredLater : List (Concurrent.Event Request Around) :=
  .arrive registerAda :: sections 0 10 ++ .arrive releaseAda :: sections 1 8 ++
    .env (.advance (clock (1700 * 1000000000))) :: .arrive lateRegisterAda :: sections 2 10

theorem kept_cooldown : ∃ steps c, Run (authority app) (.start world) steps c ∧
    (marks app steps).map Prod.fst = [.check 0 seller.toHex, .insert 0 seller.toHex,
      .give seller.toHex, .check 2 seller.toHex, .insert 2 seller.toHex] ∧
    AntiChurn app steps := by
  have run : (((authority app).record (.start world) registeredLater).any fun q =>
      (marks app q.1).map Prod.fst == [.check 0 seller.toHex, .insert 0 seller.toHex,
        .give seller.toHex, .check 2 seller.toHex, .insert 2 seller.toHex] &&
      decide ((marks app q.1).Triplewise fun a b c => Interrupts a b c = false) &&
      decide (∀ s ∈ q.1, ∀ m ∈ markOf app s, AfterArming s.before m.1) &&
      decide (∀ s ∈ q.1, s.before.Meets (fun _ t w => SparesCooldowns app.cfg t w) s.event)) =
      true := by
    decide +kernel
  obtain ⟨⟨steps, c⟩, recorded, found⟩ := (Option.any_eq_true _ _).1 run
  simp only [Bool.and_eq_true, beq_iff_eq, decide_eq_true_eq] at found
  obtain ⟨⟨⟨order, apart⟩, armed⟩, kept⟩ := found
  have run := Run.record recorded
  exact ⟨steps, c, run, order, no_churn world_fresh run ⟨apart, armed, kept⟩⟩

end Scripted

end Nip05d
