import Mathlib.Data.List.Perm.Subperm
import Nip05d.Limiter
import Nip05d.Unmounted

/-!
# Request budgets

Every request passes one limiter before anything else, and its clock reading and
its access of the map are separate sections. `asked` is the log of these calls
in a run of interleaving requests. As long as calls reach the map in the order
in which they read the clock, and no clean-up drops what a bucket still needs,
an address gets no more requests through within a window than its bucket allows,
whichever requests they are and however they interleave.
-/

namespace Nip05d

open Auth Concurrent Handlers RateLimit

/-- A call of the limiter, with its answer. -/
def Stmt.asks (t : Stmt) (w : World) : Option RateLimit.Answered :=
  match t with
  | .allow bucket ip max window now =>
    some ⟨.allow bucket ip, now, (RateLimit.allow w.rate bucket ip max window now).1⟩
  | _ => none

/-- What a step asks the limiter. -/
def asked (s : Step) : Option RateLimit.Answered :=
  match s.event with
  | .run i => (s.before.due i).bind fun q => q.2.asks s.before.hist.now
  | _ => none

/-- The calls of the limiter in a run. -/
def limiterLog (steps : List Step) : List RateLimit.Answered := steps.filterMap asked

/-- The buckets of the limiter. -/
def gates : List String := ["read", "reg", "unreg", "transfer"]

/-- Accesses of the rate map with the limits of the configuration. -/
def Rated (cfg : Config) : Stmt → Prop
  | .allow bucket _ max window _ =>
    bucket ∈ gates ∧ max = (limits cfg).max bucket ∧ window = (limits cfg).window bucket
  | .cooldownActive bucket _ _ _ | .recordOp bucket _ => bucket = "namechange"
  | _ => True

/-- Sections behind the limiter. -/
def Inner : Stmt → Prop
  | .allow .. => False
  | .cooldownActive bucket _ _ _ | .recordOp bucket _ => bucket = "namechange"
  | _ => True

/-- The bucket of a request, and the headers that give its address. -/
def Request.gate : Request → String × Headers
  | .availability headers _ | .profile headers _ | .byPubkey headers _ | .wellKnown headers _
  | .readOffer headers _ => ("read", headers)
  | .register headers _ => ("reg", headers)
  | .unregister headers _ => ("unreg", headers)
  | .lodgeOffer headers _ | .revokeOffer headers _ | .claim headers _ => ("transfer", headers)

/-- What a request that is answered has asked the limiter: once, with its bucket
and its address, and it was refused when the limiter said so. -/
def Gated (r : Request) (calls : List RateLimit.Answered) (response : Response) : Prop :=
  ∃ time answer, calls = [⟨.allow r.gate.1 (clientIp r.gate.2), time, answer⟩] ∧
    (answer = false → response.status = 429)

section

variable {app : App} {headers : Headers} {α : Type}

/-! ## Behind the limiter -/

theorem inner_asks {t : Stmt} {w : World} {a : RateLimit.Answered} (inner : Inner t) :
    t.asks w ≠ some a := by
  cases t with
  | allow => exact inner.elim
  | _ => exact nofun

theorem Rated.of_inner {cfg : Config} {t : Stmt} (inner : Inner t) : Rated cfg t := by
  cases t with
  | allow => exact inner.elim
  | _ => exact inner

/-- A limiter in front of sections that ask it no more. -/
theorem gated_emits {bucket : String} {max : Nat} {window : Nanos} {k : Bool → Handler Response}
    {r : Request} (gate : r.gate = (bucket, headers)) (rest : ∀ allowed, (k allowed).Only Inner)
    (refused : ∃ response, k false = pure response ∧ response.status = 429) :
    (Handler.allow app.cfg bucket (clientIp headers) max window >>= k).Emits Stmt.asks (Gated r) := by
  have quiet : ∀ allowed, (k allowed).Emits Stmt.asks fun es _ => ∀ e ∈ es, False := fun allowed =>
    (rest allowed).emits fun t w e inner asks => inner_asks inner asks
  intro w w'
  change (k (RateLimit.allow w'.rate bucket (clientIp headers) max window w.clock.nanos).1).Emits _ _
  cases answer : (RateLimit.allow w'.rate bucket (clientIp headers) max window w.clock.nanos).1 with
  | true =>
    refine (quiet true).mono fun es response none_ => ⟨w.clock.nanos, true, ?_, nofun⟩
    rw [List.eq_nil_iff_forall_not_mem.2 none_, gate]
    simp [Stmt.asks, answer]
  | false =>
    obtain ⟨response, same, status⟩ := refused
    rw [same]
    refine ⟨w.clock.nanos, false, ?_, fun _ => status⟩
    rw [gate]
    simp [Stmt.asks, answer]

/-- A handler asks the limiter once, with its bucket's limits, and then no more. -/
structure Behind (app : App) (r : Request) (p : Handler Response) : Prop where
  gated : p.Emits Stmt.asks (Gated r)
  rated : p.Only (Rated app.cfg)

theorem behind_gate {bucket : String} {max : Nat} {window : Nanos} {k : Bool → Handler Response}
    {r : Request} (gate : r.gate = (bucket, headers)) (known : bucket ∈ gates)
    (max_ : max = (limits app.cfg).max bucket) (window_ : window = (limits app.cfg).window bucket)
    (rest : ∀ allowed, (k allowed).Only Inner)
    (refused : ∃ response, k false = pure response ∧ response.status = 429) :
    Behind app r (Handler.allow app.cfg bucket (clientIp headers) max window >>= k) where
  gated := gated_emits gate rest refused
  rated := by
    have look : Rated app.cfg .look := trivial
    refine (only_timed look fun _ => ?_).bind fun allowed => (rest allowed).mono fun _ => Rated.of_inner
    exact ⟨known, max_, window_⟩

theorem behind_authorized {bucket : String} {method : Method} {urlPath : String} {body : Bytes}
    {next : String → Handler Response} {r : Request} (gate : r.gate = (bucket, headers))
    (known : bucket ∈ ["reg", "unreg", "transfer"]) (goes : ∀ key, (next key).Only Inner) :
    Behind app r (authorized app bucket headers method urlPath body next) := by
  have writes : bucket ≠ "read" ∧ bucket ≠ "namechange" := by
    simp only [List.mem_cons, List.not_mem_nil, or_false] at known
    rcases known with rfl | rfl | rfl <;> decide
  refine behind_gate gate (List.mem_cons_of_mem _ known) (if_neg writes.1).symm ?_ (fun allowed => ?_)
    ⟨_, rfl, rfl⟩
  · exact ((if_neg writes.1).trans (if_neg writes.2)).symm
  split
  · trivial
  refine (only_look trivial).bind fun now => ?_
  split
  · trivial
  refine (only_timed trivial fun _ => trivial).bind fun fresh => ?_
  split
  · trivial
  · exact goes _

theorem behind_limited {next : Handler Response} {r : Request} (gate : r.gate = ("read", headers))
    (goes : next.Only Inner) : Behind app r (limited app headers next) := by
  refine behind_gate gate List.mem_cons_self rfl rfl (fun allowed => ?_) ⟨_, rfl, rfl⟩
  split
  · trivial
  · exact goes

theorem inner_check (key : String) (window now : Nanos) :
    Inner (.cooldownActive "namechange" key window now) := rfl

theorem inner_arm (key : String) : Inner (.recordOp "namechange" key) := rfl

theorem inner_settle {cfg : Config} {offer : OfferRow} {now : Int} :
    (settleExpiry cfg offer now).Only Inner := by
  unfold settleExpiry
  split
  · trivial
  · refine (only_look trivial).bind fun endHeight => (only_exec trivial).bind fun done => ?_
    have look : Inner .look := trivial
    exact (only_look look).bind fun settled => trivial

/-! ## The handlers -/

theorem register_behind (headers : Headers) (body : Bytes) :
    Behind app (.register headers body) (register app headers body) := by
  refine behind_authorized rfl (by decide) fun key => ?_
  refine (only_timed trivial fun now => inner_check key _ now).bind fun cooling => ?_
  split
  · trivial
  split
  · trivial
  refine (only_look trivial).bind fun owner => ?_
  split
  · split <;> trivial
  refine (only_look trivial).bind fun existing => ?_
  split
  · trivial
  · exact (only_exec trivial).bind fun _ => trivial

theorem unregister_behind (headers : Headers) (name : String) :
    Behind app (.unregister headers name) (unregister app headers name) := by
  refine behind_authorized rfl (by decide) fun key => ?_
  refine (only_look trivial).bind fun owner => ?_
  split
  · split
    · refine (only_exec trivial).bind fun done => ?_
      split
      · exact (only_exec (inner_arm key)).bind fun _ => trivial
      · trivial
    · trivial
  · trivial

theorem availability_behind (headers : Headers) (name : String) :
    Behind app (.availability headers name) (availability app headers name) := by
  refine behind_limited rfl ?_
  dsimp only
  split
  · trivial
  split
  · trivial
  refine (only_look trivial).bind fun owner => ?_
  split <;> trivial

theorem profile_behind (headers : Headers) (name : String) :
    Behind app (.profile headers name) (profile app headers name) := by
  refine behind_limited rfl ?_
  dsimp only
  split
  · trivial
  refine (only_look trivial).bind fun owner => ?_
  split <;> trivial

theorem byPubkey_behind (headers : Headers) (pubkey : String) :
    Behind app (.byPubkey headers pubkey) (byPubkey app headers pubkey) := by
  refine behind_limited rfl ?_
  dsimp only
  split
  · trivial
  refine (only_look trivial).bind fun name => ?_
  split <;> trivial

theorem wellKnown_behind (headers : Headers) (name : Option String) :
    Behind app (.wellKnown headers name) (wellKnown app headers name) := by
  refine behind_gate rfl List.mem_cons_self rfl rfl (fun allowed => ?_) ⟨_, rfl, rfl⟩
  split
  · trivial
  refine Prog.Only.bind ?_ fun entry => trivial
  cases name with
  | none => trivial
  | some name =>
    dsimp only [wellKnownEntry]
    split
    · trivial
    · exact (only_look trivial).bind fun owner => trivial

theorem lodgeOffer_behind (headers : Headers) (body : Bytes) :
    Behind app (.lodgeOffer headers body) (lodgeOffer app headers body) := by
  refine behind_authorized rfl (by decide) fun key => ?_
  split
  · trivial
  split
  · trivial
  split
  · trivial
  refine (only_look trivial).bind fun now => ?_
  split
  · trivial
  refine (only_look trivial).bind fun owner => ?_
  split
  · trivial
  refine (only_look trivial).bind fun sameName => ?_
  split
  · trivial
  refine (only_look trivial).bind fun sameAddress => ?_
  split
  · trivial
  · exact (only_exec trivial).bind fun _ => trivial

theorem readOffer_behind (headers : Headers) (offerId : String) :
    Behind app (.readOffer headers offerId) (readOffer app headers offerId) := by
  refine behind_limited rfl ((only_look trivial).bind fun offer => ?_)
  split
  · trivial
  · exact (only_look trivial).bind fun now => inner_settle.bind fun _ => trivial

theorem revokeOffer_behind (headers : Headers) (offerId : String) :
    Behind app (.revokeOffer headers offerId) (revokeOffer app headers offerId) := by
  refine behind_authorized rfl (by decide) fun key => (only_look trivial).bind fun offer => ?_
  split
  · trivial
  split
  · trivial
  split
  · trivial
  split
  · trivial
  refine (only_look trivial).bind fun now => ?_
  split
  · exact (only_look trivial).bind fun endHeight => (only_exec trivial).bind fun _ => trivial
  · exact (only_exec trivial).bind fun _ => trivial

theorem claim_behind (headers : Headers) (body : Bytes) :
    Behind app (.claim headers body) (claim app headers body) := by
  refine behind_authorized rfl (by decide) fun key => ?_
  split
  · trivial
  refine (only_look trivial).bind fun offer => ?_
  split
  · trivial
  refine (only_look trivial).bind fun now => inner_settle.bind fun offer => ?_
  split
  · rw [claimRetry_eq]
    exact ⟨trivial, fun _ => trivial⟩
  unfold claimOpen
  split
  · trivial
  split
  · trivial
  refine (only_look trivial).bind fun owner => ?_
  split
  · trivial
  split
  · trivial
  refine (only_look trivial).bind fun kernel => ?_
  split
  · trivial
  split
  · trivial
  dsimp only
  split
  · trivial
  refine (only_look trivial).bind fun used => ?_
  split
  · trivial
  refine (only_look trivial).bind fun existing => ?_
  split
  · trivial
  refine (only_exec trivial).bind fun result => ?_
  cases result with
  | ok => exact (only_exec (inner_arm offer.sellerPubkey)).bind fun _ => trivial
  | error e => cases e <;> trivial

/-- A request is behind its gate, or has no route. -/
theorem handlers_behind (r : Request) : Behind app r ((authority app).handler r) ∨
    (authority app).handler r = pure unrouted := by
  have mounts : ∀ handler : Handler Response, Behind app r handler →
      Behind app r (mounted app handler) ∨ mounted app handler = pure unrouted := by
    intro handler behind
    unfold mounted
    split
    · exact .inl behind
    · exact .inr rfl
  cases r with
  | availability headers name => exact .inl (availability_behind headers name)
  | register headers body => exact .inl (register_behind headers body)
  | unregister headers name => exact .inl (unregister_behind headers name)
  | profile headers name => exact .inl (profile_behind headers name)
  | byPubkey headers pubkey => exact .inl (byPubkey_behind headers pubkey)
  | wellKnown headers name => exact .inl (wellKnown_behind headers name)
  | lodgeOffer headers body => exact mounts _ (lodgeOffer_behind headers body)
  | readOffer headers offerId => exact mounts _ (readOffer_behind headers offerId)
  | revokeOffer headers offerId => exact mounts _ (revokeOffer_behind headers offerId)
  | claim headers body => exact mounts _ (claim_behind headers body)

theorem handlers_rated (r : Request) : ((authority app).handler r).Only (Rated app.cfg) := by
  rcases handlers_behind r with behind | unrouted_
  · exact behind.rated
  · rw [unrouted_]
    trivial

/-- What a request asks the limiter, and its answer. -/
theorem handlers_gated (r : Request) : ((authority app).handler r).Emits Stmt.asks
    fun calls response => Gated r calls response ∨ calls = [] ∧ response = unrouted := by
  rcases handlers_behind r with behind | unrouted_
  · exact behind.gated.mono fun calls response => .inl
  · rw [unrouted_]
    exact .inr ⟨rfl, rfl⟩

end

/-! ## The map in a run -/

/-- No limiter has a shorter window than a bucket. -/
def Shortest (cfg : Config) (bucket : String) : Prop :=
  (limits cfg).window bucket ≤ cfg.readRateWindow ∧ (limits cfg).window bucket ≤ cfg.writeRateWindow

/-- Clean-ups leave a bucket what it needs in a run: its window is the shortest,
or the map stays small. -/
def Lasting (app : App) (bucket : String) (steps : List Step) : Prop :=
  Shortest app.cfg bucket ∨ ∀ s ∈ steps, s.before.hist.now.rate.size < 50000

section

variable {app : App} {bucket ip : String} {w : World} {c d d' : Conf World Stmt Request Response}
  {steps : List Step} {e : Concurrent.Event Request Around}

theorem plain_gate (known : bucket ∈ gates) : ':' ∉ Text.chars bucket ∧ bucket ≠ "namechange" := by
  simp only [gates, List.mem_cons, List.not_mem_nil, or_false] at known
  rcases known with rfl | rfl | rfl | rfl <;> decide

/-- The entry of an address is none of a cooldown. -/
theorem gate_key (known : bucket ∈ gates) (key : String) :
    "namechange" ++ ":" ++ key ≠ bucket ++ ":" ++ ip := fun same =>
  (plain_gate known).2 (key_inj (by decide) (plain_gate known).1 same).1.symm

/-- A section other than a call of the limiter leaves the entries of addresses. -/
theorem apply_entry {t : Stmt} (rated : Rated app.cfg t) (silent : ∀ w, t.asks w = none)
    (known : bucket ∈ gates) :
    (t.apply app.cfg w).rate.get (bucket ++ ":" ++ ip) = w.rate.get (bucket ++ ":" ++ ip) := by
  have executed : ∀ statement, (w.execute statement).2.rate = w.rate := by
    intro statement
    obtain same | ⟨n, db, -, -, -, after⟩ := w.execute_cases statement
    · rw [same]
    · rw [after]
  cases t with
  | look | authEventFresh => rfl
  | allow bucket' ip' max window now => cases silent w
  | cooldownActive bucket' key window now =>
    obtain rfl : bucket' = "namechange" := rated
    simp only [Stmt.apply, RateLimit.cooldownActive]
    split
    · rw [Dict.get_set, if_neg (gate_key known key)]
    · rfl
  | recordOp bucket' key =>
    obtain rfl : bucket' = "namechange" := rated
    simp only [Stmt.apply, RateLimit.recordOp]
    rw [Dict.get_set, if_neg (gate_key known key)]
  | registerName | releaseName | insertOffer | markOfferDead | revokeExpired =>
    rw [Stmt.apply, executed]
  | claimTxn offer excessHex kernelHeight now =>
    obtain ⟨db, -, after⟩ | ⟨e, -, after⟩ := w.claimTxn_cases offer excessHex kernelHeight now
    · rw [Stmt.apply, after]
    · rw [Stmt.apply, after]

/-- A step asks the limiter and leaves its map, or leaves the entries of all
addresses alone. -/
inductive Asks (app : App) (s : Step) : Prop
  | call {bucket ip : String} {now : Nanos} : bucket ∈ gates →
      asked s = some ⟨.allow bucket ip, now,
        ((Call.allow bucket ip).run (limits app.cfg) now s.before.hist.now.rate).1⟩ →
      s.after.hist.now.rate =
        ((Call.allow bucket ip).run (limits app.cfg) now s.before.hist.now.rate).2 → Asks app s
  | other : asked s = none → (∀ bucket ip, bucket ∈ gates →
      s.after.hist.now.rate.get (bucket ++ ":" ++ ip) =
        s.before.hist.now.rate.get (bucket ++ ":" ++ ip)) → Asks app s

theorem step_asks (run : Run (authority app) (.start w) steps d)
    (next : (authority app).step d e = some d') : Asks app ⟨d, e, d'⟩ := by
  obtain ⟨r, rfl, hist, -⟩ | ⟨i, r, t, u, n, rfl, found, -, -⟩ | ⟨v, s, rfl, moved, hist, -⟩ :=
    System.step_cases next
  · exact .other rfl fun _ _ _ => by rw [hist]
  · have due : d.due i = some (r, t) := Conf.due_eq_some.2 ⟨u, n, found⟩
    have hist := rooted_due (System.rooted_reach run) next due
    have rated := run.only handlers_rated due
    have asked_ : asked ⟨d, .run i, d'⟩ = t.asks d.hist.now := by simp [asked, due]
    by_cases silent : ∀ w, t.asks w = none
    · refine .other (asked_.trans (silent _)) fun bucket ip known => ?_
      rw [hist]
      exact apply_entry rated silent known
    · cases t with
      | allow bucket ip max window now =>
        obtain ⟨known, rfl, rfl⟩ := rated
        exact .call known asked_ (by rw [hist]; rfl)
      | _ => exact absurd (fun _ => rfl) silent
  · refine .other rfl fun _ _ _ => ?_
    rw [hist, Hist.push_now, (Around.move_frame moved).2.1]

/-- A time lies in the window that starts at `T`. -/
def inSpan (T window t : Nat) : Bool := T ≤ t && t < T + window

theorem recent_of_span {T window now t : Nat} (here : inSpan T window now = true)
    (there : inSpan T window t = true) : recent now window t = true := by
  simp only [inSpan, Bool.and_eq_true, decide_eq_true_eq] at here there
  rw [recent, decide_eq_true_eq]
  change (now : Nat) - t < window
  omega

/-- No window has more calls let through than the bucket allows. -/
def Budgeted (limits : Limits) (bucket ip : String) (log : List RateLimit.Answered) : Prop :=
  ∀ T, ((times log (.allow bucket ip)).filter (inSpan T (limits.window bucket))).length ≤
    limits.max bucket

/-- A limiter that counts the past keeps the budget. -/
theorem Budgeted.snoc {limits : Limits} {log : List RateLimit.Answered} {a : RateLimit.Answered}
    (budgeted : Budgeted limits bucket ip log)
    (fair : a.call = .allow bucket ip → a.answer = decided limits log a.time a.call) :
    Budgeted limits bucket ip (log ++ [a]) := by
  intro T
  rw [times_snoc]
  by_cases passes : a.call = .allow bucket ip ∧ a.answer = true
  · rw [if_pos passes, List.filter_append, List.length_append]
    by_cases here : inSpan T (limits.window bucket) a.time = true
    · have room := fair passes.1
      rw [passes.1, passes.2] at room
      have room' := of_decide_eq_true room.symm
      have fewer : ((times log (.allow bucket ip)).filter (inSpan T (limits.window bucket))).length ≤
          ((times log (.allow bucket ip)).filter (recent a.time (limits.window bucket))).length := by
        exact (List.monotone_filter_right _ fun t spans => recent_of_span here spans).length_le
      rw [List.filter_cons_of_pos here, List.filter_nil, List.length_singleton]
      omega
    · rw [List.filter_cons_of_neg here, List.filter_nil, List.length_nil, Nat.add_zero]
      exact budgeted T
  · rw [if_neg passes, List.append_nil]
    exact budgeted T

/-- The clean-up of a call spares the entry of an address. -/
theorem spares_entry {bucket' ip' : String} {now : Nat} (known' : bucket' ∈ gates)
    (lasting : Shortest app.cfg bucket ∨ w.rate.size < 50000) :
    Spares (limits app.cfg) [(.allow bucket ip, 0)] w.rate now (.allow bucket' ip') := by
  rcases lasting with short | small
  · refine .inr (.inr fun q member hits _ => ?_)
    rw [List.mem_singleton] at member
    subst member
    have longer : (limits app.cfg).window bucket ≤ (limits app.cfg).window bucket' := by
      simp only [gates, List.mem_cons, List.not_mem_nil, or_false] at known'
      rcases known' with rfl | rfl | rfl | rfl
      · exact short.1
      · exact short.2
      · exact short.2
      · exact short.2
    cases none_ : hits.any (recent now ((limits app.cfg).window bucket)) with
    | false => exact .inr none_
    | true =>
      obtain ⟨t, there, hit⟩ := List.any_eq_true.1 none_
      refine .inl (List.any_eq_true.2 ⟨t, there, ?_⟩)
      simp only [recent, decide_eq_true_eq] at hit ⊢
      exact Nat.lt_of_lt_of_le hit longer
  · refine .inr (.inl ((Dict.size_set_le ..).trans ?_))
    omega

theorem limiterLog_snoc (s : Step) : limiterLog (steps ++ [s]) = limiterLog steps ++ (asked s).toList := by
  rw [limiterLog, List.filterMap_append]
  cases made : asked s <;> simp [made, limiterLog]

/-- In a run the map has the past of an address, and its budget is kept. -/
theorem budget_run (fresh : w.rate = .empty) (run : Run (authority app) (.start w) steps c)
    (known : bucket ∈ gates) (lasting : Lasting app bucket steps)
    (ordered : (limiterLog steps).Pairwise fun a b => a.time ≤ b.time) :
    (∀ now : Nat, (∀ a ∈ limiterLog steps, a.time ≤ now) →
      RateLimit.Kept (limits app.cfg) [(.allow bucket ip, 0)] (limiterLog steps) c.hist.now.rate now) ∧
    Budgeted (limits app.cfg) bucket ip (limiterLog steps) := by
  induction run with
  | nil =>
    refine ⟨fun now _ q member later _ => ?_, fun T => Nat.zero_le _⟩
    change ((w.rate.get _).getD []).filter _ = _
    rw [fresh]
    rfl
  | @snoc steps d d' e first next ih =>
    rw [limiterLog_snoc] at ordered ⊢
    rw [List.pairwise_append] at ordered
    obtain ⟨kept, budgeted⟩ := ih (lasting.imp_right fun small s member =>
      small s (List.mem_append_left _ member)) ordered.1
    have here := lasting.imp_right fun small => small ⟨d, e, d'⟩ (by simp)
    cases step_asks first next with
    | other silent same =>
      rw [silent, Option.toList_none, List.append_nil]
      refine ⟨fun now late q member => ?_, budgeted⟩
      rw [List.mem_singleton] at member
      subst member
      have entry : d'.hist.now.rate.get (Call.allow bucket ip).key =
          d.hist.now.rate.get (Call.allow bucket ip).key := same bucket ip known
      rw [entry]
      exact kept now late _ List.mem_cons_self
    | @call bucket' ip' now known' asks after =>
      rw [asks, Option.toList_some] at ordered ⊢
      have before := kept now fun a old => ordered.2.2 a old _ List.mem_cons_self
      have spares : Spares (limits app.cfg) [(.allow bucket ip, 0)] d.hist.now.rate now
          (.allow bucket' ip') := spares_entry known' here
      have step : RateLimit.Kept (limits app.cfg) [(.allow bucket ip, 0)]
          (limiterLog steps ++ [⟨.allow bucket' ip', now,
            ((Call.allow bucket' ip').run (limits app.cfg) now d.hist.now.rate).1⟩])
          d'.hist.now.rate now := by
        intro q member later order
        rw [List.mem_singleton] at member
        subst member
        have moved : d'.hist.now.rate = _ := after
        rw [moved]
        by_cases same : Call.allow bucket' ip' = .allow bucket ip
        · rw [same]
          exact before.own (c := (.allow bucket ip, 0)) List.mem_cons_self order
        · have apart : (Call.allow bucket' ip').key ≠ (Call.allow bucket ip).key := by
            intro keys
            obtain ⟨rfl, rfl⟩ := key_inj (plain_gate known').1 (plain_gate known).1 keys
            exact same rfl
          exact before.other (c := (.allow bucket' ip', 0)) List.mem_cons_self order spares apart
      refine ⟨fun later late => step.mono (late _ (List.mem_append_right _ List.mem_cons_self)),
        budgeted.snoc fun same => ?_⟩
      dsimp only at same ⊢
      rw [same]
      exact before.decides (c := (.allow bucket ip, 0)) List.mem_cons_self

/-! ## Requests -/

/-- A process came to the limiter with a reading of the clock. -/
def EntersAt (steps : List Step) (i : Nat) (time : Nanos) : Prop :=
  ∃ s ∈ steps, s.event = .run i ∧ ∃ a, asked s = some a ∧ a.time = time

/-- The process that a step lets through for an address within a window. -/
def letThrough (limits : Limits) (bucket ip : String) (T : Nat) (s : Step) : Option Nat :=
  match s.event with
  | .run i =>
    if (asked s).any fun a => decide (a.call = .allow bucket ip) && a.answer &&
        inSpan T (limits.window bucket) a.time then some i else none
  | _ => none

theorem letThrough_length (limits : Limits) (T : Nat) :
    (steps.filterMap (letThrough limits bucket ip T)).length ≤
      ((times (limiterLog steps) (.allow bucket ip)).filter
        (inSpan T (limits.window bucket))).length := by
  induction steps using List.reverseRecOn with
  | nil => exact le_rfl
  | append_singleton steps s ih =>
    rw [List.filterMap_append, List.length_append, limiterLog_snoc]
    cases asks : asked s with
    | none =>
      have none_ : letThrough limits bucket ip T s = none := by
        unfold letThrough
        rw [asks]
        cases s.event <;> rfl
      rw [Option.toList_none, List.append_nil, List.filterMap_cons_none none_]
      exact ih
    | some a =>
      rw [Option.toList_some, times_snoc]
      by_cases passes : (a.call = .allow bucket ip ∧ a.answer = true) ∧
          inSpan T (limits.window bucket) a.time = true
      · rw [if_pos passes.1, List.filter_append, List.length_append, List.filter_cons_of_pos passes.2]
        exact Nat.add_le_add ih (List.length_filterMap_le _ _)
      · have none_ : letThrough limits bucket ip T s = none := by
          unfold letThrough
          rw [asks]
          cases s.event <;> simp_all
        rw [List.filterMap_cons_none none_, List.filterMap_nil, List.length_nil, Nat.add_zero]
        refine ih.trans ?_
        rw [List.filter_append, List.length_append]
        exact Nat.le_add_right _ _

theorem gate_known (r : Request) : r.gate.1 ∈ gates := by
  cases r <;> simp [Request.gate, gates]

/-- What a finished request that came to the limiter asked it. -/
theorem enters_gated {i : Nat} {r : Request} {response : Response} {time : Nanos}
    (run : Run (authority app) (.start w) steps c) (done : c.procs[i]? = some (r, .ret response))
    (enters : EntersAt steps i time) : ∃ s ∈ steps, ∃ answer, s.event = .run i ∧
      asked s = some ⟨.allow r.gate.1 (clientIp r.gate.2), time, answer⟩ ∧
      (answer = false → response.status = 429) := by
  obtain ⟨s, member, event, a, asks, rfl⟩ := enters
  have mine : a ∈ emitted Stmt.asks i steps := by
    have asks' := asks
    rw [asked, event] at asks'
    obtain ⟨⟨r', t⟩, due, asks'⟩ := Option.bind_eq_some_iff.1 asks'
    exact List.mem_filterMap.2
      ⟨(t, s.before.hist.now), mem_own.2 ⟨s, member, event, ⟨r', due⟩, rfl⟩, asks'⟩
  obtain ⟨time, answer, calls, refused⟩ | ⟨none_, -⟩ := run.emitted handlers_gated done
  · rw [calls, List.mem_singleton] at mine
    subst mine
    exact ⟨s, member, answer, event, asks, refused⟩
  · rw [none_] at mine
    cases mine

/-- **Budgets hold.** Of the requests of an address to a bucket that came to the
limiter within a window, no more than the bucket allows are answered other than
429, whichever requests they are and however they interleave. -/
theorem budgets_hold (fresh : w.rate = .empty) (run : Run (authority app) (.start w) steps c)
    (ordered : (limiterLog steps).Pairwise fun a b => a.time ≤ b.time)
    (lasting : Lasting app bucket steps) (T : Nat) (is : List Nat) (distinct : is.Nodup)
    (served : ∀ i ∈ is, ∃ r response time, c.procs[i]? = some (r, .ret response) ∧
      r.gate.1 = bucket ∧ clientIp r.gate.2 = ip ∧ response.status ≠ 429 ∧
      EntersAt steps i time ∧ T ≤ time ∧ time < T + (limits app.cfg).window bucket) :
    is.length ≤ (limits app.cfg).max bucket := by
  cases some_ : is with
  | nil => exact Nat.zero_le _
  | cons i₀ rest =>
    have known : bucket ∈ gates := by
      obtain ⟨r, -, -, -, rfl, -⟩ := served i₀ (some_ ▸ List.mem_cons_self)
      exact gate_known r
    rw [← some_]
    have within : is ⊆ steps.filterMap (letThrough (limits app.cfg) bucket ip T) := by
      intro i member
      obtain ⟨r, response, time, done, rfl, rfl, other, enters, first, last⟩ := served i member
      obtain ⟨s, there, answer, event, asks, refused⟩ := enters_gated run done enters
      obtain rfl : answer = true := by
        by_contra not_
        exact other (refused (by simpa using not_))
      refine List.mem_filterMap.2 ⟨s, there, ?_⟩
      have span : inSpan T ((limits app.cfg).window r.gate.1) time = true := by
        rw [inSpan, Bool.and_eq_true, decide_eq_true_eq, decide_eq_true_eq]
        exact ⟨first, last⟩
      simp [letThrough, event, asks, span]
    exact ((List.subperm_of_subset distinct within).length_le.trans (letThrough_length _ T)).trans
      ((budget_run fresh run known lasting ordered).2 T)

end

namespace Scripted

/-- The scripted authority with one read for each address within a minute. -/
def scarceApp : App := ⟨{ config with readRateMax := 1 }, crates script⟩

def askAda : Request := .profile (headers "") "ada"

/-- Two reads of one address; the second reaches the map first. -/
def twoReads : List (Concurrent.Event Request Around) :=
  [.arrive askAda, .arrive askAda, .run 0, .run 1, .run 1, .run 0, .run 1]

/-- A process came to the limiter at second 1000. -/
def entersBool (steps : List Step) (i : Nat) : Bool :=
  steps.any fun s => match s.event with
    | .run j => j == i && (asked s).any (·.time == 1000 * 1000000000)
    | _ => false

theorem enters_of_bool {steps : List Step} {i : Nat} (enters : entersBool steps i = true) :
    EntersAt steps i (1000 * 1000000000) := by
  obtain ⟨s, member, here⟩ := List.any_eq_true.1 enters
  split at here
  · rename_i j event
    rw [Bool.and_eq_true, beq_iff_eq, Option.any_eq_true] at here
    obtain ⟨rfl, a, asks, time⟩ := here
    exact ⟨s, member, event, a, asks, beq_iff_eq.1 time⟩
  · cases here

/-- The read that came second to the map is refused. -/
theorem second_refused : ∃ steps c response response', Run (authority scarceApp) (.start world) steps c ∧
    c.procs[1]? = some (askAda, .ret response) ∧ response.status = 404 ∧
    c.procs[0]? = some (askAda, .ret response') ∧ response'.status = 429 := by
  have run : (((authority scarceApp).record (.start world) twoReads).any fun q =>
      entersBool q.1 0 && (entersBool q.1 1 &&
      (decide ((limiterLog q.1).Pairwise fun a b => a.time ≤ b.time) &&
      (q.2.procs[0]?.any (fun p => p.1 == askAda && p.2.answer?.any fun _ => true) &&
        q.2.procs[1]?.any (fun p => p.1 == askAda && p.2.answer?.any (·.status == 404)))))) = true := by
    decide +kernel
  obtain ⟨⟨steps, c⟩, recorded, found⟩ := (Option.any_eq_true _ _).1 run
  rw [Bool.and_eq_true, Bool.and_eq_true, Bool.and_eq_true, Bool.and_eq_true, decide_eq_true_eq] at found
  obtain ⟨enters₀, enters₁, ordered, first, second⟩ := found
  obtain ⟨response', done', -⟩ := answered_of_any first
  obtain ⟨response, done, missing⟩ := answered_of_any second
  rw [beq_iff_eq] at missing
  refine ⟨steps, c, response, response', .record recorded, done, missing, done', ?_⟩
  by_contra other
  have served : ∀ i ∈ [0, 1], ∃ r response time, c.procs[i]? = some (r, .ret response) ∧
      r.gate.1 = "read" ∧ clientIp r.gate.2 = clientIp (headers "") ∧ response.status ≠ 429 ∧
      EntersAt steps i time ∧ (1000 * 1000000000 : Nat) ≤ time ∧
      time < (1000 * 1000000000 : Nat) + (limits scarceApp.cfg).window "read" := by
    have window : (1000 * 1000000000 : Nat) < 1000 * 1000000000 +
        (limits scarceApp.cfg).window "read" := by decide
    intro i member
    rw [List.mem_cons, List.mem_singleton] at member
    rcases member with rfl | rfl
    · exact ⟨askAda, response', _, done', rfl, rfl, other, enters_of_bool enters₀, le_rfl, window⟩
    · exact ⟨askAda, response, _, done, rfl, rfl, by omega, enters_of_bool enters₁, le_rfl, window⟩
  have both : [0, 1].length ≤ (limits scarceApp.cfg).max "read" :=
    budgets_hold rfl (.record recorded) ordered (.inl ⟨le_rfl, by decide⟩) _ [0, 1] (by decide) served
  exact absurd both (by decide)

end Scripted

end Nip05d
