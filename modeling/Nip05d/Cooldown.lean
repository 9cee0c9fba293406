import Nip05d.Revocations

/-!
# The sections around the cooldown

A release and a sale arm the cooldown of the key that gives the name up, in a
section after their write; a registration checks it in a section of its own,
long before its insertion. `Steady` follows the sections of a request and says
which of them come next: an arming after a name was given up, an insertion only
after a check that found no cooldown.
-/

namespace Nip05d

open Auth Concurrent Handlers Names Proof

/-- The key that gives up its name in a section: a release that works, or a
sale that commits. -/
def gives (app : App) (r : Request) (q : Stmt × World) : Option String :=
  match q.1 with
  | .releaseName name =>
    match (q.2.execute (·.releaseName name q.2.unixNow)).1 with
    | .ok _ => r.signer app
    | .error _ => none
  | .claimTxn offer excessHex kernelHeight now =>
    match (q.2.claimTxn offer excessHex kernelHeight now).1 with
    | .ok () => some offer.sellerPubkey
    | .error _ => none
  | _ => none

section

variable {app : App} {r : Request} {α : Type} {k : α → Handler Response}
  {ctx seen : List (Stmt × World)} {w : World}

/-! ## The order of a request's sections -/

/-- The last section has not given up a name. -/
def Plain (app : App) (r : Request) (seen : List (Stmt × World)) : Prop :=
  ∀ q ∈ seen.getLast?, gives app r q = none

/-- What the sections of a request so far say about the next one. -/
structure Due (app : App) (r : Request) (seen : List (Stmt × World)) (t : Stmt) : Prop where
  limits : ∀ bucket ip max window now, t = .allow bucket ip max window now →
    bucket ∈ ["read", "reg", "unreg", "transfer"]
  checks : ∀ bucket p window now, t = .cooldownActive bucket p window now →
    bucket = "namechange" ∧ window = app.cfg.nameChangeCooldown ∧
      ∃ q ∈ seen, q.2.clock.nanos = now
  inserts : ∀ name p, t = .registerName name p → ∃ now w,
    (Stmt.cooldownActive "namechange" p app.cfg.nameChangeCooldown now, w) ∈ seen ∧
      (RateLimit.cooldownActive w.rate "namechange" p app.cfg.nameChangeCooldown now).1 = false
  arms : ∀ q ∈ seen.getLast?, ∀ p ∈ gives app r q, t = .recordOp "namechange" p

/-- From sections that contain the given ones, a program goes on in order. -/
def Steady (app : App) (r : Request) (ctx : List (Stmt × World)) (p : Handler Response) : Prop :=
  ∀ seen, ctx ⊆ seen → Plain app r seen → p.Paths (Due app r) (fun seen _ => Plain app r seen) seen

theorem steady_answer (response : Response) : Steady app r ctx (pure response) :=
  fun _ _ plain => plain

theorem plain_snoc {q : Stmt × World} (plain : gives app r q = none) :
    Plain app r (seen ++ [q]) := by
  intro q' last
  rw [List.getLast?_concat, Option.mem_some] at last
  exact last ▸ plain

/-- A section that is in order and gives up no name. -/
theorem steady_step {t : Stmt} {u : World → World} {n : World → Handler Response}
    (due : ∀ seen, ctx ⊆ seen → Plain app r seen → Due app r seen t)
    (plain : ∀ w, gives app r (t, w) = none)
    (next : ∀ w, Steady app r ((t, w) :: ctx) (n w)) : Steady app r ctx (.step t u n) := by
  intro seen known plain_
  refine ⟨due seen known plain_, fun w => next w _ ?_ (plain_snoc (plain w))⟩
  intro q member
  rw [List.mem_append, List.mem_singleton]
  rcases List.mem_cons.1 member with rfl | old
  · exact .inr rfl
  · exact .inl (known old)

/-- A section of none of the tags that have to be in order. -/
theorem due_other {t : Stmt} (plain : Plain app r seen)
    (limit : ∀ bucket ip max window now, t ≠ .allow bucket ip max window now)
    (check : ∀ bucket p window now, t ≠ .cooldownActive bucket p window now)
    (insert : ∀ name p, t ≠ .registerName name p) : Due app r seen t where
  limits bucket ip max window now same := absurd same (limit bucket ip max window now)
  checks bucket p window now same := absurd same (check bucket p window now)
  inserts name p same := absurd same (insert name p)
  arms q last p given := by
    rw [plain q last] at given
    cases given

theorem Steady.weaken {ctx' : List (Stmt × World)} {p : Handler Response}
    (steady : Steady app r ctx p) (more : ctx ⊆ ctx') : Steady app r ctx' p :=
  fun seen known => steady seen fun _ member => known (more member)

/-- A section that only looks. -/
theorem steady_quiet {t : Stmt} {u : World → World} {n : World → Handler Response}
    (looks : t = .look) (next : ∀ w, Steady app r ctx (n w)) : Steady app r ctx (.step t u n) := by
  subst looks
  refine steady_step (fun _ _ plain => due_other plain nofun nofun nofun) (fun _ => rfl) fun w => ?_
  exact (next w).weaken (List.subset_cons_self _ _)

theorem steady_look {f : World → α} (next : ∀ a, Steady app r ctx (k a)) :
    Steady app r ctx (Handler.look f >>= k) :=
  steady_quiet rfl fun w => next (f w)

/-- A write that gives up no name. -/
theorem steady_exec {cfg : Config} {t : Stmt} {f : World → α}
    (due : ∀ seen, Plain app r seen → Due app r seen t) (plain : ∀ w, gives app r (t, w) = none)
    (next : ∀ a, Steady app r ctx (k a)) : Steady app r ctx (Handler.exec cfg t f >>= k) :=
  steady_step (fun seen _ => due seen) plain
    fun w seen known => next (f w) seen fun _ member => known (List.mem_cons_of_mem _ member)

/-- An access of one of the maps at a time that was read before. -/
theorem steady_timed {cfg : Config} {t : Nanos → Stmt} {f : Nanos → World → α}
    (due : ∀ seen w, (Stmt.look, w) ∈ seen → Plain app r seen → Due app r seen (t w.clock.nanos))
    (plain : ∀ now w, gives app r (t now, w) = none)
    (next : ∀ now w, Steady app r ((t now, w) :: ctx) (k (f now w))) :
    Steady app r ctx
      ((Handler.instantNow >>= fun now => Handler.exec cfg (t now) (f now)) >>= k) := by
  refine steady_step (t := .look) (fun _ _ plain => due_other plain nofun nofun nofun)
    (fun _ => rfl) fun w₀ => ?_
  refine steady_step (t := t w₀.clock.nanos)
    (fun seen known => due seen w₀ (known List.mem_cons_self)) (plain _) fun w => ?_
  exact (next _ w).weaken (List.cons_subset_cons _ (List.subset_cons_self _ _))

/-- A hit of the limiter in one of its buckets. -/
theorem steady_allow {bucket ip : String} {max : Nat} {window : Nanos} {k : Bool → Handler Response}
    (known : bucket ∈ ["read", "reg", "unreg", "transfer"])
    (next : ∀ allowed, Steady app r ctx (k allowed)) :
    Steady app r ctx (Handler.allow app.cfg bucket ip max window >>= k) := by
  refine steady_timed (fun seen w _ plain => ?_) (fun _ _ => rfl)
    fun _ _ => (next _).weaken (List.subset_cons_self _ _)
  refine ⟨?_, nofun, nofun, fun q last p given => ?_⟩
  · rintro _ _ _ _ _ ⟨⟩
    exact known
  · rw [plain q last] at given
    cases given

/-- A section that gives up a name is followed by the arming of the cooldown. -/
theorem steady_give {t : Stmt} {f : World → α}
    (due : ∀ seen, Plain app r seen → Due app r seen t)
    (either : ∀ w, gives app r (t, w) = none ∧ Steady app r ctx (k (f w)) ∨
      ∃ p k', gives app r (t, w) = some p ∧
        k (f w) = (Handler.recordOp app.cfg "namechange" p >>= fun _ => k') ∧ Steady app r ctx k') :
    Steady app r ctx (Handler.exec app.cfg t f >>= k) := by
  intro seen known plain
  refine ⟨due seen plain, fun w => ?_⟩
  have grown : ctx ⊆ seen ++ [(t, w)] := fun _ member => List.mem_append_left _ (known member)
  change (k (f w)).Paths _ _ _
  obtain ⟨none_, steady⟩ | ⟨p, k', given, same, steady⟩ := either w
  · exact steady _ grown (plain_snoc none_)
  · rw [same]
    refine ⟨⟨nofun, nofun, nofun, fun q last p' given' => ?_⟩, fun w' => ?_⟩
    · rw [List.getLast?_concat, Option.mem_some] at last
      rw [← last, given, Option.mem_some] at given'
      rw [given']
    · exact steady _ (fun _ member => List.mem_append_left _ (grown member)) (plain_snoc rfl)

/-! ## Handlers -/

theorem steady_limited {headers : Headers} {next : Handler Response}
    (steady : Steady app r ctx next) : Steady app r ctx (limited app headers next) := by
  refine steady_allow (by decide) fun allowed => ?_
  split
  · exact steady_answer _
  · exact steady

theorem steady_authorized {bucket : String} {headers : Headers} {method : Method}
    {urlPath : String} {body : Bytes} {next : String → Handler Response}
    (known : bucket ∈ ["read", "reg", "unreg", "transfer"])
    (signed : ∀ key, signer app headers = some key → Steady app r ctx (next key)) :
    Steady app r ctx (authorized app bucket headers method urlPath body next) := by
  refine steady_allow known fun allowed => ?_
  split
  · exact steady_answer _
  refine steady_look fun now => ?_
  split
  · exact steady_answer _
  rename_i key id verified
  refine steady_timed (fun _ _ _ plain => due_other plain nofun nofun nofun) (fun _ _ => rfl)
    fun _ _ => ?_
  split
  · exact steady_answer _
  · exact (signed key (verifyNip98_signer verified)).weaken (List.subset_cons_self _ _)

theorem register_steady (headers : Headers) (body : Bytes) :
    Steady app (.register headers body) [] (register app headers body) := by
  refine steady_authorized (by decide) fun key _ => ?_
  refine steady_timed (fun seen w member plain => ?_) (fun _ _ => rfl) fun now w => ?_
  · refine ⟨nofun, ?_, nofun, fun q last p given => ?_⟩
    · rintro _ _ _ _ ⟨⟩
      exact ⟨rfl, rfl, _, member, rfl⟩
    · rw [plain q last] at given
      cases given
  split
  · exact steady_answer _
  rename_i inactive
  split
  · exact steady_answer _
  rename_i name pubkey checked
  obtain rfl := (checkRegistration_ok checked).1
  refine steady_look fun owner => ?_
  split
  · split <;> exact steady_answer _
  refine steady_look fun existing => ?_
  split
  · exact steady_answer _
  refine steady_step (fun seen known plain => ?_) (fun _ => rfl) fun _ => steady_answer _
  refine ⟨nofun, nofun, ?_, fun q last p given => ?_⟩
  · rintro _ _ ⟨⟩
    exact ⟨now, w, known List.mem_cons_self, by simpa using inactive⟩
  · rw [plain q last] at given
    cases given

theorem unregister_steady (headers : Headers) (name : String) :
    Steady app (.unregister headers name) [] (unregister app headers name) := by
  refine steady_authorized (by decide) fun key signed => ?_
  refine steady_look fun owner => ?_
  split
  · split
    · refine steady_give (fun _ plain => due_other plain nofun nofun nofun)
        fun w => ?_
      cases answer : (w.execute (·.releaseName (app.toLowercase name) w.unixNow)).1 with
      | ok n => exact .inr ⟨key, _, by simp only [gives, answer]; exact signed, rfl, steady_answer _⟩
      | error e => exact .inl ⟨by simp only [gives, answer], steady_answer _⟩
    · exact steady_answer _
  · exact steady_answer _

theorem lodgeOffer_steady (headers : Headers) (body : Bytes) :
    Steady app (.lodgeOffer headers body) [] (lodgeOffer app headers body) := by
  refine steady_authorized (by decide) fun key _ => ?_
  split
  · exact steady_answer _
  split
  · exact steady_answer _
  split
  · exact steady_answer _
  refine steady_look fun now => ?_
  split
  · exact steady_answer _
  refine steady_look fun owner => ?_
  split
  · exact steady_answer _
  refine steady_look fun sameName => ?_
  split
  · exact steady_answer _
  refine steady_look fun sameAddress => ?_
  split
  · exact steady_answer _
  exact steady_exec (fun _ plain => due_other plain nofun nofun nofun) (fun _ => rfl)
    fun _ => steady_answer _

theorem steady_settle {cfg : Config} {offer : OfferRow} {now : Int}
    {k : OfferRow → Handler Response} (next : ∀ o, Steady app r ctx (k o)) :
    Steady app r ctx (settleExpiry cfg offer now >>= k) := by
  unfold settleExpiry
  split
  · exact next offer
  · refine steady_quiet rfl fun w₁ => ?_
    refine steady_step (fun _ _ plain => due_other plain nofun nofun nofun) (fun _ => rfl)
      fun w₂ => ?_
    refine Steady.weaken ?_ (List.subset_cons_self _ _)
    exact steady_quiet rfl fun w₃ => next _

theorem readOffer_steady (headers : Headers) (offerId : String) :
    Steady app (.readOffer headers offerId) [] (readOffer app headers offerId) := by
  refine steady_limited ?_
  refine steady_look fun found => ?_
  split
  · exact steady_answer _
  refine steady_look fun now => ?_
  exact steady_settle fun o => steady_answer _

theorem revokeOffer_steady (headers : Headers) (offerId : String) :
    Steady app (.revokeOffer headers offerId) [] (revokeOffer app headers offerId) := by
  refine steady_authorized (by decide) fun key _ => ?_
  refine steady_look fun found => ?_
  split
  · exact steady_answer _
  split
  · exact steady_answer _
  split
  · exact steady_answer _
  split
  · exact steady_answer _
  refine steady_look fun now => ?_
  split
  · refine steady_look fun tip => ?_
    exact steady_exec (fun _ plain => due_other plain nofun nofun nofun) (fun _ => rfl)
      fun _ => steady_answer _
  · exact steady_exec (fun _ plain => due_other plain nofun nofun nofun) (fun _ => rfl)
      fun _ => steady_answer _

theorem claim_steady (headers : Headers) (body : Bytes) :
    Steady app (.claim headers body) [] (claim app headers body) := by
  refine steady_authorized (by decide) fun key _ => ?_
  split
  · exact steady_answer _
  rename_i offerId proof _
  refine steady_look fun found => ?_
  split
  · exact steady_answer _
  refine steady_look fun now => ?_
  refine steady_settle fun offer => ?_
  split
  · refine steady_look fun transfer => ?_
    split
    · split <;> exact steady_answer _
    · exact steady_answer _
  unfold claimOpen
  split
  · exact steady_answer _
  split
  · exact steady_answer _
  refine steady_look fun owner => ?_
  split
  · exact steady_answer _
  split
  · exact steady_answer _
  refine steady_look fun kernel => ?_
  split
  · exact steady_answer _
  split
  · exact steady_answer _
  simp only
  split
  · exact steady_answer _
  refine steady_look fun used => ?_
  split
  · exact steady_answer _
  refine steady_look fun existing => ?_
  split
  · exact steady_answer _
  refine steady_give (fun _ plain => due_other plain nofun nofun nofun)
    fun w => ?_
  cases answer : (w.claimTxn offer proof.excessHex _ now).1 with
  | ok _ => exact .inr ⟨offer.sellerPubkey, _, by simp only [gives, answer], rfl, steady_answer _⟩
  | error e => exact .inl ⟨by simp only [gives, answer], by cases e <;> exact steady_answer _⟩

theorem availability_steady (headers : Headers) (name : String) :
    Steady app (.availability headers name) [] (availability app headers name) := by
  refine steady_limited ?_
  simp only
  split
  · exact steady_answer _
  split
  · exact steady_answer _
  refine steady_look fun owner => ?_
  split <;> exact steady_answer _

theorem profile_steady (headers : Headers) (name : String) :
    Steady app (.profile headers name) [] (profile app headers name) := by
  refine steady_limited ?_
  simp only
  split
  · exact steady_answer _
  refine steady_look fun owner => ?_
  split <;> exact steady_answer _

theorem byPubkey_steady (headers : Headers) (pubkey : String) :
    Steady app (.byPubkey headers pubkey) [] (byPubkey app headers pubkey) := by
  refine steady_limited ?_
  simp only
  split
  · exact steady_answer _
  refine steady_look fun name => ?_
  split <;> exact steady_answer _

theorem wellKnown_steady (headers : Headers) (name : Option String) :
    Steady app (.wellKnown headers name) [] (wellKnown app headers name) := by
  refine steady_allow (by decide) fun allowed => ?_
  split
  · exact steady_answer _
  unfold wellKnownEntry
  split
  · exact steady_answer _
  · simp only
    split
    · exact steady_answer _
    · exact steady_quiet rfl fun w => steady_answer _

/-- Every request runs its sections in order. -/
theorem handlers_steady (r : Request) : Steady app r [] (routes app r) := by
  have mount : ∀ {handler : Handler Response}, Steady app r [] handler →
      Steady app r [] (mounted app handler) := by
    intro handler steady
    unfold mounted
    split
    · exact steady
    · exact steady_answer _
  cases r with
  | availability headers name => exact availability_steady headers name
  | register headers body => exact register_steady headers body
  | unregister headers name => exact unregister_steady headers name
  | profile headers name => exact profile_steady headers name
  | byPubkey headers pubkey => exact byPubkey_steady headers pubkey
  | wellKnown headers name => exact wellKnown_steady headers name
  | lodgeOffer headers body => exact mount (lodgeOffer_steady headers body)
  | readOffer headers offerId => exact mount (readOffer_steady headers offerId)
  | revokeOffer headers offerId => exact mount (revokeOffer_steady headers offerId)
  | claim headers body => exact mount (claim_steady headers body)

theorem handlers_paths (r : Request) : ((authority app).handler r).Paths (Due app r)
    (fun seen _ => Plain app r seen) [] :=
  handlers_steady r [] (fun _ member => member) fun _ last => by cases last

end

end Nip05d
