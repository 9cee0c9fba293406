import Nip05d.Churn
import Nip05d.Custody
import Nip05d.Directory

/-!
# Registrations and lookups are atomic

A registration looks up the name, looks up the key and inserts, in three
sections, and a lookup may be overtaken by anything. Still these requests are
answered as if they had run at one moment between their arrival and their
answer, on an atomic registry, which they have changed at that moment or not at
all. Three refusals with 409 are the exception: a registration whose name or key
was free when it looked, and is not any more, may get an answer that no single
moment gives (`Overtaken`). Such a registration has changed nothing. Requests
that are refused before they look at the registry are apart, and so are those
that meet a failing database.
-/

namespace Nip05d

open Auth Concurrent Handlers Names Registry

/-- What an atomic registry answers when it holds the given names, and how it
moves one. -/
inductive Atomic (app : App) (holder : String → Option String) :
    Request → Response → Option (Move String String) → Prop where
  | registered {headers body name key} :
      Request.signer app (.register headers body) = some key →
      checkRegistration app key body = .ok (name, key) →
      holder name = none → (∀ n, holder n ≠ some key) →
      Atomic app holder (.register headers body) (registered app name (.ok 1))
        (some ⟨name, none, some key⟩)
  | again {headers body name key} : Request.signer app (.register headers body) = some key →
      checkRegistration app key body = .ok (name, key) → holder name = some key →
      Atomic app holder (.register headers body)
        (respond 200 [("name", .string name), ("nip05", .string (nip05 app name))]) none
  | taken {headers body name key p} : Request.signer app (.register headers body) = some key →
      checkRegistration app key body = .ok (name, key) → holder name = some p → p ≠ key →
      Atomic app holder (.register headers body) (err 409 "name taken") none
  | holds {headers body name key other} : Request.signer app (.register headers body) = some key →
      checkRegistration app key body = .ok (name, key) → holder name = none →
      holder other = some key →
      Atomic app holder (.register headers body)
        (respond 409 [("error", .string "pubkey already has a name"), ("name", .string other)]) none
  | found {headers raw p} : holder (app.toLowercase raw) = some p →
      Atomic app holder (.profile headers raw) (paired (app.toLowercase raw) p) none
  | missing {headers raw} : holder (app.toLowercase raw) = none →
      Atomic app holder (.profile headers raw) (err 404 "not found") none
  | named {headers raw name} : holder name = some (app.toLowercase raw) →
      Atomic app holder (.byPubkey headers raw) (paired name (app.toLowercase raw)) none
  | unnamed {headers raw} : (∀ name, holder name ≠ some (app.toLowercase raw)) →
      Atomic app holder (.byPubkey headers raw) (err 404 "not found") none
  | mapped {headers raw p} : holder (app.toLowercase raw) = some p →
      Atomic app holder (.wellKnown headers (some raw)) (mapped app (app.toLowercase raw) p) none
  | unmapped {headers raw} : holder (app.toLowercase raw) = none →
      Atomic app holder (.wellKnown headers (some raw))
        (publicRead [("names", json []), ("relays", json [])]) none
  | unasked {headers} : Atomic app holder (.wellKnown headers none)
      (publicRead [("names", json []), ("relays", json [])]) none
  | availability {headers raw} : Atomic app holder (.availability headers raw)
      (if ¬ validName (app.toLowercase raw) app.cfg.nameMin app.cfg.nameMax then
          unavailable (app.toLowercase raw) "invalid"
        else if isReserved (app.toLowercase raw) app.cfg.extraReserved then
          unavailable (app.toLowercase raw) "reserved"
        else if (holder (app.toLowercase raw)).isSome then unavailable (app.toLowercase raw) "taken"
        else available (app.toLowercase raw)) none

/-- Refusals of a registration that no single moment gives. The registry has
changed between the registration's own sections, from `before` to `now`. -/
inductive Overtaken (app : App) (before now : String → Option String) :
    Request → Response → Prop where
  /-- The name was free, and when it is inserted the key itself holds it. -/
  | own {headers body name key} : Request.signer app (.register headers body) = some key →
      checkRegistration app key body = .ok (name, key) → before name = none →
      now name = some key → Overtaken app before now (.register headers body) (err 409 "name taken")
  /-- The key had no name, and when the name is inserted it has another one. -/
  | unnamed {headers body name key other} :
      Request.signer app (.register headers body) = some key →
      checkRegistration app key body = .ok (name, key) → (∀ n, before n ≠ some key) →
      now name = none → now other = some key →
      Overtaken app before now (.register headers body) (err 409 "pubkey already has a name")
  /-- The name was free, and when the key is looked up both have a holding. -/
  | late {headers body name key p other} :
      Request.signer app (.register headers body) = some key →
      checkRegistration app key body = .ok (name, key) → before name = none →
      now name = some p → now other = some key →
      Overtaken app before now (.register headers body)
        (respond 409 [("error", .string "pubkey already has a name"), ("name", .string other)])

/-- The requests that ask or extend the registry. -/
def Request.Asking : Request → Prop
  | .register .. | .profile .. | .byPubkey .. | .wellKnown .. | .availability .. => True
  | _ => False

/-- A refusal that does not depend on the registry. -/
def Refused (response : Response) : Prop := response.status ∈ [400, 401, 403, 429]

/-- Some section of a request met a failing database. -/
def MetFailure (seen : List (Stmt × World)) : Prop := ∃ q ∈ seen, q.2.fault ≠ none

/-- An answer with these sections is that of an atomic registry at one of them,
or the registration was overtaken between two of them. -/
def Linearized (app : App) (r : Request) (seen : List (Stmt × World)) (response : Response) :
    Prop :=
  (∀ q ∈ seen, ∀ name p, q.2.db.lookup name = some p → Proper app name p) →
    Refused response ∨ MetFailure seen ∨
      (∃ q ∈ seen, Atomic app q.2.db.lookup r response (q.1.move q.2)) ∨
      ∃ q₀ q, [q₀, q].Sublist seen ∧ Overtaken app q₀.2.db.lookup q.2.db.lookup r response

section

variable {app : App} {headers : Headers} {seen : List (Stmt × World)} {r : Request}
  {response : Response}

theorem Linearized.refused (refused : Refused response) : Linearized app r seen response :=
  fun _ => .inl refused

/-- The registry answers in the last section, unless an earlier one was
overtaken. -/
theorem Linearized.raced {t : Stmt} {w : World}
    (answers : (∀ q ∈ seen, q.2.fault = none) → w.fault = none →
      Atomic app w.db.lookup r response (t.move w) ∨
        ∃ q ∈ seen, Overtaken app q.2.db.lookup w.db.lookup r response) :
    Linearized app r (seen ++ [(t, w)]) response := by
  intro _
  have last : (t, w) ∈ seen ++ [(t, w)] := List.mem_append_right _ (List.mem_singleton_self _)
  by_cases failed : MetFailure seen
  · obtain ⟨q, member, fault⟩ := failed
    exact .inr (.inl ⟨q, List.mem_append_left _ member, fault⟩)
  have working : ∀ q ∈ seen, q.2.fault = none := fun q member =>
    not_not.1 fun fault => failed ⟨q, member, fault⟩
  by_cases fault : w.fault = none
  · obtain atomic | ⟨q, member, overtaken⟩ := answers working fault
    · exact .inr (.inr (.inl ⟨_, last, atomic⟩))
    · exact .inr (.inr (.inr ⟨q, (t, w),
        (List.singleton_sublist.2 member).append (List.Sublist.refl _), overtaken⟩))
  · exact .inr (.inl ⟨_, last, fault⟩)

/-- The registry answers in the last section, which is a query. -/
theorem Linearized.looked {w : World}
    (atomic : w.fault = none → Atomic app w.db.lookup r response none) :
    Linearized app r (seen ++ [(.look, w)]) response := .raced fun _ working => .inl (atomic working)

theorem checkRegistration_refused {key : String} {body : Bytes}
    (refused : checkRegistration app key body = .error response) : Refused response := by
  unfold checkRegistration at refused
  dsimp only at refused
  repeat' split at refused
  all_goals cases refused
  all_goals simp [Refused]

/-- A refused insertion is of a free name and a key that holds another. -/
theorem registerName_refused {db : Db} {name pubkey : String} {createdAt : Int}
    (refused : db.registerName name pubkey createdAt = .error .constraint) :
    db.lookup name = none ∧ ∃ other, db.lookup other = some pubkey := by
  cases owned : db.lookup name with
  | some p =>
    rw [registerName_active owned] at refused
    cases refused
  | none =>
    cases held : db.nameOf pubkey with
    | some other => exact ⟨rfl, other, Db.lookup_iff_nameOf.2 held⟩
    | none =>
      obtain ⟨db', ok⟩ := Db.registerName_works createdAt owned held
      rw [ok] at refused
      cases refused

/-- A registration that changes no row finds the name active. -/
theorem registerName_taken {db db' : Db} {name pubkey : String} {createdAt : Int}
    (ok : db.registerName name pubkey createdAt = .ok (0, db')) : db.lookup name ≠ none := by
  unfold Db.registerName at ok
  split at ok
  · obtain ⟨_, -, zero, -⟩ := Db.written_ok.1 ok
    cases zero
  · rename_i row found
    obtain ⟨member, hit⟩ := (db.names.select_eq_some _ nameKey Db.name_keyed).1 found
    split at ok
    · rename_i active
      rw [Db.lookup_eq_some.2 ⟨row, member, beq_iff_eq.1 hit, by simpa using active, rfl⟩]
      exact Option.some_ne_none _
    · obtain ⟨_, -, zero, -⟩ := Db.written_ok.1 ok
      cases zero

/-- The insertion of a registration is atomic, if the name is not the key's by
now and the key has not got another. -/
theorem insert_atomic {body : Bytes} {name key : String} {w w₁ w₂ : World}
    (signer : Request.signer app (.register headers body) = some key)
    (checked : checkRegistration app key body = .ok (name, key)) (working : w.fault = none)
    (free : w₁.db.lookup name = none) (nameless : ∀ n, w₂.db.lookup n ≠ some key) :
    Atomic app w.db.lookup (.register headers body)
        (registered app name (w.execute (·.registerName name key w.unixNow)).1)
        (Stmt.move (.registerName name key) w) ∨
      ∃ w₀, (w₀ = w₁ ∨ w₀ = w₂) ∧ Overtaken app w₀.db.lookup w.db.lookup (.register headers body)
        (registered app name (w.execute (·.registerName name key w.unixNow)).1) := by
  cases done : (w.execute (·.registerName name key w.unixNow)).1 with
  | error e =>
    have refused : w.db.registerName name key w.unixNow = .error e := by
      cases answer : w.db.registerName name key w.unixNow with
      | ok written => simp [World.execute, working, answer] at done
      | error e' => simpa [World.execute, working, answer] using done
    cases e with
    | constraint =>
      obtain ⟨unheld, other, held⟩ := registerName_refused refused
      exact .inr ⟨w₂, .inr rfl, .unnamed signer checked nameless unheld held⟩
    | other =>
      exfalso
      unfold Db.registerName at refused
      split at refused
      · unfold Db.written at refused
        split at refused <;> cases refused
      · split at refused
        · cases refused
        · unfold Db.written at refused
          split at refused <;> cases refused
  | ok n =>
    obtain ⟨db, -, ok, -⟩ := World.execute_ok done
    cases n with
    | zero =>
      have none_ : Stmt.move (.registerName name key) w = none := by simp [Stmt.move, done]
      obtain ⟨p, owned⟩ := Option.ne_none_iff_exists'.1 (registerName_taken ok)
      by_cases own : p = key
      · exact .inr ⟨w₁, .inl rfl, .own signer checked free (own ▸ owned)⟩
      · rw [none_]
        exact .inl (.taken signer checked owned own)
    | succ n =>
      have moves : Stmt.move (.registerName name key) w = some ⟨name, none, some key⟩ := by
        simp [Stmt.move, done]
      obtain ⟨allowed, -⟩ := section_moves app.cfg moves
      have unheld : w.db.lookup name = none := registerName_free ok (Nat.succ_ne_zero n)
      rw [moves]
      refine .inl (.registered signer checked unheld fun other held => ?_)
      obtain rfl : other = name := allowed.single key rfl other held
      rw [unheld] at held
      cases held

/-! ## The paths -/

theorem register_paths (body : Bytes) : (register app headers body).Paths (fun _ _ => True)
    (Linearized app (.register headers body)) seen := by
  refine paths_authorized (fun _ code _ known => .refused ?_) fun key id w seen verified _ => ?_
  · rcases known with rfl | rfl <;> simp [Refused]
  have signer : Request.signer app (.register headers body) = some key := verifyNip98_signer verified
  refine paths_timed fun cooling more => ?_
  split
  · exact .refused (by simp [Refused])
  split
  · rename_i refused
    exact .refused (checkRegistration_refused refused)
  rename_i name pubkey checked
  obtain rfl := (checkRegistration_ok checked).1
  refine paths_look trivial fun w₁ => ?_
  split
  · rename_i owner owned
    replace owned := (World.query_eq_some.1 owned).2
    split
    · rename_i same
      exact .looked fun _ => .again signer checked (same ▸ owned)
    · rename_i other
      exact .looked fun _ => .taken signer checked owned other
  rename_i looked
  have free : w₁.fault = none → w₁.db.lookup name = none := fun working =>
    (World.query_working working).symm.trans looked
  refine paths_look trivial fun w₂ => ?_
  split
  · rename_i other held
    replace held := Db.lookup_iff_nameOf.2 (World.query_eq_some.1 held).2
    refine .raced fun working _ => ?_
    cases owned : w₂.db.lookup name with
    | none => exact .inl (.holds signer checked owned held)
    | some p =>
      exact .inr ⟨(.look, w₁), by simp,
        .late signer checked (free (working (.look, w₁) (by simp))) owned held⟩
  rename_i unheld
  refine paths_exec trivial fun w₃ => .raced fun working working₃ => ?_
  have nameless : ∀ n, w₂.db.lookup n ≠ some pubkey := by
    intro n owned
    rw [World.query_working (working (.look, w₂) (by simp)), Db.lookup_iff_nameOf.1 owned] at unheld
    cases unheld
  obtain atomic | ⟨w₀, rfl | rfl, overtaken⟩ := insert_atomic signer checked working₃
    (free (working (.look, w₁) (by simp))) nameless
  · exact .inl atomic
  · exact .inr ⟨(.look, w₀), by simp, overtaken⟩
  · exact .inr ⟨(.look, w₀), by simp, overtaken⟩

/-- A counted read begins with a reading of the clock. -/
theorem paths_counted {ip : String} {done : List (Stmt × World) → Response → Prop}
    {k : Bool → Handler Response} (next : ∀ allowed seen, (∃ w : World, (Stmt.look, w) ∈ seen) →
      (k allowed).Paths (fun _ _ => True) done seen) :
    (Handler.allowRead app.cfg ip >>= k).Paths (fun _ _ => True) done seen :=
  ⟨trivial, fun w₁ => ⟨trivial, fun _ => next _ _ ⟨w₁, by simp⟩⟩⟩

/-- The entry of a read endpoint. -/
theorem paths_limited {next : Handler Response}
    (goes : ∀ seen, (∃ w : World, (Stmt.look, w) ∈ seen) →
      next.Paths (fun _ _ => True) (Linearized app r) seen) :
    (limited app headers next).Paths (fun _ _ => True) (Linearized app r) seen := by
  refine paths_counted fun allowed seen looked => ?_
  split
  · exact .refused (by simp [Refused])
  · exact goes seen looked

/-- A query that is not made answers in an earlier section: what it would look up
is not in the registry. -/
theorem Linearized.skipped (looked : ∃ w : World, (Stmt.look, w) ∈ seen)
    (atomic : ∀ w : World, (∀ name p, w.db.lookup name = some p → Proper app name p) →
      Atomic app w.db.lookup r response none) : Linearized app r seen response := by
  intro proper
  obtain ⟨w, member⟩ := looked
  exact .inr (.inr (.inl ⟨_, member, atomic w (proper _ member)⟩))

/-- A name that may not be registered is not held. -/
theorem not_held {holder : String → Option String} {name : String}
    (proper : ∀ name p, holder name = some p → Proper app name p)
    (invalid : ¬ validName name app.cfg.nameMin app.cfg.nameMax = true) : holder name = none := by
  rw [Option.eq_none_iff_forall_ne_some]
  exact fun p owned => invalid (proper name p owned).valid

theorem profile_paths (raw : String) : (profile app headers raw).Paths (fun _ _ => True)
    (Linearized app (.profile headers raw)) seen := by
  refine paths_limited fun seen looked => ?_
  dsimp only
  split
  · rename_i invalid
    exact .skipped looked fun w proper => .missing (not_held proper invalid)
  refine paths_look trivial fun w => ?_
  split
  · rename_i p owned
    exact .looked fun _ => .found (World.query_eq_some.1 owned).2
  · rename_i none_
    exact .looked fun working => .missing ((World.query_working working).symm.trans none_)

theorem byPubkey_paths (raw : String) : (byPubkey app headers raw).Paths (fun _ _ => True)
    (Linearized app (.byPubkey headers raw)) seen := by
  refine paths_limited fun seen looked => ?_
  dsimp only
  split
  · rename_i invalid
    refine .skipped looked fun w proper => .unnamed fun name owned => invalid ?_
    exact (validPubkeyHex_iff _).2 (proper name _ owned).pubkey
  refine paths_look trivial fun w => ?_
  split
  · rename_i name held
    exact .looked fun _ => .named (Db.lookup_iff_nameOf.2 (World.query_eq_some.1 held).2)
  · rename_i none_
    refine .looked fun working => .unnamed fun name owned => ?_
    rw [World.query_working working, Db.lookup_iff_nameOf.1 owned] at none_
    cases none_

theorem wellKnown_paths (name : Option String) : (wellKnown app headers name).Paths
    (fun _ _ => True) (Linearized app (.wellKnown headers name)) seen := by
  refine paths_counted fun allowed seen looked => ?_
  split
  · exact .refused (by simp [Refused])
  cases name with
  | none => exact .skipped looked fun w _ => .unasked
  | some raw =>
    simp only [wellKnownEntry]
    split
    · rename_i invalid
      exact .skipped looked fun w proper => .unmapped (not_held proper invalid)
    · refine ⟨trivial, fun w => ?_⟩
      cases owned : w.query (·.lookup (app.toLowercase raw)) with
      | some p =>
        have answer : Linearized app (.wellKnown headers (some raw)) (seen ++ [(.look, w)])
            (mapped app (app.toLowercase raw) p) :=
          .looked fun _ => .mapped (World.query_eq_some.1 owned).2
        simp only [owned]
        exact answer
      | none =>
        have answer : Linearized app (.wellKnown headers (some raw)) (seen ++ [(.look, w)])
            (publicRead [("names", json []), ("relays", json [])]) :=
          .looked fun working => .unmapped ((World.query_working working).symm.trans owned)
        simp only [owned]
        exact answer

theorem availability_paths (raw : String) : (availability app headers raw).Paths (fun _ _ => True)
    (Linearized app (.availability headers raw)) seen := by
  refine paths_limited fun seen looked => ?_
  dsimp only
  split
  · rename_i invalid
    refine .skipped looked fun w _ => ?_
    have answer : Atomic app w.db.lookup (.availability headers raw) _ none := .availability
    rwa [if_pos invalid] at answer
  rename_i valid
  split
  · rename_i reserved
    refine .skipped looked fun w _ => ?_
    have answer : Atomic app w.db.lookup (.availability headers raw) _ none := .availability
    rwa [if_neg valid, if_pos reserved] at answer
  rename_i unreserved
  refine paths_look trivial fun w => ?_
  have answer : Atomic app w.db.lookup (.availability headers raw) _ none := .availability
  rw [if_neg valid, if_neg unreserved] at answer
  split
  · rename_i taken
    refine .looked fun working => ?_
    rw [World.query_working working] at taken
    rwa [if_pos taken] at answer
  · rename_i free
    refine .looked fun working => ?_
    rw [World.query_working working] at free
    rwa [if_neg free] at answer

theorem handlers_linearized (r : Request) : ((authority app).handler r).Paths (fun _ _ => True)
    (fun seen response => r.Asking → Linearized app r seen response) [] := by
  cases r with
  | register headers body => exact (register_paths body).mono fun _ _ holds _ => holds
  | profile headers raw => exact (profile_paths raw).mono fun _ _ holds _ => holds
  | byPubkey headers raw => exact (byPubkey_paths raw).mono fun _ _ holds _ => holds
  | wellKnown headers name => exact (wellKnown_paths name).mono fun _ _ holds _ => holds
  | availability headers raw => exact (availability_paths raw).mono fun _ _ holds _ => holds
  | _ => exact Prog.paths_trivial _ fun _ _ asking => asking.elim

end

section

variable {app : App} {w : World} {c : Conf World Stmt Request Response} {steps : List Step}
  {i : Nat} {r : Request} {response : Response}

/-- An atomic registry has one answer to a request. -/
theorem Atomic.unique {holder : String → Option String} {response' : Response}
    {moved moved' : Option (Move String String)}
    (single : ∀ {n n' p}, holder n = some p → holder n' = some p → n = n')
    (first : Atomic app holder r response moved) (second : Atomic app holder r response' moved') :
    response = response' ∧ moved = moved' := by
  cases first <;> cases second <;> grind

/-- An atomic registry that moves no name does not answer 201. -/
theorem Atomic.unmoved {holder : String → Option String}
    (atomic : Atomic app holder r response none) : response.status ≠ 201 := by
  generalize none_ : (none : Option (Move String String)) = moved at atomic
  cases atomic with
  | registered => cases none_
  | availability =>
    split
    · simp [unavailable]
    split
    · simp [unavailable]
    split <;> simp [unavailable, available]
  | _ => simp [paired, Nip05d.mapped, publicRead]

/-- A request tells of one move at most. -/
theorem Told.one {ms : List (Move String String)} {m : Move String String}
    (told : Told app r ms response) (member : m ∈ ms) : ms = [m] := by
  cases told with
  | freed | unmoved => cases member
  | _ => rw [List.mem_singleton.1 member]

/-- A request that does not answer 201 moves no name, unless it releases one. -/
theorem Told.none {ms : List (Move String String)} (told : Told app r ms response)
    (asking : r.Asking) (other : response.status ≠ 201) : ms = [] := by
  cases told with
  | registered => exact absurd rfl other
  | released | sold => exact asking.elim
  | freed | unmoved => rfl

/-- An overtaken registration is refused. -/
theorem Overtaken.status {before now : String → Option String}
    (overtaken : Overtaken app before now r response) : response.status = 409 := by
  cases overtaken <;> rfl

/-- **Registrations and lookups are atomic.** A registration or a lookup that is
answered was refused, met a failing database, or was answered by an atomic
registry in one of its own steps, and has changed the registry in that step or
not at all. The exception is a registration that was overtaken between two of
its own steps, which is refused with 409 and has changed nothing. -/
theorem asked_atomically (fresh : w.Fresh) (run : Run (authority app) (.start w) steps c)
    (done : c.procs[i]? = some (r, .ret response)) (asking : r.Asking) :
    Refused response ∧ emitted Stmt.move i steps = [] ∨
    MetFailure (own i steps) ∨
    (∃ s ∈ steps, s.event = .run i ∧
      Atomic app s.before.hist.now.db.lookup r response (moveOf s) ∧
      emitted Stmt.move i steps = (moveOf s).toList) ∨
    ∃ s₀ s, [s₀, s].Sublist steps ∧ s₀.event = .run i ∧ s.event = .run i ∧
      Overtaken app s₀.before.hist.now.db.lookup s.before.hist.now.db.lookup r response ∧
      emitted Stmt.move i steps = [] := by
  have proper : ∀ q ∈ own i steps, ∀ name p, q.2.db.lookup name = some p → Proper app name p := by
    rintro ⟨t, w'⟩ ran
    obtain ⟨s, member, -, -, rfl⟩ := mem_own.1 ran
    obtain ⟨reach, -, -⟩ := run.mem (rely app) (handled (Later.views app.cfg)) (.start fresh)
      (fun s _ => meets_true _ _) s member
    exact owners_proper reach
  have told := answered_told fresh run done
  have linear : Linearized app r (own i steps) response :=
    run.paths_start handlers_linearized done asking
  obtain refused | failed | ⟨⟨t, w'⟩, ran, atomic⟩ | ⟨q₀, q, pair, overtaken⟩ :=
    linear proper
  · have other : response.status ≠ 201 := by
      rintro created
      simp [Refused, created] at refused
    exact .inl ⟨refused, told.none asking other⟩
  · exact .inr (.inl failed)
  · obtain ⟨s, member, event, ⟨r', due⟩, rfl⟩ := mem_own.1 ran
    have moved : moveOf s = t.move s.before.hist.now := by simp [moveOf, event, due]
    refine .inr (.inr (.inl ⟨s, member, event, moved ▸ atomic, ?_⟩))
    rw [moved]
    cases moves : t.move s.before.hist.now with
    | none =>
      rw [moves] at atomic
      exact told.none asking atomic.unmoved
    | some m => exact told.one (List.mem_filterMap.2 ⟨_, ran, moves⟩)
  · obtain ⟨s₀, s, order, event₀, event, now₀, now⟩ := own_pair pair
    refine .inr (.inr (.inr ⟨s₀, s, order, event₀, event, now₀ ▸ now ▸ overtaken, ?_⟩))
    exact told.none asking (by simp [overtaken.status])

end

namespace Scripted

/-- Two registrations of ada interleave: both have found it free when the first
inserts it. -/
def registeredTwice : List (Concurrent.Event Request Around) :=
  .arrive registerAda :: sections 0 9 ++ .arrive reregisterAda :: sections 1 9 ++
    sections 0 1 ++ sections 1 1

/-- The registration is of ada by the seller. -/
theorem reregisters {name key : String}
    (signed : Request.signer app reregisterAda = some key)
    (checked : checkRegistration app key (utf8 "R1") = .ok (name, key)) :
    name = "ada" ∧ key = seller.toHex := by
  have author : Request.signer app reregisterAda = some seller.toHex := by decide +kernel
  have named : (app.crates.registerBodyFromSlice (utf8 "R1")).any
      (fun req => app.toLowercase req.name == "ada") = true := by
    decide +kernel
  obtain ⟨req, found, rfl, -⟩ := checkRegistration_body checked
  rw [found, Option.any_some, beq_iff_eq] at named
  exact ⟨named, Option.some.inj (signed.symm.trans author)⟩

/-- Ada is free and the seller nameless, or ada is the seller's. -/
def AdaOrFree (w : World) : Prop :=
  w.db.lookup "ada" = some seller.toHex ∨
    w.db.lookup "ada" = none ∧ w.db.nameOf seller.toHex = none

instance (w : World) : Decidable (AdaOrFree w) := inferInstanceAs (Decidable (_ ∨ _))

/-- Then a registry does not refuse ada to the seller. -/
theorem not_refused {w : World} (free : AdaOrFree w) {response : Response}
    {moved : Option (Move String String)}
    (atomic : Atomic app w.db.lookup reregisterAda response moved) : response.status ≠ 409 := by
  unfold reregisterAda at atomic
  cases atomic with
  | registered => simp [registered]
  | again => simp
  | taken signed checked owned foreign =>
    obtain ⟨rfl, rfl⟩ := reregisters signed checked
    rcases free with own | ⟨none_, -⟩
    · exact absurd (Option.some.inj (owned.symm.trans own)) foreign
    · rw [none_] at owned
      cases owned
  | holds signed checked unheld held =>
    obtain ⟨rfl, rfl⟩ := reregisters signed checked
    rcases free with own | ⟨-, nameless⟩
    · rw [own] at unheld
      cases unheld
    · rw [Db.lookup_iff_nameOf.1 held] at nameless
      cases nameless

/-- The first registration has its answer from an atomic registry. The second one
is refused in none of the states it has seen: it was overtaken. -/
theorem second_atomic : ∃ steps c response response', Run (authority app) (.start world) steps c ∧
    steps.map Transition.event = registeredTwice ∧
    c.procs[0]? = some (registerAda, .ret response) ∧ response.status = 201 ∧
    (∃ s ∈ steps, s.event = .run 0 ∧
      Atomic app s.before.hist.now.db.lookup registerAda response (moveOf s) ∧
      emitted Stmt.move 0 steps = (moveOf s).toList) ∧
    c.procs[1]? = some (reregisterAda, .ret response') ∧ response'.status = 409 ∧
    (∀ q ∈ own 1 steps, ∀ moved, ¬ Atomic app q.2.db.lookup reregisterAda response' moved) ∧
    ∃ s₀ s, [s₀, s].Sublist steps ∧ s₀.event = .run 1 ∧ s.event = .run 1 ∧
      Overtaken app s₀.before.hist.now.db.lookup s.before.hist.now.db.lookup reregisterAda
        response' ∧ emitted Stmt.move 1 steps = [] := by
  have replayed : ((authority app).replayMeeting (fun _ _ w => w.fault = none ∧ AdaOrFree w)
      (.start world) registeredTwice).any (fun c => (c.procs[0]?.any fun p =>
        p.1 == registerAda && p.2.answer?.any (·.status == 201)) && c.procs[1]?.any fun p =>
        p.1 == reregisterAda && p.2.answer?.any (·.status == 409)) = true := by
    decide +kernel
  obtain ⟨c, run, found⟩ := (Option.any_eq_true _ _).1 replayed
  rw [Bool.and_eq_true] at found
  obtain ⟨response, there, status⟩ := answered_of_any found.1
  obtain ⟨response', there', status'⟩ := answered_of_any found.2
  rw [beq_iff_eq] at status status'
  obtain ⟨steps, run, events, meets⟩ := Run.replayMeeting run
  have known : ∀ i, ∀ q ∈ own i steps, q.2.fault = none ∧ AdaOrFree q.2 := by
    rintro i ⟨t, w⟩ ran
    obtain ⟨s, member, event, ⟨r, due⟩, rfl⟩ := mem_own.1 ran
    have met := meets s member
    rw [event] at met
    exact met _ due
  have unfailed : ∀ i, ¬ MetFailure (own i steps) := by
    rintro i ⟨q, ran, fault⟩
    exact fault (known i q ran).1
  have unanswered : ∀ q ∈ own 1 steps, ∀ moved,
      ¬ Atomic app q.2.db.lookup reregisterAda response' moved :=
    fun q ran moved atomic => not_refused (known 1 q ran).2 atomic status'
  refine ⟨steps, c, response, response', run, events, there, status, ?_, there', status',
    unanswered, ?_⟩
  · obtain ⟨refused, -⟩ | failed | atomic | ⟨_, _, _, _, _, overtaken, _⟩ :=
      asked_atomically world_fresh run there trivial
    · simp [Refused, status] at refused
    · exact absurd failed (unfailed 0)
    · exact atomic
    · simp [overtaken.status] at status
  · obtain ⟨refused, -⟩ | failed | ⟨s, member, event, atomic, -⟩ | overtaken :=
      asked_atomically world_fresh run there' trivial
    · simp [Refused, status'] at refused
    · exact absurd failed (unfailed 1)
    · obtain ⟨t, ran⟩ := run.ran member event
      exact absurd atomic (unanswered _ ran _)
    · exact overtaken

end Scripted

end Nip05d
