import Nip05d.Scripted

/-!
# The rate map against a limiter that never forgets

All buckets share one map, and every access prunes what it touches. `limiter`
keeps the whole past instead. They decide alike in every sequence of calls that
keeps its buckets apart and whose clean-ups drop only entries that their own
bucket has no use for: the hits of an entry within its bucket's window are
always the past ones within that window (`Kept`).
-/

namespace Nip05d

namespace RateLimit

/-- The ceiling and the window of each bucket. -/
structure Limits where
  max : String → Nat
  window : String → Nanos

/-- The limits of a running authority. -/
def limits (cfg : Config) : Limits where
  max bucket := if bucket = "read" then cfg.readRateMax else cfg.writeRateMax
  window bucket :=
    if bucket = "read" then cfg.readRateWindow
    else if bucket = "namechange" then cfg.nameChangeCooldown
    else cfg.writeRateWindow

inductive Call where
  | allow (bucket ip : String)
  | cooldownActive (bucket key : String)
  | recordOp (bucket key : String)
  deriving DecidableEq

namespace Call

def bucket : Call → String
  | .allow bucket _ | .cooldownActive bucket _ | .recordOp bucket _ => bucket

/-- The key of the map. -/
def key : Call → String
  | .allow bucket ip => bucket ++ ":" ++ ip
  | .cooldownActive bucket key | .recordOp bucket key => bucket ++ ":" ++ key

/-- The calls whose past decides this one. -/
def source : Call → Call
  | .cooldownActive bucket key => .recordOp bucket key
  | c => c

/-- What the code answers, and the map after it; `recordOp` has no answer. -/
def run (limits : Limits) (now : Nanos) (map : Dict (List Nanos)) :
    Call → Bool × Dict (List Nanos)
  | .allow bucket ip => RateLimit.allow map bucket ip (limits.max bucket) (limits.window bucket) now
  | .cooldownActive bucket key =>
    RateLimit.cooldownActive map bucket key (limits.window bucket) now
  | .recordOp bucket key => (true, RateLimit.recordOp map bucket key now)

end Call

/-- A call that was answered. -/
structure Answered where
  call : Call
  time : Nanos
  answer : Bool
  deriving DecidableEq

/-- The answers to calls, and the map that they leave. -/
def served (limits : Limits) (calls : List (Call × Nanos)) : List Answered × Dict (List Nanos) :=
  calls.foldl (fun s c =>
    let (answer, map) := c.1.run limits c.2 s.2
    (s.1 ++ [⟨c.1, c.2, answer⟩], map)) ([], .empty)

/-- When a call was answered with yes. -/
def times (log : List Answered) (c : Call) : List Nanos :=
  (log.filter fun a => a.call = c ∧ a.answer).map Answered.time

/-- What a limiter that knows every answered call says. -/
def decided (limits : Limits) (log : List Answered) (now : Nanos) : Call → Bool
  | .allow bucket ip =>
    ((times log (.allow bucket ip)).filter (recent now (limits.window bucket))).length <
      limits.max bucket
  | .cooldownActive bucket key =>
    (times log (.recordOp bucket key)).any (recent now (limits.window bucket))
  | .recordOp _ _ => true

/-- A limiter that never forgets. -/
def limiter (limits : Limits) (calls : List (Call × Nanos)) : List Answered :=
  calls.foldl (fun log c => log ++ [⟨c.1, c.2, decided limits log c.2 c.1⟩]) []

/-- Calls share a key of the map only when they share their past. -/
def Apart (calls : List (Call × Nanos)) : Prop :=
  ∀ c ∈ calls, ∀ c' ∈ calls, c.1.key = c'.1.key → c.1.source = c'.1.source

/-- The clean-up of a call, if it makes one, drops only entries of the given
calls without a hit in their own bucket's window. -/
def Spares (limits : Limits) (calls : List (Call × Nanos)) (map : Dict (List Nanos))
    (now : Nanos) : Call → Prop
  | .allow bucket ip =>
    let key := bucket ++ ":" ++ ip
    let hits := ((map.get key).getD []).filter (recent now (limits.window bucket))
    limits.max bucket ≤ hits.length ∨ (map.set key (hits ++ [now])).size ≤ 50000 ∨
      ∀ c ∈ calls, ∀ own ∈ map.get c.1.key, own.any (recent now (limits.window bucket)) = true ∨
        own.any (recent now (limits.window c.1.bucket)) = false
  | _ => True

/-- Every clean-up of a sequence spares what is still needed. -/
def SparesAll (limits : Limits) (calls : List (Call × Nanos)) : Prop :=
  ∀ earlier c later, calls = earlier ++ c :: later →
    Spares limits calls (served limits earlier).2 c.2 c.1

section

variable {limits : Limits} {calls all : List (Call × Nanos)} {c : Call × Nanos}
  {log : List Answered} {map : Dict (List Nanos)} {now later window : Nat}

theorem served_snoc : served limits (calls ++ [c]) =
    ((served limits calls).1 ++ [⟨c.1, c.2, (c.1.run limits c.2 (served limits calls).2).1⟩],
      (c.1.run limits c.2 (served limits calls).2).2) := by
  rw [served, List.foldl_append]
  rfl

theorem limiter_snoc : limiter limits (calls ++ [c]) = limiter limits calls ++
    [⟨c.1, c.2, decided limits (limiter limits calls) c.2 c.1⟩] := by
  rw [limiter, List.foldl_append]
  rfl

theorem times_snoc (a : Answered) (c : Call) : times (log ++ [a]) c =
    times log c ++ if a.call = c ∧ a.answer = true then [a.time] else [] := by
  rw [times, List.filter_append, List.map_append]
  congr 1
  by_cases hit : a.call = c ∧ a.answer = true
  · rw [if_pos hit, List.filter_cons_of_pos (by simpa using hit)]
    rfl
  · rw [if_neg hit, List.filter_cons_of_neg (by simpa using hit)]
    rfl

/-! ## Windows -/

/-- What is out of the window now is out of it later. -/
theorem recent_earlier {t : Nat} (order : now ≤ later) (hit : recent later window t = true) :
    recent now window t = true := by
  rw [recent, decide_eq_true_eq] at hit ⊢
  change (later : Nat) - t < window at hit
  change (now : Nat) - t < window
  omega

theorem filter_recent (order : now ≤ later) (hits : List Nat) :
    (hits.filter (recent now window)).filter (recent later window) =
      hits.filter (recent later window) := by
  rw [List.filter_filter]
  refine List.filter_congr fun t _ => ?_
  by_cases hit : recent later window t = true
  · rw [hit, recent_earlier order hit]
    rfl
  · rw [Bool.not_eq_true] at hit
    rw [hit, Bool.false_and]

theorem filter_of_none (order : now ≤ later) {hits : List Nat}
    (none_ : hits.any (recent now window) = false) : hits.filter (recent later window) = [] := by
  rw [List.filter_eq_nil_iff]
  intro t member hit
  rw [List.any_eq_false] at none_
  exact none_ t member (recent_earlier order hit)

theorem any_eq_filter (p : Nat → Bool) (hits : List Nat) :
    hits.any p = !(hits.filter p).isEmpty := by
  rw [Bool.eq_iff_iff, List.any_eq_true, Bool.not_eq_true', ← Bool.not_eq_true, List.isEmpty_iff,
    List.filter_eq_nil_iff]
  push Not
  rfl

/-- A clean-up keeps the hits within a window that the entry has a use for. -/
theorem filter_retained {own : Nat} {entry : Option (List Nat)} (order : now ≤ later)
    (spared : ∀ hits ∈ entry, hits.any (recent now window) = true ∨
      hits.any (recent now own) = false) :
    ((entry.filter fun hits => hits.any (recent now window)).getD []).filter (recent later own) =
      (entry.getD []).filter (recent later own) := by
  cases entry with
  | none => rfl
  | some hits =>
    rw [Option.filter_some]
    split
    · rfl
    · rename_i dropped
      have unused := (spared hits rfl).resolve_left dropped
      rw [Option.getD_some, filter_of_none order unused]
      rfl

/-! ## The invariant -/

/-- Within its bucket's window, from now on, the map has the past of every call. -/
def Kept (limits : Limits) (calls : List (Call × Nanos)) (log : List Answered)
    (map : Dict (List Nanos)) (now : Nat) : Prop :=
  ∀ c ∈ calls, ∀ later, now ≤ later →
    ((map.get c.1.key).getD []).filter (recent later (limits.window c.1.bucket)) =
      (times log c.1.source).filter (recent later (limits.window c.1.bucket))

namespace Call

@[simp] theorem source_key (c : Call) : c.source.key = c.key := by cases c <;> rfl

@[simp] theorem source_bucket (c : Call) : c.source.bucket = c.bucket := by cases c <;> rfl

end Call

/-- A map that has the past answers from it. -/
theorem Kept.decides (kept : Kept limits calls log map now) (member : c ∈ calls) :
    (c.1.run limits now map).1 = decided limits log now c.1 := by
  have hits := kept c member now le_rfl
  obtain ⟨call, time⟩ := c
  cases call with
  | allow bucket ip =>
    simp only [Call.key, Call.bucket, Call.source] at hits
    simp only [Call.run, decided, RateLimit.allow, hits]
    split
    · rename_i full
      simp only [Bool.false_eq, decide_eq_false_iff_not, not_lt]
      exact full
    · rename_i room
      split
      · simpa using room
      · simpa using room
  | cooldownActive bucket key =>
    simp only [Call.key, Call.bucket, Call.source] at hits
    simp only [Call.run, decided, RateLimit.cooldownActive]
    rw [any_eq_filter, ← hits]
    cases map.get (bucket ++ ":" ++ key) <;> rfl
  | recordOp bucket key => rfl

theorem Kept.mono (kept : Kept limits calls log map now) (order : now ≤ later) :
    Kept limits calls log map later :=
  fun c member n late => kept c member n (order.trans late)

/-- The own key of a call after it. -/
theorem Kept.own (kept : Kept limits calls log map now) (member : c ∈ calls) (order : now ≤ later) :
    ((((c.1.run limits now map).2).get c.1.key).getD []).filter
        (recent later (limits.window c.1.bucket)) =
      (times (log ++ [⟨c.1, now, (c.1.run limits now map).1⟩]) c.1.source).filter
        (recent later (limits.window c.1.bucket)) := by
  have hits := kept c member later order
  obtain ⟨call, time⟩ := c
  rw [times_snoc, List.filter_append, ← hits]
  cases call with
  | allow bucket ip =>
    simp only [Call.run, RateLimit.allow, Call.key, Call.bucket, Call.source]
    split
    · rw [Dict.get_set, if_pos rfl, Option.getD_some, filter_recent order]
      simp
    · have room : (((map.get (bucket ++ ":" ++ ip)).getD []).filter
          (recent now (limits.window bucket)) ++ [now]).filter
            (recent later (limits.window bucket)) =
          ((map.get (bucket ++ ":" ++ ip)).getD []).filter (recent later (limits.window bucket)) ++
            [now].filter (recent later (limits.window bucket)) := by
        rw [List.filter_append, filter_recent order]
      split
      · rw [Dict.get_retain, Dict.get_set, if_pos rfl, filter_retained order, Option.getD_some, room]
        · simp
        · intro own _
          exact (Bool.eq_false_or_eq_true _)
      · rw [Dict.get_set, if_pos rfl, Option.getD_some, room]
        simp
  | cooldownActive bucket key =>
    have differ : Call.cooldownActive bucket key ≠ .recordOp bucket key := nofun
    rw [if_neg fun hit => differ hit.1, List.filter_nil, List.append_nil]
    simp only [Call.run, RateLimit.cooldownActive, Call.key, Call.bucket]
    split
    · rename_i own found
      rw [Dict.get_set, if_pos rfl, found, Option.getD_some, filter_recent order, Option.getD_some]
    · rfl
  | recordOp bucket key =>
    simp only [Call.run, RateLimit.recordOp, Call.key, Call.bucket, Call.source]
    rw [Dict.get_set, if_pos rfl, Option.getD_some, List.filter_append]
    simp

/-- Another key that a call leaves alone, but for its clean-up. -/
theorem Kept.other {c' : Call × Nanos} (kept : Kept limits calls log map now)
    (member' : c' ∈ calls) (order : now ≤ later) (spares : Spares limits calls map now c.1)
    (differ : c.1.key ≠ c'.1.key) :
    ((((c.1.run limits now map).2).get c'.1.key).getD []).filter
        (recent later (limits.window c'.1.bucket)) =
      (times (log ++ [⟨c.1, now, (c.1.run limits now map).1⟩]) c'.1.source).filter
        (recent later (limits.window c'.1.bucket)) := by
  have foreign : c.1 ≠ c'.1.source := fun same => differ (by rw [same, Call.source_key])
  have untouched : ∀ hits : List Nat, (map.set c.1.key hits).get c'.1.key = map.get c'.1.key :=
    fun hits => by rw [Dict.get_set, if_neg differ]
  rw [times_snoc, if_neg fun hit => foreign hit.1, List.append_nil, ← kept c' member' later order]
  obtain ⟨call, time⟩ := c
  cases call with
  | allow bucket ip =>
    change ∀ hits, (map.set (bucket ++ ":" ++ ip) hits).get c'.1.key = _ at untouched
    simp only [Call.run, RateLimit.allow]
    split
    · rw [untouched]
    · rename_i below
      split
      · rename_i full
        rw [Dict.get_retain, untouched]
        refine filter_retained order fun hits found => ?_
        obtain refused | small | spared := spares
        · exact absurd refused below
        · exact absurd small (by omega)
        · exact spared c' member' hits found
      · rw [untouched]
  | cooldownActive bucket key =>
    change ∀ hits, (map.set (bucket ++ ":" ++ key) hits).get c'.1.key = _ at untouched
    simp only [Call.run, RateLimit.cooldownActive]
    split
    · rw [untouched]
    · rfl
  | recordOp bucket key =>
    change ∀ hits, (map.set (bucket ++ ":" ++ key) hits).get c'.1.key = _ at untouched
    simp only [Call.run, RateLimit.recordOp]
    rw [untouched]

/-- **The step lemma.** A call at its time keeps the past in the map. -/
theorem Kept.step (kept : Kept limits calls log map now) (apart : Apart calls) (member : c ∈ calls)
    (spares : Spares limits calls map now c.1) : Kept limits calls
      (log ++ [⟨c.1, now, (c.1.run limits now map).1⟩]) (c.1.run limits now map).2 now := by
  intro c' member' later order
  by_cases same : c.1.key = c'.1.key
  · have source := apart c member c' member' same
    have bucket : c.1.bucket = c'.1.bucket := by
      rw [← Call.source_bucket, source, Call.source_bucket]
    rw [← same, ← source, ← bucket]
    exact kept.own member order
  · exact kept.other member' order spares same

/-- After any part of a sequence the answers agree and the map has the past. -/
theorem kept_served (apart : Apart all) (spares : SparesAll limits all) :
    ∀ earlier later, all = earlier ++ later → earlier.Pairwise (fun a b => a.2 ≤ b.2) →
      (served limits earlier).1 = limiter limits earlier ∧
        ∀ now : Nat, (∀ c ∈ earlier, c.2 ≤ now) →
          Kept limits all (limiter limits earlier) (served limits earlier).2 now := by
  intro earlier
  induction earlier using List.reverseRecOn with
  | nil => exact fun later _ _ => ⟨rfl, fun now _ c _ later _ => rfl⟩
  | append_singleton earlier c ih =>
    intro later parts ordered
    rw [List.append_assoc, List.singleton_append] at parts
    rw [List.pairwise_append] at ordered
    obtain ⟨same, kept⟩ := ih (c :: later) parts ordered.1
    have before := kept c.2 fun a first => ordered.2.2 a first c List.mem_cons_self
    have member : c ∈ all := parts ▸ List.mem_append_right _ List.mem_cons_self
    rw [served_snoc, limiter_snoc, same, ← before.decides member]
    refine ⟨rfl, fun now late => ?_⟩
    exact (before.step apart member (spares earlier c later parts)).mono (late c (by simp))

/-- **The rate map is a limiter that never forgets**, as long as keys are kept
apart and clean-ups spare what is needed. -/
theorem served_eq_limiter (ordered : calls.Pairwise fun a b => a.2 ≤ b.2) (apart : Apart calls)
    (spares : SparesAll limits calls) : (served limits calls).1 = limiter limits calls :=
  (kept_served apart spares calls [] (List.append_nil _).symm ordered).1

/-! ## When the conditions hold -/

/-- A call of the limiter, not of the cooldown. -/
def Call.limited : Call → Bool
  | .allow _ _ => true
  | _ => false

/-- Buckets without a colon, each of one kind, are apart. -/
theorem apart_of_plain (plain : ∀ c ∈ calls, ':' ∉ Text.chars c.1.bucket)
    (kinds : ∀ c ∈ calls, ∀ c' ∈ calls, c.1.bucket = c'.1.bucket →
      c.1.limited = c'.1.limited) : Apart calls := by
  intro c member c' member' same
  have colon := plain c member
  have colon' := plain c' member'
  have kind := kinds c member c' member'
  obtain ⟨call, time⟩ := c
  obtain ⟨call', time'⟩ := c'
  cases call <;> cases call' <;> obtain ⟨rfl, rfl⟩ := key_inj colon colon' same <;>
    first | rfl | cases kind rfl

/-- The map grows by at most one entry with each call. -/
theorem size_served (limits : Limits) (calls : List (Call × Nanos)) :
    (served limits calls).2.size ≤ calls.length := by
  have set_le : ∀ (d : Dict (List Nanos)) k v, (d.set k v).size ≤ d.size + 1 := Dict.size_set_le
  induction calls using List.reverseRecOn with
  | nil => exact le_rfl
  | append_singleton earlier c ih =>
    rw [served_snoc, List.length_append, List.length_singleton]
    refine Nat.le_trans ?_ (Nat.succ_le_succ ih)
    generalize (served limits earlier).2 = map
    obtain ⟨call, time⟩ := c
    cases call with
    | allow bucket ip =>
      simp only [Call.run, RateLimit.allow]
      split
      · exact set_le ..
      split
      · exact (Dict.size_retain ..).trans (set_le ..)
      · exact set_le ..
    | cooldownActive bucket key =>
      simp only [Call.run, RateLimit.cooldownActive]
      split
      · exact set_le ..
      · exact Nat.le_succ _
    | recordOp bucket key => exact set_le ..

/-- A sequence that cannot fill the map makes no clean-up. -/
theorem sparesAll_of_few (few : calls.length ≤ 50000) : SparesAll limits calls := by
  intro earlier c later parts
  have grows := size_served limits earlier
  have size : earlier.length + 1 ≤ calls.length := by rw [parts, List.length_append]; simp
  obtain ⟨call, time⟩ := c
  cases call with
  | allow bucket ip =>
    refine .inr (.inl ?_)
    exact (Dict.size_set_le ..).trans (by omega)
  | cooldownActive | recordOp => trivial

/-- A recorded operation stays known. -/
theorem mem_times {bucket key : String} {t : Nanos} (member : (.recordOp bucket key, t) ∈ calls) :
    t ∈ times (limiter limits calls) (.recordOp bucket key) := by
  induction calls using List.reverseRecOn with
  | nil => cases member
  | append_singleton earlier c ih =>
    rw [limiter_snoc, times_snoc, List.mem_append]
    rw [List.mem_append, List.mem_singleton] at member
    rcases member with old | rfl
    · exact .inl (ih old)
    · exact .inr (by simp [decided])

end

end RateLimit

namespace Scripted

open RateLimit

/-- Writes at the start and a cooldown that is looked at twice. -/
def calls : List (Call × Nanos) := [
  (.allow "reg" "203.0.113.7", 0),
  (.recordOp "namechange" seller.toHex, 5 * nanosPerSec),
  (.allow "unreg" "203.0.113.7", 6 * nanosPerSec),
  (.cooldownActive "namechange" seller.toHex, 604 * nanosPerSec),
  (.cooldownActive "namechange" seller.toHex, 605 * nanosPerSec)]

/-- The calls are too few for a clean-up, so all of them are answered from the whole
past. -/
theorem answers : (served (limits config) calls).1 = limiter (limits config) calls ∧
    (limiter (limits config) calls).map Answered.answer = [true, true, true, true, false] :=
  ⟨served_eq_limiter (by decide +kernel)
    (apart_of_plain (by decide +kernel) (by decide +kernel)) (sparesAll_of_few (by decide)),
    by decide +kernel⟩

/-- One of many addresses. -/
def ip (n : Nat) : String := String.ofList (List.replicate n 'x')

theorem ip_inj {n m : Nat} (same : ip n = ip m) : n = m := by
  have lists := String.ofList_injective same
  simpa using congrArg List.length lists

/-- A cooldown is armed, and 61 seconds later as many addresses read. -/
def crowd (n : Nat) : List (Call × Nanos) :=
  (.recordOp "namechange" seller.toHex, 0) ::
    (List.range n).map fun i => (.allow "read" (ip i), 61 * nanosPerSec)

theorem crowd_succ (n : Nat) :
    crowd (n + 1) = crowd n ++ [(.allow "read" (ip n), 61 * nanosPerSec)] := by
  rw [crowd, List.range_succ, List.map_append]
  rfl

theorem read_apart (n : Nat) : "read" ++ ":" ++ ip n ≠ "namechange" ++ ":" ++ seller.toHex := by
  intro same
  exact absurd (key_inj (by decide) (by decide) same).1 (by decide)

theorem read_inj {n m : Nat} (same : "read" ++ ":" ++ ip n = "read" ++ ":" ++ ip m) : n = m :=
  ip_inj (key_inj (by decide) (by decide) same).2

/-- A read of a fresh address while the map has `size` entries. -/
theorem read_fresh {map : Dict (List Nanos)} {n size : Nat} (entries : map.size = size)
    (fresh : map.get ("read" ++ ":" ++ ip n) = none) :
    ((Call.allow "read" (ip n)).run (limits config) (61 * nanosPerSec) map).2 =
      if size < 50000 then map.set ("read" ++ ":" ++ ip n) [61 * nanosPerSec]
      else (map.set ("read" ++ ":" ++ ip n) [61 * nanosPerSec]).retain fun _ hits =>
        hits.any (recent (61 * nanosPerSec) (60 * nanosPerSec)) := by
  have max : (limits config).max "read" = 100000 := rfl
  have window : (limits config).window "read" = 60 * nanosPerSec := rfl
  simp only [Call.run, RateLimit.allow, fresh, max, window, Option.getD_none, List.filter_nil,
    List.length_nil, List.nil_append]
  rw [if_neg (by decide), Dict.size_set_new _ fresh, entries]
  by_cases room : size < 50000
  · rw [if_neg (by omega), if_pos room]
  · rw [if_pos (by omega), if_neg room]

/-- While there is room, every address has its entry beside the cooldown. -/
theorem crowd_served (n : Nat) (room : n < 50000) :
    (served (limits config) (crowd n)).2.size = n + 1 ∧
      (served (limits config) (crowd n)).2.get ("namechange" ++ ":" ++ seller.toHex) = some [0] ∧
      ∀ m, n ≤ m → (served (limits config) (crowd n)).2.get ("read" ++ ":" ++ ip m) = none := by
  induction n with
  | zero =>
    have armed : (served (limits config) (crowd 0)).2 =
        Dict.empty.set ("namechange" ++ ":" ++ seller.toHex) [0] := rfl
    rw [armed]
    refine ⟨rfl, by rw [Dict.get_set, if_pos rfl], fun m _ => ?_⟩
    rw [Dict.get_set, if_neg (read_apart m).symm, Dict.get_empty]
  | succ n ih =>
    obtain ⟨size, armed, free⟩ := ih (by omega)
    rw [crowd_succ, served_snoc]
    simp only [read_fresh size (free n le_rfl)]
    rw [if_pos room]
    refine ⟨by rw [Dict.size_set_new _ (free n le_rfl), size], ?_, fun m later => ?_⟩
    · rw [Dict.get_set, if_neg (read_apart n), armed]
    · rw [Dict.get_set, if_neg fun same => absurd (read_inj same) (by omega), free m (by omega)]

/-- The fifty thousandth address makes the map clean up, and its window of 60
seconds ends the cooldown of 600. -/
def crowded : List (Call × Nanos) :=
  crowd 50000 ++ [(.cooldownActive "namechange" seller.toHex, 61 * nanosPerSec)]

theorem cooldown_lost {n : Nat} (full : n = 50000) :
    (served (limits config) (crowd n)).2.get ("namechange" ++ ":" ++ seller.toHex) = none := by
  cases n with
  | zero => cases full
  | succ n =>
    obtain ⟨size, armed, free⟩ := crowd_served n (by omega)
    rw [crowd_succ, served_snoc]
    simp only [read_fresh size (free n le_rfl)]
    rw [if_neg (by omega), Dict.get_retain, Dict.get_set, if_neg (read_apart _), armed]
    rfl

theorem mem_crowd {n : Nat} {c : Call × Nanos} (member : c ∈ crowd n) :
    c = (.recordOp "namechange" seller.toHex, 0) ∨ ∃ i, c = (.allow "read" (ip i), 61 * nanosPerSec) := by
  rw [crowd, List.mem_cons, List.mem_map] at member
  obtain rfl | ⟨i, -, rfl⟩ := member
  · exact .inl rfl
  · exact .inr ⟨i, rfl⟩

theorem crowd_ordered (n : Nat) : (crowd n).Pairwise fun a b => a.2 ≤ b.2 := by
  rw [crowd, List.pairwise_cons, List.pairwise_map]
  exact ⟨fun c _ => Nat.zero_le _, List.pairwise_of_forall fun _ _ => le_rfl⟩

theorem crowded_ordered : crowded.Pairwise fun a b => a.2 ≤ b.2 := by
  rw [crowded, List.pairwise_append]
  refine ⟨crowd_ordered _, List.pairwise_singleton _ _, fun a first b last => ?_⟩
  rw [List.mem_singleton] at last
  subst last
  obtain rfl | ⟨i, rfl⟩ := mem_crowd first
  · exact Nat.zero_le _
  · exact le_rfl

theorem crowded_apart : Apart crowded := by
  have known : ∀ c ∈ crowded, c.1.bucket = "read" ∧ c.1.limited = true ∨
      c.1.bucket = "namechange" ∧ c.1.limited = false := by
    intro c member
    rw [crowded, List.mem_append, List.mem_singleton] at member
    rcases member with old | rfl
    · obtain rfl | ⟨i, rfl⟩ := mem_crowd old
      · exact .inr ⟨rfl, rfl⟩
      · exact .inl ⟨rfl, rfl⟩
    · exact .inr ⟨rfl, rfl⟩
  have differ : ("read" : String) ≠ "namechange" := by decide
  refine apart_of_plain (fun c member => ?_) fun c member c' member' same => ?_
  · obtain ⟨bucket, -⟩ | ⟨bucket, -⟩ := known c member <;> rw [bucket] <;> decide
  · obtain ⟨bucket, kind⟩ | ⟨bucket, kind⟩ := known c member <;>
      obtain ⟨bucket', kind'⟩ | ⟨bucket', kind'⟩ := known c' member' <;>
      rw [bucket, bucket'] at same
    · rw [kind, kind']
    · exact absurd same differ
    · exact absurd same.symm differ
    · rw [kind, kind']

theorem crowd_differs {n : Nat} (full : n = 50000) :
    (served (limits config)
        (crowd n ++ [(.cooldownActive "namechange" seller.toHex, 61 * nanosPerSec)])).1 ≠
      limiter (limits config)
        (crowd n ++ [(.cooldownActive "namechange" seller.toHex, 61 * nanosPerSec)]) := by
  intro same
  rw [served_snoc, limiter_snoc] at same
  have last := congrArg (fun log => log.getLast?.map Answered.answer) same
  simp only [List.getLast?_concat, Option.map_some, Option.some.injEq, Call.run,
    RateLimit.cooldownActive, cooldown_lost full] at last
  have known : 0 ∈ times (limiter (limits config) (crowd n))
      (.recordOp "namechange" seller.toHex) := mem_times List.mem_cons_self
  have active : decided (limits config) (limiter (limits config) (crowd n)) (61 * nanosPerSec)
      (.cooldownActive "namechange" seller.toHex) = true :=
    List.any_eq_true.2 ⟨0, known, by decide⟩
  rw [active] at last
  cases last

/-- The read bucket's clean-up makes the map forget a running cooldown. -/
theorem crowd_forgets : (crowded.Pairwise fun a b => a.2 ≤ b.2) ∧ Apart crowded ∧
    (served (limits config) crowded).1 ≠ limiter (limits config) crowded :=
  ⟨crowded_ordered, crowded_apart, crowd_differs rfl⟩

end Scripted

end Nip05d
