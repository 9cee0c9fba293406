import Nip05d.Dict
import Nip05d.Config

/-!
# Rate limiting, cooldowns and replay tracking

All of it is in memory: a map from `bucket:key` to the instants of past hits,
and a map from auth event ids to the instant of their use. Instants are
nanoseconds; a difference that would be negative is zero.
-/

namespace Nip05d

abbrev Nanos := Nat

namespace RateLimit

def nanosPerSec : Nanos := 1000000000

/-- An instant lies within a window before `now`. -/
def recent (now window t : Nanos) : Bool := now - t < window

/-- Sliding-window limiter: the decision and the map after it. -/
def allow (map : Dict (List Nanos)) (bucket ip : String) (max : Nat) (window now : Nanos) :
    Bool × Dict (List Nanos) :=
  let key := bucket ++ ":" ++ ip
  let hits := ((map.get key).getD []).filter (recent now window)
  if max ≤ hits.length then (false, map.set key hits)
  else
    let map := map.set key (hits ++ [now])
    -- opportunistic clean-up of the whole map, with this bucket's window
    if 50000 < map.size then (true, map.retain fun _ v => v.any (recent now window))
    else (true, map)

/-- An operation of this bucket happened within the window. -/
def cooldownActive (map : Dict (List Nanos)) (bucket key : String) (window now : Nanos) :
    Bool × Dict (List Nanos) :=
  let k := bucket ++ ":" ++ key
  match map.get k with
  | some hits =>
    let hits := hits.filter (recent now window)
    (!hits.isEmpty, map.set k hits)
  | none => (false, map)

def recordOp (map : Dict (List Nanos)) (bucket key : String) (now : Nanos) : Dict (List Nanos) :=
  let k := bucket ++ ":" ++ key
  map.set k ((map.get k).getD [] ++ [now])

/-- A cooldown is over when every hit has left the window. -/
theorem cooldownActive_eq_false {map : Dict (List Nanos)} {bucket key : String}
    {window now : Nanos} : (cooldownActive map bucket key window now).1 = false ↔
      ∀ hits, map.get (bucket ++ ":" ++ key) = some hits → ∀ t ∈ hits, recent now window t = false := by
  unfold cooldownActive
  dsimp only
  split
  · rename_i hits found
    simp [found, List.filter_eq_nil_iff]
  · rename_i missing
    simp [missing]

/-- The limiter forgets entries of other keys, and changes none. -/
theorem allow_other {map : Dict (List Nanos)} {bucket ip k : String} {max : Nat}
    {window now : Nanos} {hits : List Nanos} (other : bucket ++ ":" ++ ip ≠ k)
    (found : (allow map bucket ip max window now).2.get k = some hits) : map.get k = some hits := by
  unfold allow at found
  dsimp only at found
  split at found
  · rwa [Dict.get_set, if_neg other] at found
  · split at found
    · rw [Dict.get_retain, Option.filter_eq_some_iff, Dict.get_set, if_neg other] at found
      exact found.1
    · rwa [Dict.get_set, if_neg other] at found

/-- A text up to its first separator. -/
theorem split_unique {sep : Char} {xs ys as bs : List Char} (plain : sep ∉ xs) (plain' : sep ∉ ys)
    (same : xs ++ sep :: as = ys ++ sep :: bs) : xs = ys ∧ as = bs := by
  induction xs generalizing ys with
  | nil =>
    cases ys with
    | nil => exact ⟨rfl, List.tail_eq_of_cons_eq same⟩
    | cons y ys =>
      have first : sep = y := List.head_eq_of_cons_eq same
      simp [first] at plain'
  | cons x xs ih =>
    cases ys with
    | nil =>
      have first : x = sep := List.head_eq_of_cons_eq same
      simp [first] at plain
    | cons y ys =>
      rw [List.mem_cons, not_or] at plain plain'
      obtain ⟨rfl, rest⟩ := List.cons_eq_cons.1 same
      obtain ⟨rfl, rfl⟩ := ih plain.2 plain'.2 rest
      exact ⟨rfl, rfl⟩

/-- Buckets without a colon do not share keys of the map. -/
theorem key_inj {bucket bucket' key key' : String} (plain : ':' ∉ Text.chars bucket)
    (plain' : ':' ∉ Text.chars bucket')
    (same : bucket ++ ":" ++ key = bucket' ++ ":" ++ key') : bucket = bucket' ∧ key = key' := by
  have separator : Text.chars ":" = [':'] := by decide
  have parts : ∀ b k : String,
      Text.chars (b ++ ":" ++ k) = Text.chars b ++ ':' :: Text.chars k := fun b k => by
    rw [Text.chars_append, Text.chars_append, separator, List.append_assoc, List.singleton_append]
  have lists := congrArg Text.chars same
  rw [parts, parts] at lists
  obtain ⟨buckets, keys⟩ := split_unique plain plain' lists
  exact ⟨Text.chars_inj.1 buckets, Text.chars_inj.1 keys⟩

/-- How long a used auth event is remembered. -/
def authWindow (cfg : Config) : Nanos :=
  (Text.wrapU64 cfg.authMaxAgeSecs + 5) % 2 ^ 64 * nanosPerSec

/-- Record an auth event id as used; `false` when it is remembered as used. -/
def authEventFresh (cfg : Config) (seen : Dict Nanos) (eventId : String) (now : Nanos) :
    Bool × Dict Nanos :=
  let seen := seen.retain fun _ t => recent now (authWindow cfg) t
  match seen.get eventId with
  | some _ => (false, seen)
  | none => (true, seen.set eventId now)

end RateLimit

end Nip05d
