import Mathlib.Data.List.Pairwise

/-!
# Memories with a retention window

A memory admits the use of a key when no use of that key within the window is
remembered, and remembers the uses it admits. What is older than the window is
forgotten at every use. Two admitted uses of a key are a window apart
(`Logged.spaced`), and every use has an admitted one within the window before
it (`Logged.covered`), so keys are admitted once exactly as long as no key is
used again after a window (`Logged.once_iff`).
-/

namespace Retention

/-- A time lies within the window before `now`. -/
def recent (now window t : Nat) : Bool := now - t < window

/-- The time of the last admitted use of each key. -/
abbrev Memory (K : Type) := K → Option Nat

/-- What happened when a key was used. -/
structure Use (K : Type) where
  key : K
  at_ : Nat
  admitted : Bool

variable {K : Type} {window now : Nat} {m : Memory K} {log : List (Use K)}

namespace Memory

/-- The memory without what the window has left behind. -/
def kept (m : Memory K) (window now : Nat) : Memory K := fun k => (m k).filter (recent now window)

def admits (m : Memory K) (window now : Nat) (k : K) : Bool := (m.kept window now k).isNone

theorem kept_eq_some {k : K} {t : Nat} :
    m.kept window now k = some t ↔ m k = some t ∧ now - t < window := by
  simp [kept, recent, Option.filter_eq_some_iff]

theorem admits_eq_true {k : K} :
    m.admits window now k = true ↔ ∀ t, m k = some t → window ≤ now - t := by
  rw [admits, Option.isNone_iff_eq_none, kept, Option.filter_eq_none_iff]
  simp [recent]

theorem admits_eq_false {k : K} :
    m.admits window now k = false ↔ ∃ t, m k = some t ∧ now - t < window := by
  rw [← Bool.not_eq_true, admits_eq_true]
  simp only [Classical.not_forall, Nat.not_le, exists_prop]

variable [DecidableEq K]

def use (m : Memory K) (window now : Nat) (k : K) : Memory K := fun k' =>
  if k' = k ∧ m.admits window now k then some now else m.kept window now k'

theorem use_admitted {k : K} (admitted : m.admits window now k = true) :
    m.use window now k k = some now := if_pos ⟨rfl, admitted⟩

/-- A use changes no other key, but for forgetting. -/
theorem use_other {k k' : K} (other : ¬ (k' = k ∧ m.admits window now k = true)) :
    m.use window now k k' = m.kept window now k' := if_neg other

end Memory

variable [DecidableEq K]

/-- The uses that a memory has seen from the start until `now`, in order. -/
inductive Logged (window : Nat) : List (Use K) → Nat → Memory K → Prop where
  | start {now : Nat} : Logged window [] now fun _ => none
  | wait {log : List (Use K)} {now later : Nat} {m : Memory K} :
      Logged window log now m → now ≤ later → Logged window log later m
  | use {log : List (Use K)} {now : Nat} {m : Memory K} (k : K) : Logged window log now m →
      Logged window (log ++ [⟨k, now, m.admits window now k⟩]) now (m.use window now k)

namespace Logged

theorem past (logged : Logged window log now m) : ∀ u ∈ log, u.at_ ≤ now := by
  induction logged with
  | start => nofun
  | wait _ later ih => exact fun u member => Nat.le_trans (ih u member) later
  | use k _ ih =>
    intro u member
    rw [List.mem_append, List.mem_singleton] at member
    rcases member with old | rfl
    · exact ih u old
    · exact Nat.le_refl _

/-- Uses are in the order of their times. -/
theorem sorted (logged : Logged window log now m) : log.Pairwise fun a b => a.at_ ≤ b.at_ := by
  induction logged with
  | start => exact List.Pairwise.nil
  | wait _ _ ih => exact ih
  | use k logged ih =>
    rw [List.pairwise_append]
    refine ⟨ih, List.pairwise_singleton _ _, fun a old b last => ?_⟩
    rw [List.mem_singleton] at last
    exact last ▸ logged.past a old

/-- What is remembered is the time of an admitted use. -/
theorem source (logged : Logged window log now m) : ∀ k t, m k = some t →
    ∃ u ∈ log, u.admitted = true ∧ u.key = k ∧ u.at_ = t := by
  induction logged with
  | start => nofun
  | wait _ _ ih => exact ih
  | @use log now m k logged ih =>
    intro k' t here
    by_cases again : k' = k ∧ m.admits window now k = true
    · obtain ⟨rfl, admitted⟩ := again
      rw [Memory.use_admitted admitted, Option.some.injEq] at here
      exact ⟨_, List.mem_append_right _ List.mem_cons_self, admitted, rfl, here⟩
    · rw [Memory.use_other again] at here
      obtain ⟨u, member, rest⟩ := ih k' t (Memory.kept_eq_some.1 here).1
      exact ⟨u, List.mem_append_left _ member, rest⟩

/-- Nothing is remembered from after the present. -/
theorem known (logged : Logged window log now m) {k : K} {t : Nat} (here : m k = some t) :
    t ≤ now := by
  obtain ⟨u, member, -, -, rfl⟩ := logged.source k t here
  exact logged.past u member

/-- An admitted use is remembered, or a later one of its key is, or it is a
window ago. -/
theorem remembered (logged : Logged window log now m) : ∀ u ∈ log, u.admitted = true →
    (∃ t, m u.key = some t ∧ u.at_ ≤ t) ∨ u.at_ + window ≤ now := by
  induction logged with
  | start => nofun
  | wait _ later ih =>
    intro u member admitted
    exact (ih u member admitted).imp id fun elapsed => Nat.le_trans elapsed later
  | @use log now m k logged ih =>
    intro u member admitted
    rw [List.mem_append, List.mem_singleton] at member
    by_cases again : u.key = k ∧ m.admits window now k = true
    · have before : u.at_ ≤ now := by
        rcases member with old | rfl
        · exact logged.past u old
        · exact Nat.le_refl _
      exact .inl ⟨now, by rw [again.1]; exact Memory.use_admitted again.2, before⟩
    · rcases member with old | rfl
      · rcases ih u old admitted with ⟨t, here, before⟩ | elapsed
        · have known := logged.known here
          by_cases fresh : now - t < window
          · refine .inl ⟨t, ?_, before⟩
            rw [Memory.use_other again]
            exact Memory.kept_eq_some.2 ⟨here, fresh⟩
          · right
            omega
        · exact .inr elapsed
      · exact absurd ⟨rfl, admitted⟩ again

/-- **Admitted uses of a key are a window apart.** -/
theorem spaced (logged : Logged window log now m) : log.Pairwise fun a b =>
    a.key = b.key → a.admitted = true → b.admitted = true → a.at_ + window ≤ b.at_ := by
  induction logged with
  | start => exact List.Pairwise.nil
  | wait _ _ ih => exact ih
  | @use log now m k logged ih =>
    rw [List.pairwise_append]
    refine ⟨ih, List.pairwise_singleton _ _, fun a old b last same first second => ?_⟩
    rw [List.mem_singleton] at last
    subst last
    rcases logged.remembered a old first with ⟨t, here, before⟩ | elapsed
    · rw [same] at here
      have gone := Memory.admits_eq_true.1 second t here
      have known := logged.known here
      change a.at_ + window ≤ now
      omega
    · exact elapsed

/-- **Every use has an admitted use of its key within the window before it.** -/
theorem covered (logged : Logged window log now m) (open_ : 0 < window) : ∀ u ∈ log,
    ∃ p ∈ log, p.admitted = true ∧ p.key = u.key ∧ p.at_ ≤ u.at_ ∧ u.at_ < p.at_ + window := by
  induction logged with
  | start => nofun
  | wait _ _ ih => exact ih
  | @use log now m k logged ih =>
    intro u member
    rw [List.mem_append, List.mem_singleton] at member
    rcases member with old | rfl
    · obtain ⟨p, member, rest⟩ := ih u old
      exact ⟨p, List.mem_append_left _ member, rest⟩
    cases admitted : m.admits window now k with
    | true =>
      refine ⟨⟨k, now, true⟩, by simp, rfl, rfl, Nat.le_refl _, ?_⟩
      change now < now + window
      omega
    | false =>
      obtain ⟨t, here, fresh⟩ := Memory.admits_eq_false.1 admitted
      obtain ⟨p, member, admitted', key, rfl⟩ := logged.source k t here
      have before := logged.past p member
      refine ⟨p, List.mem_append_left _ member, admitted', key, before, ?_⟩
      change now < p.at_ + window
      omega

/-- **Keys are admitted once exactly as long as none is used after a window.** -/
theorem once_iff (logged : Logged window log now m) (open_ : 0 < window) :
    (log.Pairwise fun a b => a.key = b.key → ¬ (a.admitted = true ∧ b.admitted = true)) ↔
      log.Pairwise fun a b => a.key = b.key → b.at_ < a.at_ + window := by
  constructor
  · intro once
    refine List.pairwise_of_forall_mem_list fun a ha b hb same => ?_
    obtain ⟨p, first, admittedP, keyP, before, -⟩ := logged.covered open_ a ha
    obtain ⟨p', second, admittedP', keyP', -, within⟩ := logged.covered open_ b hb
    have symm : Std.Symm fun a b : Use K =>
        a.key = b.key → ¬ (a.admitted = true ∧ b.admitted = true) :=
      ⟨fun _ _ apart same both => apart same.symm both.symm⟩
    by_contra elapsed
    have differ : p ≠ p' := by
      rintro rfl
      omega
    exact once.forall first second differ (by rw [keyP, keyP', same]) ⟨admittedP, admittedP'⟩
  · intro soon
    refine (logged.spaced.and soon).imp fun both same admitted => ?_
    have apart := both.1 same admitted.1 admitted.2
    have close := both.2 same
    omega

end Logged

end Retention
