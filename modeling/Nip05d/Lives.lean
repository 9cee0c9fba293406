import Nip05d.Concurrent.Lives
import Nip05d.Effects

/-!
# Restarts

The authority is a process over a database file. It can end at any moment, with
requests under way, and is opened again on the same tables, perhaps with another
configuration; what it kept in memory is gone. `deployment` is the authority
over all its lives.
-/

namespace Nip05d

open Auth Concurrent Handlers

/-- `App::open`: the tables are as the last process left them, the maps are
empty, and there is a node when transfers are enabled. -/
structure App.Opens (app : App) (w w' : World) : Prop where
  db : w'.db = w.db
  rate : w'.rate = .empty
  seenAuth : w'.seenAuth = .empty
  clock : w.clock.nanos ≤ w'.clock.nanos
  node : w'.node.isSome = app.cfg.allowTransfers

/-- The authority over all its lives, on a database file that starts empty. -/
def deployment : Deployment App World Stmt Request Around Response where
  system := authority
  blank w := w.db = .empty
  restart := App.Opens

section

variable {app : App} {w : World} {c c' : Conf World Stmt Request Response} {i : Nat} {r : Request}
  {t : Stmt}

/-- A section that is due has its grounds, whatever the life started from. -/
theorem rooted_because (reach : Reachable ((authority app).rooted w) c)
    (due : c.due i = some (r, t)) : Because app Later Later r t c.hist := by
  obtain ⟨u, n, found⟩ := Conf.due_eq_some.1 due
  have handled := System.rooted_handled (s := w) (handled (Later.views app.cfg))
  exact (reach.guarantee (System.rooted_rely (rely app)) handled found).because

/-- What the section that is due does. -/
theorem rooted_due (reach : Reachable ((authority app).rooted w) c)
    (next : (authority app).step c (.run i) = some c') (due : c.due i = some (r, t)) :
    c'.hist = c.hist.push (t.apply app.cfg c.hist.now) := by
  obtain ⟨u, n, found⟩ := Conf.due_eq_some.1 due
  have handled := System.rooted_handled (s := w) (handled (Later.views app.cfg))
  simp only [System.step, found, Option.some.injEq] at next
  rw [← next, (reach.guarantee (System.rooted_rely (rely app)) handled found).effect]

/-- A step runs the section that is due, or leaves the store as it is. -/
theorem rooted_step (reach : Reachable ((authority app).rooted w) c)
    {e : Concurrent.Event Request Around} (next : (authority app).step c e = some c') :
    (∃ i r t, e = .run i ∧ c.due i = some (r, t) ∧
      c'.hist = c.hist.push (t.apply app.cfg c.hist.now)) ∨
    ((∀ i, e ≠ .run i) ∧ c'.hist.now.db = c.hist.now.db) := by
  obtain ⟨r, rfl, hist, -⟩ | ⟨i, r, t, u, n, rfl, found, -, -⟩ | ⟨v, s, rfl, moved, hist, -⟩ :=
    System.step_cases next
  · exact .inr ⟨(by rintro i ⟨⟩), by rw [hist]⟩
  · have due : c.due i = some (r, t) := Conf.due_eq_some.2 ⟨u, n, found⟩
    exact .inl ⟨i, r, t, rfl, due, rooted_due reach next due⟩
  · exact .inr ⟨(by rintro i ⟨⟩), by rw [hist, Hist.push_now, (Around.move_frame moved).1]⟩

/-- A life stays within what interleaving requests rely on. -/
theorem rooted_later (reach : Reachable ((authority app).rooted w) c)
    {e : Concurrent.Event Request Around} (next : (authority app).step c e = some c') :
    Later c.hist c'.hist := by
  have handled := System.rooted_handled (s := w) (handled (Later.views app.cfg))
  exact reach.step_rely (System.rooted_rely (rely app)) handled next

end

end Nip05d
