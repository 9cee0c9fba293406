import Nip05d.Concurrent.Pool
import Nip05d.Crates
import Nip05d.Db
import Nip05d.Node
import Nip05d.RateLimit

/-!
# The shared state and its atomic sections

Handlers share the store behind its mutex, the two in-memory maps, the clock
and the node. Everything a handler does to the world between two points where
another request may run is one section: one locked statement, one query, one
locked access of a map, one reading of the clock, one answer of the node. A
section that changes the world is named by a `Stmt`, and `Stmt.apply` says what
it changes.
-/

namespace Nip05d

open Concurrent

/-- Time since the epoch. The wall clock and the monotonic clock advance
together. -/
structure Clock where
  nanos : Nanos
  bound : nanos < 2 ^ 63 * RateLimit.nanosPerSec

structure World where
  db : Db
  rate : Dict (List Nanos)
  seenAuth : Dict Nanos
  clock : Clock
  node : Option ChainSource
  /-- The database fails: a statement on its own at once, a transaction at this
  stage. -/
  fault : Option Stage

namespace World

/-- Seconds since the epoch. -/
def unixNow (w : World) : Int := ((w.clock.nanos / RateLimit.nanosPerSec : Nat) : Int)

/-- A query; a failing database answers nothing. -/
def query {α : Type} (w : World) (q : Db → Option α) : Option α :=
  if w.fault.isSome then none else q w.db

/-- A query whose only answer is that a row exists. -/
def holds (w : World) (q : Db → Bool) : Bool := if w.fault.isSome then false else q w.db

/-- A statement of its own; a refused one changes nothing. -/
def execute (w : World) (statement : Db → Written) : Except Sql.Error Nat × World :=
  if w.fault.isSome then (.error .other, w)
  else
    match statement w.db with
    | .ok (n, db) => (.ok n, { w with db })
    | .error e => (.error e, w)

/-- The chain tip as it is stored; `none` without a node or when it fails. -/
def tipHeight (w : World) : Option Int :=
  w.node.bind fun node => node.tipHeight.toOption.map Text.heightAsI64

/-- The kernel of an excess. -/
def kernel (w : World) (excessHex : String) : Except String KernelResult :=
  match w.node with
  | some node => node.kernel excessHex
  | none => .error "transfers enabled but no node configured"

/-- The clock fits an `i64` and does not go below the epoch. -/
theorem unixNow_range (w : World) : 0 ≤ w.unixNow ∧ Text.InI64 w.unixNow := by
  obtain ⟨seconds, same, bound⟩ : ∃ seconds : Nat, w.unixNow = seconds ∧ seconds < 2 ^ 63 :=
    ⟨_, rfl, Nat.div_lt_of_lt_mul (Nat.mul_comm _ _ ▸ w.clock.bound)⟩
  rw [same]
  unfold Text.InI64
  omega

theorem query_eq_some {α : Type} {w : World} {q : Db → Option α} {a : α} :
    w.query q = some a ↔ w.fault = none ∧ q w.db = some a := by
  cases fault : w.fault <;> simp [query, fault]

/-- A working database answers what it holds. -/
theorem query_working {α : Type} {w : World} {q : Db → Option α} (working : w.fault = none) :
    w.query q = q w.db := by
  simp [query, working]

theorem holds_eq_false {w : World} {q : Db → Bool} (working : w.fault = none) :
    w.holds q = false ↔ q w.db = false := by
  simp [holds, working]

def claimTxn (w : World) (offer : OfferRow) (excessHex : String) (kernelHeight : Option Int)
    (now : Int) : Except TxErr Unit × World :=
  match w.db.runClaimTxn w.fault offer excessHex kernelHeight now with
  | .ok db => (.ok (), { w with db })
  | .error e => (.error e, w)

end World

/-- The sections that handlers are made of. -/
inductive Stmt where
  /-- A reading of the clock, a query, or an answer of the node. -/
  | look
  | allow (bucket ip : String) (max : Nat) (window now : Nanos)
  | authEventFresh (eventId : String) (now : Nanos)
  | cooldownActive (bucket key : String) (window now : Nanos)
  | recordOp (bucket key : String)
  | registerName (name pubkey : String)
  | releaseName (name : String)
  | insertOffer (o : NewOffer) (createdAt : Int)
  | markOfferDead (offerId : String) (status : Death) (endHeight : Option Int)
      (stateChangedAt : Int)
  | revokeExpired (offerId : String)
  | claimTxn (offer : OfferRow) (excessHex : String) (kernelHeight : Option Int) (now : Int)
  deriving DecidableEq

/-- What a section does to the world. -/
def Stmt.apply (cfg : Config) : Stmt → World → World
  | .look, w => w
  | .allow bucket ip max window now, w =>
    { w with rate := (RateLimit.allow w.rate bucket ip max window now).2 }
  | .authEventFresh eventId now, w =>
    { w with seenAuth := (RateLimit.authEventFresh cfg w.seenAuth eventId now).2 }
  | .cooldownActive bucket key window now, w =>
    { w with rate := (RateLimit.cooldownActive w.rate bucket key window now).2 }
  | .recordOp bucket key, w =>
    { w with rate := RateLimit.recordOp w.rate bucket key w.clock.nanos }
  | .registerName name pubkey, w => (w.execute (·.registerName name pubkey w.unixNow)).2
  | .releaseName name, w => (w.execute (·.releaseName name w.unixNow)).2
  | .insertOffer o createdAt, w => (w.execute (·.insertOffer o createdAt)).2
  | .markOfferDead offerId status endHeight stateChangedAt, w =>
    (w.execute (·.markOfferDead offerId status endHeight stateChangedAt)).2
  | .revokeExpired offerId, w => (w.execute (·.revokeExpired offerId)).2
  | .claimTxn offer excessHex kernelHeight now, w =>
    (w.claimTxn offer excessHex kernelHeight now).2

/-- A program of a handler. -/
abbrev Handler := Prog World Stmt

namespace Handler

variable {α : Type}

/-- A section that only looks at the world. -/
def look (f : World → α) : Handler α := .step .look id fun w => .ret (f w)

/-- A section that changes the world; the answer is computed from the world
before it. -/
def exec (cfg : Config) (t : Stmt) (f : World → α) : Handler α :=
  .step t (t.apply cfg) fun w => .ret (f w)

/-! ## Clock, queries and node -/

def unixNow : Handler Int := look World.unixNow

def instantNow : Handler Nanos := look (·.clock.nanos)

/-- Active (non-released) pubkey for a name. -/
def lookup (name : String) : Handler (Option String) := look (·.query (·.lookup name))

/-- Active name owned by a pubkey. -/
def nameOf (pubkey : String) : Handler (Option String) := look (·.query (·.nameOf pubkey))

/-- Fetch a lodged offer by its event id. -/
def getOffer (offerId : String) : Handler (Option OfferRow) := look (·.query (·.getOffer offerId))

def liveOfferForName (name : String) (now : Int) : Handler Bool :=
  look (·.holds (·.liveOfferForName name now))

def liveOfferBinding (proofAddress : String) (now : Int) : Handler Bool :=
  look (·.holds (·.liveOfferBinding proofAddress now))

/-- The completed transfer for an offer id, if any. -/
def transferForOffer (offerId : String) : Handler (Option (String × String × String)) :=
  look (·.query (·.transferForOffer offerId))

/-- This kernel excess was already consumed by a transfer. -/
def excessUsed (excessHex : String) : Handler Bool := look (·.holds (·.excessUsed excessHex))

def tipHeight : Handler (Option Int) := look World.tipHeight

def kernel (excessHex : String) : Handler (Except String KernelResult) :=
  look (·.kernel excessHex)

/-! ## The in-memory maps -/

def allow (cfg : Config) (bucket ip : String) (max : Nat) (window : Nanos) : Handler Bool := do
  let now ← instantNow
  exec cfg (.allow bucket ip max window now) fun w =>
    (RateLimit.allow w.rate bucket ip max window now).1

def allowRead (cfg : Config) (ip : String) : Handler Bool :=
  allow cfg "read" ip cfg.readRateMax cfg.readRateWindow

def allowWrite (cfg : Config) (bucket ip : String) : Handler Bool :=
  allow cfg bucket ip cfg.writeRateMax cfg.writeRateWindow

/-- Record an auth event id as used; `false` when it was already. -/
def authEventFresh (cfg : Config) (eventId : String) : Handler Bool := do
  let now ← instantNow
  exec cfg (.authEventFresh eventId now) fun w =>
    (RateLimit.authEventFresh cfg w.seenAuth eventId now).1

def cooldownActive (cfg : Config) (bucket key : String) (window : Nanos) : Handler Bool := do
  let now ← instantNow
  exec cfg (.cooldownActive bucket key window now) fun w =>
    (RateLimit.cooldownActive w.rate bucket key window now).1

/-- Record a completed operation; the clock is read under the lock. -/
def recordOp (cfg : Config) (bucket key : String) : Handler Unit :=
  exec cfg (.recordOp bucket key) fun _ => ()

/-! ## Statements -/

def registerName (cfg : Config) (name pubkey : String) : Handler (Except Sql.Error Nat) :=
  exec cfg (.registerName name pubkey) fun w =>
    (w.execute (·.registerName name pubkey w.unixNow)).1

def releaseName (cfg : Config) (name : String) : Handler (Except Sql.Error Nat) :=
  exec cfg (.releaseName name) fun w => (w.execute (·.releaseName name w.unixNow)).1

/-- Insert a fresh `live` offer. -/
def insertOffer (cfg : Config) (o : NewOffer) (createdAt : Int) :
    Handler (Except Sql.Error Nat) :=
  exec cfg (.insertOffer o createdAt) fun w => (w.execute (·.insertOffer o createdAt)).1

/-- Transition a live offer to a terminal state. -/
def markOfferDead (cfg : Config) (offerId : String) (status : Death) (endHeight : Option Int)
    (stateChangedAt : Int) : Handler (Except Sql.Error Nat) :=
  exec cfg (.markOfferDead offerId status endHeight stateChangedAt) fun w =>
    (w.execute (·.markOfferDead offerId status endHeight stateChangedAt)).1

def revokeExpired (cfg : Config) (offerId : String) : Handler (Except Sql.Error Nat) :=
  exec cfg (.revokeExpired offerId) fun w => (w.execute (·.revokeExpired offerId)).1

def runClaimTxn (cfg : Config) (offer : OfferRow) (excessHex : String)
    (kernelHeight : Option Int) (now : Int) : Handler (Except TxErr Unit) :=
  exec cfg (.claimTxn offer excessHex kernelHeight now) fun w =>
    (w.claimTxn offer excessHex kernelHeight now).1

end Handler

end Nip05d
