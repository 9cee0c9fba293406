import Nip05d.Handlers.Registry
import Nip05d.Handlers.Transfer

/-!
# The authority as a system

Requests arrive at any time, their handlers interleave section by section, and
around them the clock advances, the node changes its answers and the database
fails and recovers. The store starts empty.
-/

namespace Nip05d

open Auth Concurrent Handlers

inductive Request where
  | availability (headers : Headers) (name : String)
  | register (headers : Headers) (body : Bytes)
  | unregister (headers : Headers) (name : String)
  | profile (headers : Headers) (name : String)
  | byPubkey (headers : Headers) (pubkey : String)
  | wellKnown (headers : Headers) (name : Option String)
  | lodgeOffer (headers : Headers) (body : Bytes)
  | readOffer (headers : Headers) (offerId : String)
  | revokeOffer (headers : Headers) (offerId : String)
  | claim (headers : Headers) (body : Bytes)
  deriving DecidableEq

/-- A route that exists only with transfers enabled. -/
def mounted (app : App) (handler : Handler Response) : Handler Response :=
  if app.cfg.allowTransfers then handler else return ⟨404, [], .null⟩

def routes (app : App) : Request → Handler Response
  | .availability headers name => availability app headers name
  | .register headers body => register app headers body
  | .unregister headers name => unregister app headers name
  | .profile headers name => profile app headers name
  | .byPubkey headers pubkey => byPubkey app headers pubkey
  | .wellKnown headers name => wellKnown app headers name
  | .lodgeOffer headers body => mounted app (lodgeOffer app headers body)
  | .readOffer headers offerId => mounted app (readOffer app headers offerId)
  | .revokeOffer headers offerId => mounted app (revokeOffer app headers offerId)
  | .claim headers body => mounted app (claim app headers body)

/-- What happens around the authority. -/
inductive Around where
  /-- Time passes. -/
  | advance (clock : Clock)
  /-- The node, if there is one, changes its answers. -/
  | chain (node : ChainSource)
  /-- The database starts or stops to fail. -/
  | database (fault : Option Stage)

def Around.move : Around → World → Option World
  | .advance clock, w => if w.clock.nanos ≤ clock.nanos then some { w with clock } else none
  | .chain node, w => some { w with node := w.node.map fun _ => node }
  | .database fault, w => some { w with fault }

/-- Nothing is stored and nothing is remembered. -/
structure World.Fresh (w : World) : Prop where
  db : w.db = .empty
  rate : w.rate = .empty
  seenAuth : w.seenAuth = .empty

/-- One step of a run. -/
abbrev Step := Transition World Stmt Request Around Response

/-- The running authority. -/
def authority (app : App) : System World Stmt Request Around Response where
  handler := routes app
  env := Around.move
  init := World.Fresh

end Nip05d
