import Nip05d.Effects

/-!
# A scripted authority

Concrete crates for runs on fixed inputs: events and bodies come from tables,
the hash pads to thirty-two bytes, and a signature is the key followed by the
start of the message. A script whose events have distinct ids binds them.
-/

namespace Nip05d.Scripted

open Auth Concurrent Text

/-- What the texts of a script stand for. -/
structure Script where
  events : List (String × Event)
  values : List (String × Json.Value)
  registrations : List (String × RegisterBody)

def find {α : Type} (table : List (String × α)) (bytes : Bytes) : Option α :=
  (table.find? fun e => utf8 e.1 == bytes).map Prod.snd

def digest (bytes : Bytes) : Bytes := (bytes ++ List.replicate 32 0).take 32

/-- The signature of a message by a key. -/
def sign (key : Bytes32) (message : Bytes) : Bytes := key.bytes ++ message.take 32

def crates (s : Script) : Crates where
  unicode := .asciiOnly
  base64Decode text := some (utf8 text)
  eventFromJson := find s.events
  eventVerify e := s.events.any (·.2 == e)
  eventAsJson e := e.content
  sha256 := digest
  valueFromSlice := find s.values
  valueFromStr _ := none
  valueToString v := v.asStr.getD ""
  registerBodyFromSlice := find s.registrations
  verifyingKeyFromBytes _ := true
  verifyingKeyVerify key message sig := sig == sign key message

theorem crates_idsBind {s : Script} (distinct : (s.events.map fun e => e.2.id).Nodup) :
    (crates s).IdsBind := by
  intro e e' verified verified' same
  obtain ⟨a, memberA, hitA⟩ := List.any_eq_true.1 verified
  obtain ⟨b, memberB, hitB⟩ := List.any_eq_true.1 verified'
  rw [beq_iff_eq] at hitA hitB
  have entry : a = b := List.inj_on_of_nodup_map distinct memberA memberB (by rw [hitA, hitB, same])
  rw [← hitA, ← hitB, entry]

/-! ## The cast -/

def key (n : Nat) : Bytes32 := ⟨List.replicate 32 (UInt8.ofNat n), List.length_replicate⟩

def seller : Bytes32 := key 17

def buyer : Bytes32 := key 34

def other : Bytes32 := key 51

/-- An auth event for a request. -/
def auth (id : Nat) (author : Bytes32) (createdAt : Nat) (method : Method) (path body : String) :
    Event where
  id := key id
  pubkey := author
  createdAt
  kind := 27235
  tags := [["u", "https://goblin.st" ++ path], ["method", method.asStr]] ++
    if body = "" then [] else [["payload", Hex.encode (digest (utf8 body))]]
  content := ""
  sig := []

/-- An offer to the buyer at price 5, open until second 1010. -/
def offer (id : Nat) (author : Bytes32) (name address : String) : Event where
  id := key id
  pubkey := author
  createdAt := 1000
  kind := 3402
  tags := [["name", name], ["domain", "goblin.st"], ["p", buyer.toHex], ["price", "5"],
    ["proof_address", address], ["expiration", "1010"]]
  content := ""
  sig := []

/-- The address of the zero key with a prefix and a checksum variant. -/
def address (hrp : String) (variant : Bech32.Variant) : String :=
  Bech32.encode hrp (Bech32.toBase32 (key 0).bytes) variant

/-- The address of a key. -/
def addressOf (payee : Bytes32) : String :=
  Bech32.encode "grin" (Bech32.toBase32 payee.bytes) .bech32

/-- An offer at a price of 2^63. -/
def hugeOffer (id : Nat) (author : Bytes32) (name address : String) : Event :=
  { offer id author name address with
    tags := [["name", name], ["domain", "goblin.st"], ["p", buyer.toHex],
      ["price", "9223372036854775808"], ["proof_address", address], ["expiration", "1010"]] }

def excess : Bytes := List.replicate 33 8

/-- A payment of 5 from the zero key to itself. -/
def payment : Json.Value :=
  let signature := Hex.encode (sign (key 0) (Proof.amountToBeU64 5 ++ excess ++ (key 0).bytes))
  .object [("amount", .string "5"), ("excess", .string (Hex.encode excess)),
    ("recipient_address", .string (address "grin" .bech32)), ("recipient_sig", .string signature),
    ("sender_address", .string (address "grin" .bech32)), ("sender_sig", .string signature)]

/-- A proof with the excess of the payment and without signatures. -/
def forgery : Json.Value :=
  .object [("amount", .string "5"), ("excess", .string (Hex.encode excess)),
    ("recipient_address", .string (address "grin" .bech32)), ("recipient_sig", .string ""),
    ("sender_address", .string (address "grin" .bech32)), ("sender_sig", .string "")]

def offerId (id : Nat) : String := (key id).toHex

def script : Script where
  events := [
    ("O1", offer 101 seller "ada" (address "grin" .bech32)),
    ("O2", offer 102 seller "ada" (address "grin" .bech32)),
    ("O3", offer 103 other "bob" (address "tgrin" .bech32)),
    ("O4", hugeOffer 104 seller "ada" (address "grin" .bech32)),
    ("O7", offer 107 other "bob" (addressOf (key 7))),
    ("register ada", auth 1 seller 1000 .post "/api/v1/register" "R1"),
    ("register bob", auth 2 other 1000 .post "/api/v1/register" "R2"),
    ("lodge O1", auth 3 seller 1000 .post "/api/v1/transfer/offer" "L1"),
    ("lodge O2", auth 4 seller 1000 .post "/api/v1/transfer/offer" "L2"),
    ("lodge O3", auth 5 other 1000 .post "/api/v1/transfer/offer" "L3"),
    ("lodge O4", auth 13 seller 1000 .post "/api/v1/transfer/offer" "L4"),
    ("lodge O7", auth 15 other 1000 .post "/api/v1/transfer/offer" "L7"),
    ("claim O1", auth 6 buyer 1000 .post "/api/v1/transfer/claim" "C1"),
    ("late claim O1", auth 7 buyer 200000 .post "/api/v1/transfer/claim" "C1"),
    ("stranger claim O1", auth 14 other 1000 .post "/api/v1/transfer/claim" "C2"),
    ("release ada", auth 8 seller 1000 .delete "/api/v1/register/ada" ""),
    ("early release ada", auth 10 seller 1005 .delete "/api/v1/register/ada" ""),
    ("reregister ada", auth 11 seller 1000 .post "/api/v1/register" "R1"),
    ("late register ada", auth 12 seller 1700 .post "/api/v1/register" "R1"),
    ("revoke O1", auth 9 seller 1000 .delete ("/api/v1/transfer/offer/" ++ offerId 101) "")]
  values := [
    ("L1", .object [("offer", .string "O1")]),
    ("L2", .object [("offer", .string "O2")]),
    ("L3", .object [("offer", .string "O3")]),
    ("L4", .object [("offer", .string "O4")]),
    ("L7", .object [("offer", .string "O7")]),
    ("C1", .object [("offer_id", .string (offerId 101)), ("proof", payment)]),
    ("C2", .object [("offer_id", .string (offerId 101)), ("proof", forgery)])]
  registrations := [("R1", ⟨"ada", seller.toHex⟩), ("R2", ⟨"bob", other.toHex⟩)]

def config : Config where
  domain := "goblin.st"
  baseUrl := "https://goblin.st"
  relays := ["wss://relay.floonet.dev"]
  nameChangeCooldown := 600 * RateLimit.nanosPerSec
  authMaxAgeSecs := 60
  nameMin := 3
  nameMax := 20
  readRateMax := 100000
  readRateWindow := 60 * RateLimit.nanosPerSec
  writeRateMax := 100000
  writeRateWindow := 3600 * RateLimit.nanosPerSec
  extraReserved := ["goblin"]
  allowTransfers := true
  grinNodeUrl := some "https://node.example/v2/foreign"
  transferMinConf := 10
  transferMaxOfferTtl := 2592000
  transferClaimGrace := 86400

def app : App := ⟨config, crates script⟩

/-! ## Requests and the world -/

def headers (text : String) : Headers := ⟨some ("Nostr " ++ text), none⟩

def registerAda : Request := .register (headers "register ada") (utf8 "R1")

def registerBob : Request := .register (headers "register bob") (utf8 "R2")

def lodgeOne : Request := .lodgeOffer (headers "lodge O1") (utf8 "L1")

def lodgeTwo : Request := .lodgeOffer (headers "lodge O2") (utf8 "L2")

def lodgeThree : Request := .lodgeOffer (headers "lodge O3") (utf8 "L3")

def lodgeFour : Request := .lodgeOffer (headers "lodge O4") (utf8 "L4")

def lodgeSeven : Request := .lodgeOffer (headers "lodge O7") (utf8 "L7")

def claimOne : Request := .claim (headers "claim O1") (utf8 "C1")

def lateClaimOne : Request := .claim (headers "late claim O1") (utf8 "C1")

/-- The stranger repeats the buyer's claim with a forged proof. -/
def strangerClaimOne : Request := .claim (headers "stranger claim O1") (utf8 "C2")

def releaseAda : Request := .unregister (headers "release ada") "ada"

/-- Authorized by an event that is dated five seconds ahead of the world. -/
def earlyReleaseAda : Request := .unregister (headers "early release ada") "ada"

def revokeOne : Request := .revokeOffer (headers "revoke O1") (offerId 101)

def readOne : Request := .readOffer (headers "") (offerId 101)

/-- A node at height 1000 with every kernel mined at 900. -/
def node : ChainSource := ⟨fun _ => .ok ⟨true, 10, some 900⟩, .ok 1000⟩

def clock (nanos : Nanos) (bound : nanos < 2 ^ 63 * RateLimit.nanosPerSec := by decide) : Clock :=
  ⟨nanos, bound⟩

/-- Second 1020: the offers of the script have expired. -/
def expired : Clock := clock (1020 * 1000000000)

/-- Second 200000: the grace period of an expired offer has passed as well. -/
def outOfGrace : Clock := clock (200000 * 1000000000)

/-- The empty world at second 1000. -/
def world : World where
  db := .empty
  rate := .empty
  seenAuth := .empty
  clock := clock (1000 * 1000000000)
  node := some node
  fault := none

theorem world_fresh : world.Fresh := ⟨rfl, rfl, rfl⟩

/-- Complete requests, and what happens between them, from the empty world. -/
def serve (ok : Request → Stmt → World → Prop) [∀ r t w, Decidable (ok r t w)]
    (todo : List (Request ⊕ Around)) : Option (List (Request × Hist World) × Hist World) :=
  (authority app).serve ok [] ⟨world, []⟩ todo

theorem serve_served {ok : Request → Stmt → World → Prop} [∀ r t w, Decidable (ok r t w)]
    {todo : List (Request ⊕ Around)} {log : List (Request × Hist World)} {h : Hist World}
    (run : serve ok todo = some (log, h)) : Served (authority app) ok log h :=
  ⟨world, world_fresh, Serves.serve_run .refl run⟩

/-- The next `n` sections of a request. -/
def sections (i n : Nat) : List (Concurrent.Event Request Around) := List.replicate n (.run i)

/-- A process of a request that has given an answer with a property. -/
theorem answered_of_any {c : Conf World Stmt Request Handlers.Response} {i : Nat} {r : Request}
    {p : Handlers.Response → Bool}
    (found : (c.procs[i]?.any fun q => q.1 == r && q.2.answer?.any p) = true) :
    ∃ response, c.procs[i]? = some (r, .ret response) ∧ p response = true := by
  obtain ⟨⟨r', left⟩, there, found⟩ := (Option.any_eq_true _ _).1 found
  rw [Bool.and_eq_true, beq_iff_eq, Option.any_eq_true] at found
  obtain ⟨rfl, response, answered, holds⟩ := found
  obtain rfl := Prog.ret_of_answer answered
  exact ⟨response, there, holds⟩

end Nip05d.Scripted
