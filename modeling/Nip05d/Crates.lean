import Nip05d.Config
import Nip05d.Json
import Nip05d.Text.Hex

/-!
# The crates the authority is built on

Event parsing and verification, JSON parsing, hashing and signature checking
are other people's code. An `App` carries them as functions next to its
configuration; nothing here says what they compute. Bech32 and hexadecimal text,
on whose details addresses and excesses depend, are defined instead, by their
formats (`Bech32`, `Text.Hex`), and so are the accessors of JSON values.
-/

namespace Nip05d

open Text

abbrev Bytes := List UInt8

/-- Thirty-two bytes: a key or an event id. -/
structure Bytes32 where
  bytes : Bytes
  length : bytes.length = 32
  deriving DecidableEq

namespace Bytes32

def ofBytes (bytes : Bytes) : Option Bytes32 :=
  if length : bytes.length = 32 then some ⟨bytes, length⟩ else none

def toHex (b : Bytes32) : String := Hex.encode b.bytes

theorem toHex_inj {a b : Bytes32} : a.toHex = b.toHex ↔ a = b := by
  constructor
  · intro same
    cases a
    cases b
    congr 1
    exact Hex.encode_inj.1 same
  · rintro rfl
    rfl

theorem ofBytes_eq_some {bytes : Bytes} {b : Bytes32} : ofBytes bytes = some b ↔ b.bytes = bytes := by
  unfold ofBytes
  constructor
  · intro h
    split at h
    · cases h; rfl
    · cases h
  · rintro rfl
    exact dif_pos b.length

end Bytes32

/-- A signed event. The id is the hash of the other fields but the signature. -/
structure Event where
  id : Bytes32
  pubkey : Bytes32
  createdAt : Nat
  kind : Nat
  tags : List (List String)
  content : String
  sig : Bytes
  deriving DecidableEq

structure RegisterBody where
  name : String
  pubkey : String

structure Crates where
  unicode : CaseData
  base64Decode : String → Option Bytes
  eventFromJson : Bytes → Option Event
  eventVerify : Event → Bool
  eventAsJson : Event → String
  sha256 : Bytes → Bytes
  valueFromSlice : Bytes → Option Json.Value
  valueFromStr : String → Option Json.Value
  valueToString : Json.Value → String
  registerBodyFromSlice : Bytes → Option RegisterBody
  verifyingKeyFromBytes : Bytes32 → Bool
  verifyingKeyVerify : Bytes32 → Bytes → Bytes → Bool

/-- What the id of an event is the hash of. -/
def Event.hashed (e : Event) : Bytes32 × Nat × Nat × List (List String) × String :=
  (e.pubkey, e.createdAt, e.kind, e.tags, e.content)

/-- An id binds the fields of its event: verification recomputes it as their
hash, and different fields do not hash to one id. The signature is not bound. -/
def Crates.IdsBind (crates : Crates) : Prop :=
  ∀ e e', crates.eventVerify e → crates.eventVerify e' → e.id = e'.id → e.hashed = e'.hashed

/-- The static part of the application: its configuration and its crates. -/
structure App where
  cfg : Config
  crates : Crates

namespace App

def toLowercase (app : App) (s : String) : String := Text.toLowercase app.crates.unicode s

end App

/-- The bytes of a string. -/
def utf8 (s : String) : Bytes := s.toUTF8.data.toList

end Nip05d
