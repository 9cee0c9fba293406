import Nip05d.Text.Number

/-!
# Runtime configuration

The configuration a running authority was started with. Durations are in
nanoseconds. `validate` is the check made at startup.
-/

namespace Nip05d

structure Config where
  domain : String
  baseUrl : String
  relays : List String
  nameChangeCooldown : Nat
  authMaxAgeSecs : Int
  nameMin : Nat
  nameMax : Nat
  readRateMax : Nat
  readRateWindow : Nat
  writeRateMax : Nat
  writeRateWindow : Nat
  extraReserved : List String
  allowTransfers : Bool
  grinNodeUrl : Option String
  transferMinConf : Nat
  transferMaxOfferTtl : Int
  transferClaimGrace : Int
  authMaxAge_range : Text.InI64 authMaxAgeSecs := by decide
  transferMaxOfferTtl_range : Text.InI64 transferMaxOfferTtl := by decide
  transferClaimGrace_range : Text.InI64 transferClaimGrace := by decide

namespace Config

open Text

/-- A string without a prefix it starts with. -/
def stripPrefix (s p : String) : Option String :=
  if chars p <+: chars s then some (String.ofList ((chars s).drop (chars p).length)) else none

/-- The part of a string before the first separator. -/
def untilChar (s : String) (c : Char) : String := 
  String.ofList ((chars s).takeWhile (· != c))

/-- The consistency checks of startup. -/
def validate (cfg : Config) : Except String Unit :=
  if cfg.domain = "" then .error "GOBLIN_DOMAIN must not be empty"
  else match stripPrefix cfg.baseUrl "https://" with
  | none => .error s!"GOBLIN_BASE_URL must start with https:// (got `{cfg.baseUrl}`)"
  | some host =>
    if host = "" then .error "GOBLIN_BASE_URL has no host"
    else
      let hostNoPort := untilChar host '/'
      let hostBare := untilChar hostNoPort ':'
      if hostBare ≠ cfg.domain then
        .error s!"GOBLIN_BASE_URL host `{hostBare}` does not match GOBLIN_DOMAIN `{cfg.domain}`"
      else if cfg.nameMin = 0 ∨ cfg.nameMin > cfg.nameMax then
        .error s!"invalid name length bounds: min={cfg.nameMin} max={cfg.nameMax}"
      else if cfg.allowTransfers ∧ cfg.grinNodeUrl = none then
        .error ("GOBLIN_ALLOW_TRANSFERS is set but GOBLIN_GRIN_NODE_URL is empty " ++
          "(a Grin node foreign API is required to confirm payment kernels)")
      else .ok ()

end Config

end Nip05d
