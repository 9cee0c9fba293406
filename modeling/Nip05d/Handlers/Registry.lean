import Nip05d.Handlers.Http
import Nip05d.Names

/-!
# The name registry

Availability, registration, release, and the public lookups.
-/

namespace Nip05d.Handlers

open Auth Names

/-- `name@domain`. -/
def nip05 (app : App) (name : String) : String := name ++ "@" ++ app.cfg.domain

def availability (app : App) (headers : Headers) (name : String) : Handler Response :=
  limited app headers do
    let name := app.toLowercase name
    let unavailable (reason : String) :=
      respond 200 [("name", .string name), ("available", .bool false), ("reason", .string reason)]
    if ¬ validName name app.cfg.nameMin app.cfg.nameMax then return unavailable "invalid"
    if isReserved name app.cfg.extraReserved then return unavailable "reserved"
    let owner ← Handler.lookup name
    if owner.isSome then return unavailable "taken"
    return respond 200 [("name", .string name), ("available", .bool true)]

/-- The answer to an attempt to insert a registration. -/
def registered (app : App) (name : String) : Except Sql.Error Nat → Response
  -- no row changed: the name was already active
  | .ok 0 => err 409 "name taken"
  | .ok _ => respond 201 [("name", .string name), ("nip05", .string (nip05 app name))]
  | .error .constraint => err 409 "pubkey already has a name"
  | .error .other => err 500 "db error"

/-- Registration of a checked name by its authorized key. -/
def registerChecked (app : App) (name pubkey : String) : Handler Response := do
  match ← Handler.lookup name with
  | some owner =>
    if owner = pubkey then
      return respond 200 [("name", .string name), ("nip05", .string (nip05 app name))]
    return err 409 "name taken"
  | none =>
    match ← Handler.nameOf pubkey with
    | some existing =>
      return respond 409
        [("error", .string "pubkey already has a name"), ("name", .string existing)]
    | none =>
      let res ← Handler.registerName app.cfg name pubkey
      return registered app name res

/-- The checks of a registration body. -/
def checkRegistration (app : App) (authPubkey : String) (body : Bytes) :
    Except Response (String × String) :=
  match app.crates.registerBodyFromSlice body with
  | none => .error (err 400 "invalid body")
  | some req =>
    let name := app.toLowercase req.name
    let pubkey := app.toLowercase req.pubkey
    if ¬ validPubkeyHex pubkey then .error (err 400 "invalid pubkey")
    else if pubkey ≠ authPubkey then
      .error (err 401 "auth pubkey does not match body pubkey")
    else if ¬ validName name app.cfg.nameMin app.cfg.nameMax then .error (err 400 "invalid name")
    else if isReserved name app.cfg.extraReserved then .error (err 403 "name reserved")
    else .ok (name, pubkey)

/-- A registration is of what its body asks for, in lower case. -/
theorem checkRegistration_body {app : App} {authPubkey name pubkey : String} {body : Bytes}
    (ok : checkRegistration app authPubkey body = .ok (name, pubkey)) :
    ∃ req, app.crates.registerBodyFromSlice body = some req ∧ name = app.toLowercase req.name ∧
      pubkey = app.toLowercase req.pubkey := by
  unfold checkRegistration at ok
  split at ok
  · cases ok
  rename_i req found
  dsimp only at ok
  repeat' split at ok
  all_goals cases ok
  exact ⟨req, found, rfl, rfl⟩

/-- A checked registration is of a valid, unreserved name by its own key. -/
theorem checkRegistration_ok {app : App} {authPubkey name pubkey : String} {body : Bytes}
    (ok : checkRegistration app authPubkey body = .ok (name, pubkey)) :
    pubkey = authPubkey ∧ validPubkeyHex pubkey = true ∧
      validName name app.cfg.nameMin app.cfg.nameMax = true ∧
      isReserved name app.cfg.extraReserved = false := by
  unfold checkRegistration at ok
  split at ok
  · cases ok
  simp only at ok
  split at ok
  · cases ok
  rename_i valid
  split at ok
  · cases ok
  rename_i own
  split at ok
  · cases ok
  rename_i name_
  split at ok
  · cases ok
  rename_i free
  cases ok
  exact ⟨not_not.1 own, by simpa using valid, by simpa using name_, by simpa using free⟩

/-- A checked registration is of the name in its body, lower-cased. -/
theorem checkRegistration_name {app : App} {authPubkey name pubkey : String} {body : Bytes}
    (ok : checkRegistration app authPubkey body = .ok (name, pubkey)) :
    ∃ req, app.crates.registerBodyFromSlice body = some req ∧ name = app.toLowercase req.name := by
  unfold checkRegistration at ok
  split at ok
  · cases ok
  · rename_i req parsed
    dsimp only at ok
    repeat' split at ok
    all_goals cases ok
    exact ⟨req, parsed, rfl⟩

/-- A refused registration is answered with a client error. -/
theorem checkRegistration_error {app : App} {authPubkey : String} {body : Bytes}
    {response : Response} (refused : checkRegistration app authPubkey body = .error response) :
    400 ≤ response.status := by
  unfold checkRegistration at refused
  dsimp only at refused
  repeat' split at refused
  all_goals cases refused
  all_goals simp [err, respond]

def register (app : App) (headers : Headers) (body : Bytes) : Handler Response :=
  authorized app "reg" headers .post "/api/v1/register" body fun authPubkey => do
    let cooling ← Handler.cooldownActive app.cfg "namechange" authPubkey app.cfg.nameChangeCooldown
    if cooling then return err 429 "name_change_cooldown"
    match checkRegistration app authPubkey body with
    | .error response => return response
    | .ok (name, pubkey) => registerChecked app name pubkey

/-- Release of a name by an authorized key: the owner is looked up first, the
UPDATE that follows is another section. -/
def release (app : App) (name authPubkey : String) : Handler Response := do
  match ← Handler.lookup name with
  | some owner =>
    if owner = authPubkey then
      match ← Handler.releaseName app.cfg name with
      | .ok _ =>
        Handler.recordOp app.cfg "namechange" authPubkey
        return respond 200 [("name", .string name), ("released", .bool true)]
      | .error _ => return err 500 "db error"
    else return err 403 "not the owner"
  | none => return err 404 "name not found"

/-- The write limit is checked before the name is lower-cased; neither reads
what the other does. -/
def unregister (app : App) (headers : Headers) (name : String) : Handler Response :=
  let name := app.toLowercase name
  authorized app "unreg" headers .delete ("/api/v1/register/" ++ name) [] fun authPubkey =>
    release app name authPubkey

/-- The active pubkey for a name. -/
def profile (app : App) (headers : Headers) (name : String) : Handler Response :=
  limited app headers do
    let name := app.toLowercase name
    if ¬ validName name app.cfg.nameMin app.cfg.nameMax then return err 404 "not found"
    match ← Handler.lookup name with
    | some pubkey => return publicRead [("name", .string name), ("pubkey", .string pubkey)]
    | none => return err 404 "not found"

/-- The active name a pubkey holds. -/
def byPubkey (app : App) (headers : Headers) (pubkey : String) : Handler Response :=
  limited app headers do
    let pubkey := app.toLowercase pubkey
    if ¬ validPubkeyHex pubkey then return err 404 "not found"
    match ← Handler.nameOf pubkey with
    | some name => return publicRead [("name", .string name), ("pubkey", .string pubkey)]
    | none => return err 404 "not found"

/-- The pubkey and relays of a name, if it is active. -/
def wellKnownEntry (app : App) : Option String → Handler (Option (String × String))
  | none => return none
  | some name => do
    let name := app.toLowercase name
    if ¬ validName name app.cfg.nameMin app.cfg.nameMax then return none
    let owner ← Handler.lookup name
    return owner.map fun pk => (name, pk)

/-- NIP-05 resolution. -/
def wellKnown (app : App) (headers : Headers) (name : Option String) : Handler Response := do
  let allowed ← Handler.allowRead app.cfg (clientIp headers)
  if ¬ allowed then
    return { err 429 "rate_limited" with
      headers := [contentType, ("access-control-allow-origin", "*")] }
  let entry ← wellKnownEntry app name
  let relays := Json.Value.array (app.cfg.relays.map .string)
  return publicRead
    [("names", json (entry.toList.map fun e => (e.1, .string e.2))),
      ("relays", json (entry.toList.map fun e => (e.2, relays)))]

end Nip05d.Handlers
